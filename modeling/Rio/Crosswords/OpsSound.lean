import Rio.Crosswords.Sound

/-! Printing, editing, modes and graphics keep a terminal sound; so does every run of operations. -/

set_option linter.dupNamespace false

namespace Rio

variable {D : Prop}

namespace Grid

variable {g : Grid Square}

theorem Sound.clearWide (h : g.Sound D) : (Crosswords.clearWide g).Sound D := by
  unfold Crosswords.clearWide
  dsimp only
  split_ifs
  · exact (h.modifyCell _ _).modifyCell _ _
  · exact h.modifyCell _ _
  · exact (h.modifyCell _ _).modifyCell _ _
  · exact h.modifyCell _ _
  · exact h.modifyCell _ _
  · exact h
  · exact h

theorem clearWide_eq (g : Grid Square) :
    Crosswords.clearWide g = { g with raw := (Crosswords.clearWide g).raw } := by
  unfold Crosswords.clearWide
  dsimp only
  split_ifs <;> rfl

theorem clearWide_len (g : Grid Square) : (Crosswords.clearWide g).raw.len = g.raw.len := by
  unfold Crosswords.clearWide
  dsimp only
  split_ifs <;> rfl

theorem blankWithBg_eq (g : Grid Square) (bg : AnsiColor) :
    (g.blankWithBg bg).1 = { g with styleSet := (g.blankWithBg bg).1.styleSet } := by
  unfold blankWithBg
  rcases bg with n | ⟨r, g', b⟩ | i
  · dsimp only
    split_ifs <;> rfl
  · rfl
  · rfl

theorem templateBlank_eq (g : Grid Square) :
    g.templateBlank.1 = { g with styleSet := g.templateBlank.1.styleSet } :=
  blankWithBg_eq g _

theorem Sound.templateBlank (h : g.Sound D) : g.templateBlank.1.Sound D := by
  rw [templateBlank_eq]
  exact h.of_eq rfl rfl rfl rfl rfl rfl rfl

theorem clearGraphicAt_eq (g : Grid Square) (p : Pos) :
    ∃ f extrasTable, g.clearGraphicAt p = { g.modifyCell p f with extrasTable := extrasTable } := by
  unfold clearGraphicAt
  split_ifs
  · exact ⟨_, _, rfl⟩
  · exact ⟨_, _, rfl⟩

theorem Sound.clearGraphicAt (h : g.Sound D) (p : Pos) : (g.clearGraphicAt p).Sound D := by
  obtain ⟨f, extrasTable, heq⟩ := clearGraphicAt_eq g p
  rw [heq]
  exact (h.modifyCell p f).of_eq rfl rfl rfl rfl rfl rfl rfl

end Grid

theorem swapCells_length (start stop count : ℕ) (cells : List Square) :
    (swapCells start stop count cells).length = cells.length := by
  unfold swapCells
  induction List.range count generalizing cells with
  | nil => rfl
  | cons offset offsets ih => rw [List.foldl_cons, ih, Ring.length_swapAt]

theorem swapCellsBack_length (start stop count : ℕ) (cells : List Square) :
    (swapCellsBack start stop count cells).length = cells.length := by
  unfold swapCellsBack
  induction (List.range count).reverse generalizing cells with
  | nil => rfl
  | cons offset offsets ih => rw [List.foldl_cons, ih, Ring.length_swapAt]

theorem Row.modifyAll_len {α : Type} (r : Row α) {f : List α → List α}
    (hf : ∀ cells, (f cells).length = cells.length) : (r.modifyAll f).len = r.len :=
  hf r.inner

namespace Crosswords

variable {t : Crosswords}

/-! ### Wrapping -/

/-- What decides if a line feed scrolls under the display. -/
theorem LinefeedsHold.of_eq {k : ℕ} (h : t.LinefeedsHold k) {t' : Crosswords}
    (hregion : t'.scrollRegion = t.scrollRegion) (hrow : t'.pos.row = t.pos.row)
    (hdisplay : t'.grid.displayOffset = t.grid.displayOffset)
    (hmax : t'.grid.maxScrollLimit = t.grid.maxScrollLimit)
    (hsize : t'.grid.historySize = t.grid.historySize) : t'.LinefeedsHold k := by
  unfold LinefeedsHold marginScrolls at h ⊢
  rwa [hregion, hrow, hdisplay, hmax, hsize]

/-- The cells of the active grid change and nothing else. -/
def OnlyCells (t t' : Crosswords) : Prop :=
  ∃ (raw : Storage Square) (extrasTable : ExtrasTable), raw.len = t.grid.raw.len ∧
    t' = t.mapGrid fun g => { g with raw := raw, extrasTable := extrasTable }

section OnlyCells

variable {t' t'' : Crosswords}

theorem OnlyCells.refl (t : Crosswords) : t.OnlyCells t := 
  ⟨t.grid.raw, t.grid.extrasTable, rfl, rfl⟩

theorem OnlyCells.trans (h : t.OnlyCells t') (h' : t'.OnlyCells t'') : t.OnlyCells t'' := by
  obtain ⟨raw, extrasTable, hlen, rfl⟩ := h
  obtain ⟨raw', extrasTable', hlen', rfl⟩ := h'
  exact ⟨raw', extrasTable', hlen'.trans hlen, rfl⟩

theorem OnlyCells.columns (h : t.OnlyCells t') : t'.grid.columns = t.grid.columns := by
  obtain ⟨raw, extrasTable, -, rfl⟩ := h
  rfl

theorem OnlyCells.pos (h : t.OnlyCells t') : t'.pos = t.pos := by
  obtain ⟨raw, extrasTable, -, rfl⟩ := h
  rfl

theorem OnlyCells.mode (h : t.OnlyCells t') : t'.mode = t.mode := by
  obtain ⟨raw, extrasTable, -, rfl⟩ := h
  rfl

theorem OnlyCells.linefeedsHold (h : t.OnlyCells t') {k : ℕ} (hholds : t.LinefeedsHold k) :
    t'.LinefeedsHold k := by
  obtain ⟨raw, extrasTable, hlen, rfl⟩ := h
  refine hholds.of_eq rfl rfl rfl rfl ?_
  rw [Grid.historySize_eq, Grid.historySize_eq]
  exact congrArg (· - t.grid.lines) hlen

theorem onlyCells_modifyRow (t : Crosswords) (line : ℤ) (f : Row Square → Row Square) :
    t.OnlyCells (t.mapGrid (·.modifyRow line f)) :=
  ⟨(t.grid.modifyRow line f).raw, t.grid.extrasTable, rfl, rfl⟩

theorem onlyCells_modifyCursorCell (t : Crosswords) (f : Square → Square) :
    t.OnlyCells (t.mapGrid (·.modifyCursorCell f)) :=
  ⟨(t.grid.modifyCursorCell f).raw, t.grid.extrasTable, rfl, rfl⟩

end OnlyCells

theorem linefeed_mode (t : Crosswords) : t.linefeed.mode = t.mode := by
  unfold linefeed scrollUpRelative
  dsimp only
  rw [damageLines_eq]
  split_ifs <;> rfl

/-- The wrap of a line, once the cell is marked. -/
theorem wrapline_eq (hwrap : t.mode.lineWrap) :
    ∃ t₁ : Crosswords, t.wrapline =
        (t₁.mapGrid fun g => (g.setCol 0).setShouldWrap false).damageCursor ∧
      (t₁ = (t.mapGrid (·.modifyCursorCell (·.setWrapline true))).linefeed ∨
        t.pos.row + 1 < t.scrollRegion.stop ∧
          t₁ = (t.mapGrid (·.modifyCursorCell (·.setWrapline true))).damageCursor.mapGrid
            (·.setLine (t.pos.row + 1))) := by
  unfold wrapline
  rw [if_neg (by simp [hwrap])]
  refine ⟨_, rfl, ?_⟩
  dsimp only
  split_ifs with hstop
  · exact .inl rfl
  · exact .inr ⟨not_le.mp hstop, rfl⟩

theorem Sound.wrapline (h : t.Sound D) (hholds : D → t.mode.lineWrap → t.LinefeedsHold 1) :
    t.wrapline.Sound D := by
  by_cases hwrap : t.mode.lineWrap
  · obtain ⟨t₁, heq, hcases⟩ := wrapline_eq hwrap
    have hmarked := h.modifyCursorCell (·.setWrapline true)
    have hregion := h.region
    have hrow := h.grid.cursor.1
    have h₁ : t₁.Sound D := by
      rcases hcases with rfl | ⟨hstop, rfl⟩
      · exact hmarked.linefeed fun hD => (hholds hD hwrap).of_eq rfl rfl rfl rfl rfl
      · refine hmarked.damageCursor.setLine ?_ ?_
        · show 0 ≤ t.grid.cursor.pos.row + 1
          omega
        · show t.pos.row + 1 < t.grid.lines
          omega
    have hcolumns := h₁.grid.columns_ge
    rw [heq]
    exact (h₁.setColNoWrap (show 0 < t₁.grid.columns by omega) false).damageCursor
  · have heq : t.wrapline = t := by
      unfold Crosswords.wrapline
      rw [if_pos (by simpa using hwrap)]
    rwa [heq]

theorem wrapline_columns (t : Crosswords) : t.wrapline.grid.columns = t.grid.columns := by
  by_cases hwrap : t.mode.lineWrap
  · obtain ⟨t₁, heq, rfl | ⟨-, rfl⟩⟩ := wrapline_eq hwrap
    · rw [heq]
      exact linefeed_columns _
    · rw [heq]
      rfl
  · unfold wrapline
    rw [if_pos (by simpa using hwrap)]

theorem wrapline_mode (t : Crosswords) : t.wrapline.mode = t.mode := by
  by_cases hwrap : t.mode.lineWrap
  · obtain ⟨t₁, heq, rfl | ⟨-, rfl⟩⟩ := wrapline_eq hwrap
    · rw [heq]
      exact linefeed_mode _
    · rw [heq]
      rfl
  · unfold wrapline
    rw [if_pos (by simpa using hwrap)]

theorem wrapline_col (hwrap : t.mode.lineWrap) : t.wrapline.pos.col = 0 := by
  obtain ⟨t₁, heq, -⟩ := wrapline_eq hwrap
  rw [heq]
  rfl

/-! ### Writing -/

theorem Sound.writeAtCursor (h : t.Sound D) (c : Char) : (t.writeAtCursor c).Sound D := by
  have hcell (cell : Square) :
      (t.mapGrid fun g => (clearWide g).modifyCursorCell fun _ => cell).Sound D := by
    refine h.mapGrid (h.grid.clearWide.modifyCursorCell _) ?_ ?_
    · rw [Grid.clearWide_eq]
      rfl
    · rw [Grid.clearWide_eq]
      rfl
  exact hcell _

theorem Sound.writeTagged (h : t.Sound D) (c : Char) (tag : Wide) : (t.writeTagged c tag).Sound D :=
  (h.writeAtCursor c).modifyCursorCell _

theorem Sound.advance (h : t.Sound D) : t.advance.Sound D := by
  unfold Crosswords.advance
  split_ifs with hcol
  · exact h.setCol hcol
  · exact h.setShouldWrap true

theorem onlyCells_writeAtCursor (t : Crosswords) (c : Char) : t.OnlyCells (t.writeAtCursor c) := by
  refine ⟨(t.writeAtCursor c).grid.raw, t.grid.extrasTable, Grid.clearWide_len t.grid, ?_⟩
  unfold writeAtCursor mapGrid
  dsimp only
  congr 1
  rw [Grid.clearWide_eq]
  rfl

theorem onlyCells_writeTagged (t : Crosswords) (c : Char) (tag : Wide) :
    t.OnlyCells (t.writeTagged c tag) := by
  have hwritten := onlyCells_writeAtCursor t c
  unfold writeTagged
  generalize t.writeAtCursor c = written at hwritten ⊢
  exact hwritten.trans (onlyCells_modifyCursorCell written _)

@[simp] theorem writeTagged_columns (t : Crosswords) (c : Char) (tag : Wide) :
    (t.writeTagged c tag).grid.columns = t.grid.columns :=
  (onlyCells_writeTagged t c tag).columns

@[simp] theorem writeTagged_pos (t : Crosswords) (c : Char) (tag : Wide) :
    (t.writeTagged c tag).pos = t.pos :=
  (onlyCells_writeTagged t c tag).pos

@[simp] theorem writeTagged_mode (t : Crosswords) (c : Char) (tag : Wide) :
    (t.writeTagged c tag).mode = t.mode :=
  (onlyCells_writeTagged t c tag).mode

/-! ### Variation selectors -/

/-- U+FE0F widens a character in the last column. -/
def Vs16Wraps (u : Unicode) (t : Crosswords) : Prop :=
  let base := t.grid.cell ⟨t.pos.row, t.baseColumn⟩
  (t.grid.cursor.shouldWrap ∨ t.pos.col ≠ 0) ∧ base.wide = .narrow ∧
    u.vsIsValidBase base.c '\ufe0f' ∧ t.grid.columns ≤ t.baseColumn + 1 ∧ t.mode.lineWrap

theorem Sound.baseColumn_lt (h : t.Sound D) : t.baseColumn < t.grid.columns := by
  have hcol := h.col_lt
  unfold Crosswords.baseColumn
  split_ifs <;> omega

theorem Sound.widenOnNextRow (h : t.Sound D) {baseCol : ℕ} (hbase : baseCol < t.grid.columns)
    (base : Square) (hholds : D → t.LinefeedsHold 1) : (t.widenOnNextRow baseCol base).Sound D := by
  have hmoved := h.setColNoWrap hbase false
  have hheld (hD : D) :
      (t.mapGrid fun g => (g.setCol baseCol).setShouldWrap false).LinefeedsHold 1 :=
    (hholds hD).of_eq rfl rfl rfl rfl rfl
  unfold Crosswords.widenOnNextRow
  have hcolumns : (t.mapGrid fun g => (g.setCol baseCol).setShouldWrap false).grid.columns =
      t.grid.columns := rfl
  generalize (t.mapGrid fun g => (g.setCol baseCol).setShouldWrap false) = t₁
    at hmoved hheld hcolumns ⊢
  have hwrapped := (hmoved.writeTagged ' ' .leadingSpacer).wrapline
    fun hD _ => (onlyCells_writeTagged _ _ _).linefeedsHold (hheld hD)
  have hcols := wrapline_columns (t₁.writeTagged ' ' .leadingSpacer)
  rw [writeTagged_columns, hcolumns] at hcols
  dsimp only
  generalize (t₁.writeTagged ' ' .leadingSpacer).wrapline = t₂ at hwrapped hcols ⊢
  have hone : 1 < t₂.grid.columns := hwrapped.grid.columns_ge
  have hwritten := (hwrapped.mapGrid
    (f := fun g => (g.modifyCell ⟨t₂.pos.row, 0⟩ fun _ => base.setWide .wide).setCol 1)
    ((hwrapped.grid.modifyCell _ _).setCol hone) rfl rfl).writeTagged ' ' .spacer
  apply Sound.damageLine
  apply Sound.damageLine
  split_ifs with hnext
  · refine hwritten.setCol ?_
    rw [writeTagged_columns]
    exact hcols.symm ▸ hnext
  · exact hwritten.setShouldWrap true

theorem Sound.widenInPlace (h : t.Sound D) {baseCol : ℕ} (hbase : baseCol + 1 < t.grid.columns) :
    (t.widenInPlace baseCol).Sound D := by
  apply Sound.damageLine
  apply Sound.advance
  apply Sound.writeTagged
  exact h.mapGrid (((h.grid.modifyCell _ _).setCol hbase).setShouldWrap false) rfl rfl

theorem Sound.applyEmojiVs16 (h : t.Sound D) (u : Unicode)
    (hholds : D → Vs16Wraps u t → t.LinefeedsHold 1) : (t.applyEmojiVs16 u).Sound D := by
  unfold Crosswords.applyEmojiVs16
  dsimp only
  by_cases hstart : ¬t.grid.cursor.shouldWrap ∧ t.pos.col = 0
  · rwa [if_pos hstart]
  rw [if_neg hstart]
  split_ifs with hvalid hroom hwrap
  · exact h
  · exact h
  · refine h.widenOnNextRow h.baseColumn_lt _ fun hD => hholds hD ?_
    simp only [not_or, not_not, Bool.not_eq_true', Bool.not_eq_false] at hvalid hwrap
    refine ⟨?_, hvalid.1, hvalid.2, hroom, hwrap⟩
    by_cases hpending : t.grid.cursor.shouldWrap
    · exact .inl hpending
    · exact .inr fun hcol => hstart ⟨hpending, hcol⟩
  · exact h.widenInPlace (not_le.mp hroom)

theorem Sound.applyEmojiVs15 (h : t.Sound D) (u : Unicode) : (t.applyEmojiVs15 u).Sound D := by
  unfold Crosswords.applyEmojiVs15
  dsimp only
  split_ifs
  · exact h
  · exact h
  · apply Sound.damageLine
    apply Sound.setShouldWrap
    exact h.mapGrid (((h.grid.modifyCell _ _).modifyCell _ _).setCol h.baseColumn_lt) rfl rfl

/-! ### Printing -/

theorem pushZeroWidth_eq (g : Grid Square) (p : Pos) (c : Char) :
    ∃ f extrasTable, pushZeroWidth g p c = { g.modifyCell p f with extrasTable := extrasTable } := by
  unfold pushZeroWidth
  split
  · exact ⟨_, _, rfl⟩
  · exact ⟨_, _, rfl⟩

theorem Sound.pushZeroWidth (h : t.Sound D) (p : Pos) (c : Char) :
    (t.mapGrid (pushZeroWidth · p c)).Sound D := by
  obtain ⟨f, extrasTable, heq⟩ := pushZeroWidth_eq t.grid p c
  refine h.mapGrid ?_ ?_ ?_
  · rw [heq]
    exact (h.grid.modifyCell p f).of_eq rfl rfl rfl rfl rfl rfl rfl
  · rw [heq]
    rfl
  · rw [heq]
    rfl

theorem Sound.inputZeroWidth (h : t.Sound D) (u : Unicode) (c : Char)
    (hholds : D → c = '\ufe0f' → Vs16Wraps u t → t.LinefeedsHold 1) :
    (t.inputZeroWidth u c).Sound D := by
  have happlied : (if c = '\ufe0f' then t.applyEmojiVs16 u
      else if c = '\ufe0e' then t.applyEmojiVs15 u else t).Sound D := by
    split_ifs with hvs16
    · exact h.applyEmojiVs16 u fun hD => hholds hD hvs16
    · exact h.applyEmojiVs15 u
    · exact h
  exact (happlied.pushZeroWidth _ c).damageLine _

theorem Sound.shiftForInsert (h : t.Sound D) (width : ℕ) : (t.shiftForInsert width).Sound D := by
  unfold Crosswords.shiftForInsert
  dsimp only
  split_ifs
  · exact h.modifyRow _ fun r => Row.modifyAll_len r fun _ => swapCellsBack_length _ _ _ _
  · exact h

theorem onlyCells_shiftForInsert (t : Crosswords) (width : ℕ) :
    t.OnlyCells (t.shiftForInsert width) := by
  unfold shiftForInsert
  dsimp only
  split_ifs
  · exact onlyCells_modifyRow t _ _
  · exact .refl t

theorem onlyCells_markPlaceholder (t : Crosswords) (c : Char) : t.OnlyCells (t.markPlaceholder c) := by
  unfold markPlaceholder
  split_ifs
  · exact onlyCells_modifyRow t _ _
  · exact .refl t

theorem Sound.markPlaceholder (h : t.Sound D) (c : Char) : (t.markPlaceholder c).Sound D := by
  unfold Crosswords.markPlaceholder
  split_ifs
  · exact h.modifyRow _ fun _ => rfl
  · exact h

theorem Sound.fitWide (h : t.Sound D)
    (hholds : D → t.grid.columns ≤ t.pos.col + 1 → t.mode.lineWrap → t.LinefeedsHold 1) :
    t.fitWide.Sound D := by
  unfold Crosswords.fitWide
  split_ifs with hroom
  · refine (h.writeTagged ' ' .leadingSpacer).wrapline fun hD hwrap => ?_
    rw [writeTagged_mode] at hwrap
    exact (onlyCells_writeTagged _ _ _).linefeedsHold (hholds hD hroom hwrap)
  · exact h

theorem fitWide_columns (t : Crosswords) : t.fitWide.grid.columns = t.grid.columns := by
  unfold fitWide
  split_ifs
  · rw [wrapline_columns, writeTagged_columns]
  · rfl

theorem Sound.fitWide_col (h : t.Sound D) (hwrap : t.pos.col + 1 < t.grid.columns ∨ t.mode.lineWrap) :
    t.fitWide.pos.col + 1 < t.grid.columns := by
  have hcolumns := h.grid.columns_ge
  unfold Crosswords.fitWide
  split_ifs with hroom
  · rw [wrapline_col (by
      rw [writeTagged_mode]
      exact hwrap.resolve_left (by omega))]
    omega
  · omega

theorem Sound.inputWide (h : t.Sound D) (c : Char)
    (hholds : D → t.grid.columns ≤ t.pos.col + 1 → t.mode.lineWrap → t.LinefeedsHold 1) :
    (t.inputWide c).Sound D := by
  unfold Crosswords.inputWide
  split_ifs with hroom
  · exact h.setShouldWrap true
  · have hcol := h.fitWide_col (by
      by_cases hlast : t.grid.columns ≤ t.pos.col + 1
      · exact .inr (by simpa [hlast] using hroom)
      · exact .inl (by omega))
    apply Sound.advance
    apply Sound.damageCursor
    apply Sound.writeTagged
    refine ((h.fitWide hholds).writeTagged c .wide).setCol ?_
    rwa [writeTagged_columns, writeTagged_pos, fitWide_columns]

/-- Printing a character goes to a new line first. -/
def Wraps (u : Unicode) (t : Crosswords) (c : Char) : Prop :=
  ∃ width, u.width c = some width ∧
    if width = 0 then c = '\ufe0f' ∧ Vs16Wraps u t
    else
      t.mode.lineWrap ∧
        (t.grid.cursor.shouldWrap ∨ width ≠ 1 ∧ t.grid.columns ≤ t.pos.col + 1)

theorem Sound.inputVisible (h : t.Sound D) (c : Char) (width : ℕ)
    (hholds : D → t.mode.lineWrap →
      t.grid.cursor.shouldWrap ∨ width ≠ 1 ∧ t.grid.columns ≤ t.pos.col + 1 → t.LinefeedsHold 1) :
    (t.inputVisible c width).Sound D := by
  unfold Crosswords.inputVisible
  dsimp only
  obtain ⟨t₁, heq, h₁, hwide⟩ : ∃ t₁, t₁ = (if t.grid.cursor.shouldWrap then t.wrapline else t) ∧
      t₁.Sound D ∧ (D → width ≠ 1 → t₁.grid.columns ≤ t₁.pos.col + 1 → t₁.mode.lineWrap →
        t₁.LinefeedsHold 1) := by
    refine ⟨_, rfl, ?_⟩
    split_ifs with hpending
    · refine ⟨h.wrapline fun hD hwrap => hholds hD hwrap (.inl hpending), ?_⟩
      intro hD hone hlast hwrap
      rw [wrapline_mode] at hwrap
      rw [wrapline_columns, wrapline_col hwrap] at hlast
      have := h.grid.columns_ge
      omega
    · exact ⟨h, fun hD hone hlast hwrap => hholds hD hwrap (.inr ⟨hone, hlast⟩)⟩
  rw [← heq]
  have hprepared := (h₁.shiftForInsert width).markPlaceholder c
  split_ifs with hone
  · exact (hprepared.writeAtCursor c).damageCursor.advance
  · refine hprepared.inputWide c ?_
    have hrows := (onlyCells_shiftForInsert t₁ width).trans (onlyCells_markPlaceholder _ c)
    rw [hrows.columns, hrows.pos, hrows.mode]
    exact fun hD hlast hwrap => hrows.linefeedsHold (hwide hD hone hlast hwrap)

theorem Sound.input (h : t.Sound D) (u : Unicode) (c : Char)
    (hholds : D → Wraps u t c → t.LinefeedsHold 1) : (t.input u c).Sound D := by
  unfold Crosswords.input
  rcases hwidth : u.width c with _ | width
  · exact h
  · dsimp only
    split_ifs with hzero
    · refine h.inputZeroWidth u c fun hD hc hwraps => hholds hD ⟨width, hwidth, ?_⟩
      rw [if_pos hzero]
      exact ⟨hc, hwraps⟩
    · refine h.inputVisible c width fun hD hwrap hwraps => hholds hD ⟨width, hwidth, ?_⟩
      rw [if_neg hzero]
      exact ⟨hwrap, hwraps⟩

/-! ### Editing -/

theorem Sound.withBlank (h : t.Sound D) {f : Crosswords → Square → Crosswords}
    (hf : ∀ (t' : Crosswords) (blank : Square), t'.Sound D → (f t' blank).Sound D) :
    (t.withBlank f).Sound D := by
  have hgrid := Grid.templateBlank_eq t.grid
  refine hf _ _ (h.mapGrid (f := fun g => g.templateBlank.1) h.grid.templateBlank ?_ ?_)
  · rw [hgrid]
  · rw [hgrid]

theorem Sound.eraseChars (h : t.Sound D) (count : ℕ) : (t.eraseChars count).Sound D := by
  unfold Crosswords.eraseChars
  exact h.withBlank fun _ _ h' => h'.damageCursor.modifyRow _ fun r => Row.fill_len r _ _ _

theorem Sound.deleteChars (h : t.Sound D) (count : ℕ) : (t.deleteChars count).Sound D := by
  unfold Crosswords.deleteChars
  exact h.withBlank fun _ _ h' => h'.damageCursor.modifyRow _ fun r =>
    (Row.fillFrom_len _ _ _).trans (Row.modifyAll_len r fun _ => swapCells_length _ _ _ _)

theorem Sound.insertBlank (h : t.Sound D) (count : ℕ) : (t.insertBlank count).Sound D := by
  unfold Crosswords.insertBlank
  exact h.withBlank fun _ _ h' => h'.damageCursor.modifyRow _ fun r =>
    (Row.fill_len _ _ _ _).trans (Row.modifyAll_len r fun _ => swapCellsBack_length _ _ _ _)

theorem Sound.clearLine (h : t.Sound D) (mode : LineClearMode) : (t.clearLine mode).Sound D := by
  unfold Crosswords.clearLine
  refine h.withBlank fun t' blank h' => ?_
  have hclear (left right : ℕ) :
      (t'.damageCursor.mapGrid (·.modifyRow t'.pos.row (·.fill left right blank))).Sound D :=
    h'.damageCursor.modifyRow _ fun r => Row.fill_len r _ _ _
  cases mode with
  | right =>
    dsimp only
    split_ifs
    · exact h'
    · exact hclear _ _
  | left => exact hclear _ _
  | all => exact hclear _ _

/-- A grid changes step by step, each of which keeps it sound and of one size. -/
theorem Sound.mapGrid_foldl {β : Type} (h : t.Sound D) {f : Grid Square → β → Grid Square}
    (hf : ∀ g b, g.Sound D →
      (f g b).Sound D ∧ (f g b).lines = g.lines ∧ (f g b).columns = g.columns)
    (bs : List β) : (t.mapGrid fun g => bs.foldl f g).Sound D := by
  induction bs generalizing t with
  | nil => exact h
  | cons b bs ih =>
    obtain ⟨hgrid, hlines, hcolumns⟩ := hf t.grid b h.grid
    exact ih (h.mapGrid (f := (f · b)) hgrid hlines hcolumns)

theorem Sound.resetRegion (h : t.Sound D) (r : Grid Square → Region) :
    (t.mapGrid fun g => g.resetRegion (r g)).Sound D :=
  h.mapGrid (h.grid.resetRegion _) rfl rfl

theorem Sound.decaln (h : t.Sound D) : t.decaln.Sound D := by
  apply Sound.markFullyDamaged
  exact h.mapGrid_foldl
    (f := fun g line => g.modifyRow line fun row => row.fill 0 g.columns (Square.setC default 'E'))
    (fun g line hg => ⟨hg.modifyRow line fun r => Row.fill_len r _ _ _, rfl, rfl⟩)
    (lineRange 0 t.grid.lines)

theorem Sound.deccolm (h : t.Sound D) : t.deccolm.Sound D :=
  ((h.setScrollingRegion 1 none).resetRegion fun g => ⟨0, g.lines⟩).markFullyDamaged

theorem Sound.setViMode (h : t.Sound D) (p : Pos) : Sound D { t with viModeCursor := p } :=
  h.of_eq rfl rfl rfl

theorem Sound.clearScreen (h : t.Sound D) (mode : ClearMode) : (t.clearScreen mode).Sound D := by
  refine h.withBlank fun t' blank h' => ?_
  cases mode with
  | above =>
    apply Sound.damageLines
    refine Sound.modifyRow ?_ _ fun r => Row.fill_len r _ _ _
    split_ifs
    · exact h'.resetRegion fun _ => ⟨0, t'.pos.row⟩
    · exact h'
  | below =>
    have hfilled := h'.modifyRow t'.pos.row (f := (·.fillFrom t'.pos.col blank))
      fun r => Row.fillFrom_len r _ _
    apply Sound.damageLines
    split_ifs
    · exact hfilled.resetRegion fun g => ⟨t'.pos.row + 1, g.lines⟩
    · exact hfilled
  | all =>
    apply Sound.markFullyDamaged
    split_ifs
    · exact h'.resetRegion fun g => ⟨0, g.lines⟩
    · exact (h'.mapGrid (f := (·.clearViewport)) h'.grid.clearViewport
        (Grid.scrollUp_lines _ _ _) (Grid.scrollUp_columns _ _ _)).setViMode _
  | saved =>
    apply Sound.markFullyDamaged
    split_ifs
    · exact (h'.mapGrid (f := (·.clearHistory)) h'.grid.clearHistory rfl rfl).setViMode _
    · exact h'

theorem Sound.swapped (h : t.Sound D) :
    Sound D { t with grid := t.inactiveGrid, inactiveGrid := t.grid } :=
  ⟨h.inactive, h.grid, h.lines_eq.symm, h.columns_eq.symm,
    h.region.trans_eq (congrArg Nat.cast h.lines_eq.symm)⟩

theorem Sound.resetState (h : t.Sound D) : t.resetState.Sound D := by
  apply Sound.markFullyDamaged
  have hprimary :
      (if t.mode.altScreen then { t with grid := t.inactiveGrid, inactiveGrid := t.grid }
        else t).Sound D := by
    split_ifs
    · exact h.swapped
    · exact h
  exact ⟨hprimary.grid.reset, hprimary.inactive.reset, hprimary.lines_eq, hprimary.columns_eq,
    le_rfl⟩

/-! ### Tabs, attributes and modes -/

theorem Sound.putOneTab (h : t.Sound D) : t.putOneTab.Sound D := by
  have hnext : nextTab t.tabs t.grid.columns t.grid.columns t.pos.col < t.grid.columns :=
    nextTab_lt _ h.col_lt
  unfold Crosswords.putOneTab
  exact h.mapGrid ((h.grid.modifyCursorCell _).setCol hnext) rfl rfl

theorem Sound.iterate {f : Crosswords → Crosswords}
    (hf : ∀ t : Crosswords, t.Sound D → (f t).Sound D) :
    ∀ (count : ℕ) {t : Crosswords}, t.Sound D → (f^[count] t).Sound D
  | 0, _, h => h
  | count + 1, t, h => by
    rw [Function.iterate_succ_apply]
    exact Sound.iterate hf count (hf t h)

theorem Sound.putTab (h : t.Sound D) (count : ℕ)
    (hholds : D → t.grid.cursor.shouldWrap → t.mode.lineWrap → t.LinefeedsHold 1) :
    (t.putTab count).Sound D := by
  unfold Crosswords.putTab
  have htabs := Sound.iterate (D := D) (fun _ => Sound.putOneTab) count h
  dsimp only
  split_ifs with hpending hcount
  · exact h.wrapline fun hD => hholds hD hpending
  · exact htabs.damageCursor
  · exact htabs

theorem Sound.terminalAttribute (h : t.Sound D) (attr : Attr) :
    (t.terminalAttribute attr).Sound D := by
  unfold Crosswords.terminalAttribute
  rcases attr.apply with _ | f
  · exact h
  · exact h.mapGrid (f := (·.updateTemplateStyle f)) (h.grid.of_eq rfl rfl rfl rfl rfl rfl rfl)
      rfl rfl

theorem Sound.setHyperlink (h : t.Sound D) (hyperlink : Option Hyperlink) :
    (t.setHyperlink hyperlink).Sound D := by
  cases hyperlink with
  | none => exact h.mapGrid (h.grid.of_eq rfl rfl rfl rfl rfl rfl rfl) rfl rfl
  | some hl => exact h.mapGrid (h.grid.of_eq rfl rfl rfl rfl rfl rfl rfl) rfl rfl

theorem Sound.configureCharset (h : t.Sound D) (index : CharsetIndex) (charset : StandardCharset) :
    (t.configureCharset index charset).Sound D :=
  h.mapGrid (h.grid.of_eq rfl rfl rfl rfl rfl rfl rfl) rfl rfl

theorem Sound.clearTabs (h : t.Sound D) (mode : TabulationClearMode) :
    (t.clearTabs mode).Sound D := by
  cases mode <;> exact h.of_eq rfl rfl rfl

theorem Sound.setMode (h : t.Sound D) (mode : NamedMode) : (t.setMode mode).Sound D := by
  cases mode <;> exact h.of_eq rfl rfl rfl

theorem Sound.unsetMode (h : t.Sound D) (mode : NamedMode) : (t.unsetMode mode).Sound D := by
  cases mode <;> exact h.of_eq rfl rfl rfl

theorem Sound.swapAlt (h : t.Sound D) : t.swapAlt.Sound D := by
  have hsaved : Sound D
      (if t.mode.altScreen then t
      else
        { t with
          inactiveGrid :=
            { t.inactiveGrid with cursor := t.grid.cursor }.resetRegion ⟨0, t.inactiveGrid.lines⟩
          grid := { t.grid with savedCursor := t.grid.cursor } }) := by
    split_ifs
    · exact h
    · have hg := h.grid
      have hi := h.inactive
      have hcursor : t.grid.cursor.pos.OnScreen t.inactiveGrid.lines t.inactiveGrid.columns := by
        rw [h.lines_eq, h.columns_eq]
        exact hg.cursor
      have hinactive : Grid.Sound D { t.inactiveGrid with cursor := t.grid.cursor } :=
        ⟨hi.wellFormed.withCursor _, hi.lines_pos, hi.columns_ge, hcursor, hi.savedCursor,
          hi.display⟩
      have hgrid : Grid.Sound D { t.grid with savedCursor := t.grid.cursor } :=
        ⟨⟨hg.wellFormed.storage, hg.wellFormed.visible, hg.wellFormed.filled,
          hg.wellFormed.limit, hg.wellFormed.width⟩, hg.lines_pos, hg.columns_ge, hg.cursor,
          hg.cursor, hg.display⟩
      exact ⟨hgrid, hinactive.resetRegion _, h.lines_eq, h.columns_eq, h.region⟩
  exact hsaved.swapped.of_eq rfl rfl rfl

theorem Sound.setPrivateMode (h : t.Sound D) (mode : PrivateMode) :
    (t.setPrivateMode mode).Sound D := by
  cases mode with
  | unknown mode => exact h.of_eq rfl rfl rfl
  | named mode =>
    cases mode with
    | swapScreenAndSetRestoreCursor =>
      unfold Crosswords.setPrivateMode
      split_ifs
      · exact h
      · exact h.swapAlt
    | columnMode => exact h.deccolm
    | _ => exact h.of_eq rfl rfl rfl

theorem Sound.unsetPrivateMode (h : t.Sound D) (mode : PrivateMode) :
    (t.unsetPrivateMode mode).Sound D := by
  cases mode with
  | unknown mode => exact h.of_eq rfl rfl rfl
  | named mode =>
    cases mode with
    | swapScreenAndSetRestoreCursor =>
      unfold Crosswords.unsetPrivateMode
      split_ifs
      · exact h.swapAlt
      · exact h
    | columnMode => exact h.deccolm
    | _ => exact h.of_eq rfl rfl rfl

theorem Sound.popKeyboardModes (h : t.Sound D) (toPop : ℕ) : (t.popKeyboardModes toPop).Sound D := by
  unfold Crosswords.popKeyboardModes
  split_ifs
  · exact h.of_eq rfl rfl rfl
  · have hpopped := Sound.iterate (D := D) (f := popKeyboardMode)
      (fun _ ht => ht.of_eq rfl rfl rfl) toPop h
    exact hpopped.of_eq rfl rfl rfl

theorem Sound.setColor (h : t.Sound D) (index : ℕ) (color : ColorRgb) :
    (t.setColor index color).Sound D := by
  unfold Crosswords.setColor
  dsimp only
  split_ifs <;> exact h.of_eq rfl rfl rfl

theorem Sound.resetColor (h : t.Sound D) (index : ℕ) : (t.resetColor index).Sound D := by
  unfold Crosswords.resetColor
  dsimp only
  split_ifs <;> exact h.of_eq rfl rfl rfl

/-! ### Scrolling -/

theorem Sound.deleteLines (h : t.Sound D) (lines : ℕ)
    (hholds : D → t.scrollRegion.start ≤ t.pos.row → t.pos.row < t.scrollRegion.stop →
      t.grid.ScrollHolds ⟨t.pos.row, t.scrollRegion.stop⟩
        (t.scrollCount (min (t.grid.lines - t.pos.row.toNat) lines))) :
    (t.deleteLines lines).Sound D := by
  unfold Crosswords.deleteLines
  dsimp only
  split_ifs with hinside
  · exact h.scrollUpRelative _ fun hD => hholds hD hinside.2.1 hinside.2.2
  · exact h

theorem Sound.insertBlankLines (h : t.Sound D) (lines : ℕ) :
    (t.insertBlankLines lines).Sound D := by
  unfold Crosswords.insertBlankLines
  dsimp only
  split_ifs
  · exact h.scrollDownRelative _ _
  · exact h

theorem Sound.reverseIndex (h : t.Sound D) : t.reverseIndex.Sound D := by
  have hrow := h.grid.cursor.2.1
  have hlines := h.grid.lines_pos
  unfold Crosswords.reverseIndex
  split_ifs
  · exact h.scrollDownRelative _ _
  · apply Sound.damageCursor
    refine h.damageCursor.setLine (le_max_right _ _) ?_
    show max (t.grid.cursor.pos.row - 1) 0 < (t.grid.lines : ℤ)
    omega

theorem Sound.newline (h : t.Sound D) (hholds : D → t.LinefeedsHold 1) : t.newline.Sound D := by
  have hfed := h.linefeed hholds
  unfold Crosswords.newline
  dsimp only
  split_ifs
  · exact hfed.carriageReturn
  · exact hfed

/-! ### User and window -/

theorem Sound.scrollDisplay (h : t.Sound D) (scroll : Scroll) : (t.scrollDisplay scroll).Sound D := by
  have hscrolled := (h.mapGrid (f := (·.scrollDisplay scroll)) (h.grid.scrollDisplay scroll)
    rfl rfl).setViMode
  unfold Crosswords.scrollDisplay
  dsimp only
  split_ifs
  · exact (hscrolled _).markFullyDamaged
  · exact hscrolled _

theorem Sound.toggleViMode (h : t.Sound D) : t.toggleViMode.Sound D := by
  unfold Crosswords.toggleViMode
  dsimp only
  split_ifs <;> exact h.of_eq rfl rfl rfl

theorem Sound.resize (h : t.Sound D) {numCols numLines : ℕ} (hcols : 2 ≤ numCols)
    (hlines : 1 ≤ numLines) (cellWidth cellHeight : ℕ) :
    (t.resize numCols numLines cellWidth cellHeight).Sound D := by
  unfold Crosswords.resize
  dsimp only
  by_cases hsame : t.grid.columns = numCols ∧ t.grid.lines = numLines
  · rwa [if_pos hsame]
  · rw [if_neg hsame]
    refine ⟨h.grid.resize _ hlines hcols, h.inactive.resize _ hlines hcols, ?_, ?_, le_rfl⟩
    · exact (Grid.resize_lines _ _ _ _).trans (Grid.resize_lines _ _ _ _).symm
    · exact (Grid.resize_columns _ _ _ _).trans (Grid.resize_columns _ _ _ _).symm

/-! ### Graphics -/

theorem placeGraphicCell_eq (g : Grid Square) (p : Pos) (graphic : GraphicCell) :
    ∃ f extrasTable,
      placeGraphicCell g p graphic = { g.modifyCell p f with extrasTable := extrasTable } :=
  ⟨_, _, rfl⟩

/-- A row of a graphic changes the cells of its line only. -/
theorem onlyCells_placeGraphicRow (t : Crosswords) (line : ℤ) (leftmost offsetY : ℕ)
    (texture : TextureRef) (offsets : List ℕ) :
    t.OnlyCells (t.mapGrid fun g => placeGraphicRow g line leftmost offsetY texture offsets) := by
  unfold placeGraphicRow
  induction offsets.zipIdx generalizing t with
  | nil => exact .refl t
  | cons offset offsets ih =>
    have hcell : t.OnlyCells (t.mapGrid fun g =>
        if leftmost + offset.2 < (g.row line).len then
          placeGraphicCell g ⟨line, leftmost + offset.2⟩
            ⟨texture, offset.1.toUInt16, offsetY.toUInt16⟩
        else g) := by
      unfold mapGrid
      dsimp only
      split_ifs
      · exact ⟨(placeGraphicCell t.grid _ _).raw, (placeGraphicCell t.grid _ _).extrasTable, rfl, rfl⟩
      · exact .refl t
    exact hcell.trans (ih _)

theorem Sound.placeGraphicRow (h : t.Sound D) (line : ℤ) (leftmost offsetY : ℕ)
    (texture : TextureRef) (offsets : List ℕ) :
    (t.mapGrid fun g => placeGraphicRow g line leftmost offsetY texture offsets).Sound D := by
  refine h.mapGrid_foldl (fun g offset hg => ?_) offsets.zipIdx
  dsimp only
  split_ifs
  · exact ⟨(hg.modifyCell _ _).of_eq rfl rfl rfl rfl rfl rfl rfl, rfl, rfl⟩
  · exact ⟨hg, rfl, rfl⟩

/-- The line feeds of the rows of a graphic. -/
def graphicLinefeeds (height cellHeight : ℕ) (rows : List (ℕ × ℕ)) : ℕ :=
  rows.countP fun row => row.1 < height - cellHeight.toUInt16.toNat

theorem Sound.fillGraphicRows (scrolling : Bool) (leftmost : ℕ) (texture : TextureRef)
    (width height cellWidth cellHeight : ℕ) :
    ∀ (rows : List (ℕ × ℕ)) {t : Crosswords}, t.Sound D →
      (D → scrolling → t.LinefeedsHold (graphicLinefeeds height cellHeight rows)) →
        (rows.foldl (fillGraphicRow scrolling leftmost texture width height cellWidth cellHeight)
          t).Sound D
  | [], _, h, _ => h
  | row :: rows, t, h, hholds => by
    obtain ⟨offsetY, top⟩ := row
    rw [List.foldl_cons]
    unfold fillGraphicRow
    dsimp only
    by_cases hbelow : !scrolling ∧ t.grid.lines ≤ top
    · rw [if_pos hbelow]
      refine Sound.fillGraphicRows scrolling _ _ _ _ _ _ rows h fun _ hscrolling => ?_
      simp [hscrolling] at hbelow
    rw [if_neg hbelow]
    obtain ⟨line, hline⟩ : ∃ line : ℤ, line = if scrolling then t.pos.row else top := ⟨_, rfl⟩
    rw [← hline]
    have hplaced := h.placeGraphicRow line leftmost offsetY texture (cellOffsets width cellWidth)
    have hcells := onlyCells_placeGraphicRow t line leftmost offsetY texture
      (cellOffsets width cellWidth)
    generalize (t.mapGrid fun g =>
      Crosswords.placeGraphicRow g line leftmost offsetY texture (cellOffsets width cellWidth)) = t₁
      at hplaced hcells
    have hrest (hD : D) (hscrolling : scrolling) :
        (t₁.damageLine line.toNat).LinefeedsHold
          (graphicLinefeeds height cellHeight ((offsetY, top) :: rows)) :=
      hcells.linefeedsHold (hholds hD hscrolling)
    unfold graphicLinefeeds at hrest
    rw [List.countP_cons] at hrest
    by_cases hmore : offsetY < height - cellHeight.toUInt16.toNat
    · by_cases hscrolling : scrolling
      · rw [if_pos ⟨hscrolling, hmore⟩]
        rw [if_pos (by simpa using hmore)] at hrest
        exact Sound.fillGraphicRows scrolling _ _ _ _ _ _ rows
          ((hplaced.damageLine _).linefeed fun hD => hrest hD hscrolling)
          fun hD _ => (hrest hD hscrolling).linefeed
      · rw [if_neg fun hand => hscrolling hand.1]
        exact Sound.fillGraphicRows scrolling _ _ _ _ _ _ rows (hplaced.damageLine _)
          fun _ hscrolling' => absurd hscrolling' hscrolling
    · rw [if_neg fun hand => hmore hand.2]
      rw [if_neg (by simpa using hmore)] at hrest
      exact Sound.fillGraphicRows scrolling _ _ _ _ _ _ rows (hplaced.damageLine _) hrest

/-- The line feeds of a graphic that is `height` pixels high. -/
def insertGraphicLinefeeds (t : Crosswords) (height : ℕ) : ℕ :=
  graphicLinefeeds height t.cellHeight (cellOffsets height t.cellHeight).zipIdx

theorem Sound.insertGraphic (h : t.Sound D) (textureId graphicWidth displayW displayH : ℕ)
    (cursorMovement : Option UInt8)
    (hholds : D → displayW ≤ maxGraphicDimension → displayH ≤ maxGraphicDimension →
      displayW ≠ 0 → ¬t.mode.sixelDisplay → t.LinefeedsHold (t.insertGraphicLinefeeds displayH)) :
    (t.insertGraphic textureId graphicWidth displayW displayH cursorMovement).Sound D := by
  unfold Crosswords.insertGraphic
  by_cases hlarge : maxGraphicDimension < displayW ∨ maxGraphicDimension < displayH
  · rwa [if_pos hlarge]
  rw [if_neg hlarge]
  by_cases hempty : displayW = 0 ∨ displayH = 0
  · rwa [if_pos hempty]
  rw [if_neg hempty]
  dsimp only
  generalize (⟨textureId, displayW.toUInt16, displayH.toUInt16, t.cellHeight⟩ : TextureRef) = texture
  have hfilled : (t.fillGraphic texture displayW displayH).Sound D := by
    refine Sound.fillGraphicRows _ _ _ _ _ _ _ _ h fun hD hscrolling => ?_
    exact hholds hD (by omega) (by omega) (by omega) (by simpa using hscrolling)
  split
  · split_ifs
    · exact hfilled.moveForward _
    · exact hfilled.carriageReturn
    · exact hfilled
  · split_ifs
    · exact hfilled.moveForward _
    · exact hfilled.carriageReturn
    · exact hfilled
  · exact hfilled
  · split_ifs
    · exact hfilled.carriageReturn
    · exact hfilled

theorem Sound.placeKittyOverlay (h : t.Sound D) (rows : ℕ) (cursorMovement : UInt8)
    (hholds : D → cursorMovement ≠ 1 → t.LinefeedsHold (rows - 1)) :
    (t.placeKittyOverlay rows cursorMovement).Sound D := by
  unfold Crosswords.placeKittyOverlay
  split_ifs with hmovement
  · exact h
  · exact (h.linefeeds (rows - 1) fun hD => hholds hD hmovement).carriageReturn

theorem Sound.clearGraphicsInRow (h : t.Sound D) (row : ℤ) (columns : List ℕ) :
    (t.mapGrid fun g => columns.foldl (fun g col => g.clearGraphicAt ⟨row, col⟩) g).Sound D :=
  h.mapGrid_foldl (f := fun g col => g.clearGraphicAt ⟨row, col⟩) (fun g col hg => by
    obtain ⟨f, extrasTable, heq⟩ := Grid.clearGraphicAt_eq g ⟨row, col⟩
    refine ⟨hg.clearGraphicAt _, ?_, ?_⟩
    · rw [heq]
      rfl
    · rw [heq]
      rfl) columns

theorem Sound.deleteGraphicAtPosition (h : t.Sound D) (col : ℕ) (row : ℤ) :
    (t.deleteGraphicAtPosition col row).Sound D := by
  have hcleared := h.clearGraphicsInRow row [col]
  unfold Crosswords.deleteGraphicAtPosition
  dsimp only
  split_ifs
  · exact hcleared.damageLine _
  · exact hcleared
  · exact h

theorem Sound.foldl {β : Type} {step : Crosswords → β → Crosswords}
    (hstep : ∀ (t : Crosswords) b, t.Sound D → (step t b).Sound D) :
    ∀ (bs : List β) {t : Crosswords}, t.Sound D → (bs.foldl step t).Sound D
  | [], _, h => h
  | b :: bs, t, h => Sound.foldl hstep bs (hstep t b h)

theorem Sound.deleteGraphics (h : t.Sound D) (action : Char) (x y : ℕ) :
    (t.deleteGraphics action x y).Sound D := by
  unfold Crosswords.deleteGraphics
  split_ifs
  · exact Sound.foldl (fun t line ht =>
      (ht.clearGraphicsInRow line (List.range t.grid.columns)).damageLine line.toNat) _ h
  · exact h.deleteGraphicAtPosition _ _
  · exact h.deleteGraphicAtPosition _ _
  · exact h
  · unfold Crosswords.deleteGraphicsInColumn
    split_ifs
    · exact Sound.foldl (fun t line ht => ht.deleteGraphicAtPosition _ line) _ h
    · exact h
  · exact h
  · unfold Crosswords.deleteGraphicsInRow
    dsimp only
    split_ifs
    · exact (h.clearGraphicsInRow _ (List.range t.grid.columns)).damageLine _
    · exact h
  · exact h
  · exact h

/-! ### Steps and runs -/

/-- The operation keeps the display within the history: what it scrolls below the top line of the
screen is not shown scrolled back, or there is history enough for the display to stay with it. -/
def HoldsDisplay (u : Unicode) (t : Crosswords) : Op → Prop
  | .input c => Wraps u t c → t.LinefeedsHold 1
  | .putTab _ => t.grid.cursor.shouldWrap → t.mode.lineWrap → t.LinefeedsHold 1
  | .linefeed | .newline => t.LinefeedsHold 1
  | .scrollUp lines => t.grid.ScrollHolds t.scrollRegion (t.scrollCount lines)
  | .deleteLines lines =>
    t.scrollRegion.start ≤ t.pos.row → t.pos.row < t.scrollRegion.stop →
      t.grid.ScrollHolds ⟨t.pos.row, t.scrollRegion.stop⟩
        (t.scrollCount (min (t.grid.lines - t.pos.row.toNat) lines))
  | .insertGraphic _ _ displayW displayH _ =>
    displayW ≤ maxGraphicDimension → displayH ≤ maxGraphicDimension → displayW ≠ 0 →
      ¬t.mode.sixelDisplay → t.LinefeedsHold (t.insertGraphicLinefeeds displayH)
  | .placeKittyOverlay rows cursorMovement => cursorMovement ≠ 1 → t.LinefeedsHold (rows - 1)
  | _ => True

theorem step_sound (h : t.Sound D) (u : Unicode) {op : Op} (hsized : op.Sized)
    (hholds : D → HoldsDisplay u t op) : (t.step u op).Sound D := by
  cases op with
  | input c => exact h.input u c hholds
  | goto line col => exact h.goto line col
  | gotoLine line => exact h.goto line _
  | gotoCol col => exact h.goto _ col
  | moveUp rows => exact h.goto _ _
  | moveDown rows => exact h.goto _ _
  | moveForward cols => exact h.moveForward cols
  | moveBackward cols => exact h.moveBackward cols
  | moveDownAndCr rows => exact h.goto _ 0
  | moveUpAndCr lines => exact h.goto _ 0
  | moveForwardTabs count => exact h.moveForwardTabs count
  | moveBackwardTabs count => exact h.moveBackwardTabs count
  | putTab count => exact h.putTab count hholds
  | backspace => exact h.backspace
  | carriageReturn => exact h.carriageReturn
  | linefeed => exact h.linefeed hholds
  | newline => exact h.newline hholds
  | reverseIndex => exact h.reverseIndex
  | saveCursorPosition => exact h.saveCursorPosition
  | restoreCursorPosition => exact h.restoreCursorPosition
  | setScrollingRegion top bottom => exact h.setScrollingRegion top bottom
  | scrollUp lines => exact h.scrollUpRelative _ hholds
  | scrollDown lines => exact h.scrollDownRelative _ lines
  | insertBlankLines lines => exact h.insertBlankLines lines
  | deleteLines lines => exact h.deleteLines lines hholds
  | insertBlank count => exact h.insertBlank count
  | deleteChars count => exact h.deleteChars count
  | eraseChars count => exact h.eraseChars count
  | clearLine mode => exact h.clearLine mode
  | clearScreen mode => exact h.clearScreen mode
  | decaln => exact h.decaln
  | resetState => exact h.resetState
  | clearTabs mode => exact h.clearTabs mode
  | setHorizontalTabstop => exact h.of_eq rfl rfl rfl
  | terminalAttribute attr => exact h.terminalAttribute attr
  | setHyperlink hyperlink => exact h.setHyperlink hyperlink
  | configureCharset index charset => exact h.configureCharset index charset
  | setActiveCharset index => exact h.of_eq rfl rfl rfl
  | setMode mode => exact h.setMode mode
  | unsetMode mode => exact h.unsetMode mode
  | setPrivateMode mode => exact h.setPrivateMode mode
  | unsetPrivateMode mode => exact h.unsetPrivateMode mode
  | setKeypadApplicationMode => exact h.of_eq rfl rfl rfl
  | unsetKeypadApplicationMode => exact h.of_eq rfl rfl rfl
  | setKeyboardMode mode apply => exact h.of_eq rfl rfl rfl
  | pushKeyboardMode mode => exact h.of_eq rfl rfl rfl
  | popKeyboardModes toPop => exact h.popKeyboardModes toPop
  | setColor index color => exact h.setColor index color
  | resetColor index => exact h.resetColor index
  | insertGraphic textureId graphicWidth displayW displayH cursorMovement =>
    exact h.insertGraphic textureId graphicWidth displayW displayH cursorMovement hholds
  | placeKittyOverlay rows cursorMovement =>
    exact h.placeKittyOverlay rows cursorMovement hholds
  | deleteGraphics action x y => exact h.deleteGraphics action x y
  | scrollDisplay scroll => exact h.scrollDisplay scroll
  | updateHistory historySize =>
    exact h.mapGrid (f := (·.updateHistory historySize)) (h.grid.updateHistory historySize) rfl rfl
  | toggleViMode => exact h.toggleViMode
  | resize numCols numLines cellWidth cellHeight =>
    exact h.resize hsized.1 hsized.2 cellWidth cellHeight

end Crosswords
end Rio
