import Rio.Crosswords.Edits
import Rio.Grid.RowEdits

/-! What holds of every row of both screens: a property that blank rows have and that edits of a
row keep is kept by every operation but a resize, which moves cells between rows. -/

set_option linter.dupNamespace false

namespace Rio
open Rio.Ring

theorem swapCells_perm (start stop count : ℕ) (cells : List Square) :
    (swapCells start stop count cells).Perm cells := by
  unfold swapCells
  induction List.range count generalizing cells with
  | nil => exact .rfl
  | cons offset offsets ih => exact (ih _).trans (swapAt_perm ..)

theorem swapCellsBack_perm (start stop count : ℕ) (cells : List Square) :
    (swapCellsBack start stop count cells).Perm cells := by
  unfold swapCellsBack
  induction (List.range count).reverse generalizing cells with
  | nil => exact .rfl
  | cons offset offsets ih => exact (ih _).trans (swapAt_perm ..)

theorem lineDrawing_ne_kittyPlaceholder :
    ∀ drawn ∈ StandardCharset.lineDrawing, drawn.2 ≠ Crosswords.kittyPlaceholder := by
  decide

/-- No charset draws a placeholder. -/
theorem StandardCharset.map_eq_kittyPlaceholder {s : StandardCharset} {c : Char}
    (h : s.map c = Crosswords.kittyPlaceholder) : c = Crosswords.kittyPlaceholder := by
  cases s with
  | ascii => exact h
  | specialCharacterAndLineDrawing =>
    unfold map at h
    rcases hdrawn : lineDrawing.lookup c with _ | d
    · rw [hdrawn] at h
      exact h
    · obtain ⟨before, after, heq, -⟩ := List.lookup_eq_some_iff.mp hdrawn
      have hmem : (c, d) ∈ lineDrawing := heq ▸ by simp
      rw [hdrawn] at h
      exact absurd h (lineDrawing_ne_kittyPlaceholder _ hmem)

/-- What the tables say about marked characters: they are placeholders, which are one cell wide
and take no variation selector. -/
structure Marks (u : Unicode) (marked : Char → Prop) : Prop where
  placeholder : ∀ c, marked c → c = Crosswords.kittyPlaceholder
  width : ∀ c, marked c → u.width c = some 1
  notBase : ∀ c selector, marked c → u.vsIsValidBase c selector = false

namespace Marks

variable {u : Unicode} {marked : Char → Prop}

theorem of_map (hm : Marks u marked) {s : StandardCharset} {c : Char} (h : marked (s.map c)) :
    marked c := by
  have hplaceholder := hm.placeholder _ h
  have hc := StandardCharset.map_eq_kittyPlaceholder hplaceholder
  rwa [hc, ← hplaceholder]

theorem not_blank (hm : Marks u marked) : ¬ marked (default : Square).c :=
  fun h => absurd (hm.placeholder _ h) (by decide)

theorem not_space (hm : Marks u marked) : ¬ marked ' ' :=
  fun h => absurd (hm.placeholder _ h) (by decide)

theorem not_tab (hm : Marks u marked) : ¬ marked '\t' :=
  fun h => absurd (hm.placeholder _ h) (by decide)

theorem not_e (hm : Marks u marked) : ¬ marked 'E' :=
  fun h => absurd (hm.placeholder _ h) (by decide)

end Marks

namespace Crosswords

variable {marked : Char → Prop} {P : Row Square → Prop} {u : Unicode} {t t' t'' : Crosswords}

/-- What holds of all rows of the active screen still does. -/
def Keeps (P : Row Square → Prop) (t t' : Crosswords) : Prop :=
  t.grid.raw.AllRows P → t'.grid.raw.AllRows P

namespace Keeps

theorem refl (t : Crosswords) : t.Keeps P t := id

theorem trans (h : t.Keeps P t') (h' : t'.Keeps P t'') : t.Keeps P t'' := h' ∘ h

theorem of_raw_eq (h : t'.grid.raw = t.grid.raw) : t.Keeps P t' := by
  unfold Keeps
  rw [h]
  exact id

theorem damageLines (t : Crosswords) (lines : List ℤ) : t.Keeps P (t.damageLines lines) :=
  of_raw_eq (congrArg Grid.raw (damageLines_grid t lines))

theorem iterate {f : Crosswords → Crosswords} (hf : ∀ t : Crosswords, t.Keeps P (f t)) :
    ∀ (count : ℕ) (t : Crosswords), t.Keeps P (f^[count] t)
  | 0, t => refl t
  | count + 1, t => by
    rw [Function.iterate_succ_apply]
    exact (hf t).trans (iterate hf count (f t))

theorem foldl {β : Type} {f : Crosswords → β → Crosswords}
    (hf : ∀ (t : Crosswords) b, t.Keeps P (f t b)) :
    ∀ (bs : List β) (t : Crosswords), t.Keeps P (bs.foldl f t)
  | [], t => refl t
  | b :: bs, t => (hf t b).trans (foldl hf bs (f t b))

theorem mapGrid_foldl {β : Type} {f : Grid Square → β → Grid Square}
    (hf : ∀ (g : Grid Square) b, g.raw.AllRows P → (f g b).raw.AllRows P) (bs : List β)
    (t : Crosswords) : t.Keeps P (t.mapGrid fun g => bs.foldl f g) := by
  show t.grid.raw.AllRows P → (bs.foldl f t.grid).raw.AllRows P
  generalize t.grid = g
  induction bs generalizing g with
  | nil => exact id
  | cons b bs ih => exact fun h => ih (f g b) (hf g b h)

end Keeps

/-! ### Cursor and scrolling -/

theorem keeps_goto (t : Crosswords) (line : ℤ) (col : ℕ) : t.Keeps P (t.goto line col) := by
  unfold goto
  split
  exact .of_raw_eq rfl

theorem keeps_backspace (t : Crosswords) : t.Keeps P t.backspace := by
  unfold backspace
  split_ifs
  · exact .of_raw_eq rfl
  · exact .refl t

theorem keeps_scrollUpRelative (law : RowLaw marked P) (t : Crosswords) (origin : ℤ) (lines : ℕ) :
    t.Keeps P (t.scrollUpRelative origin lines) := by
  unfold Keeps
  rw [scrollUpRelative_grid]
  exact fun h => law.scrollUp h _ _

theorem keeps_scrollDownRelative (law : RowLaw marked P) (t : Crosswords) (origin : ℤ)
    (lines : ℕ) : t.Keeps P (t.scrollDownRelative origin lines) :=
  fun h => law.scrollDown h _ _

theorem keeps_linefeed (law : RowLaw marked P) (t : Crosswords) : t.Keeps P t.linefeed := by
  unfold Keeps
  obtain ⟨-, heq⟩ | ⟨-, -, heq⟩ | ⟨-, -, heq⟩ := linefeed_cases t
  · rw [heq]
    exact fun h => law.scrollUp h _ _
  · rw [heq]
    exact id
  · rw [heq]
    exact id

theorem keeps_newline (law : RowLaw marked P) (t : Crosswords) : t.Keeps P t.newline := by
  have hfed := keeps_linefeed law t
  unfold newline
  dsimp only
  split_ifs
  · exact hfed.trans (.of_raw_eq rfl)
  · exact hfed

theorem keeps_modifyCell (law : RowLaw marked P) (t : Crosswords) (p : Pos) {f : Square → Square}
    (hf : ∀ c, marked (f c).c → marked c.c) : t.Keeps P (t.mapGrid (·.modifyCell p f)) :=
  fun h => law.modifyCell h p hf

theorem keeps_modifyCursorCell (law : RowLaw marked P) (t : Crosswords) {f : Square → Square}
    (hf : ∀ c, marked (f c).c → marked c.c) : t.Keeps P (t.mapGrid (·.modifyCursorCell f)) :=
  fun h => law.modifyCell h t.pos hf

theorem keeps_wrapline (law : RowLaw marked P) (t : Crosswords) : t.Keeps P t.wrapline := by
  by_cases hwrap : t.mode.lineWrap
  · have hmarked : t.Keeps P (t.mapGrid (·.modifyCursorCell (·.setWrapline true))) :=
      keeps_modifyCursorCell law t fun _ => id
    obtain ⟨t₁, heq, rfl | ⟨-, rfl⟩⟩ := wrapline_eq hwrap
    · rw [heq]
      exact (hmarked.trans (keeps_linefeed law _)).trans (.of_raw_eq rfl)
    · rw [heq]
      exact hmarked.trans (.of_raw_eq rfl)
  · unfold wrapline
    rw [if_pos (by simpa using hwrap)]
    exact .refl t

theorem keeps_deleteLines (law : RowLaw marked P) (t : Crosswords) (lines : ℕ) :
    t.Keeps P (t.deleteLines lines) := by
  unfold deleteLines
  dsimp only
  split_ifs
  · exact keeps_scrollUpRelative law t _ _
  · exact .refl t

theorem keeps_insertBlankLines (law : RowLaw marked P) (t : Crosswords) (lines : ℕ) :
    t.Keeps P (t.insertBlankLines lines) := by
  unfold insertBlankLines
  dsimp only
  split_ifs
  · exact keeps_scrollDownRelative law t _ _
  · exact .refl t

theorem keeps_reverseIndex (law : RowLaw marked P) (t : Crosswords) : t.Keeps P t.reverseIndex := by
  unfold reverseIndex
  split_ifs
  · exact keeps_scrollDownRelative law t _ _
  · exact .of_raw_eq rfl

/-! ### Printing -/

theorem keeps_advance (t : Crosswords) : t.Keeps P t.advance := by
  unfold advance
  split_ifs <;> exact .of_raw_eq rfl

/-- The row of the cursor has the flag, or there is no such row. -/
def CursorFlagged (g : Grid Square) : Prop :=
  g.raw.computeIndex g.cursor.pos.row < g.raw.inner.length →
    (g.row g.cursor.pos.row).kittyVirtualPlaceholder = true

theorem CursorFlagged.modifyCell {g : Grid Square} (h : CursorFlagged g) (p : Pos)
    (f : Square → Square) : CursorFlagged (g.modifyCell p f) := by
  intro hindex
  have hlt : g.raw.computeIndex g.cursor.pos.row < g.raw.inner.length := by
    have hsame := Storage.computeIndex_modify g.raw p.row (·.modify p.col f) g.cursor.pos.row
    exact hsame ▸ Storage.modify_length g.raw p.row (·.modify p.col f) ▸ hindex
  show ((g.raw.modify p.row (·.modify p.col f)).row g.cursor.pos.row).kittyVirtualPlaceholder = true
  rw [Storage.row_modify_of_lt hlt]
  split_ifs
  · exact h hlt
  · exact h hlt

theorem CursorFlagged.clearWide {g : Grid Square} (h : CursorFlagged g) :
    CursorFlagged (clearWide g) := by
  unfold Crosswords.clearWide
  dsimp only
  split_ifs
  · exact (h.modifyCell _ _).modifyCell _ _
  · exact h.modifyCell _ _
  · exact (h.modifyCell _ _).modifyCell _ _
  · exact h.modifyCell _ _
  · exact h.modifyCell _ _
  · exact h
  · exact h

theorem cursorFlagged_markPlaceholder (t : Crosswords) :
    CursorFlagged (t.markPlaceholder kittyPlaceholder).grid := by
  unfold markPlaceholder
  rw [if_pos rfl]
  intro hindex
  have hlt : t.grid.raw.computeIndex t.pos.row < t.grid.raw.inner.length := by
    have hsame := Storage.computeIndex_modify t.grid.raw t.pos.row
      (fun row => { row with kittyVirtualPlaceholder := true }) t.pos.row
    exact hsame ▸ Storage.modify_length t.grid.raw t.pos.row _ ▸ hindex
  show ((t.grid.raw.modify t.pos.row fun row =>
    { row with kittyVirtualPlaceholder := true }).row t.pos.row).kittyVirtualPlaceholder = true
  rw [Storage.row_modify_of_lt hlt, if_pos rfl]

theorem allRows_clearWide (law : RowLaw marked P) (hm : Marks u marked) {g : Grid Square}
    (h : g.raw.AllRows P) : (clearWide g).raw.AllRows P := by
  have hprev (g : Grid Square) (p : Pos) (h : g.raw.AllRows P) :
      (g.modifyCell p fun prev =>
        if prev.wide = .leadingSpacer then prev.setWide .narrow else prev).raw.AllRows P :=
    law.modifyCell h p fun c hc => by
      split_ifs at hc
      · exact hc
      · exact hc
  have hclear (p : Pos) : (g.modifyCell p Square.clear).raw.AllRows P :=
    law.modifyCell h p fun _ hc => absurd hc hm.not_blank
  have hwide (p : Pos) (tag : Wide) : (g.modifyCell p (·.setWide tag)).raw.AllRows P :=
    law.modifyCell h p fun _ => id
  unfold clearWide
  dsimp only
  split_ifs
  · exact hprev _ _ (hwide _ _)
  · exact hwide _ _
  · exact hprev _ _ (hclear _)
  · exact hclear _
  · exact hprev _ _ h
  · exact h
  · exact h

/-- Writing a character, which may be marked only if the row of the cursor has the flag. -/
theorem keeps_writeAtCursor (law : RowLaw marked P) (hm : Marks u marked) (t : Crosswords)
    {c : Char} (hc : marked c → CursorFlagged (clearWide t.grid)) :
    t.Keeps P (t.writeAtCursor c) := by
  intro h
  have hcleared := allRows_clearWide law hm h
  unfold writeAtCursor
  refine hcleared.modify_row _ fun hindex hrow => ?_
  refine law.edited _ _ (Row.edited_modify _ _ fun hd => ?_) hrow
  exact .inr (hc (hm.of_map hd) hindex)

theorem keeps_writeTagged (law : RowLaw marked P) (hm : Marks u marked) (t : Crosswords)
    {c : Char} (hc : ¬ marked c) (tag : Wide) : t.Keeps P (t.writeTagged c tag) := by
  have hwritten := keeps_writeAtCursor law hm t fun h => absurd h hc
  unfold writeTagged
  generalize t.writeAtCursor c = written at hwritten ⊢
  exact hwritten.trans (keeps_modifyCursorCell law written fun _ => id)

theorem keeps_widenOnNextRow (law : RowLaw marked P) (hm : Marks u marked) (t : Crosswords)
    (baseCol : ℕ) {base : Square} (hbase : ¬ marked base.c) :
    t.Keeps P (t.widenOnNextRow baseCol base) := by
  have hspacer (t : Crosswords) (tag : Wide) : t.Keeps P (t.writeTagged ' ' tag) :=
    keeps_writeTagged law hm t hm.not_space tag
  unfold widenOnNextRow
  dsimp only
  have hmoved : t.Keeps P (t.mapGrid fun g => (g.setCol baseCol).setShouldWrap false) :=
    .of_raw_eq rfl
  have hwrapped := (hmoved.trans (hspacer _ .leadingSpacer)).trans (keeps_wrapline law _)
  generalize ((t.mapGrid fun g => (g.setCol baseCol).setShouldWrap false).writeTagged ' '
    .leadingSpacer).wrapline = t₁ at hwrapped ⊢
  have hbased : t₁.Keeps P (t₁.mapGrid fun g =>
      (g.modifyCell ⟨t₁.pos.row, 0⟩ fun _ => base.setWide .wide).setCol 1) :=
    (keeps_modifyCell law t₁ ⟨t₁.pos.row, 0⟩ (f := fun _ => base.setWide .wide)
      fun _ hc => absurd hc hbase).trans (.of_raw_eq rfl)
  have hwritten := (hwrapped.trans hbased).trans (hspacer _ .spacer)
  split_ifs
  · exact hwritten.trans (.of_raw_eq rfl)
  · exact hwritten.trans (.of_raw_eq rfl)

theorem keeps_widenInPlace (law : RowLaw marked P) (hm : Marks u marked) (t : Crosswords)
    (baseCol : ℕ) : t.Keeps P (t.widenInPlace baseCol) := by
  unfold widenInPlace
  dsimp only
  have hwidened : t.Keeps P (t.mapGrid fun g =>
      ((g.modifyCell ⟨t.pos.row, baseCol⟩ (·.setWide .wide)).setCol (baseCol + 1)).setShouldWrap
        false) :=
    (keeps_modifyCell law t ⟨t.pos.row, baseCol⟩ (f := (·.setWide .wide)) fun _ => id).trans
      (.of_raw_eq rfl)
  have hwritten := hwidened.trans (keeps_writeTagged law hm _ hm.not_space .spacer)
  exact (hwritten.trans (keeps_advance _)).trans (.of_raw_eq rfl)

theorem keeps_applyEmojiVs16 (law : RowLaw marked P) (hm : Marks u marked) (t : Crosswords) :
    t.Keeps P (t.applyEmojiVs16 u) := by
  unfold applyEmojiVs16
  dsimp only
  split_ifs with hstart hvalid
  · exact .refl t
  · exact .refl t
  · exact .refl t
  · refine keeps_widenOnNextRow law hm t _ fun hmarked => hvalid (.inr ?_)
    rw [hm.notBase _ _ hmarked]
    rfl
  · exact keeps_widenInPlace law hm t _

theorem keeps_applyEmojiVs15 (law : RowLaw marked P) (hm : Marks u marked) (t : Crosswords) :
    t.Keeps P (t.applyEmojiVs15 u) := by
  unfold applyEmojiVs15
  dsimp only
  split_ifs
  · exact .refl t
  · exact .refl t
  · have hnarrowed := keeps_modifyCell (P := P) law t ⟨t.pos.row, t.baseColumn - 1⟩
      (f := (·.setWide .narrow)) fun _ => id
    have hcleared := hnarrowed.trans (keeps_modifyCell law _ ⟨t.pos.row, t.baseColumn⟩
      (f := fun _ => default) fun _ hc => absurd hc hm.not_blank)
    exact hcleared.trans (.of_raw_eq rfl)

theorem allRows_pushZeroWidth (law : RowLaw marked P) {g : Grid Square} (h : g.raw.AllRows P)
    (p : Pos) (c : Char) : (pushZeroWidth g p c).raw.AllRows P := by
  unfold pushZeroWidth
  split
  · exact law.modifyCell h p fun _ => id
  · exact law.modifyCell h p fun _ => id

theorem keeps_inputZeroWidth (law : RowLaw marked P) (hm : Marks u marked) (t : Crosswords)
    (c : Char) : t.Keeps P (t.inputZeroWidth u c) := by
  unfold inputZeroWidth
  dsimp only
  have happlied : t.Keeps P (if c = '\ufe0f' then t.applyEmojiVs16 u
      else if c = '\ufe0e' then t.applyEmojiVs15 u else t) := by
    split_ifs
    · exact keeps_applyEmojiVs16 law hm t
    · exact keeps_applyEmojiVs15 law hm t
    · exact .refl t
  generalize (if c = '\ufe0f' then t.applyEmojiVs16 u
    else if c = '\ufe0e' then t.applyEmojiVs15 u else t) = t₁ at happlied ⊢
  exact fun h => allRows_pushZeroWidth law (happlied h) _ c

theorem keeps_modifyAll (law : RowLaw marked P) (t : Crosswords) (line : ℤ)
    {f : List Square → List Square} (hf : ∀ cells, (f cells).Perm cells) :
    t.Keeps P (t.mapGrid (·.modifyRow line (·.modifyAll f))) :=
  fun h => law.modifyRow h line fun r => r.edited_modifyAll (hf r.inner)

theorem keeps_shiftForInsert (law : RowLaw marked P) (t : Crosswords) (width : ℕ) :
    t.Keeps P (t.shiftForInsert width) := by
  unfold shiftForInsert
  dsimp only
  split_ifs
  · exact keeps_modifyAll law t _ (swapCellsBack_perm _ _ _)
  · exact .refl t

theorem keeps_markPlaceholder (law : RowLaw marked P) (t : Crosswords) (c : Char) :
    t.Keeps P (t.markPlaceholder c) := by
  unfold markPlaceholder
  split_ifs
  · exact fun h => law.modifyRow h _ fun r => r.edited_flag
  · exact .refl t

theorem keeps_fitWide (law : RowLaw marked P) (hm : Marks u marked) (t : Crosswords) :
    t.Keeps P t.fitWide := by
  unfold fitWide
  split_ifs
  · exact (keeps_writeTagged law hm t hm.not_space .leadingSpacer).trans (keeps_wrapline law _)
  · exact .refl t

theorem keeps_inputWide (law : RowLaw marked P) (hm : Marks u marked) (t : Crosswords) {c : Char}
    (hc : ¬ marked c) : t.Keeps P (t.inputWide c) := by
  unfold inputWide
  split_ifs
  · exact .of_raw_eq rfl
  · refine Keeps.trans ?_ (keeps_advance _)
    have hwritten := (keeps_fitWide law hm t).trans (keeps_writeTagged law hm _ hc .wide)
    generalize t.fitWide.writeTagged c .wide = t₁ at hwritten ⊢
    have hmoved : t.Keeps P (t₁.mapGrid (·.setCol (t₁.pos.col + 1))) :=
      hwritten.trans (.of_raw_eq rfl)
    exact (hmoved.trans (keeps_writeTagged law hm _ hm.not_space .spacer)).trans (.of_raw_eq rfl)

/-- A marked character is printed into a row that has been given the flag. -/
theorem keeps_inputVisible (law : RowLaw marked P) (hm : Marks u marked) (t : Crosswords)
    {c : Char} {width : ℕ} (hc : marked c → width = 1) : t.Keeps P (t.inputVisible c width) := by
  have hwrapped : t.Keeps P (if t.grid.cursor.shouldWrap then t.wrapline else t) := by
    split_ifs
    · exact keeps_wrapline law t
    · exact .refl t
  unfold inputVisible
  dsimp only
  generalize (if t.grid.cursor.shouldWrap then t.wrapline else t) = t₁ at hwrapped ⊢
  have hprepared := (hwrapped.trans (keeps_shiftForInsert law t₁ width)).trans
    (keeps_markPlaceholder law _ c)
  split_ifs with hwidth
  · refine Keeps.trans ?_ (keeps_advance _)
    refine (hprepared.trans (keeps_writeAtCursor law hm _ fun hmarked => ?_)).trans
      (.of_raw_eq rfl)
    obtain rfl := hm.placeholder c hmarked
    exact (cursorFlagged_markPlaceholder _).clearWide
  · exact hprepared.trans (keeps_inputWide law hm _ fun hmarked => hwidth (hc hmarked))

theorem keeps_input (law : RowLaw marked P) (hm : Marks u marked) (t : Crosswords) (c : Char) :
    t.Keeps P (t.input u c) := by
  unfold input
  rcases hwidth : u.width c with _ | width
  · exact .refl t
  · show t.Keeps P (if width = 0 then t.inputZeroWidth u c else t.inputVisible c width)
    split_ifs
    · exact keeps_inputZeroWidth law hm t c
    · refine keeps_inputVisible law hm t fun hmarked => ?_
      exact Option.some.inj (hwidth.symm.trans (hm.width c hmarked))

/-! ### Editing and clearing -/

theorem templateBlank_c (g : Grid Square) : g.templateBlank.2.c = (default : Square).c := by
  unfold Grid.templateBlank Grid.blankWithBg
  rcases (g.styleOf g.cursor.template).bg with named | ⟨r, g', b⟩ | idx
  · dsimp only
    split_ifs <;> rfl
  · rfl
  · rfl

theorem templateBlank_raw (g : Grid Square) : g.templateBlank.1.raw = g.raw := by
  unfold Grid.templateBlank Grid.blankWithBg
  rcases (g.styleOf g.cursor.template).bg with named | ⟨r, g', b⟩ | idx
  · dsimp only
    split_ifs <;> rfl
  · rfl
  · rfl

theorem keeps_withBlank (hm : Marks u marked) (t : Crosswords)
    {f : Crosswords → Square → Crosswords}
    (hf : ∀ (t : Crosswords) (blank : Square), ¬ marked blank.c → t.Keeps P (f t blank)) :
    t.Keeps P (t.withBlank f) := by
  have hblank : ¬ marked t.grid.templateBlank.2.c := by
    rw [templateBlank_c]
    exact hm.not_blank
  have hentered : t.Keeps P { t with grid := t.grid.templateBlank.1 } :=
    .of_raw_eq (templateBlank_raw t.grid)
  exact hentered.trans (hf { t with grid := t.grid.templateBlank.1 } _ hblank)

theorem keeps_fill (law : RowLaw marked P) (t : Crosswords) (line : ℤ) (start stop : ℕ)
    {blank : Square} (hblank : ¬ marked blank.c) :
    t.Keeps P (t.mapGrid (·.modifyRow line (·.fill start stop blank))) :=
  fun h => law.modifyRow h line fun r => r.edited_fill start stop hblank

theorem keeps_eraseChars (law : RowLaw marked P) (hm : Marks u marked) (t : Crosswords)
    (count : ℕ) : t.Keeps P (t.eraseChars count) :=
  keeps_withBlank hm t fun t _ hblank => keeps_fill law t _ _ _ hblank

theorem keeps_deleteChars (law : RowLaw marked P) (hm : Marks u marked) (t : Crosswords)
    (count : ℕ) : t.Keeps P (t.deleteChars count) :=
  keeps_withBlank hm t fun _ _ hblank h => law.modifyRow h _ fun r =>
    (r.edited_modifyAll (swapCells_perm _ _ _ r.inner)).trans (Row.edited_fillFrom _ _ hblank)

theorem keeps_insertBlank (law : RowLaw marked P) (hm : Marks u marked) (t : Crosswords)
    (count : ℕ) : t.Keeps P (t.insertBlank count) :=
  keeps_withBlank hm t fun _ _ hblank h => law.modifyRow h _ fun r =>
    (r.edited_modifyAll (swapCellsBack_perm _ _ _ r.inner)).trans (Row.edited_fill _ _ _ hblank)

theorem keeps_clearLine (law : RowLaw marked P) (hm : Marks u marked) (t : Crosswords)
    (mode : LineClearMode) : t.Keeps P (t.clearLine mode) := by
  unfold clearLine
  refine keeps_withBlank hm t fun t blank hblank => ?_
  cases mode with
  | right =>
    dsimp only
    split_ifs
    · exact .refl t
    · exact keeps_fill law t _ _ _ hblank
  | left => exact keeps_fill law t _ _ _ hblank
  | all => exact keeps_fill law t _ _ _ hblank

theorem keeps_resetRegion (law : RowLaw marked P) (t : Crosswords) (r : Region) :
    t.Keeps P (t.mapGrid (·.resetRegion r)) :=
  fun h => law.resetRegion h r

theorem keeps_decaln (law : RowLaw marked P) (hm : Marks u marked) (t : Crosswords) :
    t.Keeps P t.decaln := by
  have hfilled (g : Grid Square) (line : ℤ) (h : g.raw.AllRows P) :
      (g.modifyRow line fun row =>
        row.fill 0 g.columns (Square.setC default 'E')).raw.AllRows P :=
    law.modifyRow h line fun r => r.edited_fill _ _ hm.not_e
  exact Keeps.trans (.mapGrid_foldl hfilled _ t) (.of_raw_eq rfl)

theorem keeps_clearScreen (law : RowLaw marked P) (hm : Marks u marked) (t : Crosswords)
    (mode : ClearMode) : t.Keeps P (t.clearScreen mode) := by
  refine keeps_withBlank hm t fun t blank hblank => ?_
  cases mode with
  | above =>
    dsimp only
    refine Keeps.trans ?_ (.damageLines _ _)
    split_ifs
    · exact (keeps_resetRegion law t _).trans (keeps_fill law _ _ _ _ hblank)
    · exact keeps_fill law t _ _ _ hblank
  | below =>
    dsimp only
    refine Keeps.trans ?_ (.damageLines _ _)
    have hfilled : t.Keeps P (t.mapGrid (·.modifyRow t.pos.row (·.fillFrom t.pos.col blank))) :=
      fun h => law.modifyRow h _ fun r => r.edited_fillFrom _ hblank
    split_ifs
    · exact hfilled.trans (keeps_resetRegion law _ _)
    · exact hfilled
  | all =>
    dsimp only
    split_ifs
    · exact (keeps_resetRegion law t _).trans (.of_raw_eq rfl)
    · exact fun h => law.clearViewport h
  | saved =>
    dsimp only
    split_ifs
    · exact fun h => h.shrinkLines _
    · exact .of_raw_eq rfl

theorem keeps_putOneTab (law : RowLaw marked P) (hm : Marks u marked) (t : Crosswords) :
    t.Keeps P t.putOneTab := by
  unfold putOneTab
  dsimp only
  refine fun h => law.modifyCell h t.pos fun cell hc => ?_
  split_ifs at hc
  · exact absurd (hm.of_map hc) hm.not_tab
  · exact hc

theorem keeps_putTab (law : RowLaw marked P) (hm : Marks u marked) (t : Crosswords) (count : ℕ) :
    t.Keeps P (t.putTab count) := by
  have htabs := Keeps.iterate (keeps_putOneTab law hm) count t
  unfold putTab
  dsimp only
  split_ifs
  · exact keeps_wrapline law t
  · exact htabs.trans (.of_raw_eq rfl)
  · exact htabs

/-! ### Attributes and graphics -/

theorem keeps_terminalAttribute (t : Crosswords) (attr : Attr) :
    t.Keeps P (t.terminalAttribute attr) := by
  unfold terminalAttribute
  split
  · exact .of_raw_eq rfl
  · exact .refl t

theorem keeps_setHyperlink (t : Crosswords) (hyperlink : Option Hyperlink) :
    t.Keeps P (t.setHyperlink hyperlink) := by
  cases hyperlink with
  | none => exact .of_raw_eq rfl
  | some hl => exact .of_raw_eq rfl

theorem allRows_placeGraphicCell (law : RowLaw marked P) (hm : Marks u marked) {g : Grid Square}
    (h : g.raw.AllRows P) (p : Pos) (graphic : GraphicCell) :
    (placeGraphicCell g p graphic).raw.AllRows P := by
  have hcleared : marked (if (g.cell p).isBgOnly then (g.cell p).clear else g.cell p).c →
      marked (g.cell p).c := by
    split_ifs
    · exact fun hc => absurd hc hm.not_blank
    · exact id
  unfold placeGraphicCell
  dsimp only
  split
  · exact law.overwriteCell h p hcleared
  · exact law.overwriteCell h p hcleared

theorem allRows_placeGraphicRow (law : RowLaw marked P) (hm : Marks u marked) {g : Grid Square}
    (h : g.raw.AllRows P) (line : ℤ) (leftmost offsetY : ℕ) (texture : TextureRef)
    (offsets : List ℕ) :
    (placeGraphicRow g line leftmost offsetY texture offsets).raw.AllRows P := by
  unfold placeGraphicRow
  induction offsets.zipIdx generalizing g with
  | nil => exact h
  | cons offset offsets ih =>
    obtain ⟨offsetX, i⟩ := offset
    rw [List.foldl_cons]
    refine ih ?_
    dsimp only
    split_ifs
    · exact allRows_placeGraphicCell law hm h _ _
    · exact h

theorem keeps_fillGraphicRow (law : RowLaw marked P) (hm : Marks u marked) (scrolling : Bool)
    (leftmost : ℕ) (texture : TextureRef) (width height cellWidth cellHeight : ℕ) (t : Crosswords)
    (row : ℕ × ℕ) :
    t.Keeps P
      (fillGraphicRow scrolling leftmost texture width height cellWidth cellHeight t row) := by
  unfold fillGraphicRow
  dsimp only
  generalize (if scrolling then t.pos.row else (row.2 : ℤ)) = line
  have hplaced : t.Keeps P (t.mapGrid fun g =>
      placeGraphicRow g line leftmost row.1 texture (cellOffsets width cellWidth)) :=
    fun h => allRows_placeGraphicRow law hm h line leftmost row.1 texture _
  split_ifs
  · exact .refl t
  · refine Keeps.trans ?_ (keeps_linefeed law _)
    exact hplaced.trans (.of_raw_eq rfl)
  · exact hplaced.trans (.of_raw_eq rfl)

theorem keeps_insertGraphic (law : RowLaw marked P) (hm : Marks u marked) (t : Crosswords)
    (textureId graphicWidth displayW displayH : ℕ) (cursorMovement : Option UInt8) :
    t.Keeps P (t.insertGraphic textureId graphicWidth displayW displayH cursorMovement) := by
  have hfilled (texture : TextureRef) : t.Keeps P (t.fillGraphic texture displayW displayH) :=
    .foldl (keeps_fillGraphicRow law hm _ _ texture _ _ _ _) _ t
  unfold insertGraphic
  by_cases hlarge : maxGraphicDimension < displayW ∨ maxGraphicDimension < displayH
  · rw [if_pos hlarge]
    exact .refl t
  rw [if_neg hlarge]
  by_cases hempty : displayW = 0 ∨ displayH = 0
  · rw [if_pos hempty]
    exact .refl t
  rw [if_neg hempty]
  have hafter := hfilled ⟨textureId, displayW.toUInt16, displayH.toUInt16, t.cellHeight⟩
  dsimp only
  generalize t.fillGraphic _ displayW displayH = t₁ at hafter ⊢
  have hmoved (cols : ℕ) : t.Keeps P (t₁.moveForward cols) := hafter.trans (.of_raw_eq rfl)
  have hreturned : t.Keeps P t₁.carriageReturn := hafter.trans (.of_raw_eq rfl)
  split
  · split_ifs
    · exact hmoved _
    · exact hreturned
    · exact hafter
  · split_ifs
    · exact hmoved _
    · exact hreturned
    · exact hafter
  · exact hafter
  · split_ifs
    · exact hreturned
    · exact hafter

theorem keeps_placeKittyOverlay (law : RowLaw marked P) (t : Crosswords) (rows : ℕ)
    (cursorMovement : UInt8) : t.Keeps P (t.placeKittyOverlay rows cursorMovement) := by
  unfold placeKittyOverlay
  split_ifs
  · exact .refl t
  · exact (Keeps.iterate (keeps_linefeed law) (rows - 1) t).trans (.of_raw_eq rfl)

theorem clearCellGraphic_c (table : ExtrasTable) (cell : Square) :
    (Grid.clearCellGraphic table cell).2.c = cell.c := by
  unfold Grid.clearCellGraphic
  dsimp only
  split
  · rfl
  · split
    · rfl
    · split_ifs <;> rfl

theorem allRows_clearGraphicAt (law : RowLaw marked P) {g : Grid Square} (h : g.raw.AllRows P)
    (p : Pos) : (g.clearGraphicAt p).raw.AllRows P := by
  unfold Grid.clearGraphicAt
  split_ifs
  · refine law.overwriteCell h p fun hc => ?_
    rwa [clearCellGraphic_c] at hc
  · exact law.modifyCell h p fun _ => id

theorem keeps_deleteGraphicAtPosition (law : RowLaw marked P) (t : Crosswords) (col : ℕ)
    (row : ℤ) : t.Keeps P (t.deleteGraphicAtPosition col row) := by
  have hcleared : t.Keeps P (t.mapGrid (·.clearGraphicAt ⟨row, col⟩)) :=
    fun h => allRows_clearGraphicAt law h _
  unfold deleteGraphicAtPosition
  dsimp only
  split_ifs
  · exact hcleared.trans (.of_raw_eq rfl)
  · exact hcleared
  · exact .refl t

theorem keeps_deleteGraphics (law : RowLaw marked P) (t : Crosswords) (action : Char) (x y : ℕ) :
    t.Keeps P (t.deleteGraphics action x y) := by
  have hrow (t : Crosswords) (row : ℤ) :
      t.Keeps P ((t.mapGrid fun g =>
        (List.range g.columns).foldl (fun g col => g.clearGraphicAt ⟨row, col⟩) g).damageLine
          row.toNat) :=
    Keeps.trans (.mapGrid_foldl (fun _ _ h => allRows_clearGraphicAt law h _)
      (List.range t.grid.columns) t) (.of_raw_eq rfl)
  unfold deleteGraphics
  split_ifs
  · exact .foldl (fun t line => hrow t line) _ t
  · exact keeps_deleteGraphicAtPosition law t _ _
  · exact keeps_deleteGraphicAtPosition law t _ _
  · exact .refl t
  · unfold deleteGraphicsInColumn
    split_ifs
    · exact .foldl (fun t line => keeps_deleteGraphicAtPosition law t _ line) _ t
    · exact .refl t
  · exact .refl t
  · unfold deleteGraphicsInRow
    split_ifs
    · exact hrow t _
    · exact .refl t
  · exact .refl t
  · exact .refl t

theorem keeps_setScrollingRegion (t : Crosswords) (top : ℕ) (bottom : Option ℕ) :
    t.Keeps P (t.setScrollingRegion top bottom) := by
  unfold setScrollingRegion
  dsimp only
  split_ifs
  · exact .refl t
  · refine Keeps.trans ?_ (keeps_goto _ 0 0)
    exact .of_raw_eq rfl

theorem keeps_deccolm (law : RowLaw marked P) (t : Crosswords) : t.Keeps P t.deccolm := by
  unfold deccolm
  have hset := keeps_setScrollingRegion (P := P) t 1 none
  exact (hset.trans (keeps_resetRegion law _ _)).trans (.of_raw_eq rfl)

theorem keeps_scrollDisplay (t : Crosswords) (scroll : Scroll) :
    t.Keeps P (t.scrollDisplay scroll) := by
  unfold scrollDisplay
  dsimp only
  split_ifs <;> exact .of_raw_eq rfl

/-! ### Steps -/

/-- What holds of all rows of both screens. -/
def AllRows (P : Row Square → Prop) (t : Crosswords) : Prop :=
  t.grid.raw.AllRows P ∧ t.inactiveGrid.raw.AllRows P

theorem new_allRows (law : RowLaw marked P) (columns lines limit : ℕ) :
    (new columns lines limit).AllRows P :=
  ⟨law.new _ _ _, law.new _ _ _⟩

theorem AllRows.swapAlt (law : RowLaw marked P) (h : t.AllRows P) : t.swapAlt.AllRows P := by
  unfold Crosswords.swapAlt
  dsimp only
  split_ifs
  · exact ⟨h.2, h.1⟩
  · exact ⟨law.resetRegion (g := { t.inactiveGrid with cursor := t.grid.cursor }) h.2 _, h.1⟩

theorem AllRows.resetState (law : RowLaw marked P) (h : t.AllRows P) :
    t.resetState.AllRows P := by
  unfold Crosswords.resetState
  dsimp only
  split_ifs
  · exact ⟨law.gridReset h.2, law.gridReset h.1⟩
  · exact ⟨law.gridReset h.1, law.gridReset h.2⟩

/-- An operation that works on one screen. -/
theorem step_keeps (law : RowLaw marked P) (hm : Marks u marked) (t : Crosswords) {op : Op}
    (hone : ¬ BothScreens op) : t.Keeps P (t.step u op) := by
  cases op with
  | input c => exact keeps_input law hm t c
  | goto line col => exact keeps_goto t line col
  | gotoLine line => exact keeps_goto t line _
  | gotoCol col => exact keeps_goto t _ col
  | moveUp rows => exact keeps_goto t _ _
  | moveDown rows => exact keeps_goto t _ _
  | moveForward cols => exact .of_raw_eq rfl
  | moveBackward cols => exact .of_raw_eq rfl
  | moveDownAndCr rows => exact keeps_goto t _ 0
  | moveUpAndCr lines => exact keeps_goto t _ 0
  | moveForwardTabs count => exact .of_raw_eq rfl
  | moveBackwardTabs count => exact .of_raw_eq rfl
  | putTab count => exact keeps_putTab law hm t count
  | backspace => exact keeps_backspace t
  | carriageReturn => exact .of_raw_eq rfl
  | linefeed => exact keeps_linefeed law t
  | newline => exact keeps_newline law t
  | reverseIndex => exact keeps_reverseIndex law t
  | saveCursorPosition => exact .of_raw_eq rfl
  | restoreCursorPosition => exact .of_raw_eq rfl
  | setScrollingRegion top bottom => exact keeps_setScrollingRegion t top bottom
  | scrollUp lines => exact keeps_scrollUpRelative law t _ lines
  | scrollDown lines => exact keeps_scrollDownRelative law t _ lines
  | insertBlankLines lines => exact keeps_insertBlankLines law t lines
  | deleteLines lines => exact keeps_deleteLines law t lines
  | insertBlank count => exact keeps_insertBlank law hm t count
  | deleteChars count => exact keeps_deleteChars law hm t count
  | eraseChars count => exact keeps_eraseChars law hm t count
  | clearLine mode => exact keeps_clearLine law hm t mode
  | clearScreen mode => exact keeps_clearScreen law hm t mode
  | decaln => exact keeps_decaln law hm t
  | clearTabs mode => cases mode <;> exact .refl t
  | setHorizontalTabstop => exact .refl t
  | terminalAttribute attr => exact keeps_terminalAttribute t attr
  | setHyperlink hyperlink => exact keeps_setHyperlink t hyperlink
  | configureCharset index charset => exact .of_raw_eq rfl
  | setActiveCharset index => exact .refl t
  | setMode mode => cases mode <;> exact .refl t
  | unsetMode mode => cases mode <;> exact .refl t
  | setPrivateMode mode =>
    rcases mode with mode | mode
    · cases mode with
      | swapScreenAndSetRestoreCursor => exact absurd trivial hone
      | columnMode => exact keeps_deccolm law t
      | _ => exact .refl t
    · exact .refl t
  | unsetPrivateMode mode =>
    rcases mode with mode | mode
    · cases mode with
      | swapScreenAndSetRestoreCursor => exact absurd trivial hone
      | columnMode => exact keeps_deccolm law t
      | _ => exact .refl t
    · exact .refl t
  | setKeypadApplicationMode => exact .refl t
  | unsetKeypadApplicationMode => exact .refl t
  | setKeyboardMode mode apply => exact .refl t
  | pushKeyboardMode mode => exact .refl t
  | popKeyboardModes toPop =>
    exact .of_raw_eq (congrArg Grid.raw (popKeyboardModes_grids t toPop).1)
  | setColor index color => exact .of_raw_eq (congrArg Grid.raw (setColor_grid t index color))
  | resetColor index => exact .of_raw_eq (congrArg Grid.raw (resetColor_grid t index))
  | insertGraphic textureId graphicWidth displayW displayH cursorMovement =>
    exact keeps_insertGraphic law hm t textureId graphicWidth displayW displayH cursorMovement
  | placeKittyOverlay rows cursorMovement => exact keeps_placeKittyOverlay law t rows cursorMovement
  | deleteGraphics action x y => exact keeps_deleteGraphics law t action x y
  | scrollDisplay scroll => exact keeps_scrollDisplay t scroll
  | updateHistory historySize => exact fun h => RowLaw.updateHistory h historySize
  | toggleViMode => exact .of_raw_eq (congrArg Grid.raw (toggleViMode_grids t).1)
  | resetState | resize _ _ _ _ => exact absurd trivial hone

/-- Every operation keeps what holds of all rows, a resize if it does so for each screen. -/
theorem step_allRows (law : RowLaw marked P) (hm : Marks u marked) (h : t.AllRows P) (op : Op)
    (hresize : ∀ columns lines width height, op = .resize columns lines width height →
      ¬ (t.grid.columns = columns ∧ t.grid.lines = lines) →
      (t.grid.resize (!t.mode.altScreen) lines columns).raw.AllRows P ∧
        (t.inactiveGrid.resize t.mode.altScreen lines columns).raw.AllRows P) :
    (t.step u op).AllRows P := by
  by_cases hboth : BothScreens op
  · cases op with
    | resetState => exact h.resetState law
    | resize columns lines width height =>
      show (t.resize columns lines width height).AllRows P
      unfold resize
      by_cases hsize : t.grid.columns = columns ∧ t.grid.lines = lines
      · rw [if_pos hsize]
        exact h
      · rw [if_neg hsize]
        exact hresize columns lines width height rfl hsize
    | setPrivateMode mode =>
      rcases mode with mode | mode
      · cases mode with
        | swapScreenAndSetRestoreCursor =>
          show (if t.mode.altScreen then t else t.swapAlt).AllRows P
          split_ifs
          · exact h
          · exact h.swapAlt law
        | _ => exact absurd hboth id
      · exact absurd hboth id
    | unsetPrivateMode mode =>
      rcases mode with mode | mode
      · cases mode with
        | swapScreenAndSetRestoreCursor =>
          show (if t.mode.altScreen then t.swapAlt else t).AllRows P
          split_ifs
          · exact h.swapAlt law
          · exact h
        | _ => exact absurd hboth id
      · exact absurd hboth id
    | _ => exact absurd hboth id
  · refine ⟨step_keeps law hm t hboth h.1, ?_⟩
    rw [step_inactiveGrid u t hboth]
    exact h.2

end Crosswords
end Rio
