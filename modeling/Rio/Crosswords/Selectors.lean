import Rio.Crosswords.Blanks

/-! Characters that a variation selector widens or narrows after they were printed. -/

set_option linter.dupNamespace false

namespace Rio

/-- The text of a cell, without whether it is a half of a wide character. -/
def Square.untagged (c : Square) : Square := c.setWide .narrow

namespace Grid

variable {g : Grid Square} {p q : Pos}

/-- The halves of wide characters stand next to each other. -/
structure Paired (g : Grid Square) : Prop where
  wide : ∀ p, g.HasCell p → (g.cell p).wide = .wide →
    p.col + 1 < g.columns ∧ (g.cell ⟨p.row, p.col + 1⟩).wide = .spacer
  spacer : ∀ p, g.HasCell p → (g.cell p).wide = .spacer →
    0 < p.col ∧ (g.cell ⟨p.row, p.col - 1⟩).wide = .wide

theorem cell_modifyCell (h : g.Sound False) (hq : g.HasCell q) (hp : g.HasCell p)
    (f : Square → Square) :
    (g.modifyCell q f).cell p = if p = q then f (g.cell q) else g.cell p := by
  have hlen := row_len h.wellFormed hq.1 hq.2.1
  have hcell := cell_modifyRow h.wellFormed hq.1 hq.2.1 hp (fun r => r.modify q.col f)
  refine hcell.trans ?_
  obtain ⟨prow, pcol⟩ := p
  obtain ⟨qrow, qcol⟩ := q
  by_cases hrow : prow = qrow
  · subst hrow
    have hin : pcol < (g.row prow).inner.length := hp.2.2.trans_eq hlen.symm
    have hmodify : ((g.row prow).modify qcol f).cell pcol =
        if pcol = qcol then f ((g.row prow).cell qcol) else (g.row prow).cell pcol := by
      unfold Row.cell Row.modify
      rw [List.getD_eq_getElem?_getD, List.getElem?_modify, List.getD_eq_getElem?_getD,
        List.getD_eq_getElem?_getD, List.getElem?_eq_getElem hin]
      by_cases hcol : qcol = pcol
      · subst hcol
        rw [if_pos rfl, List.getElem?_eq_getElem hin]
        simp
      · rw [if_neg (Ne.symm hcol)]
        simp [hcol]
    rw [if_pos rfl]
    refine hmodify.trans ?_
    by_cases hcol : pcol = qcol
    · rw [if_pos hcol, if_pos (by rw [hcol])]
      rfl
    · rw [if_neg hcol, if_neg fun heq => hcol (congrArg Pos.col heq)]
      rfl
  · rw [if_neg hrow, if_neg fun heq => hrow (congrArg Pos.row heq)]

theorem clearWide_of_narrow (h : (g.cell g.cursor.pos).wide ≠ .wide)
    (h' : (g.cell g.cursor.pos).wide ≠ .spacer) : Crosswords.clearWide g = g :=
  if_neg fun htag => htag.elim h h'

/-- Writing over the first half of a wide character leaves the text of the other cells. -/
theorem clearWide_cell (h : g.Sound False) (hcursor : g.HasCell g.cursor.pos)
    (hspacer : (g.cell g.cursor.pos).wide ≠ .spacer)
    (hwide : (g.cell g.cursor.pos).wide = .wide → g.cursor.pos.col < g.lastColumn)
    (hp : g.HasCell p) :
    (Crosswords.clearWide g).cell p = g.cell p ∨
      (Crosswords.clearWide g).cell p = (g.cell p).untagged ∧
        (p = ⟨g.cursor.pos.row, g.cursor.pos.col + 1⟩ ∨ p.row ≠ g.cursor.pos.row) := by
  by_cases htag : (g.cell g.cursor.pos).wide = .wide
  · have hcol := hwide htag
    have hlast : g.lastColumn = g.columns - 1 := rfl
    have hcolumns := h.columns_ge
    have hnext : g.HasCell { g.cursor.pos with col := g.cursor.pos.col + 1 } :=
      ⟨hcursor.1, hcursor.2.1, by
        show g.cursor.pos.col + 1 < g.columns
        omega⟩
    obtain ⟨g₁, hg₁⟩ : ∃ g₁, g₁ = g.modifyCell { g.cursor.pos with col := g.cursor.pos.col + 1 }
        (·.setWide .narrow) := ⟨_, rfl⟩
    have hcell := cell_modifyCell h hnext hp (·.setWide .narrow)
    rw [← hg₁] at hcell
    have hfirst : g₁.cell p = g.cell p ∨ g₁.cell p = (g.cell p).untagged ∧
        (p = ⟨g.cursor.pos.row, g.cursor.pos.col + 1⟩ ∨ p.row ≠ g.cursor.pos.row) := by
      rw [hcell]
      by_cases heq : p = { g.cursor.pos with col := g.cursor.pos.col + 1 }
      · rw [if_pos heq, heq]
        exact .inr ⟨rfl, .inl rfl⟩
      · rw [if_neg heq]
        exact .inl rfl
    have hfull : (g.cell g.cursor.pos).wide = .wide ∧ g.cursor.pos.col < g.lastColumn := ⟨htag, hcol⟩
    have htagged : (g.cell g.cursor.pos).wide = .wide ∨ (g.cell g.cursor.pos).wide = .spacer :=
      .inl htag
    unfold Crosswords.clearWide
    dsimp only
    rw [if_pos htagged, if_pos hfull, ← hg₁]
    by_cases hlead : g.cursor.pos.col ≤ 1 ∧ g.cursor.pos.row ≠ g₁.topmostLine
    · rw [if_pos hlead]
      have htop : g₁.topmostLine = g.topmostLine := by
        rw [hg₁]
        rfl
      have hrow := hcursor.1
      have hne := hlead.2
      rw [htop] at hne
      have habove : g₁.HasCell ⟨g.cursor.pos.row - 1, g₁.lastColumn⟩ := by
        have hline := hcursor.2.1
        rw [hg₁]
        refine ⟨?_, ?_, ?_⟩
        · show g.topmostLine ≤ g.cursor.pos.row - 1
          omega
        · show g.cursor.pos.row - 1 < g.lines
          omega
        · show g.columns - 1 < g.columns
          omega
      have hsound : g₁.Sound False := hg₁ ▸ h.modifyCell _ _
      have hp₁ : g₁.HasCell p := hg₁ ▸ hp
      rw [cell_modifyCell hsound habove hp₁]
      by_cases heq : p = ⟨g.cursor.pos.row - 1, g₁.lastColumn⟩
      · have hother : p.row ≠ g.cursor.pos.row := by
          rw [heq]
          dsimp only
          omega
        have hsame : g₁.cell p = g.cell p := by
          rw [hcell, if_neg]
          intro hnext
          rw [hnext] at hother
          exact hother rfl
        rw [if_pos heq, ← heq, hsame]
        by_cases hleading : (g.cell p).wide = .leadingSpacer
        · rw [if_pos hleading]
          exact .inr ⟨rfl, .inr hother⟩
        · rw [if_neg hleading]
          exact .inl rfl
      · rw [if_neg heq]
        exact hfirst
    · rw [if_neg hlead]
      exact hfirst
  · rw [clearWide_of_narrow htag hspacer]
    exact .inl rfl

end Grid

namespace Crosswords

variable {t : Crosswords} {u : Unicode} {p q : Pos}

theorem writeTagged_grid (t : Crosswords) (c : Char) (tag : Wide) :
    ∃ written : Square, (t.writeTagged c tag).grid =
      ((clearWide t.grid).modifyCell t.pos fun _ => written).modifyCell t.pos (·.setWide tag) := by
  have hcursor : (clearWide t.grid).cursor = t.grid.cursor := by
    rw [Grid.clearWide_eq]
  have hgrid (f : Square → Square) : (clearWide t.grid).modifyCursorCell f =
      (clearWide t.grid).modifyCell t.pos f := by
    unfold Grid.modifyCursorCell pos
    rw [hcursor]
  obtain ⟨written, hwritten⟩ : ∃ written : Square, (t.writeAtCursor c).grid =
      (clearWide t.grid).modifyCursorCell fun _ => written := ⟨_, rfl⟩
  refine ⟨written, ?_⟩
  show (t.writeAtCursor c).grid.modifyCell (t.writeAtCursor c).grid.cursor.pos (·.setWide tag) = _
  rw [hwritten, hgrid]
  show ((clearWide t.grid).modifyCell t.pos fun _ => written).modifyCell
    (clearWide t.grid).cursor.pos (·.setWide tag) = _
  rw [hcursor]
  rfl

theorem OnlyCells.hasCell {t' : Crosswords} (h : t.OnlyCells t') :
    t'.grid.HasCell p ↔ t.grid.HasCell p := by
  obtain ⟨raw, extrasTable, hlen, rfl⟩ := h
  have htop : (t.mapGrid fun g => { g with raw := raw, extrasTable := extrasTable }).grid.topmostLine =
      t.grid.topmostLine := by
    rw [Grid.topmostLine_eq, Grid.topmostLine_eq, Grid.historySize_eq, Grid.historySize_eq]
    show -((raw.len - t.grid.lines : ℕ) : ℤ) = _
    rw [hlen]
  unfold Grid.HasCell
  rw [htop]
  rfl

theorem OnlyCells.cursor {t' : Crosswords} (h : t.OnlyCells t') : t'.grid.cursor = t.grid.cursor := by
  obtain ⟨raw, extrasTable, -, rfl⟩ := h
  rfl

theorem OnlyCells.scrolling {t' : Crosswords} (h : t.OnlyCells t') :
    t'.scrollRegion = t.scrollRegion ∧ t'.grid.lines = t.grid.lines := by
  obtain ⟨raw, extrasTable, -, rfl⟩ := h
  exact ⟨rfl, rfl⟩

theorem writeTagged_extrasTable (t : Crosswords) (c : Char) (tag : Wide) :
    (t.writeTagged c tag).grid.extrasTable = t.grid.extrasTable := by
  obtain ⟨written, hgrid⟩ := writeTagged_grid t c tag
  have htable : (clearWide t.grid).extrasTable = t.grid.extrasTable := by
    rw [Grid.clearWide_eq]
  rw [hgrid]
  generalize clearWide t.grid = cleared at htable ⊢
  exact htable

/-- A character is written to the cell at the cursor. -/
theorem cell_writeTagged (h : t.Sound False) (hcursor : t.grid.HasCell t.pos) (hp : t.grid.HasCell p)
    (c : Char) (tag : Wide) :
    (p = t.pos → ((t.writeTagged c tag).grid.cell p).wide = tag) ∧
      (p ≠ t.pos → (t.writeTagged c tag).grid.cell p = (clearWide t.grid).cell p) := by
  obtain ⟨written, hgrid⟩ := writeTagged_grid t c tag
  have hclear : (clearWide t.grid).Sound False := h.grid.clearWide
  have hsize (q : Pos) (hq : t.grid.HasCell q) : (clearWide t.grid).HasCell q := by
    rw [Grid.clearWide_eq]
    refine ⟨?_, hq.2.1, hq.2.2⟩
    have htop := hq.1
    rw [Grid.topmostLine_eq, Grid.historySize_eq] at htop ⊢
    dsimp only
    rwa [Grid.clearWide_len]
  rw [hgrid]
  generalize clearWide t.grid = cleared at hclear hsize ⊢
  rw [Grid.cell_modifyCell (hclear.modifyCell _ _) (hsize _ hcursor) (hsize _ hp)]
  constructor
  · intro heq
    rw [if_pos heq]
    rfl
  · intro hne
    rw [if_neg hne, Grid.cell_modifyCell hclear (hsize _ hcursor) (hsize _ hp), if_neg hne]

/-- The cell of the character before the cursor. -/
def basePos (t : Crosswords) : Pos := ⟨t.pos.row, t.baseColumn⟩

/-- The character before the cursor is a narrow one that U+FE0F widens. -/
structure TakesVs16 (u : Unicode) (t : Crosswords) : Prop where
  behind : t.grid.cursor.shouldWrap = true ∨ t.pos.col ≠ 0
  narrow : (t.grid.cell t.basePos).wide = .narrow
  valid : u.vsIsValidBase (t.grid.cell t.basePos).c '\ufe0f' = true

/-- A wide character stands right before the cursor. -/
structure StandsWide (t : Crosswords) (base : Square) (p : Pos) : Prop where
  wide : t.grid.cell p = base.setWide .wide
  spacer : (t.grid.cell ⟨p.row, p.col + 1⟩).wide = .spacer
  row : t.pos.row = p.row
  past : p.col + 2 < t.grid.columns → t.pos.col = p.col + 2 ∧ t.grid.cursor.shouldWrap = false
  pending : t.grid.columns ≤ p.col + 2 → t.pos.col = p.col + 1 ∧ t.grid.cursor.shouldWrap = true

/-- The character before the cursor is wide, and covers the next cell; all others are kept. -/
structure WidenedHere (t t' : Crosswords) : Prop where
  stands : t'.StandsWide (t.grid.cell t.basePos) t.basePos
  kept : ∀ q, t.grid.HasCell q → q ≠ t.basePos → q ≠ ⟨t.pos.row, t.baseColumn + 1⟩ →
    (t'.grid.cell q).untagged = (t.grid.cell q).untagged
  extras : t'.grid.extrasTable = t.grid.extrasTable

theorem Sound.hasCell (h : t.Sound False) {col : ℕ} (hcol : col < t.grid.columns) :
    t.grid.HasCell ⟨t.pos.row, col⟩ :=
  ⟨h.topmostLine_le_row, h.grid.cursor.2.1, hcol⟩

theorem advance_cell (t : Crosswords) (q : Pos) : t.advance.grid.cell q = t.grid.cell q := by
  unfold advance
  split_ifs
  · rfl
  · rfl

theorem advance_hasCell (t : Crosswords) (q : Pos) :
    t.advance.grid.HasCell q ↔ t.grid.HasCell q := by
  unfold advance
  split_ifs
  · exact Iff.rfl
  · exact Iff.rfl

theorem advance_columns (t : Crosswords) : t.advance.grid.columns = t.grid.columns := by
  unfold advance
  split_ifs
  · rfl
  · rfl

theorem advance_extrasTable (t : Crosswords) :
    t.advance.grid.extrasTable = t.grid.extrasTable := by
  unfold advance
  split_ifs
  · rfl
  · rfl

/-- A wide character stands before the cursor once the cursor is past its spacer. -/
theorem standsWide_advance {base : Square} (hpos : t.pos = ⟨p.row, p.col + 1⟩)
    (hwrap : t.grid.cursor.shouldWrap = false) (hwide : t.grid.cell p = base.setWide .wide)
    (hspacer : (t.grid.cell ⟨p.row, p.col + 1⟩).wide = .spacer) : t.advance.StandsWide base p := by
  have hrow : t.pos.row = p.row := by
    rw [hpos]
  have hcol : t.pos.col = p.col + 1 := by
    rw [hpos]
  refine ⟨(advance_cell t p).trans hwide, ?_, ?_, fun hfits => ?_, fun hfull => ?_⟩
  · rw [advance_cell]
    exact hspacer
  · unfold advance
    split_ifs
    · exact hrow
    · exact hrow
  · rw [advance_columns] at hfits
    unfold advance
    rw [hcol, if_pos hfits]
    exact ⟨rfl, hwrap⟩
  · rw [advance_columns] at hfull
    unfold advance
    rw [hcol, if_neg (not_lt.mpr hfull)]
    exact ⟨hcol, rfl⟩

theorem widenInPlace_widened (h : t.Sound False) (hpairs : t.grid.Paired)
    (hnarrow : (t.grid.cell t.basePos).wide = .narrow)
    (hroom : t.baseColumn + 1 < t.grid.columns) : t.WidenedHere (t.widenInPlace t.baseColumn) := by
  obtain ⟨base, hbase⟩ : ∃ base, base = t.basePos := ⟨_, rfl⟩
  obtain ⟨next, hnext⟩ : ∃ next : Pos, next = ⟨t.pos.row, t.baseColumn + 1⟩ := ⟨_, rfl⟩
  have hhere : t.grid.HasCell base := hbase ▸ h.hasCell h.baseColumn_lt
  have hbeside : t.grid.HasCell next := hnext ▸ h.hasCell hroom
  have hne : base ≠ next := by
    rw [hbase, hnext]
    intro heq
    have hcol := congrArg Pos.col heq
    change t.baseColumn = t.baseColumn + 1 at hcol
    omega
  obtain ⟨t₁, ht₁⟩ : ∃ t₁, t₁ = t.mapGrid fun g =>
      ((g.modifyCell ⟨t.pos.row, t.baseColumn⟩ (·.setWide .wide)).setCol
        (t.baseColumn + 1)).setShouldWrap false := ⟨_, rfl⟩
  have hsound : t₁.Sound False := by
    rw [ht₁]
    exact h.mapGrid (((h.grid.modifyCell _ _).setCol hroom).setShouldWrap false) rfl rfl
  have hpos : t₁.pos = next := by
    rw [ht₁, hnext]
    rfl
  have hcells (q : Pos) (hq : t.grid.HasCell q) : t₁.grid.cell q =
      if q = base then (t.grid.cell base).setWide .wide else t.grid.cell q := by
    rw [ht₁, hbase]
    exact Grid.cell_modifyCell h.grid (h.hasCell h.baseColumn_lt) hq _
  have hhas (q : Pos) (hq : t.grid.HasCell q) : t₁.grid.HasCell q := by
    rw [ht₁]
    exact hq
  have hcursor : t₁.grid.cell t₁.grid.cursor.pos = t.grid.cell next := by
    have hcell := hcells next hbeside
    rw [if_neg hne.symm] at hcell
    rw [← hcell, ← hpos]
    rfl
  have hspacer : (t₁.grid.cell t₁.grid.cursor.pos).wide ≠ .spacer := by
    rw [hcursor]
    intro hspacer
    have hback := (hpairs.spacer next hbeside hspacer).2
    rw [hnext] at hback
    cases hnarrow.symm.trans hback
  have hwide : (t₁.grid.cell t₁.grid.cursor.pos).wide = .wide →
      t₁.grid.cursor.pos.col < t₁.grid.lastColumn := by
    rw [hcursor]
    intro hwide
    have hcol := (hpairs.wide next hbeside hwide).1
    show t₁.pos.col < t₁.grid.columns - 1
    rw [hpos, ht₁]
    change next.col < t.grid.columns - 1
    omega
  have hon : t₁.grid.HasCell t₁.grid.cursor.pos := by
    show t₁.grid.HasCell t₁.pos
    rw [hpos]
    exact hhas next hbeside
  have hclear (q : Pos) (hq : t.grid.HasCell q) :=
    Grid.clearWide_cell hsound.grid hon hspacer hwide (hhas q hq)
  have hwritten (q : Pos) (hq : t.grid.HasCell q) :=
    cell_writeTagged hsound hon (hhas q hq) ' ' .spacer
  obtain ⟨t₂, ht₂⟩ : ∃ t₂, t₂ = t₁.writeTagged ' ' .spacer := ⟨_, rfl⟩
  rw [← ht₂] at hwritten
  have hresult : t.widenInPlace t.baseColumn = t₂.advance.damageLine t.pos.row.toNat := by
    rw [ht₂, ht₁]
    rfl
  have hpos₂ : t₂.pos = next := by
    rw [ht₂, writeTagged_pos, hpos]
  have hwrap₂ : t₂.grid.cursor.shouldWrap = false := by
    rw [ht₂, (onlyCells_writeTagged t₁ ' ' .spacer).cursor, ht₁]
    rfl
  have hwide₂ : t₂.grid.cell base = (t.grid.cell base).setWide .wide := by
    have hbaseCell : t₁.grid.cell base = (t.grid.cell base).setWide .wide := by
      rw [hcells base hhere, if_pos rfl]
    rw [(hwritten base hhere).2 (hpos ▸ hne)]
    obtain hsame | ⟨-, hnear | hother⟩ := hclear base hhere
    · rw [hsame, hbaseCell]
    · have hcol := congrArg Pos.col hnear
      change base.col = t₁.pos.col + 1 at hcol
      rw [hpos, hnext, hbase] at hcol
      change t.baseColumn = t.baseColumn + 1 + 1 at hcol
      omega
    · refine absurd ?_ hother
      show base.row = t₁.pos.row
      rw [hpos, hnext, hbase]
      rfl
  have hspacer₂ : (t₂.grid.cell next).wide = .spacer := (hwritten next hbeside).1 hpos.symm
  rw [hnext] at hpos₂ hspacer₂
  rw [hbase] at hwide₂
  have hstands := standsWide_advance (p := t.basePos) hpos₂ hwrap₂ hwide₂ hspacer₂
  rw [hresult]
  refine ⟨⟨hstands.wide, hstands.spacer, hstands.row, hstands.past, hstands.pending⟩,
    fun q hq hqbase hqnext => ?_, ?_⟩
  · rw [← hbase] at hqbase
    rw [← hnext] at hqnext
    have hcell : t₁.grid.cell q = t.grid.cell q := by
      rw [hcells q hq, if_neg hqbase]
    show (t₂.advance.grid.cell q).untagged = _
    rw [advance_cell, (hwritten q hq).2 (hpos ▸ hqnext), ← hcell]
    obtain hsame | ⟨hsame, -⟩ := hclear q hq
    · rw [hsame]
    · rw [hsame]
      rfl
  · show t₂.advance.grid.extrasTable = _
    rw [advance_extrasTable, ht₂, writeTagged_extrasTable, ht₁]
    rfl

/-! ### Wrapping -/

/-- The row that a line is wrapped to. -/
def wrapRow (t : Crosswords) : ℤ :=
  if t.pos.row + 1 = t.scrollRegion.stop then t.pos.row
  else if t.pos.row + 1 < t.grid.lines then t.pos.row + 1
  else t.pos.row

theorem hasOrigin_of_raw {g g' : Grid Square} (hraw : g'.raw = g.raw) (hlines : g'.lines = g.lines)
    {line : ℤ} (htop : g'.topmostLine ≤ line) (hline : line < g'.lines) :
    g.HasOrigin g' line (some line) := by
  rw [Grid.topmostLine_eq, Grid.historySize_eq, hraw, hlines] at htop
  rw [hlines] at hline
  refine ⟨htop, hline, fun col => ?_⟩
  unfold Grid.cell Grid.row
  rw [hraw]

/-- After a line feed each line has the cells of its origin. -/
theorem linefeed_hasOrigin (h : t.Sound False) (hregion : t.RegionOrdered) {line : ℤ}
    (htop : t.linefeed.grid.topmostLine ≤ line) (hline : line < t.linefeed.grid.lines) :
    t.grid.HasOrigin t.linefeed.grid line (t.linefeedShift.origin line) := by
  unfold linefeedShift
  obtain ⟨hnext, hgrid⟩ | ⟨hnext, -, hgrid⟩ | ⟨hnext, -, heq⟩ := linefeed_cases t
  · rw [hgrid] at htop hline
    rw [Grid.scrollUp_lines] at hline
    rw [if_pos hnext, hgrid]
    have hcount : t.scrollRegion.start = 0 → (t.scrollCount 1 : ℤ) ≤ t.scrollRegion.stop := by
      unfold scrollCount
      have := hregion.2
      omega
    exact Grid.hasOrigin_scrollUp h.grid.wellFormed hregion.1 hregion.2 h.region hcount htop hline
  · rw [hgrid] at htop hline
    rw [if_neg hnext, hgrid]
    exact hasOrigin_of_raw rfl rfl htop hline
  · rw [heq] at htop hline
    rw [if_neg hnext, heq]
    exact hasOrigin_of_raw rfl rfl htop hline

theorem linefeed_row (t : Crosswords) : t.linefeed.pos.row = t.wrapRow := by
  unfold wrapRow
  obtain ⟨hnext, hgrid⟩ | ⟨hnext, hline, hgrid⟩ | ⟨hnext, hlast, heq⟩ := linefeed_cases t
  · rw [if_pos hnext]
    unfold pos
    rw [hgrid, Grid.scrollUp_cursor]
  · rw [if_neg hnext, if_pos hline]
    unfold pos
    rw [hgrid]
    rfl
  · rw [if_neg hnext, if_neg (not_lt.mpr hlast), heq]

/-- The terminal with its line marked as wrapped. -/
def marked (t : Crosswords) : Crosswords := t.mapGrid (·.modifyCursorCell (·.setWrapline true))

/-- After a wrap each line has the cells of its origin, one of which is marked. -/
theorem wrapline_hasOrigin (h : t.Sound False) (hregion : t.RegionOrdered) (hwrap : t.mode.lineWrap)
    {line : ℤ} (htop : t.wrapline.grid.topmostLine ≤ line) (hline : line < t.wrapline.grid.lines) :
    t.marked.grid.HasOrigin t.wrapline.grid line (t.linefeedShift.origin line) := by
  have hsound : t.marked.Sound False := h.modifyCursorCell (·.setWrapline true)
  obtain ⟨t₁, heq, hcases⟩ := wrapline_eq hwrap
  rw [heq] at htop hline ⊢
  obtain rfl | ⟨hstop, rfl⟩ := hcases
  · exact linefeed_hasOrigin hsound hregion htop hline
  · have hnone : t.linefeedShift = .none := if_neg (by omega)
    rw [hnone]
    exact hasOrigin_of_raw rfl rfl htop hline

theorem wrapline_row (h : t.Sound False) (hwrap : t.mode.lineWrap) :
    t.wrapline.pos.row = t.wrapRow := by
  have hregion := h.region
  obtain ⟨t₁, heq, hcases⟩ := wrapline_eq hwrap
  have hrow : t.wrapline.pos.row = t₁.pos.row := by
    rw [heq]
    rfl
  rw [hrow]
  obtain rfl | ⟨hstop, rfl⟩ := hcases
  · exact linefeed_row t.marked
  · unfold wrapRow
    rw [if_neg (by omega), if_pos (by omega)]
    rfl

theorem wrapline_shouldWrap (t : Crosswords) (hwrap : t.mode.lineWrap) :
    t.wrapline.grid.cursor.shouldWrap = false := by
  obtain ⟨t₁, heq, -⟩ := wrapline_eq hwrap
  rw [heq]
  rfl

theorem linefeed_extrasTable (t : Crosswords) : t.linefeed.grid.extrasTable = t.grid.extrasTable := by
  obtain ⟨-, hgrid⟩ | ⟨-, -, hgrid⟩ | ⟨-, -, heq⟩ := linefeed_cases t
  · rw [hgrid]
    exact Grid.scrollUp_extrasTable _ _ _
  · rw [hgrid]
    rfl
  · rw [heq]

theorem wrapline_extrasTable (t : Crosswords) (hwrap : t.mode.lineWrap) :
    t.wrapline.grid.extrasTable = t.grid.extrasTable := by
  obtain ⟨t₁, heq, hcases⟩ := wrapline_eq hwrap
  have htable : t₁.grid.extrasTable = t.grid.extrasTable := by
    obtain rfl | ⟨-, rfl⟩ := hcases
    · exact linefeed_extrasTable t.marked
    · rfl
  rw [heq]
  exact htable

/-- The character before the cursor is wide at the start of the row that its line is wrapped to,
with a leading spacer in its place; all other cells are kept, on the lines where a line feed
leaves them. -/
structure WidenedBelow (t t' : Crosswords) : Prop where
  stands : t'.StandsWide (t.grid.cell t.basePos) ⟨t.wrapRow, 0⟩
  kept : ∀ q, t'.grid.HasCell q → q ≠ ⟨t.wrapRow, 0⟩ → q ≠ ⟨t.wrapRow, 1⟩ →
    match t.linefeedShift.origin q.row with
    | some l =>
      if (⟨l, q.col⟩ : Pos) = t.basePos then
        (t'.grid.cell q).wide = .leadingSpacer ∧ (t'.grid.cell q).wrapline = true
      else t'.grid.cell q = t.grid.cell ⟨l, q.col⟩
    | none => t'.grid.cell q = Square.reset default t.grid.cursor.template
  history : t'.grid.historySize = t.linefeedShift.history t.grid
  extras : t'.grid.extrasTable = t.grid.extrasTable

/-- The second cell of the row that a line is wrapped to is no half of a wide character. -/
def FreeBelow (t : Crosswords) : Prop :=
  ∀ l, t.linefeedShift.origin t.wrapRow = some l →
    (t.grid.cell ⟨l, 1⟩).wide ≠ .wide ∧ (t.grid.cell ⟨l, 1⟩).wide ≠ .spacer

/-- The cells after a leading spacer was written and its line was wrapped. -/
theorem wrapped_cells (h : t.Sound False) (hregion : t.RegionOrdered) (hwrap : t.mode.lineWrap)
    (hnarrow : (t.grid.cell t.basePos).wide = .narrow) :
    let t₃ := ((t.mapGrid fun g => (g.setCol t.baseColumn).setShouldWrap false).writeTagged ' '
      .leadingSpacer).wrapline
    t₃.Sound False ∧ t₃.pos.row = t.wrapRow ∧ t₃.grid.cursor.shouldWrap = false ∧
      t₃.grid.columns = t.grid.columns ∧ t₃.grid.extrasTable = t.grid.extrasTable ∧
      ∀ q, t₃.grid.HasCell q → match t.linefeedShift.origin q.row with
        | some l =>
          if (⟨l, q.col⟩ : Pos) = t.basePos then
            (t₃.grid.cell q).wide = .leadingSpacer ∧ (t₃.grid.cell q).wrapline = true
          else t₃.grid.cell q = t.grid.cell ⟨l, q.col⟩
        | none => t₃.grid.cell q = Square.reset default t.grid.cursor.template := by
  obtain ⟨t₁, ht₁⟩ : ∃ t₁, t₁ = t.mapGrid fun g =>
      (g.setCol t.baseColumn).setShouldWrap false := ⟨_, rfl⟩
  rw [← ht₁]
  have hbase : t.grid.HasCell t.basePos := h.hasCell h.baseColumn_lt
  have hsound₁ : t₁.Sound False := ht₁ ▸ h.setColNoWrap h.baseColumn_lt false
  have hpos₁ : t₁.pos = t.basePos := by
    rw [ht₁]
    rfl
  have hgrid₁ (q : Pos) : t₁.grid.cell q = t.grid.cell q := by
    rw [ht₁]
    rfl
  have hhas₁ (q : Pos) : t₁.grid.HasCell q ↔ t.grid.HasCell q := by
    rw [ht₁]
    rfl
  have hclear : clearWide t₁.grid = t₁.grid := by
    have hcursor : (t₁.grid.cell t₁.grid.cursor.pos).wide = .narrow := by
      have hcell := hgrid₁ t₁.pos
      rw [hpos₁] at hcell
      show (t₁.grid.cell t₁.pos).wide = .narrow
      rw [hpos₁, hcell, hnarrow]
    exact Grid.clearWide_of_narrow (by rw [hcursor]; decide) (by rw [hcursor]; decide)
  obtain ⟨t₂, ht₂⟩ : ∃ t₂, t₂ = t₁.writeTagged ' ' .leadingSpacer := ⟨_, rfl⟩
  rw [← ht₂]
  have hsound₂ : t₂.Sound False := ht₂ ▸ hsound₁.writeTagged ' ' .leadingSpacer
  have hpos₂ : t₂.pos = t.basePos := by
    rw [ht₂, writeTagged_pos, hpos₁]
  have hwritten (q : Pos) (hq : t.grid.HasCell q) := by
    have hcell := cell_writeTagged hsound₁ (hpos₁ ▸ (hhas₁ _).mpr hbase) ((hhas₁ q).mpr hq) ' '
      .leadingSpacer
    rwa [← ht₂, hclear, hgrid₁, hpos₁] at hcell
  have hmode₂ : t₂.mode.lineWrap := by
    rw [ht₂, writeTagged_mode, ht₁]
    exact hwrap
  have honly : t₁.OnlyCells t₂ := ht₂ ▸ onlyCells_writeTagged t₁ ' ' .leadingSpacer
  have hregion₂ : t₂.scrollRegion = t.scrollRegion := by
    rw [honly.scrolling.1, ht₁]
    rfl
  have hlines₂ : t₂.grid.lines = t.grid.lines := by
    rw [honly.scrolling.2, ht₁]
    rfl
  have htemplate₂ : t₂.grid.cursor.template = t.grid.cursor.template := by
    rw [honly.cursor, ht₁]
    rfl
  have hcolumns₂ : t₂.grid.columns = t.grid.columns := by
    rw [honly.columns, ht₁]
    rfl
  have hextras₂ : t₂.grid.extrasTable = t.grid.extrasTable := by
    rw [ht₂, writeTagged_extrasTable, ht₁]
    rfl
  have hrow₂ : t₂.pos.row = t.pos.row := by
    rw [hpos₂]
    rfl
  have hordered₂ : t₂.RegionOrdered := by
    unfold RegionOrdered
    rw [hregion₂]
    exact hregion
  have hshift : t₂.linefeedShift = t.linefeedShift := by
    unfold linefeedShift scrollCount
    rw [hrow₂, hregion₂]
  have hhas₂ (q : Pos) : t₂.grid.HasCell q ↔ t.grid.HasCell q := honly.hasCell.trans (hhas₁ q)
  have hmarked (q : Pos) (hq : t.grid.HasCell q) : t₂.marked.grid.cell q =
      if q = t.basePos then (t₂.grid.cell q).setWrapline true else t.grid.cell q := by
    have hcell := Grid.cell_modifyCell hsound₂.grid ((hhas₂ _).mpr hbase) ((hhas₂ q).mpr hq)
      (·.setWrapline true)
    have hcursor : t₂.grid.cursor.pos = t.basePos := hpos₂
    unfold marked
    show (t₂.grid.modifyCell t₂.grid.cursor.pos _).cell q = _
    rw [hcursor]
    refine hcell.trans ?_
    by_cases heq : q = t.basePos
    · rw [if_pos heq, if_pos heq, heq]
    · rw [if_neg heq, if_neg heq]
      exact (hwritten q hq).2 heq
  refine ⟨hsound₂.wrapline fun hD _ => hD.elim, ?_, wrapline_shouldWrap t₂ hmode₂, ?_, ?_,
    fun q hq => ?_⟩
  · rw [wrapline_row hsound₂ hmode₂]
    unfold wrapRow
    rw [hrow₂, hregion₂, hlines₂]
  · rw [wrapline_columns, hcolumns₂]
  · rw [wrapline_extrasTable t₂ hmode₂, hextras₂]
  · have horigin := wrapline_hasOrigin hsound₂ hordered₂ hmode₂ hq.1 hq.2.1
    have hcol : q.col < t.grid.columns := by
      have hcol := hq.2.2
      rwa [wrapline_columns, hcolumns₂] at hcol
    rw [hshift] at horigin
    cases hl : t.linefeedShift.origin q.row with
    | some l =>
      rw [hl] at horigin
      obtain ⟨htop, hline, hcell⟩ := horigin
      have hfrom : t.grid.HasCell ⟨l, q.col⟩ := by
        have hfrom₂ : t₂.grid.HasCell ⟨l, q.col⟩ := ⟨htop, hline, by rwa [hcolumns₂]⟩
        exact (hhas₂ _).mp hfrom₂
      have hq' : t₂.wrapline.grid.cell q = t₂.marked.grid.cell ⟨l, q.col⟩ := hcell q.col
      dsimp only
      rw [hq', hmarked _ hfrom]
      by_cases heq : (⟨l, q.col⟩ : Pos) = t.basePos
      · rw [if_pos heq, if_pos heq]
        exact ⟨(hwritten _ hfrom).1 heq, rfl⟩
      · rw [if_neg heq, if_neg heq]
    | none =>
      rw [hl] at horigin
      have hblank := Grid.cell_of_row_blank horigin (hcolumns₂ ▸ hcol : q.col < t₂.grid.columns)
      rw [← htemplate₂]
      exact hblank

/-- A character in the last column moves to the next row when it is widened. -/
theorem widenOnNextRow_widened (h : t.Sound False) (hregion : t.RegionOrdered)
    (hwrap : t.mode.lineWrap) (hnarrow : (t.grid.cell t.basePos).wide = .narrow)
    (hfree : t.FreeBelow) :
    t.WidenedBelow (t.widenOnNextRow t.baseColumn (t.grid.cell t.basePos)) := by
  obtain ⟨hsound, hrow, hpending, hcolumns, hextras, hcells⟩ := wrapped_cells h hregion hwrap hnarrow
  have hhistory := (rolls_widenOnNextRow h hregion hwrap h.baseColumn_lt (t.grid.cell t.basePos)).history
  obtain ⟨t₃, ht₃⟩ : ∃ t₃, t₃ = ((t.mapGrid fun g =>
      (g.setCol t.baseColumn).setShouldWrap false).writeTagged ' ' .leadingSpacer).wrapline := ⟨_, rfl⟩
  rw [← ht₃] at hsound hrow hpending hcolumns hextras hcells
  have hone : 1 < t₃.grid.columns := hsound.grid.columns_ge
  have hfirst : t₃.grid.HasCell ⟨t.wrapRow, 0⟩ := hrow ▸ hsound.hasCell (by omega)
  have hsecond : t₃.grid.HasCell ⟨t.wrapRow, 1⟩ := hrow ▸ hsound.hasCell hone
  obtain ⟨t₄, ht₄⟩ : ∃ t₄, t₄ = t₃.mapGrid fun g =>
      (g.modifyCell ⟨t.wrapRow, 0⟩ fun _ => (t.grid.cell t.basePos).setWide .wide).setCol 1 := ⟨_, rfl⟩
  have hsound₄ : t₄.Sound False := by
    rw [ht₄]
    exact hsound.mapGrid ((hsound.grid.modifyCell _ _).setCol hone) rfl rfl
  have hpos₄ : t₄.pos = ⟨t.wrapRow, 1⟩ := by
    rw [← hrow, ht₄]
    rfl
  have hcells₄ (q : Pos) (hq : t₃.grid.HasCell q) : t₄.grid.cell q =
      if q = ⟨t.wrapRow, 0⟩ then (t.grid.cell t.basePos).setWide .wide else t₃.grid.cell q := by
    rw [ht₄]
    exact Grid.cell_modifyCell hsound.grid hfirst hq _
  have hhas₄ (q : Pos) : t₄.grid.HasCell q ↔ t₃.grid.HasCell q := by
    rw [ht₄]
    rfl
  have hne : (⟨t.wrapRow, 1⟩ : Pos) ≠ ⟨t.wrapRow, 0⟩ := by
    intro heq
    cases congrArg Pos.col heq
  have hclear : clearWide t₄.grid = t₄.grid := by
    have hcursor : t₄.grid.cell t₄.grid.cursor.pos = t₃.grid.cell ⟨t.wrapRow, 1⟩ := by
      show t₄.grid.cell t₄.pos = _
      rw [hpos₄, hcells₄ _ hsecond, if_neg hne]
    have hhalf : (t₃.grid.cell ⟨t.wrapRow, 1⟩).wide ≠ .wide ∧
        (t₃.grid.cell ⟨t.wrapRow, 1⟩).wide ≠ .spacer := by
      have hcell := hcells _ hsecond
      cases hl : t.linefeedShift.origin t.wrapRow with
      | some l =>
        rw [hl] at hcell
        dsimp only at hcell
        by_cases heq : (⟨l, 1⟩ : Pos) = t.basePos
        · rw [if_pos heq] at hcell
          rw [hcell.1]
          decide
        · rw [if_neg heq] at hcell
          rw [hcell]
          exact hfree l hl
      | none =>
        rw [hl] at hcell
        have hblank : (Square.reset default t.grid.cursor.template).wide = .narrow := rfl
        rw [hcell, hblank]
        decide
    rw [← hcursor] at hhalf
    exact Grid.clearWide_of_narrow hhalf.1 hhalf.2
  obtain ⟨t₅, ht₅⟩ : ∃ t₅, t₅ = t₄.writeTagged ' ' .spacer := ⟨_, rfl⟩
  have honly : t₄.OnlyCells t₅ := ht₅ ▸ onlyCells_writeTagged t₄ ' ' .spacer
  have hwritten (q : Pos) (hq : t₃.grid.HasCell q) := by
    have hcell := cell_writeTagged hsound₄ (hpos₄ ▸ (hhas₄ _).mpr hsecond) ((hhas₄ q).mpr hq) ' '
      .spacer
    rwa [← ht₅, hclear, hpos₄] at hcell
  have hcolumns₅ : t₅.grid.columns = t.grid.columns := by
    rw [honly.columns, ht₄, ← hcolumns]
    rfl
  have hpos₅ : t₅.pos = ⟨t.wrapRow, 1⟩ := by
    unfold pos
    rw [honly.cursor]
    exact hpos₄
  have hpending₅ : t₅.grid.cursor.shouldWrap = false := by
    rw [honly.cursor, ht₄]
    exact hpending
  have hresult : t.widenOnNextRow t.baseColumn (t.grid.cell t.basePos) =
      (t₅.advance.damageLine t.pos.row.toNat).damageLine t.wrapRow.toNat := by
    unfold advance
    rw [hpos₅, hcolumns₅, ht₅, ht₄, ← hrow, ht₃]
    rfl
  have hwide₅ : t₅.grid.cell ⟨t.wrapRow, 0⟩ = (t.grid.cell t.basePos).setWide .wide := by
    rw [(hwritten _ hfirst).2 hne.symm, hcells₄ _ hfirst, if_pos rfl]
  have hstands := standsWide_advance (p := ⟨t.wrapRow, 0⟩) hpos₅ hpending₅ hwide₅
    ((hwritten _ hsecond).1 rfl)
  rw [hresult] at hhistory ⊢
  refine ⟨⟨hstands.wide, hstands.spacer, hstands.row, hstands.past, hstands.pending⟩,
    fun q hq hqfirst hqsecond => ?_, hhistory, ?_⟩
  · have hq₅ : t₅.grid.HasCell q := (advance_hasCell t₅ q).mp hq
    have hq₃ : t₃.grid.HasCell q := (hhas₄ q).mp (honly.hasCell.mp hq₅)
    show match t.linefeedShift.origin q.row with
      | some l =>
        if (⟨l, q.col⟩ : Pos) = t.basePos then
          (t₅.advance.grid.cell q).wide = .leadingSpacer ∧ (t₅.advance.grid.cell q).wrapline = true
        else t₅.advance.grid.cell q = t.grid.cell ⟨l, q.col⟩
      | none => t₅.advance.grid.cell q = Square.reset default t.grid.cursor.template
    rw [advance_cell, (hwritten q hq₃).2 hqsecond, hcells₄ q hq₃, if_neg hqfirst]
    exact hcells q hq₃
  · show t₅.advance.grid.extrasTable = _
    rw [advance_extrasTable, ht₅, writeTagged_extrasTable, ht₄, ← hextras]
    rfl

/-! ### Narrowing -/

/-- The wide character before the cursor is narrow again, and the cell after it is blank. -/
structure Narrowed (t t' : Crosswords) (base : Square) (p : Pos) : Prop where
  narrow : t'.grid.cell p = base
  blank : t'.grid.cell ⟨p.row, p.col + 1⟩ = default
  kept : ∀ q, t.grid.HasCell q → q ≠ p → q ≠ ⟨p.row, p.col + 1⟩ → t'.grid.cell q = t.grid.cell q
  pos : t'.pos = ⟨p.row, p.col + 1⟩
  shouldWrap : t'.grid.cursor.shouldWrap = false
  extras : t'.grid.extrasTable = t.grid.extrasTable

theorem applyEmojiVs15_narrowed (h : t.Sound False) {base : Square} (hnarrow : base.wide = .narrow)
    (hstands : t.StandsWide base p) (hcol : p.col + 1 < t.grid.columns)
    (hvalid : u.vsIsValidBase base.c '\ufe0e' = true) :
    t.Narrowed (t.applyEmojiVs15 u) base p := by
  have hbehind : t.baseColumn = p.col + 1 := by
    unfold baseColumn
    by_cases hfits : p.col + 2 < t.grid.columns
    · obtain ⟨hpos, hpending⟩ := hstands.past hfits
      rw [hpending, hpos]
      rfl
    · obtain ⟨hpos, hpending⟩ := hstands.pending (not_lt.mp hfits)
      rw [hpending, hpos]
      rfl
  have hp : t.grid.HasCell p := by
    have hcell := h.hasCell (show p.col < t.grid.columns by omega)
    rwa [hstands.row] at hcell
  have hnext : t.grid.HasCell ⟨p.row, p.col + 1⟩ := ⟨hp.1, hp.2.1, hcol⟩
  have hwide := hstands.wide
  have hagain : (base.setWide .wide).setWide .narrow = base := by
    obtain ⟨c, w, flags, tag, lo, hi⟩ := base
    cases hnarrow
    rfl
  have hresult : t.applyEmojiVs15 u = ((t.mapGrid fun g =>
      ((g.modifyCell p (·.setWide .narrow)).modifyCell ⟨p.row, p.col + 1⟩
        fun _ => default).setCol (p.col + 1)).mapGrid (·.setShouldWrap false)).damageLine
          p.row.toNat := by
    have hcell : (⟨p.row, p.col + 1 - 1⟩ : Pos) = p := rfl
    unfold applyEmojiVs15
    dsimp only
    rw [hbehind, hstands.row, if_neg (Nat.succ_ne_zero _), hcell, hwide, if_neg]
    rintro (hne | hnot)
    · exact hne rfl
    · change (!u.vsIsValidBase base.c '\ufe0e') = true at hnot
      rw [hvalid] at hnot
      cases hnot
  have hne : p ≠ ⟨p.row, p.col + 1⟩ := by
    intro heq
    have hcols := congrArg Pos.col heq
    change p.col = p.col + 1 at hcols
    omega
  have hcells (q : Pos) (hq : t.grid.HasCell q) : (t.applyEmojiVs15 u).grid.cell q =
      if q = ⟨p.row, p.col + 1⟩ then default
      else if q = p then (t.grid.cell p).setWide .narrow else t.grid.cell q := by
    rw [hresult]
    have hfirst := Grid.cell_modifyCell h.grid hp hq (·.setWide .narrow)
    have hsecond := Grid.cell_modifyCell (h.grid.modifyCell p (·.setWide .narrow)) hnext hq
      fun _ => default
    rw [hfirst] at hsecond
    exact hsecond
  refine ⟨?_, ?_, fun q hq hqfirst hqsecond => ?_, ?_, ?_, ?_⟩
  · rw [hcells p hp, if_neg hne, if_pos rfl, hwide, hagain]
  · rw [hcells _ hnext, if_pos rfl]
  · rw [hcells q hq, if_neg hqsecond, if_neg hqfirst]
  · rw [hresult]
    show (⟨t.pos.row, p.col + 1⟩ : Pos) = _
    rw [hstands.row]
  · rw [hresult]
    rfl
  · rw [hresult]
    rfl

theorem applyEmojiVs16_columns (t : Crosswords) (u : Unicode) :
    (t.applyEmojiVs16 u).grid.columns = t.grid.columns := by
  unfold applyEmojiVs16
  dsimp only
  split_ifs
  · rfl
  · rfl
  · rfl
  · obtain ⟨t₁, ht₁⟩ : ∃ t₁, t₁ = ((t.mapGrid fun g =>
        (g.setCol t.baseColumn).setShouldWrap false).writeTagged ' ' .leadingSpacer).wrapline :=
      ⟨_, rfl⟩
    have hcolumns₁ : t₁.grid.columns = t.grid.columns := by
      rw [ht₁, wrapline_columns, writeTagged_columns]
      rfl
    unfold widenOnNextRow
    dsimp only
    rw [← ht₁]
    obtain ⟨t₂, ht₂⟩ : ∃ t₂, t₂ = (t₁.mapGrid fun g => (g.modifyCell ⟨t₁.pos.row, 0⟩ fun _ =>
        (t.grid.cell ⟨t.pos.row, t.baseColumn⟩).setWide .wide).setCol 1).writeTagged ' ' .spacer :=
      ⟨_, rfl⟩
    have hcolumns₂ : t₂.grid.columns = t.grid.columns := by
      rw [ht₂, writeTagged_columns, ← hcolumns₁]
      rfl
    rw [← ht₂]
    split_ifs
    · exact hcolumns₂
    · exact hcolumns₂
  · obtain ⟨t₁, ht₁⟩ : ∃ t₁, t₁ = (t.mapGrid fun g =>
        ((g.modifyCell ⟨t.pos.row, t.baseColumn⟩ (·.setWide .wide)).setCol
          (t.baseColumn + 1)).setShouldWrap false).writeTagged ' ' .spacer := ⟨_, rfl⟩
    have hcolumns₁ : t₁.grid.columns = t.grid.columns := by
      rw [ht₁, writeTagged_columns]
      rfl
    unfold widenInPlace
    dsimp only
    rw [← ht₁]
    exact (advance_columns t₁).trans hcolumns₁

/-- What U+FE0F does to a character that it widens, and U+FE0E after it: the character is wide where
it stands, or, where its row has no room, in the row that its line is wrapped to, if lines are
wrapped at all; then it is narrow again there. -/
structure SelectorsApply (u : Unicode) (t : Crosswords) : Prop where
  here : t.baseColumn + 1 < t.grid.columns → t.WidenedHere (t.applyEmojiVs16 u)
  stays : t.grid.columns ≤ t.baseColumn + 1 → t.mode.lineWrap = false → t.applyEmojiVs16 u = t
  below : t.grid.columns ≤ t.baseColumn + 1 → t.mode.lineWrap = true → t.FreeBelow →
    t.WidenedBelow (t.applyEmojiVs16 u)
  narrows : u.vsIsValidBase (t.grid.cell t.basePos).c '\ufe0e' = true →
    ∀ p, (t.applyEmojiVs16 u).StandsWide (t.grid.cell t.basePos) p →
      p.col + 1 < t.grid.columns →
        (t.applyEmojiVs16 u).Narrowed ((t.applyEmojiVs16 u).applyEmojiVs15 u)
          (t.grid.cell t.basePos) p

theorem applyEmojiVs16_eq (hbase : t.TakesVs16 u) : t.applyEmojiVs16 u =
    if t.grid.columns ≤ t.baseColumn + 1 then
      if !t.mode.lineWrap then t else t.widenOnNextRow t.baseColumn (t.grid.cell t.basePos)
    else t.widenInPlace t.baseColumn := by
  have hbehind : ¬ (¬ t.grid.cursor.shouldWrap ∧ t.pos.col = 0) :=
    fun hstart => hbase.behind.elim hstart.1 fun hcol => hcol hstart.2
  have hvalid : ¬ ((t.grid.cell t.basePos).wide ≠ .narrow ∨
      (!u.vsIsValidBase (t.grid.cell t.basePos).c '\ufe0f') = true) := by
    rw [hbase.valid]
    rintro (hwide | hnot)
    · exact hwide hbase.narrow
    · cases hnot
  exact (if_neg hbehind).trans (if_neg hvalid)

theorem selectors_apply (h : t.Sound False) (hregion : t.RegionOrdered) (hpairs : t.grid.Paired)
    (hbase : t.TakesVs16 u) : t.SelectorsApply u := by
  have happly := applyEmojiVs16_eq hbase
  refine ⟨fun hroom => ?_, fun hfull hwrap => ?_, fun hfull hwrap hfree => ?_,
    fun hvalid p hstands hcol => ?_⟩
  · rw [happly, if_neg (not_le.mpr hroom)]
    exact widenInPlace_widened h hpairs hbase.narrow hroom
  · rw [happly, if_pos hfull, hwrap]
    rfl
  · rw [happly, if_pos hfull, hwrap]
    exact widenOnNextRow_widened h hregion hwrap hbase.narrow hfree
  · have hsound := h.applyEmojiVs16 u fun hD => hD.elim
    exact applyEmojiVs15_narrowed hsound hbase.narrow hstands
      ((applyEmojiVs16_columns t u).symm ▸ hcol) hvalid

theorem paired_of_narrow {g : Grid Square} (h : ∀ p, g.HasCell p → (g.cell p).wide = .narrow) :
    g.Paired := by
  constructor
  · intro p hp hwide
    rw [h p hp] at hwide
    cases hwide
  · intro p hp hspacer
    rw [h p hp] at hspacer
    cases hspacer

theorem selectors_apply_sun :
    ((new 3 2 0).step .basic (.input '\u2600')).SelectorsApply .basic := by
  have hready : ((new 3 2 0).run .basic [.input '\u2600']).Ready :=
    run_ready .basic 3 2 0 (by simp [Placed])
  refine selectors_apply (step_sound (new_sound False (by decide) (by decide) 0) .basic trivial
    False.elim) hready.region (paired_of_narrow ?_) ⟨by decide, by decide, by decide⟩
  rintro ⟨row, col⟩ ⟨htop, hline, hcol⟩
  change 0 ≤ row at htop
  change row < 2 at hline
  change col < 3 at hcol
  interval_cases row <;> interval_cases col <;> decide

/-- Where lines are not wrapped, a character in the last column stays narrow. -/
theorem selectors_stay_narrow :
    ((new 2 1 0).run .basic [.unsetPrivateMode (.named .lineWrap), .input 'a',
        .input '\u2600']).grid.Paired ∧
      ((new 2 1 0).run .basic [.unsetPrivateMode (.named .lineWrap), .input 'a',
        .input '\u2600']).TakesVs16 .basic ∧
      ¬ ∃ p, ((((new 2 1 0).run .basic [.unsetPrivateMode (.named .lineWrap), .input 'a',
        .input '\u2600']).applyEmojiVs16 .basic).grid.HasCell p ∧
          ((((new 2 1 0).run .basic [.unsetPrivateMode (.named .lineWrap), .input 'a',
            .input '\u2600']).applyEmojiVs16 .basic).grid.cell p).wide = .wide) := by
  refine ⟨paired_of_narrow ?_, ⟨by decide, by decide, by decide⟩, ?_⟩
  · rintro ⟨row, col⟩ ⟨htop, hline, hcol⟩
    change 0 ≤ row at htop
    change row < 1 at hline
    change col < 2 at hcol
    interval_cases row
    interval_cases col <;> decide
  · rintro ⟨⟨row, col⟩, ⟨htop, hline, hcol⟩, hwide⟩
    change 0 ≤ row at htop
    change row < 1 at hline
    change col < 2 at hcol
    revert hwide
    interval_cases row
    interval_cases col <;> decide

end Crosswords
end Rio
