import Rio.Grid.Reflow
import Rio.Grid.ResizeSound

/-! The checks of a resize never fail, and its loops end. -/

set_option linter.dupNamespace false

namespace Rio
open Rio.Checked

namespace Reflow

variable {g : Grid Square} {s : Storage Square} {D : Prop}

theorem storageStep_eq {op : StorageOp Square} (hop : s.Asserted op) :
    storageStep s op = .ok (s.step op) := if_pos hop

/-! ### Scrolling -/

theorem modifyLines_eq (f : Row Square → Row Square) :
    ∀ {lines : List ℤ} {s : Storage Square}, (∀ line ∈ lines, s.InBounds line) →
      modifyLines f s lines = .ok (lines.foldl (fun s line => s.modify line f) s)
  | [], _, _ => rfl
  | line :: lines, s, hlines => by
    obtain ⟨hline, hrest⟩ := List.forall_mem_cons.mp hlines
    have hmodify : modifyLine f s line = .ok (s.modify line f) := if_pos hline
    show (modifyLine f s line >>= fun s => modifyLines f s lines) = _
    rw [hmodify, ok_bind]
    exact modifyLines_eq f hrest

theorem swapLines_nil (s : Storage Square) (shift : ℤ) : swapLines s shift [] = .ok s := rfl

theorem inBounds_screen {line : ℤ} (hfilled : s.visibleLines ≤ s.len) (hline : 0 ≤ line)
    (hline' : line < s.visibleLines) : s.InBounds line := by
  refine ⟨hline', ?_⟩
  unfold Storage.offset
  omega

theorem increaseScrollLimit_storage (hg : g.WellFormed) (n : ℕ) :
    (g.increaseScrollLimit n).raw.WellFormed := by
  rw [Grid.increaseScrollLimit_raw hg]
  exact Storage.initializeRows_wellFormed hg.storage _ _

theorem le_increaseScrollLimit_len (hg : g.WellFormed) (n : ℕ) :
    g.lines ≤ (g.increaseScrollLimit n).raw.len := by
  rw [Grid.increaseScrollLimit_raw hg, Storage.initializeRows_len]
  exact le_add_right hg.filled

/-- The storage with room for the lines that scroll into the history. -/
theorem rotateUp_eq (hg : g.WellFormed) (hlines : 1 ≤ g.lines) {n : ℕ} (hn : n ≤ g.lines) :
    rotateUp g ⟨0, g.lines⟩ n = .ok ((g.increaseScrollLimit n).raw.rotate (-(n : ℤ))) := by
  have hroom : sub g.maxScrollLimit g.historySize = .ok (g.maxScrollLimit - g.historySize) :=
    sub_of_le hg.limit
  have hraw : (if min n (g.maxScrollLimit - g.historySize) ≠ 0 then
      g.raw.initializeRows (min n (g.maxScrollLimit - g.historySize)) g.columns else g.raw) =
      (g.increaseScrollLimit n).raw := by
    unfold Grid.increaseScrollLimit
    dsimp only
    split_ifs <;> rfl
  have hlen : g.lines ≤ (g.increaseScrollLimit n).raw.inner.length :=
    (le_increaseScrollLimit_len hg n).trans (increaseScrollLimit_storage hg n).len_le
  have hasserted : (g.increaseScrollLimit n).raw.Asserted (.rotate (-(n : ℤ))) := by
    refine ⟨by omega, ?_⟩
    rw [abs_neg, Nat.abs_cast]
    omega
  unfold rotateUp
  rw [hroom, ok_bind, hraw]
  dsimp only
  rw [lineRange_empty le_rfl, lineRange_empty le_rfl, List.reverse_nil, swapLines_nil, ok_bind,
    storageStep_eq hasserted, ok_bind, swapLines_nil]
  rfl

/-- Scrolling the whole screen up reads and writes its rows only. -/
theorem scrollUp_eq (hg : g.WellFormed) (hlines : 1 ≤ g.lines) {n : ℕ} (hn : n ≤ g.lines) :
    scrollUp g ⟨0, g.lines⟩ n = .ok (g.scrollUp ⟨0, g.lines⟩ n) := by
  have hstorage := increaseScrollLimit_storage hg n
  have hfilled := le_increaseScrollLimit_len hg n
  have hvisible : (g.increaseScrollLimit n).raw.visibleLines = g.lines := by
    rw [Grid.increaseScrollLimit_raw hg, Storage.initializeRows_visibleLines]
    exact hg.visible
  have hrotated : ((g.increaseScrollLimit n).raw.rotate (-(n : ℤ))).WellFormed :=
    Storage.rotate_wellFormed hstorage (by have := hstorage.len_le; omega) _
  have hrow {line : ℤ} (h1 : 0 ≤ line) (h2 : line < g.lines) :
      ((g.increaseScrollLimit n).raw.rotate (-(n : ℤ))).InBounds line :=
    inBounds_screen (hvisible.trans_le hfilled) h1 (hvisible ▸ h2)
  have hraw : (g.scrollUp ⟨0, g.lines⟩ n).raw = _ := Grid.scrollUp_raw_top rfl
  have hdisplay : (g.scrollUp ⟨0, g.lines⟩ n).displayOffset = (g.holdDisplay n).displayOffset := by
    rw [Grid.displayOffset_scrollUp, if_neg (fun h => h.2 rfl)]
    rfl
  dsimp only at hraw
  rw [lineRange_empty le_rfl, List.reverse_nil] at hraw
  unfold scrollUp moveUp
  rw [if_neg (fun h => h.2 rfl), if_pos rfl, rotateUp_eq hg hlines hn, ok_bind]
  dsimp only
  generalize (g.increaseScrollLimit n).raw.rotate (-(n : ℤ)) = rotated at hrotated hrow hraw ⊢
  have hbottom : ∀ line ∈ lineRange ((g.lines : ℤ) - n) g.lines, rotated.InBounds line := by
    intro line hline
    have := mem_lineRange.mp hline
    exact hrow (by omega) this.2
  have hreset := modifyLines_eq (fun r => r.reset g.cursor.template) hbottom
  have hscreen : ∀ line ∈ lineRange 0 g.lines, (rotated.resetLines g.cursor.template
      (lineRange ((g.lines : ℤ) - n) g.lines)).InBounds line := fun line hline =>
    (Storage.sameLayout_resetLines hrotated _ _).inBounds
      (hrow (mem_lineRange.mp hline).1 (mem_lineRange.mp hline).2)
  have hmark := modifyLines_eq Row.markDirty hscreen
  rw [hreset, ok_bind]
  refine (congrArg (· >>= _) hmark).trans ?_
  rw [ok_bind, Grid.scrollUp_eq, hraw, hdisplay]
  rfl

/-! ### More or fewer lines -/

theorem decreaseScrollLimit_eq (g : Grid Square) (count : ℕ) :
    decreaseScrollLimit g count = .ok (g.decreaseScrollLimit count) := by
  have hasserted : g.raw.Asserted
      (.shrinkLines (min (min count g.historySize) g.historySize)) := by
    show min (min count g.historySize) g.historySize ≤ g.raw.len
    rw [Grid.historySize_eq]
    omega
  unfold decreaseScrollLimit Grid.decreaseScrollLimit
  dsimp only
  split_ifs with hcount
  · rw [storageStep_eq hasserted, ok_bind]
    rfl
  · rfl

theorem makeRoom_eq (hg : g.WellFormed) (hlines : 1 ≤ g.lines) {linesAdded fromHistory : ℕ}
    (hfrom : fromHistory ≤ linesAdded) (hadded : linesAdded ≤ g.lines) :
    makeRoom g g.lines linesAdded fromHistory =
      .ok (if fromHistory ≠ linesAdded then g.scrollUp ⟨0, g.lines⟩ (linesAdded - fromHistory)
        else g) := by
  unfold makeRoom
  split_ifs with h
  · rw [sub_of_le hfrom, ok_bind, scrollUp_eq hg hlines (by omega)]
  · rfl

theorem growLines_eq (hg : g.WellFormed) (hlines : 1 ≤ g.lines) {target : ℕ}
    (htarget : g.lines < target) : growLines g target = .ok (g.growLines target) := by
  have hgrown := Grid.growVisibleLines_wellFormed hg hlines htarget
  have hasserted : g.raw.Asserted (.growVisibleLines target) := by
    have hvisible := hg.visible
    exact ⟨by omega, hg.inBounds (by omega) (by omega)⟩
  unfold growLines
  rw [sub_of_le htarget.le, ok_bind, storageStep_eq hasserted, ok_bind]
  have hroom := makeRoom_eq hgrown (show 1 ≤ target by omega)
    (min_le_right (Grid.historySize { g with
      raw := g.raw.growVisibleLines target, lines := target }) (target - g.lines))
    (show target - g.lines ≤ target by omega)
  refine (congrArg (· >>= _) hroom).trans ?_
  rw [ok_bind, decreaseScrollLimit_eq]
  rfl

theorem keepInside_eq (hg : g.WellFormed) (hlines : 1 ≤ g.lines) (target : ℕ) {required : ℕ}
    (hrequired : required ≤ g.lines) :
    keepInside g target required =
      .ok (if 0 < required then
        { g.scrollUp ⟨0, g.lines⟩ required with
          cursor :=
            { (g.scrollUp ⟨0, g.lines⟩ required).cursor with
              pos :=
                { (g.scrollUp ⟨0, g.lines⟩ required).cursor.pos with
                  row :=
                    min (g.scrollUp ⟨0, g.lines⟩ required).cursor.pos.row (target - 1) } } }
        else g) := by
  unfold keepInside
  split_ifs
  · rw [scrollUp_eq hg hlines hrequired, ok_bind]
    rfl
  · rfl

theorem shrinkLines_eq (hg : g.Sound D) {target : ℕ} (htarget : target < g.lines) :
    shrinkLines g target = .ok (g.shrinkLines target) := by
  have hrow1 := hg.cursor.2.1
  have hlines := hg.lines_pos
  unfold shrinkLines
  rw [keepInside_eq hg.wellFormed hlines target (by omega), ok_bind]
  unfold Grid.shrinkLines
  dsimp only
  have hkept (required : ℕ) : ∀ kept : Grid Square,
      kept = (if 0 < required then
        { g.scrollUp ⟨0, g.lines⟩ required with
          cursor :=
            { (g.scrollUp ⟨0, g.lines⟩ required).cursor with
              pos :=
                { (g.scrollUp ⟨0, g.lines⟩ required).cursor.pos with
                  row :=
                    min (g.scrollUp ⟨0, g.lines⟩ required).cursor.pos.row (target - 1) } } }
        else g) → kept.raw.WellFormed ∧ kept.raw.visibleLines = kept.lines ∧
          kept.lines ≤ kept.raw.len ∧ kept.lines = g.lines := by
    rintro kept rfl
    split_ifs
    · have hscrolled := Grid.scrollUp_wellFormed hg.wellFormed hlines ⟨0, g.lines⟩ required
      exact ⟨hscrolled.storage, hscrolled.visible, hscrolled.filled, Grid.scrollUp_lines ..⟩
    · exact ⟨hg.wellFormed.storage, hg.wellFormed.visible, hg.wellFormed.filled, rfl⟩
  obtain ⟨hstorage, hvisible, hfilled, hkeptLines⟩ := hkept _ _ rfl
  generalize (if 0 < g.cursor.pos.row.toNat + 1 - target then _ else g : Grid Square) = kept
    at hstorage hvisible hfilled hkeptLines ⊢
  have hrotate : kept.raw.Asserted (.rotate ((kept.lines - target : ℕ) : ℤ)) := by
    have := hstorage.len_le
    refine ⟨by omega, ?_⟩
    rw [Nat.abs_cast]
    omega
  have hshrink : (kept.raw.rotate ((kept.lines - target : ℕ) : ℤ)).Asserted
      (.shrinkVisibleLines target) := by
    show target ≤ kept.raw.visibleLines ∧ kept.raw.visibleLines - target ≤ kept.raw.len
    omega
  rw [sub_of_le (show target ≤ kept.lines by omega), ok_bind, storageStep_eq hrotate, ok_bind]
  refine (congrArg (· >>= _) (storageStep_eq hshrink)).trans ?_
  rfl

theorem resizeLines_eq (hg : g.Sound D) (lines : ℕ) :
    resizeLines g lines = .ok (if g.lines < lines then g.growLines lines
      else if lines < g.lines then g.shrinkLines lines else g) := by
  unfold resizeLines
  split_ifs with h1 h2
  · exact growLines_eq hg.wellFormed hg.lines_pos h1
  · exact shrinkLines_eq hg h2
  · rfl

/-! ### More columns -/

theorem read_cell {row : Row Square} {col : ℕ} (hcol : col < row.len) :
    read row.inner col = .ok (row.cell col) := by
  rw [read_of_lt hcol, Row.cell, List.getD_eq_getElem?_getD, List.getElem?_eq_getElem hcol]
  rfl

theorem frontSplitOff_eq {row : Row Square} {at_ : ℕ} (h : at_ ≤ row.len) :
    frontSplitOff row at_ = .ok (row.frontSplitOff at_) := if_pos h

theorem cursorBufferLine_eq {lines : ℕ} {cursor : Cursor Square} (hrow0 : 0 ≤ cursor.pos.row)
    (hrow1 : cursor.pos.row < lines) :
    cursorBufferLine lines cursor = .ok (Grid.cursorBufferLine lines cursor) := by
  unfold cursorBufferLine Grid.cursorBufferLine
  rw [if_pos hrow0, sub_of_le (by omega), ok_bind, sub_of_le (by omega)]

theorem shouldReflow_eq (reflow : Bool) (columns : ℕ) (row : Row Square) :
    shouldReflow reflow columns row = .ok (Grid.shouldReflow reflow columns row) := by
  unfold shouldReflow Grid.shouldReflow
  split_ifs with h
  · simp only [Bool.and_eq_true, decide_eq_true_eq] at h
    rw [read_cell (by omega), ok_bind, h.1.1, decide_eq_true h.1.2, decide_eq_true h.2]
    rfl
  · rw [Bool.not_eq_true] at h
    rw [h]
    rfl

theorem openLastRow_eq (row : Row Square) : openLastRow row = .ok (Grid.openLastRow row) := by
  unfold openLastRow Grid.openLastRow
  dsimp only
  generalize row.modifyLast (·.setWrapline false) = lastRow
  by_cases hlen : 1 ≤ lastRow.len
  · rw [if_pos hlen, read_cell (by omega), ok_bind]
    by_cases hspacer : (lastRow.cell (lastRow.len - 1)).wide = .leadingSpacer
    · rw [if_pos hspacer, if_pos ⟨hlen, hspacer⟩]
      rfl
    · rw [if_neg hspacer, if_neg fun h => hspacer h.2]
      rfl
  · rw [if_neg hlen, if_neg fun h => hlen h.1]

/-- A row with a cell gives up at least one cell, or a spacer for it, to a row that has room. -/
theorem pullCells_eq {row : Row Square} {numWrapped : ℕ} (hrow : 1 ≤ row.len)
    (hpos : 1 ≤ numWrapped) : pullCells row numWrapped = .ok (Grid.pullCells row numWrapped) := by
  unfold pullCells Grid.pullCells
  dsimp only
  rw [sub_of_le (by omega), ok_bind, read_cell (by omega), ok_bind]
  split_ifs
  · rw [sub_of_le hpos, ok_bind, frontSplitOff_eq (by omega), ok_bind]
    rfl
  · rw [frontSplitOff_eq (by omega), ok_bind]
    rfl

theorem posSub_eq {columns : ℕ} (hcolumns : 1 ≤ columns) (p : Pos) (lines rhs : ℕ) :
    posSub p lines columns rhs = .ok (p.sub ⟨0, lines, columns⟩ .cursor rhs) :=
  if_neg (Nat.one_le_iff_ne_zero.mp hcolumns)

theorem sub_row_le {lines : ℕ} {p : Pos} (hrow : 0 ≤ p.row) (columns rhs : ℕ) :
    (p.sub ⟨0, lines, columns⟩ .cursor rhs).row ≤ p.row := by
  unfold Pos.sub Pos.gridClamp Dimensions.bottommostLine
  dsimp only
  generalize (rhs + columns - 1 - p.col) / columns = lineChanges
  split_ifs <;> dsimp only <;> omega

theorem lineCount_eq {delta : ℤ} (h : 0 ≤ delta) : lineCount delta = .ok delta.toNat := if_pos h

/-- The cursor of a line that loses all its cells is clamped to the last column. -/
inductive Targeted (d : Dimensions) (p : Pos) (numWrapped : ℕ) (row : Row Square) :
    Bool → Pos → Prop
  | clamped (h : (p.sub d .cursor numWrapped).col = 0 ∧ row.isClear = true) :
      Targeted d p numWrapped row true ((p.sub d .cursor numWrapped).sub d .cursor 1)
  | moved (h : ¬ ((p.sub d .cursor numWrapped).col = 0 ∧ row.isClear = true)) :
      Targeted d p numWrapped row false (p.sub d .cursor numWrapped)

theorem cursorTarget_eq {st : GrowState} {columns : ℕ} (hcolumns : 1 ≤ columns)
    (lines numWrapped : ℕ) (row : Row Square) :
    ∃ clamped target, cursorTarget st lines columns numWrapped row = .ok (clamped, target) ∧
      Targeted ⟨0, lines, columns⟩ st.cursor.pos numWrapped row clamped target := by
  unfold cursorTarget
  rw [posSub_eq hcolumns, ok_bind]
  split_ifs with h
  · rw [posSub_eq hcolumns, ok_bind]
    exact ⟨true, _, rfl, .clamped h⟩
  · exact ⟨false, _, rfl, .moved h⟩

theorem Targeted.row_le {lines columns : ℕ} (hlines : 1 ≤ lines) (hcolumns : 1 ≤ columns)
    {p target : Pos} (hrow : 0 ≤ p.row) {numWrapped : ℕ} {row : Row Square} {clamped : Bool}
    (h : Targeted ⟨0, lines, columns⟩ p numWrapped row clamped target) : target.row ≤ p.row := by
  cases h with
  | clamped h =>
    have hfirst : 0 ≤ (p.sub ⟨0, lines, columns⟩ .cursor numWrapped).row :=
      (Pos.gridClamp_onScreen (d := ⟨0, lines, columns⟩) hlines hcolumns _).1
    exact (sub_row_le hfirst columns 1).trans (sub_row_le hrow columns numWrapped)
  | moved h => exact sub_row_le hrow columns numWrapped

theorem growStep_eq (reflow : Bool) {lines columns : ℕ} (hlines : 1 ≤ lines)
    (hcolumns : 1 ≤ columns) {st : GrowState} (hst : Grid.GrowBounds lines columns st) (i : ℕ)
    {row : Row Square} (hrow : 1 ≤ row.len) :
    growStep reflow lines columns st i row = .ok (Grid.growStep reflow lines columns st i row) := by
  obtain ⟨hrow0, hrow1, -⟩ := hst.cursor
  rcases hreversed : st.reversed with _ | ⟨lastRow, rest⟩
  · rw [Grid.growStep_first hreversed]
    unfold growStep
    rw [hreversed]
  unfold growStep
  rw [hreversed]
  dsimp only
  rw [shouldReflow_eq, ok_bind]
  rcases hreflow : Grid.shouldReflow reflow columns lastRow with _ | _
  · rw [Grid.growStep_push hreversed hreflow]
    rfl
  have hlast : lastRow.len < columns := by
    simp only [Grid.shouldReflow, Bool.and_eq_true, decide_eq_true_eq] at hreflow
    exact hreflow.1.2
  have hopen := Grid.openLastRow_len_le lastRow
  unfold Grid.growStep
  rw [hreversed]
  dsimp only
  rw [hreflow, openLastRow_eq, ok_bind, sub_of_le (by omega), ok_bind,
    pullCells_eq hrow (by omega), ok_bind]
  generalize Grid.pullCells row (columns - (Grid.openLastRow lastRow).len) = pulled
  obtain ⟨numWrapped, row', cells⟩ := pulled
  dsimp only
  rw [cursorBufferLine_eq hrow0 hrow1, ok_bind]
  simp only [Bool.not_true, Bool.false_eq_true, if_false]
  by_cases hcursor : i = Grid.cursorBufferLine lines st.cursor ∧ reflow = true
  · rw [if_pos hcursor, if_pos hcursor]
    obtain ⟨clamped, target, heq, htarget⟩ := @cursorTarget_eq st columns hcolumns
      lines numWrapped row'
    have hdelta := lineCount_eq (sub_nonneg.mpr (htarget.row_le hlines hcolumns hrow0))
    rw [heq, ok_bind]
    dsimp only
    rw [hdelta, ok_bind]
    cases htarget with
    | clamped h =>
      rw [if_pos h, if_pos h, if_pos rfl]
      split_ifs <;> rfl
    | moved h =>
      rw [if_neg h, if_neg h, if_neg Bool.false_ne_true]
      split_ifs <;> rfl
  · rw [if_neg hcursor, if_neg hcursor]
    split_ifs <;> rfl

theorem growLoop_eq (reflow : Bool) {lines columns : ℕ} (hlines : 1 ≤ lines)
    (hcolumns : 1 ≤ columns) :
    ∀ (rows : List (Row Square × ℕ)) (st : GrowState), Grid.GrowBounds lines columns st →
      (∀ r ∈ rows, 1 ≤ r.1.len ∧ r.1.len ≤ columns) →
      rows.foldlM (fun st (row, i) => growStep reflow lines columns st i row) st =
        .ok (Grid.growLoop reflow lines columns rows st)
  | [], _, _, _ => rfl
  | (row, i) :: rows, st, hst, hrows => by
    obtain ⟨⟨hpos, hwidth⟩, hrest⟩ := List.forall_mem_cons.mp hrows
    have hnext := (Grid.growStep_bounds reflow hlines hcolumns hst i hwidth).1
    have hstep := growStep_eq reflow hlines hcolumns hst i hpos
    rw [List.foldlM_cons]
    refine (congrArg (· >>= _) hstep).trans ?_
    exact growLoop_eq reflow hlines hcolumns rows _ hnext hrest

theorem pullDown_eq {lines columns : ℕ} {st : GrowState} (hst : Grid.GrowBounds lines columns st)
    (hfilled : lines ≤ st.reversed.length) :
    pullDown st lines = .ok (Grid.pullDown st lines) := by
  obtain ⟨hrow0, hrow1, -⟩ := hst.cursor
  unfold pullDown Grid.pullDown
  dsimp only
  split_ifs with h
  · rw [cursorBufferLine_eq hrow0 hrow1, ok_bind, sub_of_le hfilled, ok_bind,
      sub_of_le (by omega), ok_bind]
    have hkept : st.reversed.length - (st.reversed.length +
        (st.cursorLineDelta - min (Grid.cursorBufferLine lines st.cursor)
          (st.reversed.length - lines)) - st.cursorLineDelta) =
        st.cursorLineDelta - (st.cursorLineDelta - min (Grid.cursorBufferLine lines st.cursor)
          (st.reversed.length - lines)) := by omega
    rw [hkept]
    rfl
  · rfl

theorem growColumns_eq (hg : g.Sound D) (reflow : Bool) {columns : ℕ}
    (hcolumns : g.columns < columns) :
    growColumns g reflow columns = .ok (g.growColumns reflow columns) := by
  have hwf := hg.wellFormed
  have hlines := hg.lines_pos
  have hold := hg.columns_ge
  have hrows : ∀ r ∈ Grid.oldestFirst g.raw.takeAll.2, 1 ≤ r.1.len ∧ r.1.len ≤ columns := by
    intro r hr
    have := Grid.mem_takeAll hwf (Grid.mem_oldestFirst hr)
    omega
  have hstart : Grid.GrowBounds g.lines columns
      ⟨Grid.unwrapCursor reflow g.cursor, g.displayOffset, 0, []⟩ :=
    ⟨Grid.Pos.OnScreen.mono (Grid.unwrapCursor_onScreen reflow hg.cursor) hcolumns, by simp⟩
  have hbounds := (Grid.growLoop_bounds reflow hlines (show 1 ≤ columns by omega) _ _ hstart
    fun r hr => (hrows r hr).2).1
  obtain ⟨hfill, hfilled⟩ := Grid.fillViewport_bounds hbounds
  have hloop := growLoop_eq reflow hlines (show 1 ≤ columns by omega) _ _ hstart hrows
  have hpull := pullDown_eq hfill (by omega)
  unfold growColumns
  refine (congrArg (· >>= _) hloop).trans ?_
  rw [ok_bind, hpull, ok_bind]
  rfl

/-! ### Fewer columns -/

theorem modifyCell_eq {row : Row Square} {col : ℕ} (hcol : col < row.len) (f : Square → Square) :
    modifyCell row col f = .ok (row.modify col f) := if_pos hcol

theorem insertSpacer_eq {columns : ℕ} (hcolumns : 1 ≤ columns) {row : Row Square}
    (hrow : row.len = columns) (wrapped : List Square) :
    insertSpacer columns row wrapped =
      .ok (if (row.cell (columns - 1)).wide = .wide then
          (row.set (columns - 1) Square.newLeadingSpacer, row.cell (columns - 1) :: wrapped)
        else (row, wrapped)) := by
  unfold insertSpacer
  rw [if_pos hrow.ge, sub_of_le hcolumns, ok_bind, read_cell (by omega), ok_bind]
  split_ifs
  · rw [modifyCell_eq (by omega), ok_bind]
    rfl
  · rfl

theorem dropSpacer_eq {columns : ℕ} (hcolumns : 1 ≤ columns) {row : Row Square}
    (hrow : row.len = columns) (wrapped : List Square) :
    dropSpacer columns row wrapped =
      .ok (if wrapped.map Square.wide = [.leadingSpacer] then
          (row.modify (columns - 1) (·.setWrapline true), none)
        else (row.modifyLast (·.setWrapline true), some (Grid.dropLeadingSpacer wrapped))) := by
  rcases wrapped.eq_nil_or_concat with rfl | ⟨init, last, rfl⟩
  · rfl
  rw [List.concat_eq_append]
  have hlength : (init ++ [last]).length = init.length + 1 := by simp
  have hlast : read (init ++ [last]) init.length = .ok last := by
    rw [read_of_lt (by omega)]
    simp
  unfold dropSpacer Grid.dropLeadingSpacer
  rw [hlength, if_pos (Nat.succ_pos _), Nat.add_sub_cancel, hlast, ok_bind, List.getLast?_concat]
  by_cases hspacer : last.wide = .leadingSpacer
  · rw [if_pos hspacer]
    rcases init with _ | ⟨first, init⟩
    · have hmap : ([] ++ [last]).map Square.wide = [.leadingSpacer] := by simp [hspacer]
      rw [List.length_nil, if_pos (Nat.zero_add 1), sub_of_le hcolumns, ok_bind, modifyCell_eq (by omega), ok_bind, if_pos hmap]
      rfl
    · have hmap : (first :: init ++ [last]).map Square.wide ≠ [.leadingSpacer] := by simp
      have hbefore : (first :: init).length + 1 - 2 < (first :: init ++ [last]).length := by
        simp
      rw [if_neg (by simp), sub_of_le (by simp), ok_bind, read_of_lt hbefore, ok_bind, if_neg hmap,
        if_pos (by simp [hspacer])]
      rfl
  · have hmap : (init ++ [last]).map Square.wide ≠ [.leadingSpacer] := by
      intro h
      have hwide := congrArg List.getLast? h
      rw [List.map_append, List.map_singleton, List.getLast?_concat] at hwide
      exact hspacer (Option.some.inj hwide)
    rw [if_neg hspacer, if_neg hmap, if_neg (by simpa using hspacer)]
    rfl

theorem splitRow_eq {columns : ℕ} (hcolumns : 1 ≤ columns) {row : Row Square}
    (hrow : row.len = columns) (wrapped : List Square) :
    splitRow columns row wrapped = .ok (Grid.splitRow columns row wrapped) := by
  unfold splitRow Grid.splitRow
  rw [insertSpacer_eq hcolumns hrow, ok_bind]
  dsimp only
  by_cases hwide : (row.cell (columns - 1)).wide = .wide
  · have hsplits : columns ≤ row.len ∧ (row.cell (columns - 1)).wide = .wide := ⟨hrow.ge, hwide⟩
    rw [if_pos hwide, if_pos hsplits, if_pos hsplits]
    exact dropSpacer_eq hcolumns ((Row.modify_len ..).trans hrow) _
  · have hsplits : ¬ (columns ≤ row.len ∧ (row.cell (columns - 1)).wide = .wide) :=
      fun h => hwide h.2
    rw [if_neg hwide, if_neg hsplits, if_neg hsplits]
    exact dropSpacer_eq hcolumns hrow wrapped

theorem cursorAfterSplit_eq {lines columns i : ℕ} {cursor : Cursor Square}
    (hrow0 : 0 ≤ cursor.pos.row) (hrow1 : cursor.pos.row < lines) :
    cursorAfterSplit lines columns i cursor =
      .ok (Grid.cursorAfterSplit lines columns i cursor) := by
  have hcol : colAfterSplit columns cursor.pos.col (i = Grid.cursorBufferLine lines cursor) =
      .ok (if i = Grid.cursorBufferLine lines cursor ∧ columns ≤ cursor.pos.col then
        cursor.pos.col - columns else cursor.pos.col) := by
    unfold colAfterSplit
    simp only [decide_eq_true_eq]
    split_ifs with h
    · exact sub_of_le h.2
    · rfl
  unfold cursorAfterSplit
  rw [cursorBufferLine_eq hrow0 hrow1, ok_bind, hcol, ok_bind]
  rfl

theorem dropLeadingSpacer_length_le (wrapped : List Square) :
    (Grid.dropLeadingSpacer wrapped).length ≤ wrapped.length := by
  unfold Grid.dropLeadingSpacer
  split_ifs
  · rw [List.length_take, List.length_modify]
    omega
  · exact le_rfl

/-- The wide character in the last column goes on with the cells cut off. -/
theorem splitRow_wrapped_le {columns : ℕ} {row row' : Row Square} {wrapped wrapped' : List Square}
    (h : Grid.splitRow columns row wrapped = (row', some wrapped')) :
    wrapped'.length ≤ wrapped.length + 1 := by
  unfold Grid.splitRow at h
  dsimp only at h
  generalize hspaced : (if columns ≤ row.len ∧ (row.cell (columns - 1)).wide = .wide then
    row.cell (columns - 1) :: wrapped else wrapped) = spaced at h
  have hlength : spaced.length ≤ wrapped.length + 1 := by
    rw [← hspaced]
    split_ifs
    · exact le_rfl
    · exact Nat.le_succ _
  by_cases hspacer : spaced.map Square.wide = [.leadingSpacer]
  · rw [if_pos hspacer] at h
    cases (Prod.ext_iff.mp h).2
  · rw [if_neg hspacer] at h
    cases (Prod.ext_iff.mp h).2
    exact (dropLeadingSpacer_length_le _).trans hlength

theorem shrink_cut {columns : ℕ} {row : Row Square} {cut : List Square}
    (h : (row.shrink columns).2 = some cut) :
    columns < row.len ∧ cut.length + columns ≤ row.len := by
  unfold Row.shrink at h
  dsimp only at h
  split_ifs at h with hlen
  have hcut := (List.rdropWhile_prefix GridSquare.isEmpty (row.inner.drop columns)).length_le
  rw [List.length_drop] at hcut
  cases h
  unfold Row.len at *
  omega

theorem fromVec_len (columns : ℕ) (wrapped : List Square) :
    (Row.fromVec (wrapped ++ List.replicate (columns - wrapped.length) default)
      wrapped.length).len = max wrapped.length columns := by
  unfold Row.fromVec Row.len
  rw [List.length_append, List.length_replicate]
  omega

/-- Every turn of the loop over a row that goes on has taken a cell from the row or has moved the
cursor left. -/
theorem cells_decrease {reflow : Bool} {lines columns i : ℕ} (hcolumns : 2 ≤ columns)
    {cursor : Cursor Square} {row : Row Square} (hrow : columns ≤ row.len)
    {cut : Option (List Square)} {wrapped : List Square}
    (hshort : ∀ cells, cut = some cells → columns < row.len ∧ cells.length + columns ≤ row.len)
    (hfits : ¬ (cut = none ∧ ¬ (reflow = true ∧ i = Grid.cursorBufferLine lines cursor ∧
      columns < cursor.pos.col)))
    (hwrapped : wrapped.length ≤ (cut.getD []).length + 1) :
    max wrapped.length columns + (Grid.cursorAfterSplit lines columns i cursor).pos.col <
      row.len + cursor.pos.col := by
  have hcol : (Grid.cursorAfterSplit lines columns i cursor).pos.col =
      if i = Grid.cursorBufferLine lines cursor ∧ columns ≤ cursor.pos.col then
        cursor.pos.col - columns else cursor.pos.col := rfl
  rw [hcol]
  cases cut with
  | some cells =>
    obtain ⟨hlonger, hcells⟩ := hshort cells rfl
    rw [Option.getD_some] at hwrapped
    split_ifs <;> omega
  | none =>
    -- the cursor is beyond the cells that are left
    obtain ⟨-, hline, hbeyond⟩ := not_not.mp fun h => hfits ⟨rfl, h⟩
    rw [if_pos ⟨hline, hbeyond.le⟩]
    rw [Option.getD_none, List.length_nil] at hwrapped
    omega

theorem shrinkRow_ends {reflow : Bool} {lines columns i : ℕ} (hcolumns : 2 ≤ columns) :
    ∀ (n : ℕ) {st : ShrinkState} {row : Row Square}, Grid.ShrinkBounds lines columns st →
      columns ≤ row.len → row.len + st.cursor.pos.col < n →
      Ends (fun fuel => loop (shrinkTurn reflow lines columns i) fuel (st, row))
        (Grid.shrinkRow reflow lines columns i n st row)
  | 0, _, _, _, _, hn => absurd hn (Nat.not_lt_zero _)
  | n + 1, st, row, hst, hrow, hn => by
    have hcut := Row.shrink_len hrow
    have hbuffer := cursorBufferLine_eq hst.row_nonneg hst.row_lt
    obtain ⟨turned, hturned⟩ : ∃ turned, shrinkTurn reflow lines columns i (st, row) = turned :=
      ⟨_, rfl⟩
    have hturn := hturned
    unfold shrinkTurn at hturn
    dsimp only at hturn
    rw [hbuffer, ok_bind] at hturn
    unfold Grid.shrinkRow
    dsimp only
    have hshort : ∀ cells, (if reflow = true then (row.shrink columns).2 else none) = some cells →
        columns < row.len ∧ cells.length + columns ≤ row.len := by
      intro cells h
      split_ifs at h
      exact shrink_cut h
    generalize (if reflow = true then (row.shrink columns).2 else none) = cut at hturn hshort ⊢
    by_cases hfits : cut = none ∧ ¬ (reflow = true ∧
        i = Grid.cursorBufferLine lines st.cursor ∧ columns < st.cursor.pos.col)
    · rw [if_pos hfits] at hturn ⊢
      exact ends_loop_of_done (hturned.trans hturn.symm)
    rw [if_neg hfits, splitRow_eq (by omega) hcut, ok_bind] at hturn
    rw [if_neg hfits]
    have hlen := Grid.splitRow_len hcut (cut.getD [])
    rcases hsplit : Grid.splitRow columns (row.shrink columns).1 (cut.getD []) with
      ⟨row', _ | wrapped⟩
    · rw [hsplit] at hturn
      exact ends_loop_of_done (hturned.trans hturn.symm)
    rw [hsplit] at hturn hlen
    dsimp only at hturn ⊢
    by_cases hgoes : (wrapped.getLast?.any Square.wrapline) = true ∧ 1 ≤ i ∧
        wrapped.length < columns
    · rw [if_pos hgoes] at hturn ⊢
      exact ends_loop_of_done (hturned.trans hturn.symm)
    rw [if_neg hgoes, cursorAfterSplit_eq hst.row_nonneg hst.row_lt, ok_bind] at hturn
    rw [if_neg hgoes]
    obtain ⟨hrow0, hrow1⟩ := Grid.cursorAfterSplit_row columns i hst.row_nonneg hst.row_lt
    have hless := cells_decrease hcolumns hrow hshort hfits (splitRow_wrapped_le hsplit)
    have hwidth : ∀ r ∈ row' :: st.newRaw, r.len = columns :=
      List.forall_mem_cons.mpr ⟨hlen, hst.width⟩
    refine ends_loop_of_again (hturned.trans hturn.symm)
      (shrinkRow_ends hcolumns n ⟨hrow0, hrow1, hwidth⟩ ?_ ?_)
    · rw [fromVec_len]
      exact le_max_right _ _
    · rw [fromVec_len]
      exact hless.trans_le (Nat.le_of_lt_succ hn)

theorem shrinkStep_ends (reflow : Bool) {lines columns : ℕ} (hcolumns : 2 ≤ columns)
    {st : ShrinkState} (hst : Grid.ShrinkBounds lines columns st) (i : ℕ) {row : Row Square}
    (hrow : columns ≤ row.len) :
    Ends (fun fuel => shrinkStep reflow lines columns fuel st i row)
      (Grid.shrinkStep reflow lines columns st i row) := by
  unfold shrinkStep takeBuffered Grid.shrinkStep
  cases hbuffered : st.buffered with
  | none => exact shrinkRow_ends hcolumns _ hst hrow (Nat.lt_succ_self _)
  | some buffered =>
    dsimp only
    rw [cursorBufferLine_eq hst.row_nonneg hst.row_lt]
    refine shrinkRow_ends hcolumns _ ⟨hst.row_nonneg, hst.row_lt, hst.width⟩ ?_
      (Nat.lt_succ_self _)
    unfold Row.appendFront Row.len at *
    rw [List.length_append]
    omega

theorem shrinkLoop_ends (reflow : Bool) {lines columns : ℕ} (hcolumns : 2 ≤ columns) :
    ∀ (rows : List (Row Square × ℕ)) (st : ShrinkState), Grid.ShrinkBounds lines columns st →
      (∀ r ∈ rows, columns ≤ r.1.len) →
      Ends (fun fuel => rows.foldlM
          (fun st (row, i) => shrinkStep reflow lines columns fuel st i row) st)
        (Grid.shrinkLoop reflow lines columns rows st)
  | [], _, _, _ => .of_ok fun _ => rfl
  | (row, i) :: rows, st, hst, hrows => by
    obtain ⟨hwidth, hrest⟩ := List.forall_mem_cons.mp hrows
    have hnext := (Grid.shrinkStep_bounds reflow hst i hwidth).1
    have hloop := shrinkLoop_ends reflow hcolumns rows _ hnext hrest
    exact (shrinkStep_ends reflow hcolumns hst i hwidth).bind hloop

theorem placeCursor_eq (hwf : g.WellFormed) (hcolumns : 1 ≤ g.columns)
    (hrow0 : 0 ≤ g.cursor.pos.row) (hrow1 : g.cursor.pos.row < g.lines) (reflow : Bool) :
    placeCursor g reflow = .ok (g.placeCursor reflow) := by
  have hbounds : g.raw.InBounds g.cursor.pos.row := hwf.inBounds (by omega) hrow1
  have hwidth : (g.row g.cursor.pos.row).len = g.columns :=
    hwf.width _ (Storage.row_mem hwf.storage hbounds)
  have hread : readLine g.raw g.cursor.pos.row = .ok (g.row g.cursor.pos.row) := if_pos hbounds
  unfold placeCursor Grid.placeCursor
  dsimp only
  rw [sub_of_le hcolumns, ok_bind]
  cases reflow with
  | false => rfl
  | true =>
    by_cases hcol : g.cursor.pos.col = g.columns
    · rw [if_neg (by decide), if_pos hcol, hread, ok_bind, read_cell (by omega), ok_bind]
      cases hwrap : ((g.row g.cursor.pos.row).cell (g.columns - 1)).wrapline with
      | false =>
        rw [if_pos (by decide), sub_of_le (by omega), ok_bind, if_neg (by decide),
          if_pos ⟨hcol, Bool.false_ne_true⟩]
        rfl
      | true =>
        rw [if_neg (by decide), if_neg (by decide), if_neg (fun h => h.2 rfl)]
        rfl
    · rw [if_neg (by decide), if_neg hcol, if_neg (by decide), if_neg (fun h => hcol h.1)]
      rfl

theorem shrinkColumns_ends (hg : g.Sound D) (reflow : Bool) {columns : ℕ}
    (hcolumns : columns < g.columns) (hcolumns2 : 2 ≤ columns) :
    Ends (fun fuel => shrinkColumns g reflow columns fuel) (g.shrinkColumns reflow columns) := by
  have hunwrap := Grid.unwrapCursor_onScreen reflow hg.cursor
  have hrows : ∀ r ∈ Grid.oldestFirst g.raw.takeAll.2, columns ≤ r.1.len := fun r hr =>
    hcolumns.le.trans (Grid.mem_takeAll hg.wellFormed (Grid.mem_oldestFirst hr)).ge
  have hstart : Grid.ShrinkBounds g.lines columns
      ⟨Grid.unwrapCursor reflow g.cursor, g.displayOffset, [], none⟩ :=
    ⟨hunwrap.1, hunwrap.2.1, by simp⟩
  obtain ⟨hbounds, hwf⟩ := Grid.shrinkLoop_wellFormed hg reflow hcolumns _ rfl
  refine (shrinkLoop_ends reflow hcolumns2 _ _ hstart hrows).bind (.const ?_)
  unfold Grid.shrinkColumns
  dsimp only
  generalize Grid.shrinkLoop reflow g.lines columns (Grid.oldestFirst g.raw.takeAll.2)
    ⟨Grid.unwrapCursor reflow g.cursor, g.displayOffset, [], none⟩ = st at hbounds hwf ⊢
  have hplace (offset : ℕ) := placeCursor_eq (g := { g with
      cursor := st.cursor
      columns := columns
      raw := _
      displayOffset := offset })
    ⟨hwf.storage, hwf.visible, hwf.filled, hwf.limit, hwf.width⟩ (show 1 ≤ columns by omega)
    hbounds.row_nonneg hbounds.row_lt reflow
  refine (congrArg (· >>= _) (hplace _)).trans ?_
  rw [ok_bind, sub_of_le (by omega), ok_bind]
  rfl

theorem resizeColumns_ends (hg : g.Sound D) (reflow : Bool) {columns : ℕ}
    (hcolumns : 2 ≤ columns) :
    Ends (fun fuel => resizeColumns g reflow columns fuel)
      (if g.columns < columns then g.growColumns reflow columns
        else if columns < g.columns then g.shrinkColumns reflow columns else g) := by
  unfold resizeColumns
  split_ifs with h1 h2
  · exact .const (growColumns_eq hg reflow h1)
  · exact shrinkColumns_ends hg reflow h2 hcolumns
  · exact .of_ok fun _ => rfl

/-- A resize of a sound grid ends without a fault. -/
theorem resize_ends (hg : g.Sound D) (reflow : Bool) {lines columns : ℕ} (hlines : 1 ≤ lines)
    (hcolumns : 2 ≤ columns) :
    Ends (fun fuel => resize g reflow lines columns fuel) (g.resize reflow lines columns) := by
  have htemplate : Grid.Sound D { g with cursor := { g.cursor with template := default } } :=
    hg.of_eq rfl rfl rfl rfl rfl rfl rfl
  have hends := resizeColumns_ends (Grid.resizeLines_sound htemplate hlines) reflow hcolumns
  unfold resize
  dsimp only
  rw [resizeLines_eq htemplate]
  exact hends.bind (.const rfl)

/-! ### One resize after another -/

/-- What a grid is resized to. -/
structure Size where
  reflow : Bool
  lines : ℕ
  columns : ℕ
  deriving DecidableEq, Repr

/-- The smallest sizes of a layout. -/
def Size.Fits (s : Size) : Prop := 1 ≤ s.lines ∧ 2 ≤ s.columns

def resizes (g : Grid Square) (sizes : List Size) (fuel : ℕ) : Outcome (Grid Square) :=
  sizes.foldlM (fun g s => resize g s.reflow s.lines s.columns fuel) g

theorem resizes_end : ∀ (sizes : List Size) {g : Grid Square}, g.Sound D →
    (∀ s ∈ sizes, s.Fits) →
    Ends (resizes g sizes)
        (sizes.foldl (fun g s => g.resize s.reflow s.lines s.columns) g) ∧
      (sizes.foldl (fun g s => g.resize s.reflow s.lines s.columns) g).Sound D
  | [], _, hg, _ => ⟨.of_ok fun _ => rfl, hg⟩
  | s :: sizes, g, hg, hsizes => by
    obtain ⟨⟨hlines, hcolumns⟩, hrest⟩ := List.forall_mem_cons.mp hsizes
    obtain ⟨hends, hsound⟩ :=
      resizes_end sizes (hg.resize s.reflow hlines hcolumns) hrest
    exact ⟨(resize_ends hg s.reflow hlines hcolumns).bind hends, hsound⟩

/-- The size asked for last is the size of the grid. -/
theorem resizes_size (sizes : List Size) (s : Size) (g : Grid Square) :
    ((sizes ++ [s]).foldl (fun g s => g.resize s.reflow s.lines s.columns) g).lines = s.lines ∧
      ((sizes ++ [s]).foldl (fun g s => g.resize s.reflow s.lines s.columns) g).columns =
        s.columns := by
  rw [List.foldl_append]
  exact ⟨Grid.resize_lines .., Grid.resize_columns ..⟩

end Reflow
end Rio
