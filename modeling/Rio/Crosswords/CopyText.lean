import Rio.Crosswords.CopyWide
import Rio.Lib.Wrapped

/-! Copied text and the characters that a grid shows. -/

set_option linter.dupNamespace false

namespace Rio
open Rio.Checked Rio.Wrapped

/-- What a grid shows: a blank or a character with its marks in each cell, which cells are halves
of wide characters, and which lines go on in the next row. -/
structure View where
  lastColumn : ℕ
  tabs : ℕ → Bool
  item : Pos → Item Char
  wide : Pos → Wide
  wraps : ℤ → Bool

namespace View

/-- The cell belongs to the wide character of another cell. -/
def Half (v : View) (p : Pos) : Prop := v.wide p = .spacer ∨ v.wide p = .leadingSpacer

instance (v : View) (p : Pos) : Decidable (v.Half p) := inferInstanceAs (Decidable (_ ∨ _))

def isTab (v : View) (p : Pos) : Bool :=
  match v.item p with
  | .ink (c :: _) => c = '\t'
  | _ => false

/-- The gap of a tab goes on at a column. -/
def gapReaches (v : View) (gap : Bool) (column : ℕ) : Bool := gap && !v.tabs column

/-- The cell has no character of its own: it is a half, or blank in the gap of a tab. -/
def Passed (v : View) (line : ℤ) (gap : Bool) (column : ℕ) : Prop :=
  v.Half ⟨line, column⟩ ∨ v.gapReaches gap column = true ∧ v.item ⟨line, column⟩ = .blank

instance (v : View) (line : ℤ) (gap : Bool) (column : ℕ) : Decidable (v.Passed line gap column) :=
  inferInstanceAs (Decidable (_ ∨ _ ∧ _))

/-- The gap of a tab goes on after a column. -/
def gapAfter (v : View) (line : ℤ) (gap : Bool) (column : ℕ) : Bool :=
  if v.Passed line gap column then v.gapReaches gap column else v.isTab ⟨line, column⟩

/-- The cells of columns that have a character of their own. -/
def cells (v : View) (line : ℤ) : Bool → List ℕ → List Pos
  | _, [] => []
  | gap, column :: rest =>
    let others := v.cells line (v.gapAfter line gap column) rest
    if v.Passed line gap column then others else ⟨line, column⟩ :: others

/-- The last column that a range covers of a line. -/
def stopColumn (v : View) (ty : SelectionType) (range : SelectionRange) (line : ℤ) : ℕ :=
  if ty = .block ∨ line = range.stop.row then range.stop.col else v.lastColumn

/-- The first column that a range covers of a line; a wide character is covered with its second
half. -/
def startColumn (v : View) (ty : SelectionType) (range : SelectionRange) (line : ℤ) : ℕ :=
  let first := Crosswords.firstColumn ty range line
  if v.wide ⟨line, first⟩ = .spacer then first - 1 else first

def columns (v : View) (ty : SelectionType) (range : SelectionRange) (line : ℤ) : List ℕ :=
  let start := v.startColumn ty range line
  List.range' start (v.stopColumn ty range line + 1 - start)

/-- What a range covers of a line. In a block each row is a line. -/
def row (v : View) (ty : SelectionType) (range : SelectionRange) (line : ℤ) : Piece Pos where
  cells := v.cells line false (v.columns ty range line)
  wraps := ty ≠ .block && (v.stopColumn ty range line < v.lastColumn || v.wraps line)

def rows (v : View) (ty : SelectionType) (range : SelectionRange) : List (Piece Pos) :=
  (lineRange range.start.row (range.stop.row + 1)).map (v.row ty range)

/-- The characters that a range covers, line by line. -/
def lines (v : View) (ty : SelectionType) (range : SelectionRange) : List (List Pos) :=
  logicalLines (v.rows ty range)

/-- The text that a range covers, without blanks at the end of a line and, but for a block, without
empty lines at the end. -/
def text (v : View) (ty : SelectionType) (range : SelectionRange) : List Char :=
  let texts := (v.lines ty range).map fun line => lineText ' ' (line.map v.item)
  match ty with
  | .block => ['\n'].intercalate texts
  | .lines => joinLines '\n' texts ++ ['\n']
  | .simple | .semantic => joinLines '\n' texts

end View

namespace Crosswords

variable {t : Crosswords} {ty : SelectionType} {range : SelectionRange} {line : ℤ} {gap : Bool}
  {column : ℕ} {columns : List ℕ}

/-- What a cell shows: not the data that stand where it has a background only, and a space under
marks that stand alone. -/
def shownItem (t : Crosswords) (cell : Square) : Item Char :=
  let marks := t.zeroWidth cell
  if cell.isBgOnly then .blank
  else if cell.c = '\x00' ∨ cell.c = ' ' then if marks = [] then .blank else .ink (' ' :: marks)
  else .ink (cell.c :: marks)

def view (t : Crosswords) : View where
  lastColumn := t.grid.lastColumn
  tabs column := t.tabs.getD column false
  item p := t.shownItem (t.grid.cell p)
  wide p := (t.grid.cell p).wide
  wraps line := (t.grid.cell ⟨line, t.grid.lastColumn⟩).wrapline

/-- A copied range has the characters that it shows and no others. -/
structure CopiesShown (t : Crosswords) (ty : SelectionType) (range : SelectionRange) : Prop where
  text : t.copyRange ty range = .ok (t.view.text ty range)
  noNul : '\x00' ∉ t.view.text ty range

/-- What the code reads of a cell. -/
def readItem (t : Crosswords) (cell : Square) : Item Char :=
  if cell.extrasId = none ∧ (cell.c = '\x00' ∨ cell.c = ' ') then .blank
  else .ink (cell.c :: t.zeroWidth cell)

/-- The characters of a cell are where a tab, a half of a wide character or a background allow
them, and none of them ends a line. -/
structure TidyCell (t : Crosswords) (line : ℤ) (gap : Bool) (column : ℕ) : Prop where
  background : (t.grid.cell ⟨line, column⟩).isBgOnly = true → (t.grid.cell ⟨line, column⟩).c = '\x00'
  half : t.view.Half ⟨line, column⟩ → (t.grid.cell ⟨line, column⟩).c ≠ '\t'
  gap : t.view.gapReaches gap column = true →
    (t.view.Passed line gap column ↔ (t.grid.cell ⟨line, column⟩).c = '\x00')
  noNewline : (t.grid.cell ⟨line, column⟩).c ≠ '\n'
  marks : ∀ c ∈ t.zeroWidth (t.grid.cell ⟨line, column⟩), c ≠ '\n' ∧ c ≠ '\x00'

instance (t : Crosswords) (line : ℤ) (gap : Bool) (column : ℕ) :
    Decidable (t.TidyCell line gap column) :=
  -- the marks of the cell are tried, not all characters
  let _ : Decidable (∀ c ∈ t.zeroWidth (t.grid.cell ⟨line, column⟩), c ≠ '\n' ∧ c ≠ '\x00') :=
    List.decidableBAll _ _
  decidable_of_iff (_ ∧ _ ∧ _ ∧ _ ∧ _)
    ⟨fun h => ⟨h.1, h.2.1, h.2.2.1, h.2.2.2.1, h.2.2.2.2⟩,
      fun h => ⟨h.background, h.half, h.gap, h.noNewline, h.marks⟩⟩

def TidyCells (t : Crosswords) (line : ℤ) : Bool → List ℕ → Prop
  | _, [] => True
  | gap, column :: rest =>
    t.TidyCell line gap column ∧ t.TidyCells line (t.view.gapAfter line gap column) rest

/-! ### The cells of a row -/

theorem TidyCell.isTab (h : t.TidyCell line gap column) :
    t.view.isTab ⟨line, column⟩ = decide ((t.grid.cell ⟨line, column⟩).c = '\t') := by
  unfold View.isTab view shownItem
  dsimp only
  by_cases hbg : (t.grid.cell ⟨line, column⟩).isBgOnly = true
  · rw [if_pos hbg, h.background hbg]
    rfl
  · rw [if_neg hbg]
    by_cases hblank : (t.grid.cell ⟨line, column⟩).c = '\x00' ∨
        (t.grid.cell ⟨line, column⟩).c = ' '
    · have hnot : (t.grid.cell ⟨line, column⟩).c ≠ '\t' := by
        obtain h | h := hblank
        · rw [h]
          decide
        · rw [h]
          decide
      rw [if_pos hblank, decide_eq_false hnot]
      by_cases hmarks : t.zeroWidth (t.grid.cell ⟨line, column⟩) = []
      · rw [if_pos hmarks]
      · rw [if_neg hmarks]
        rfl
    · rw [if_neg hblank]

/-- One column of a row. -/
theorem appendCell_eq {s : Appended} (h : t.TidyCell line gap column) (hgap : s.tabMode = gap) :
    t.appendCell (t.grid.row line) s column =
      if t.view.Passed line gap column then
        { s with tabMode := t.view.gapAfter line gap column }
      else
        match t.readItem (t.grid.cell ⟨line, column⟩) with
        | .blank =>
          { s with tabMode := t.view.gapAfter line gap column, blankCells := s.blankCells + 1 }
        | .ink chars => { s with tabMode := t.view.gapAfter line gap column }.push chars := by
  have hcell : (t.grid.row line).cell column = t.grid.cell ⟨line, column⟩ := rfl
  have hreaches : t.view.gapReaches gap column = (gap && !t.tabs.getD column false) := rfl
  have hhalf : t.view.Half ⟨line, column⟩ ↔ (t.grid.cell ⟨line, column⟩).wide = .spacer ∨
      (t.grid.cell ⟨line, column⟩).wide = .leadingSpacer := Iff.rfl
  have hskip (hnot : ¬ (t.view.gapReaches gap column = true ∧
      (t.grid.cell ⟨line, column⟩).c = '\x00')) : ¬ (s.tabMode && !(t.tabs.getD column false ||
        decide ((t.grid.cell ⟨line, column⟩).c ≠ '\x00'))) = true := by
    rw [hgap]
    intro hskip
    rw [Bool.and_eq_true, Bool.not_eq_true', Bool.or_eq_false_iff, decide_eq_false_iff_not,
      not_not] at hskip
    refine hnot ⟨?_, hskip.2.2⟩
    rw [hreaches, hskip.1, hskip.2.1]
    rfl
  have hown (hpass : ¬ t.view.Passed line gap column)
      (hnot : ¬ (t.view.gapReaches gap column = true ∧ (t.grid.cell ⟨line, column⟩).c = '\x00')) :
      t.appendCell (t.grid.row line) s column =
        match t.readItem (t.grid.cell ⟨line, column⟩) with
        | .blank =>
          { s with tabMode := t.view.gapAfter line gap column, blankCells := s.blankCells + 1 }
        | .ink chars => { s with tabMode := t.view.gapAfter line gap column }.push chars := by
    unfold appendCell View.gapAfter readItem
    dsimp only
    rw [hcell, if_neg (hskip hnot), if_neg fun hwide => hpass (.inl (hhalf.mpr hwide)),
      if_neg hpass, h.isTab]
    by_cases hblank : (t.grid.cell ⟨line, column⟩).extrasId = none ∧
        ((t.grid.cell ⟨line, column⟩).c = '\x00' ∨ (t.grid.cell ⟨line, column⟩).c = ' ')
    · rw [if_pos hblank, if_pos hblank]
    · rw [if_neg hblank, if_neg hblank]
  by_cases hgapped : t.view.gapReaches gap column = true
  · have hpassed := h.gap hgapped
    by_cases hpass : t.view.Passed line gap column
    · rw [if_pos hpass, View.gapAfter, if_pos hpass, hgapped]
      rw [hreaches, Bool.and_eq_true, Bool.not_eq_true'] at hgapped
      unfold appendCell
      dsimp only
      rw [hcell, hgap, hgapped.1, hgapped.2, hpassed.mp hpass, if_pos (by rfl)]
      rw [← hgapped.1, ← hgap]
    · rw [if_neg hpass]
      exact hown hpass fun hnul => hpass (hpassed.mpr hnul.2)
  · have hnot : ¬ (t.view.gapReaches gap column = true ∧
        (t.grid.cell ⟨line, column⟩).c = '\x00') := fun hnul => hgapped hnul.1
    by_cases hpass : t.view.Passed line gap column
    · have hwide : t.view.Half ⟨line, column⟩ := by
        obtain hwide | hblank := hpass
        · exact hwide
        · exact absurd hblank.1 hgapped
      rw [if_pos hpass, View.gapAfter, if_pos hpass]
      unfold appendCell
      dsimp only
      rw [hcell, if_neg (hskip hnot), if_pos (hhalf.mp hwide), decide_eq_false (h.half hwide),
        Bool.eq_false_iff.mpr hgapped]
    · rw [if_neg hpass]
      exact hown hpass hnot

/-- The cells that the code reads of a row are those that have a character of their own. -/
theorem appendCell_foldl {s : Appended} (htidy : t.TidyCells line gap columns)
    (hgap : s.tabMode = gap) :
    ∃ tabMode, columns.foldl (t.appendCell (t.grid.row line)) s =
      { text := s.text ++ rowText ' ' s.blankCells
          ((t.view.cells line gap columns).map fun p => t.readItem (t.grid.cell p))
        blankCells := pending s.blankCells
          ((t.view.cells line gap columns).map fun p => t.readItem (t.grid.cell p))
        tabMode := tabMode
        hadContent := s.hadContent || !((t.view.cells line gap columns).all
          fun p => (t.readItem (t.grid.cell p)).isBlank) } := by
  induction columns generalizing gap s with
  | nil =>
    refine ⟨s.tabMode, ?_⟩
    simp [View.cells, rowText, pending]
  | cons column rest ih =>
    obtain ⟨hcell, hrest⟩ := htidy
    rw [List.foldl_cons, appendCell_eq hcell hgap, View.cells]
    by_cases hpass : t.view.Passed line gap column
    · rw [if_pos hpass, if_pos hpass]
      exact ih hrest rfl
    · rw [if_neg hpass, if_neg hpass]
      cases hitem : t.readItem (t.grid.cell ⟨line, column⟩) with
      | blank =>
        obtain ⟨tabMode, hfold⟩ := @ih (t.view.gapAfter line gap column)
          { s with tabMode := t.view.gapAfter line gap column, blankCells := s.blankCells + 1 }
          hrest rfl
        refine ⟨tabMode, hfold.trans ?_⟩
        simp only [List.map_cons, hitem, rowText, pending, List.all_cons, Item.isBlank,
          Bool.true_and]
      | ink chars =>
        obtain ⟨tabMode, hfold⟩ := @ih (t.view.gapAfter line gap column)
          ({ s with tabMode := t.view.gapAfter line gap column }.push chars) hrest rfl
        refine ⟨tabMode, hfold.trans ?_⟩
        simp only [List.map_cons, hitem, rowText, pending, List.all_cons, Item.isBlank,
          Bool.false_and, Bool.not_false, Bool.or_true, Appended.push, List.append_assoc,
          Bool.true_or]

/-- Cells that are not occupied keep the text. -/
theorem appendCell_foldl_blank {row : Row Square} {s : Appended}
    (h : ∀ column ∈ columns, (row.cell column).c = '\x00' ∧ (row.cell column).extrasId = none) :
    (columns.foldl (t.appendCell row) s).text = s.text ∧
      (columns.foldl (t.appendCell row) s).hadContent = s.hadContent := by
  induction columns generalizing s with
  | nil => exact ⟨rfl, rfl⟩
  | cons column rest ih =>
    obtain ⟨hcell, hrest⟩ := List.forall_mem_cons.mp h
    have hstep : (t.appendCell row s column).text = s.text ∧
        (t.appendCell row s column).hadContent = s.hadContent := by
      unfold appendCell
      dsimp only
      rw [hcell.1, hcell.2]
      split_ifs with _ _ hblank
      · exact ⟨rfl, rfl⟩
      · exact ⟨rfl, rfl⟩
      · exact ⟨rfl, rfl⟩
      · exact absurd ⟨rfl, .inl rfl⟩ hblank
    obtain ⟨htext, hcontent⟩ := @ih (t.appendCell row s column) hrest
    rw [List.foldl_cons, htext, hcontent]
    exact hstep

end Crosswords

namespace Row

variable {r : Row Square} {column : ℕ}

/-- The cells after the occupied ones. -/
theorem cell_of_lineLength_le (hfrom : r.lineLength ≤ column) (hcolumn : column < r.len) :
    (r.cell column).c = '\x00' ∧ (r.cell column).extrasId = none := by
  have hlength : column < r.inner.length := hcolumn
  have hcell : r.cell column = r.inner[column] := by
    unfold cell
    rw [List.getD_eq_getElem?_getD, List.getElem?_eq_getElem hlength]
    rfl
  have hindex : r.len - 1 - column < r.inner.reverse.length := by
    rw [List.length_reverse]
    show r.len - 1 - column < r.len
    omega
  have hreverse : r.inner.reverse[r.len - 1 - column] = r.cell column := by
    rw [hcell, List.getElem_reverse]
    congr 1
    show r.len - 1 - (r.len - 1 - column) = column
    omega
  have hblank (hnot : ¬ (decide ((r.cell column).c ≠ '\x00') || (r.cell column).hasExtras) = true) :
      (r.cell column).c = '\x00' ∧ (r.cell column).extrasId = none := by
    rw [Bool.or_eq_true, not_or, decide_eq_true_eq, not_not] at hnot
    exact ⟨hnot.1, by simpa [Square.hasExtras] using hnot.2⟩
  unfold lineLength at hfrom
  by_cases hwrap : (r.cell (r.len - 1)).wrapline = true
  · rw [if_pos hwrap] at hfrom
    omega
  · rw [if_neg hwrap] at hfrom
    cases hfind : r.inner.reverse.findIdx? fun cell => cell.c ≠ '\x00' || cell.hasExtras with
    | none =>
      rw [List.findIdx?_eq_none_iff] at hfind
      refine hblank ?_
      have hmem : r.cell column ∈ r.inner.reverse := by
        rw [← hreverse]
        exact List.getElem_mem hindex
      rw [hfind _ hmem]
      exact Bool.false_ne_true
    | some index =>
      rw [hfind] at hfrom
      dsimp only at hfrom
      obtain ⟨hlt, -, hbefore⟩ := List.findIdx?_eq_some_iff_getElem.mp hfind
      refine hblank ?_
      rw [← hreverse]
      refine hbefore _ ?_
      omega

end Row

namespace Crosswords

variable {t : Crosswords} {ty : SelectionType} {range : SelectionRange} {line : ℤ} {gap : Bool}
  {column : ℕ} {columns : List ℕ}

/-- How the code reads the cell of a position. -/
def readAt (t : Crosswords) (p : Pos) : Item Char := t.readItem (t.grid.cell p)

/-- What the cells of a line add to a text. -/
theorem ownCells_eq (h : t.Sound False) (htop : t.grid.topmostLine ≤ line)
    (hline : line < t.grid.lines) (hstop : t.view.stopColumn ty range line < t.grid.columns)
    (htidy : t.TidyCells line false (t.view.columns ty range line)) (blankCells : ℕ) :
    (t.ownCells line (firstColumn ty range line) (t.view.stopColumn ty range line)
        blankCells).text =
        rowText ' ' blankCells ((t.view.row ty range line).map t.readAt).cells ∧
      ((t.ownCells line (firstColumn ty range line) (t.view.stopColumn ty range line)
        blankCells).hadContent = true ↔ ¬ ((t.view.row ty range line).map t.readAt).Blank) ∧
      (t.view.wraps line = true → t.view.stopColumn ty range line = t.grid.lastColumn →
        (t.ownCells line (firstColumn ty range line) (t.view.stopColumn ty range line)
          blankCells).blankCells =
          pending blankCells ((t.view.row ty range line).map t.readAt).cells) := by
  have hlen : (t.grid.row line).len = t.grid.columns :=
    Grid.row_len h.grid.wellFormed htop hline
  have hlast : t.grid.lastColumn = t.grid.columns - 1 := rfl
  have hle : (t.grid.row line).lineLength ≤ _ := Row.lineLength_le
  obtain ⟨start, hstart⟩ : ∃ start, start = t.view.startColumn ty range line := ⟨_, rfl⟩
  obtain ⟨stop, hstop'⟩ : ∃ stop, stop = t.view.stopColumn ty range line := ⟨_, rfl⟩
  obtain ⟨k, hk⟩ : ∃ k, k = min (t.grid.row line).lineLength (stop + 1) - start := ⟨_, rfl⟩
  have hsplit : t.view.columns ty range line = List.range' start k ++
      List.range' (start + k) (stop + 1 - start - k) := by
    rw [List.range'_append_1]
    unfold View.columns
    dsimp only
    rw [← hstart, ← hstop']
    congr 1
    omega
  have hown : t.ownCells line (firstColumn ty range line) stop blankCells =
      (List.range' start k).foldl (t.appendCell (t.grid.row line)) { blankCells := blankCells } := by
    rw [hk, hstart]
    rfl
  have hblank : ∀ column ∈ List.range' (start + k) (stop + 1 - start - k),
      ((t.grid.row line).cell column).c = '\x00' ∧
        ((t.grid.row line).cell column).extrasId = none := by
    intro column hcolumn
    obtain ⟨hfrom, hto⟩ := List.mem_range'_1.mp hcolumn
    exact Row.cell_of_lineLength_le (by omega) (by omega)
  obtain ⟨tabMode, hfold⟩ := @appendCell_foldl t line false _ { blankCells := blankCells } htidy rfl
  have hrest := @appendCell_foldl_blank t _ _
    ((List.range' start k).foldl (t.appendCell (t.grid.row line)) { blankCells := blankCells })
    hblank
  rw [← List.foldl_append, ← hsplit, hfold] at hrest
  rw [← hstop', hown, ← hrest.1, ← hrest.2]
  refine ⟨rfl, ?_, fun hwraps hto => ?_⟩
  · have hcells : ((t.view.row ty range line).map t.readAt).Blank ↔
        (t.view.cells line false (t.view.columns ty range line)).all
          (fun p => (t.readItem (t.grid.cell p)).isBlank) = true := by
      rw [List.all_eq_true]
      exact List.forall_mem_map
    rw [hcells, Bool.false_or, Bool.not_eq_true', Bool.not_eq_true]
  · have hfull : (t.grid.row line).lineLength = (t.grid.row line).len :=
      if_pos (by rw [hlen]; exact hwraps)
    have hcolumns := h.grid.columns_ge
    have hnone : stop + 1 - start - k = 0 := by omega
    rw [hnone, List.range'_zero, List.append_nil] at hsplit
    rw [← hsplit, hfold]
    rfl

/-! ### Ranges of lines -/

/-- The rows that the code reads from a line on. -/
def readRows (t : Crosswords) (ty : SelectionType) (range : SelectionRange) (line : ℤ) :
    List (Piece (Item Char)) :=
  (lineRange line (range.stop.row + 1)).map fun line => (t.view.row ty range line).map t.readAt

/-- The lines of a range have their characters where they belong, and it owes no wide character
that follows it. -/
structure Tidy (t : Crosswords) (ty : SelectionType) (range : SelectionRange) : Prop where
  owes : ∀ line, ¬ t.Owes ty range line
  cells : ∀ line, range.start.row ≤ line → line ≤ range.stop.row →
    t.TidyCells line false (t.view.columns ty range line)

theorem stopColumn_lt (h : t.Sound False) (hstop : t.grid.HasCell range.stop) (line : ℤ) :
    t.view.stopColumn ty range line < t.grid.columns := by
  unfold View.stopColumn
  split_ifs
  · exact hstop.2.2
  · exact h.lastColumn_lt

theorem firstColumn_lt (h : t.Sound False) (hstart : t.grid.HasCell range.start) (line : ℤ) :
    firstColumn ty range line < t.grid.columns := by
  have hcolumns := h.grid.columns_ge
  unfold firstColumn
  split_ifs
  · exact hstart.2.2
  · omega

/-- One line of a range that is not a block. -/
theorem boundsStep_own (h : t.Sound False) (hty : ty ≠ .block) (hstart : t.grid.HasCell range.start)
    (hstop : t.grid.HasCell range.stop) (htidy : t.Tidy ty range) (hfirst : range.start.row ≤ line)
    (hlast : line ≤ range.stop.row) (s : Copied) :
    boundsStep t.wideBefore t range.start range.stop s line =
      if firstColumn ty range line = 0 ∧ (t.grid.cell ⟨line, 0⟩).wide = .spacer then
        .error .overflow
      else .ok (s.add (t.ownCells line (firstColumn ty range line)
        (t.view.stopColumn ty range line) (if t.continues range.start line then s.blankCells else 0))
        (!(t.view.row ty range line).wraps)) := by
  have hline : line < t.grid.lines := hlast.trans_lt hstop.2.1
  have hcol : (if line = range.start.row then range.start.col else 0) = firstColumn ty range line := by
    unfold firstColumn
    simp only [hty, false_or]
  have hto : (if line = range.stop.row then range.stop.col else t.grid.lastColumn) =
      t.view.stopColumn ty range line := by
    unfold View.stopColumn view
    simp only [hty, false_or]
  have hends : (decide (t.grid.lastColumn ≤ t.view.stopColumn ty range line) &&
      !(t.grid.cell ⟨line, t.grid.lastColumn⟩).wrapline) = !(t.view.row ty range line).wraps := by
    unfold View.row view
    simp only [hty, ne_eq, not_false_eq_true, decide_true, Bool.true_and, Bool.not_or]
    congr 1
    rw [← decide_not, decide_eq_decide, not_lt]
  have howes : ¬ ((t.view.stopColumn ty range line = t.grid.lastColumn ∧ t.EndsOnSpacer line) ∧
      decide (line = range.stop.row) = true) := by
    rintro ⟨⟨hcol, hspacer⟩, hline⟩
    have hline := of_decide_eq_true hline
    rw [← hto, if_pos hline] at hcol
    exact htidy.owes line ⟨hcol, hspacer, .inl hline⟩
  rw [boundsStep_eq _ s hstart.1 hfirst hline, hcol, hto, hends, appendCellsWith_eq h _
    (hstart.1.trans hfirst) hline (firstColumn_lt h hstart line) (stopColumn_lt h hstop line),
    if_neg howes]
  split_ifs
  · rfl
  · rfl
  · rfl

/-- The lines of a range that is not a block. -/
theorem boundsFold (h : t.Sound False) (hty : ty ≠ .block) (hstart : t.grid.HasCell range.start)
    (hstop : t.grid.HasCell range.stop) (htidy : t.Tidy ty range) (hwhole : t.Whole ty range)
    (hfirst : range.start.row ≤ line) (hlast : line ≤ range.stop.row + 1) (s : Copied) :
    ∃ s', (lineRange line (range.stop.row + 1)).foldlM
        (boundsStep t.wideBefore t range.start range.stop) s = .ok s' ∧
      s'.text = s.text ++ layout ' ' '\n' (t.readRows ty range line) s.blankRows
        (if t.continues range.start line then s.blankCells else 0) := by
  obtain ⟨n, hn⟩ : ∃ n : ℕ, range.stop.row + 1 - line = n :=
    ⟨(range.stop.row + 1 - line).toNat, by omega⟩
  induction n generalizing line s with
  | zero =>
    unfold readRows
    rw [lineRange_empty (by omega)]
    exact ⟨s, rfl, (List.append_nil _).symm⟩
  | succ n ih =>
    have hline : line ≤ range.stop.row := by omega
    have hstep := boundsStep_own h hty hstart hstop htidy hfirst hline s
    rw [if_neg fun hspacer => hwhole line hfirst hline hspacer.1 hspacer.2] at hstep
    obtain ⟨blankCells, hblanks⟩ : ∃ n, n = if t.continues range.start line then s.blankCells else 0 :=
      ⟨_, rfl⟩
    rw [← hblanks] at hstep ⊢
    obtain ⟨htext, hcontent, hpending⟩ := ownCells_eq h (hstart.1.trans hfirst)
      (hline.trans_lt hstop.2.1) (stopColumn_lt h hstop line) (htidy.cells line hfirst hline)
      blankCells
    generalize t.ownCells line (firstColumn ty range line) (t.view.stopColumn ty range line)
      blankCells = own at hstep htext hcontent hpending
    obtain ⟨s', hrest, htext'⟩ := @ih (line + 1) (by omega) (by omega)
      (s.add own (!(t.view.row ty range line).wraps)) (by omega)
    refine ⟨s', ?_, htext'.trans ?_⟩
    · rw [lineRange_cons (by omega), List.foldlM_cons, hstep, ok_bind]
      exact hrest
    · have hrows : t.readRows ty range line =
          (t.view.row ty range line).map t.readAt :: t.readRows ty range (line + 1) := by
        unfold readRows
        rw [lineRange_cons (by omega), List.map_cons]
      have hcontinues : line < range.stop.row →
          t.continues range.start (line + 1) = (t.view.row ty range line).wraps := by
        intro hline
        unfold continues View.row View.stopColumn view
        rw [decide_eq_true (by omega), Bool.true_and, add_sub_cancel_right]
        simp [hty, hline.ne]
      have hnil : ¬ line < range.stop.row → t.readRows ty range (line + 1) = [] := by
        intro hline
        unfold readRows
        rw [lineRange_empty (by omega), List.map_nil]
      have hwraps : ((t.view.row ty range line).map t.readAt).wraps =
          (t.view.row ty range line).wraps := rfl
      have hheld (hgoes : line < range.stop.row) (hwraps : (t.view.row ty range line).wraps = true) :
          own.blankCells = pending blankCells ((t.view.row ty range line).map t.readAt).cells := by
        have hto : t.view.stopColumn ty range line = t.grid.lastColumn := by
          unfold View.stopColumn
          rw [if_neg fun h => h.elim hty hgoes.ne]
          rfl
        refine hpending ?_ hto
        unfold View.row at hwraps
        dsimp only at hwraps
        rw [hto] at hwraps
        simpa [hty, view] using hwraps
      rw [hrows, layout, hwraps]
      unfold Copied.add
      by_cases hblank : ((t.view.row ty range line).map t.readAt).Blank
      · have hnone : own.hadContent = false := by
          rw [← Bool.not_eq_true, hcontent]
          exact not_not.mpr hblank
        rw [if_pos hblank, hnone, Bool.not_false, if_pos rfl]
        dsimp only
        by_cases hgoes : line < range.stop.row
        · rw [hcontinues hgoes]
          by_cases hw : (t.view.row ty range line).wraps = true
          · rw [if_pos hw, if_pos hw, hheld hgoes hw]
          · rw [if_neg hw, if_neg hw]
        · rw [hnil hgoes]
          rfl
      · rw [if_neg hblank, hcontent.mpr hblank, Bool.not_true, if_neg Bool.false_ne_true, htext]
        dsimp only
        by_cases hw : (t.view.row ty range line).wraps = true
        · rw [if_pos hw, hw, Bool.not_true, if_neg Bool.false_ne_true, if_neg Bool.false_ne_true,
            List.append_nil]
          by_cases hgoes : line < range.stop.row
          · rw [hcontinues hgoes, if_pos hw, hheld hgoes hw]
            simp only [List.append_assoc]
          · rw [hnil hgoes]
            simp only [layout, List.append_assoc]
        · rw [if_neg hw, Bool.eq_false_iff.mpr hw, Bool.not_false, if_pos rfl, if_pos rfl, ite_self]
          simp only [List.append_assoc, List.singleton_append]

theorem boundsToString_iff (h : t.Sound False) (hty : ty ≠ .block)
    (hstart : t.grid.HasCell range.start) (hstop : t.grid.HasCell range.stop)
    (hle : range.start.row ≤ range.stop.row) (htidy : t.Tidy ty range) (text : List Char) :
    t.boundsToString range.start range.stop = .ok text ↔ t.Whole ty range ∧
      code ' ' '\n' (t.readRows ty range range.start.row) 0 = text := by
  have hfold (hwhole : t.Whole ty range) : t.boundsToString range.start range.stop =
      .ok (code ' ' '\n' (t.readRows ty range range.start.row) 0) := by
    obtain ⟨s, hs, htext⟩ := boundsFold h hty hstart hstop htidy hwhole le_rfl (by omega) {}
    unfold boundsToString boundsToStringWith
    rw [hs, ok_bind]
    have hcells : (if t.continues range.start range.start.row then 0 else 0) = 0 := ite_self 0
    have htext' : s.text = layout ' ' '\n' (t.readRows ty range range.start.row) 0 0 := by
      rw [htext, hcells]
      rfl
    rw [htext']
    rfl
  constructor
  · intro heq
    have hwhole : t.Whole ty range := by
      have hsafe : Safe (t.boundsToString range.start range.stop) := ⟨text, heq⟩
      unfold boundsToString boundsToStringWith at hsafe
      obtain ⟨s, hs, -⟩ := safe_bind_iff.mp hsafe
      have hall : ∀ line ∈ lineRange range.start.row (range.stop.row + 1),
          firstColumn ty range line = 0 → (t.grid.cell ⟨line, 0⟩).wide ≠ .spacer := by
        refine (safe_foldlM_iff fun s line hline => ?_).mp ⟨s, hs⟩
        obtain ⟨hfirst, hlast⟩ := mem_lineRange.mp hline
        rw [boundsStep_own h hty hstart hstop htidy hfirst (by omega)]
        by_cases hspacer : firstColumn ty range line = 0 ∧ (t.grid.cell ⟨line, 0⟩).wide = .spacer
        · rw [if_pos hspacer]
          exact iff_of_false (not_safe_error _) fun hwhole => hwhole hspacer.1 hspacer.2
        · rw [if_neg hspacer]
          exact iff_of_true (safe_ok _) fun hcol hwide => hspacer ⟨hcol, hwide⟩
      exact fun line hfirst hlast => hall line (mem_lineRange.mpr ⟨hfirst, by omega⟩)
    rw [hfold hwhole] at heq
    exact ⟨hwhole, Except.ok.inj heq⟩
  · rintro ⟨hwhole, rfl⟩
    exact hfold hwhole

/-- A line of a block. -/
theorem lineToString_own (h : t.Sound False) (hstart : t.grid.HasCell range.start)
    (hstop : t.grid.HasCell range.stop) (htidy : t.Tidy .block range)
    (hfirst : range.start.row ≤ line) (hlast : line ≤ range.stop.row) :
    lineToString t.wideBefore t line range.start.col range.stop.col
        (line = range.stop.row ∨ range.start.col ≠ 0) =
      if firstColumn .block range line = 0 ∧ (t.grid.cell ⟨line, 0⟩).wide = .spacer then
        .error .overflow
      else .ok (lineText ' ' ((t.view.row .block range line).cells.map t.readAt)) := by
  have hline : line < t.grid.lines := hlast.trans_lt hstop.2.1
  have hcol : firstColumn .block range line = range.start.col := if_pos (.inl rfl)
  have hto : t.view.stopColumn .block range line = range.stop.col := if_pos (.inl rfl)
  have howes : ¬ ((range.stop.col = t.grid.lastColumn ∧ t.EndsOnSpacer line) ∧
      decide (line = range.stop.row ∨ range.start.col ≠ 0) = true) := by
    rintro ⟨⟨hcol, hspacer⟩, hline⟩
    refine htidy.owes line ⟨hcol, hspacer, ?_⟩
    obtain heq | hne := of_decide_eq_true hline
    · exact .inl heq
    · obtain hlt | heq := lt_or_eq_of_le hlast
      · exact .inr ⟨rfl, hne, hfirst, hlt⟩
      · exact .inl heq
  have htext := (ownCells_eq h (hstart.1.trans hfirst) hline (stopColumn_lt h hstop line)
    (htidy.cells line hfirst hlast) 0).1
  rw [hcol, hto] at htext
  unfold lineToString
  rw [appendCellsWith_eq h _ (hstart.1.trans hfirst) hline hstart.2.2 hstop.2.2, if_neg howes, hcol]
  by_cases hspacer : range.start.col = 0 ∧ (t.grid.cell ⟨line, 0⟩).wide = .spacer
  · rw [if_pos hspacer, if_pos hspacer]
    rfl
  · rw [if_neg hspacer, if_neg hspacer, lineText_eq_rowText]
    exact congrArg Except.ok htext

theorem blockToString_iff (h : t.Sound False) (hstart : t.grid.HasCell range.start)
    (hstop : t.grid.HasCell range.stop) (hle : range.start.row ≤ range.stop.row)
    (htidy : t.Tidy .block range) (text : List Char) :
    blockToString t.wideBefore t range.start range.stop = .ok text ↔ t.Whole .block range ∧
      ['\n'].intercalate ((t.view.lines .block range).map fun line =>
        lineText ' ' (line.map t.readAt)) = text := by
  have hlines : t.view.lines .block range =
      (lineRange range.start.row (range.stop.row + 1)).map
        fun line => (t.view.row .block range line).cells := by
    unfold View.lines View.rows
    rw [logicalLines_of_ends, List.map_map]
    · rfl
    · intro row hrow
      obtain ⟨line, -, rfl⟩ := List.mem_map.mp hrow
      rfl
  have hline (line : ℤ) (hmem : line ∈ lineRange range.start.row (range.stop.row + 1)) :
      lineToString t.wideBefore t line range.start.col range.stop.col
        (line = range.stop.row ∨ range.start.col ≠ 0) = _ :=
    lineToString_own h hstart hstop htidy (mem_lineRange.mp hmem).1
      (Int.lt_add_one_iff.mp (mem_lineRange.mp hmem).2)
  have hfold (hwhole : t.Whole .block range) :
      blockToString t.wideBefore t range.start range.stop =
        .ok (['\n'].intercalate ((t.view.lines .block range).map fun line =>
          lineText ' ' (line.map t.readAt))) := by
    have htext (line : ℤ) (hmem : line ∈ lineRange range.start.row (range.stop.row + 1)) :
        (lineToString t.wideBefore t line range.start.col range.stop.col
          (line = range.stop.row ∨ range.start.col ≠ 0) >>= fun row =>
            .ok (row ++ if line = range.stop.row then [] else ['\n'])) =
          .ok (lineText ' ' ((t.view.row .block range line).cells.map t.readAt) ++
            if line = range.stop.row then [] else ['\n']) := by
      obtain ⟨hfirst, hlast⟩ := mem_lineRange.mp hmem
      rw [hline line hmem, if_neg fun hspacer =>
        hwhole line hfirst (Int.lt_add_one_iff.mp hlast) hspacer.1 hspacer.2]
      rfl
    rw [blockToString_eq hle, collect_ok htext, hlines, lineRange_concat hle, List.map_append,
      List.map_append, List.map_singleton, List.map_singleton, intercalate_concat,
      List.flatMap_append, List.flatMap_singleton, if_pos rfl, List.append_nil, List.map_map,
      List.flatMap_map]
    simp only [Function.comp_apply]
    have hrows : (lineRange range.start.row range.stop.row).flatMap (fun line =>
        lineText ' ' ((t.view.row .block range line).cells.map t.readAt) ++
          if line = range.stop.row then [] else ['\n']) =
        (lineRange range.start.row range.stop.row).flatMap fun line =>
          lineText ' ' ((t.view.row .block range line).cells.map t.readAt) ++ ['\n'] := by
      refine List.flatMap_congr fun line hmem => ?_
      rw [if_neg (mem_lineRange.mp hmem).2.ne]
    rw [hrows]
  constructor
  · intro heq
    have hwhole : t.Whole .block range := by
      intro line hfirst hlast hcol hwide
      have hmem : line ∈ lineRange range.start.row (range.stop.row + 1) :=
        mem_lineRange.mpr ⟨hfirst, by omega⟩
      rw [blockToString_eq hle] at heq
      have hsafe := safe_collect_iff.mp ⟨text, heq⟩ line hmem
      rw [hline line hmem, if_pos ⟨hcol, hwide⟩] at hsafe
      exact not_safe_error _ hsafe
    rw [hfold hwhole] at heq
    exact ⟨hwhole, Except.ok.inj heq⟩
  · rintro ⟨hwhole, rfl⟩
    exact hfold hwhole

/-! ### Reading what is shown -/

/-- The cells of a range are read as they are shown. -/
structure ReadsShown (t : Crosswords) (ty : SelectionType) (range : SelectionRange) : Prop where
  whole : t.Whole ty range
  /-- Cells without a character have no number of extras, which for a cell that is a background
  only are bits of its color. -/
  drawn : ∀ line ∈ t.view.lines ty range, ∀ p ∈ line, (t.grid.cell p).c = '\x00' →
    (t.grid.cell p).extrasId = none
  /-- A space that has extras but no marks is followed by a character in its line. -/
  trimmed : ∀ line ∈ t.view.lines ty range, Trimmed t.readAt t.view.item line
  /-- A blank row that wraps is followed by blank rows only. -/
  wrapped : ty ≠ .block → NoBlankWraps (t.readRows ty range range.start.row)

theorem mem_cells {p : Pos} (htidy : t.TidyCells line gap columns)
    (hp : p ∈ t.view.cells line gap columns) :
    ∃ gap column, p = ⟨line, column⟩ ∧ t.TidyCell line gap column := by
  induction columns generalizing gap with
  | nil => cases hp
  | cons column rest ih =>
    obtain ⟨hcell, hrest⟩ := htidy
    rw [View.cells] at hp
    by_cases hpass : t.view.Passed line gap column
    · rw [if_pos hpass] at hp
      exact ih hrest hp
    · rw [if_neg hpass] at hp
      obtain rfl | hp := List.mem_cons.mp hp
      · exact ⟨gap, column, rfl, hcell⟩
      · exact ih hrest hp

theorem zeroWidth_of_none {cell : Square} (h : cell.extrasId = none) : t.zeroWidth cell = [] := by
  unfold zeroWidth
  rw [h]
  rfl

/-- The kinds of cells: one that holds a character other than a space, a blank one without extras,
one with extras but without a character, and a space with extras. -/
theorem TidyCell.kinds (h : t.TidyCell line gap column) :
    let cell := t.grid.cell ⟨line, column⟩
    let item := t.view.item ⟨line, column⟩
    (cell.c ≠ '\x00' ∧ t.readAt ⟨line, column⟩ = item) ∨
      (cell.extrasId = none ∧ t.readAt ⟨line, column⟩ = item) ∨
      (cell.c = '\x00' ∧ cell.extrasId ≠ none ∧
        t.readAt ⟨line, column⟩ = .ink ('\x00' :: t.zeroWidth cell) ∧
        (item = .blank ∨ item = .ink (' ' :: t.zeroWidth cell))) ∨
      (cell.c ≠ '\x00' ∧ t.readAt ⟨line, column⟩ = .ink [' '] ∧ item = .blank) := by
  intro cell item
  have hread : t.readAt ⟨line, column⟩ = if cell.extrasId = none ∧ (cell.c = '\x00' ∨ cell.c = ' ')
      then .blank else .ink (cell.c :: t.zeroWidth cell) := rfl
  have hitem : item = if cell.isBgOnly then .blank
      else if cell.c = '\x00' ∨ cell.c = ' ' then
        if t.zeroWidth cell = [] then .blank else .ink (' ' :: t.zeroWidth cell)
      else .ink (cell.c :: t.zeroWidth cell) := rfl
  have hbackground : cell.isBgOnly = true → cell.c = '\x00' := h.background
  rw [hread, hitem]
  by_cases hblank : cell.c = '\x00' ∨ cell.c = ' '
  · by_cases hextras : cell.extrasId = none
    · have hmarks : t.zeroWidth cell = [] := zeroWidth_of_none hextras
      rw [if_pos ⟨hextras, hblank⟩, if_pos hblank, if_pos hmarks, ite_self]
      exact .inr (.inl ⟨hextras, rfl⟩)
    · rw [if_neg fun hnone => hextras hnone.1, if_pos hblank]
      by_cases hnul : cell.c = '\x00'
      · rw [hnul]
        refine .inr (.inr (.inl ⟨rfl, hextras, rfl, ?_⟩))
        split_ifs
        · exact .inl rfl
        · exact .inl rfl
        · exact .inr rfl
      · have hspace : cell.c = ' ' := hblank.resolve_left hnul
        rw [if_neg fun hbg => hnul (hbackground hbg), hspace]
        by_cases hmarks : t.zeroWidth cell = []
        · rw [if_pos hmarks, hmarks]
          exact .inr (.inr (.inr ⟨by decide, rfl, rfl⟩))
        · rw [if_neg hmarks]
          exact .inl ⟨by decide, rfl⟩
  · have hnul : cell.c ≠ '\x00' := fun hnul => hblank (.inl hnul)
    rw [if_neg fun hnone => hblank hnone.2, if_neg fun hbg => hnul (hbackground hbg),
      if_neg hblank]
    exact .inl ⟨hnul, rfl⟩

theorem TidyCell.count_marks (h : t.TidyCell line gap column) :
    (t.zeroWidth (t.grid.cell ⟨line, column⟩)).count '\x00' = 0 :=
  List.count_eq_zero_of_not_mem fun hmem => (h.marks _ hmem).2 rfl

theorem TidyCell.stray_iff (h : t.TidyCell line gap column) :
    Stray '\x00' t.readAt t.view.item ⟨line, column⟩ ↔
      (t.grid.cell ⟨line, column⟩).c = '\x00' ∧ (t.grid.cell ⟨line, column⟩).extrasId ≠ none := by
  have hmarks := h.count_marks
  unfold Stray
  obtain ⟨hnul, heq⟩ | ⟨hnone, heq⟩ | ⟨hnul, hsome, hread, hitem⟩ | ⟨hnul, hread, hitem⟩ := h.kinds
  · rw [heq]
    exact iff_of_false (lt_irrefl _) fun hstray => hnul hstray.1
  · rw [heq]
    exact iff_of_false (lt_irrefl _) fun hstray => hstray.2 hnone
  · refine iff_of_true ?_ ⟨hnul, hsome⟩
    rw [hread]
    obtain hitem | hitem := hitem
    · rw [hitem]
      simp [Item.inked]
    · rw [hitem]
      simp [Item.inked, hmarks]
  · rw [hread, hitem]
    exact iff_of_false (by decide) fun hstray => hnul hstray.1

theorem TidyCell.reads (h : t.TidyCell line gap column) :
    Reads ' ' '\x00' t.readAt t.view.item ⟨line, column⟩ := by
  obtain ⟨-, heq⟩ | ⟨-, heq⟩ | ⟨hnul, hsome, -, -⟩ | ⟨-, hread, hitem⟩ := h.kinds
  · exact .inl heq
  · exact .inl heq
  · exact .inr (.inr (h.stray_iff.mpr ⟨hnul, hsome⟩))
  · exact .inr (.inl ⟨hread, hitem⟩)

theorem TidyCell.clean (h : t.TidyCell line gap column) :
    CleanCell '\n' t.readAt t.view.item ⟨line, column⟩ := by
  have hcell : ∀ c ∈ t.zeroWidth (t.grid.cell ⟨line, column⟩), c ≠ '\n' :=
    fun c hc => (h.marks c hc).1
  have hclean (c : Char) (hc : c ≠ '\n') :
      (Item.ink (c :: t.zeroWidth (t.grid.cell ⟨line, column⟩))).Clean '\n' := by
    refine ⟨by simp, fun hmem => ?_⟩
    obtain heq | hmem := List.mem_cons.mp hmem
    · exact hc heq.symm
    · exact hcell _ hmem rfl
  have hblank : (Item.blank : Item Char).Clean '\n' :=
    ⟨by simp, List.not_mem_nil⟩
  constructor
  · unfold readAt readItem
    split_ifs
    · exact hblank
    · exact hclean _ h.noNewline
  · unfold view shownItem
    dsimp only
    split_ifs
    · exact hblank
    · exact hblank
    · exact hclean _ (by decide)
    · exact hclean _ h.noNewline

/-- No character that is shown is a NUL. -/
theorem TidyCell.noNul (h : t.TidyCell line gap column) :
    '\x00' ∉ (t.view.item ⟨line, column⟩).inked := by
  intro hmem
  have hmarks : '\x00' ∉ t.zeroWidth (t.grid.cell ⟨line, column⟩) :=
    fun hmem => (h.marks _ hmem).2 rfl
  unfold view shownItem at hmem
  dsimp only at hmem
  split_ifs at hmem with hbg hblank hnone
  · cases hmem
  · cases hmem
  · obtain heq | hmem := List.mem_cons.mp hmem
    · revert heq
      decide
    · exact hmarks hmem
  · obtain heq | hmem := List.mem_cons.mp hmem
    · exact hblank (.inl heq.symm)
    · exact hmarks hmem

theorem lines_tidy (htidy : t.Tidy ty range) {cells : List Pos} (hcells : cells ∈ t.view.lines ty range)
    {p : Pos} (hp : p ∈ cells) : ∃ line gap column, p = ⟨line, column⟩ ∧ t.TidyCell line gap column := by
  have hflat : p ∈ (logicalLines (t.view.rows ty range)).flatten :=
    List.mem_flatten.mpr ⟨cells, hcells, hp⟩
  rw [flatten_logicalLines] at hflat
  obtain ⟨row, hrow, hp⟩ := List.mem_flatMap.mp hflat
  obtain ⟨line, hline, rfl⟩ := List.mem_map.mp hrow
  obtain ⟨hfirst, hlast⟩ := mem_lineRange.mp hline
  obtain ⟨gap, column, heq, hcell⟩ := mem_cells (htidy.cells line hfirst (by omega)) hp
  exact ⟨line, gap, column, heq, hcell⟩

theorem rows_tidy (htidy : t.Tidy ty range) {row : Piece Pos} (hrow : row ∈ t.view.rows ty range)
    {p : Pos} (hp : p ∈ row.cells) :
    ∃ line gap column, p = ⟨line, column⟩ ∧ t.TidyCell line gap column := by
  obtain ⟨line, hline, rfl⟩ := List.mem_map.mp hrow
  obtain ⟨hfirst, hlast⟩ := mem_lineRange.mp hline
  obtain ⟨gap, column, heq, hcell⟩ := mem_cells (htidy.cells line hfirst (by omega)) hp
  exact ⟨line, gap, column, heq, hcell⟩

/-- The text that is shown has no NUL. -/
theorem text_noNul (htidy : t.Tidy ty range) : '\x00' ∉ t.view.text ty range := by
  have hline : ∀ text ∈ (t.view.lines ty range).map fun line => lineText ' ' (line.map t.view.item),
      '\x00' ∉ text := by
    intro text htext hmem
    obtain ⟨line, hline, rfl⟩ := List.mem_map.mp htext
    rw [lineText_eq_rowText] at hmem
    obtain heq | ⟨item, hitem, hc⟩ := mem_rowText hmem
    · revert heq
      decide
    · obtain ⟨p, hp, rfl⟩ := List.mem_map.mp hitem
      obtain ⟨line, gap, column, rfl, hcell⟩ := lines_tidy htidy hline hp
      exact hcell.noNul hc
  have hjoin : '\x00' ∉ joinLines '\n'
      ((t.view.lines ty range).map fun line => lineText ' ' (line.map t.view.item)) := by
    intro hmem
    obtain heq | ⟨text, htext, hc⟩ := mem_joinLines hmem
    · revert heq
      decide
    · exact hline text htext hc
  intro hmem
  unfold View.text at hmem
  cases ty with
  | simple => exact hjoin hmem
  | semantic => exact hjoin hmem
  | lines =>
    obtain hmem | hmem := List.mem_append.mp hmem
    · exact hjoin hmem
    · revert hmem
      decide
  | block =>
    obtain heq | ⟨text, htext, hc⟩ := mem_intercalate hmem
    · revert heq
      decide
    · exact hline text htext hc

/-- A tidy range is copied as it is shown exactly when its cells are read so: none without a
character has a number of extras, no line ends with a space with extras, and no blank row wraps into
a text. -/
theorem copiesShown_iff (h : t.Sound False) (hstart : t.grid.HasCell range.start)
    (hstop : t.grid.HasCell range.stop) (hle : range.start.row ≤ range.stop.row)
    (htidy : t.Tidy ty range) : t.CopiesShown ty range ↔ t.ReadsShown ty range := by
  have hreads : ∀ line ∈ t.view.lines ty range, ∀ p ∈ line,
      Reads ' ' '\x00' t.readAt t.view.item p := by
    intro line hline p hp
    obtain ⟨line, gap, column, rfl, hcell⟩ := lines_tidy htidy hline hp
    exact hcell.reads
  have hclean : ∀ line ∈ t.view.lines ty range, ∀ p ∈ line,
      CleanCell '\n' t.readAt t.view.item p := by
    intro line hline p hp
    obtain ⟨line, gap, column, rfl, hcell⟩ := lines_tidy htidy hline hp
    exact hcell.clean
  have hrows : t.readRows ty range range.start.row =
      (t.view.rows ty range).map (Piece.map t.readAt) := by
    unfold readRows View.rows
    rw [List.map_map]
    rfl
  have hdrawn : (∀ line ∈ t.view.lines ty range,
      (∀ p ∈ line, ¬ Stray '\x00' t.readAt t.view.item p) ∧ Trimmed t.readAt t.view.item line) ↔
      (∀ line ∈ t.view.lines ty range, ∀ p ∈ line, (t.grid.cell p).c = '\x00' →
        (t.grid.cell p).extrasId = none) ∧
        ∀ line ∈ t.view.lines ty range, Trimmed t.readAt t.view.item line := by
    rw [← forall₂_and]
    refine forall₂_congr fun line hline => and_congr_left fun _ => forall₂_congr fun p hp => ?_
    obtain ⟨line, gap, column, rfl, hcell⟩ := lines_tidy htidy hline hp
    rw [hcell.stray_iff, not_and, not_not]
  have hcopies : t.CopiesShown ty range ↔ t.copyRange ty range = .ok (t.view.text ty range) :=
    ⟨fun hcopies => hcopies.text, fun htext => ⟨htext, text_noNul htidy⟩⟩
  have hread : t.ReadsShown ty range ↔ t.Whole ty range ∧ (∀ line ∈ t.view.lines ty range,
      (∀ p ∈ line, ¬ Stray '\x00' t.readAt t.view.item p) ∧ Trimmed t.readAt t.view.item line) ∧
      (ty ≠ .block → NoBlankWraps (t.readRows ty range range.start.row)) := by
    rw [hdrawn]
    constructor
    · exact fun hread => ⟨hread.whole, ⟨hread.drawn, hread.trimmed⟩, hread.wrapped⟩
    · exact fun hread => ⟨hread.1, hread.2.1.1, hread.2.1.2, hread.2.2⟩
  have hbounds (hty : ty ≠ .block) : t.boundsToString range.start range.stop = .ok (joinLines '\n'
        ((t.view.lines ty range).map fun line => lineText ' ' (line.map t.view.item))) ↔
      t.ReadsShown ty range := by
    have hreads' : ∀ row ∈ t.view.rows ty range, ∀ p ∈ row.cells,
        Reads ' ' '\x00' t.readAt t.view.item p := by
      intro row hrow p hp
      obtain ⟨line, gap, column, rfl, hcell⟩ := rows_tidy htidy hrow hp
      exact hcell.reads
    have hclean' : ∀ row ∈ t.view.rows ty range, ∀ p ∈ row.cells,
        CleanCell '\n' t.readAt t.view.item p := by
      intro row hrow p hp
      obtain ⟨line, gap, column, rfl, hcell⟩ := rows_tidy htidy hrow hp
      exact hcell.clean
    rw [boundsToString_iff h hty hstart hstop hle htidy, hread, hrows, forall_prop_of_true hty]
    exact and_congr_right fun _ => code_reads_iff (by decide) (by decide) hreads' hclean'
  rw [hcopies]
  cases ty with
  | simple => exact hbounds (by decide)
  | semantic => exact hbounds (by decide)
  | lines =>
    rw [← hbounds (by decide)]
    show t.boundsToString range.start range.stop >>= (fun text => .ok (text ++ ['\n'])) =
      .ok (_ ++ ['\n']) ↔ _
    cases t.boundsToString range.start range.stop with
    | error e => exact iff_of_false (fun heq => by cases heq) fun heq => by cases heq
    | ok text =>
      rw [ok_bind]
      constructor
      · intro heq
        rw [List.append_cancel_right (Except.ok.inj heq)]
      · intro heq
        rw [Except.ok.inj heq]
  | block =>
    have hlines := intercalate_reads_iff (by decide) (by decide) hreads hclean
    have hblock := blockToString_iff h hstart hstop hle htidy (t.view.text .block range)
    rw [hread]
    refine hblock.trans (and_congr_right fun _ => ?_)
    rw [forall_prop_of_false (by decide), and_true]
    exact hlines

theorem copiesShown_new :
    ((new 3 2 0).CopiesShown .simple ⟨⟨0, 1⟩, ⟨1, 1⟩, false⟩ ↔
      (new 3 2 0).ReadsShown .simple ⟨⟨0, 1⟩, ⟨1, 1⟩, false⟩) := by
  refine copiesShown_iff (new_sound False (by decide) (by decide) 0)
    ⟨by decide, by decide, by decide⟩ ⟨by decide, by decide, by decide⟩ (by decide)
    ⟨fun line howes => absurd howes.1 (by decide), fun line hfirst hlast => ?_⟩
  obtain rfl | rfl : line = 0 ∨ line = 1 := by
    dsimp only at hfirst hlast
    omega
  · exact ⟨by decide, by decide, trivial⟩
  · exact ⟨by decide, by decide, trivial⟩

/-- A line that was erased in a color with a blue part has a NUL before its text. -/
theorem copy_has_nul :
    ¬ ((new 3 1 0).run .basic [.terminalAttribute (.background (.spec 0 0 1)), .clearLine .all,
      .gotoCol 1, .input 'a']).CopiesShown .simple ⟨⟨0, 0⟩, ⟨0, 2⟩, false⟩ := by
  intro hcopies
  have hread : ((new 3 1 0).run .basic [.terminalAttribute (.background (.spec 0 0 1)),
      .clearLine .all, .gotoCol 1, .input 'a']).copyRange .simple ⟨⟨0, 0⟩, ⟨0, 2⟩, false⟩ =
        .ok ['\x00', 'a', '\x00'] := by decide
  have hnul := hcopies.noNul
  have htext := hcopies.text
  rw [hread] at htext
  rw [← Except.ok.inj htext] at hnul
  exact hnul List.mem_cons_self

end Crosswords
end Rio
