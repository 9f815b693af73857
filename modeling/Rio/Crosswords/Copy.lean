import Rio.Grid.Origin
import Rio.Crosswords.Sound
import Rio.Lib.Checked
import Rio.Selection.Selection

/-! The text of a selection. -/

set_option linter.dupNamespace false

namespace Rio
open Rio.Checked

/-- The occupied line length. -/
def Row.lineLength (r : Row Square) : ℕ :=
  if (r.cell (r.len - 1)).wrapline then r.len
  else
    match r.inner.reverse.findIdx? fun cell => cell.c ≠ '\x00' || cell.hasExtras with
    | some index => r.len - index
    | none => 0

/-- The row of a line, which has to be a line of the grid. -/
def Grid.readRow (g : Grid Square) (line : ℤ) : Outcome (Row Square) :=
  if g.topmostLine ≤ line ∧ line < g.lines then .ok (g.row line) else .error .index

/-- What the cells of a line add to a text. -/
structure Appended where
  text : List Char := []
  /-- Blank cells that are only emitted if a cell that is not blank follows. -/
  blankCells : ℕ := 0
  tabMode : Bool := false
  hadContent : Bool := false
  deriving DecidableEq, Repr

def Appended.push (s : Appended) (chars : List Char) : Appended :=
  { s with
    text := s.text ++ List.replicate s.blankCells ' ' ++ chars
    blankCells := 0
    hadContent := true }

/-- What the lines of a range add to a text. -/
structure Copied where
  text : List Char := []
  /-- Blank rows that are only emitted if a row that is not blank follows. -/
  blankRows : ℕ := 0
  blankCells : ℕ := 0
  deriving DecidableEq, Repr

/-- Add the text of a line; a line that is not wrapped ends with a newline. -/
def Copied.add (s : Copied) (row : Appended) (endsLine : Bool) : Copied :=
  if !row.hadContent then ⟨s.text, s.blankRows + 1, row.blankCells⟩
  else
    ⟨s.text ++ List.replicate s.blankRows '\n' ++ row.text ++ (if endsLine then ['\n'] else []), 0,
      if endsLine then 0 else row.blankCells⟩

/-- The text without a newline at its end. -/
def stripNewline (text : List Char) : List Char :=
  if text.getLast? = some '\n' then text.dropLast else text

namespace Crosswords

/-- The characters without width of a cell. -/
def zeroWidth (t : Crosswords) (cell : Square) : List Char :=
  ((cell.extrasId.bind t.grid.extrasTable.get).map Extras.zerowidth).getD []

def appendCell (t : Crosswords) (row : Row Square) (s : Appended) (column : ℕ) : Appended :=
  let cell := row.cell column
  -- skip over cells until the next tab stop once a tab was found
  if s.tabMode && !(t.tabs.getD column false || cell.c ≠ '\x00') then s
  else
    let s := { s with tabMode := cell.c = '\t' }
    if cell.wide = .spacer ∨ cell.wide = .leadingSpacer then s
    else if cell.extrasId = none ∧ (cell.c = '\x00' ∨ cell.c = ' ') then
      { s with blankCells := s.blankCells + 1 }
    else s.push (cell.c :: t.zeroWidth cell)

/-- Include the wide character when its spacer is selected. -/
def withWide (t : Crosswords) (row : Row Square) (start : ℕ) : Outcome ℕ :=
  if start < t.grid.columns ∧ (row.cell start).wide = .spacer then sub start 1 else .ok start

/-- The cells of the columns from `start` up to and with `stop`, and, where the last one of the
line is a leading spacer, the wide character that goes there, which `next` finds. -/
def appendCellsWith (next : ℤ → Outcome Char) (t : Crosswords) (line : ℤ) (start stop : ℕ)
    (includeWrappedWide : Bool) (blankCells : ℕ) : Outcome Appended := do
  let row ← t.grid.readRow line
  let lineLength := min row.lineLength (stop + 1)
  let start ← t.withWide row start
  let s := (List.range' start (lineLength - start)).foldl (t.appendCell row)
    { blankCells := blankCells }
  if lineLength = t.grid.columns ∧ 2 ≤ lineLength ∧
      (row.cell (lineLength - 1)).wide = .leadingSpacer ∧ includeWrappedWide then
    let c ← next line
    return s.push [c]
  else return s

/-- The first character of the row before, which the code takes. -/
def wideBefore (t : Crosswords) (line : ℤ) : Outcome Char := do
  let row ← t.grid.readRow (line - 1)
  return (row.cell 0).c

def appendCells (t : Crosswords) : ℤ → ℕ → ℕ → Bool → ℕ → Outcome Appended :=
  appendCellsWith t.wideBefore t

/-- The line goes on in the next row. -/
def wraps (t : Crosswords) (line : ℤ) : Outcome Bool := do
  let row ← t.grid.readRow line
  return (row.cell t.grid.lastColumn).wrapline

def isWrapContinuation (t : Crosswords) (start : Pos) (line : ℤ) : Outcome Bool :=
  if start.row < line then t.wraps (line - 1) else .ok false

/-- Add one line of a range. -/
def boundsStep (next : ℤ → Outcome Char) (t : Crosswords) (start stop : Pos) (s : Copied)
    (line : ℤ) : Outcome Copied := do
  let startCol := if line = start.row then start.col else 0
  let endCol := if line = stop.row then stop.col else t.grid.lastColumn
  -- carry buffered blank cells across wrap continuations only
  let continued ← t.isWrapContinuation start line
  let row ← appendCellsWith next t line startCol endCol (line = stop.row)
    (if continued then s.blankCells else 0)
  let wraps ← t.wraps line
  return s.add row (t.grid.lastColumn ≤ endCol && !wraps)

def boundsToStringWith (next : ℤ → Outcome Char) (t : Crosswords) (start stop : Pos) :
    Outcome (List Char) := do
  let s ← (lineRange start.row (stop.row + 1)).foldlM (boundsStep next t start stop) {}
  return stripNewline s.text

/-- The text of a line; blank cells at its end are dropped. -/
def lineToString (next : ℤ → Outcome Char) (t : Crosswords) (line : ℤ) (start stop : ℕ)
    (includeWrappedWide : Bool) : Outcome (List Char) := do
  let row ← appendCellsWith next t line start stop includeWrappedWide 0
  return row.text

def blockToString (next : ℤ → Outcome Char) (t : Crosswords) (start stop : Pos) :
    Outcome (List Char) := do
  let text ← collect (fun line => do
    let row ← lineToString next t line start.col stop.col (start.col ≠ 0)
    return row ++ ['\n']) (lineRange start.row stop.row)
  let last ← lineToString next t stop.row start.col stop.col true
  return text ++ last

/-- The text of a range that a kind of selection gave. -/
def copyRangeWith (next : ℤ → Outcome Char) (t : Crosswords) (ty : SelectionType)
    (range : SelectionRange) : Outcome (List Char) :=
  match ty with
  | .block => blockToString next t range.start range.stop
  | .lines => do
    let text ← boundsToStringWith next t range.start range.stop
    return text ++ ['\n']
  | .simple | .semantic => boundsToStringWith next t range.start range.stop

def boundsToString (t : Crosswords) (start stop : Pos) : Outcome (List Char) :=
  boundsToStringWith t.wideBefore t start stop

def copyRange (t : Crosswords) (ty : SelectionType) (range : SelectionRange) : Outcome (List Char) :=
  copyRangeWith t.wideBefore t ty range

def selectionToString (t : Crosswords) (s : Selection) : Outcome (Option (List Char)) :=
  match s.toRange t.grid with
  | none => .ok none
  | some range => do
    let text ← t.copyRange s.ty range
    return some text

end Crosswords
end Rio
