import Rio.Grid.Grid

/-! The selection of text: two anchors, each on a side of a cell, and the cells between them. -/

set_option linter.dupNamespace false

namespace Rio

inductive Side
  | left
  | right
  deriving DecidableEq, Repr

structure Anchor where
  point : Pos
  side : Side
  deriving DecidableEq, Repr

/-- A range of selected cells, from the start up to and with the end. -/
structure SelectionRange where
  start : Pos
  stop : Pos
  isBlock : Bool
  deriving DecidableEq, Repr

inductive SelectionType
  | simple
  | block
  /-- Whole words. -/
  | semantic
  | lines
  deriving DecidableEq, Repr

structure Selection where
  ty : SelectionType
  start : Anchor
  stop : Anchor
  deriving DecidableEq, Repr

/-- Positions in the order of the text. -/
instance : LT Pos := ⟨fun p q => p.row < q.row ∨ p.row = q.row ∧ p.col < q.col⟩

theorem Pos.lt_iff {p q : Pos} : p < q ↔ p.row < q.row ∨ p.row = q.row ∧ p.col < q.col := Iff.rfl

instance (p q : Pos) : Decidable (p < q) :=
  inferInstanceAs (Decidable (p.row < q.row ∨ p.row = q.row ∧ p.col < q.col))

def SelectionRange.contains (range : SelectionRange) (point : Pos) : Bool :=
  range.start.row ≤ point.row && point.row ≤ range.stop.row &&
    (range.start.col ≤ point.col || (range.start.row ≠ point.row && !range.isBlock)) &&
    (point.col ≤ range.stop.col || (range.stop.row ≠ point.row && !range.isBlock))

/-! ### Words and lines -/

namespace Grid

/-- The cell after a position, as the iterator goes. -/
def nextPos {α : Type} (g : Grid α) (p : Pos) : Option Pos :=
  if p < ⟨g.bottommostLine, g.lastColumn⟩ then
    some (if p.col = g.lastColumn then ⟨p.row + 1, 0⟩ else { p with col := p.col + 1 })
  else none

def wrapped (g : Grid Square) (line : ℤ) : Bool := (g.cell ⟨line, g.lastColumn⟩).wrapline

def isSpacer (g : Grid Square) (p : Pos) : Bool :=
  (g.cell p).wide = .spacer || (g.cell p).wide = .leadingSpacer

/-- The first line of a logical line; every step goes one line up. -/
def rowSearchLeft (g : Grid Square) : ℕ → ℤ → ℤ
  | 0, row => row
  | fuel + 1, row =>
    if g.topmostLine < row && g.wrapped (row - 1) then g.rowSearchLeft fuel (row - 1) else row

/-- The last line of a logical line. -/
def rowSearchRight (g : Grid Square) : ℕ → ℤ → ℤ
  | 0, row => row
  | fuel + 1, row =>
    if row + 1 < g.lines && g.wrapped row then g.rowSearchRight fuel (row + 1) else row

/-- All cells of the grid; no search makes more steps. -/
def cells (g : Grid Square) : ℕ := g.raw.len * g.columns

/-- Goes left to the next of some characters within the logical line; the last position, and
whether one was found. -/
def inlineSearchLeft (g : Grid Square) (needles : List Char) : ℕ → Pos → Bool × Pos
  | 0, point => (false, point)
  | fuel + 1, point =>
    match g.prevPos point with
    | none => (false, point)
    | some next =>
      if next.col = g.lastColumn && !(g.cell next).wrapline then (false, point)
      else if !g.isSpacer next && needles.contains (g.cell next).c then (true, next)
      else g.inlineSearchLeft needles fuel next

def inlineSearchRight (g : Grid Square) (needles : List Char) : ℕ → Pos → Bool × Pos
  | 0, point => (false, point)
  | fuel + 1, point =>
    match g.nextPos point with
    | none => (false, point)
    | some next =>
      if !g.isSpacer next && needles.contains (g.cell next).c then (true, next)
      else if next.col = g.lastColumn && !(g.cell next).wrapline then (false, next)
      else g.inlineSearchRight needles fuel next

/-- The next cell that is not part of a wide character. -/
def skipSpacers (g : Grid Square) : ℕ → Pos → Option Pos
  | 0, _ => none
  | fuel + 1, point =>
    match g.nextPos point with
    | none => none
    | some next => if g.isSpacer next then g.skipSpacers fuel next else some next

/-- The characters that end a word. -/
def semanticEscapeChars : List Char :=
  [',', '│', '\x60', '|', ':', '"', '\'', ' ', '(', ')', '[', ']', '\x7b', '\x7d', '<', '>', '\t',
    '\x00']

def semanticSearchLeft (g : Grid Square) (point : Pos) : Pos :=
  match g.inlineSearchLeft semanticEscapeChars g.cells
      { point with row := max point.row g.topmostLine } with
  | (true, point) => (g.skipSpacers g.cells point).getD point
  | (false, point) => point

def semanticSearchRight (g : Grid Square) (point : Pos) : Pos :=
  let point := { point with row := max point.row g.topmostLine }
  if point.col = g.lastColumn && !(g.cell point).wrapline then point
  else
    match g.inlineSearchRight semanticEscapeChars g.cells point with
    | (true, point) => (g.prevPos point).getD point
    | (false, point) => point

def bracketPairs : List (Char × Char) := [('(', ')'), ('[', ']'), ('\x7b', '\x7d'), ('<', '>')]

/-- Goes on to the bracket that closes `startChar`, over pairs in between. -/
def findBracket (g : Grid Square) (forward : Bool) (startChar endChar : Char) : ℕ → ℕ → Pos → Option Pos
  | 0, _, _ => none
  | fuel + 1, skipPairs, point =>
    match if forward then g.nextPos point else g.prevPos point with
    | none => none
    | some next =>
      let c := (g.cell next).c
      if c = endChar && skipPairs = 0 then some next
      else if c = startChar then g.findBracket forward startChar endChar fuel (skipPairs + 1) next
      else if c = endChar then g.findBracket forward startChar endChar fuel (skipPairs - 1) next
      else g.findBracket forward startChar endChar fuel skipPairs next

def bracketSearch (g : Grid Square) (point : Pos) : Option Pos :=
  let startChar := (g.cell point).c
  (bracketPairs.findSome? fun (opening, closing) =>
    if opening = startChar then some (true, closing)
    else if closing = startChar then some (false, opening)
    else none).bind fun (forward, endChar) =>
      g.findBracket forward startChar endChar g.cells 0 point

end Grid

/-! ### The selection -/

namespace Selection

def new (ty : SelectionType) (location : Pos) (side : Side) : Selection :=
  ⟨ty, ⟨location, side⟩, ⟨location, side⟩⟩

/-- Update the end of the selection. -/
def update (s : Selection) (point : Pos) (side : Side) : Selection :=
  { s with stop := ⟨point, side⟩ }

/-- The anchors are in the order of the text, unless the selection was made backwards. -/
def backwards (s : Selection) : Bool := s.stop.point < s.start.point

def lower (s : Selection) : Anchor := if s.backwards then s.stop else s.start

def upper (s : Selection) : Anchor := if s.backwards then s.start else s.stop

def withAnchors (s : Selection) (lower upper : Anchor) : Selection :=
  if s.backwards then ⟨s.ty, upper, lower⟩ else ⟨s.ty, lower, upper⟩

/-- An anchor is in the lines that are scrolled; those at the top take the history with them. -/
def inRange (range : Region) (row : ℤ) : Prop :=
  (range.start ≤ row ∨ range.start = 0) ∧ row < range.stop

instance (range : Region) (row : ℤ) : Decidable (inRange range row) :=
  inferInstanceAs (Decidable ((range.start ≤ row ∨ range.start = 0) ∧ row < range.stop))

/-- Rotate the start of the selection; `none` where it rotates out along with the end. -/
def rotateStart (ty : SelectionType) (d : Dimensions) (range : Region) (delta : ℤ)
    (start stop : Anchor) : Option Anchor :=
  if inRange range start.point.row then
    let row := min (start.point.row - delta) d.bottommostLine
    if range.stop ≤ row ∧ stop.point.row < range.stop then none
    else if row < range.start ∧ range.start ≠ 0 then
      -- clamp to the start of the region
      some
        (if ty = .block then ⟨⟨range.start, start.point.col⟩, start.side⟩
        else ⟨⟨range.start, 0⟩, .left⟩)
    else some ⟨⟨row, start.point.col⟩, start.side⟩
  else some start

/-- Rotate the end of the selection; `none` where it overtakes the start. -/
def rotateEnd (ty : SelectionType) (d : Dimensions) (range : Region) (delta : ℤ)
    (start stop : Anchor) : Option Anchor :=
  if inRange range stop.point.row then
    let row := min (stop.point.row - delta) d.bottommostLine
    if row < start.point.row then none
    else if range.stop ≤ row then
      -- clamp to the end of the region
      some
        (if ty = .block then ⟨⟨range.stop - 1, stop.point.col⟩, stop.side⟩
        else ⟨⟨range.stop - 1, d.lastColumn⟩, .right⟩)
    else some ⟨⟨row, stop.point.col⟩, stop.side⟩
  else some stop

/-- The selection after the lines of a range were scrolled up by `delta`. -/
def rotate (s : Selection) (d : Dimensions) (range : Region) (delta : ℤ) : Option Selection :=
  (rotateStart s.ty d range delta s.lower s.upper).bind fun start =>
    (rotateEnd s.ty d range delta start s.upper).map fun stop => s.withAnchors start stop

def isEmpty (s : Selection) : Bool :=
  match s.ty with
  | .simple =>
    s.lower = s.upper ||
      (s.lower.side = .right && s.upper.side = .left &&
        s.lower.point.row = s.upper.point.row && s.lower.point.col + 1 = s.upper.point.col)
  | .block =>
    (s.start.point.col = s.stop.point.col && s.start.side = s.stop.side) ||
      (s.start.point.col + 1 = s.stop.point.col && s.start.side = .right && s.stop.side = .left) ||
      (s.stop.point.col + 1 = s.start.point.col && s.start.side = .left && s.stop.side = .right)
  | .semantic | .lines => false

def rangeSimple (start stop : Anchor) (columns : ℕ) : SelectionRange :=
  let stopPoint : Pos :=
    if stop.side = .left ∧ start.point ≠ stop.point then
      if stop.point.col = 0 then ⟨stop.point.row - 1, columns - 1⟩
      else { stop.point with col := stop.point.col - 1 }
    else stop.point
  let startPoint : Pos :=
    if start.side = .right ∧ start.point ≠ stopPoint then
      if start.point.col + 1 = columns then ⟨start.point.row + 1, 0⟩
      else { start.point with col := start.point.col + 1 }
    else start.point
  ⟨startPoint, stopPoint, false⟩

/-- Leave out the cells that the anchors are beyond. -/
def rangeCorners (start stop : Anchor) : SelectionRange :=
  let stopPoint : Pos :=
    if stop.side = .left ∧ start.point ≠ stop.point ∧ 0 < stop.point.col then
      { stop.point with col := stop.point.col - 1 }
    else stop.point
  let startPoint : Pos :=
    if start.side = .right ∧ start.point ≠ stopPoint then
      { start.point with col := start.point.col + 1 }
    else start.point
  ⟨startPoint, stopPoint, true⟩

/-- The range always goes from the top left to the bottom right. -/
def rangeBlock (start stop : Anchor) : SelectionRange :=
  if stop.point.col < start.point.col then
    rangeCorners ⟨{ start.point with col := stop.point.col }, stop.side⟩
      ⟨{ stop.point with col := start.point.col }, start.side⟩
  else rangeCorners start stop

def rangeLines (g : Grid Square) (start stop : Pos) : SelectionRange :=
  ⟨⟨g.rowSearchLeft g.raw.len start.row, 0⟩, ⟨g.rowSearchRight g.raw.len stop.row, g.lastColumn⟩,
    false⟩

def rangeSemantic (g : Grid Square) (start stop : Pos) : SelectionRange :=
  match if start = stop then g.bracketSearch start else none with
  | some matching =>
    if matching < start then ⟨matching, stop, false⟩ else ⟨start, matching, false⟩
  | none => ⟨g.semanticSearchLeft start, g.semanticSearchRight stop, false⟩

/-- Convert the selection to grid coordinates. -/
def toRange (s : Selection) (g : Grid Square) : Option SelectionRange :=
  if s.upper.point.row < g.topmostLine then none
  else
    let start : Anchor := ⟨s.lower.point.gridClamp g.dimensions .grid, s.lower.side⟩
    match s.ty with
    | .simple => if s.isEmpty then none else some (rangeSimple start s.upper g.columns)
    | .block => if s.isEmpty then none else some (rangeBlock start s.upper)
    | .lines => some (rangeLines g start.point s.upper.point)
    | .semantic => some (rangeSemantic g start.point s.upper.point)

end Selection

end Rio
