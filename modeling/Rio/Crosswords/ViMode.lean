import Rio.Lib.Loop
import Rio.Grid.Origin
import Rio.Crosswords.State
import Rio.Selection.Selection

/-! Motions of the vi mode cursor. Reads are checked, and loops run for at most `fuel` turns. -/

set_option linter.dupNamespace false

namespace Rio
open Rio.Checked

/-- Possible vi mode motion movements. -/
inductive ViMotion
  | up | down | left | right
  | first | last | firstOccupied
  | high | middle | low
  | semanticLeft | semanticRight | semanticLeftEnd | semanticRightEnd
  | wordLeft | wordRight | wordLeftEnd | wordRightEnd
  | bracket
  deriving DecidableEq, Repr

instance (g : Grid Square) (p : Pos) : Decidable (g.HasCell p) :=
  inferInstanceAs (Decidable (_ ∧ _ ∧ _))

namespace Vi

/-- The cell at a position, which has to be on the grid. -/
def readCell (g : Grid Square) (p : Pos) : Outcome Square :=
  if g.HasCell p then .ok (g.cell p) else .error .index

/-! ### Searches -/

/-- The next cell of the iterator over the grid. -/
def next (g : Grid Square) (p : Pos) : Outcome (Option Pos) :=
  match g.nextPos p with
  | some next => do
    let _ ← readCell g next
    return some next
  | none => .ok none

def prev (g : Grid Square) (p : Pos) : Outcome (Option Pos) :=
  match g.prevPos p with
  | some prev => do
    let _ ← readCell g prev
    return some prev
  | none => .ok none

/-- Goes left to the next of some characters within the logical line. -/
def inlineSearchLeft (g : Grid Square) (needles : List Char) : ℕ → Pos → Outcome (Bool × Pos) :=
  loop fun point => do
    match ← prev g point with
    | none => return .inr (false, point)
    | some prev =>
      if prev.col = g.lastColumn && !(g.cell prev).wrapline then return .inr (false, point)
      else if !g.isSpacer prev && needles.contains (g.cell prev).c then return .inr (true, prev)
      else return .inl prev

def inlineSearchRight (g : Grid Square) (needles : List Char) : ℕ → Pos → Outcome (Bool × Pos) :=
  loop fun point => do
    match ← next g point with
    | none => return .inr (false, point)
    | some next =>
      if !g.isSpacer next && needles.contains (g.cell next).c then return .inr (true, next)
      else if next.col = g.lastColumn && !(g.cell next).wrapline then return .inr (false, next)
      else return .inl next

/-- The next cell that is not part of a wide character. -/
def skipSpacers (g : Grid Square) : ℕ → Pos → Outcome (Option Pos) :=
  loop fun point => do
    match ← next g point with
    | none => return .inr none
    | some next => if g.isSpacer next then return .inl next else return .inr (some next)

def semanticSearchLeft (g : Grid Square) (fuel : ℕ) (point : Pos) : Outcome Pos := do
  match ← inlineSearchLeft g Grid.semanticEscapeChars fuel
    { point with row := max point.row g.topmostLine } with
  | (true, point) => do
    let start ← skipSpacers g fuel point
    return start.getD point
  | (false, point) => return point

/-- The cell is the last one of a row that is not wrapped. -/
def endsRow (g : Grid Square) (point : Pos) : Outcome Bool :=
  if point.col = g.lastColumn then do
    let cell ← readCell g point
    return !cell.wrapline
  else .ok false

def semanticSearchRight (g : Grid Square) (fuel : ℕ) (point : Pos) : Outcome Pos := do
  let point := { point with row := max point.row g.topmostLine }
  if ← endsRow g point then return point
  else
    match ← inlineSearchRight g Grid.semanticEscapeChars fuel point with
    | (true, point) => do
      let before ← prev g point
      return before.getD point
    | (false, point) => return point

def nextOrPrev (g : Grid Square) (forward : Bool) (p : Pos) : Outcome (Option Pos) :=
  if forward then next g p else prev g p

/-- Goes on to the bracket that closes `startChar`, over pairs in between. -/
def findBracket (g : Grid Square) (forward : Bool) (startChar endChar : Char) :
    ℕ → ℕ × Pos → Outcome (Option Pos) :=
  loop fun (skipPairs, point) => do
    match ← nextOrPrev g forward point with
    | none => return .inr none
    | some next =>
      let c := (g.cell next).c
      if c = endChar && skipPairs = 0 then return .inr (some next)
      else if c = startChar then return .inl (skipPairs + 1, next)
      else if c = endChar then return .inl (← sub skipPairs 1, next)
      else return .inl (skipPairs, next)

def bracketSearch (g : Grid Square) (fuel : ℕ) (point : Pos) : Outcome (Option Pos) := do
  let cell ← readCell g point
  match Grid.bracketPairs.findSome? fun (opening, closing) =>
    if opening = cell.c then some (true, closing)
    else if closing = cell.c then some (false, opening)
    else none with
  | none => return none
  | some (forward, endChar) => findBracket g forward cell.c endChar fuel (0, point)

/-! ### Cells and lines -/

/-- The leading spacer before a wide character, if there is one. -/
def withLeading (g : Grid Square) (pos : Pos) : Outcome Pos := do
  let prev := pos.sub g.dimensions .grid 1
  let before ← readCell g prev
  return if before.wide = .leadingSpacer then prev else pos

/-- Jump to the end of a wide cell. -/
def expandWide (g : Grid Square) (pos : Pos) (direction : Side) : Outcome Pos := do
  let cell ← readCell g pos
  match direction, cell.wide with
  | .right, .leadingSpacer => return ⟨pos.row + 1, 1⟩
  | .right, .wide => return { pos with col := min (pos.col + 1) g.lastColumn }
  | .left, .wide => withLeading g pos
  | .left, .spacer => do
    let col ← sub pos.col 1
    withLeading g { pos with col := col }
  | _, _ => return pos

/-- The cell contains whitespace. -/
def isSpace (g : Grid Square) (pos : Pos) : Outcome Bool := do
  let cell ← readCell g pos
  return !(cell.wide = .spacer || cell.wide = .leadingSpacer) &&
    (cell.c = '\x00' || cell.c = ' ' || cell.c = '\t')

/-- The cell has the flag of a wrapped line. -/
def isWrap (g : Grid Square) (pos : Pos) : Outcome Bool := do
  let cell ← readCell g pos
  return cell.wrapline

/-- The position is at the boundary of the screen and its history. -/
def isBoundary (g : Grid Square) (pos : Pos) (direction : Side) : Bool :=
  (pos.row ≤ g.topmostLine && pos.col = 0 && direction = .left) ||
    (pos.row = g.bottommostLine && g.columns ≤ pos.col + 1 && direction = .right)

/-- Advance a position based on direction. -/
def advance (g : Grid Square) (pos : Pos) : Side → Pos
  | .left => pos.sub g.dimensions .grid 1
  | .right => pos.add g.dimensions .grid 1

def occupied (g : Grid Square) (pos : Pos) : Outcome Bool := do
  let space ← isSpace g pos
  return !space

def lineCells (g : Grid Square) (line : ℤ) : List Pos := (List.range g.columns).map (⟨line, ·⟩)

/-- Find the first cell in a line that is not empty. -/
def firstOccupiedInLine (g : Grid Square) (line : ℤ) : Outcome (Option Pos) :=
  (lineCells g line).findM? (occupied g)

/-- Find the last cell in a line that is not empty. -/
def lastOccupiedInLine (g : Grid Square) (line : ℤ) : Outcome (Option Pos) :=
  (lineCells g line).reverse.findM? (occupied g)

/-- The row is a row that the one above goes on in, and the position is at its start. -/
def wrapsFrom (g : Grid Square) (pos : Pos) : Outcome Bool :=
  if pos.col = 0 ∧ g.topmostLine < pos.row then isWrap g ⟨pos.row - 1, g.lastColumn⟩ else .ok false

/-! ### Motions -/

/-- One line down while the line is wrapped. -/
def wrapTurn (g : Grid Square) (pos : Pos) : Outcome (Pos ⊕ Pos) := do
  if ← isWrap g pos then return .inl { pos with row := pos.row + 1 } else return .inr pos

/-- Find the next end of a line to move to. -/
def last (g : Grid Square) (fuel : ℕ) (pos : Pos) : Outcome Pos := do
  let pos ← expandWide g pos .right
  let occupied := (← lastOccupiedInLine g pos.row).getD default
  if pos.col < occupied.col then return occupied
  else if ← isWrap g pos then
    -- jump to the last occupied cell across wrapped lines
    let pos ← loop (wrapTurn g) fuel pos
    return (← lastOccupiedInLine g pos.row).getD pos
  else return { pos with col := g.lastColumn }

/-- The first occupied cell of the lines above that are wrapped, going up through them. -/
def occupiedAbove (g : Grid Square) (occupied : Option Pos) : List ℤ → Outcome (Option Pos)
  | [] => return occupied
  | line :: lines => do
    if ← isWrap g ⟨line, g.lastColumn⟩ then
      let first ← firstOccupiedInLine g line
      occupiedAbove g (first <|> occupied) lines
    else return occupied

/-- The first occupied cell of a line, or else its last cell unless the line is wrapped. -/
def occupiedTurn (g : Grid Square) (line : ℤ) : Outcome (ℤ ⊕ Pos) := do
  match ← firstOccupiedInLine g line with
  | some occupied => return .inr occupied
  | none =>
    if ← isWrap g ⟨line, g.lastColumn⟩ then return .inl (line + 1)
    else return .inr ⟨line, g.lastColumn⟩

/-- Find the next cell that is not empty to move to. -/
def firstOccupied (g : Grid Square) (fuel : ℕ) (pos : Pos) : Outcome Pos := do
  let pos ← expandWide g pos .left
  let occupied := (← firstOccupiedInLine g pos.row).getD ⟨pos.row, g.lastColumn⟩
  if pos = occupied then
    match ← occupiedAbove g none (lineRange g.topmostLine pos.row).reverse with
    | some occupied => return occupied
    | none => loop (occupiedTurn g) fuel pos.row
  else return occupied

/-- Advance once, unless at the boundary or a condition fails. -/
def advanceTurn (g : Grid Square) (direction : Side) (go : Pos → Outcome Bool) (pos : Pos) :
    Outcome (Pos ⊕ Pos) := do
  if isBoundary g pos direction then return .inr pos
  else if ← go pos then return .inl (advance g pos direction)
  else return .inr pos

/-- Advance up to the boundary while a condition holds. -/
def advanceWhile (g : Grid Square) (direction : Side) (go : Pos → Outcome Bool) :
    ℕ → Pos → Outcome Pos := loop (advanceTurn g direction go)

/-- Expand to a boundary of the word, unless the position is on a character that ends words. -/
def expandSemantic (g : Grid Square) (fuel : ℕ) (pos : Pos) (direction : Side) : Outcome Pos := do
  let cell ← readCell g pos
  if Grid.semanticEscapeChars.contains cell.c &&
      !(cell.wide = .spacer || cell.wide = .leadingSpacer) then return pos
  else
    match direction with
    | .left => semanticSearchLeft g fuel pos
    | .right => semanticSearchRight g fuel pos

/-- Move to the word boundary, if asked to. -/
def toWordBoundary (g : Grid Square) (fuel : ℕ) (pos : Pos) (direction : Side) (move : Bool) :
    Outcome Pos :=
  if move && !isBoundary g pos direction then expandSemantic g fuel pos direction else .ok pos

/-- Move by semantically separated word, like w/b/e/ge in vi. -/
def semantic (g : Grid Square) (fuel : ℕ) (pos : Pos) (direction side : Side) : Outcome Pos := do
  let pos ← expandWide g pos direction
  let pos ← toWordBoundary g fuel pos direction (direction ≠ side)
  -- skip whitespace
  let pos ← advanceWhile g direction (fun pos => isSpace g (advance g pos direction)) fuel pos
  -- assure a minimum movement of one cell
  let pos := if isBoundary g pos direction then pos else advance g pos direction
  toWordBoundary g fuel pos direction (direction = side)

/-- Move by whitespace separated word, like W/B/E/gE in vi. -/
def word (g : Grid Square) (fuel : ℕ) (pos : Pos) (direction side : Side) : Outcome Pos := do
  let pos ← expandWide g pos direction
  if direction = side then
    let pos ← advanceWhile g direction (fun pos => isSpace g (advance g pos direction)) fuel pos
    advanceWhile g direction (fun pos => occupied g (advance g pos direction)) fuel pos
  else
    let pos ← advanceWhile g direction (occupied g) fuel pos
    advanceWhile g direction (isSpace g) fuel pos

/-- One line up while the line is the rest of a wrapped one. -/
def unwrapTurn (g : Grid Square) (pos : Pos) : Outcome (Pos ⊕ Pos) := do
  if ← wrapsFrom g pos then return .inl { pos with row := pos.row - 1 } else return .inr pos

/-- Move to the first occupied cell of a line of the viewport. -/
def inViewport (g : Grid Square) (line : ℤ) : Outcome Pos := do
  let occupied ← firstOccupiedInLine g line
  return ⟨line, (occupied.getD default).col⟩

/-- Where a motion moves the vi mode cursor. -/
def target (g : Grid Square) (fuel : ℕ) (pos : Pos) : ViMotion → Outcome Pos
  | .up => return if g.topmostLine < pos.row then { pos with row := pos.row - 1 } else pos
  | .down => return if pos.row + 1 < g.lines then { pos with row := pos.row + 1 } else pos
  | .left => do
    let pos ← expandWide g pos .left
    let wraps ← wrapsFrom g pos
    return if wraps then ⟨pos.row - 1, g.lastColumn⟩ else { pos with col := pos.col - 1 }
  | .right => do
    let pos ← expandWide g pos .right
    let wraps ← isWrap g pos
    return if wraps then ⟨pos.row + 1, 0⟩ else { pos with col := min (pos.col + 1) g.lastColumn }
  | .first => do
    let pos ← expandWide g pos .left
    let pos ← loop (unwrapTurn g) fuel pos
    return { pos with col := 0 }
  | .last => last g fuel pos
  | .firstOccupied => firstOccupied g fuel pos
  | .high => inViewport g (-g.displayOffset)
  | .middle => inViewport g (-g.displayOffset + g.lines / 2 - 1)
  | .low => inViewport g (-g.displayOffset + g.lines - 1)
  | .semanticLeft => semantic g fuel pos .left .left
  | .semanticRight => semantic g fuel pos .right .left
  | .semanticLeftEnd => semantic g fuel pos .left .right
  | .semanticRightEnd => semantic g fuel pos .right .right
  | .wordLeft => word g fuel pos .left .left
  | .wordRight => word g fuel pos .right .left
  | .wordLeftEnd => word g fuel pos .left .right
  | .wordRightEnd => word g fuel pos .right .right
  | .bracket => do
    let closing ← bracketSearch g fuel pos
    return closing.getD pos

end Vi

namespace Crosswords

/-- Scroll the display to a position if it is outside of the viewport. -/
def scrollToPos (t : Crosswords) (pos : Pos) : Crosswords :=
  let displayOffset : ℤ := t.grid.displayOffset
  let screenLines : ℤ := t.grid.lines
  if pos.row < -displayOffset then t.scrollDisplay (.delta (-(pos.row + displayOffset)))
  else if screenLines - displayOffset ≤ pos.row then
    t.scrollDisplay (.delta (-(pos.row + displayOffset - screenLines + 1)))
  else t

/-- Move a vi mode cursor, and show where it is. -/
def motion (t : Crosswords) (fuel : ℕ) (pos : Pos) (motion : ViMotion) :
    Outcome (Pos × Crosswords) := do
  let pos ← Vi.target t.grid fuel pos motion
  return (pos, t.scrollToPos pos)

end Crosswords
end Rio
