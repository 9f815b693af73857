import Rio.Grid.Pos
import Rio.Grid.Square
import Rio.Grid.Storage

/-! A grid: the rows of a screen with its history, two cursors, the display offset, and the
tables for styles and extras. -/

set_option linter.dupNamespace false

namespace Rio

inductive Scroll
  | delta (count : ℤ)
  | pageUp
  | pageDown
  | top
  | bottom
  deriving DecidableEq, Repr

/-- The lines from `start` up to but not including `stop`. -/
structure Region where
  start : ℤ
  stop : ℤ
  deriving DecidableEq, Repr, Inhabited

/-- The lines of a half-open range in ascending order. -/
def lineRange (start stop : ℤ) : List ℤ :=
  (List.range (stop - start).toNat).map fun k : ℕ => start + (k : ℤ)

structure Grid (α : Type) where
  /-- Current cursor for writing data. -/
  cursor : Cursor α
  /-- Last saved cursor. -/
  savedCursor : Cursor α
  raw : Storage α
  columns : ℕ
  /-- Number of visible lines. -/
  lines : ℕ
  /-- Offset of displayed area. -/
  displayOffset : ℕ
  /-- Maximum number of lines in history. -/
  maxScrollLimit : ℕ
  styleSet : StyleSet
  extrasTable : ExtrasTable
  deriving DecidableEq, Repr

namespace Storage

variable {α : Type}

/-- Reset the rows of some lines. -/
def resetLines [GridSquare α] (s : Storage α) (template : α) (lines : List ℤ) : Storage α :=
  lines.foldl (fun s line => s.modify line fun r => r.reset template) s

def markLines (s : Storage α) (lines : List ℤ) : Storage α :=
  lines.foldl (fun s line => s.modify line Row.markDirty) s

/-- Exchange each line with the one `shift` further down. -/
def swapLines (s : Storage α) (shift : ℤ) (lines : List ℤ) : Storage α :=
  lines.foldl (fun s line => s.swap line (line + shift)) s

end Storage

namespace Grid

variable {α : Type}

def dimensions (g : Grid α) : Dimensions := ⟨g.raw.len, g.lines, g.columns⟩

def historySize (g : Grid α) : ℕ := g.dimensions.historySize

def topmostLine (g : Grid α) : ℤ := g.dimensions.topmostLine

def bottommostLine (g : Grid α) : ℤ := g.dimensions.bottommostLine

def lastColumn (g : Grid α) : ℕ := g.dimensions.lastColumn

def new [Inhabited α] (lines columns maxScrollLimit : ℕ) : Grid α :=
  { cursor := default
    savedCursor := default
    raw := Storage.withCapacity lines columns
    columns := columns
    lines := lines
    displayOffset := 0
    maxScrollLimit := maxScrollLimit
    styleSet := StyleSet.new
    extrasTable := ExtrasTable.new }

/-- Update the size of the scrollback history. -/
def updateHistory (g : Grid α) (historySize : ℕ) : Grid α :=
  let current := g.historySize
  let raw := if historySize < current then g.raw.shrinkLines (current - historySize) else g.raw
  { g with
    raw := raw
    displayOffset := min g.displayOffset historySize
    maxScrollLimit := historySize }

def scrollDisplay (g : Grid α) (scroll : Scroll) : Grid α :=
  { g with
    displayOffset :=
      match scroll with
      | .delta count => min (max (g.displayOffset + count) 0).toNat g.historySize
      | .pageUp => min (g.displayOffset + g.lines) g.historySize
      | .pageDown => g.displayOffset - g.lines
      | .top => g.historySize
      | .bottom => 0 }

/-- The row of a line. -/
def row (g : Grid α) (line : ℤ) : Row α := g.raw.row line

/-- The cell at a position. -/
def cell [Inhabited α] (g : Grid α) (p : Pos) : α := (g.row p.row).cell p.col

/-- Write to a row. -/
def modifyRow (g : Grid α) (line : ℤ) (f : Row α → Row α) : Grid α :=
  { g with raw := g.raw.modify line f }

/-- Write to a cell. -/
def modifyCell (g : Grid α) (p : Pos) (f : α → α) : Grid α :=
  g.modifyRow p.row fun r => r.modify p.col f

def decreaseScrollLimit (g : Grid α) (count : ℕ) : Grid α :=
  let count := min count g.historySize
  if count ≠ 0 then
    let g := { g with raw := g.raw.shrinkLines (min count g.historySize) }
    { g with displayOffset := min g.displayOffset g.historySize }
  else g

def clearHistory (g : Grid α) : Grid α :=
  { g with raw := g.raw.shrinkLines g.historySize, displayOffset := 0 }

variable [GridSquare α]

def increaseScrollLimit (g : Grid α) (count : ℕ) : Grid α :=
  let count := min count (g.maxScrollLimit - g.historySize)
  if count ≠ 0 then { g with raw := g.raw.initializeRows count g.columns } else g

def scrollDown (g : Grid α) (region : Region) (positions : ℕ) : Grid α :=
  -- rotating the entire region just resets everything
  if region.stop - region.start ≤ positions then
    { g with
      raw := g.raw.resetLines g.cursor.template (lineRange region.start region.stop) }
  else
    let raw :=
      if g.maxScrollLimit = 0 then
        -- move the lines fixed at the bottom to where the rotation takes them back from
        let raw := g.raw.swapLines (-(positions : ℤ)) (lineRange region.stop g.lines)
        let raw := raw.rotateDown positions
        let raw := raw.resetLines g.cursor.template (lineRange 0 positions)
        raw.swapLines positions (lineRange 0 region.start)
      else
        let raw := g.raw.swapLines (-(positions : ℤ))
          (lineRange (region.start + positions) region.stop).reverse
        raw.resetLines g.cursor.template
          (lineRange region.start (region.start + positions)).reverse
    { g with raw := raw.markLines (lineRange region.start region.stop) }

/-- The display stays where it is while it shows the history. -/
def holdDisplay (g : Grid α) (positions : ℕ) : Grid α :=
  { g with
    displayOffset :=
      if g.displayOffset ≠ 0 then min (g.displayOffset + positions) g.maxScrollLimit
      else g.displayOffset }

/-- Move lines at the bottom toward the top. -/
def scrollUp (g : Grid α) (region : Region) (positions : ℕ) : Grid α :=
  -- rotating the entire region with fixed lines at the top just resets everything
  if region.stop - region.start ≤ positions ∧ region.start ≠ 0 then
    { g with
      raw := g.raw.resetLines g.cursor.template (lineRange region.start region.stop) }
  else
    let g := g.holdDisplay positions
    let g :=
      if region.start = 0 then
        let g := g.increaseScrollLimit positions
        let raw := g.raw.swapLines positions (lineRange 0 region.start).reverse
        let raw := raw.rotate (-(positions : ℤ))
        -- move the lines fixed at the bottom back into position
        let raw := raw.swapLines (-(positions : ℤ)) (lineRange region.stop g.lines).reverse
        { g with raw := raw }
      else
        { g with
          raw := g.raw.swapLines positions
            (lineRange region.start (region.stop - positions)) }
    let raw := g.raw.resetLines g.cursor.template
      (lineRange (region.stop - positions) region.stop)
    { g with raw := raw.markLines (lineRange region.start region.stop) }

/-- The cell before a position, as the backwards iterator goes. -/
def prevPos (g : Grid α) (p : Pos) : Option Pos :=
  if p = ⟨g.topmostLine, 0⟩ then none
  else if p.col = 0 then some ⟨p.row - 1, g.lastColumn⟩
  else some { p with col := p.col - 1 }

/-- Where the search for the last cell in use stops, going backwards from `p`. -/
def clearViewportStop (g : Grid α) : ℕ → Pos → Pos
  | 0, p => p
  | fuel + 1, p =>
    match g.prevPos p with
    | none => p
    | some p =>
      if !GridSquare.isEmpty (g.cell p) || p.row < 0 then p else g.clearViewportStop fuel p

def clearViewport (g : Grid α) : Grid α :=
  -- how many lines to scroll up by; every step goes one cell back
  let stop := g.clearViewportStop (g.lines * g.columns + 1) ⟨(g.lines : ℤ) - 1, g.columns⟩
  let positions := (stop.row + 1).toNat
  let g := g.scrollUp ⟨0, g.lines⟩ positions
  { g with
    raw := g.raw.resetLines g.cursor.template (lineRange 0 ((g.lines - positions : ℕ) : ℤ)) }

/-- Reset the rows of a visible region. -/
def resetRegion (g : Grid α) (region : Region) : Grid α :=
  { g with raw := g.raw.resetLines g.cursor.template (lineRange region.start region.stop) }

/-- Completely reset the grid state. -/
def reset (g : Grid α) : Grid α :=
  let g := g.clearHistory
  let g := { g with savedCursor := default, cursor := default, displayOffset := 0 }
  { g with
    raw := g.raw.resetLines g.cursor.template (lineRange g.topmostLine g.lines) }

end Grid
end Rio
