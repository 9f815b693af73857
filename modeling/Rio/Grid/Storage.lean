import Rio.Grid.Row
import Rio.Lib.Ring

/-! The rows of a grid in a ring buffer. Line `visibleLines - 1`, at the bottom of the screen,
is stored at `zero`, the lines above it follow, and the history continues behind the topmost
visible line with negative line numbers. -/

set_option linter.dupNamespace false

namespace Rio
open Rio.Ring

/-- Maximum number of buffered lines outside of the grid. -/
def maxCacheSize : ℕ := 1000

/-- `len` counts the rows in use, scrollback and visible. Rows of `inner` beyond them are kept
for reuse with whatever they hold. -/
structure Storage (α : Type) where
  inner : List (Row α)
  zero : ℕ
  visibleLines : ℕ
  len : ℕ
  deriving DecidableEq, Repr

namespace Storage

variable {α : Type}

def withCapacity [Inhabited α] (visibleLines columns : ℕ) : Storage α :=
  ⟨List.replicate visibleLines (Row.new columns), 0, visibleLines, visibleLines⟩

/-- The distance of a line from the bottom of the screen. -/
def offset (s : Storage α) (requested : ℤ) : ℕ := (-(requested - s.visibleLines)).toNat - 1

/-- Actual index in `inner` of a line. -/
def computeIndex (s : Storage α) (requested : ℤ) : ℕ :=
  let zeroed := s.zero + s.offset requested
  if s.inner.length ≤ zeroed then zeroed - s.inner.length else zeroed

/-- The row of a line. -/
def row (s : Storage α) (line : ℤ) : Row α := s.inner.getD (s.computeIndex line) default

/-- Write to the row of a line. -/
def modify (s : Storage α) (line : ℤ) (f : Row α → Row α) : Storage α :=
  { s with inner := s.inner.modify (s.computeIndex line) f }

/-- Reset `zero` to index `0`. -/
def rezero (s : Storage α) : Storage α :=
  if s.zero = 0 then s else { s with inner := s.inner.rotate s.zero, zero := 0 }

/-- Drop the rows that are not in use. -/
def truncate (s : Storage α) : Storage α :=
  let s := s.rezero
  { s with inner := s.inner.take s.len }

/-- Grow the storage at runtime. -/
def initializeRows [Inhabited α] (s : Storage α) (additionalRows columns : ℕ) : Storage α :=
  let s :=
    if s.inner.length < s.len + additionalRows then
      let s := s.rezero
      { s with
        inner := s.inner ++
          List.replicate (max additionalRows maxCacheSize) (Row.new columns) }
    else s
  { s with len := s.len + additionalRows }

/-- Shrink the number of lines in use. -/
def shrinkLines (s : Storage α) (shrinkage : ℕ) : Storage α :=
  let s := { s with len := s.len - shrinkage }
  -- free memory
  if s.len + maxCacheSize < s.inner.length then s.truncate else s

/-- Increase the number of visible lines. -/
def growVisibleLines [Inhabited α] (s : Storage α) (next : ℕ) : Storage α :=
  let growage := next - s.visibleLines
  let columns := (s.row 0).len
  { s.initializeRows growage columns with visibleLines := next }

/-- Decrease the number of visible lines. -/
def shrinkVisibleLines (s : Storage α) (next : ℕ) : Storage α :=
  let shrinkage := s.visibleLines - next
  { s.shrinkLines shrinkage with visibleLines := next }

def swap (s : Storage α) (a b : ℤ) : Storage α :=
  { s with inner := swapAt s.inner (s.computeIndex a) (s.computeIndex b) }

/-- Rotate the grid, moving all lines up or down in history. -/
def rotate (s : Storage α) (count : ℤ) : Storage α :=
  { s with zero := (s.zero + count + s.inner.length).toNat % s.inner.length }

/-- Rotate all existing lines down in history. -/
def rotateDown (s : Storage α) (count : ℕ) : Storage α :=
  { s with zero := (s.zero + count) % s.inner.length }

def replaceInner (s : Storage α) (vec : List (Row α)) : Storage α :=
  { s with inner := vec, zero := 0, len := vec.length }

/-- The storage with all rows removed, and the rows that were in use. -/
def takeAll (s : Storage α) : Storage α × List (Row α) :=
  let s := s.truncate
  ({ s with inner := [], len := 0 }, s.inner)

end Storage
end Rio
