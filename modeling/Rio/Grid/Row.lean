import Mathlib.Data.List.DropRight
import Mathlib.Data.List.Basic
import Mathlib.Tactic

/-! A row of a grid: its cells and what is kept about them. -/

set_option linter.dupNamespace false

namespace Rio

/-- What a grid needs of its cells. -/
class GridSquare (α : Type) extends Inhabited α where
  isEmpty : α → Bool
  /-- `reset cell template`. -/
  reset : α → α → α

/-- `occ` bounds the cells modified since the last reset. -/
structure Row (α : Type) where
  inner : List α
  occ : ℕ
  kittyVirtualPlaceholder : Bool
  dirty : Bool
  deriving DecidableEq, Repr

namespace Row

variable {α : Type}

instance : Inhabited (Row α) := ⟨⟨[], 0, false, true⟩⟩

def new [Inhabited α] (columns : ℕ) : Row α := ⟨List.replicate columns default, 0, false, true⟩

def len (r : Row α) : ℕ := r.inner.length

/-- The cell in a column. -/
def cell [Inhabited α] (r : Row α) (col : ℕ) : α := r.inner.getD col default

/-- Write to the cell in a column. -/
def modify (r : Row α) (col : ℕ) (f : α → α) : Row α :=
  { r with inner := r.inner.modify col f, occ := max r.occ (col + 1), dirty := true }

def set (r : Row α) (col : ℕ) (c : α) : Row α := r.modify col fun _ => c

/-- Write to the last cell, if there is one. -/
def modifyLast (r : Row α) (f : α → α) : Row α :=
  { r with inner := r.inner.modify (r.len - 1) f, occ := r.len, dirty := true }

/-- Write to all cells at once. -/
def modifyAll (r : Row α) (f : List α → List α) : Row α :=
  { r with inner := f r.inner, occ := r.len, dirty := true }

/-- Overwrite the cells of the columns `start..stop`. -/
def fill (r : Row α) (start stop : ℕ) (c : α) : Row α :=
  { r with
    inner := r.inner.mapIdx fun i d => if start ≤ i ∧ i < stop then c else d
    occ := max r.occ stop
    dirty := true }

/-- Overwrite the cells from a column to the end. -/
def fillFrom (r : Row α) (start : ℕ) (c : α) : Row α :=
  r.modifyAll fun cells => cells.mapIdx fun i d => if start ≤ i then c else d

/-- Copy another row; the dirty mark stays. -/
def copyFrom (r src : Row α) : Row α :=
  { r with inner := src.inner, occ := src.occ,
           kittyVirtualPlaceholder := src.kittyVirtualPlaceholder }

def grow [Inhabited α] (r : Row α) (columns : ℕ) : Row α :=
  { r with inner := r.inner ++ List.replicate (columns - r.len) default }

/-- The row cut to `columns` cells, and the cells cut off without the empty ones at their end,
if any remain. -/
def shrink [GridSquare α] (r : Row α) (columns : ℕ) : Row α × Option (List α) :=
  if r.len ≤ columns then (r, none)
  else
    let newRow := (r.inner.drop columns).rdropWhile GridSquare.isEmpty
    ({ r with inner := r.inner.take columns, occ := min r.occ columns, dirty := true },
      if newRow.isEmpty then none else some newRow)

/-- Reset all cells in the row to the `template` cell. -/
def reset [GridSquare α] (r : Row α) (template : α) : Row α :=
  { inner := r.inner.map fun c => GridSquare.reset c template
    occ := 0
    kittyVirtualPlaceholder := false
    dirty := true }

def fromVec (vec : List α) (occ : ℕ) : Row α := ⟨vec, occ, false, true⟩

def append (r : Row α) (vec : List α) : Row α :=
  { r with inner := r.inner ++ vec, occ := r.occ + vec.length, dirty := true }

def appendFront (r : Row α) (vec : List α) : Row α :=
  { r with inner := vec ++ r.inner, occ := r.occ + vec.length, dirty := true }

/-- The row without its first `at_` cells, and these cells. -/
def frontSplitOff (r : Row α) (at_ : ℕ) : Row α × List α :=
  ({ r with inner := r.inner.drop at_, occ := r.occ - at_, dirty := true }, r.inner.take at_)

def isClear [GridSquare α] (r : Row α) : Bool := r.inner.all GridSquare.isEmpty

def markDirty (r : Row α) : Row α := { r with dirty := true }

end Row
end Rio
