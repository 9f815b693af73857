import Mathlib.Data.List.Basic
import Mathlib.Tactic

/-! Fixed-size parameter list of a control sequence, with subparameters. -/

set_option linter.dupNamespace false

namespace Rio.Copa

def maxParams : ℕ := 32

/-- `subparams` holds, at the index of the first value of a parameter, the number of values
of that parameter; `params` holds all values in order. Cells from `len` on are stale. -/
structure Params where
  subparams : List ℕ
  params : List UInt16
  currentSubparams : ℕ
  len : ℕ
  deriving DecidableEq, Repr

namespace Params

protected def default : Params :=
  ⟨List.replicate maxParams 0, List.replicate maxParams 0, 0, 0⟩

instance : Inhabited Params := ⟨Params.default⟩

def isEmpty (p : Params) : Bool := p.len == 0

def isFull (p : Params) : Bool := p.len == maxParams

/-- Forget the parameters; the arrays keep their contents. -/
def clear (p : Params) : Params := { p with currentSubparams := 0, len := 0 }

/-- Add a parameter. -/
def push (p : Params) (item : UInt16) : Params :=
  { subparams := p.subparams.set (p.len - p.currentSubparams) (p.currentSubparams + 1)
    params := p.params.set p.len item
    currentSubparams := 0
    len := p.len + 1 }

/-- Add a subparameter to the current parameter. -/
def extend (p : Params) (item : UInt16) : Params :=
  { subparams := p.subparams.set (p.len - p.currentSubparams) (p.currentSubparams + 1)
    params := p.params.set p.len item
    currentSubparams := p.currentSubparams + 1
    len := p.len + 1 }

/-- The groups the iterator yields from `index` on, at most `fuel` of them. -/
def iterFrom (p : Params) : ℕ → ℕ → List (List UInt16)
  | 0, _ => []
  | fuel + 1, index =>
    if p.len ≤ index then []
    else
      let numSubparams := p.subparams.getD index 0
      (p.params.drop index).take numSubparams :: iterFrom p fuel (index + numSubparams)

/-- All parameters with their subparameters. Every group has at least one value, so `len`
steps suffice. -/
def iter (p : Params) : List (List UInt16) := p.iterFrom p.len 0

end Params
end Rio.Copa
