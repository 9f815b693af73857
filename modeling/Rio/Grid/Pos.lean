import Mathlib.Tactic

/-! Positions on a grid and the cursor. Lines count down the screen from `0`; the history has
negative lines. -/

set_option linter.dupNamespace false

namespace Rio

structure Pos where
  row : ℤ := 0
  col : ℕ := 0
  deriving DecidableEq, Repr, Inhabited

inductive Boundary
  /-- The viewport when the user is not scrolled into the history. -/
  | cursor
  /-- Topmost line in history until the bottommost line in the terminal. -/
  | grid
  | none
  deriving DecidableEq, Repr

/-- Total number of lines, height of the viewport, and width. -/
structure Dimensions where
  totalLines : ℕ
  screenLines : ℕ
  columns : ℕ
  deriving DecidableEq, Repr

namespace Dimensions

def lastColumn (d : Dimensions) : ℕ := d.columns - 1

def historySize (d : Dimensions) : ℕ := d.totalLines - d.screenLines

def topmostLine (d : Dimensions) : ℤ := -(d.historySize : ℤ)

def bottommostLine (d : Dimensions) : ℤ := d.screenLines - 1

end Dimensions

namespace Pos

/-- Clamp a line to a grid boundary. -/
def gridClampLine (line : ℤ) (d : Dimensions) : Boundary → ℤ
  | .cursor => max 0 (min d.bottommostLine line)
  | .grid => max d.topmostLine (min d.bottommostLine line)
  | .none =>
    if (d.screenLines : ℤ) ≤ line then d.topmostLine + (line - d.screenLines).tmod d.totalLines
    else d.bottommostLine + (line - d.screenLines + 1).tmod d.totalLines

def gridClamp (p : Pos) (d : Dimensions) (boundary : Boundary) : Pos :=
  let p := { p with col := min p.col d.lastColumn }
  match boundary with
  | .cursor =>
    if p.row < 0 then ⟨0, 0⟩
    else if d.bottommostLine < p.row then ⟨d.bottommostLine, d.lastColumn⟩
    else p
  | .grid =>
    if p.row < d.topmostLine then ⟨d.topmostLine, 0⟩
    else if d.bottommostLine < p.row then ⟨d.bottommostLine, d.lastColumn⟩
    else p
  | .none => { p with row := gridClampLine p.row d .none }

def sub (p : Pos) (d : Dimensions) (boundary : Boundary) (rhs : ℕ) : Pos :=
  let cols := d.columns
  let lineChanges := (rhs + cols - 1 - p.col) / cols
  gridClamp ⟨p.row - lineChanges, (cols + p.col - rhs % cols) % cols⟩ d boundary

def add (p : Pos) (d : Dimensions) (boundary : Boundary) (rhs : ℕ) : Pos :=
  let cols := d.columns
  gridClamp ⟨p.row + ((rhs + p.col) / cols : ℕ), (p.col + rhs) % cols⟩ d boundary

end Pos

inductive StandardCharset
  | ascii
  | specialCharacterAndLineDrawing
  deriving DecidableEq, Repr, Inhabited

/-- The line drawing characters, by the character they replace. -/
def StandardCharset.lineDrawing : List (Char × Char) :=
  [('_', ' '), ('\x60', '◆'), ('a', '▒'), ('b', '\u2409'), ('c', '\u240c'), ('d', '\u240d'),
   ('e', '\u240a'), ('f', '°'), ('g', '±'), ('h', '\u2424'), ('i', '\u240b'), ('j', '┘'),
   ('k', '┐'), ('l', '┌'), ('m', '└'), ('n', '┼'), ('o', '⎺'), ('p', '⎻'), ('q', '─'),
   ('r', '⎼'), ('s', '⎽'), ('t', '├'), ('u', '┤'), ('v', '┴'), ('w', '┬'), ('x', '│'),
   ('y', '≤'), ('z', '≥'), ('\x7b', 'π'), ('|', '≠'), ('\x7d', '£'), ('~', '·')]

/-- Map a character to the active charset. -/
def StandardCharset.map (s : StandardCharset) (c : Char) : Char :=
  match s with
  | .ascii => c
  | .specialCharacterAndLineDrawing => (lineDrawing.lookup c).getD c

inductive CharsetIndex
  | g0 | g1 | g2 | g3
  deriving DecidableEq, Repr, Inhabited

structure Charsets where
  g0 : StandardCharset := .ascii
  g1 : StandardCharset := .ascii
  g2 : StandardCharset := .ascii
  g3 : StandardCharset := .ascii
  deriving DecidableEq, Repr, Inhabited

def Charsets.get (s : Charsets) : CharsetIndex → StandardCharset
  | .g0 => s.g0
  | .g1 => s.g1
  | .g2 => s.g2
  | .g3 => s.g3

def Charsets.set (s : Charsets) (charset : StandardCharset) : CharsetIndex → Charsets
  | .g0 => { s with g0 := charset }
  | .g1 => { s with g1 := charset }
  | .g2 => { s with g2 := charset }
  | .g3 => { s with g3 := charset }

/-- `shouldWrap` tracks if the next call to input will need to first handle wrapping. -/
structure Cursor (α : Type) where
  pos : Pos
  template : α
  charsets : Charsets
  shouldWrap : Bool
  deriving DecidableEq, Repr

instance {α : Type} [Inhabited α] : Inhabited (Cursor α) := ⟨⟨default, default, default, false⟩⟩

end Rio
