import Mathlib.Data.List.Basic
import Mathlib.Tactic

/-! Cell styles and the table that gives each style of a grid its number. -/

set_option linter.dupNamespace false

namespace Rio

inductive NamedColor
  | black | red | green | yellow | blue | magenta | cyan | white
  | lightBlack | lightRed | lightGreen | lightYellow | lightBlue | lightMagenta | lightCyan
  | lightWhite
  | foreground | background | cursor
  | dimBlack | dimRed | dimGreen | dimYellow | dimBlue | dimMagenta | dimCyan | dimWhite
  | lightForeground | dimForeground
  deriving DecidableEq, Repr

/-- The discriminant: the palette index of the sixteen palette colors, from `256` on for the
others. -/
def NamedColor.toNat (n : NamedColor) : ℕ := if n.ctorIdx < 16 then n.ctorIdx else n.ctorIdx + 240

inductive AnsiColor
  | named (n : NamedColor)
  | spec (r g b : UInt8)
  | indexed (i : UInt8)
  deriving DecidableEq, Repr

abbrev StyleId := UInt16

def defaultStyleId : StyleId := 0

/-- The bits of the flags of a style. -/
structure StyleFlags where
  bits : UInt16 := 0
  deriving DecidableEq, Repr, Inhabited

namespace StyleFlags

def inverse : StyleFlags := ⟨0x001⟩
def bold : StyleFlags := ⟨0x002⟩
def italic : StyleFlags := ⟨0x004⟩
def dim : StyleFlags := ⟨0x008⟩
def hidden : StyleFlags := ⟨0x010⟩
def strikeout : StyleFlags := ⟨0x020⟩
def underline : StyleFlags := ⟨0x040⟩
def doubleUnderline : StyleFlags := ⟨0x080⟩
def undercurl : StyleFlags := ⟨0x100⟩
def dottedUnderline : StyleFlags := ⟨0x200⟩
def dashedUnderline : StyleFlags := ⟨0x400⟩

def insert (f g : StyleFlags) : StyleFlags := ⟨f.bits ||| g.bits⟩

def remove (f g : StyleFlags) : StyleFlags := ⟨f.bits &&& ~~~g.bits⟩

def allUnderlines : StyleFlags :=
  ((((underline.insert doubleUnderline).insert undercurl).insert dottedUnderline).insert
    dashedUnderline)

end StyleFlags

structure Style where
  fg : AnsiColor := .named .foreground
  bg : AnsiColor := .named .background
  underlineColor : Option AnsiColor := none
  flags : StyleFlags := {}
  deriving DecidableEq, Repr, Inhabited

/-- The styles in the order of their ids. The lookup from styles to ids is the position in the
list, as every style is entered once. -/
structure StyleSet where
  styles : List Style
  deriving DecidableEq, Repr

namespace StyleSet

/-- Largest number of styles. -/
def maxStyles : ℕ := 65535

def new : StyleSet := ⟨[{}]⟩

def get (s : StyleSet) (id : StyleId) : Style :=
  if id = defaultStyleId then {} else s.styles.getD id.toNat {}

/-- The table with the style entered, and its id. -/
def intern (s : StyleSet) (style : Style) : StyleSet × StyleId :=
  if style ∈ s.styles then (s, UInt16.ofNat (s.styles.idxOf style))
  else if maxStyles ≤ s.styles.length then (s, defaultStyleId)
  else (⟨s.styles ++ [style]⟩, UInt16.ofNat s.styles.length)

end StyleSet
end Rio
