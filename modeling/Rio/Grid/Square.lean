import Rio.Grid.Row
import Rio.Grid.Style

/-! A cell, unpacked: the fields of the source's 64-bit word, and the table of the rare data
that cells refer to by number. -/

set_option linter.dupNamespace false

namespace Rio

inductive Wide
  | narrow
  /-- First cell of a double-wide character. -/
  | wide
  /-- Second cell of a double-wide character. -/
  | spacer
  /-- At the end of a soft-wrapped line: a wide character continues on the next line. -/
  | leadingSpacer
  deriving DecidableEq, Repr

inductive ContentTag
  | codepoint
  | bgPalette
  | bgRgb
  deriving DecidableEq, Repr

structure CellFlags where
  wrapline : Bool := false
  graphics : Bool := false
  hyperlink : Bool := false
  grapheme : Bool := false
  deriving DecidableEq, Repr

abbrev ExtrasId := UInt16

/-- `lo` and `hi` are bits 32 to 47 and 48 to 63: the style id and the extras id of a text
cell, the background color of the other kinds of cell. -/
structure Square where
  c : Char := '\x00'
  wide : Wide := .narrow
  flags : CellFlags := {}
  tag : ContentTag := .codepoint
  lo : UInt16 := 0
  hi : UInt16 := 0
  deriving DecidableEq, Repr

namespace Square

instance : Inhabited Square := ⟨{}⟩

def fromChar (c : Char) : Square := { c := c }

def setC (s : Square) (c : Char) : Square := { s with c := c }

def setWide (s : Square) (w : Wide) : Square := { s with wide := w }

def styleId (s : Square) : StyleId := s.lo

def setStyleId (s : Square) (id : StyleId) : Square := { s with lo := id }

def extrasId (s : Square) : Option ExtrasId := if s.hi = 0 then none else some s.hi

def setExtrasId (s : Square) (id : Option ExtrasId) : Square := { s with hi := id.getD 0 }

/-- A cell that holds a background color only; the flags survive. -/
def setBgPalette (s : Square) (idx : UInt8) : Square :=
  { flags := s.flags, tag := .bgPalette, lo := idx.toUInt16 }

def setBgRgb (s : Square) (r g b : UInt8) : Square :=
  { flags := s.flags, tag := .bgRgb, lo := r.toUInt16 ||| (g.toUInt16 <<< 8)
    hi := b.toUInt16 }

def isBgOnly (s : Square) : Bool := s.tag != .codepoint

def clear (_ : Square) : Square := {}

def wrapline (s : Square) : Bool := s.flags.wrapline

def setWrapline (s : Square) (on : Bool) : Square :=
  { s with flags := { s.flags with wrapline := on } }

def hasExtras (s : Square) : Bool := s.extrasId.isSome

def isEmpty (s : Square) : Bool :=
  if s = {} then true
  else if s.isBgOnly then false
  else
    (s.c == '\x00' || s.c == '\t') && s.styleId == defaultStyleId && s.extrasId.isNone &&
      !s.flags.wrapline && s.wide == .narrow

/-- Reset the cell using a template, of which only the style id is kept. -/
def reset (_ template : Square) : Square := { lo := template.styleId }

instance : GridSquare Square where
  isEmpty := isEmpty
  reset := reset

end Square

structure Hyperlink where
  id : String
  uri : String
  deriving DecidableEq, Repr

structure TextureRef where
  id : ℕ
  width : UInt16
  height : UInt16
  cellHeight : ℕ
  deriving DecidableEq, Repr

/-- Graphic data stored in a single cell. -/
structure GraphicCell where
  texture : TextureRef
  offsetX : UInt16
  offsetY : UInt16
  deriving DecidableEq, Repr

/-- The rare data of a cell. -/
structure Extras where
  zerowidth : List Char := []
  hyperlink : Option Hyperlink := none
  graphic : Option (List GraphicCell) := none
  deriving DecidableEq, Repr, Inhabited

def Extras.isEmpty (e : Extras) : Bool :=
  e.zerowidth.isEmpty && e.hyperlink.isNone && e.graphic.isNone

/-- Slot table for extras. Index `0` stands for "no extras"; `freed` is the stack of slots for
reuse, next one first. -/
structure ExtrasTable where
  slots : List (Option Extras)
  freed : List ExtrasId
  deriving DecidableEq, Repr

namespace ExtrasTable

/-- Largest number of slots. -/
def maxSlots : ℕ := 65535

def new : ExtrasTable := ⟨[none], []⟩

def get (t : ExtrasTable) (id : ExtrasId) : Option Extras := (t.slots[id.toNat]?).join

/-- Write to an occupied slot. -/
def modify (t : ExtrasTable) (id : ExtrasId) (f : Extras → Extras) : ExtrasTable :=
  { t with slots := t.slots.modify id.toNat fun slot => slot.map f }

/-- The table with a new slot, and its id; id `0` if the table is full. -/
def alloc (t : ExtrasTable) (extras : Extras) : ExtrasTable × ExtrasId :=
  match t.freed with
  | id :: freed => ({ slots := t.slots.set id.toNat (some extras), freed := freed }, id)
  | [] =>
    if maxSlots ≤ t.slots.length then (t, 0)
    else ({ t with slots := t.slots ++ [some extras] }, UInt16.ofNat t.slots.length)

/-- Free a slot. -/
def free (t : ExtrasTable) (id : ExtrasId) : ExtrasTable :=
  if id = 0 then t
  else
    match t.slots[id.toNat]? with
    | some (some _) => ⟨t.slots.set id.toNat none, id :: t.freed⟩
    | _ => t

def clear (_ : ExtrasTable) : ExtrasTable := ⟨[none], []⟩

end ExtrasTable
end Rio
