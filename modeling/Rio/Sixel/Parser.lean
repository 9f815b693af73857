import Rio.Crosswords.Handler
import Rio.Lib.Raster

/-! The parser of sixel graphics, and the picture that it draws. -/

set_option linter.dupNamespace false

namespace Rio.Sixel
open Rio.Checked Rio.Raster

inductive Error
  | tooBigImage (width height : ℕ)
  | invalidColorComponent (register componentValue : ℕ)
  | invalidColorCoordinateSystem (register coordinateSystem : ℕ)
  /-- Not an error of the parser, but what stops it. -/
  | fault (f : Fault)
  deriving DecidableEq, Repr

abbrev Result := Except Error

/-- A computation that is expected to run to its end. -/
def checked {α : Type} : Outcome α → Result α
  | .ok a => .ok a
  | .error f => .error (.fault f)

/-! ### Colors -/

def maxColorRegisters : ℕ := 1024

/-- The register for transparent pixels. -/
def regTransparent : ℕ := 2 ^ 16 - 1

def rgb (r g b max : ℕ) : ColorRgb :=
  if max = 255 then ⟨.ofNat r, .ofNat g, .ofNat b⟩
  else
    ⟨.ofNat ((r * 255 + max / 2) / max), .ofNat ((g * 255 + max / 2) / max),
      .ofNat ((b * 255 + max / 2) / max)⟩

/-- The color of a hue, a lightness and a saturation; with a saturation it is computed with
floating-point numbers. -/
def hlsToRgb (hls : ℕ → ℕ → ℕ → ColorRgb) (hue lum sat : ℕ) : ColorRgb :=
  if sat = 0 then rgb lum lum lum 100 else hls hue lum sat

/-! ### Commands -/

inductive SixelCommand
  | repeatIntroducer
  | setRasterAttributes
  | colorIntroducer
  | carriageReturn
  | nextLine
  deriving DecidableEq, Repr

def maxCommandParams : ℕ := 5

/-- Parser for commands found in the picture definition. -/
structure CommandParser where
  command : SixelCommand
  params : List ℕ
  paramsPosition : ℕ
  deriving DecidableEq, Repr

namespace CommandParser

def new (command : SixelCommand) : CommandParser :=
  ⟨command, List.replicate maxCommandParams 0, 0⟩

/-- A digit after a parameter that stays at the largest 16-bit number. -/
def digit (n : ℕ) (byte : UInt8) : ℕ :=
  min (min (n * 10) (2 ^ 16 - 1) + (byte.toNat - 0x30)) (2 ^ 16 - 1)

def put (c : CommandParser) (byte : UInt8) : CommandParser :=
  if c.paramsPosition < maxCommandParams then
    if 0x30 ≤ byte ∧ byte ≤ 0x39 then
      { c with params := c.params.modify c.paramsPosition (digit · byte) }
    else if byte = 0x3B then { c with paramsPosition := c.paramsPosition + 1 }
    else c
  else c

def param (c : CommandParser) (index : ℕ) : ℕ := c.params.getD index 0

/-- A component of a color, in its range. -/
def component (c : CommandParser) (index limit : ℕ) : Result ℕ :=
  if c.param index ≤ limit then .ok (c.param index)
  else .error (.invalidColorComponent (c.param 0) (c.param index))

/-- The color that a register is defined with, if it is. -/
def definedColor (hls : ℕ → ℕ → ℕ → ColorRgb) (c : CommandParser) : Result (Option ColorRgb) :=
  if c.paramsPosition < 4 then .ok none
  else if c.param 1 = 1 then do
    let hue ← c.component 2 360
    let lum ← c.component 3 100
    let sat ← c.component 4 100
    .ok (some (hlsToRgb hls hue lum sat))
  else if c.param 1 = 2 then do
    let r ← c.component 2 100
    let g ← c.component 3 100
    let b ← c.component 4 100
    .ok (some (rgb r g b 100))
  else .error (.invalidColorCoordinateSystem (c.param 0) (c.param 1))

end CommandParser

/-! ### Pictures -/

/-- How many rows are printed in a sixel, whose bits are its dots. -/
def height (sixel : ℕ) : ℕ := if sixel = 0 then 0 else sixel.log2 + 1

structure Parser where
  commandParser : Option CommandParser := none
  width : ℕ := 0
  height : ℕ := 0
  /-- The registers of the pixels, row by row. -/
  pixels : List ℕ := []
  background : ℕ := 0
  colorRegisters : List ColorRgb := []
  selectedColorRegister : ℕ := 0
  repeatCount : ℕ := 0
  x : ℕ := 0
  y : ℕ := 0
  deriving DecidableEq, Repr

namespace Parser

def setColorRegister (p : Parser) (register : ℕ) (color : ColorRgb) : Parser :=
  if maxColorRegisters ≤ register then p
  else
    let colorRegisters :=
      if p.colorRegisters.length ≤ register then
        resize p.colorRegisters (register + 1) ⟨0, 0, 0⟩
      else p.colorRegisters
    { p with colorRegisters := colorRegisters.set register color }

def initColorRegisters (p : Parser) : Parser :=
  ([rgb 0 0 0 100, rgb 20 20 80 100, rgb 80 13 13 100, rgb 20 80 20 100, rgb 80 20 80 100,
    rgb 20 80 80 100, rgb 80 80 20 100, rgb 53 53 53 100, rgb 26 26 26 100, rgb 33 33 60 100,
    rgb 60 26 26 100, rgb 33 60 33 100, rgb 60 33 60 100, rgb 33 60 60 100, rgb 60 60 33 100,
    rgb 80 80 80 100].zipIdx).foldl (fun p entry => p.setColorRegister entry.2 entry.1) p

/-- A parser with the parameters of the sequence, of which the second selects the background. -/
def new (params : List (List ℕ)) (sharedPalette : Option (List ColorRgb)) : Parser :=
  let ps2 := ((params[1]?).bind List.head?).getD 0
  let p : Parser := { background := if ps2 = 1 then regTransparent else 0 }
  match sharedPalette with
  | some colorRegisters => { p with colorRegisters := colorRegisters }
  | none => p.initColorRegisters

/-- Resize the picture if it is not big enough. -/
def ensureSize (p : Parser) (width height : ℕ) : Result Parser :=
  if width ≤ p.width ∧ height ≤ p.height then .ok p
  else if Crosswords.maxGraphicDimension < width ∨ Crosswords.maxGraphicDimension < height then
    .error (.tooBigImage width height)
  else if p.pixels = [] then
    .ok { p with
      width := width
      height := height
      pixels := List.replicate (width * height) p.background }
  else if width ≤ p.width then
    .ok { p with
      pixels := resize p.pixels (height * p.width) p.background
      height := height }
  else do
    let height := max height p.height
    let pixels ← checked (widen p.width width (resize p.pixels (height * width) p.background)
      p.height)
    .ok { p with pixels := pixels, width := width, height := height }

/-- Apply the active command. -/
def finish (hls : ℕ → ℕ → ℕ → ColorRgb) (p : Parser) (c : CommandParser) : Result Parser :=
  match c.command with
  | .repeatIntroducer => .ok { p with repeatCount := c.param 0 }
  | .setRasterAttributes =>
    if 3 ≤ c.paramsPosition then p.ensureSize (c.param 2) (c.param 3) else .ok p
  | .colorIntroducer => do
    let color ← c.definedColor hls
    let p := (color.map (p.setColorRegister (c.param 0))).getD p
    .ok { p with selectedColorRegister := c.param 0 }
  | .carriageReturn => .ok { p with x := 0 }
  | .nextLine => .ok { p with x := 0, y := p.y + 6 }

def finishCommand (hls : ℕ → ℕ → ℕ → ColorRgb) (p : Parser) : Result Parser :=
  match p.commandParser with
  | some c => { p with commandParser := none }.finish hls c
  | none => .ok p

def startCommand (hls : ℕ → ℕ → ℕ → ColorRgb) (p : Parser) (command : SixelCommand) :
    Result Parser := do
  let p ← p.finishCommand hls
  .ok { p with commandParser := some (.new command) }

/-- The pixels with the dots of a sixel in the selected color. -/
def drawDots (p : Parser) (sixel repeatCount : ℕ) : Outcome (List ℕ) :=
  if sixel = 0 then .ok p.pixels
  else
    (List.range 6).foldlM
      (fun pixels position =>
        if sixel.testBit position then
          overwrite pixels (p.width * p.y + p.x + position * p.width)
            (List.replicate repeatCount p.selectedColorRegister)
        else .ok pixels)
      p.pixels

/-- Add a sixel using the selected color register, and move the active position. -/
def addSixel (hls : ℕ → ℕ → ℕ → ColorRgb) (p : Parser) (sixel : ℕ) : Result Parser := do
  let p ← p.finishCommand hls
  -- a repeat count of zero implies one of one
  let repeatCount := max 1 p.repeatCount
  let p ← { p with repeatCount := 0 }.ensureSize (p.x + repeatCount) (p.y + Sixel.height sixel)
  let pixels ← checked (p.drawDots sixel repeatCount)
  .ok { p with pixels := pixels, x := p.x + repeatCount }

/-- The command that a byte starts. -/
def commandOf (byte : UInt8) : Option SixelCommand :=
  if byte = 0x21 then some .repeatIntroducer
  else if byte = 0x22 then some .setRasterAttributes
  else if byte = 0x23 then some .colorIntroducer
  else if byte = 0x24 then some .carriageReturn
  else if byte = 0x2D then some .nextLine
  else none

/-- Parse a byte. -/
def put (hls : ℕ → ℕ → ℕ → ColorRgb) (p : Parser) (byte : UInt8) : Result Parser :=
  match commandOf byte with
  | some command => p.startCommand hls command
  | none =>
    if (0x30 ≤ byte ∧ byte ≤ 0x39) ∨ byte = 0x3B then
      .ok { p with commandParser := p.commandParser.map (·.put byte) }
    else if 0x3F ≤ byte ∧ byte ≤ 0x7E then p.addSixel hls (byte.toNat - 0x3F)
    else p.finishCommand hls

def feed (hls : ℕ → ℕ → ℕ → ColorRgb) (p : Parser) (bytes : List UInt8) : Result Parser :=
  bytes.foldlM (put hls) p

end Parser
end Rio.Sixel
