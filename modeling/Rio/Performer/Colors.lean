import Rio.Crosswords.State
import Rio.Lib.Checked
import Rio.Lib.Utf8Stream

/-! Colors and numbers in the parameters of escape sequences. -/

set_option linter.dupNamespace false

namespace Rio.Performer
open Rio.Checked

/-- The bytes of an ASCII text. -/
def bytes (text : List Char) : List UInt8 := text.map fun c => UInt8.ofNat c.toNat

/-- A slice as text, if it is valid. -/
def fromUtf8Fast (slice : List UInt8) : Option (List Char) :=
  let parsed := Utf8.fromUtf8 slice
  if parsed.error = none then some parsed.chars else none

def hexDigit (b : UInt8) : Option ℕ :=
  if 0x30 ≤ b ∧ b ≤ 0x39 then some (b.toNat - 0x30)
  else if 0x41 ≤ b ∧ b ≤ 0x46 then some (b.toNat - 0x41 + 10)
  else if 0x61 ≤ b ∧ b ≤ 0x66 then some (b.toNat - 0x61 + 10)
  else none

/-- The digits of a number below `limit`, with the value of those before. -/
def hexDigits (limit : ℕ) : ℕ → List UInt8 → Option ℕ
  | value, [] => some value
  | value, b :: rest =>
    match hexDigit b with
    | none => none
    | some digit =>
      if value * 16 + digit < limit then hexDigits limit (value * 16 + digit) rest else none

/-- `from_str_radix` with radix `16`: a sign is allowed, digits are required. -/
def fromStrRadix (limit : ℕ) (text : List UInt8) : Option ℕ :=
  let digits := if text.head? = some 0x2B then text.tail else text
  if digits = [] then none else hexDigits limit 0 digits

/-- The pieces between the separators. -/
def split (separator : UInt8) : List UInt8 → List (List UInt8)
  | [] => [[]]
  | b :: rest =>
    if b = separator then [] :: split separator rest
    else
      match split separator rest with
      | [] => [[b]]
      | piece :: pieces => (b :: piece) :: pieces

/-- Scale values instead of filling with `0`s. -/
def scale (input : List UInt8) : Outcome (Option UInt8) :=
  if 4 < input.length then .ok none
  else do
    let power ← fit 32 (16 ^ input.length)
    let max ← sub power 1
    match fromStrRadix (2 ^ 32) input with
    | none => return none
    | some value =>
      let product ← fit 32 (255 * value)
      let scaled ← div product max
      return some (UInt8.ofNat scaled)

/-- Parse colors in `rgb:r(rrr)/g(ggg)/b(bbb)` format. -/
def parseRgbColor (color : List UInt8) : Outcome (Option ColorRgb) :=
  if fromUtf8Fast color = none then .ok none
  else
    let colors := split 0x2F color
    if colors.length ≠ 3 then .ok none
    else do
      let some r ← scale (← read colors 0) | return none
      let some g ← scale (← read colors 1) | return none
      let some b ← scale (← read colors 2) | return none
      return some ⟨r, g, b⟩

/-- Truncate/Fill to two byte precision. -/
def colorFromSlice (slice : List UInt8) : Outcome (Option UInt8) :=
  match fromStrRadix (2 ^ 64) slice with
  | none => .ok none
  | some value => do
    let col ← shiftRight 64 ((value <<< 4) % 2 ^ 64) (4 * (slice.length - 1))
    return some (UInt8.ofNat col)

/-- Parse colors in `#r(rrr)g(ggg)b(bbb)` format. -/
def parseLegacyColor (color : List UInt8) : Outcome (Option ColorRgb) := do
  let itemLen := color.length / 3
  let some r ← colorFromSlice (← slice color 0 itemLen) | return none
  let some g ← colorFromSlice (← slice color itemLen (itemLen * 2)) | return none
  let some b ← colorFromSlice (← sliceFrom color (itemLen * 2)) | return none
  return some ⟨r, g, b⟩

def xparseColor (color : List UInt8) : Outcome (Option ColorRgb) :=
  if color.head? = some 0x23 then do parseLegacyColor (← sliceFrom color 1)
  else if 4 ≤ color.length ∧ color.take 4 = bytes ['r', 'g', 'b', ':'] then do
    parseRgbColor (← sliceFrom color 4)
  else .ok none

/-- Decimal digits of a number below 256, with the value of those before. -/
def decimalDigits : ℕ → List UInt8 → Option UInt8
  | num, [] => some (UInt8.ofNat num)
  | num, b :: rest =>
    if 0x30 ≤ b ∧ b ≤ 0x39 then
      if num * 10 + (b.toNat - 0x30) < 256 then decimalDigits (num * 10 + (b.toNat - 0x30)) rest
      else none
    else none

def parseNumber (input : List UInt8) : Option UInt8 :=
  if input = [] then none else decimalDigits 0 input

/-! ### Colors of the graphic rendition -/

/-- The first value of the next parameter, and the parameters behind it. -/
def nextParam : List (List UInt16) → Outcome (Option UInt16 × List (List UInt16))
  | [] => .ok (none, [])
  | param :: rest => do
    let value ← read param 0
    return (some value, rest)

/-- The next parameter as a byte, if there is one and it fits. -/
def nextByte (params : List (List UInt16)) :
    Outcome (Option UInt8 × List (List UInt16)) := do
  let (value, rest) ← nextParam params
  return (value.bind fun n => if n.toNat < 256 then some (UInt8.ofNat n.toNat) else none, rest)

/-- The color, and the parameters behind what was read of it. -/
def parseSgrColor (params : List (List UInt16)) :
    Outcome (Option AnsiColor × List (List UInt16)) := do
  match ← nextParam params with
  | (some 2, rest) =>
    match ← nextByte rest with
    | (none, rest) => return (none, rest)
    | (some r, rest) =>
      match ← nextByte rest with
      | (none, rest) => return (none, rest)
      | (some g, rest) =>
        match ← nextByte rest with
        | (none, rest) => return (none, rest)
        | (some b, rest) => return (some (.spec r g b), rest)
  | (some 5, rest) =>
    match ← nextByte rest with
    | (none, rest) => return (none, rest)
    | (some i, rest) => return (some (.indexed i), rest)
  | (_, rest) => return (none, rest)

def handleColonRgb (params : List UInt16) : Outcome (Option AnsiColor) := do
  let rgbStart := if 4 < params.length then 2 else 1
  let rgb ← sliceFrom params rgbStart
  let kind ← read params 0
  let (color, _) ← parseSgrColor ((kind :: rgb).map fun value => [value])
  return color

/-- The eight colors of a row of the palette. -/
def paletteColor (colors : List NamedColor) (n : ℕ) : Option AnsiColor :=
  colors[n]?.map .named

def normalColors : List NamedColor :=
  [.black, .red, .green, .yellow, .blue, .magenta, .cyan, .white]

def lightColors : List NamedColor :=
  [.lightBlack, .lightRed, .lightGreen, .lightYellow, .lightBlue, .lightMagenta, .lightCyan,
    .lightWhite]

/-- Attributes of one number. -/
def attrOfCode (n : ℕ) : Option Attr :=
  match n with
  | 0 => some .reset
  | 1 => some .bold
  | 2 => some .dim
  | 3 => some .italic
  | 5 => some .blinkSlow
  | 6 => some .blinkFast
  | 7 => some .reverse
  | 8 => some .hidden
  | 9 => some .strike
  | 21 => some .cancelBold
  | 22 => some .cancelBoldDim
  | 23 => some .cancelItalic
  | 24 => some .cancelUnderline
  | 25 => some .cancelBlink
  | 27 => some .cancelReverse
  | 28 => some .cancelHidden
  | 29 => some .cancelStrike
  | 39 => some (.foreground (.named .foreground))
  | 49 => some (.background (.named .background))
  | 59 => some (.underlineColor none)
  | _ =>
    if 30 ≤ n ∧ n ≤ 37 then (paletteColor normalColors (n - 30)).map .foreground
    else if 40 ≤ n ∧ n ≤ 47 then (paletteColor normalColors (n - 40)).map .background
    else if 90 ≤ n ∧ n ≤ 97 then (paletteColor lightColors (n - 90)).map .foreground
    else if 100 ≤ n ∧ n ≤ 107 then (paletteColor lightColors (n - 100)).map .background
    else none

/-- The underline attributes, by what follows the `4`. -/
def underlineAttr (style : List UInt16) : Attr :=
  if style = [0] then .cancelUnderline
  else if style = [2] then .doubleUnderline
  else if style = [3] then .undercurl
  else if style = [4] then .dottedUnderline
  else if style = [5] then .dashedUnderline
  else .underline

/-- The attributes that take a color. -/
def colorAttr (code : UInt16) : Option (AnsiColor → Attr) :=
  if code = 38 then some .foreground
  else if code = 48 then some .background
  else if code = 58 then some fun color => .underlineColor (some color)
  else none

/-- The attribute of a parameter and the parameters behind it; a color behind `38`, `48` or `58`
is taken from the parameters that follow, or from the subparameters. -/
def sgrAttr (param : List UInt16) (rest : List (List UInt16)) :
    Outcome (Option Attr × List (List UInt16)) :=
  match param with
  | [] => .ok (none, rest)
  | 4 :: style => .ok (some (underlineAttr style), rest)
  | code :: sub =>
    match colorAttr code with
    | none => .ok (if sub = [] then attrOfCode code.toNat else none, rest)
    | some attr =>
      if sub = [] then do
        let (color, rest) ← parseSgrColor rest
        return (color.map attr, rest)
      else do
        let color ← handleColonRgb sub
        return (color.map attr, rest)

/-- The attributes of a sequence; what is not one is `none`. -/
def attrsFromSgrParameters : ℕ → List (List UInt16) → Outcome (List (Option Attr))
  | 0, _ => .ok []
  | _ + 1, [] => .ok []
  | fuel + 1, param :: rest => do
    let (attr, rest) ← sgrAttr param rest
    let attrs ← attrsFromSgrParameters fuel rest
    return attr :: attrs

end Rio.Performer
