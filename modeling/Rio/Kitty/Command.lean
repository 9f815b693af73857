import Rio.Lib.Utf8Stream

/-! Commands of the kitty graphics protocol, and how their control data is read. -/

set_option linter.dupNamespace false

namespace Rio.Kitty

inductive Action
  | transmit | transmitAndDisplay | query | put | delete | frame | animate | compose
  deriving DecidableEq, Repr

/-- The format of the pixels: 1, 2, 3 or 4 bytes each, or a PNG file. -/
inductive Format
  | gray | grayAlpha | rgb24 | rgba32 | png
  deriving DecidableEq, Repr

inductive TransmissionMedium
  | direct | file | tempFile | sharedMemory
  deriving DecidableEq, Repr

inductive Compression
  | none | zlib
  deriving DecidableEq, Repr

structure KittyGraphicsCommand where
  action : Action := .transmit
  quiet : ℕ := 0
  /-- The image id was assigned by the terminal. -/
  implicitId : Bool := false
  -- image transmission
  format : Format := .rgba32
  medium : TransmissionMedium := .direct
  width : ℕ := 0
  height : ℕ := 0
  size : ℕ := 0
  offset : ℕ := 0
  imageId : ℕ := 0
  imageNumber : ℕ := 0
  placementId : ℕ := 0
  compression : Compression := .none
  more : Bool := false
  -- image display
  sourceX : ℕ := 0
  sourceY : ℕ := 0
  sourceWidth : ℕ := 0
  sourceHeight : ℕ := 0
  cellXOffset : ℕ := 0
  cellYOffset : ℕ := 0
  columns : ℕ := 0
  rows : ℕ := 0
  cursorMovement : ℕ := 0
  virtualPlacement : Bool := false
  zIndex : ℤ := 0
  parentId : ℕ := 0
  parentPlacementId : ℕ := 0
  relativeX : ℤ := 0
  relativeY : ℤ := 0
  -- animation frame loading
  frameNumber : ℕ := 0
  baseFrame : ℕ := 0
  frameGap : ℤ := 0
  compositionMode : ℕ := 0
  backgroundColor : ℕ := 0
  -- animation control
  animationState : ℕ := 0
  loopCount : ℕ := 0
  currentFrame : ℕ := 0
  deleteAction : UInt8 := 0x61
  unicodePlaceholder : ℕ := 0
  /-- The payload, decoded. -/
  payload : List UInt8 := []
  /-- The time of the most recent chunk of this command. -/
  lastTouched : ℕ := 0
  deriving DecidableEq, Repr

/-! ### Numbers -/

/-- The value of decimal digits below `limit`, with the value of those before. -/
def decimalDigits (limit : ℕ) : ℕ → List Char → Option ℕ
  | value, [] => some value
  | value, c :: rest =>
    if c.isDigit ∧ value * 10 + (c.toNat - '0'.toNat) < limit then
      decimalDigits limit (value * 10 + (c.toNat - '0'.toNat)) rest
    else none

/-- An unsigned number below `limit`, with an optional plus sign. -/
def parseUnsigned (limit : ℕ) (value : List Char) : Option ℕ :=
  match value with
  | [] => none
  | ['+'] => none
  | '+' :: digits => decimalDigits limit 0 digits
  | digits => decimalDigits limit 0 digits

def parseU8 (value : List Char) : ℕ := (parseUnsigned (2 ^ 8) value).getD 0

def parseU32 (value : List Char) : ℕ := (parseUnsigned (2 ^ 32) value).getD 0

def parseI32 (value : List Char) : ℤ :=
  match value with
  | ['-'] => 0
  | '-' :: digits => -((decimalDigits (2 ^ 31 + 1) 0 digits).getD 0 : ℕ)
  | digits => ((parseUnsigned (2 ^ 31) digits).getD 0 : ℕ)

/-! ### Values -/

def parseAction (value : List Char) : Action :=
  match value with
  | ['t'] => .transmit
  | ['T'] => .transmitAndDisplay
  | ['q'] => .query
  | ['p'] => .put
  | ['d'] => .delete
  | ['f'] => .frame
  | ['a'] => .animate
  | ['c'] => .compose
  | _ => .transmit

def parseFormat (value : List Char) : Format :=
  match value with
  | ['8'] => .gray
  | ['1', '6'] => .grayAlpha
  | ['2', '4'] => .rgb24
  | ['3', '2'] => .rgba32
  | ['1', '0', '0'] => .png
  | _ => .rgba32

def parseTransmissionMedium (value : List Char) : TransmissionMedium :=
  match value with
  | ['d'] => .direct
  | ['f'] => .file
  | ['t'] => .tempFile
  | ['s'] => .sharedMemory
  | _ => .direct

def parseCompression (value : List Char) : Compression :=
  match value with
  | ['z'] => .zlib
  | _ => .none

/-! ### Control data -/

/-- The parts of a text between the occurrences of a character. -/
def splitOn (sep : Char) : List Char → List (List Char)
  | [] => [[]]
  | c :: rest =>
    if c = sep then [] :: splitOn sep rest
    else
      match splitOn sep rest with
      | [] => [[c]]
      | part :: parts => (c :: part) :: parts

/-- The parts of a text before and after the first occurrence of a character. -/
def splitOnce (sep : Char) : List Char → Option (List Char × List Char)
  | [] => none
  | c :: rest =>
    if c = sep then some ([], rest)
    else (splitOnce sep rest).map fun parts => (c :: parts.1, parts.2)

/-- The keys and values of control data. -/
def controlPairs (controlData : List Char) : List (List Char × List Char) :=
  (splitOn ',' controlData).filterMap (splitOnce '=')

/-- Set what a key stands for, which for some keys depends on the action. -/
def KittyGraphicsCommand.setKey (cmd : KittyGraphicsCommand) (key value : List Char) :
    KittyGraphicsCommand :=
  match key with
  | ['q'] => { cmd with quiet := parseU8 value }
  | ['f'] => { cmd with format := parseFormat value }
  | ['t'] => { cmd with medium := parseTransmissionMedium value }
  | ['s'] =>
    match cmd.action with
    | .animate => { cmd with animationState := parseU8 value }
    | _ => { cmd with width := parseU32 value }
  | ['v'] =>
    match cmd.action with
    | .animate => { cmd with loopCount := parseU32 value }
    | _ => { cmd with height := parseU32 value }
  | ['S'] => { cmd with size := parseU32 value }
  | ['O'] => { cmd with offset := parseU32 value }
  | ['i'] => { cmd with imageId := parseU32 value }
  | ['I'] => { cmd with imageNumber := parseU32 value }
  | ['p'] => { cmd with placementId := parseU32 value }
  | ['o'] => { cmd with compression := parseCompression value }
  | ['m'] => { cmd with more := value == ['1'] }
  | ['x'] => { cmd with sourceX := parseU32 value }
  | ['y'] => { cmd with sourceY := parseU32 value }
  | ['w'] => { cmd with sourceWidth := parseU32 value }
  | ['h'] => { cmd with sourceHeight := parseU32 value }
  | ['X'] =>
    match cmd.action with
    | .frame | .compose => { cmd with compositionMode := parseU8 value }
    | _ => { cmd with cellXOffset := parseU32 value }
  | ['Y'] =>
    match cmd.action with
    | .frame => { cmd with backgroundColor := parseU32 value }
    | _ => { cmd with cellYOffset := parseU32 value }
  | ['c'] =>
    match cmd.action with
    | .frame | .compose => { cmd with baseFrame := parseU32 value }
    | .animate => { cmd with currentFrame := parseU32 value }
    | _ => { cmd with columns := parseU32 value }
  | ['r'] =>
    match cmd.action with
    | .frame | .compose | .animate => { cmd with frameNumber := parseU32 value }
    | _ => { cmd with rows := parseU32 value }
  | ['z'] =>
    match cmd.action with
    | .frame | .animate => { cmd with frameGap := parseI32 value }
    | _ => { cmd with zIndex := parseI32 value }
  | ['C'] => { cmd with cursorMovement := parseU8 value }
  | ['U'] => { cmd with virtualPlacement := value == ['1'] }
  | ['P'] => { cmd with parentId := parseU32 value }
  | ['Q'] => { cmd with parentPlacementId := parseU32 value }
  | ['H'] => { cmd with relativeX := parseI32 value }
  | ['V'] => { cmd with relativeY := parseI32 value }
  | ['d'] =>
    { cmd with
      deleteAction :=
        match value with
        | [] => 0x61
        | c :: _ => (String.utf8EncodeChar c).headD 0x61 }
  | ['u'] => { cmd with unicodePlaceholder := parseU32 value }
  -- the action is already known, and unknown keys are ignored
  | _ => cmd

/-- Read control data in two passes: the action first, which gives other keys their meaning. -/
def parseControlData (cmd : KittyGraphicsCommand) (controlData : List Char) :
    KittyGraphicsCommand :=
  let pairs := controlPairs controlData
  let cmd :=
    match pairs.find? fun pair => pair.1 == ['a'] with
    | some pair => { cmd with action := parseAction pair.2 }
    | none => cmd
  pairs.foldl (fun cmd pair => cmd.setKey pair.1 pair.2) cmd

/-! ### Responses -/

/-- A text of ASCII characters as bytes, between `ESC _ G` and `ESC \`. -/
def apcResponse (keys message : List Char) : List Char :=
  ['\x1b', '_', 'G'] ++ keys ++ [';'] ++ message ++ ['\x1b', '\\']

/-- The response to a command that names an image; there is none without a name. -/
def encodeResponse (imageId imageNumber placementId : ℕ) (message : String) :
    Option (List Char) :=
  if imageId = 0 ∧ imageNumber = 0 then none
  else
    let key (name : Char) (n : ℕ) : List (List Char) :=
      if 0 < n then [name :: '=' :: (toString n).toList] else []
    let keys := key 'i' imageId ++ key 'I' imageNumber ++ key 'p' placementId
    some (apcResponse (List.intercalate [','] keys) message.toList)

/-- The response as far as `quiet` lets it through. -/
def encodeResponseQuiet (imageId imageNumber placementId : ℕ) (message : String) (quiet : ℕ)
    (isError : Bool) : Option (List Char) :=
  if quiet = 0 ∨ (quiet = 1 ∧ isError) then
    encodeResponse imageId imageNumber placementId message
  else none

end Rio.Kitty
