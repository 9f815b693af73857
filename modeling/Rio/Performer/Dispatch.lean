import Rio.Copa.Parser
import Rio.Crosswords.Ops
import Rio.Performer.Colors

/-! The dispatchers: what a sequence asks of the terminal. A reply, a title, a clipboard access
and the like are actions; everything on the screen is an operation of the terminal. -/

set_option linter.dupNamespace false

namespace Rio.Performer
open Rio.Checked

inductive ScpCharPath
  | default | ltr | rtl
  deriving DecidableEq, Repr

inductive ScpUpdateMode
  | implementationDependant | dataToPresentation | presentationToData
  deriving DecidableEq, Repr

inductive CursorShape
  | block | underline | beam
  deriving DecidableEq, Repr

inductive ProgressState
  | remove | set | error | indeterminate | pause
  deriving DecidableEq, Repr

/-- What a sequence asks for. -/
inductive Action
  | op (op : Op)
  | setTitle (title : List Char)
  | pushTitle
  | popTitle
  | dynamicColorSequence (code : List Char) (index : ℕ) (bellTerminated : Bool)
  | setCurrentDirectory (path : List Char)
  | openHyperlink (id : Option (List Char)) (uri : List Char)
  | setProgressReport (state : ProgressState) (progress : Option UInt8)
  | desktopNotification (title body : List Char)
  | setMouseCursorIcon (icon : ℕ)
  | setCursorShape (shape : CursorShape)
  | setCursorStyle (shape : Option CursorShape) (blinking : Bool)
  | clipboardLoad (clipboard : UInt8) (bellTerminated : Bool)
  | clipboardStore (clipboard : UInt8) (base64 : List UInt8)
  | insertImage (values : List (List Char × List Char)) (contents : List UInt8)
  | unknownMode (mode : UInt16)
  | setSyncTimeout
  | reportMode (mode : UInt16)
  | reportPrivateMode (mode : UInt16)
  | reportVersion
  | reportKeyboardMode
  | identifyTerminal (intermediate : Option UInt8)
  | deviceStatus (arg : ℕ)
  | textAreaSizePixels
  | cellsSizePixels
  | textAreaSizeChars
  | graphicsAttribute (item action : ℕ)
  | setTabs (interval : ℕ)
  | setScp (charPath : ScpCharPath) (updateMode : ScpUpdateMode)
  | sixelGraphicStart (background : UInt16)
  | startXtgettcap
  | bell
  | substitute
  deriving DecidableEq, Repr

/-- Parsers of other libraries that the dispatchers call. -/
structure External where
  /-- The path of a URL. -/
  urlPath : List Char → Option (List Char)
  /-- The number of a cursor icon by its name. -/
  cursorIcon : List UInt8 → Option ℕ

/-! ### Operating system commands -/

def isWhitespace (c : Char) : Bool :=
  (0x09 ≤ c.toNat && c.toNat ≤ 0x0D) || c.toNat ∈ [0x20, 0x85, 0xA0, 0x1680] ||
    (0x2000 ≤ c.toNat && c.toNat ≤ 0x200A) || c.toNat ∈ [0x2028, 0x2029, 0x202F, 0x205F, 0x3000]

def trim (text : List Char) : List Char :=
  ((text.dropWhile isWhitespace).reverse.dropWhile isWhitespace).reverse

/-- Text, or no text if it is not valid. -/
def textOrEmpty (slice : List UInt8) : List Char := (fromUtf8Fast slice).getD []

def oscTitle (params : List (List UInt8)) : Outcome (List Action) := do
  let titles ← sliceFrom params 1
  return [.setTitle (trim (List.intercalate [';'] (titles.filterMap fromUtf8Fast)))]

/-- The chunks of two of a list. -/
def chunks : List (List UInt8) → List (List (List UInt8))
  | [] => []
  | [x] => [[x]]
  | x :: y :: rest => [x, y] :: chunks rest

def decimal (n : ℕ) : List Char := (Nat.toDigits 10 n)

def oscColor (bellTerminated : Bool) (chunk : List (List UInt8)) : Outcome (List Action) := do
  match parseNumber (← read chunk 0) with
  | none => return []
  | some index =>
    match ← xparseColor (← read chunk 1) with
    | some c => return [.op (.setColor index.toNat c)]
    | none =>
      if (← read chunk 1) = bytes ['?'] then
        return [.dynamicColorSequence (['4', ';'] ++ decimal index.toNat) index.toNat
          bellTerminated]
      else return []

def oscColors (bellTerminated : Bool) (params : List (List UInt8)) : Outcome (List Action) :=
  if params.length ≤ 1 ∨ params.length % 2 = 0 then .ok []
  else do collect (oscColor bellTerminated) (chunks (← sliceFrom params 1))

def oscDirectory (env : External) (params : List (List UInt8)) : Outcome (List Action) := do
  match fromUtf8Fast (← read params 1) with
  | none => return []
  | some url =>
    match env.urlPath url with
    | none => return []
    | some path => return [.setCurrentDirectory path]

/-- The value of the key `id` in `key1=value1:key2=value2`. -/
def linkId (params : List UInt8) : Option (List Char) :=
  match (split 0x3A params).find? fun kv => kv.take 3 = bytes ['i', 'd', '='] with
  | none => none
  | some kv => fromUtf8Fast (kv.drop 3)

def oscHyperlink (params : List (List UInt8)) : Outcome (List Action) := do
  let linkParams ← read params 1
  let uri := textOrEmpty (← read params 2)
  if uri = [] then return [.op (.setHyperlink none)]
  else return [.openHyperlink (linkId linkParams) uri]

def progressState (state : List UInt8) : Option ProgressState :=
  if state = bytes ['0'] then some .remove
  else if state = bytes ['1'] then some .set
  else if state = bytes ['2'] then some .error
  else if state = bytes ['3'] then some .indeterminate
  else if state = bytes ['4'] then some .pause
  else none

/-- The progress report of a notification sequence, if it is one. -/
def oscProgress (params : List (List UInt8)) : Outcome (Option Action) :=
  if 3 ≤ params.length then do
    if (← read params 1) = bytes ['4'] then
      match progressState (← read params 2) with
      | none => return none
      | some state =>
        if 4 ≤ params.length then
          let progress := parseNumber (← read params 3)
          return some (.setProgressReport state (progress.map fun p => min p 100))
        else return some (.setProgressReport state none)
    else return none
  else .ok none

def oscNotification (params : List (List UInt8)) : Outcome (List Action) := do
  match ← oscProgress params with
  | some report => return [report]
  | none =>
    if 2 ≤ params.length then
      let body := textOrEmpty (← read params 1)
      return [.desktopNotification [] body]
    else return []

def oscRxvtNotification (params : List (List UInt8)) : Outcome (List Action) :=
  if 4 ≤ params.length then do
    if (← read params 1) = bytes ['n', 'o', 't', 'i', 'f', 'y'] then
      let title := textOrEmpty (← read params 2)
      let body := textOrEmpty (← read params 3)
      return [.desktopNotification title body]
    else return []
  else .ok []

/-- A dynamic color is set or asked for. -/
def dynamicColor (bellTerminated : Bool) (dynamicCode index : ℕ) (param : List UInt8) :
    Option ColorRgb → List Action
  | some color => [.op (.setColor index color)]
  | none =>
    if param = bytes ['?'] then
      [.dynamicColorSequence (decimal dynamicCode) index bellTerminated]
    else []

/-- The dynamic colors from the one numbered `dynamicCode` on; `10` is the foreground. -/
def dynamicColors (bellTerminated : Bool) : ℕ → List (List UInt8) → Outcome (List Action)
  | _, [] => .ok []
  | dynamicCode, param :: rest => do
    let offset ← sub dynamicCode 10
    let index := NamedColor.foreground.toNat + offset
    if NamedColor.cursor.toNat < index then return []
    else
      let color ← xparseColor param
      let next ← fit 8 (dynamicCode + 1)
      let more ← dynamicColors bellTerminated next rest
      return dynamicColor bellTerminated dynamicCode index param color ++ more

def oscDynamicColors (bellTerminated : Bool) (params : List (List UInt8)) :
    Outcome (List Action) :=
  if 2 ≤ params.length then do
    match parseNumber (← read params 0) with
    | none => return []
    | some dynamicCode =>
      dynamicColors bellTerminated dynamicCode.toNat (← sliceFrom params 1)
  else .ok []

def oscMouseCursor (env : External) (params : List (List UInt8)) : Outcome (List Action) := do
  match env.cursorIcon (← read params 1) with
  | none => return []
  | some icon => return [.setMouseCursorIcon icon]

def cursorShapeCode : List Char := ['C', 'u', 'r', 's', 'o', 'r', 'S', 'h', 'a', 'p', 'e', '=']

def oscCursorShape (params : List (List UInt8)) : Outcome (List Action) :=
  if 2 ≤ params.length then do
    let param ← read params 1
    if 13 ≤ param.length then
      if (← slice param 0 12) = bytes cursorShapeCode then
        let shape ← read param 12
        if shape = 0x30 then return [.setCursorShape .block]
        else if shape = 0x31 then return [.setCursorShape .beam]
        else if shape = 0x32 then return [.setCursorShape .underline]
        else return []
      else return []
    else return []
  else .ok []

def oscClipboard (bellTerminated : Bool) (params : List (List UInt8)) : Outcome (List Action) :=
  if params.length < 3 then .ok []
  else do
    let clipboard := (← read params 1).headD 0x63
    let base64 ← read params 2
    if base64 = bytes ['?'] then return [.clipboardLoad clipboard bellTerminated]
    else return [.clipboardStore clipboard base64]

def oscResetColors (params : List (List UInt8)) : Outcome (List Action) := do
  if params.length = 1 then
    return (List.range 256).map fun i => .op (.resetColor i)
  else if (← read params 1) = [] then
    return (List.range 256).map fun i => .op (.resetColor i)
  else
    let indexes := (← sliceFrom params 1).filterMap parseNumber
    return indexes.map fun index => .op (.resetColor index.toNat)

/-- The parts of a slice before and from a position on, cut behind the byte there. -/
def splitBehind (text : List UInt8) (separator : ℕ) :
    Outcome (List UInt8 × List UInt8) := do
  let behind ← sliceFrom (text.drop separator) 1
  return (text.take separator, behind)

/-- One parameter of an inline image: its key and value, and the file contents behind the last
value. -/
def imageValue (last : Bool) (param : List UInt8) :
    Outcome (Option (List UInt8 × List UInt8) × Option (List UInt8)) :=
  match param.findIdx? (· == 0x3D) with
  | none => .ok (none, none)
  | some separator => do
    let (key, value) ← splitBehind param separator
    if last then
      match value.findIdx? (· == 0x3A) with
      | none => return (some (key, value), none)
      | some separator => do
        let (value, contents) ← splitBehind value separator
        return (some (key, value), some contents)
    else return (some (key, value), none)

/-- The entries as text, where they are. -/
def imageEntry (entry : List UInt8 × List UInt8) : Option (List Char × List Char) := do
  let key ← fromUtf8Fast entry.1
  let value ← fromUtf8Fast entry.2
  return (key, value)

/-- The key-value pairs of the parameters, and the file contents of the last one. -/
def imageValues : List (List UInt8) →
    Outcome (List (List Char × List Char) × Option (List UInt8))
  | [] => .ok ([], none)
  | param :: rest => do
    let (entry, contents) ← imageValue (rest = []) param
    let (entries, last) ← imageValues rest
    return ((entry.bind imageEntry).toList ++ entries, contents.or last)

def fileCode : List Char := ['F', 'i', 'l', 'e', '=']

/-- Extract parameter values. -/
def paramValues (params : List (List UInt8)) :
    Outcome (Option (List (List Char × List Char) × List UInt8)) :=
  match params.drop 1 with
  | [] => .ok none
  | param :: rest =>
    if param.take 5 = bytes fileCode then do
      let first ← sliceFrom param 5
      let (values, contents) ← imageValues (first :: rest)
      return contents.map fun contents => (values, contents)
    else .ok none

/-- An inline image. A key given twice has its last value. -/
def oscImage (params : List (List UInt8)) : Outcome (List Action) := do
  match ← paramValues params with
  | none => return []
  | some (values, contents) =>
    if (values.reverse.lookup ['i', 'n', 'l', 'i', 'n', 'e']) = some ['1'] then
      return [.insertImage values contents]
    else return []

def oscDispatch (env : External) (params : List (List UInt8)) (bellTerminated : Bool) :
    Outcome (List Action) :=
  if params = [] then .ok []
  else do
    let code ← read params 0
    if code = [] then return []
    else if code = bytes ['0'] ∨ code = bytes ['2'] then
      if 2 ≤ params.length then oscTitle params else return []
    else if code = bytes ['4'] then oscColors bellTerminated params
    else if code = bytes ['7'] then oscDirectory env params
    else if code = bytes ['8'] ∧ 2 < params.length then oscHyperlink params
    else if code = bytes ['9'] then oscNotification params
    else if code = bytes ['7', '7', '7'] then oscRxvtNotification params
    else if code = bytes ['1', '0'] ∨ code = bytes ['1', '1'] ∨ code = bytes ['1', '2'] then
      oscDynamicColors bellTerminated params
    else if code = bytes ['2', '2'] ∧ params.length = 2 then oscMouseCursor env params
    else if code = bytes ['5', '0'] then oscCursorShape params
    else if code = bytes ['5', '2'] then oscClipboard bellTerminated params
    else if code = bytes ['1', '0', '4'] then oscResetColors params
    else if code = bytes ['1', '1', '0'] then
      return [.op (.resetColor NamedColor.foreground.toNat)]
    else if code = bytes ['1', '1', '1'] then
      return [.op (.resetColor NamedColor.background.toNat)]
    else if code = bytes ['1', '1', '2'] then
      return [.op (.resetColor NamedColor.cursor.toNat)]
    else if code = bytes ['1', '3', '3', '7'] then oscImage params
    else return []

/-! ### Control sequences -/

/-- The first value of the next parameter, or the default for a missing parameter and for
zero. -/
def nextParamOr (default : ℕ) : List (List UInt16) → ℕ
  | (param :: _) :: _ => if param = 0 then default else param.toNat
  | _ => default

def NamedMode.new (mode : UInt16) : Option NamedMode :=
  if mode = 4 then some .insert else if mode = 20 then some .lineFeedNewLine else none

/-- The private modes by number. -/
def privateModes : List (UInt16 × NamedPrivateMode) :=
  [(1, .cursorKeys), (3, .columnMode), (6, .origin), (7, .lineWrap), (12, .blinkingCursor),
    (25, .showCursor), (1000, .reportMouseClicks), (1002, .reportCellMouseMotion),
    (1003, .reportAllMouseMotion), (1004, .reportFocusInOut), (1005, .utf8Mouse),
    (1006, .sgrMouse), (1007, .alternateScroll), (1042, .urgencyHints),
    (1049, .swapScreenAndSetRestoreCursor), (2004, .bracketedPaste), (2026, .syncUpdate),
    (9001, .win32InputMode)]

def PrivateMode.new (mode : UInt16) : PrivateMode :=
  match privateModes.lookup mode with
  | some named => .named named
  | none => .unknown mode

/-- The first values of all parameters. -/
def firstValues (params : List (List UInt16)) : Outcome (List UInt16) :=
  collect (fun param => do return [← read param 0]) params

def setMode (set : NamedMode → Op) (mode : UInt16) : Action :=
  match NamedMode.new mode with
  | some named => .op (set named)
  | none => .unknownMode mode

/-- Synchronized updates are also told to the processor. -/
def setPrivateMode (mode : UInt16) : List Action :=
  let set := .op (.setPrivateMode (PrivateMode.new mode))
  if mode = 2026 then [.setSyncTimeout, set] else [set]

def clearMode (n : ℕ) : Option ClearMode := [.below, .above, .all, .saved][n]?

def lineClearMode (n : ℕ) : Option LineClearMode := [.right, .left, .all][n]?

def tabulationClearMode (n : ℕ) : Option TabulationClearMode :=
  if n = 0 then some .current else if n = 3 then some .all else none

def csiScrollingRegion (params : List (List UInt16)) : Outcome (List Action) := do
  let top := nextParamOr 1 params
  let bottom ← match params.drop 1 with
    | [] => .ok none
    | param :: _ => do
      let bottom ← read param 0
      .ok (if bottom = 0 then none else some bottom.toNat)
  return [.op (.setScrollingRegion top bottom)]

def csiAttributes (params : List (List UInt16)) : Outcome (List Action) :=
  if params = [] then .ok [.op (.terminalAttribute .reset)]
  else do
    let attrs ← attrsFromSgrParameters params.length params
    return (attrs.filterMap id).map fun attr => .op (.terminalAttribute attr)

def csiWindow (n : ℕ) : List Action :=
  if n = 14 then [.textAreaSizePixels]
  else if n = 16 then [.cellsSizePixels]
  else if n = 18 then [.textAreaSizeChars]
  else if n = 22 then [.pushTitle]
  else if n = 23 then [.popTitle]
  else []

/-- Sequences without intermediates. -/
def csiPlain (preceding : Option Char) (params : List (List UInt16)) (action : Char) :
    Outcome (List Action) :=
  let n := nextParamOr 1 params
  if action = '@' then .ok [.op (.insertBlank n)]
  else if action = 'A' then .ok [.op (.moveUp n)]
  else if action = 'B' ∨ action = 'e' then .ok [.op (.moveDown n)]
  else if action = 'b' then
    match preceding with
    | some c => .ok (List.replicate n (.op (.input c)))
    | none => .ok []
  else if action = 'C' ∨ action = 'a' then .ok [.op (.moveForward n)]
  else if action = 'D' then .ok [.op (.moveBackward n)]
  else if action = 'd' then .ok [.op (.gotoLine (n - 1))]
  else if action = 'E' then .ok [.op (.moveDownAndCr n)]
  else if action = 'F' then .ok [.op (.moveUpAndCr n)]
  else if action = 'G' ∨ action = '\x60' then do return [.op (.gotoCol (← sub n 1))]
  else if action = 'g' then
    .ok ((tabulationClearMode (nextParamOr 0 params)).toList.map fun mode => .op (.clearTabs mode))
  else if action = 'H' ∨ action = 'f' then do
    let x ← sub (nextParamOr 1 (params.drop 1)) 1
    return [.op (.goto (n - 1) x)]
  else if action = 'h' then do return (← firstValues params).map (setMode .setMode)
  else if action = 'I' then .ok [.op (.moveForwardTabs n)]
  else if action = 'J' then
    .ok ((clearMode (nextParamOr 0 params)).toList.map fun mode => .op (.clearScreen mode))
  else if action = 'K' then
    .ok ((lineClearMode (nextParamOr 0 params)).toList.map fun mode => .op (.clearLine mode))
  else if action = 'L' then .ok [.op (.insertBlankLines n)]
  else if action = 'l' then do return (← firstValues params).map (setMode .unsetMode)
  else if action = 'M' then .ok [.op (.deleteLines n)]
  else if action = 'm' then csiAttributes params
  else if action = 'n' then .ok [.deviceStatus (nextParamOr 0 params)]
  else if action = 'P' then .ok [.op (.deleteChars n)]
  else if action = 'r' then csiScrollingRegion params
  else if action = 'S' then .ok [.op (.scrollUp n)]
  else if action = 's' then .ok [.op .saveCursorPosition]
  else if action = 'T' then .ok [.op (.scrollDown n)]
  else if action = 't' then .ok (csiWindow n)
  else if action = 'u' then .ok [.op .restoreCursorPosition]
  else if action = 'X' then .ok [.op (.eraseChars n)]
  else if action = 'Z' then .ok [.op (.moveBackwardTabs n)]
  else .ok []

/-- The character path and update mode of the SCP control. -/
def csiScp (params : List (List UInt16)) : List Action :=
  match [.default, .ltr, .rtl][nextParamOr 0 params]?,
    [.implementationDependant, .dataToPresentation,
      .presentationToData][nextParamOr 0 (params.drop 1)]? with
  | some charPath, some updateMode => [.setScp charPath updateMode]
  | _, _ => []

def csiCursorStyle (id : ℕ) : List Action :=
  let blinking := id % 2 == 1
  if id = 0 then [.setCursorStyle none blinking]
  else if id = 1 ∨ id = 2 then [.setCursorStyle (some .block) blinking]
  else if id = 3 ∨ id = 4 then [.setCursorStyle (some .underline) blinking]
  else if id = 5 ∨ id = 6 then [.setCursorStyle (some .beam) blinking]
  else []

/-- The bits of a keyboard mode, cut to a byte and to the known bits. -/
def keyboardModes (n : ℕ) : UInt8 := UInt8.ofNat n &&& 0x1F

def keyboardModesApplyBehavior (n : ℕ) : KeyboardModesApplyBehavior :=
  if n = 3 then .difference else if n = 2 then .union else .replace

/-- Sequences with intermediates, but for `c`. -/
def csiIntermediate (params : List (List UInt16)) (intermediates : List UInt8) (action : Char) :
    Outcome (List Action) :=
  let n := nextParamOr 0 params
  if intermediates = bytes ['?'] then
    if action = 'W' then .ok (if n = 5 then [.setTabs 8] else [])
    else if action = 'h' then do return (← firstValues params).flatMap setPrivateMode
    else if action = 'l' then do
      return (← firstValues params).map fun mode =>
        .op (.unsetPrivateMode (PrivateMode.new mode))
    else if action = 'S' then .ok [.graphicsAttribute n (nextParamOr 0 (params.drop 1))]
    else if action = 'u' then .ok [.reportKeyboardMode]
    else .ok []
  else if intermediates = bytes [' '] then
    if action = 'k' then .ok (csiScp params)
    else if action = 'q' then .ok (csiCursorStyle n)
    else .ok []
  else if intermediates = bytes ['$'] then
    if action = 'p' then .ok [.reportMode (UInt16.ofNat n)] else .ok []
  else if intermediates = bytes ['?', '$'] then
    if action = 'p' then .ok [.reportPrivateMode (UInt16.ofNat n)] else .ok []
  else if intermediates = bytes ['>'] then
    if action = 'q' then .ok (if n = 0 then [.reportVersion] else [])
    else if action = 'u' then .ok [.op (.pushKeyboardMode (keyboardModes n))]
    else .ok []
  else if intermediates = bytes ['='] then
    if action = 'u' then
      .ok [.op (.setKeyboardMode (keyboardModes n)
        (keyboardModesApplyBehavior (nextParamOr 1 (params.drop 1))))]
    else .ok []
  else if intermediates = bytes ['<'] then
    if action = 'u' then .ok [.op (.popKeyboardModes (nextParamOr 1 params))] else .ok []
  else .ok []

def csiDispatch (preceding : Option Char) (params : List (List UInt16))
    (intermediates : List UInt8) (shouldIgnore : Bool) (action : UInt8) :
    Outcome (List Action) :=
  let action := Char.ofNat action.toNat
  if shouldIgnore = true ∨ 2 < intermediates.length then .ok []
  else if action = 'c' then
    .ok (if nextParamOr 0 params = 0 then [.identifyTerminal intermediates.head?] else [])
  else if intermediates = [] then csiPlain preceding params action
  else csiIntermediate params intermediates action

/-! ### Escape sequences, device control strings, and characters -/

/-- The charset a sequence designates. -/
def charsetIndex (intermediates : List UInt8) : Option CharsetIndex :=
  if intermediates = bytes ['('] then some .g0
  else if intermediates = bytes [')'] then some .g1
  else if intermediates = bytes ['*'] then some .g2
  else if intermediates = bytes ['+'] then some .g3
  else none

def configureCharset (charset : StandardCharset) (intermediates : List UInt8) : List Action :=
  (charsetIndex intermediates).toList.map fun index => .op (.configureCharset index charset)

def escDispatch (intermediates : List UInt8) (byte : UInt8) : Outcome (List Action) :=
  let action := Char.ofNat byte.toNat
  if action = 'B' then .ok (configureCharset .ascii intermediates)
  else if action = '0' then .ok (configureCharset .specialCharacterAndLineDrawing intermediates)
  else if intermediates = [] then
    if action = 'D' then .ok [.op .linefeed]
    else if action = 'E' then .ok [.op .linefeed, .op .carriageReturn]
    else if action = 'H' then .ok [.op .setHorizontalTabstop]
    else if action = 'M' then .ok [.op .reverseIndex]
    else if action = 'Z' then .ok [.identifyTerminal none]
    else if action = 'c' then .ok [.op .resetState]
    else if action = '7' then .ok [.op .saveCursorPosition]
    else if action = '8' then .ok [.op .restoreCursorPosition]
    else if action = '=' then .ok [.op .setKeypadApplicationMode]
    else if action = '>' then .ok [.op .unsetKeypadApplicationMode]
    else .ok []
  else if action = '8' ∧ intermediates = bytes ['#'] then .ok [.op .decaln]
  else .ok []

/-- The start of a device control string. The sixel parser takes its background selector from
the second parameter. -/
def hook (params : List (List UInt16)) (intermediates : List UInt8) (action : UInt8) :
    Outcome (List Action) :=
  if action = 0x71 ∧ intermediates = [] then
    .ok [.sixelGraphicStart ((params[1]?.bind List.head?).getD 0)]
  else if action = 0x71 ∧ intermediates = bytes ['+'] then .ok [.startXtgettcap]
  else .ok []

def execute (byte : UInt8) : List Action :=
  if byte = 0x09 then [.op (.putTab 1)]
  else if byte = 0x08 then [.op .backspace]
  else if byte = 0x0D then [.op .carriageReturn]
  else if byte = 0x0A ∨ byte = 0x0B ∨ byte = 0x0C then [.op .linefeed]
  else if byte = 0x07 then [.bell]
  else if byte = 0x1A then [.substitute]
  else if byte = 0x0F then [.op (.setActiveCharset .g0)]
  else if byte = 0x0E then [.op (.setActiveCharset .g1)]
  else []

end Rio.Performer
