import Rio.Kitty.Graphic
import Rio.Lib.Table

/-! What a kitty graphics command asks of the terminal, with the bookkeeping of transmissions
that come in chunks. -/

set_option linter.dupNamespace false

namespace Rio.Kitty

structure PlacementRequest where
  imageId : ℕ
  placementId : ℕ
  x : ℕ
  y : ℕ
  width : ℕ
  height : ℕ
  columns : ℕ
  rows : ℕ
  zIndex : ℤ
  virtualPlacement : Bool
  unicodePlaceholder : ℕ
  cursorMovement : ℕ
  deriving DecidableEq, Repr

structure DeleteRequest where
  action : UInt8
  imageId : ℕ
  imageNumber : ℕ
  placementId : ℕ
  x : ℕ
  y : ℕ
  zIndex : ℤ
  deleteData : Bool
  deriving DecidableEq, Repr

structure KittyGraphicsResponse where
  graphicData : Option GraphicData := none
  placementRequest : Option PlacementRequest := none
  deleteRequest : Option DeleteRequest := none
  response : Option (List Char) := none
  /-- A chunk was stored and more are to come. -/
  incomplete : Bool := false
  deriving DecidableEq, Repr

def KittyGraphicsResponse.pendingChunk : KittyGraphicsResponse := { incomplete := true }

/-- How long a transmission may wait for its next chunk: ten seconds in nanoseconds. -/
def chunkStaleTimeout : ℕ := 10 * 10 ^ 9

structure KittyGraphicsState where
  /-- Transmissions with chunks to come, by image id or number of the first chunk. -/
  incompleteImages : Table ℕ KittyGraphicsCommand := ∅
  /-- The key for chunks without an id or number; `0` for none. -/
  currentTransmissionKey : ℕ := 0
  nextAutoImageId : ℕ := 0

/-! ### Reading a command -/

def decodePayloadBase64 (codecs : Codecs) (payload : List UInt8) : Option (List UInt8) :=
  if payload = [] then some []
  else
    match codecs.standard payload with
    | some data => some data
    | none => codecs.standardNoPad payload

/-- A command without its payload. -/
def readControl (host : Host) (control : List UInt8) : Option KittyGraphicsCommand :=
  let cmd : KittyGraphicsCommand := { lastTouched := host.now }
  if control = [] then some cmd
  else
    let text := Utf8.fromUtf8 control
    if text.error = none then some (parseControlData cmd text.chars) else none

/-- The command of the parameters `G`, control data and payload. -/
def readCommand (codecs : Codecs) (host : Host) (params : List (List UInt8)) :
    Option KittyGraphicsCommand :=
  match params with
  | [0x47] :: rest =>
    match readControl host (rest.getD 0 []), decodePayloadBase64 codecs (rest.getD 1 []) with
    | some cmd, some payload => some { cmd with payload := payload }
    | _, _ => none
  | _ => none

namespace KittyGraphicsCommand

/-- A response that says a text and asks for nothing. -/
def reply (cmd : KittyGraphicsCommand) (message : String) (isError : Bool) :
    KittyGraphicsResponse :=
  { response := encodeResponseQuiet cmd.imageId cmd.imageNumber cmd.placementId message cmd.quiet
      isError }

/-- A reply that an image without an id from the client does not get. -/
def replyUnlessImplicit (cmd : KittyGraphicsCommand) (message : String) (isError : Bool) :
    KittyGraphicsResponse :=
  if cmd.implicitId then {} else cmd.reply message isError

/-- The response to the commands that take no part in transmissions: those that name an image
twice, and queries. -/
def earlyResponse (cmd : KittyGraphicsCommand) : Option KittyGraphicsResponse :=
  if 0 < cmd.imageId ∧ 0 < cmd.imageNumber then
    some (cmd.reply "EINVAL: image ID and number are mutually exclusive" true)
  else if cmd.action = .query then
    if cmd.imageId = 0 then some (cmd.reply "EINVAL: image ID required" true)
    else some (cmd.reply "OK" false)
  else none

def placement (cmd : KittyGraphicsCommand) : PlacementRequest :=
  { imageId := cmd.imageId
    placementId := cmd.placementId
    x := cmd.sourceX
    y := cmd.sourceY
    width := cmd.sourceWidth
    height := cmd.sourceHeight
    columns := cmd.columns
    rows := cmd.rows
    zIndex := cmd.zIndex
    virtualPlacement := cmd.virtualPlacement
    unicodePlaceholder := cmd.unicodePlaceholder
    cursorMovement := cmd.cursorMovement }

def isAsciiUppercase (b : UInt8) : Bool := 0x41 ≤ b && b ≤ 0x5A

def toAsciiLowercase (b : UInt8) : UInt8 := if isAsciiUppercase b then b + 0x20 else b

def deletion (cmd : KittyGraphicsCommand) : DeleteRequest :=
  { action := toAsciiLowercase cmd.deleteAction
    imageId := cmd.imageId
    imageNumber := cmd.imageNumber
    placementId := cmd.placementId
    x := cmd.sourceX
    y := cmd.sourceY
    zIndex := cmd.zIndex
    deleteData := isAsciiUppercase cmd.deleteAction }

/-- The response to a transmission, which asks to place the image if it is displayed too. -/
def transmission (codecs : Codecs) (host : Host) (cmd : KittyGraphicsCommand) :
    KittyGraphicsResponse :=
  match createGraphicData codecs host cmd with
  | .error err => cmd.replyUnlessImplicit err.message true
  | .ok graphic =>
    { cmd.replyUnlessImplicit "OK" false with
      graphicData := some graphic
      placementRequest := if cmd.action = .transmitAndDisplay then some cmd.placement else none }

/-- What a complete command asks for. -/
def dispatch (codecs : Codecs) (host : Host) (cmd : KittyGraphicsCommand) :
    KittyGraphicsResponse :=
  match cmd.action with
  | .transmit | .transmitAndDisplay => cmd.transmission codecs host
  | .put => { cmd.replyUnlessImplicit "OK" false with placementRequest := some cmd.placement }
  | .delete => { deleteRequest := some cmd.deletion }
  | .query => {}
  | .frame | .animate | .compose =>
    if cmd.implicitId then {}
    else
      let message := "EINVAL:unsupported action"
      let named := cmd.reply message true
      -- a bare response when there is no id at all
      if named.response = none ∧ cmd.quiet ≠ 2 then
        { response := some (apcResponse [] message.toList) }
      else named

end KittyGraphicsCommand

/-! ### Chunks -/

namespace KittyGraphicsState

def allocateImageId (s : KittyGraphicsState) : ℕ × KittyGraphicsState :=
  let id := if s.nextAutoImageId < 0x80000000 then 0x80000000 else s.nextAutoImageId
  (id, { s with nextAutoImageId := if id + 1 < 2 ^ 32 then id + 1 else 0x80000000 })

/-- The key of a command: its id or number, else that of the transmission in progress, else a
new id. -/
def imageKey (s : KittyGraphicsState) (cmd : KittyGraphicsCommand) :
    ℕ × KittyGraphicsCommand × KittyGraphicsState :=
  if 0 < cmd.imageId then (cmd.imageId, cmd, s)
  else if 0 < cmd.imageNumber then (cmd.imageNumber, cmd, s)
  else if s.currentTransmissionKey ≠ 0 then (s.currentTransmissionKey, cmd, s)
  else
    let (key, s) := s.allocateImageId
    (key, { cmd with imageId := key, implicitId := true }, s)

/-- Drop the transmissions that wait for too long. -/
def evictStaleChunks (s : KittyGraphicsState) (now : ℕ) : KittyGraphicsState :=
  let kept := s.incompleteImages.retain fun _ cmd => now - cmd.lastTouched < chunkStaleTimeout
  if kept.entries.length < s.incompleteImages.entries.length then
    { s with
      incompleteImages := kept
      currentTransmissionKey :=
        if s.currentTransmissionKey ∈ kept then s.currentTransmissionKey else 0 }
  else s

/-- Store a chunk with more to come. -/
def storeChunk (s : KittyGraphicsState) (now key : ℕ) (cmd : KittyGraphicsCommand) :
    Option KittyGraphicsResponse × KittyGraphicsState :=
  match s.incompleteImages.lookup key with
  | none =>
    (some .pendingChunk,
      { s with
        incompleteImages := s.incompleteImages.insert key { cmd with lastTouched := now }
        currentTransmissionKey := key })
  | some stored =>
    if maxSize < stored.payload.length + cmd.payload.length then
      (none,
        { s with
          incompleteImages := s.incompleteImages.erase key
          currentTransmissionKey := 0 })
    else
      (some .pendingChunk,
        { s with
          incompleteImages :=
            s.incompleteImages.insert key
              { stored with payload := stored.payload ++ cmd.payload, lastTouched := now }
          currentTransmissionKey := key })

/-- The complete command that a command without more chunks makes: itself, or the transmission
that it ends. -/
def takeCommand (s : KittyGraphicsState) (key : ℕ) (cmd : KittyGraphicsCommand) :
    Option KittyGraphicsCommand × KittyGraphicsState :=
  match s.incompleteImages.lookup key with
  | none => (some cmd, s)
  | some stored =>
    let s :=
      { s with
        incompleteImages := s.incompleteImages.erase key
        currentTransmissionKey := 0 }
    if maxSize < stored.payload.length + cmd.payload.length then (none, s)
    else (some { stored with payload := stored.payload ++ cmd.payload }, s)

end KittyGraphicsState

/-- Handle a command that takes part in transmissions. -/
def handleCommand (codecs : Codecs) (host : Host) (cmd : KittyGraphicsCommand)
    (s : KittyGraphicsState) : Option KittyGraphicsResponse × KittyGraphicsState :=
  let (key, cmd, s) := s.imageKey cmd
  let s := s.evictStaleChunks host.now
  if cmd.more then s.storeChunk host.now key cmd
  else
    let (cmd, s) := s.takeCommand key cmd
    (cmd.map (·.dispatch codecs host), s)

def parse (codecs : Codecs) (host : Host) (params : List (List UInt8))
    (s : KittyGraphicsState) : Option KittyGraphicsResponse × KittyGraphicsState :=
  match readCommand codecs host params with
  | none => (none, s)
  | some cmd =>
    match cmd.earlyResponse with
    | some response => (some response, s)
    | none => handleCommand codecs host cmd s

end Rio.Kitty
