import Rio.Kitty.Command

/-! The image that a kitty graphics command carries. -/

set_option linter.dupNamespace false

namespace Rio.Kitty

/-- Largest width and height of an image. -/
def maxDimension : ℕ := 10000

/-- Largest payload in bytes. -/
def maxSize : ℕ := 400 * 1024 * 1024

inductive ColorType
  | rgb | rgba
  deriving DecidableEq, Repr

inductive ResizeParameter
  | auto
  | cells (n : ℕ)
  | pixels (n : ℕ)
  | windowPercent (n : ℕ)
  deriving DecidableEq, Repr

structure ResizeCommand where
  width : ResizeParameter
  height : ResizeParameter
  preserveAspectRatio : Bool
  deriving DecidableEq, Repr

structure GraphicData where
  id : ℕ
  width : ℕ
  height : ℕ
  colorType : ColorType
  pixels : List UInt8
  isOpaque : Bool
  resize : Option ResizeCommand
  displayWidth : Option ℕ
  displayHeight : Option ℕ
  transmitTime : ℕ
  deriving DecidableEq, Repr

inductive GraphicError
  | dimensionsTooLarge | dimensionsRequired | tooLarge | unsupportedFormat | unsupportedMedium
  | invalidData | decompressionFailed | fileNotFound
  deriving DecidableEq, Repr

def GraphicError.message : GraphicError → String
  | .dimensionsTooLarge => "EINVAL: dimensions too large"
  | .dimensionsRequired => "EINVAL: dimensions required"
  | .tooLarge => "E2BIG: image too large"
  | .unsupportedFormat => "EINVAL: unsupported format"
  | .unsupportedMedium => "EINVAL: unsupported medium"
  | .invalidData => "EINVAL: invalid data"
  | .decompressionFailed => "EINVAL: decompression failed"
  | .fileNotFound => "ENOENT: file not found"

/-! ### What is not decided here -/

/-- The decoders of other libraries. -/
structure Codecs where
  /-- Base64 with canonical padding, and without padding. -/
  standard : List UInt8 → Option (List UInt8)
  standardNoPad : List UInt8 → Option (List UInt8)
  /-- The bytes behind compressed data, up to a limit. -/
  inflate : ℕ → List UInt8 → Option (List UInt8)
  /-- Width, height and RGBA pixels of a PNG file. -/
  decodePng : List UInt8 → Option (ℕ × ℕ × List UInt8)

/-- A shared memory object: its size, and a part of it by offset and length. -/
structure SharedMemory where
  size : Option ℕ
  map : ℕ → ℕ → Option (List UInt8)

/-- What the host says while one command is handled: the time, in nanoseconds, its files and
its shared memory. -/
structure Host where
  now : ℕ
  isFile : List Char → Bool
  openFile : List Char → Option (List UInt8)
  openShm : List Char → Option SharedMemory

/-! ### The payload -/

def asText (payload : List UInt8) : Except GraphicError (List Char) :=
  let parsed := Utf8.fromUtf8 payload
  if parsed.error = none then .ok parsed.chars else .error .invalidData

def containsText (part text : List Char) : Bool :=
  text.tails.any fun rest => part.isPrefixOf rest

/-- The bytes of the file that the payload names. -/
def readFile (host : Host) (cmd : KittyGraphicsCommand) : Except GraphicError (List UInt8) := do
  let path ← asText cmd.payload
  if !host.isFile path then throw .fileNotFound
  -- sensitive paths
  let lower := path.map Char.toLower
  if containsText "/proc/".toList lower || containsText "/sys/".toList lower ||
      containsText "/dev/".toList lower then throw .invalidData
  if cmd.medium = .tempFile ∧ !containsText "tty-graphics-protocol".toList path then
    throw .invalidData
  if maxSize < cmd.size then throw .tooLarge
  match host.openFile path with
  | none => throw .fileNotFound
  | some contents =>
    if 0 < cmd.size then
      let data := (contents.drop cmd.offset).take cmd.size
      if data.length < cmd.size then throw .invalidData
      return data
    else
      if maxSize < contents.length then throw .tooLarge
      return contents

/-- The bytes of the shared memory object that the payload names. -/
def readSharedMemory (host : Host) (cmd : KittyGraphicsCommand) :
    Except GraphicError (List UInt8) := do
  let name ← asText cmd.payload
  if '\x00' ∈ name then throw .invalidData
  match host.openShm name with
  | none => throw .fileNotFound
  | some shm =>
    match shm.size with
    | none => throw .invalidData
    | some shmSize =>
      let dataSize := if 0 < cmd.size then cmd.size else shmSize
      if shmSize < dataSize then throw .invalidData
      if maxSize < dataSize then throw .tooLarge
      match shm.map cmd.offset dataSize with
      | none => throw .invalidData
      | some data => return data

/-- The bytes that a command transmits, by its medium. -/
def rawData (host : Host) (cmd : KittyGraphicsCommand) : Except GraphicError (List UInt8) :=
  match cmd.medium with
  | .direct => if maxSize < cmd.payload.length then .error .tooLarge else .ok cmd.payload
  | .file | .tempFile => readFile host cmd
  | .sharedMemory => readSharedMemory host cmd

def decompress (codecs : Codecs) (cmd : KittyGraphicsCommand) (data : List UInt8) :
    Except GraphicError (List UInt8) :=
  match cmd.compression with
  | .none => .ok data
  | .zlib =>
    match codecs.inflate (maxSize + 1) data with
    | none => .error .decompressionFailed
    | some decompressed =>
      if maxSize < decompressed.length then .error .tooLarge else .ok decompressed

/-! ### Pixels -/

/-- Every pixel has full alpha. -/
def opaquePixels : List UInt8 → Bool
  | _ :: _ :: _ :: a :: rest => a == 255 && opaquePixels rest
  | _ => true

def grayToRgba : List UInt8 → List UInt8
  | g :: rest => g :: g :: g :: 255 :: grayToRgba rest
  | [] => []

def grayAlphaToRgba : List UInt8 → List UInt8
  | g :: a :: rest => g :: g :: g :: a :: grayAlphaToRgba rest
  | _ => []

def rgbToRgba : List UInt8 → List UInt8
  | r :: g :: b :: rest => r :: g :: b :: 255 :: rgbToRgba rest
  | _ => []

/-- The size to show an image at, from the columns and rows of the command: stretched to both,
or fitted to the one that is given. -/
def resizeCommand (columns rows : ℕ) : Option ResizeCommand :=
  if 0 < columns ∨ 0 < rows then
    some
      { width := if 0 < columns then .cells columns else .auto
        height := if 0 < rows then .cells rows else .auto
        preserveAspectRatio := !(0 < columns && 0 < rows) }
  else none

def pngGraphic (codecs : Codecs) (host : Host) (cmd : KittyGraphicsCommand)
    (data : List UInt8) : Except GraphicError GraphicData :=
  match codecs.decodePng data with
  | none => .error .invalidData
  | some (width, height, pixels) =>
    if maxDimension < width ∨ maxDimension < height then .error .dimensionsTooLarge
    else
      .ok
        { id := cmd.imageId
          width := width
          height := height
          colorType := .rgba
          pixels := pixels
          isOpaque := opaquePixels pixels
          resize := resizeCommand cmd.columns cmd.rows
          displayWidth := none
          displayHeight := none
          transmitTime := host.now }

/-- Bytes of a pixel, and the RGBA pixels with their opacity. -/
def pixelFormat : Format → ℕ × (List UInt8 → List UInt8 × Bool)
  | .gray => (1, fun data => (grayToRgba data, true))
  | .grayAlpha =>
    (2, fun data => (grayAlphaToRgba data, opaquePixels (grayAlphaToRgba data)))
  | .rgb24 => (3, fun data => (rgbToRgba data, true))
  | .rgba32 | .png => (4, fun data => (data, opaquePixels data))

def pixelGraphic (host : Host) (cmd : KittyGraphicsCommand) (data : List UInt8) :
    Except GraphicError GraphicData :=
  let (bytesPerPixel, convert) := pixelFormat cmd.format
  if cmd.width = 0 ∨ cmd.height = 0 then .error .dimensionsRequired
  else
    let expectedSize := cmd.width * cmd.height * bytesPerPixel
    if maxSize < expectedSize then .error .tooLarge
    else if data.length < expectedSize then .error .invalidData
    else
      -- there may be more, such as the padding of shared memory
      let (pixels, isOpaque) := convert (data.take expectedSize)
      .ok
        { id := cmd.imageId
          width := cmd.width
          height := cmd.height
          colorType := .rgba
          pixels := pixels
          isOpaque := isOpaque
          resize := resizeCommand cmd.columns cmd.rows
          displayWidth := none
          displayHeight := none
          transmitTime := host.now }

def createGraphicData (codecs : Codecs) (host : Host) (cmd : KittyGraphicsCommand) :
    Except GraphicError GraphicData :=
  if cmd.format ≠ .png ∧ (maxDimension < cmd.width ∨ maxDimension < cmd.height) then
    .error .dimensionsTooLarge
  else
    match rawData host cmd with
    | .error err => .error err
    | .ok raw =>
      match decompress codecs cmd raw with
      | .error err => .error err
      | .ok data =>
        match cmd.format with
        | .png => pngGraphic codecs host cmd data
        | _ => pixelGraphic host cmd data

/-! ### The image keeps the command's id -/

theorem pngGraphic_id {codecs : Codecs} {host : Host} {cmd : KittyGraphicsCommand}
    {data : List UInt8} {g : GraphicData} (h : pngGraphic codecs host cmd data = .ok g) :
    g.id = cmd.imageId := by
  unfold pngGraphic at h
  split at h
  · cases h
  · split at h
    · cases h
    · cases h
      rfl

theorem pixelGraphic_id {host : Host} {cmd : KittyGraphicsCommand} {data : List UInt8}
    {g : GraphicData} (h : pixelGraphic host cmd data = .ok g) : g.id = cmd.imageId := by
  unfold pixelGraphic at h
  dsimp only at h
  by_cases hempty : cmd.width = 0 ∨ cmd.height = 0
  · rw [if_pos hempty] at h
    cases h
  rw [if_neg hempty] at h
  generalize cmd.width * cmd.height * (pixelFormat cmd.format).1 = expectedSize at h
  by_cases hlarge : maxSize < expectedSize
  · rw [if_pos hlarge] at h
    cases h
  by_cases hshort : data.length < expectedSize
  · rw [if_neg hlarge, if_pos hshort] at h
    cases h
  · rw [if_neg hlarge, if_neg hshort] at h
    cases h
    rfl

theorem createGraphicData_id {codecs : Codecs} {host : Host} {cmd : KittyGraphicsCommand}
    {g : GraphicData} (h : createGraphicData codecs host cmd = .ok g) : g.id = cmd.imageId := by
  unfold createGraphicData at h
  by_cases hlarge : cmd.format ≠ .png ∧ (maxDimension < cmd.width ∨ maxDimension < cmd.height)
  · rw [if_pos hlarge] at h
    cases h
  rw [if_neg hlarge] at h
  cases hraw : rawData host cmd with
  | error err =>
    rw [hraw] at h
    cases h
  | ok raw =>
    rw [hraw] at h
    dsimp only at h
    cases hdata : decompress codecs cmd raw with
    | error err =>
      rw [hdata] at h
      cases h
    | ok data =>
      rw [hdata] at h
      dsimp only at h
      split at h
      · exact pngGraphic_id h
      · exact pixelGraphic_id h

end Rio.Kitty
