import Rio.Crosswords.Handler
import Rio.Window.Island

/-! The text of a row on its way to the screen: the runs of cells that are shaped together, and
the glyphs that are drawn for them. -/

set_option linter.dupNamespace false

namespace Rio.GridEmit

/-! ### Cells -/

/-- The styles that change the shapes of characters. -/
def shapingFlagMask : StyleFlags := StyleFlags.bold.insert StyleFlags.italic

def isRunBreaker (sq : Square) : Bool :=
  sq.isBgOnly || sq.c == '\x00' || Window.isWhitespace sq.c

/-- A placeholder shapes as a space, the image is drawn on top of it. -/
def shapeChar (ch : Char) : Char := if ch = Crosswords.kittyPlaceholder then ' ' else ch

def fontIdRegular : UInt32 := 0

/-- The font of a character, and whether it is for emoji. -/
def resolveFont (fontLibrary : Char → UInt8 → UInt32 × Bool) (ch : Char) (styleFlags : UInt8) :
    UInt32 × Bool :=
  if ch = Crosswords.kittyPlaceholder then (fontIdRegular, false)
  else if styleFlags = 0 ∧ ' ' ≤ ch ∧ ch ≤ '~' then (fontIdRegular, false)
  else fontLibrary ch styleFlags

/-- What is known of a row that is drawn. -/
structure RowText where
  row : Row Square
  cols : ℕ
  y : UInt16
  rowStyles : List Style
  fontLibrary : Char → UInt8 → UInt32 × Bool
  /-- The column of the cursor, if it is on this row. -/
  cursorCol : Option UInt16

/-! ### Runs -/

/-- How the length of a text is measured: CoreText counts UTF-16 code units, swash bytes. -/
inductive Platform
  | macos
  | other
  deriving DecidableEq, Repr

def utf16Len (ch : Char) : ℕ := if ch.toNat < 0x10000 then 1 else 2

def Platform.charLen : Platform → Char → ℕ
  | .macos => utf16Len
  | .other => Char.utf8Size

/-- The cells from `start` up to but not including `stop`, with their text and where the text of
each cell begins. -/
structure Run where
  start : ℕ
  stop : ℕ
  fontId : UInt32
  isEmoji : Bool
  styleFlags : UInt8
  text : List Char
  cellStarts : List ℕ
  deriving DecidableEq, Repr

namespace Run

/-- One more cell. -/
def push (platform : Platform) (r : Run) (ch : Char) : Run :=
  { r with
    stop := r.stop + 1
    text := r.text ++ [shapeChar ch]
    cellStarts := r.cellStarts ++ [(r.text.map platform.charLen).sum] }

end Run

namespace RowText

def styleFlags (t : RowText) (x : ℕ) : UInt8 :=
  ((t.rowStyles.getD x {}).flags.bits &&& shapingFlagMask.bits).toUInt8

/-- Runs are split around the cursor, where no combining characters follow. -/
def splitsAtCursor (t : RowText) (runStart stop : ℕ) : Bool :=
  !(t.row.cell stop).flags.grapheme && t.cursorCol.any fun cursorX =>
    (runStart == cursorX.toNat && stop == runStart + 1) ||
      (decide (runStart < cursorX.toNat) && stop == cursorX.toNat)

/-- Whether the next cell belongs to a run. -/
def joins (t : RowText) (r : Run) : Bool :=
  decide (r.stop < t.cols) && !isRunBreaker (t.row.cell r.stop) &&
    !t.splitsAtCursor r.start r.stop && t.styleFlags r.stop == r.styleFlags &&
      (resolveFont t.fontLibrary (t.row.cell r.stop).c r.styleFlags).1 == r.fontId

/-- Extend a run while font and style match. -/
def extendRun (platform : Platform) (t : RowText) : ℕ → Run → Run
  | 0, r => r
  | fuel + 1, r =>
    if t.joins r then extendRun platform t fuel (r.push platform (t.row.cell r.stop).c) else r

/-- Open a run. -/
def openRun (t : RowText) (x : ℕ) : Run :=
  let ch := (t.row.cell x).c
  let styleFlags := t.styleFlags x
  let (fontId, isEmoji) := resolveFont t.fontLibrary ch styleFlags
  ⟨x, x + 1, fontId, isEmoji, styleFlags, [shapeChar ch], [0]⟩

def runsFrom (platform : Platform) (t : RowText) : ℕ → ℕ → List Run
  | 0, _ => []
  | fuel + 1, x =>
    if x < t.cols then
      if isRunBreaker (t.row.cell x) then runsFrom platform t fuel (x + 1)
      else
        let r := t.extendRun platform (t.cols - (x + 1)) (t.openRun x)
        r :: runsFrom platform t fuel r.stop
    else []

def runs (platform : Platform) (t : RowText) : List Run := t.runsFrom platform t.cols 0

end RowText

/-! ### Glyphs -/

/-- A glyph of a shaped run, with the place in the text that it stands for. -/
structure ShapedGlyph where
  id : UInt16
  cluster : ℕ
  deriving DecidableEq, Repr

/-- Move on to the cell that a cluster is in. -/
def advanceCell (cellStarts : List ℕ) (cluster : ℕ) : ℕ → ℕ → ℕ
  | 0, cell => cell
  | fuel + 1, cell =>
    if cell + 1 < cellStarts.length ∧ cellStarts.getD (cell + 1) 0 ≤ cluster then
      advanceCell cellStarts cluster fuel (min (cell + 1) (2 ^ 16 - 1))
    else cell

/-- The glyphs with their cells, by the table of the cells. -/
def cellsByTable (cellStarts : List ℕ) : ℕ → List ShapedGlyph → List (UInt16 × ℕ)
  | _, [] => []
  | cell, g :: glyphs =>
    let cell := advanceCell cellStarts g.cluster cellStarts.length cell
    (g.id, cell) :: cellsByTable cellStarts cell glyphs

/-- Skip the characters before a cluster; `offset` is where the first of them begins. -/
def skipChars (cluster : ℕ) : ℕ → List Char → ℕ → ℕ × List Char × ℕ
  | offset, [], cell => (offset, [], cell)
  | offset, ch :: rest, cell =>
    if cluster ≤ offset then (offset, ch :: rest, cell)
    else skipChars cluster (offset + ch.utf8Size) rest (min (cell + 1) (2 ^ 16 - 1))

/-- The glyphs with their cells, by the characters of the text. -/
def cellsByChars : ℕ → List Char → ℕ → List ShapedGlyph → List (UInt16 × ℕ)
  | _, _, _, [] => []
  | offset, chars, cell, g :: glyphs =>
    let (offset, chars, cell) := skipChars g.cluster offset chars cell
    (g.id, cell) :: cellsByChars offset chars cell glyphs

/-- The glyphs of a run with the cells of the run that they belong to. -/
def glyphEmits (platform : Platform) (r : Run) (glyphs : List ShapedGlyph) : List (UInt16 × ℕ) :=
  match platform with
  | .macos => cellsByTable r.cellStarts 0 glyphs
  | .other => cellsByChars 0 r.text 0 glyphs

/-- Where a glyph is in the atlas, and how it is placed. -/
structure GlyphSlot where
  x : ℕ
  y : ℕ
  w : ℕ
  h : ℕ
  bearingX : ℤ
  bearingY : ℤ
  deriving DecidableEq, Repr

/-- A glyph on the screen, in a color of type `K`. -/
structure CellText (K : Type) where
  glyphPos : ℕ × ℕ
  glyphSize : ℕ × ℕ
  bearings : ℤ × ℤ
  gridPos : UInt16 × UInt16
  color : K
  atlasColor : Bool
  deriving DecidableEq, Repr

/-- What the rows of a window are drawn with: the shaper, the rasterizer, and the colors of the
text of a column. -/
structure Drawing (K : Type) where
  shape : UInt32 → UInt8 → List Char → Option (List ShapedGlyph)
  ensureGlyph : Run → UInt16 → Option (GlyphSlot × Bool)
  white : K
  fg : ℕ → K

namespace Drawing
variable {K : Type}

/-- A glyph in a column of the grid, with the color of another column; blank glyphs are left
out. -/
def glyphAt (d : Drawing K) (t : RowText) (r : Run) (id : UInt16) (gridCol : UInt16)
    (srcCol : ℕ) : Option (CellText K) :=
  match d.ensureGlyph r id with
  | none => none
  | some (slot, isColor) =>
    if slot.w = 0 ∨ slot.h = 0 then none
    else
      some
        { glyphPos := (slot.x, slot.y)
          glyphSize := (slot.w, slot.h)
          bearings := (slot.bearingX, slot.bearingY)
          gridPos := (gridCol, t.y)
          color := if isColor then d.white else d.fg srcCol
          atlasColor := isColor }

/-- Draw a glyph at the column of its cell. -/
def drawGlyph (d : Drawing K) (t : RowText) (r : Run) (emit : UInt16 × ℕ) :
    Option (CellText K) :=
  let gridCol := min (r.start % 2 ^ 16 + emit.2) (2 ^ 16 - 1)
  if t.cols ≤ gridCol then none
  else d.glyphAt t r emit.1 (.ofNat gridCol) (min (r.start + emit.2) (t.cols - 1))

def drawRun (d : Drawing K) (platform : Platform) (t : RowText) (r : Run)
    (glyphs : List ShapedGlyph) : List (CellText K) :=
  (glyphEmits platform r glyphs).filterMap (d.drawGlyph t r)

/-- The glyphs of a row; runs that cannot be shaped are left out. -/
def buildRowFg (d : Drawing K) (platform : Platform) (t : RowText) : List (CellText K) :=
  (t.runs platform).flatMap fun r =>
    match d.shape r.fontId r.styleFlags r.text with
    | some glyphs => d.drawRun platform t r glyphs
    | none => []

end Drawing
end Rio.GridEmit
