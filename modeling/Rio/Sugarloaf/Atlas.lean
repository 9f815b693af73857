import Rio.Lib.Raster
import Rio.Lib.Table

/-! The glyph atlas of the software renderer: shelves in which rectangles are allocated, and the
pixels of the glyphs in them. -/

set_option linter.dupNamespace false

namespace Rio.Sugarloaf
open Rio.Checked Rio.Raster

/-! ### The allocator -/

structure Shelf where
  /-- Where the next rectangle goes. -/
  x : ℕ
  y : ℕ
  /-- What remains. -/
  width : ℕ
  height : ℕ
  deriving DecidableEq, Repr

structure AtlasAllocator where
  width : ℕ
  height : ℕ
  shelves : List Shelf := []
  deriving DecidableEq, Repr

/-- Addition of 16-bit numbers that stays at the largest one. -/
def saturatingAdd (a b : ℕ) : ℕ := min (a + b) (2 ^ 16 - 1)

/-- The single-precision number next to a tenth. -/
def wasteLimit : ℚ := 13421773 / 134217728

namespace AtlasAllocator
variable (quotient : ℕ → ℕ → ℚ)

/-- The part of a shelf that is wasted above a rectangle, with division as a parameter; without
one for a shelf of no height. -/
def calculateWasteRatio (shelf : Shelf) (height : ℕ) : Option ℚ :=
  if shelf.height = 0 then none else some (quotient (shelf.height - height) shelf.height)

/-- The best of the shelves so far, with its score, after one more. -/
def betterShelf (width height : ℕ) (best : Option (ℚ × ℕ × ℕ × ℕ)) (entry : Shelf × ℕ) :
    Option (ℚ × ℕ × ℕ × ℕ) :=
  let (shelf, i) := entry
  if width ≤ shelf.width ∧ height ≤ shelf.height then
    match calculateWasteRatio quotient shelf height with
    | none => best
    | some wasteRatio =>
      -- a bonus for an exact match
      let score := if shelf.height = height then wasteRatio - 1 else wasteRatio
      if (best.all fun b => score < b.1) ∧ wasteRatio ≤ wasteLimit then
        some (score, i, shelf.x, shelf.y)
      else best
  else best

/-- The best shelf for a rectangle, and the position on it. -/
def findBestShelf (a : AtlasAllocator) (width height : ℕ) : Option (ℕ × ℕ × ℕ) :=
  (a.shelves.zipIdx.foldl (betterShelf quotient width height) none).map (·.2)

def findNextYPosition (a : AtlasAllocator) : ℕ :=
  (a.shelves.map fun shelf => saturatingAdd shelf.y shelf.height).foldl max 0

def createNewShelf (a : AtlasAllocator) (width height : ℕ) : Option (ℕ × ℕ) × AtlasAllocator :=
  let y := a.findNextYPosition
  if a.height < saturatingAdd y height then (none, a)
  else (some (0, y), { a with shelves := a.shelves ++ [⟨width, y, a.width - width, height⟩] })

/-- Allocate a rectangle, if possible, with padding to the right and below. -/
def allocate (a : AtlasAllocator) (width height : ℕ) :
    Outcome (Option (ℕ × ℕ) × AtlasAllocator) :=
  let paddedWidth := saturatingAdd width 1
  let paddedHeight := saturatingAdd height 1
  if a.width < paddedWidth then .ok (none, a)
  else
    match a.findBestShelf quotient paddedWidth paddedHeight with
    | some (i, x, y) => do
      let shelf ← read a.shelves i
      let next ← fit 16 (shelf.x + paddedWidth)
      .ok (some (x, y),
        { a with
          shelves := a.shelves.set i { shelf with x := next, width := shelf.width - paddedWidth } })
    | none => .ok (a.createNewShelf paddedWidth paddedHeight)

def growTo (a : AtlasAllocator) (newWidth newHeight : ℕ) : AtlasAllocator :=
  { a with width := newWidth, height := newHeight }

end AtlasAllocator

/-! ### The atlas -/

structure GlyphKey where
  fontId : ℕ
  glyphId : ℕ
  sizeBucket : ℕ
  deriving DecidableEq, Repr

structure AtlasSlot where
  x : ℕ
  y : ℕ
  w : ℕ
  h : ℕ
  bearingX : ℤ
  bearingY : ℤ
  deriving DecidableEq, Repr

/-- A bitmap of pixels of some bytes, row by row without gaps. -/
structure RasterizedGlyph (bytesPerPixel : ℕ) where
  width : ℕ
  height : ℕ
  bearingX : ℤ
  bearingY : ℤ
  bytes : List UInt8
  packed : bytes.length = height * (width * bytesPerPixel)

/-- The atlas for pixels of some bytes: one for grayscale masks, four for colors. -/
structure CpuGridAtlas (bytesPerPixel : ℕ) where
  pixels : List UInt8
  side : ℕ
  allocator : AtlasAllocator
  slots : Table GlyphKey AtlasSlot := ∅

namespace CpuGridAtlas

def atlasSize : ℕ := 1024

def atlasMaxSize : ℕ := 4096

variable {bytesPerPixel : ℕ}

def new (bytesPerPixel : ℕ) : CpuGridAtlas bytesPerPixel :=
  { pixels := List.replicate (atlasSize * atlasSize * bytesPerPixel) 0
    side := atlasSize
    allocator := { width := atlasSize, height := atlasSize } }

def lookup (c : CpuGridAtlas bytesPerPixel) (key : GlyphKey) : Option AtlasSlot :=
  c.slots.lookup key

def writePixels (c : CpuGridAtlas bytesPerPixel) (x y w h : ℕ) (src : List UInt8) :
    Outcome (List UInt8) :=
  blit (c.side * bytesPerPixel) (x * bytesPerPixel) y (w * bytesPerPixel) h src c.pixels

/-- Put a glyph into the atlas; one without pixels takes no place. -/
def insert (quotient : ℕ → ℕ → ℚ) (c : CpuGridAtlas bytesPerPixel) (key : GlyphKey)
    (glyph : RasterizedGlyph bytesPerPixel) :
    Outcome (Option AtlasSlot × CpuGridAtlas bytesPerPixel) :=
  if glyph.width = 0 ∨ glyph.height = 0 then
    let slot := ⟨0, 0, 0, 0, glyph.bearingX, glyph.bearingY⟩
    .ok (some slot, { c with slots := c.slots.insert key slot })
  else do
    let (place, allocator) ← c.allocator.allocate quotient glyph.width glyph.height
    match place with
    | none => .ok (none, { c with allocator := allocator })
    | some (x, y) =>
      let slot := ⟨x, y, glyph.width, glyph.height, glyph.bearingX, glyph.bearingY⟩
      let pixels ← c.writePixels x y glyph.width glyph.height glyph.bytes
      .ok (some slot,
        { c with pixels := pixels, allocator := allocator, slots := c.slots.insert key slot })

/-- Double the side, with the old pixels in the top left corner, unless it is at its largest. -/
def grow (c : CpuGridAtlas bytesPerPixel) : Outcome (Bool × CpuGridAtlas bytesPerPixel) :=
  let oldW := c.allocator.width
  let oldH := c.allocator.height
  let newSide := min (min (oldW * 2) (2 ^ 16 - 1)) atlasMaxSize
  if atlasMaxSize ≤ oldW then .ok (false, c)
  else if newSide ≤ oldW then .ok (false, c)
  else do
    let pixels ← blit (newSide * bytesPerPixel) 0 0 (oldW * bytesPerPixel) oldH c.pixels
      (List.replicate (newSide * newSide * bytesPerPixel) 0)
    .ok (true,
      { c with pixels := pixels, side := newSide, allocator := c.allocator.growTo newSide newSide })

/-- The bytes at a slot, row by row. -/
def readSlot (c : CpuGridAtlas bytesPerPixel) (slot : AtlasSlot) : List UInt8 :=
  readRect (c.side * bytesPerPixel) (slot.x * bytesPerPixel) slot.y (slot.w * bytesPerPixel) slot.h
    c.pixels

end CpuGridAtlas

/-! ### Runs -/

inductive AtlasOp (bytesPerPixel : ℕ)
  | insert (key : GlyphKey) (glyph : RasterizedGlyph bytesPerPixel)
  | lookup (key : GlyphKey)
  | grow

/-- A slot that was handed out, with the glyph that it is for. -/
structure Handed (bytesPerPixel : ℕ) where
  key : GlyphKey
  slot : AtlasSlot
  glyph : RasterizedGlyph bytesPerPixel

namespace AtlasOp
variable {bytesPerPixel : ℕ}

/-- An operation on an atlas, with the slots that were handed out, the latest first. -/
def step (quotient : ℕ → ℕ → ℚ)
    (s : CpuGridAtlas bytesPerPixel × List (Handed bytesPerPixel)) :
    AtlasOp bytesPerPixel → Outcome (CpuGridAtlas bytesPerPixel × List (Handed bytesPerPixel))
  | insert key glyph => do
    let (slot, c) ← s.1.insert quotient key glyph
    match slot with
    | some slot => .ok (c, ⟨key, slot, glyph⟩ :: s.2)
    | none => .ok (c, s.2)
  | lookup _ => .ok s
  | grow => do
    let (_, c) ← s.1.grow
    .ok (c, s.2)

def run (quotient : ℕ → ℕ → ℚ) (ops : List (AtlasOp bytesPerPixel)) :
    Outcome (CpuGridAtlas bytesPerPixel × List (Handed bytesPerPixel)) :=
  ops.foldlM (step quotient) (CpuGridAtlas.new bytesPerPixel, [])

end AtlasOp
end Rio.Sugarloaf
