import Rio.Crosswords.Ops
import Rio.Kitty.Store

/-! A terminal with its graphics: what kitty commands and atlas graphics do to both. -/

set_option linter.dupNamespace false

namespace Rio.Kitty

structure Terminal where
  crosswords : Crosswords
  graphics : Graphics := {}

/-- The sizes that are computed with floating-point numbers: a length scaled by a quotient, and
a size fitted into another with its proportions kept. -/
structure Scaling where
  proportion : ℕ → ℕ → ℕ → ℕ
  fit : ℕ × ℕ → ℕ × ℕ → ℕ × ℕ

/-- What is not decided by the terminal. -/
structure Outside where
  codecs : Codecs
  scaling : Scaling
  unicode : Unicode

/-! ### Sizes -/

def ResizeParameter.length (p : ResizeParameter) (cell view : ℕ) : ℕ :=
  match p with
  | .auto => 1
  | .pixels n => n
  | .cells n => n * cell
  | .windowPercent n => n * view / 100

/-- The size at which to show a graphic. -/
def GraphicData.computeDisplayDimensions (scaling : Scaling) (g : GraphicData)
    (cellWidth cellHeight viewWidth viewHeight : ℕ) : ℕ × ℕ :=
  match g.resize with
  | none => (g.width, g.height)
  | some resize =>
    if (resize.width = .auto ∧ resize.height = .auto) ∨ g.height = 0 ∨ g.width = 0 then
      (g.width, g.height)
    else
      let width := resize.width.length cellWidth viewWidth
      let height := resize.height.length cellHeight viewHeight
      if width = 0 ∨ height = 0 then (g.width, g.height)
      else
        let width := if resize.width = .auto then scaling.proportion g.width height g.height
          else width
        let height := if resize.height = .auto then scaling.proportion g.height width g.width
          else height
        let size :=
          (min width Crosswords.maxGraphicDimension, min height Crosswords.maxGraphicDimension)
        if resize.preserveAspectRatio then scaling.fit (g.width, g.height) size else size

def divCeil (a b : ℕ) : ℕ := (a + b - 1) / b

/-- A 32-bit number read as a signed one. -/
def asI32 (n : ℕ) : ℤ := if n < 2 ^ 31 then n else (n : ℤ) - 2 ^ 32

/-! ### Placements -/

namespace KittyPlacement

def inColumn (p : KittyPlacement) (col : ℕ) : Bool :=
  p.destCol ≤ col && col < p.destCol + p.columns

def inRow (p : KittyPlacement) (absRow : ℤ) : Bool :=
  p.destRow ≤ absRow && absRow < p.destRow + p.rows

/-- Follow a resize. -/
def resize (p : KittyPlacement) (cellWidth cellHeight : ℕ) (destRowShift : ℤ) : KittyPlacement :=
  { p with
    pixelWidth := if 0 < p.columns then p.columns * cellWidth % 2 ^ 32 else p.pixelWidth
    pixelHeight := if 0 < p.rows then p.rows * cellHeight % 2 ^ 32 else p.pixelHeight
    destRow := p.destRow + destRowShift }

end KittyPlacement

def KittyScreenState.mapPlacements (k : KittyScreenState)
    (f : KittyPlacement → KittyPlacement) : KittyScreenState :=
  { k with kittyPlacements := k.kittyPlacements.mapValues f }

namespace Terminal

def new (columns screenLines scrollbackHistoryLimit : ℕ) : Terminal :=
  { crosswords := .new columns screenLines scrollbackHistoryLimit }

def mapGraphics (t : Terminal) (f : Graphics → Graphics) : Terminal :=
  { t with graphics := f t.graphics }

/-- A texture is alive while some slot for the extras of cells holds it. -/
def textureAlive (t : Terminal) (id : ℕ) : Bool :=
  let holds (extras : Option Extras) : Bool :=
    match extras with
    | some { graphic := some cells, .. } => cells.any fun cell => cell.texture.id == id
    | _ => false
  t.crosswords.grid.extrasTable.slots.any holds ||
    t.crosswords.inactiveGrid.extrasTable.slots.any holds

/-- The row of a line of the screen, counted from the first line of the history. -/
def absRow (t : Terminal) (line : ℤ) : ℤ := t.crosswords.grid.historySize + line

/-- Place a stored image on top of the cells. -/
def placeKittyOverlay (scaling : Scaling) (t : Terminal) (imageId : ℕ)
    (placement : PlacementRequest) : Terminal :=
  match t.graphics.screen.getKittyImage imageId with
  | none => t
  | some stored =>
    let graphic :=
      { stored.data with
        resize :=
          match resizeCommand placement.columns placement.rows with
          | some resize => some resize
          | none => stored.data.resize }
    let cellWidth := t.crosswords.cellWidth
    let cellHeight := t.crosswords.cellHeight
    if cellWidth = 0 ∨ cellHeight = 0 then t
    else
      let (displayW, displayH) := graphic.computeDisplayDimensions scaling cellWidth cellHeight
        (cellWidth * t.crosswords.grid.columns) (cellHeight * t.crosswords.grid.lines)
      if displayW = 0 ∨ displayH = 0 then t
      else if Crosswords.maxGraphicDimension < displayW ∨
          Crosswords.maxGraphicDimension < displayH then t
      else
        let transmitTime := stored.transmissionTime
        let graphic :=
          { graphic with
            displayWidth := some displayW
            displayHeight := some displayH
            transmitTime := transmitTime }
        let cursorRow :=
          if 0 < placement.y then asI32 placement.y else t.crosswords.pos.row
        let rows := if 0 < placement.rows then placement.rows else divCeil displayH cellHeight
        -- without an id from the client, placements of one image do not replace each other
        let (placementId, graphics) :=
          if placement.placementId = 0 then t.graphics.allocateInternalPlacementId
          else (placement.placementId, t.graphics)
        let kittyPlacement : KittyPlacement :=
          { imageId := imageId
            placementId := placementId
            sourceX := placement.x
            sourceY := placement.y
            sourceWidth := placement.width
            sourceHeight := placement.height
            destCol := if 0 < placement.x then placement.x else t.crosswords.pos.col
            destRow := t.absRow cursorRow
            columns :=
              if 0 < placement.columns then placement.columns else divCeil displayW cellWidth
            rows := rows
            pixelWidth := displayW
            pixelHeight := displayH
            cellXOffset := 0
            cellYOffset := 0
            zIndex := placement.zIndex
            transmitTime := transmitTime }
        let needsUpload : Bool :=
          match graphics.screen.kittyPlacements.lookup (imageId, placementId) with
          | some existing => existing.transmitTime ≠ transmitTime
          | none => true
        let graphics :=
          { graphics with
            screen :=
              { graphics.screen with
                kittyPlacements :=
                  graphics.screen.kittyPlacements.insert (imageId, placementId) kittyPlacement } }
        let graphics :=
          if needsUpload then
            { graphics with
              pendingImages := graphics.pendingImages ++ [(imageId, graphic)] }.sendGraphicsUpdates
          else graphics
        { crosswords :=
            t.crosswords.placeKittyOverlay rows (UInt8.ofNat placement.cursorMovement)
          graphics := graphics }

/-- Register a virtual placement. -/
def placeVirtualGraphic (t : Terminal) (placement : PlacementRequest) : Terminal :=
  t.mapGraphics fun g =>
    { g with
      screen :=
        { g.screen with
          kittyVirtualPlacements :=
            g.screen.kittyVirtualPlacements.insert (placement.imageId, placement.placementId)
              ⟨placement.imageId, placement.placementId, placement.columns, placement.rows,
                placement.x, placement.y⟩ } }

/-! ### Handlers -/

/-- Store a graphic without displaying it. -/
def storeGraphic (t : Terminal) (now : ℕ) (graphic : GraphicData) : Terminal :=
  t.mapGraphics (·.storeKittyImage now (graphic.id % 2 ^ 32) none graphic)

def kittyTransmitAndDisplay (scaling : Scaling) (t : Terminal) (now : ℕ) (graphic : GraphicData)
    (placement : PlacementRequest) : Terminal :=
  let imageId := graphic.id % 2 ^ 32
  let stored := t.storeGraphic now graphic
  if placement.virtualPlacement then
    (stored.mapGraphics fun g =>
      { g with pendingImages := g.pendingImages ++ [(imageId, graphic)] }.sendGraphicsUpdates
      ).placeVirtualGraphic placement
  else stored.placeKittyOverlay scaling imageId placement

def placeGraphic (scaling : Scaling) (t : Terminal) (placement : PlacementRequest) : Terminal :=
  if placement.virtualPlacement then t.placeVirtualGraphic placement
  else
    match t.graphics.screen.getKittyImage placement.imageId with
    | some _ => t.placeKittyOverlay scaling placement.imageId placement
    | none => t

/-- Remove the placements of an image, or the one with an id. -/
def deletePlacementsOf (k : KittyScreenState) (imageId placementId : ℕ) : KittyScreenState :=
  if placementId ≠ 0 then
    { k with kittyPlacements := k.kittyPlacements.erase (imageId, placementId) }
  else k.retainPlacements fun key _ => key.1 ≠ imageId

/-- What a delete request does to the images and placements, with the position of the cursor and
the textures alive after it was done to the cells. -/
def deleteImages (g : Graphics) (delete : DeleteRequest) (cursor : Pos) (historySize : ℕ)
    (alive : ℕ → Bool) : Graphics :=
  let action := Char.ofNat delete.action.toNat
  let placements (keep : KittyPlacement → Bool) : Graphics :=
    { g with screen := g.screen.retainPlacements fun _ p => keep p }
  let cleanup (g : Graphics) : Graphics :=
    if delete.deleteData then g.cleanupUnusedKittyImages alive else g
  let col := delete.x - 1
  let absRow : ℤ := historySize + asI32 (delete.y - 1)
  if action = 'a' ∨ action = 'A' then
    let g := placements fun _ => false
    if delete.deleteData then
      { g with screen := { g.screen with kittyImages := ∅, kittyImageNumbers := ∅ } }
    else g
  else if action = 'i' ∨ action = 'I' then
    let g := { g with screen := deletePlacementsOf g.screen delete.imageId delete.placementId }
    if delete.deleteData then g.deleteKittyImages (· = delete.imageId) else g
  else if action = 'c' ∨ action = 'C' then
    cleanup (placements fun p => !(p.inColumn cursor.col && p.inRow (historySize + cursor.row)))
  else if action = 'p' ∨ action = 'P' then
    cleanup (if 0 < delete.x ∧ 0 < delete.y then
      placements fun p => !(p.inColumn col && p.inRow absRow) else g)
  else if action = 'x' ∨ action = 'X' then
    cleanup (if 0 < delete.x then placements fun p => !p.inColumn col else g)
  else if action = 'y' ∨ action = 'Y' then
    cleanup (if 0 < delete.y then placements fun p => !p.inRow absRow else g)
  else if action = 'z' ∨ action = 'Z' then
    cleanup (placements fun p => p.zIndex ≠ delete.zIndex)
  else if action = 'n' ∨ action = 'N' then
    let lookupNumber := if 0 < delete.imageNumber then delete.imageNumber else delete.imageId
    match g.screen.kittyImageNumbers.lookup lookupNumber with
    | some imageId =>
      let g := { g with screen := deletePlacementsOf g.screen imageId delete.placementId }
      if delete.deleteData then g.deleteKittyImages (· = imageId) else g
    | none => g
  else if action = 'q' ∨ action = 'Q' then
    cleanup (if 0 < delete.x ∧ 0 < delete.y then
      placements fun p => !(p.zIndex == delete.zIndex && p.inColumn col && p.inRow absRow) else g)
  else if action = 'r' ∨ action = 'R' then
    if 0 < delete.x ∧ delete.x ≤ delete.y then
      let g :=
        { g with
          screen := g.screen.retainPlacements fun key _ => key.1 < delete.x || delete.y < key.1 }
      if delete.deleteData then
        g.deleteKittyImages fun id => delete.x ≤ id && id ≤ delete.y
      else g
    else g
  else g

def deleteGraphics (t : Terminal) (delete : DeleteRequest) : Terminal :=
  let action := Char.ofNat delete.action.toNat
  let cleared := { t with crosswords := t.crosswords.deleteGraphics action delete.x delete.y }
  cleared.mapGraphics fun g =>
    (deleteImages g delete cleared.crosswords.pos cleared.crosswords.grid.historySize
      cleared.textureAlive).sendGraphicsUpdates

/-- The graphics after the eviction that an atlas graphic of some bytes may need. -/
def makeSpace (t : Terminal) (graphicBytes : ℕ) : Graphics :=
  if t.graphics.totalLimit < t.graphics.totalBytes + graphicBytes then
    let (usedIds, g) := t.graphics.collectActiveGraphicIds t.textureAlive
    (g.evictImages graphicBytes usedIds).2
  else t.graphics

/-- Put an atlas graphic into cells. -/
def insertGraphic (scaling : Scaling) (t : Terminal) (now : ℕ) (graphic : GraphicData)
    (cursorMovement : Option UInt8) : Terminal :=
  let cellWidth := t.crosswords.cellWidth
  let cellHeight := t.crosswords.cellHeight
  let (displayW, displayH) := graphic.computeDisplayDimensions scaling cellWidth cellHeight
    (cellWidth * t.crosswords.grid.columns) (cellHeight * t.crosswords.grid.lines)
  if Crosswords.maxGraphicDimension < displayW ∨ Crosswords.maxGraphicDimension < displayH then t
  else if displayW = 0 ∨ displayH = 0 then t
  else
    let graphicBytes := graphic.pixels.length
    let (graphicId, graphics) := (t.makeSpace graphicBytes).nextId
    let graphics := (graphics.trackGraphic now graphicId graphicBytes).registerPlacedTexture graphicId
    let graphic :=
      { graphic with
        id := graphicId
        displayWidth := some displayW
        displayHeight := some displayH }
    { crosswords :=
        t.crosswords.insertGraphic graphicId graphic.width displayW displayH cursorMovement
      graphics := { graphics with pending := graphics.pending ++ [graphic] }.sendGraphicsUpdates }

/-! ### Commands -/

/-- Control data and payload of an application program command. -/
def apcParams (buffer : List UInt8) : Option (List (List UInt8)) :=
  let dropEsc (bytes : List UInt8) : List UInt8 :=
    if bytes.getLast? = some 0x1B then bytes.dropLast else bytes
  if buffer = [] then none
  else
    let data :=
      if buffer.getLast? = some 0x1B then buffer.dropLast
      else if 2 ≤ buffer.length ∧ buffer.drop (buffer.length - 2) = [0x1B, 0x5C] then
        buffer.take (buffer.length - 2)
      else buffer
    if data.head? = some 0x47 then
      let controlData := data.takeWhile (· ≠ 0x3B)
      some [[0x47], dropEsc controlData.tail, dropEsc (data.drop (controlData.length + 1))]
    else none

/-- Do what the response to a command asks for. -/
def apply (scaling : Scaling) (t : Terminal) (now : ℕ) (response : KittyGraphicsResponse) :
    Terminal :=
  if response.incomplete then t
  else
    let t :=
      match response.graphicData, response.placementRequest with
      | some graphic, some placement => t.kittyTransmitAndDisplay scaling now graphic placement
      | some graphic, none => t.storeGraphic now graphic
      | none, some placement => t.placeGraphic scaling placement
      | none, none => t
    match response.deleteRequest with
    | some delete => t.deleteGraphics delete
    | none => t

/-- Handle the parameters of a kitty graphics command. -/
def receive (outside : Outside) (t : Terminal) (host : Host) (params : List (List UInt8)) :
    Terminal :=
  let (response, chunking) := parse outside.codecs host params t.graphics.kittyChunkingState
  let t := t.mapGraphics fun g => { g with kittyChunkingState := chunking }
  match response with
  | some response => t.apply outside.scaling host.now response
  | none => t

/-- The operations of the screen, with what they do to the graphics. -/
def operate (outside : Outside) (t : Terminal) (op : Op) : Terminal :=
  let crosswords := t.crosswords.step outside.unicode op
  let graphics :=
    match op with
    | .resetState => t.graphics.clearAllKittyState
    | .resize numCols numLines cellWidth cellHeight =>
      if (t.crosswords.grid.columns = numCols ∧ t.crosswords.grid.lines = numLines) ∨
          cellWidth = 0 ∨ cellHeight = 0 then t.graphics
      else
        let shift : ℤ := crosswords.grid.historySize + crosswords.pos.row -
          (t.crosswords.grid.historySize + t.crosswords.pos.row)
        { t.graphics with
          screen := t.graphics.screen.mapPlacements (·.resize cellWidth cellHeight shift)
          kittyInactiveScreen :=
            t.graphics.kittyInactiveScreen.mapPlacements (·.resize cellWidth cellHeight shift) }
    | _ =>
      -- a swap of the screens swaps their images
      if crosswords.mode.altScreen = t.crosswords.mode.altScreen then t.graphics
      else t.graphics.swapKittyScreenState
  { crosswords := crosswords, graphics := graphics }

end Terminal

/-- What happens to a terminal: an operation of the screen, a kitty graphics command, or an atlas
graphic. -/
inductive Input
  | op (op : Op)
  | apc (host : Host) (buffer : List UInt8)
  | graphic (now : ℕ) (graphic : GraphicData) (cursorMovement : Option UInt8)

namespace Terminal

def step (outside : Outside) (t : Terminal) : Input → Terminal
  | .op op => t.operate outside op
  | .apc host buffer =>
    match apcParams buffer with
    | some params => t.receive outside host params
    | none => t
  | .graphic now graphic cursorMovement =>
    t.insertGraphic outside.scaling now graphic cursorMovement

def run (outside : Outside) (t : Terminal) (inputs : List Input) : Terminal :=
  inputs.foldl (step outside) t

end Terminal
end Rio.Kitty
