import Rio.Kitty.Parse

/-! The images and placements of a terminal, the memory they take, and their eviction. -/

set_option linter.dupNamespace false

namespace Rio.Kitty

structure StoredImage where
  data : GraphicData
  transmissionTime : ℕ
  deriving DecidableEq, Repr

/-- A placement of an image on top of the cells. -/
structure KittyPlacement where
  imageId : ℕ
  placementId : ℕ
  sourceX : ℕ
  sourceY : ℕ
  sourceWidth : ℕ
  sourceHeight : ℕ
  destCol : ℕ
  /-- Counted from the first line of the history. -/
  destRow : ℤ
  columns : ℕ
  rows : ℕ
  pixelWidth : ℕ
  pixelHeight : ℕ
  cellXOffset : ℕ
  cellYOffset : ℕ
  zIndex : ℤ
  transmitTime : ℕ
  deriving DecidableEq, Repr

/-- A placement whose cells the application writes. -/
structure VirtualPlacement where
  imageId : ℕ
  placementId : ℕ
  columns : ℕ
  rows : ℕ
  x : ℕ
  y : ℕ
  deriving DecidableEq, Repr

/-- The images of one screen. -/
structure KittyScreenState where
  kittyImages : Table ℕ StoredImage := ∅
  kittyImageNumbers : Table ℕ ℕ := ∅
  kittyPlacements : Table (ℕ × ℕ) KittyPlacement := ∅
  kittyVirtualPlacements : Table (ℕ × ℕ) VirtualPlacement := ∅

structure Graphics where
  lastId : ℕ := 0
  /-- New atlas graphics. -/
  pending : List GraphicData := []
  /-- New image textures. -/
  pendingImages : List (ℕ × GraphicData) := []
  /-- The images of the active screen. -/
  screen : KittyScreenState := {}
  kittyChunkingState : KittyGraphicsState := {}
  totalBytes : ℕ := 0
  totalLimit : ℕ := 320 * 1024 * 1024
  imageTimestamps : Table ℕ ℕ := ∅
  /-- Atlas graphics that were put into cells. -/
  placedTextures : List ℕ := []
  kittyInactiveScreen : KittyScreenState := {}
  nextInternalPlacementId : ℕ := 0

/-! ### One screen -/

namespace KittyScreenState

def bytes (k : KittyScreenState) : ℕ :=
  total (fun e : Σ _ : ℕ, StoredImage => e.2.data.pixels.length) k.kittyImages.entries

def getKittyImage (k : KittyScreenState) (imageId : ℕ) : Option StoredImage :=
  k.kittyImages.lookup imageId

def getKittyImageByNumber (k : KittyScreenState) (imageNumber : ℕ) : Option StoredImage :=
  (k.kittyImageNumbers.lookup imageNumber).bind k.getKittyImage

/-- Delete the images that satisfy a predicate, and the numbers that are left without one. -/
def deleteKittyImages (k : KittyScreenState) (predicate : ℕ → Bool) : KittyScreenState :=
  let images := k.kittyImages.retain fun id _ => !predicate id
  { k with
    kittyImages := images
    kittyImageNumbers := k.kittyImageNumbers.retain fun _ id => id ∈ images }

/-- Remove the image that was chosen for eviction. -/
def evict (k : KittyScreenState) (imageId : ℕ) : KittyScreenState :=
  { k with
    kittyImages := k.kittyImages.erase imageId
    kittyImageNumbers := k.kittyImageNumbers.retain fun _ id => id ≠ imageId }

/-- Drop the placements of images that are gone. -/
def sweepPlacements (k : KittyScreenState) : KittyScreenState :=
  { k with kittyPlacements := k.kittyPlacements.retain fun _ p => p.imageId ∈ k.kittyImages }

def placementIds (k : KittyScreenState) : List ℕ :=
  k.kittyPlacements.entries.map fun e => e.2.imageId

def retainPlacements (k : KittyScreenState) (keep : ℕ × ℕ → KittyPlacement → Bool) :
    KittyScreenState :=
  { k with kittyPlacements := k.kittyPlacements.retain keep }

end KittyScreenState

/-! ### Eviction -/

/-- Where a candidate for eviction lives. -/
inductive CandidateSource
  | pending | activeKitty | inactiveKitty
  deriving DecidableEq, Repr

structure Candidate where
  id : ℕ
  timestamp : ℕ
  isUsed : Bool
  bytes : ℕ
  source : CandidateSource
  deriving DecidableEq, Repr

namespace Candidate

/-- Lower tiers are evicted first. -/
def tier (c : Candidate) : ℕ :=
  match c.source with
  | .inactiveKitty => 0
  | .pending | .activeKitty => if c.isUsed then 2 else 1

/-- Oldest first within a tier. -/
def before (c d : Candidate) : Prop :=
  c.tier < d.tier ∨ (c.tier = d.tier ∧ c.timestamp ≤ d.timestamp)

instance : DecidableRel before := fun _ _ => inferInstanceAs (Decidable (_ ∨ _))

end Candidate

/-- The candidates to evict until enough is freed. -/
def takeUntilFreed (bytesToFree : ℕ) : ℕ → List Candidate → List Candidate
  | _, [] => []
  | freed, c :: rest =>
    if bytesToFree ≤ freed then [] else c :: takeUntilFreed bytesToFree (freed + c.bytes) rest

namespace Graphics

def kittyCandidates (source : CandidateSource) (used : ℕ → Bool) (k : KittyScreenState) :
    List Candidate :=
  k.kittyImages.entries.map fun e =>
    ⟨e.1, e.2.transmissionTime, used e.1, e.2.data.pixels.length, source⟩

def pendingCandidates (g : Graphics) (usedIds : List ℕ) : List Candidate :=
  g.pending.filterMap fun graphic =>
    (g.imageTimestamps.lookup graphic.id).map fun timestamp =>
      ⟨graphic.id, timestamp, graphic.id ∈ usedIds, graphic.pixels.length, .pending⟩

def candidates (g : Graphics) (usedIds : List ℕ) : List Candidate :=
  g.pendingCandidates usedIds ++ kittyCandidates .activeKitty (· ∈ usedIds) g.screen ++
    kittyCandidates .inactiveKitty (fun _ => false) g.kittyInactiveScreen

/-- Remove an evicted graphic from where it lives. -/
def removeCandidate (g : Graphics) (c : Candidate) : Graphics :=
  let g := { g with imageTimestamps := g.imageTimestamps.erase c.id }
  match c.source with
  | .pending => { g with pending := g.pending.filter fun graphic => graphic.id ≠ c.id }
  | .activeKitty => { g with screen := g.screen.evict c.id }
  | .inactiveKitty => { g with kittyInactiveScreen := g.kittyInactiveScreen.evict c.id }

/-- Evict images to make space, and whether that was possible. -/
def evictImages (g : Graphics) (requiredBytes : ℕ) (usedIds : List ℕ) : Bool × Graphics :=
  if g.totalBytes + requiredBytes ≤ g.totalLimit then (true, g)
  else
    let bytesToFree := g.totalBytes + requiredBytes - g.totalLimit
    let candidates := g.candidates usedIds
    if candidates = [] then (false, g)
    else
      let evicted := takeUntilFreed bytesToFree 0 (candidates.insertionSort Candidate.before)
      let freedBytes := total Candidate.bytes evicted
      let g := evicted.foldl removeCandidate g
      (bytesToFree ≤ freedBytes,
        { g with
          screen := g.screen.sweepPlacements
          kittyInactiveScreen := g.kittyInactiveScreen.sweepPlacements
          totalBytes := g.totalBytes - freedBytes })

/-! ### Images -/

/-- Store an image for later placement. -/
def storeKittyImage (g : Graphics) (now imageId : ℕ) (imageNumber : Option ℕ)
    (data : GraphicData) : Graphics :=
  let data := { data with transmitTime := now }
  let newBytes := data.pixels.length
  -- images with placements are protected, and the one to be stored
  let g :=
    if g.totalLimit < g.totalBytes + newBytes then
      (g.evictImages newBytes (imageId :: g.screen.placementIds)).2
    else g
  let oldBytes :=
    match g.screen.kittyImages.lookup imageId with
    | some old => old.data.pixels.length
    | none => 0
  { g with
    totalBytes := g.totalBytes - oldBytes + newBytes
    screen :=
      { g.screen with
        kittyImages := g.screen.kittyImages.insert imageId ⟨data, now⟩
        kittyImageNumbers :=
          match imageNumber with
          | some number => g.screen.kittyImageNumbers.insert number imageId
          | none => g.screen.kittyImageNumbers } }

def deleteKittyImages (g : Graphics) (predicate : ℕ → Bool) : Graphics :=
  { g with screen := g.screen.deleteKittyImages predicate }

/-- Swap the images of the active and the inactive screen. -/
def swapKittyScreenState (g : Graphics) : Graphics :=
  { g with screen := g.kittyInactiveScreen, kittyInactiveScreen := g.screen }

/-- Clear the images of both screens. -/
def clearAllKittyState (g : Graphics) : Graphics :=
  { g with
    totalBytes := g.totalBytes - g.kittyInactiveScreen.bytes
    screen := {}
    kittyInactiveScreen := {} }

def allocateInternalPlacementId (g : Graphics) : ℕ × Graphics :=
  let id := if g.nextInternalPlacementId < 0x80000000 then 0x80000000
    else g.nextInternalPlacementId
  (id, { g with nextInternalPlacementId := if id + 1 < 2 ^ 32 then id + 1 else 0x80000000 })

/-! ### Atlas graphics -/

def nextId (g : Graphics) : ℕ × Graphics := (g.lastId + 1, { g with lastId := g.lastId + 1 })

/-- Track the memory of a new graphic. -/
def trackGraphic (g : Graphics) (now graphicId bytes : ℕ) : Graphics :=
  { g with
    imageTimestamps := g.imageTimestamps.insert graphicId now
    totalBytes := g.totalBytes + bytes }

def registerPlacedTexture (g : Graphics) (graphicId : ℕ) : Graphics :=
  { g with placedTextures := graphicId :: g.placedTextures.filter (· ≠ graphicId) }

/-- The ids of the graphics that are still displayed: textures that are alive, and images with
a placement. -/
def collectActiveGraphicIds (g : Graphics) (alive : ℕ → Bool) : List ℕ × Graphics :=
  let placed := g.placedTextures.filter alive
  (placed ++ g.screen.placementIds, { g with placedTextures := placed })

/-- Delete the images that no placement and no cell uses. -/
def cleanupUnusedKittyImages (g : Graphics) (alive : ℕ → Bool) : Graphics :=
  let (usedIds, g) := g.collectActiveGraphicIds alive
  let usedKittyIds := usedIds.map (· % 2 ^ 32)
  g.deleteKittyImages fun id => !(id ∈ usedKittyIds)

/-- Send what is pending to the renderer. -/
def sendGraphicsUpdates (g : Graphics) : Graphics := { g with pending := [], pendingImages := [] }

end Graphics
end Rio.Kitty
