import Rio.Kitty.Terminal
import Mathlib.Logic.Relation

/-! What an input does to the graphics of a terminal, as a chain of moves. -/

set_option linter.dupNamespace false

namespace Rio.Kitty

/-- The images, their numbers and the memory are the same; placements, queues and transmissions
in progress may differ. -/
structure Graphics.SameImages (g g' : Graphics) : Prop where
  images : g'.screen.kittyImages = g.screen.kittyImages
  numbers : g'.screen.kittyImageNumbers = g.screen.kittyImageNumbers
  inactiveImages : g'.kittyInactiveScreen.kittyImages = g.kittyInactiveScreen.kittyImages
  inactiveNumbers :
    g'.kittyInactiveScreen.kittyImageNumbers = g.kittyInactiveScreen.kittyImageNumbers
  totalBytes : g'.totalBytes = g.totalBytes
  totalLimit : g'.totalLimit = g.totalLimit
  lastId : g'.lastId = g.lastId
  pending : g.pending = [] → g'.pending = []

namespace Graphics.SameImages
variable {g g' g'' : Graphics}

theorem refl (g : Graphics) : g.SameImages g := ⟨rfl, rfl, rfl, rfl, rfl, rfl, rfl, fun h => h⟩

theorem trans (h : g.SameImages g') (h' : g'.SameImages g'') : g.SameImages g'' where
  images := h'.images.trans h.images
  numbers := h'.numbers.trans h.numbers
  inactiveImages := h'.inactiveImages.trans h.inactiveImages
  inactiveNumbers := h'.inactiveNumbers.trans h.inactiveNumbers
  totalBytes := h'.totalBytes.trans h.totalBytes
  totalLimit := h'.totalLimit.trans h.totalLimit
  lastId := h'.lastId.trans h.lastId
  pending := fun hg => h'.pending (h.pending hg)

theorem ite {c : Prop} [Decidable c] (h : g.SameImages g') (h' : g.SameImages g'') :
    g.SameImages (if c then g' else g'') := by
  by_cases hc : c
  · rwa [if_pos hc]
  · rwa [if_neg hc]

theorem sendGraphicsUpdates (g : Graphics) : g.SameImages g.sendGraphicsUpdates :=
  ⟨rfl, rfl, rfl, rfl, rfl, rfl, rfl, fun _ => rfl⟩

theorem retainPlacements (g : Graphics) (keep : ℕ × ℕ → KittyPlacement → Bool) :
    g.SameImages { g with screen := g.screen.retainPlacements keep } :=
  ⟨rfl, rfl, rfl, rfl, rfl, rfl, rfl, fun h => h⟩

theorem deletePlacementsOf (g : Graphics) (imageId placementId : ℕ) :
    g.SameImages { g with screen := Terminal.deletePlacementsOf g.screen imageId placementId } := by
  unfold Terminal.deletePlacementsOf
  split <;> exact ⟨rfl, rfl, rfl, rfl, rfl, rfl, rfl, fun h => h⟩

end Graphics.SameImages

/-- A move of the graphics. -/
inductive Graphics.Move (g : Graphics) : Graphics → Prop
  | same {g' : Graphics} (h : g.SameImages g') : Move g g'
  | store (now imageId : ℕ) (data : GraphicData) : Move g (g.storeKittyImage now imageId none data)
  | delete (predicate : ℕ → Bool) : Move g (g.deleteKittyImages predicate)
  | deleteAll :
    Move g { g with screen := { g.screen with kittyImages := ∅, kittyImageNumbers := ∅ } }
  | swap : Move g g.swapKittyScreenState
  | clear : Move g g.clearAllKittyState
  | evict (requiredBytes : ℕ) (usedIds : List ℕ) : Move g (g.evictImages requiredBytes usedIds).2
  | track (now bytes : ℕ) : Move g (g.nextId.2.trackGraphic now g.nextId.1 bytes)

abbrev Graphics.Moves : Graphics → Graphics → Prop := Relation.ReflTransGen Graphics.Move

namespace Graphics.Moves
variable {g g' : Graphics}

theorem same (h : g.SameImages g') : g.Moves g' := .single (.same h)

theorem cleanup (g : Graphics) (alive : ℕ → Bool) :
    g.Moves (g.cleanupUnusedKittyImages alive) := by
  have hplaced : g.Moves { g with placedTextures := g.placedTextures.filter alive } :=
    same ⟨rfl, rfl, rfl, rfl, rfl, rfl, rfl, fun h => h⟩
  exact hplaced.tail (.delete _)

/-- A move that is made under a condition. -/
theorem ite {c : Prop} [Decidable c] {x y : Graphics} (hx : g.Moves x) (hy : g.Moves y) :
    g.Moves (if c then x else y) := by
  by_cases hc : c
  · rwa [if_pos hc]
  · rwa [if_neg hc]

theorem cleanupIf {delete : DeleteRequest} {alive : ℕ → Bool} (h : g.Moves g') :
    g.Moves (if delete.deleteData then g'.cleanupUnusedKittyImages alive else g') :=
  ite (h.trans (cleanup g' alive)) h

theorem deleteIf {delete : DeleteRequest} {predicate : ℕ → Bool} (h : g.Moves g') :
    g.Moves (if delete.deleteData then g'.deleteKittyImages predicate else g') :=
  ite (h.tail (.delete predicate)) h

theorem deleteImages (g : Graphics) (delete : DeleteRequest) (cursor : Pos) (historySize : ℕ)
    (alive : ℕ → Bool) : g.Moves (Terminal.deleteImages g delete cursor historySize alive) := by
  have hplacements (keep : KittyPlacement → Bool) :
      g.Moves { g with screen := g.screen.retainPlacements fun _ p => keep p } :=
    same (.retainPlacements g _)
  unfold Terminal.deleteImages
  dsimp only
  with_reducible
    refine ite (ite ((hplacements _).tail .deleteAll) (hplacements _)) ?_
    refine ite (deleteIf (same (.deletePlacementsOf g _ _))) ?_
    refine ite (cleanupIf (hplacements _)) ?_
    refine ite (cleanupIf (ite (hplacements _) .refl)) ?_
    refine ite (cleanupIf (ite (hplacements _) .refl)) ?_
    refine ite (cleanupIf (ite (hplacements _) .refl)) ?_
    refine ite (cleanupIf (hplacements _)) ?_
    refine ite ?_ ?_
  · cases g.screen.kittyImageNumbers.lookup
        (if 0 < delete.imageNumber then delete.imageNumber else delete.imageId) with
    | none => exact .refl
    | some imageId => exact deleteIf (same (.deletePlacementsOf g _ _))
  · with_reducible
      refine ite (cleanupIf (ite (hplacements _) .refl)) ?_
      refine ite (ite (deleteIf (same (.retainPlacements g _))) .refl) .refl

end Graphics.Moves

namespace Terminal
variable {outside : Outside} {t : Terminal}

/-- Placing an overlay leaves the images alone. -/
theorem placeKittyOverlay_sameImages (scaling : Scaling) (t : Terminal) (imageId : ℕ)
    (placement : PlacementRequest) :
    t.graphics.SameImages (t.placeKittyOverlay scaling imageId placement).graphics := by
  have hkept := Graphics.SameImages.refl t.graphics
  unfold placeKittyOverlay
  cases t.graphics.screen.getKittyImage imageId with
  | none => exact hkept
  | some stored =>
    dsimp only
    by_cases hcell : t.crosswords.cellWidth = 0 ∨ t.crosswords.cellHeight = 0
    · rw [if_pos hcell]
      exact hkept
    rw [if_neg hcell]
    generalize GraphicData.computeDisplayDimensions _ _ _ _ _ _ = display
    by_cases hzero : display.1 = 0 ∨ display.2 = 0
    · rw [if_pos hzero]
      exact hkept
    rw [if_neg hzero]
    by_cases hlarge : Crosswords.maxGraphicDimension < display.1 ∨
        Crosswords.maxGraphicDimension < display.2
    · rw [if_pos hlarge]
      exact hkept
    rw [if_neg hlarge]
    -- a new id for the placement, the placement, and the upload
    have hid : t.graphics.SameImages
        (if placement.placementId = 0 then t.graphics.allocateInternalPlacementId
          else (placement.placementId, t.graphics)).2 := by
      split <;> exact ⟨rfl, rfl, rfl, rfl, rfl, rfl, rfl, fun h => h⟩
    generalize (if placement.placementId = 0 then t.graphics.allocateInternalPlacementId
      else (placement.placementId, t.graphics)) = given at hid ⊢
    refine hid.trans ?_
    dsimp only
    with_reducible refine .ite ?_ ?_
    · exact ⟨rfl, rfl, rfl, rfl, rfl, rfl, rfl, fun _ => rfl⟩
    · exact ⟨rfl, rfl, rfl, rfl, rfl, rfl, rfl, fun h => h⟩

theorem placeVirtualGraphic_sameImages (t : Terminal) (placement : PlacementRequest) :
    t.graphics.SameImages (t.placeVirtualGraphic placement).graphics :=
  ⟨rfl, rfl, rfl, rfl, rfl, rfl, rfl, fun h => h⟩

theorem placeGraphic_sameImages (scaling : Scaling) (t : Terminal)
    (placement : PlacementRequest) :
    t.graphics.SameImages (t.placeGraphic scaling placement).graphics := by
  unfold placeGraphic
  split
  · exact placeVirtualGraphic_sameImages t placement
  · split
    · exact placeKittyOverlay_sameImages scaling t _ placement
    · exact .refl _

/-- Displaying an image that is transmitted stores it; the rest leaves the images alone. -/
theorem kittyTransmitAndDisplay_sameImages (scaling : Scaling) (t : Terminal) (now : ℕ)
    (graphic : GraphicData) (placement : PlacementRequest) :
    (t.storeGraphic now graphic).graphics.SameImages
      (t.kittyTransmitAndDisplay scaling now graphic placement).graphics := by
  unfold kittyTransmitAndDisplay
  dsimp only
  split
  · exact ⟨rfl, rfl, rfl, rfl, rfl, rfl, rfl, fun _ => rfl⟩
  · exact placeKittyOverlay_sameImages scaling _ _ placement

theorem deleteGraphics_moves (t : Terminal) (delete : DeleteRequest) :
    t.graphics.Moves (t.deleteGraphics delete).graphics :=
  (Graphics.Moves.deleteImages t.graphics delete _ _ _).tail (.same (.sendGraphicsUpdates _))

theorem makeSpace_moves (t : Terminal) (graphicBytes : ℕ) :
    t.graphics.Moves (t.makeSpace graphicBytes) := by
  unfold makeSpace
  refine .ite ?_ .refl
  exact Relation.ReflTransGen.tail (b := (t.graphics.collectActiveGraphicIds t.textureAlive).2)
    (Graphics.Moves.same ⟨rfl, rfl, rfl, rfl, rfl, rfl, rfl, fun h => h⟩) (.evict _ _)

theorem insertGraphic_moves (scaling : Scaling) (t : Terminal) (now : ℕ)
    (graphic : GraphicData) (cursorMovement : Option UInt8) :
    t.graphics.Moves (t.insertGraphic scaling now graphic cursorMovement).graphics := by
  have hspace := makeSpace_moves t graphic.pixels.length
  unfold insertGraphic
  dsimp only
  generalize graphic.computeDisplayDimensions scaling _ _ _ _ = display
  by_cases hlarge : Crosswords.maxGraphicDimension < display.1 ∨
      Crosswords.maxGraphicDimension < display.2
  · rw [if_pos hlarge]
  by_cases hzero : display.1 = 0 ∨ display.2 = 0
  · rw [if_neg hlarge, if_pos hzero]
  rw [if_neg hlarge, if_neg hzero]
  exact (hspace.tail (.track now graphic.pixels.length)).tail
    (.same ⟨rfl, rfl, rfl, rfl, rfl, rfl, rfl, fun _ => rfl⟩)

theorem apply_moves (scaling : Scaling) (t : Terminal) (now : ℕ)
    (response : KittyGraphicsResponse) :
    t.graphics.Moves (t.apply scaling now response).graphics := by
  unfold apply
  split
  · exact .refl
  dsimp only
  -- What is deleted comes after what is stored and placed.
  split
  on_goal 1 => refine Relation.ReflTransGen.trans ?_ (deleteGraphics_moves _ _)
  all_goals
    split
    · next graphic placement _ _ =>
      exact Relation.ReflTransGen.tail (.single (.store now _ graphic))
        (.same (kittyTransmitAndDisplay_sameImages scaling t now graphic placement))
    · exact .single (.store _ _ _)
    · exact Graphics.Moves.same (placeGraphic_sameImages scaling t _)
    · exact .refl

theorem receive_moves (outside : Outside) (t : Terminal) (host : Host)
    (params : List (List UInt8)) :
    t.graphics.Moves (t.receive outside host params).graphics := by
  have hchunking : t.graphics.Moves
      (t.mapGraphics fun g => { g with kittyChunkingState :=
        (parse outside.codecs host params t.graphics.kittyChunkingState).2 }).graphics :=
    .same ⟨rfl, rfl, rfl, rfl, rfl, rfl, rfl, fun h => h⟩
  unfold receive
  dsimp only
  split
  · exact hchunking.trans (apply_moves _ _ _ _)
  · exact hchunking

theorem operate_moves (outside : Outside) (t : Terminal) (op : Op) :
    t.graphics.Moves (t.operate outside op).graphics := by
  unfold operate
  dsimp only
  split
  · exact .single .clear
  · exact .ite .refl (.same ⟨rfl, rfl, rfl, rfl, rfl, rfl, rfl, fun h => h⟩)
  · exact .ite .refl (.single .swap)

theorem step_moves (outside : Outside) (t : Terminal) (input : Input) :
    t.graphics.Moves (t.step outside input).graphics := by
  cases input with
  | op op => exact operate_moves outside t op
  | apc host buffer =>
    unfold step
    dsimp only
    split
    · exact receive_moves outside t host _
    · exact .refl
  | graphic now graphic cursorMovement => exact insertGraphic_moves _ t now graphic cursorMovement

end Terminal
end Rio.Kitty
