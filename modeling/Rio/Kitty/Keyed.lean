import Rio.Kitty.Eviction

/-! Placements are stored under their own ids, in every state that a terminal can reach. -/

set_option linter.dupNamespace false

namespace Rio.Kitty

/-- Every placement is stored under its own ids, and the ids of images are 32-bit numbers. -/
structure KittyScreenState.Keyed (k : KittyScreenState) : Prop where
  images : ∀ id ∈ k.kittyImages, id < 2 ^ 32
  placements : ∀ key p, k.kittyPlacements.lookup key = some p →
    key = (p.imageId, p.placementId) ∧ p.imageId < 2 ^ 32

namespace KittyScreenState
variable {k k' : KittyScreenState}

/-- Nothing is new. -/
structure Within (k k' : KittyScreenState) : Prop where
  images : ∀ id ∈ k'.kittyImages, id ∈ k.kittyImages
  placements : ∀ key p, k'.kittyPlacements.lookup key = some p →
    k.kittyPlacements.lookup key = some p

theorem Within.refl (k : KittyScreenState) : k.Within k := ⟨fun _ h => h, fun _ _ h => h⟩

theorem Keyed.within (h : k.Keyed) (hwithin : k.Within k') : k'.Keyed :=
  ⟨fun id hid => h.images id (hwithin.images id hid),
    fun key p hp => h.placements key p (hwithin.placements key p hp)⟩

theorem keyed_empty : ({} : KittyScreenState).Keyed := ⟨nofun, nofun⟩

theorem within_retainPlacements (k : KittyScreenState) (keep : ℕ × ℕ → KittyPlacement → Bool) :
    k.Within (k.retainPlacements keep) :=
  ⟨fun _ h => h, fun _ _ h => (Table.lookup_retain_eq_some.mp h).1⟩

theorem within_deletePlacementsOf (k : KittyScreenState) (imageId placementId : ℕ) :
    k.Within (Terminal.deletePlacementsOf k imageId placementId) := by
  unfold Terminal.deletePlacementsOf
  split_ifs
  · refine ⟨fun _ h => h, fun key p hp => ?_⟩
    dsimp only at hp
    rw [Table.lookup_erase_of] at hp
    split_ifs at hp
    exact hp
  · exact within_retainPlacements k _

theorem within_deleteKittyImages (k : KittyScreenState) (predicate : ℕ → Bool) :
    k.Within (k.deleteKittyImages predicate) := by
  refine ⟨fun id hid => ?_, fun _ _ h => h⟩
  obtain ⟨image, himage⟩ := Option.isSome_iff_exists.mp (AList.lookup_isSome.mpr hid)
  exact AList.lookup_isSome.mp (by rw [(Table.lookup_retain_eq_some.mp himage).1]; rfl)

theorem within_evict (k : KittyScreenState) (imageId : ℕ) : k.Within (k.evict imageId) :=
  ⟨fun _ hid => (AList.mem_erase.mp hid).2, fun _ _ h => h⟩

theorem Keyed.insertImage (h : k.Keyed) {imageId : ℕ} (hid : imageId < 2 ^ 32)
    (image : StoredImage) (numbers : Table ℕ ℕ) :
    { k with
      kittyImages := k.kittyImages.insert imageId image
      kittyImageNumbers := numbers }.Keyed := by
  refine ⟨fun id hmem => ?_, h.placements⟩
  obtain rfl | hmem := (AList.mem_insert _).mp hmem
  · exact hid
  · exact h.images id hmem

theorem Keyed.insertPlacement (h : k.Keyed) {p : KittyPlacement} (hid : p.imageId < 2 ^ 32) :
    { k with
      kittyPlacements :=
        k.kittyPlacements.insert (p.imageId, p.placementId) p }.Keyed := by
  refine ⟨h.images, fun key q hq => ?_⟩
  dsimp only at hq
  rw [Table.lookup_insert_of] at hq
  split_ifs at hq with hkey
  · cases hq
    exact ⟨hkey, hid⟩
  · exact h.placements key q hq

theorem Keyed.mapPlacements (h : k.Keyed) {f : KittyPlacement → KittyPlacement}
    (hf : ∀ p, (f p).imageId = p.imageId ∧ (f p).placementId = p.placementId) :
    (k.mapPlacements f).Keyed := by
  refine ⟨h.images, fun key q hq => ?_⟩
  obtain ⟨p, hp, rfl⟩ := Option.map_eq_some_iff.mp
    ((Table.lookup_mapValues f k.kittyPlacements key).symm.trans hq)
  rw [(hf p).1, (hf p).2]
  exact h.placements key p hp

end KittyScreenState

namespace Graphics
variable {g g' : Graphics}

structure Keyed (g : Graphics) : Prop where
  screen : g.screen.Keyed
  inactive : g.kittyInactiveScreen.Keyed

theorem Keyed.removeCandidate (h : g.Keyed) (c : Candidate) : (g.removeCandidate c).Keyed := by
  unfold Graphics.removeCandidate
  cases c.source with
  | pending => exact ⟨h.screen, h.inactive⟩
  | activeKitty => exact ⟨h.screen.within (KittyScreenState.within_evict _ _), h.inactive⟩
  | inactiveKitty => exact ⟨h.screen, h.inactive.within (KittyScreenState.within_evict _ _)⟩

theorem Keyed.evictImages (h : g.Keyed) (requiredBytes : ℕ) (usedIds : List ℕ) :
    (g.evictImages requiredBytes usedIds).2.Keyed := by
  unfold Graphics.evictImages
  dsimp only
  split_ifs
  · exact h
  · exact h
  · have hremoved := List.foldlRecOn (takeUntilFreed (g.totalBytes + requiredBytes - g.totalLimit)
      0 ((g.candidates usedIds).insertionSort Candidate.before)) Graphics.removeCandidate
      (motive := Keyed) h fun g hg c _ => hg.removeCandidate c
    exact ⟨hremoved.screen.within (KittyScreenState.within_retainPlacements _ _),
      hremoved.inactive.within (KittyScreenState.within_retainPlacements _ _)⟩

theorem Keyed.storeKittyImage (h : g.Keyed) (now : ℕ) {imageId : ℕ} (hid : imageId < 2 ^ 32)
    (imageNumber : Option ℕ) (data : GraphicData) :
    (g.storeKittyImage now imageId imageNumber data).Keyed := by
  have hspace : (if g.totalLimit < g.totalBytes + data.pixels.length then
      (g.evictImages data.pixels.length (imageId :: g.screen.placementIds)).2 else g).Keyed := by
    split_ifs
    · exact h.evictImages _ _
    · exact h
  exact ⟨hspace.screen.insertImage hid _ _, hspace.inactive⟩

theorem Keyed.ite {c : Prop} [Decidable c] (h : g.Keyed) (h' : g'.Keyed) :
    (if c then g else g').Keyed := by
  split_ifs
  · exact h
  · exact h'

theorem Keyed.of_screens (h : g.Keyed) (hscreen : g.screen.Within g'.screen)
    (hinactive : g'.kittyInactiveScreen = g.kittyInactiveScreen) : g'.Keyed :=
  ⟨h.screen.within hscreen, hinactive ▸ h.inactive⟩

end Graphics

namespace Terminal
variable {outside : Outside} {t : Terminal}

/-- A deletion leaves nothing new. -/
theorem within_deleteImages (g : Graphics) (delete : DeleteRequest) (cursor : Pos)
    (historySize : ℕ) (alive : ℕ → Bool) :
    g.screen.Within (deleteImages g delete cursor historySize alive).screen := by
  have hplacements (keep : KittyPlacement → Bool) : g.screen.Within
      ({ g with screen := g.screen.retainPlacements fun _ p => keep p } : Graphics).screen :=
    KittyScreenState.within_retainPlacements _ _
  have hdeleted {k k' : KittyScreenState} (h : k.Within k') (predicate : ℕ → Bool) :
      k.Within (k'.deleteKittyImages predicate) :=
    ⟨fun id hid => h.images id ((k'.within_deleteKittyImages predicate).images id hid),
      h.placements⟩
  have hite {c : Prop} [Decidable c] {x y : Graphics} (hx : g.screen.Within x.screen)
      (hy : g.screen.Within y.screen) : g.screen.Within (if c then x else y).screen := by
    split_ifs
    · exact hx
    · exact hy
  have hcleanup {x : Graphics} (h : g.screen.Within x.screen) :
      g.screen.Within (if delete.deleteData then x.cleanupUnusedKittyImages alive else x).screen :=
    hite (hdeleted h _) h
  have hdelete {x : Graphics} (h : g.screen.Within x.screen) (predicate : ℕ → Bool) :
      g.screen.Within (if delete.deleteData then x.deleteKittyImages predicate else x).screen :=
    hite (hdeleted h _) h
  unfold deleteImages
  dsimp only
  with_reducible
    refine hite (hite ⟨fun _ h => absurd h (AList.notMem_empty _),
      (hplacements fun _ => false).placements⟩ (hplacements _)) ?_
    refine hite (hdelete (KittyScreenState.within_deletePlacementsOf _ _ _) _) ?_
    refine hite (hcleanup (hplacements _)) ?_
    refine hite (hcleanup (hite (hplacements _) (.refl _))) ?_
    refine hite (hcleanup (hite (hplacements _) (.refl _))) ?_
    refine hite (hcleanup (hite (hplacements _) (.refl _))) ?_
    refine hite (hcleanup (hplacements _)) ?_
    refine hite ?_ ?_
  · cases g.screen.kittyImageNumbers.lookup
        (if 0 < delete.imageNumber then delete.imageNumber else delete.imageId) with
    | none => exact .refl _
    | some imageId => exact hdelete (KittyScreenState.within_deletePlacementsOf _ _ _) _
  · with_reducible
      refine hite (hcleanup (hite (hplacements _) (.refl _))) ?_
      refine hite (hite (hdelete (KittyScreenState.within_retainPlacements _ _) _) ?_) ?_
    · exact .refl _
    · exact .refl _

theorem deleteImages_inactive (g : Graphics) (delete : DeleteRequest) (cursor : Pos)
    (historySize : ℕ) (alive : ℕ → Bool) :
    (deleteImages g delete cursor historySize alive).kittyInactiveScreen = g.kittyInactiveScreen :=
  (deleteImages_deletesOnly g delete cursor historySize alive).inactive

theorem keyed_deleteGraphics (h : t.graphics.Keyed) (delete : DeleteRequest) :
    (t.deleteGraphics delete).graphics.Keyed :=
  h.of_screens (within_deleteImages _ _ _ _ _) (deleteImages_inactive _ _ _ _ _)

/-- A placement is stored under the id of an image that is stored. -/
theorem keyed_placeKittyOverlay (scaling : Scaling) (h : t.graphics.Keyed) (imageId : ℕ)
    (placement : PlacementRequest) :
    (t.placeKittyOverlay scaling imageId placement).graphics.Keyed := by
  unfold placeKittyOverlay
  cases hstored : t.graphics.screen.getKittyImage imageId with
  | none => exact h
  | some stored =>
    have hid : imageId < 2 ^ 32 :=
      h.screen.images imageId (AList.lookup_isSome.mp (Option.isSome_iff_exists.mpr ⟨_, hstored⟩))
    dsimp only
    by_cases hcell : t.crosswords.cellWidth = 0 ∨ t.crosswords.cellHeight = 0
    · rwa [if_pos hcell]
    rw [if_neg hcell]
    generalize GraphicData.computeDisplayDimensions _ _ _ _ _ _ = display
    by_cases hzero : display.1 = 0 ∨ display.2 = 0
    · rwa [if_pos hzero]
    rw [if_neg hzero]
    by_cases hlarge : Crosswords.maxGraphicDimension < display.1 ∨
        Crosswords.maxGraphicDimension < display.2
    · rwa [if_pos hlarge]
    rw [if_neg hlarge]
    have hgiven : (if placement.placementId = 0 then t.graphics.allocateInternalPlacementId
        else (placement.placementId, t.graphics)).2.Keyed := by
      split_ifs
      · exact ⟨h.screen, h.inactive⟩
      · exact h
    generalize (if placement.placementId = 0 then t.graphics.allocateInternalPlacementId
      else (placement.placementId, t.graphics)) = given at hgiven ⊢
    have hinserted (p : KittyPlacement) (himage : p.imageId = imageId)
        (hplacement : p.placementId = given.1) :
        { given.2.screen with
          kittyPlacements :=
            given.2.screen.kittyPlacements.insert (imageId, given.1) p }.Keyed := by
      subst himage
      rw [← hplacement]
      exact hgiven.screen.insertPlacement hid
    dsimp only
    with_reducible refine .ite ?_ ?_
    · exact ⟨hinserted _ rfl rfl, hgiven.inactive⟩
    · exact ⟨hinserted _ rfl rfl, hgiven.inactive⟩

theorem keyed_placeVirtualGraphic (h : t.graphics.Keyed) (placement : PlacementRequest) :
    (t.placeVirtualGraphic placement).graphics.Keyed :=
  ⟨⟨h.screen.images, h.screen.placements⟩, h.inactive⟩

theorem keyed_storeGraphic (h : t.graphics.Keyed) (now : ℕ) (graphic : GraphicData) :
    (t.storeGraphic now graphic).graphics.Keyed :=
  h.storeKittyImage now (Nat.mod_lt _ (Nat.two_pow_pos 32)) none graphic

theorem keyed_placeGraphic (scaling : Scaling) (h : t.graphics.Keyed)
    (placement : PlacementRequest) : (t.placeGraphic scaling placement).graphics.Keyed := by
  unfold placeGraphic
  split
  · exact keyed_placeVirtualGraphic h placement
  · split
    · exact keyed_placeKittyOverlay scaling h _ placement
    · exact h

theorem keyed_kittyTransmitAndDisplay (scaling : Scaling) (h : t.graphics.Keyed) (now : ℕ)
    (graphic : GraphicData) (placement : PlacementRequest) :
    (t.kittyTransmitAndDisplay scaling now graphic placement).graphics.Keyed := by
  have hstored := keyed_storeGraphic h now graphic
  unfold kittyTransmitAndDisplay
  dsimp only
  split
  · refine keyed_placeVirtualGraphic ?_ placement
    exact ⟨hstored.screen, hstored.inactive⟩
  · exact keyed_placeKittyOverlay scaling hstored _ placement

theorem keyed_apply (scaling : Scaling) (h : t.graphics.Keyed) (now : ℕ)
    (response : KittyGraphicsResponse) : (t.apply scaling now response).graphics.Keyed := by
  unfold apply
  split
  · exact h
  dsimp only
  split
  on_goal 1 => refine keyed_deleteGraphics ?_ _
  all_goals
    split
    · exact keyed_kittyTransmitAndDisplay scaling h now _ _
    · exact keyed_storeGraphic h now _
    · exact keyed_placeGraphic scaling h _
    · exact h

theorem keyed_receive (h : t.graphics.Keyed) (host : Host) (params : List (List UInt8)) :
    (t.receive outside host params).graphics.Keyed := by
  have hchunking : (t.mapGraphics fun g => { g with kittyChunkingState :=
      (parse outside.codecs host params t.graphics.kittyChunkingState).2 }).graphics.Keyed :=
    ⟨h.screen, h.inactive⟩
  unfold receive
  dsimp only
  split
  · exact keyed_apply _ hchunking _ _
  · exact hchunking

theorem keyed_operate (h : t.graphics.Keyed) (op : Op) :
    (t.operate outside op).graphics.Keyed := by
  unfold operate
  dsimp only
  split
  · exact ⟨KittyScreenState.keyed_empty, KittyScreenState.keyed_empty⟩
  · split_ifs
    · exact h
    · exact ⟨h.screen.mapPlacements fun _ => ⟨rfl, rfl⟩,
        h.inactive.mapPlacements fun _ => ⟨rfl, rfl⟩⟩
  · split_ifs
    · exact h
    · exact ⟨h.inactive, h.screen⟩

theorem keyed_insertGraphic (scaling : Scaling) (h : t.graphics.Keyed) (now : ℕ)
    (graphic : GraphicData) (cursorMovement : Option UInt8) :
    (t.insertGraphic scaling now graphic cursorMovement).graphics.Keyed := by
  have hspace : (t.makeSpace graphic.pixels.length).Keyed := by
    unfold makeSpace
    dsimp only
    split_ifs
    · have hcollected : (t.graphics.collectActiveGraphicIds t.textureAlive).2.Keyed :=
        ⟨h.screen, h.inactive⟩
      exact hcollected.evictImages _ _
    · exact h
  unfold insertGraphic
  dsimp only
  split_ifs
  · exact h
  · exact h
  · exact ⟨hspace.screen, hspace.inactive⟩

theorem keyed_step (h : t.graphics.Keyed) (input : Input) :
    (t.step outside input).graphics.Keyed := by
  cases input with
  | op op => exact keyed_operate h op
  | apc host buffer =>
    unfold step
    dsimp only
    split
    · exact keyed_receive h host _
    · exact h
  | graphic now graphic cursorMovement => exact keyed_insertGraphic _ h now graphic cursorMovement

theorem keyed_run (h : t.graphics.Keyed) (inputs : List Input) :
    (t.run outside inputs).graphics.Keyed :=
  List.foldlRecOn inputs (step outside) (motive := fun t => t.graphics.Keyed) h
    fun _ ht input _ => keyed_step ht input

theorem run_new_keyed (outside : Outside) (columns screenLines historyLimit : ℕ)
    (inputs : List Input) :
    ((Terminal.new columns screenLines historyLimit).run outside inputs).graphics.screen.Keyed :=
  (keyed_run ⟨KittyScreenState.keyed_empty, KittyScreenState.keyed_empty⟩ inputs).screen

end Terminal
end Rio.Kitty
