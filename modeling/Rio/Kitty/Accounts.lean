import Rio.Grid.Slots
import Rio.Kitty.Memory

/-! The counter of graphics memory over runs, against the images that are stored and the atlas
graphics that are pending or shown by a cell. -/

set_option linter.dupNamespace false

namespace Rio

namespace Grid

/-- Some cell of the screen or the history shows a texture. -/
def showsTexture (g : Grid Square) (id : ℕ) : Bool :=
  (lineRange g.topmostLine g.lines).any fun line =>
    (List.range g.columns).any fun col =>
      (g.cellGraphic ⟨line, col⟩).any fun cell => cell.texture.id == id

end Grid

namespace Kitty

/-- An atlas graphic that was inserted, and the size of its pixels. -/
structure AtlasGraphic where
  id : ℕ
  bytes : ℕ
  deriving DecidableEq, Repr

namespace Terminal

/-- An atlas graphic is pending, or a cell shows it. -/
def holdsAtlas (t : Terminal) (id : ℕ) : Bool :=
  t.graphics.pending.any (fun graphic => graphic.id == id) ||
    t.crosswords.grid.showsTexture id || t.crosswords.inactiveGrid.showsTexture id

/-- The bytes of the atlas graphics that are pending or shown by a cell. -/
def atlasBytes (t : Terminal) (atlas : List AtlasGraphic) : ℕ :=
  total AtlasGraphic.bytes (atlas.filter fun a => t.holdsAtlas a.id)

/-- The graphic that an input adds to the atlas. -/
def addsToAtlas (outside : Outside) (t : Terminal) : Input → Option AtlasGraphic
  | .graphic now graphic cursorMovement =>
    let t' := t.step outside (.graphic now graphic cursorMovement)
    if t'.graphics.lastId = t.graphics.lastId then none
    else some ⟨t'.graphics.lastId, graphic.pixels.length⟩
  | _ => none

/-- The image that an input stores, or the graphic that it adds to the atlas. -/
def storedBytes (outside : Outside) (t : Terminal) (input : Input) : Option ℕ :=
  match t.completed outside input with
  | some (host, cmd) => (cmd.sends outside.codecs host).map fun graphic => graphic.pixels.length
  | none => (t.addsToAtlas outside input).map AtlasGraphic.bytes

end Terminal

/-- A terminal beside the atlas graphics that were inserted so far. -/
def stepWithAtlas (outside : Outside) (s : Terminal × List AtlasGraphic) (input : Input) :
    Terminal × List AtlasGraphic :=
  (s.1.step outside input, (s.1.addsToAtlas outside input).toList ++ s.2)

/-- The counter is the sum of what is stored for both screens and in the atlas. -/
def Accounted (s : Terminal × List AtlasGraphic) : Prop :=
  s.1.graphics.totalBytes = s.1.graphics.imageBytes + s.1.atlasBytes s.2

/-- No subtraction from the counter takes more than there is. -/
structure NeverUnderflows (outside : Outside) (t : Terminal) (input : Input) : Prop where
  /-- Storing an image evicts others, and replaces the image with its id. -/
  stores : ∀ host cmd graphic, t.completed outside input = some (host, cmd) →
    cmd.sends outside.codecs host = some graphic →
      let id := graphic.id % 2 ^ 32
      let used := id :: t.graphics.screen.placementIds
      let room := (t.graphics.evictImages graphic.pixels.length used).2
      t.graphics.freedBytes graphic.pixels.length used ≤ t.graphics.totalBytes ∧
        room.screen.bytesOf id ≤ room.totalBytes
  /-- Inserting an atlas graphic evicts images. -/
  inserts : ∀ now graphic cursorMovement, input = .graphic now graphic cursorMovement →
    let used := (t.graphics.collectActiveGraphicIds t.textureAlive).1
    t.graphics.freedBytes graphic.pixels.length used ≤ t.graphics.totalBytes
  clears : input = .op .resetState →
    t.graphics.kittyInactiveScreen.bytes ≤ t.graphics.totalBytes

/-- The counter is right after an input; no subtraction underflows; and what is stored fits into
the limit if it does without the other images. -/
structure AccountsMemory (outside : Outside) (s : Terminal × List AtlasGraphic) (input : Input) :
    Prop where
  accounted : Accounted (stepWithAtlas outside s input)
  neverUnderflows : NeverUnderflows outside s.1 input
  fits : ∀ bytes, s.1.storedBytes outside input = some bytes →
    bytes + s.1.atlasBytes s.2 ≤ s.1.graphics.totalLimit →
      (s.1.step outside input).graphics.totalBytes ≤ s.1.graphics.totalLimit

/-- No image with pixels is deleted together with its placements or cleared from the active
screen. -/
structure KeepsImages (outside : Outside) (t : Terminal) (input : Input) : Prop where
  deletes : ∀ host cmd, t.completed outside input = some (host, cmd) → cmd.action = .delete →
    cmd.deletion.deleteData = true →
      let cleared := t.crosswords.deleteGraphics (Char.ofNat cmd.deletion.action.toNat)
        cmd.deletion.x cmd.deletion.y
      ∀ id stored, t.graphics.screen.getKittyImage id = some stored →
        Terminal.selectsImage t.graphics cmd.deletion cleared.pos cleared.grid.historySize
          (Terminal.textureAlive { t with crosswords := cleared }) id = true →
        stored.data.pixels = []
  clears : input = .op .resetState → ∀ id stored,
    t.graphics.screen.getKittyImage id = some stored → stored.data.pixels = []

/-- When the counter is right after an input: no image with pixels is deleted together with its
placements or cleared from the active screen, and every atlas graphic with pixels is still
shown. -/
structure MemoryFits (outside : Outside) (s : Terminal × List AtlasGraphic) (input : Input) :
    Prop where
  images : KeepsImages outside s.1 input
  atlas : ∀ a ∈ (stepWithAtlas outside s input).2, 0 < a.bytes →
    (stepWithAtlas outside s input).1.holdsAtlas a.id = true

/-! ### What one input does to the counter -/

/-- Some bytes of the counter belong to no image of `g'`: those that belonged to none in `g`,
those that were lost and those that were tracked. -/
structure Graphics.Leaks (lost tracked : ℕ) (g g' : Graphics) : Prop where
  totalBytes : ∀ rest, g.totalBytes = g.imageBytes + rest →
    g'.totalBytes = g'.imageBytes + lost + tracked + rest
  totalLimit : g'.totalLimit = g.totalLimit
  pending : g'.pending = []

namespace Graphics
variable {g g' : Graphics}

theorem SameImages.leaks (h : g.SameImages g') (hpending : g.pending = []) : g.Leaks 0 0 g' where
  totalBytes rest hrest := by
    rw [h.totalBytes, h.imageBytes]
    exact hrest
  totalLimit := h.totalLimit
  pending := h.pending hpending

theorem Leaks.trans_same {lost tracked : ℕ} {g'' : Graphics} (h : g.Leaks lost tracked g')
    (hsame : g'.SameImages g'') : g.Leaks lost tracked g'' where
  totalBytes rest hrest := by
    rw [hsame.totalBytes, hsame.imageBytes]
    exact h.totalBytes rest hrest
  totalLimit := hsame.totalLimit.trans h.totalLimit
  pending := hsame.pending h.pending

theorem SameImages.trans_leaks {lost tracked : ℕ} {g'' : Graphics} (hsame : g.SameImages g')
    (h : g'.Leaks lost tracked g'') : g.Leaks lost tracked g'' where
  totalBytes rest hrest := by
    refine h.totalBytes rest ?_
    rw [hsame.totalBytes, hsame.imageBytes]
    exact hrest
  totalLimit := h.totalLimit.trans hsame.totalLimit
  pending := h.pending

theorem swap_leaks (h : g.pending = []) : g.Leaks 0 0 g.swapKittyScreenState where
  totalBytes rest hrest := by
    have hbytes : g.swapKittyScreenState.imageBytes = g.imageBytes := Nat.add_comm _ _
    rw [hbytes]
    exact hrest
  totalLimit := rfl
  pending := h

theorem clear_leaks (h : g.pending = []) : g.Leaks g.screen.bytes 0 g.clearAllKittyState where
  totalBytes rest hrest := by
    change g.totalBytes - g.kittyInactiveScreen.bytes = 0 + 0 + g.screen.bytes + 0 + rest
    unfold imageBytes at hrest
    omega
  totalLimit := rfl
  pending := h

/-- An eviction takes away what it frees, from the counter and from the images. -/
theorem Evicts.leaks {requiredBytes : ℕ} {usedIds : List ℕ}
    (h : g.Evicts requiredBytes usedIds g') : g.Leaks 0 0 g' where
  totalBytes rest hrest := by
    have himages := h.imageBytes
    rw [h.totalBytes]
    omega
  totalLimit := h.totalLimit
  pending := h.pending

theorem track_leaks (h : g.pending = []) (now bytes : ℕ) :
    g.Leaks 0 bytes (g.nextId.2.trackGraphic now g.nextId.1 bytes) where
  totalBytes rest hrest := by
    change g.totalBytes + bytes = g.imageBytes + 0 + bytes + rest
    omega
  totalLimit := rfl
  pending := h

theorem Leaks.trans {lost tracked : ℕ} {g'' : Graphics} (h : g.Leaks 0 0 g')
    (h' : g'.Leaks lost tracked g'') : g.Leaks lost tracked g'' where
  totalBytes rest hrest := h'.totalBytes rest (h.totalBytes rest hrest)
  totalLimit := h'.totalLimit.trans h.totalLimit
  pending := h'.pending

/-- The room that is made for an image. -/
theorem storeKittyImage_eq (g : Graphics) (now imageId : ℕ) (data : GraphicData) :
    ∃ room, room = (g.evictImages data.pixels.length (imageId :: g.screen.placementIds)).2 ∧
      (g.storeKittyImage now imageId none data).totalBytes =
        room.totalBytes - room.screen.bytesOf imageId + data.pixels.length ∧
      (g.storeKittyImage now imageId none data).imageBytes + room.screen.bytesOf imageId =
        room.imageBytes + data.pixels.length ∧
      (g.storeKittyImage now imageId none data).totalLimit = room.totalLimit ∧
      (g.storeKittyImage now imageId none data).pending = room.pending := by
  have hroom : (if g.totalLimit < g.totalBytes + data.pixels.length then
      (g.evictImages data.pixels.length (imageId :: g.screen.placementIds)).2 else g) =
        (g.evictImages data.pixels.length (imageId :: g.screen.placementIds)).2 := by
    by_cases hover : g.totalLimit < g.totalBytes + data.pixels.length
    · rw [if_pos hover]
    · rw [if_neg hover]
      unfold evictImages
      rw [if_pos (Nat.le_of_not_lt hover)]
  refine ⟨_, rfl, ?_⟩
  unfold storeKittyImage
  dsimp only
  rw [hroom]
  generalize (g.evictImages data.pixels.length (imageId :: g.screen.placementIds)).2 = room
  have hinsert : Table.weight StoredImage.bytes
      (room.screen.kittyImages.insert imageId ⟨{ data with transmitTime := now }, now⟩) +
        room.screen.bytesOf imageId = room.screen.bytes + data.pixels.length :=
    Table.weight_insert_add room.screen.kittyImages imageId _
  refine ⟨?_, ?_, rfl, rfl⟩
  · unfold KittyScreenState.bytesOf Table.weightOf
    cases room.screen.kittyImages.lookup imageId <;> rfl
  change Table.weight StoredImage.bytes
    (room.screen.kittyImages.insert imageId ⟨{ data with transmitTime := now }, now⟩) +
      room.kittyInactiveScreen.bytes + room.screen.bytesOf imageId =
        room.screen.bytes + room.kittyInactiveScreen.bytes + data.pixels.length
  omega

theorem bytesOf_le (k : KittyScreenState) (imageId : ℕ) : k.bytesOf imageId ≤ k.bytes := by
  have hevict := k.evict_bytes imageId
  omega

theorem store_leaks (h : g.pending = []) (now imageId : ℕ) (data : GraphicData) :
    g.Leaks 0 0 (g.storeKittyImage now imageId none data) := by
  obtain ⟨room, hroom, htotal, himages, hlimit, hpending⟩ :=
    storeKittyImage_eq g now imageId data
  have hevicts := evictImages_evicts h data.pixels.length (imageId :: g.screen.placementIds)
  rw [← hroom] at hevicts
  refine hevicts.leaks.trans ⟨fun rest hrest => ?_, hlimit, hpending.trans hevicts.pending⟩
  have hold := bytesOf_le room.screen imageId
  unfold imageBytes at hrest himages ⊢
  omega

/-- What is stored fits into the limit if it does without the other images. -/
theorem store_fits (h : g.pending = []) {rest : ℕ} (hrest : g.totalBytes = g.imageBytes + rest)
    (now imageId : ℕ) (data : GraphicData) (hfits : data.pixels.length + rest ≤ g.totalLimit) :
    (g.storeKittyImage now imageId none data).totalBytes ≤ g.totalLimit := by
  obtain ⟨room, hroom, htotal, -, -, -⟩ := storeKittyImage_eq g now imageId data
  have hevicts := evictImages_evicts h data.pixels.length (imageId :: g.screen.placementIds)
  rw [← hroom] at hevicts
  have henough := freedBytes_enough h data.pixels.length (imageId :: g.screen.placementIds)
  have hfreed := hevicts.imageBytes
  have hroomTotal := hevicts.totalBytes
  omega

end Graphics

namespace Terminal
variable {outside : Outside} {t : Terminal}

/-- What inserting an atlas graphic does: nothing, or it tracks the graphic under a new id. -/
theorem insertGraphic_cases (scaling : Scaling) (t : Terminal) (now : ℕ) (graphic : GraphicData)
    (cursorMovement : Option UInt8) :
    (t.insertGraphic scaling now graphic cursorMovement).graphics = t.graphics ∨
      ∃ room, room = t.makeSpace graphic.pixels.length ∧
        (room.nextId.2.trackGraphic now room.nextId.1 graphic.pixels.length).SameImages
          (t.insertGraphic scaling now graphic cursorMovement).graphics := by
  unfold insertGraphic
  dsimp only
  generalize graphic.computeDisplayDimensions scaling _ _ _ _ = display
  by_cases hlarge : Crosswords.maxGraphicDimension < display.1 ∨
      Crosswords.maxGraphicDimension < display.2
  · rw [if_pos hlarge]
    exact .inl rfl
  by_cases hzero : display.1 = 0 ∨ display.2 = 0
  · rw [if_neg hlarge, if_pos hzero]
    exact .inl rfl
  rw [if_neg hlarge, if_neg hzero]
  exact .inr ⟨_, rfl, rfl, rfl, rfl, rfl, rfl, rfl, rfl, fun _ => rfl⟩

theorem makeSpace_evicts (h : t.graphics.pending = []) (graphicBytes : ℕ) :
    t.graphics.Evicts graphicBytes
      (t.graphics.collectActiveGraphicIds t.textureAlive).1 (t.makeSpace graphicBytes) := by
  have hcollected := Graphics.evictImages_evicts
    (g := (t.graphics.collectActiveGraphicIds t.textureAlive).2) h graphicBytes
    (t.graphics.collectActiveGraphicIds t.textureAlive).1
  unfold makeSpace
  by_cases hover : t.graphics.totalLimit < t.graphics.totalBytes + graphicBytes
  · rw [if_pos hover]
    exact ⟨hcollected.imageBytes, hcollected.totalBytes, hcollected.totalLimit, hcollected.lastId,
      hcollected.pending⟩
  · rw [if_neg hover]
    have hfreed : t.graphics.freedBytes graphicBytes
        (t.graphics.collectActiveGraphicIds t.textureAlive).1 = 0 := by
      unfold Graphics.freedBytes Graphics.evicted
      rw [if_pos (Nat.le_of_not_lt hover)]
      rfl
    exact ⟨by rw [hfreed]; rfl, by rw [hfreed]; rfl, rfl, rfl, h⟩

/-- Inserting an atlas graphic tracks it if it gets a new id. -/
theorem insertGraphic_leaks (h : t.graphics.pending = []) (scaling : Scaling) (now : ℕ)
    (graphic : GraphicData) (cursorMovement : Option UInt8) :
    ((t.insertGraphic scaling now graphic cursorMovement).graphics.lastId = t.graphics.lastId ∧
        t.graphics.Leaks 0 0 (t.insertGraphic scaling now graphic cursorMovement).graphics) ∨
      ((t.insertGraphic scaling now graphic cursorMovement).graphics.lastId ≠ t.graphics.lastId ∧
        t.graphics.Leaks 0 graphic.pixels.length
          (t.insertGraphic scaling now graphic cursorMovement).graphics) := by
  obtain hsame | ⟨room, rfl, hsame⟩ := insertGraphic_cases scaling t now graphic cursorMovement
  · rw [hsame]
    exact .inl ⟨rfl, (Graphics.SameImages.refl _).leaks h⟩
  · have hevicts := makeSpace_evicts h graphic.pixels.length
    right
    refine ⟨?_, (hevicts.leaks.trans (Graphics.track_leaks hevicts.pending now _)).trans_same hsame⟩
    have hlast : (t.insertGraphic scaling now graphic cursorMovement).graphics.lastId =
        (t.makeSpace graphic.pixels.length).lastId + 1 := hsame.lastId
    have hroom := hevicts.lastId
    omega

theorem insertGraphic_fits (h : t.graphics.pending = []) {rest : ℕ}
    (hrest : t.graphics.totalBytes = t.graphics.imageBytes + rest) (scaling : Scaling) (now : ℕ)
    (graphic : GraphicData) (cursorMovement : Option UInt8)
    (hnew : (t.insertGraphic scaling now graphic cursorMovement).graphics.lastId ≠
      t.graphics.lastId)
    (hfits : graphic.pixels.length + rest ≤ t.graphics.totalLimit) :
    (t.insertGraphic scaling now graphic cursorMovement).graphics.totalBytes ≤
      t.graphics.totalLimit := by
  obtain hsame | ⟨room, rfl, hsame⟩ := insertGraphic_cases scaling t now graphic cursorMovement
  · exact absurd (congrArg Graphics.lastId hsame) hnew
  · have hevicts := makeSpace_evicts h graphic.pixels.length
    have henough := Graphics.freedBytes_enough h graphic.pixels.length
      (t.graphics.collectActiveGraphicIds t.textureAlive).1
    have htotal : (t.insertGraphic scaling now graphic cursorMovement).graphics.totalBytes =
        (t.makeSpace graphic.pixels.length).totalBytes + graphic.pixels.length := hsame.totalBytes
    have hroom := hevicts.totalBytes
    have hfreed := hevicts.imageBytes
    omega

/-! ### Commands -/

theorem dispatch_idle {codecs : Codecs} {host : Host} {cmd : KittyGraphicsCommand}
    (hsends : cmd.sends codecs host = none) (hput : cmd.action ≠ .put)
    (hdelete : cmd.action ≠ .delete) : (cmd.dispatch codecs host).Idle := by
  have htransmission (h : cmd.action = .transmit ∨ cmd.action = .transmitAndDisplay) :
      (cmd.transmission codecs host).Idle := by
    unfold KittyGraphicsCommand.sends at hsends
    rw [if_pos h] at hsends
    unfold KittyGraphicsCommand.transmission
    cases hgraphic : createGraphicData codecs host cmd with
    | error err => exact (cmd.replyUnlessImplicit_idle err.message true).1
    | ok graphic => simp [hgraphic] at hsends
  have hunsupported : ((if cmd.implicitId then {} else
      let message := "EINVAL:unsupported action"
      let named := cmd.reply message true
      if named.response = none ∧ cmd.quiet ≠ 2 then
        { response := some (apcResponse [] message.toList) }
      else named : KittyGraphicsResponse)).Idle := by
    dsimp only
    split
    · exact ⟨rfl, rfl, rfl⟩
    · split
      · exact ⟨rfl, rfl, rfl⟩
      · exact cmd.reply_idle _ _
  unfold KittyGraphicsCommand.dispatch
  cases haction : cmd.action with
  | transmit => exact htransmission (.inl haction)
  | transmitAndDisplay => exact htransmission (.inr haction)
  | put => exact absurd haction hput
  | delete => exact absurd haction hdelete
  | query => exact ⟨rfl, rfl, rfl⟩
  | frame => exact hunsupported
  | animate => exact hunsupported
  | compose => exact hunsupported

theorem withChunking_sameImages (t : Terminal) (chunking : KittyGraphicsState) :
    t.graphics.SameImages (t.withChunking chunking).graphics :=
  ⟨rfl, rfl, rfl, rfl, rfl, rfl, rfl, fun h => h⟩

/-- A complete command stores an image, deletes, or leaves the images alone. -/
theorem step_completed_cases {input : Input} {host : Host} {cmd : KittyGraphicsCommand}
    (h : t.completed outside input = some (host, cmd)) :
    ∃ chunking,
      (∃ graphic, cmd.sends outside.codecs host = some graphic ∧
        ((t.withChunking chunking).storeGraphic host.now graphic).graphics.SameImages
          (t.step outside input).graphics) ∨
      (cmd.action = .delete ∧
        t.step outside input = (t.withChunking chunking).deleteGraphics cmd.deletion) ∨
      (cmd.sends outside.codecs host = none ∧ cmd.action ≠ .delete ∧
        t.graphics.SameImages (t.step outside input).graphics) := by
  obtain ⟨chunking, hstep⟩ := step_of_completed h
  refine ⟨chunking, ?_⟩
  cases hsends : cmd.sends outside.codecs host with
  | some graphic =>
    refine .inl ⟨graphic, rfl, ?_⟩
    rw [hstep, apply_sends _ hsends]
    split
    · exact kittyTransmitAndDisplay_sameImages _ _ _ _ _
    · exact .refl _
  | none =>
    by_cases hdelete : cmd.action = .delete
    · exact .inr (.inl ⟨hdelete, hstep.trans (apply_delete _ hdelete)⟩)
    refine .inr (.inr ⟨rfl, hdelete, (withChunking_sameImages t chunking).trans ?_⟩)
    rw [hstep]
    by_cases hput : cmd.action = .put
    · rw [apply_put _ hput]
      exact placeGraphic_sameImages _ _ _
    · rw [apply_idle (dispatch_idle hsends hput hdelete)]
      exact .refl _

/-- A delete request in lower case leaves placements that do not depend on the transmissions in
progress. -/
theorem deleteImages_chunking (g : Graphics) (chunking : KittyGraphicsState)
    {delete : DeleteRequest} (hdelete : delete.deleteData = false) (cursor : Pos)
    (historySize : ℕ) (alive : ℕ → Bool) :
    (deleteImages { g with kittyChunkingState := chunking } delete cursor historySize
      alive).screen = (deleteImages g delete cursor historySize alive).screen := by
  unfold deleteImages
  simp only [hdelete, Bool.false_eq_true, if_false, apply_ite Graphics.screen]
  cases g.screen.kittyImageNumbers.lookup
    (if 0 < delete.imageNumber then delete.imageNumber else delete.imageId) <;> rfl

theorem selectsImage_chunking (g : Graphics) (chunking : KittyGraphicsState)
    (delete : DeleteRequest) (cursor : Pos) (historySize : ℕ) (alive : ℕ → Bool) :
    selectsImage { g with kittyChunkingState := chunking } delete cursor historySize alive =
      selectsImage g delete cursor historySize alive := by
  funext id
  unfold selectsImage
  dsimp only
  rw [deleteImages_chunking g chunking rfl]

/-- What deleting graphics does to the counter. -/
theorem deleteGraphics_leaks (chunking : KittyGraphicsState)
    (delete : DeleteRequest) :
    let cleared := t.crosswords.deleteGraphics (Char.ofNat delete.action.toNat) delete.x delete.y
    ∃ lost, t.graphics.Leaks lost 0 ((t.withChunking chunking).deleteGraphics delete).graphics ∧
      (lost = 0 ↔ (delete.deleteData = true → ∀ id stored,
        t.graphics.screen.getKittyImage id = some stored →
          selectsImage t.graphics delete cleared.pos cleared.grid.historySize
            (textureAlive { t with crosswords := cleared }) id = true →
          stored.data.pixels = [])) := by
  intro cleared
  have hdeletes := deleteImages_deletesOnly (t.withChunking chunking).graphics delete cleared.pos
    cleared.grid.historySize (textureAlive { t with crosswords := cleared })
  rw [show (t.withChunking chunking).graphics =
    { t.graphics with kittyChunkingState := chunking } from rfl, selectsImage_chunking] at hdeletes
  obtain ⟨lost, hbytes, hlost⟩ := t.graphics.screen.deleteKittyImages_bytes fun id =>
    delete.deleteData && selectsImage t.graphics delete cleared.pos cleared.grid.historySize
      (textureAlive { t with crosswords := cleared }) id
  refine ⟨lost, ⟨fun rest hrest => ?_, hdeletes.totalLimit, rfl⟩, hlost.trans ?_⟩
  · have hactive : ((t.withChunking chunking).deleteGraphics delete).graphics.screen.bytes + lost =
        t.graphics.screen.bytes :=
      (congrArg (Table.weight StoredImage.bytes · + lost) hdeletes.images).trans hbytes
    have hinactive :
        ((t.withChunking chunking).deleteGraphics delete).graphics.kittyInactiveScreen.bytes =
          t.graphics.kittyInactiveScreen.bytes :=
      congrArg KittyScreenState.bytes hdeletes.inactive
    have htotal : ((t.withChunking chunking).deleteGraphics delete).graphics.totalBytes =
        t.graphics.totalBytes := hdeletes.totalBytes
    unfold Graphics.imageBytes at hrest ⊢
    omega
  · simp only [Bool.and_eq_true]
    exact ⟨fun h hupper id stored hget hselects => h id stored hget ⟨hupper, hselects⟩,
      fun h id stored hget hselects => h hselects.1 id stored hget hselects.2⟩

theorem operate_leaks (h : t.graphics.pending = []) (outside : Outside) {op : Op}
    (hreset : op ≠ .resetState) : t.graphics.Leaks 0 0 (t.operate outside op).graphics := by
  have hresized (numCols numLines cellWidth cellHeight : ℕ) :
      t.graphics.Leaks 0 0
        (t.operate outside (.resize numCols numLines cellWidth cellHeight)).graphics := by
    refine Graphics.SameImages.leaks ?_ h
    unfold operate
    dsimp only
    exact .ite (.refl _) ⟨rfl, rfl, rfl, rfl, rfl, rfl, rfl, fun h => h⟩
  unfold operate
  dsimp only
  split
  · exact absurd rfl hreset
  · exact hresized _ _ _ _
  · split
    · exact (Graphics.SameImages.refl _).leaks h
    · exact Graphics.swap_leaks h

/-- What an input does to the counter. -/
theorem step_leaks (h : t.graphics.pending = []) (outside : Outside) (input : Input) :
    ∃ lost, t.graphics.Leaks lost ((t.addsToAtlas outside input).elim 0 AtlasGraphic.bytes)
        (t.step outside input).graphics ∧
      (lost = 0 ↔ KeepsImages outside t input) := by
  have hquiet (hcompleted : t.completed outside input = none)
      (hclears : input ≠ .op .resetState) : (0 : ℕ) = 0 ↔ KeepsImages outside t input := by
    refine iff_of_true rfl ⟨fun host cmd hsome => ?_, fun hclear => absurd hclear hclears⟩
    rw [hcompleted] at hsome
    cases hsome
  cases input with
  | op op =>
    have hadds : t.addsToAtlas outside (.op op) = none := rfl
    have hstep : (t.step outside (.op op)).graphics = (t.operate outside op).graphics := rfl
    rw [hadds, hstep]
    by_cases hreset : op = .resetState
    · subst hreset
      have hclear : (t.operate outside .resetState).graphics = t.graphics.clearAllKittyState := rfl
      refine ⟨t.graphics.screen.bytes, ?_, ?_⟩
      · rw [hclear]
        exact Graphics.clear_leaks h
      · rw [KittyScreenState.bytes_eq_zero_iff]
        refine ⟨fun hpixels => ⟨fun host cmd hsome => ?_, fun _ => hpixels⟩,
          fun hkeeps => hkeeps.clears rfl⟩
        change none = _ at hsome
        cases hsome
    · exact ⟨0, operate_leaks h outside hreset, hquiet rfl fun heq => hreset (Input.op.inj heq)⟩
  | graphic now graphic cursorMovement =>
    have hstep : t.step outside (.graphic now graphic cursorMovement) =
        t.insertGraphic outside.scaling now graphic cursorMovement := rfl
    refine ⟨0, ?_, hquiet rfl nofun⟩
    unfold addsToAtlas
    dsimp only
    rw [hstep]
    obtain ⟨hlast, hleaks⟩ | ⟨hlast, hleaks⟩ :=
      insertGraphic_leaks h outside.scaling now graphic cursorMovement
    · rw [if_pos hlast]
      exact hleaks
    · rw [if_neg hlast]
      exact hleaks
  | apc host buffer =>
    cases hcompleted : t.completed outside (.apc host buffer) with
    | none =>
      obtain ⟨chunking, hstep⟩ := step_of_not_completed hcompleted
      refine ⟨0, ?_, hquiet hcompleted nofun⟩
      rw [hstep]
      exact (withChunking_sameImages t chunking).leaks h
    | some complete =>
      obtain ⟨host', cmd⟩ := complete
      obtain ⟨chunking, hcase⟩ := step_completed_cases hcompleted
      have hother (haction : cmd.action ≠ .delete) :
          (0 : ℕ) = 0 ↔ KeepsImages outside t (.apc host buffer) := by
        refine iff_of_true rfl ⟨fun host'' cmd' hsome hdelete => ?_, nofun⟩
        cases hcompleted.symm.trans hsome
        exact absurd hdelete haction
      obtain ⟨graphic, hsends, hsame⟩ | ⟨hdelete, hstep⟩ | ⟨-, haction, hsame⟩ := hcase
      · have hstores : (t.withChunking chunking).graphics.Leaks 0 0
            ((t.withChunking chunking).storeGraphic host'.now graphic).graphics :=
          Graphics.store_leaks (g := (t.withChunking chunking).graphics) h _ _ _
        refine ⟨0, ?_, hother fun hdelete => ?_⟩
        · exact ((withChunking_sameImages t chunking).trans_leaks hstores).trans_same hsame
        · obtain haction | haction := (KittyGraphicsCommand.sends_eq_some hsends).1
          · rw [haction] at hdelete
            cases hdelete
          · rw [haction] at hdelete
            cases hdelete
      · obtain ⟨lost, hleaks, hlost⟩ := deleteGraphics_leaks chunking cmd.deletion
        rw [hstep]
        refine ⟨lost, hleaks, hlost.trans ⟨fun hpixels => ⟨?_, nofun⟩, fun hkeeps => ?_⟩⟩
        · intro host'' cmd' hsome _
          cases hcompleted.symm.trans hsome
          exact hpixels
        · exact hkeeps.deletes _ _ hcompleted hdelete
      · exact ⟨0, hsame.leaks h, hother haction⟩

end Terminal

/-! ### Runs -/

/-- The counter is the sum of the images and all atlas graphics that were inserted; those with
pixels are shown; and no graphic is pending. -/
structure Counted (s : Terminal × List AtlasGraphic) : Prop where
  pending : s.1.graphics.pending = []
  totalBytes : s.1.graphics.totalBytes = s.1.graphics.imageBytes + total AtlasGraphic.bytes s.2
  holds : ∀ a ∈ s.2, 0 < a.bytes → s.1.holdsAtlas a.id = true

/-- The atlas graphics that are shown, and those that are not. -/
theorem atlasBytes_add (t : Terminal) (atlas : List AtlasGraphic) :
    ∃ gone, t.atlasBytes atlas + gone = total AtlasGraphic.bytes atlas ∧
      (gone = 0 ↔ ∀ a ∈ atlas, 0 < a.bytes → t.holdsAtlas a.id = true) := by
  unfold Terminal.atlasBytes
  refine ⟨total AtlasGraphic.bytes (atlas.filter fun a => !t.holdsAtlas a.id),
    total_filter_add (fun a => t.holdsAtlas a.id) atlas, total_filter_not_eq_zero_iff.trans ?_⟩
  refine forall₂_congr fun a _ => ⟨fun h hbytes => ?_, fun h hgone => ?_⟩
  · by_contra hnot
    have hzero := h (Bool.eq_false_iff.mpr hnot)
    omega
  · by_contra hbytes
    rw [h (Nat.pos_of_ne_zero hbytes)] at hgone
    cases hgone

theorem Counted.atlasBytes {s : Terminal × List AtlasGraphic} (h : Counted s) :
    s.1.atlasBytes s.2 = total AtlasGraphic.bytes s.2 := by
  obtain ⟨gone, hsum, hgone⟩ := atlasBytes_add s.1 s.2
  have hzero := hgone.mpr h.holds
  omega

/-- Nothing that is subtracted from the counter is more than what it counts. -/
theorem Counted.neverUnderflows {s : Terminal × List AtlasGraphic} (h : Counted s)
    (outside : Outside) (input : Input) : NeverUnderflows outside s.1 input where
  stores host cmd graphic _ _ := by
    have hevicts := Graphics.evictImages_evicts h.pending graphic.pixels.length
      (graphic.id % 2 ^ 32 :: s.1.graphics.screen.placementIds)
    have hroom := hevicts.leaks.totalBytes _ h.totalBytes
    have hfreed := hevicts.imageBytes
    have hcounted := h.totalBytes
    refine ⟨by omega, ?_⟩
    have hold := Graphics.bytesOf_le (s.1.graphics.evictImages graphic.pixels.length
      (graphic.id % 2 ^ 32 :: s.1.graphics.screen.placementIds)).2.screen (graphic.id % 2 ^ 32)
    unfold Graphics.imageBytes at hroom
    omega
  inserts _ graphic _ _ := by
    have hfreed := (Terminal.makeSpace_evicts h.pending graphic.pixels.length).imageBytes
    have hcounted := h.totalBytes
    dsimp only
    omega
  clears _ := by
    have hcounted := h.totalBytes
    unfold Graphics.imageBytes at hcounted
    omega

/-- What is stored fits into the limit if it does without the other images. -/
theorem Counted.fits {s : Terminal × List AtlasGraphic} (h : Counted s) {outside : Outside}
    {input : Input} {bytes : ℕ} (hstored : s.1.storedBytes outside input = some bytes)
    (hfits : bytes + s.1.atlasBytes s.2 ≤ s.1.graphics.totalLimit) :
    (s.1.step outside input).graphics.totalBytes ≤ s.1.graphics.totalLimit := by
  rw [h.atlasBytes] at hfits
  unfold Terminal.storedBytes at hstored
  cases hcompleted : s.1.completed outside input with
  | none =>
    rw [hcompleted] at hstored
    obtain ⟨added, hadded, rfl⟩ := Option.map_eq_some_iff.mp hstored
    cases input with
    | op op => cases hadded
    | apc host buffer => cases hadded
    | graphic now graphic cursorMovement =>
      have hstep : s.1.step outside (.graphic now graphic cursorMovement) =
          s.1.insertGraphic outside.scaling now graphic cursorMovement := rfl
      unfold Terminal.addsToAtlas at hadded
      dsimp only at hadded
      rw [hstep] at hadded ⊢
      by_cases hlast : (s.1.insertGraphic outside.scaling now graphic
          cursorMovement).graphics.lastId = s.1.graphics.lastId
      · rw [if_pos hlast] at hadded
        cases hadded
      · rw [if_neg hlast] at hadded
        cases hadded
        exact Terminal.insertGraphic_fits h.pending h.totalBytes outside.scaling now graphic
          cursorMovement hlast hfits
  | some complete =>
    obtain ⟨host, cmd⟩ := complete
    rw [hcompleted] at hstored
    obtain ⟨graphic, hsends, rfl⟩ := Option.map_eq_some_iff.mp hstored
    obtain ⟨chunking, hcase⟩ := Terminal.step_completed_cases hcompleted
    obtain ⟨graphic', hsends', hsame⟩ | ⟨hdelete, -⟩ | ⟨hnone, -, -⟩ := hcase
    · cases hsends.symm.trans hsends'
      have hstored := Graphics.store_fits (g := (s.1.withChunking chunking).graphics) h.pending
        h.totalBytes host.now (graphic.id % 2 ^ 32) graphic hfits
      rw [hsame.totalBytes]
      exact hstored
    · obtain haction | haction := (KittyGraphicsCommand.sends_eq_some hsends).1
      · rw [haction] at hdelete
        cases hdelete
      · rw [haction] at hdelete
        cases hdelete
    · rw [hsends] at hnone
      cases hnone

theorem total_toList_append (added : Option AtlasGraphic) (atlas : List AtlasGraphic) :
    total AtlasGraphic.bytes (added.toList ++ atlas) =
      added.elim 0 AtlasGraphic.bytes + total AtlasGraphic.bytes atlas := by
  rw [total_append]
  cases added <;> rfl

theorem Counted.accounted_iff {s : Terminal × List AtlasGraphic} (h : Counted s)
    (outside : Outside) (input : Input) :
    Accounted (stepWithAtlas outside s input) ↔ MemoryFits outside s input := by
  obtain ⟨lost, hleaks, hlost⟩ := Terminal.step_leaks h.pending outside input
  have htotal := hleaks.totalBytes _ h.totalBytes
  have hatlas := total_toList_append (s.1.addsToAtlas outside input) s.2
  obtain ⟨gone, hsum, hgone⟩ := atlasBytes_add (stepWithAtlas outside s input).1
    (stepWithAtlas outside s input).2
  have hfits : MemoryFits outside s input ↔ lost = 0 ∧ gone = 0 := by
    rw [hlost, hgone]
    exact ⟨fun hfit => ⟨hfit.images, hfit.atlas⟩, fun hboth => ⟨hboth.1, hboth.2⟩⟩
  rw [hfits]
  unfold Accounted stepWithAtlas at *
  dsimp only at *
  constructor
  · intro hcounted
    omega
  · rintro ⟨rfl, rfl⟩
    omega

theorem Counted.step {s : Terminal × List AtlasGraphic} (h : Counted s) {outside : Outside}
    {input : Input} (hfits : MemoryFits outside s input) :
    Counted (stepWithAtlas outside s input) := by
  obtain ⟨lost, hleaks, hlost⟩ := Terminal.step_leaks h.pending outside input
  have htotal := hleaks.totalBytes _ h.totalBytes
  have hatlas := total_toList_append (s.1.addsToAtlas outside input) s.2
  have hzero := hlost.mpr hfits.images
  refine ⟨hleaks.pending, ?_, hfits.atlas⟩
  unfold stepWithAtlas
  dsimp only
  omega

/-- In a run, the counter is right after every input, never underflows and stays within the
limit after every store, if and only if every input keeps the images and atlas graphics with
pixels. -/
theorem run_accountsMemory_iff (outside : Outside) (columns screenLines historyLimit : ℕ)
    (inputs : List Input) :
    Runs.Permitted (stepWithAtlas outside) (AccountsMemory outside)
        (.new columns screenLines historyLimit, []) inputs ↔
      Runs.Permitted (stepWithAtlas outside) (MemoryFits outside)
        (.new columns screenLines historyLimit, []) inputs := by
  have hiff (s : Terminal × List AtlasGraphic) (input : Input) (hs : Counted s) :
      AccountsMemory outside s input ↔ MemoryFits outside s input := by
    refine ⟨fun h => (hs.accounted_iff outside input).mp h.accounted, fun h => ?_⟩
    exact ⟨(hs.accounted_iff outside input).mpr h, hs.neverUnderflows outside input,
      fun bytes => hs.fits⟩
  refine Runs.permitted_congr (p := fun _ => True) (I := Counted)
    (fun s input hs _ hok => hs.step ((hiff s input hs).mp hok))
    (fun s input hs _ => hiff s input hs) inputs _ (fun _ _ => trivial) ?_
  exact ⟨rfl, rfl, fun a ha => absurd ha List.not_mem_nil⟩

instance (s : Terminal × List AtlasGraphic) : Decidable (Accounted s) :=
  inferInstanceAs (Decidable (_ = _))

/-- A terminal with some inputs behind it, and the graphics in its atlas. -/
def afterInputs (inputs : List Input) : Terminal × List AtlasGraphic :=
  inputs.foldl (stepWithAtlas plainOutside) (.new 2 1 0, [])

/-- The bytes of an image stay in the counter when it is deleted together with its placements,
and when the terminal is reset; those of an atlas graphic, when its cells are erased. -/
theorem deleted_bytes_stay_counted :
    ¬ Runs.Permitted (stepWithAtlas plainOutside) (AccountsMemory plainOutside) (.new 2 1 0, [])
        [.ofText "Ga=t,i=1,f=24,s=1,v=1;/wAA", .ofText "Ga=d,d=I,i=1"] ∧
      ¬ Runs.Permitted (stepWithAtlas plainOutside) (AccountsMemory plainOutside)
        (.new 2 1 0, [])
        [.ofText "Ga=t,i=1,f=24,s=1,v=1;/wAA", .op .resetState] ∧
      ¬ Runs.Permitted (stepWithAtlas plainOutside) (AccountsMemory plainOutside)
        (.new 2 1 0, [])
        [.op (.resize 3 1 1 1),
          .graphic 0 ⟨0, 1, 1, .rgb, [255, 0, 0], true, none, none, none, 0⟩ none,
          .op (.clearLine .all)] := by
  have hdeleted : ¬ Accounted (afterInputs
      [.ofText "Ga=t,i=1,f=24,s=1,v=1;/wAA", .ofText "Ga=d,d=I,i=1"]) := by decide +kernel
  have hreset : ¬ Accounted (afterInputs
      [.ofText "Ga=t,i=1,f=24,s=1,v=1;/wAA", .op .resetState]) := by decide +kernel
  have herased : ¬ Accounted (afterInputs
      [.op (.resize 3 1 1 1),
        .graphic 0 ⟨0, 1, 1, .rgb, [255, 0, 0], true, none, none, none, 0⟩ none,
        .op (.clearLine .all)]) := by decide +kernel
  refine ⟨fun h => hdeleted h.2.1.accounted, fun h => hreset h.2.1.accounted,
    fun h => herased h.2.2.1.accounted⟩

end Kitty
end Rio
