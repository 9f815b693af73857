import Rio.Kitty.Moves
import Rio.Kitty.Chunked
import Rio.Lib.Runs

/-! Image numbers: which images were sent under a number, and whether a command that names an
image by its number acts on the one that was sent last. -/

set_option linter.dupNamespace false

namespace Rio.Kitty

/-! ### Complete commands -/

/-- The complete command that the parameters of a command make, with the chunks before it. -/
def completed (codecs : Codecs) (host : Host) (params : List (List UInt8))
    (s : KittyGraphicsState) : Option KittyGraphicsCommand :=
  match readCommand codecs host params with
  | none => none
  | some cmd =>
    match cmd.earlyResponse with
    | some _ => none
    | none =>
      let (key, cmd, s) := s.imageKey cmd
      if cmd.more then none else ((s.evictStaleChunks host.now).takeCommand key cmd).1

/-- The response asks for nothing. -/
def KittyGraphicsResponse.Idle (r : KittyGraphicsResponse) : Prop :=
  r.graphicData = none ∧ r.placementRequest = none ∧ r.deleteRequest = none

theorem KittyGraphicsCommand.reply_idle (cmd : KittyGraphicsCommand) (message : String)
    (isError : Bool) : (cmd.reply message isError).Idle := ⟨rfl, rfl, rfl⟩

theorem KittyGraphicsCommand.replyUnlessImplicit_idle (cmd : KittyGraphicsCommand)
    (message : String) (isError : Bool) :
    (cmd.replyUnlessImplicit message isError).Idle ∧
      (cmd.replyUnlessImplicit message isError).incomplete = false := by
  unfold replyUnlessImplicit
  split <;> exact ⟨⟨rfl, rfl, rfl⟩, rfl⟩

theorem KittyGraphicsCommand.earlyResponse_idle {cmd : KittyGraphicsCommand}
    {r : KittyGraphicsResponse} (h : cmd.earlyResponse = some r) : r.Idle := by
  unfold earlyResponse at h
  by_cases hboth : 0 < cmd.imageId ∧ 0 < cmd.imageNumber
  · rw [if_pos hboth] at h
    cases h
    exact reply_idle _ _ _
  rw [if_neg hboth] at h
  by_cases hquery : cmd.action = .query
  · rw [if_pos hquery] at h
    by_cases hid : cmd.imageId = 0
    · rw [if_pos hid] at h
      cases h
      exact reply_idle _ _ _
    · rw [if_neg hid] at h
      cases h
      exact reply_idle _ _ _
  · rw [if_neg hquery] at h
    cases h

theorem KittyGraphicsState.storeChunk_idle {s : KittyGraphicsState} {now key : ℕ}
    {cmd : KittyGraphicsCommand} {r : KittyGraphicsResponse}
    (h : (s.storeChunk now key cmd).1 = some r) : r.Idle := by
  unfold storeChunk at h
  cases hlookup : s.incompleteImages.lookup key with
  | none =>
    rw [hlookup] at h
    cases h
    exact ⟨rfl, rfl, rfl⟩
  | some stored =>
    rw [hlookup] at h
    dsimp only at h
    split at h
    · cases h
    · cases h
      exact ⟨rfl, rfl, rfl⟩

theorem parse_of_completed {codecs : Codecs} {host : Host} {params : List (List UInt8)}
    {s : KittyGraphicsState} {cmd : KittyGraphicsCommand}
    (h : completed codecs host params s = some cmd) :
    (parse codecs host params s).1 = some (cmd.dispatch codecs host) := by
  unfold completed at h
  unfold parse
  cases hread : readCommand codecs host params with
  | none => simp [hread] at h
  | some read =>
    rw [hread] at h
    dsimp only at h ⊢
    cases hearly : read.earlyResponse with
    | some response => simp [hearly] at h
    | none =>
      rw [hearly] at h
      dsimp only at h ⊢
      unfold handleCommand
      dsimp only
      by_cases hmore : (s.imageKey read).2.1.more = true
      · rw [if_pos hmore] at h
        cases h
      · rw [if_neg hmore] at h
        rw [if_neg hmore, h]
        rfl

/-- Without a complete command, nothing is asked for. -/
theorem parse_idle {codecs : Codecs} {host : Host} {params : List (List UInt8)}
    {s : KittyGraphicsState} (h : completed codecs host params s = none)
    {r : KittyGraphicsResponse} (hr : (parse codecs host params s).1 = some r) : r.Idle := by
  unfold completed at h
  unfold parse at hr
  cases hread : readCommand codecs host params with
  | none => simp [hread] at hr
  | some read =>
    rw [hread] at h hr
    dsimp only at h hr
    cases hearly : read.earlyResponse with
    | some response =>
      rw [hearly] at hr
      cases hr
      exact KittyGraphicsCommand.earlyResponse_idle hearly
    | none =>
      rw [hearly] at h hr
      dsimp only at h hr
      unfold handleCommand at hr
      dsimp only at hr
      by_cases hmore : (s.imageKey read).2.1.more = true
      · rw [if_pos hmore] at hr
        exact KittyGraphicsState.storeChunk_idle hr
      · rw [if_neg hmore] at h hr
        rw [h] at hr
        cases hr

namespace Terminal
variable {outside : Outside} {t : Terminal}

/-- The complete command of an input, if there is one. -/
def completed (outside : Outside) (t : Terminal) : Input → Option (Host × KittyGraphicsCommand)
  | .apc host buffer =>
    match apcParams buffer with
    | some params =>
      (Kitty.completed outside.codecs host params t.graphics.kittyChunkingState).map (host, ·)
    | none => none
  | _ => none

/-- The terminal with the transmissions in progress that an input leaves. -/
def withChunking (t : Terminal) (chunking : KittyGraphicsState) : Terminal :=
  t.mapGraphics fun g => { g with kittyChunkingState := chunking }

theorem apply_idle {scaling : Scaling} {now : ℕ} {r : KittyGraphicsResponse} (h : r.Idle) :
    t.apply scaling now r = t := by
  obtain ⟨hgraphic, hplacement, hdelete⟩ := h
  unfold apply
  rw [hgraphic, hplacement, hdelete]
  split <;> rfl

/-- A complete command is done after the transmissions in progress are set. -/
theorem step_of_completed {input : Input} {host : Host} {cmd : KittyGraphicsCommand}
    (h : t.completed outside input = some (host, cmd)) :
    ∃ chunking, t.step outside input = (t.withChunking chunking).apply outside.scaling host.now
      (cmd.dispatch outside.codecs host) := by
  cases input with
  | op op => cases h
  | graphic now graphic cursorMovement => cases h
  | apc host' buffer =>
    unfold completed at h
    unfold step
    dsimp only at h ⊢
    cases hparams : apcParams buffer with
    | none => simp [hparams] at h
    | some params =>
      rw [hparams] at h
      obtain ⟨complete, hcomplete, heq⟩ := Option.map_eq_some_iff.mp h
      obtain ⟨rfl, rfl⟩ := Prod.mk.inj heq
      have hparse := parse_of_completed hcomplete
      refine ⟨(parse outside.codecs host' params t.graphics.kittyChunkingState).2, ?_⟩
      unfold receive
      dsimp only
      rw [hparse]
      rfl

/-- An input without a complete command changes the transmissions in progress only, or is an
operation of the screen or an atlas graphic. -/
theorem step_of_not_completed {host : Host} {buffer : List UInt8}
    (h : t.completed outside (.apc host buffer) = none) :
    ∃ chunking, t.step outside (.apc host buffer) = t.withChunking chunking := by
  unfold completed at h
  unfold step
  dsimp only at h ⊢
  cases hparams : apcParams buffer with
  | none => exact ⟨t.graphics.kittyChunkingState, rfl⟩
  | some params =>
    rw [hparams] at h
    have hnone := Option.map_eq_none_iff.mp h
    refine ⟨(parse outside.codecs host params t.graphics.kittyChunkingState).2, ?_⟩
    unfold receive
    dsimp only
    cases hresponse : (parse outside.codecs host params t.graphics.kittyChunkingState).1 with
    | none => rfl
    | some r => exact apply_idle (parse_idle hnone hresponse)

end Terminal

/-! ### The table of numbers -/

theorem KittyScreenState.evict_numbers {k : KittyScreenState} (h : k.kittyImageNumbers = ∅)
    (imageId : ℕ) : (k.evict imageId).kittyImageNumbers = ∅ := by
  unfold evict
  dsimp only
  rw [h, Table.retain_empty]

theorem KittyScreenState.deleteKittyImages_numbers {k : KittyScreenState}
    (h : k.kittyImageNumbers = ∅) (predicate : ℕ → Bool) :
    (k.deleteKittyImages predicate).kittyImageNumbers = ∅ := by
  unfold deleteKittyImages
  dsimp only
  rw [h, Table.retain_empty]

/-- No number stands for an image. -/
def Graphics.NoNumbers (g : Graphics) : Prop :=
  g.screen.kittyImageNumbers = ∅ ∧ g.kittyInactiveScreen.kittyImageNumbers = ∅

namespace Graphics.NoNumbers
variable {g : Graphics}

theorem removeCandidate (h : g.NoNumbers) (c : Candidate) : (g.removeCandidate c).NoNumbers := by
  unfold Graphics.removeCandidate
  cases c.source with
  | pending => exact h
  | activeKitty => exact ⟨KittyScreenState.evict_numbers h.1 _, h.2⟩
  | inactiveKitty => exact ⟨h.1, KittyScreenState.evict_numbers h.2 _⟩

theorem evictImages (h : g.NoNumbers) (requiredBytes : ℕ) (usedIds : List ℕ) :
    (g.evictImages requiredBytes usedIds).2.NoNumbers := by
  have hremoved (evicted : List Candidate) : (evicted.foldl Graphics.removeCandidate g).NoNumbers :=
    List.foldlRecOn evicted Graphics.removeCandidate h fun g hg c _ => hg.removeCandidate c
  unfold Graphics.evictImages
  dsimp only
  split
  · exact h
  · split
    · exact h
    · exact hremoved _

theorem storeKittyImage (h : g.NoNumbers) (now imageId : ℕ) (data : GraphicData) :
    (g.storeKittyImage now imageId none data).NoNumbers := by
  unfold Graphics.storeKittyImage
  dsimp only
  split
  · exact h.evictImages _ _
  · exact h

theorem deleteKittyImages (h : g.NoNumbers) (predicate : ℕ → Bool) :
    (g.deleteKittyImages predicate).NoNumbers :=
  ⟨KittyScreenState.deleteKittyImages_numbers h.1 predicate, h.2⟩

theorem move (h : g.NoNumbers) {g' : Graphics} (hmove : g.Move g') : g'.NoNumbers := by
  cases hmove with
  | same hsame => exact ⟨hsame.numbers.trans h.1, hsame.inactiveNumbers.trans h.2⟩
  | store now imageId data => exact h.storeKittyImage now imageId data
  | delete predicate => exact h.deleteKittyImages predicate
  | deleteAll => exact ⟨rfl, h.2⟩
  | swap => exact ⟨h.2, h.1⟩
  | clear => exact ⟨rfl, rfl⟩
  | evict requiredBytes usedIds => exact h.evictImages requiredBytes usedIds
  | track now bytes => exact h

theorem moves (h : g.NoNumbers) {g' : Graphics} (hmoves : g.Moves g') : g'.NoNumbers := by
  induction hmoves with
  | refl => exact h
  | tail _ hmove ih => exact ih.move hmove

end Graphics.NoNumbers
/-! ### Images sent under numbers -/

/-- The command names its image by a number. -/
def KittyGraphicsCommand.Numbered (cmd : KittyGraphicsCommand) : Prop :=
  cmd.imageId = 0 ∧ 0 < cmd.imageNumber

instance (cmd : KittyGraphicsCommand) : Decidable cmd.Numbered :=
  inferInstanceAs (Decidable (_ ∧ _))

/-- The image that a command transmits. -/
def KittyGraphicsCommand.sends (codecs : Codecs) (host : Host) (cmd : KittyGraphicsCommand) :
    Option GraphicData :=
  if cmd.action = .transmit ∨ cmd.action = .transmitAndDisplay then
    match createGraphicData codecs host cmd with
    | .ok graphic => some graphic
    | .error _ => none
  else none

theorem KittyGraphicsCommand.sends_eq_some {codecs : Codecs} {host : Host}
    {cmd : KittyGraphicsCommand} {graphic : GraphicData}
    (h : cmd.sends codecs host = some graphic) :
    (cmd.action = .transmit ∨ cmd.action = .transmitAndDisplay) ∧
      createGraphicData codecs host cmd = .ok graphic := by
  unfold sends at h
  by_cases haction : cmd.action = .transmit ∨ cmd.action = .transmitAndDisplay
  · rw [if_pos haction] at h
    cases hgraphic : createGraphicData codecs host cmd with
    | error err =>
      rw [hgraphic] at h
      cases h
    | ok created =>
      rw [hgraphic] at h
      exact ⟨haction, congrArg _ (Option.some.inj h)⟩
  · rw [if_neg haction] at h
    cases h

/-- An image that was sent under a number, and the id it is stored under. -/
structure Sent where
  number : ℕ
  id : ℕ
  deriving DecidableEq, Repr

/-- The image sent last under a number, newest images first. -/
def newest (sent : List Sent) (number : ℕ) : Option Sent :=
  sent.find? fun image => image.number == number

/-- The images sent under numbers that the two screens still store, newest first. -/
structure Ledger where
  active : List Sent := []
  inactive : List Sent := []
  deriving DecidableEq, Repr

/-- Enter the image that a command sends. It takes the place of an image with its id. -/
def Ledger.record (ledger : Ledger) (codecs : Codecs) (host : Host)
    (cmd : KittyGraphicsCommand) : Ledger :=
  match cmd.sends codecs host with
  | none => ledger
  | some graphic =>
    let id := graphic.id % 2 ^ 32
    let others := ledger.active.filter fun image => image.id ≠ id
    { ledger with
      active := if cmd.Numbered then ⟨cmd.imageNumber, id⟩ :: others else others }

/-- The ledger after an input: screens are swapped with their images, and an image that is no
longer stored is dropped. -/
def Ledger.next (outside : Outside) (t : Terminal) (ledger : Ledger) (input : Input) : Ledger :=
  let t' := t.step outside input
  let ledger :=
    if t'.crosswords.mode.altScreen = t.crosswords.mode.altScreen then ledger
    else ⟨ledger.inactive, ledger.active⟩
  let ledger :=
    match t.completed outside input with
    | some (host, cmd) => ledger.record outside.codecs host cmd
    | none => ledger
  { active := ledger.active.filter fun image => image.id ∈ t'.graphics.screen.kittyImages
    inactive := ledger.inactive.filter fun image =>
      image.id ∈ t'.graphics.kittyInactiveScreen.kittyImages }

def stepWithLedger (outside : Outside) (s : Terminal × Ledger) (input : Input) :
    Terminal × Ledger :=
  (s.1.step outside input, s.2.next outside s.1 input)

/-- The request deletes the image it names, by id or by number. -/
def DeleteRequest.SelectsImage (delete : DeleteRequest) : Prop :=
  delete.action = 0x69 ∨ delete.action = 0x6E

/-- A complete command that names an image by its number does what it should. -/
structure RespectsNumber (outside : Outside) (s : Terminal × Ledger) (input : Input) (host : Host)
    (cmd : KittyGraphicsCommand) : Prop where
  /-- An image that is sent is stored, and under an id that no image sent under a number has. -/
  sends : ∀ graphic, cmd.sends outside.codecs host = some graphic →
    (∀ image ∈ s.2.active, image.id ≠ graphic.id % 2 ^ 32) ∧
      ∃ stored, (s.1.step outside input).graphics.screen.getKittyImage (graphic.id % 2 ^ 32) =
        some stored ∧ stored.data.pixels = graphic.pixels
  /-- A display is the display of the image sent last under the number by its id. -/
  displays : cmd.action = .put →
    match newest s.2.active cmd.imageNumber with
    | some image => ∃ chunking, s.1.step outside input =
        (s.1.withChunking chunking).placeGraphic outside.scaling
          { cmd.placement with imageId := image.id }
    | none => (s.1.step outside input).graphics.screen = s.1.graphics.screen
  /-- A deletion is the deletion of the image sent last under the number by its id. -/
  deletes : cmd.action = .delete → cmd.deletion.SelectsImage →
    match newest s.2.active cmd.imageNumber with
    | some image => ∃ chunking, s.1.step outside input =
        (s.1.withChunking chunking).deleteGraphics
          { cmd.deletion with action := 0x69, imageId := image.id }
    | none => (s.1.step outside input).graphics.screen = s.1.graphics.screen

/-- Every complete command that names an image by its number does what it should. -/
def RespectsNumbers (outside : Outside) (s : Terminal × Ledger) (input : Input) : Prop :=
  ∀ host cmd, s.1.completed outside input = some (host, cmd) → cmd.Numbered →
    RespectsNumber outside s input host cmd

/-- No image is stored or placed under the id that stands for no id. -/
def KittyScreenState.NoImageZero (k : KittyScreenState) : Prop :=
  k.kittyImages.lookup 0 = none

def KittyScreenState.NoPlacementZero (k : KittyScreenState) : Prop :=
  ∀ placementId, k.kittyPlacements.lookup (0, placementId) = none

/-- When a numbered command does what it should: an image is sent while no image sent under a
number is stored; a display or deletion by `i` has an image under its number, or there is
nothing under id zero; a deletion by `n` has no image under its number, or has nothing to
delete. -/
structure NumberFits (codecs : Codecs) (s : Terminal × Ledger) (host : Host)
    (cmd : KittyGraphicsCommand) : Prop where
  sends : (cmd.sends codecs host).isSome → s.2.active = []
  displays : cmd.action = .put → (newest s.2.active cmd.imageNumber).isSome ∨
    (cmd.virtualPlacement = false ∧ s.1.graphics.screen.NoImageZero)
  deletesById : cmd.action = .delete → cmd.deletion.action = 0x69 →
    (newest s.2.active cmd.imageNumber).isSome ∨
      (s.1.graphics.screen.NoImageZero ∧ s.1.graphics.screen.NoPlacementZero)
  deletesByNumber : cmd.action = .delete → cmd.deletion.action = 0x6E →
    newest s.2.active cmd.imageNumber = none ∨
      (cmd.deletion.deleteData = false ∧ s.1.graphics.screen.NoPlacementZero)

def NumbersFit (outside : Outside) (s : Terminal × Ledger) (input : Input) : Prop :=
  ∀ host cmd, s.1.completed outside input = some (host, cmd) → cmd.Numbered →
    NumberFits outside.codecs s host cmd

/-! ### What complete commands do -/

namespace Terminal
variable {codecs : Codecs} {scaling : Scaling} {host : Host} {now : ℕ}
  {cmd : KittyGraphicsCommand}

theorem apply_put (t : Terminal) (h : cmd.action = .put) :
    t.apply scaling now (cmd.dispatch codecs host) = t.placeGraphic scaling cmd.placement := by
  obtain ⟨⟨hgraphic, -, hdelete⟩, hincomplete⟩ := cmd.replyUnlessImplicit_idle "OK" false
  unfold apply KittyGraphicsCommand.dispatch
  rw [h]
  dsimp only
  rw [hincomplete, hgraphic, hdelete]
  rfl

theorem apply_delete (t : Terminal) (h : cmd.action = .delete) :
    t.apply scaling now (cmd.dispatch codecs host) = t.deleteGraphics cmd.deletion := by
  unfold apply KittyGraphicsCommand.dispatch
  rw [h]
  rfl

theorem apply_sends (t : Terminal) {graphic : GraphicData}
    (h : cmd.sends codecs host = some graphic) :
    t.apply scaling now (cmd.dispatch codecs host) =
      if cmd.action = .transmitAndDisplay then
        t.kittyTransmitAndDisplay scaling now graphic cmd.placement
      else t.storeGraphic now graphic := by
  obtain ⟨⟨-, -, hdelete⟩, hincomplete⟩ := cmd.replyUnlessImplicit_idle "OK" false
  obtain ⟨haction, hgraphic⟩ := KittyGraphicsCommand.sends_eq_some h
  have hdispatch : cmd.dispatch codecs host = cmd.transmission codecs host := by
    unfold KittyGraphicsCommand.dispatch
    obtain haction | haction := haction <;> rw [haction]
  rw [hdispatch]
  unfold apply KittyGraphicsCommand.transmission
  rw [hgraphic]
  dsimp only
  rw [hincomplete, hdelete]
  obtain haction | haction := haction
  · rw [haction]
    rfl
  · rw [haction]
    rfl

/-- A graphic that is stored can be found under its id. -/
theorem storeGraphic_getKittyImage (t : Terminal) (now : ℕ) (graphic : GraphicData) :
    ∃ stored, (t.storeGraphic now graphic).graphics.screen.getKittyImage (graphic.id % 2 ^ 32) =
      some stored ∧ stored.data.pixels = graphic.pixels :=
  ⟨⟨{ graphic with transmitTime := now }, now⟩, AList.lookup_insert _, rfl⟩

theorem step_sends {outside : Outside} {t : Terminal} {input : Input} {graphic : GraphicData}
    (h : t.completed outside input = some (host, cmd))
    (hsends : cmd.sends outside.codecs host = some graphic) :
    ∃ stored, (t.step outside input).graphics.screen.getKittyImage (graphic.id % 2 ^ 32) =
      some stored ∧ stored.data.pixels = graphic.pixels := by
  obtain ⟨chunking, hstep⟩ := step_of_completed h
  have hstored := storeGraphic_getKittyImage (t.withChunking chunking) host.now graphic
  rw [hstep, apply_sends _ hsends]
  split
  · have hsame := kittyTransmitAndDisplay_sameImages outside.scaling (t.withChunking chunking)
      host.now graphic cmd.placement
    unfold KittyScreenState.getKittyImage at hstored ⊢
    rw [hsame.images]
    exact hstored
  · exact hstored

/-! ### Deletions by id and by number -/

theorem deletePlacementsOf_zero {k : KittyScreenState} (h : k.NoPlacementZero)
    (placementId : ℕ) : deletePlacementsOf k 0 placementId = k := by
  have hretain : k.kittyPlacements.retain (fun key _ => decide (key.1 ≠ 0)) =
      k.kittyPlacements := by
    refine Table.retain_eq_self fun key p hp => decide_eq_true ?_
    intro hzero
    obtain ⟨imageId, placementId'⟩ := key
    subst hzero
    rw [h placementId'] at hp
    cases hp
  unfold deletePlacementsOf KittyScreenState.retainPlacements
  split
  · rw [Table.erase_eq_self (h placementId)]
  · rw [hretain]

theorem deleteImages_id {g : Graphics} {delete : DeleteRequest} (h : delete.action = 0x69)
    (cursor : Pos) (historySize : ℕ) (alive : ℕ → Bool) :
    deleteImages g delete cursor historySize alive =
      if delete.deleteData then
        { g with
          screen := deletePlacementsOf g.screen delete.imageId delete.placementId
          }.deleteKittyImages (· = delete.imageId)
      else { g with screen := deletePlacementsOf g.screen delete.imageId delete.placementId } := by
  unfold deleteImages
  rw [h]
  dsimp only
  rw [if_neg (by decide), if_pos (by decide)]

/-- An image that is deleted by its id is gone. -/
theorem deleteGraphics_getKittyImage (t : Terminal) {delete : DeleteRequest}
    (h : delete.action = 0x69) (hdata : delete.deleteData = true) :
    (t.deleteGraphics delete).graphics.screen.getKittyImage delete.imageId = none := by
  have hdeleted (k : KittyScreenState) :
      (k.deleteKittyImages (· = delete.imageId)).getKittyImage delete.imageId = none := by
    unfold KittyScreenState.deleteKittyImages KittyScreenState.getKittyImage
    dsimp only
    rw [Table.lookup_retain, Option.filter_eq_none_iff]
    exact fun image _ => by simp
  unfold deleteGraphics mapGraphics
  dsimp only
  rw [deleteImages_id h, if_pos hdata]
  exact hdeleted _

theorem deleteImages_number {g : Graphics} {delete : DeleteRequest} (h : delete.action = 0x6E)
    (hnumbers : g.screen.kittyImageNumbers = ∅) (cursor : Pos) (historySize : ℕ)
    (alive : ℕ → Bool) : deleteImages g delete cursor historySize alive = g := by
  unfold deleteImages
  rw [h]
  dsimp only
  rw [if_neg (by decide), if_neg (by decide), if_neg (by decide), if_neg (by decide),
    if_neg (by decide), if_neg (by decide), if_neg (by decide), if_pos (by decide), hnumbers]
  rfl

/-- Deletions by id and by number leave the cells alone. -/
theorem crosswords_deleteGraphics (t : Crosswords) {action : UInt8}
    (h : action = 0x69 ∨ action = 0x6E) (x y : ℕ) :
    t.deleteGraphics (Char.ofNat action.toNat) x y = t := by
  unfold Crosswords.deleteGraphics
  obtain rfl | rfl := h
  · rw [if_neg (by decide), if_neg (by decide), if_neg (by decide), if_neg (by decide),
      if_neg (by decide)]
  · rw [if_neg (by decide), if_neg (by decide), if_neg (by decide), if_neg (by decide),
      if_neg (by decide)]

theorem deleteKittyImages_zero {k : KittyScreenState} (himage : k.NoImageZero)
    (hnumbers : k.kittyImageNumbers = ∅) : k.deleteKittyImages (· = 0) = k := by
  have hretain : k.kittyImages.retain (fun id _ => !decide (id = 0)) = k.kittyImages := by
    refine Table.retain_eq_self fun id image hget => ?_
    have hne : id ≠ 0 := by
      rintro rfl
      have hnone : k.kittyImages.lookup 0 = none := himage
      rw [hnone] at hget
      cases hget
    simp [hne]
  unfold KittyScreenState.deleteKittyImages
  dsimp only
  rw [hretain, hnumbers, Table.retain_empty, ← hnumbers]

/-- A deletion by id zero where there is nothing under it. -/
theorem deleteImages_zero {g : Graphics} {delete : DeleteRequest} (h : delete.action = 0x69)
    (hid : delete.imageId = 0) (himage : delete.deleteData = false ∨ g.screen.NoImageZero)
    (hplacement : g.screen.NoPlacementZero) (hnumbers : g.screen.kittyImageNumbers = ∅)
    (cursor : Pos) (historySize : ℕ) (alive : ℕ → Bool) :
    deleteImages g delete cursor historySize alive = g := by
  rw [deleteImages_id h, hid, deletePlacementsOf_zero hplacement]
  obtain hdata | himage := himage
  · rw [hdata, if_neg Bool.false_ne_true]
  · unfold Graphics.deleteKittyImages
    dsimp only
    rw [deleteKittyImages_zero himage hnumbers]
    exact ite_self _

theorem deleteGraphics_zero (t : Terminal) {delete : DeleteRequest} (h : delete.action = 0x69)
    (hid : delete.imageId = 0)
    (himage : delete.deleteData = false ∨ t.graphics.screen.NoImageZero)
    (hplacement : t.graphics.screen.NoPlacementZero)
    (hnumbers : t.graphics.screen.kittyImageNumbers = ∅) :
    t.deleteGraphics delete = t.mapGraphics (·.sendGraphicsUpdates) := by
  unfold deleteGraphics
  dsimp only
  rw [crosswords_deleteGraphics t.crosswords (.inl h)]
  unfold mapGraphics
  dsimp only
  rw [deleteImages_zero h hid himage hplacement hnumbers]

theorem deleteGraphics_number {t : Terminal} {delete : DeleteRequest} (h : delete.action = 0x6E)
    (hnumbers : t.graphics.screen.kittyImageNumbers = ∅) :
    t.deleteGraphics delete = t.mapGraphics (·.sendGraphicsUpdates) := by
  unfold deleteGraphics
  dsimp only
  rw [crosswords_deleteGraphics t.crosswords (.inr h)]
  unfold mapGraphics
  dsimp only
  rw [deleteImages_number h hnumbers]

end Terminal

/-! ### Runs -/

/-- What the code keeps: no number stands for an image, and every image sent under a number has
the id zero. -/
structure AllZero (s : Terminal × Ledger) : Prop where
  numbers : s.1.graphics.NoNumbers
  active : ∀ image ∈ s.2.active, image.id = 0
  inactive : ∀ image ∈ s.2.inactive, image.id = 0

theorem Ledger.record_zero {ledger : Ledger} (h : ∀ image ∈ ledger.active, image.id = 0)
    (codecs : Codecs) (host : Host) (cmd : KittyGraphicsCommand) :
    (∀ image ∈ (ledger.record codecs host cmd).active, image.id = 0) ∧
      (ledger.record codecs host cmd).inactive = ledger.inactive := by
  unfold record
  cases hsends : cmd.sends codecs host with
  | none => exact ⟨h, rfl⟩
  | some graphic =>
    have hothers : ∀ image ∈ ledger.active.filter fun image =>
        decide (image.id ≠ graphic.id % 2 ^ 32), image.id = 0 :=
      fun image himage => h image (List.mem_of_mem_filter himage)
    refine ⟨?_, rfl⟩
    dsimp only
    by_cases hnumbered : cmd.Numbered
    · rw [if_pos hnumbered]
      intro image himage
      obtain rfl | himage := List.mem_cons.mp himage
      · change graphic.id % 2 ^ 32 = 0
        rw [createGraphicData_id (KittyGraphicsCommand.sends_eq_some hsends).2, hnumbered.1,
          Nat.zero_mod]
      · exact hothers image himage
    · rw [if_neg hnumbered]
      exact hothers

theorem AllZero.step {outside : Outside} {s : Terminal × Ledger} (h : AllZero s)
    (input : Input) : AllZero (stepWithLedger outside s input) := by
  have hswapped : (∀ image ∈ (if (s.1.step outside input).crosswords.mode.altScreen =
      s.1.crosswords.mode.altScreen then s.2 else ⟨s.2.inactive, s.2.active⟩ : Ledger).active,
        image.id = 0) ∧
      ∀ image ∈ (if (s.1.step outside input).crosswords.mode.altScreen =
      s.1.crosswords.mode.altScreen then s.2 else ⟨s.2.inactive, s.2.active⟩ : Ledger).inactive,
        image.id = 0 := by
    split
    · exact ⟨h.active, h.inactive⟩
    · exact ⟨h.inactive, h.active⟩
  have hnumbers := h.numbers.moves (Terminal.step_moves outside s.1 input)
  unfold stepWithLedger Ledger.next
  dsimp only
  generalize (if (s.1.step outside input).crosswords.mode.altScreen =
      s.1.crosswords.mode.altScreen then s.2 else ⟨s.2.inactive, s.2.active⟩ : Ledger) = ledger
    at hswapped ⊢
  cases s.1.completed outside input with
  | none =>
    exact ⟨hnumbers, fun image himage => hswapped.1 image (List.mem_of_mem_filter himage),
      fun image himage => hswapped.2 image (List.mem_of_mem_filter himage)⟩
  | some complete =>
    obtain ⟨host, cmd⟩ := complete
    obtain ⟨hactive, hinactive⟩ := Ledger.record_zero hswapped.1 outside.codecs host cmd
    refine ⟨hnumbers, fun image himage => hactive image (List.mem_of_mem_filter himage),
      fun image himage => hswapped.2 image ?_⟩
    dsimp only at himage
    rw [hinactive] at himage
    exact List.mem_of_mem_filter himage

/-- A numbered command that fits does what it should. -/
theorem NumberFits.respects {outside : Outside} {s : Terminal × Ledger} (hzero : AllZero s)
    {input : Input} {host : Host} {cmd : KittyGraphicsCommand}
    (hcompleted : s.1.completed outside input = some (host, cmd)) (hnumbered : cmd.Numbered)
    (h : NumberFits outside.codecs s host cmd) : RespectsNumber outside s input host cmd := by
  obtain ⟨chunking, hstep⟩ := Terminal.step_of_completed hcompleted
  have hnewest {image : Sent} (himage : newest s.2.active cmd.imageNumber = some image) :
      image.id = 0 := hzero.active image (List.mem_of_find?_eq_some himage)
  refine ⟨fun graphic hsends => ⟨?_, Terminal.step_sends hcompleted hsends⟩, fun hput => ?_,
    fun hdelete hselects => ?_⟩
  · rw [h.sends (by rw [hsends]; rfl)]
    exact fun image himage => absurd himage List.not_mem_nil
  · rw [Terminal.apply_put _ hput] at hstep
    cases himage : newest s.2.active cmd.imageNumber with
    | some image =>
      refine ⟨chunking, hstep.trans ?_⟩
      rw [hnewest himage, ← hnumbered.1]
      rfl
    | none =>
      obtain hsome | ⟨hvirtual, hnone⟩ := h.displays hput
      · rw [himage] at hsome
        cases hsome
      have hplacement : cmd.placement.virtualPlacement = false := hvirtual
      have hlookup : (s.1.withChunking chunking).graphics.screen.getKittyImage
          cmd.placement.imageId = none := by
        change s.1.graphics.screen.kittyImages.lookup cmd.imageId = none
        rw [hnumbered.1]
        exact hnone
      rw [hstep]
      unfold Terminal.placeGraphic
      rw [hplacement, if_neg Bool.false_ne_true, hlookup]
      rfl
  · rw [Terminal.apply_delete _ hdelete] at hstep
    have hnumbers : (s.1.withChunking chunking).graphics.screen.kittyImageNumbers = ∅ :=
      hzero.numbers.1
    obtain hid | hnumber := hselects
    · cases himage : newest s.2.active cmd.imageNumber with
      | some image =>
        refine ⟨chunking, hstep.trans ?_⟩
        rw [hnewest himage, ← hnumbered.1, ← hid]
        rfl
      | none =>
        obtain hsome | ⟨hnone, hplacement⟩ := h.deletesById hdelete hid
        · rw [himage] at hsome
          cases hsome
        rw [hstep, Terminal.deleteGraphics_zero (s.1.withChunking chunking) hid hnumbered.1
          (.inr hnone) hplacement hnumbers]
        rfl
    · have hdone := Terminal.deleteGraphics_number hnumber hnumbers
      cases himage : newest s.2.active cmd.imageNumber with
      | some image =>
        obtain hnone | ⟨hdata, hplacement⟩ := h.deletesByNumber hdelete hnumber
        · rw [himage] at hnone
          cases hnone
        have hzero : (s.1.withChunking chunking).deleteGraphics
            { cmd.deletion with action := 0x69, imageId := image.id } =
              (s.1.withChunking chunking).mapGraphics (·.sendGraphicsUpdates) :=
          Terminal.deleteGraphics_zero _ rfl (hnewest himage) (.inl hdata) hplacement hnumbers
        exact ⟨chunking, hstep.trans (hdone.trans hzero.symm)⟩
      | none =>
        rw [hstep, hdone]
        rfl

/-- In a run whose numbered commands all fit, every numbered command does what it should. -/
theorem run_respectsNumbers (outside : Outside) (columns screenLines historyLimit : ℕ)
    (inputs : List Input)
    (h : Runs.Permitted (stepWithLedger outside) (NumbersFit outside)
      (.new columns screenLines historyLimit, {}) inputs) :
    Runs.Permitted (stepWithLedger outside) (RespectsNumbers outside)
      (.new columns screenLines historyLimit, {}) inputs := by
  refine Runs.Permitted.mono_of_invariant (I := AllZero) (fun s input hs _ => hs.step input)
    (fun s input hs hfit host cmd hcompleted hnumbered =>
      (hfit host cmd hcompleted hnumbered).respects hs hcompleted hnumbered) ?_ h
  exact ⟨⟨rfl, rfl⟩, fun _ himage => absurd himage List.not_mem_nil,
    fun _ himage => absurd himage List.not_mem_nil⟩

/-- Codecs for uncompressed pixels, with the sizes of images as they are. -/
def plainOutside : Outside where
  codecs := plainCodecs
  scaling := ⟨fun length _ _ => length, fun _ size => size⟩
  unicode := .basic

/-- A command of a text, on a host without files. -/
def Input.ofText (text : String) : Input :=
  .apc ⟨0, fun _ => false, fun _ => none, fun _ => none⟩
    (text.toList.map fun c => UInt8.ofNat c.toNat)

/-- The complete command of a text. -/
def commandOf (t : Terminal) (text : String) : Option KittyGraphicsCommand :=
  (t.completed plainOutside (.ofText text)).map Prod.snd

theorem numbered_of_commandOf {t : Terminal} {text : String} {cmd : KittyGraphicsCommand}
    (h : commandOf t text = some cmd) {P : Host → KittyGraphicsCommand → Prop}
    (hcmd : ∀ host, P host cmd) (host : Host) (cmd' : KittyGraphicsCommand)
    (h' : t.completed plainOutside (.ofText text) = some (host, cmd')) : P host cmd' := by
  unfold commandOf at h
  rw [h'] at h
  cases h
  exact hcmd host

/-- One pixel sent under a number. -/
def pixelNumbered (imageNumber : ℕ) : KittyGraphicsCommand :=
  { format := .rgb24, width := 1, height := 1, imageNumber := imageNumber,
    payload := [255, 0, 0] }

def afterFirstPixel : Terminal × Ledger :=
  stepWithLedger plainOutside (.new 2 1 0, {}) (.ofText "Ga=t,I=1,f=24,s=1,v=1;/wAA")

theorem commandOf_pixels :
    commandOf (.new 2 1 0) "Ga=t,I=1,f=24,s=1,v=1;/wAA" = some (pixelNumbered 1) ∧
      commandOf afterFirstPixel.1 "Ga=t,I=2,f=24,s=1,v=1;/wAA" = some (pixelNumbered 2) := by
  decide +kernel

/-- One image is sent under a number and displayed by it. -/
theorem run_respectsNumbers_one_image :
    Runs.Permitted (stepWithLedger plainOutside) (RespectsNumbers plainOutside)
      (.new 2 1 0, {}) [.ofText "Ga=t,I=1,f=24,s=1,v=1;/wAA", .ofText "Ga=p,I=1"] := by
  have hput : commandOf afterFirstPixel.1 "Ga=p,I=1" =
      some { action := .put, imageNumber := 1 } := by decide +kernel
  refine run_respectsNumbers plainOutside 2 1 0 _ ⟨?_, ?_, trivial⟩
  · refine numbered_of_commandOf commandOf_pixels.1 fun host _ => ⟨fun _ => rfl, ?_, ?_, ?_⟩
    all_goals exact fun haction => absurd haction (by decide)
  · refine numbered_of_commandOf hput fun host _ => ⟨?_, fun _ => .inl ?_, ?_, ?_⟩
    · intro hsends
      rw [KittyGraphicsCommand.sends, if_neg (by decide)] at hsends
      cases hsends
    · change (newest afterFirstPixel.2.active 1).isSome
      decide +kernel
    all_goals exact fun haction => absurd haction (by decide)

/-- A second image takes the id of the first; a number that no image was sent under displays the
first image; and a deletion by number deletes nothing. -/
theorem numbered_images_share_id_zero :
    ¬ Runs.Permitted (stepWithLedger plainOutside) (RespectsNumbers plainOutside)
        (.new 2 1 0, {})
        [.ofText "Ga=t,I=1,f=24,s=1,v=1;/wAA", .ofText "Ga=t,I=2,f=24,s=1,v=1;/wAA"] ∧
      ¬ Runs.Permitted (stepWithLedger plainOutside) (RespectsNumbers plainOutside)
        (.new 2 1 0, {})
        [.ofText "Ga=t,I=1,f=24,s=1,v=1;/wAA", .ofText "Ga=p,U=1,I=2"] ∧
      ¬ Runs.Permitted (stepWithLedger plainOutside) (RespectsNumbers plainOutside)
        (.new 2 1 0, {})
        [.ofText "Ga=t,I=1,f=24,s=1,v=1;/wAA", .ofText "Ga=d,d=N,I=1"] := by
  have hcommand (text : String) (cmd : KittyGraphicsCommand) (hnumbered : cmd.Numbered)
      (h : commandOf afterFirstPixel.1 text = some cmd)
      (hfails : ∀ host, ¬ RespectsNumber plainOutside afterFirstPixel (.ofText text) host cmd) :
      ¬ Runs.Permitted (stepWithLedger plainOutside) (RespectsNumbers plainOutside)
        (.new 2 1 0, {}) [.ofText "Ga=t,I=1,f=24,s=1,v=1;/wAA", .ofText text] := by
    rintro ⟨-, hrespects, -⟩
    obtain ⟨⟨host, cmd'⟩, hcompleted, rfl⟩ := Option.map_eq_some_iff.mp h
    exact hfails host (hrespects host _ hcompleted hnumbered)
  refine ⟨hcommand _ (pixelNumbered 2) (by decide) commandOf_pixels.2 ?_,
    hcommand _ { action := .put, virtualPlacement := true, imageNumber := 2 } (by decide) (by decide +kernel) ?_,
    hcommand _ { action := .delete, imageNumber := 1, deleteAction := 0x4E } (by decide)
      (by decide +kernel) ?_⟩
  · intro host h
    obtain ⟨hdistinct, -⟩ := h.sends _ rfl
    exact hdistinct ⟨1, 0⟩ (by decide +kernel) rfl
  · intro host h
    have hsame := congrArg (fun k => k.kittyVirtualPlacements.entries.length) (h.displays rfl)
    exact absurd hsame (by decide +kernel)
  · intro host h
    obtain ⟨chunking, hstep⟩ := h.deletes rfl (.inr rfl)
    have hkept : ((afterFirstPixel.1.step plainOutside (.ofText "Ga=d,d=N,I=1")
        ).graphics.screen.getKittyImage 0).isSome := by decide +kernel
    have hgone : (afterFirstPixel.1.step plainOutside (.ofText "Ga=d,d=N,I=1")
        ).graphics.screen.getKittyImage 0 = none :=
      (congrArg (·.graphics.screen.getKittyImage 0) hstep).trans
        (Terminal.deleteGraphics_getKittyImage (afterFirstPixel.1.withChunking chunking) rfl rfl)
    rw [hgone] at hkept
    cases hkept

end Rio.Kitty
