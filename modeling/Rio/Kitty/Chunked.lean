import Rio.Kitty.Parse
import Rio.Lib.Base64

/-! A transmission in chunks, with other commands in between, against the same transmission in
one command. -/

set_option linter.dupNamespace false

namespace Rio.Kitty

/-- Whether a transmission last touched by a command may still be continued. -/
def fresh (now : ℕ) (cmd : KittyGraphicsCommand) : Bool :=
  now - cmd.lastTouched < chunkStaleTimeout

theorem fresh_mono {now later : ℕ} (h : now ≤ later) {cmd : KittyGraphicsCommand}
    (hfresh : fresh later cmd = true) : fresh now cmd = true := by
  simp only [fresh, decide_eq_true_eq] at hfresh ⊢
  omega

theorem filter_fresh_filter {now later : ℕ} (h : now ≤ later)
    (o : Option KittyGraphicsCommand) :
    (o.filter (fresh now)).filter (fresh later) = o.filter (fresh later) := by
  cases o with
  | none => rfl
  | some cmd =>
    by_cases hlater : fresh later cmd = true
    · simp [Option.filter, hlater, fresh_mono h hlater]
    · by_cases hnow : fresh now cmd = true <;> simp [Option.filter, hlater, hnow]

namespace KittyGraphicsState

theorem evictStaleChunks_lookup (s : KittyGraphicsState) (now key : ℕ) :
    (s.evictStaleChunks now).incompleteImages.lookup key =
      (s.incompleteImages.lookup key).filter (fresh now) := by
  have hkept := Table.lookup_retain (fun _ cmd => fresh now cmd) s.incompleteImages key
  unfold evictStaleChunks
  dsimp only
  split
  · exact hkept
  · rename_i hall
    rw [← hkept]
    congr 1
    apply AList.ext
    refine (List.filter_eq_self.mpr ?_).symm
    intro e he
    by_contra hstale
    refine hall (List.length_filter_lt_length_iff_exists.mpr ⟨e, he, ?_⟩)
    exact hstale

theorem evictStaleChunks_nextAutoImageId (s : KittyGraphicsState) (now : ℕ) :
    (s.evictStaleChunks now).nextAutoImageId = s.nextAutoImageId := by
  unfold evictStaleChunks
  dsimp only
  split <;> rfl

/-- The key of the transmission in progress stays as long as its transmission does. -/
theorem evictStaleChunks_current {s : KittyGraphicsState} {now : ℕ}
    {cmd : KittyGraphicsCommand}
    (h : s.incompleteImages.lookup s.currentTransmissionKey = some cmd)
    (hfresh : fresh now cmd = true) :
    (s.evictStaleChunks now).currentTransmissionKey = s.currentTransmissionKey := by
  have hkept := Table.lookup_retain_of_pos (p := fun _ cmd => fresh now cmd) h hfresh
  have hmem : s.currentTransmissionKey ∈
      s.incompleteImages.retain (fun _ cmd => fresh now cmd) := by
    rw [← AList.lookup_isSome, hkept]
    rfl
  unfold evictStaleChunks
  dsimp only
  split
  · exact if_pos hmem
  · rfl

theorem evictStaleChunks_current_zero {s : KittyGraphicsState} {now : ℕ}
    (h : s.currentTransmissionKey = 0) : (s.evictStaleChunks now).currentTransmissionKey = 0 := by
  unfold evictStaleChunks
  dsimp only
  split
  · rw [h]
    exact ite_self _
  · exact h

end KittyGraphicsState

/-! ### Keys -/

/-- The command names an image by id or number. -/
def KittyGraphicsCommand.Named (cmd : KittyGraphicsCommand) : Prop :=
  0 < cmd.imageId ∨ 0 < cmd.imageNumber

/-- The key that the id or number of a command gives. -/
def KittyGraphicsCommand.ownKey (cmd : KittyGraphicsCommand) : ℕ :=
  if 0 < cmd.imageId then cmd.imageId else cmd.imageNumber

namespace KittyGraphicsState
variable {s : KittyGraphicsState} {cmd : KittyGraphicsCommand}

theorem imageKey_named (h : cmd.Named) : s.imageKey cmd = (cmd.ownKey, cmd, s) := by
  unfold imageKey KittyGraphicsCommand.ownKey
  by_cases hid : 0 < cmd.imageId
  · rw [if_pos hid, if_pos hid]
  · rw [if_neg hid, if_neg hid, if_pos (h.resolve_left hid)]

theorem imageKey_current (h : ¬ cmd.Named) (hcurrent : s.currentTransmissionKey ≠ 0) :
    s.imageKey cmd = (s.currentTransmissionKey, cmd, s) := by
  obtain ⟨hid, hnumber⟩ := not_or.mp h
  unfold imageKey
  rw [if_neg hid, if_neg hnumber, if_pos hcurrent]

theorem imageKey_new (h : ¬ cmd.Named) (hcurrent : s.currentTransmissionKey = 0) :
    s.imageKey cmd =
      (s.allocateImageId.1,
        { cmd with imageId := s.allocateImageId.1, implicitId := true }, s.allocateImageId.2) := by
  obtain ⟨hid, hnumber⟩ := not_or.mp h
  unfold imageKey
  rw [if_neg hid, if_neg hnumber, if_neg (not_not.mpr hcurrent)]

theorem allocateImageId_pos (s : KittyGraphicsState) : 0 < s.allocateImageId.1 := by
  unfold allocateImageId
  dsimp only
  split <;> omega

theorem imageKey_pos (s : KittyGraphicsState) (cmd : KittyGraphicsCommand) :
    0 < (s.imageKey cmd).1 := by
  by_cases hnamed : cmd.Named
  · rw [imageKey_named hnamed]
    unfold KittyGraphicsCommand.ownKey
    by_cases hid : 0 < cmd.imageId
    · rwa [if_pos hid]
    · rw [if_neg hid]
      exact hnamed.resolve_left hid
  · by_cases hcurrent : s.currentTransmissionKey = 0
    · rw [imageKey_new hnamed hcurrent]
      exact allocateImageId_pos s
    · rw [imageKey_current hnamed hcurrent]
      exact Nat.pos_of_ne_zero hcurrent

/-- Finding a key touches no transmission. -/
theorem imageKey_state (s : KittyGraphicsState) (cmd : KittyGraphicsCommand) :
    (s.imageKey cmd).2.2.incompleteImages = s.incompleteImages ∧
      (s.imageKey cmd).2.2.currentTransmissionKey = s.currentTransmissionKey := by
  by_cases hnamed : cmd.Named
  · rw [imageKey_named hnamed]
    exact ⟨rfl, rfl⟩
  · by_cases hcurrent : s.currentTransmissionKey = 0
    · rw [imageKey_new hnamed hcurrent]
      exact ⟨rfl, rfl⟩
    · rw [imageKey_current hnamed hcurrent]
      exact ⟨rfl, rfl⟩

/-- Finding a key changes the names in a command only. -/
theorem imageKey_command (s : KittyGraphicsState) (cmd : KittyGraphicsCommand) :
    (s.imageKey cmd).2.1 =
      { cmd with
        imageId := (s.imageKey cmd).2.1.imageId
        implicitId := (s.imageKey cmd).2.1.implicitId } := by
  by_cases hnamed : cmd.Named
  · rw [imageKey_named hnamed]
  · by_cases hcurrent : s.currentTransmissionKey = 0
    · rw [imageKey_new hnamed hcurrent]
    · rw [imageKey_current hnamed hcurrent]

/-- The key depends on the names in a command only. -/
theorem imageKey_payload (s : KittyGraphicsState) (cmd : KittyGraphicsCommand)
    (payload : List UInt8) (more : Bool) (lastTouched : ℕ) :
    s.imageKey { cmd with payload := payload, more := more, lastTouched := lastTouched } =
      ((s.imageKey cmd).1,
        { (s.imageKey cmd).2.1 with
          payload := payload
          more := more
          lastTouched := lastTouched },
        (s.imageKey cmd).2.2) := by
  by_cases hnamed : cmd.Named
  · rw [imageKey_named hnamed]
    exact imageKey_named hnamed
  · by_cases hcurrent : s.currentTransmissionKey = 0
    · rw [imageKey_new hnamed hcurrent]
      exact imageKey_new hnamed hcurrent
    · rw [imageKey_current hnamed hcurrent]
      exact imageKey_current hnamed hcurrent

end KittyGraphicsState

theorem handleCommand_complete (codecs : Codecs) (host : Host) (s : KittyGraphicsState)
    {cmd : KittyGraphicsCommand} (hmore : cmd.more = false) :
    handleCommand codecs host cmd s =
      let taken := ((s.imageKey cmd).2.2.evictStaleChunks host.now).takeCommand
        (s.imageKey cmd).1 (s.imageKey cmd).2.1
      (taken.1.map (·.dispatch codecs host), taken.2) := by
  have hmore' : (s.imageKey cmd).2.1.more = false := by
    rw [KittyGraphicsState.imageKey_command]
    exact hmore
  unfold handleCommand
  dsimp only
  rw [hmore', if_neg Bool.false_ne_true]

theorem handleCommand_chunk (codecs : Codecs) (host : Host) (s : KittyGraphicsState)
    {cmd : KittyGraphicsCommand} (hmore : cmd.more = true) :
    handleCommand codecs host cmd s =
      ((s.imageKey cmd).2.2.evictStaleChunks host.now).storeChunk host.now
        (s.imageKey cmd).1 (s.imageKey cmd).2.1 := by
  have hmore' : (s.imageKey cmd).2.1.more = true := by
    rw [KittyGraphicsState.imageKey_command]
    exact hmore
  unfold handleCommand
  dsimp only
  rw [if_pos hmore']

/-! ### A state with one more transmission in progress -/

/-- `a` is `b` with a transmission in progress besides: under its own key, touched last by
`stored`. Entries that are stale from `now` on do not count. -/
structure Beside (named : Prop) (key : ℕ) (stored : KittyGraphicsCommand) (now : ℕ)
    (a b : KittyGraphicsState) : Prop where
  positive : 0 < key
  stored : a.incompleteImages.lookup key = some stored
  others : ∀ j ≠ key, ∀ later ≥ now,
    (a.incompleteImages.lookup j).filter (fresh later) =
      (b.incompleteImages.lookup j).filter (fresh later)
  next : named → a.nextAutoImageId = b.nextAutoImageId
  current : a.currentTransmissionKey = key ∨
    (a.currentTransmissionKey = 0 ∧ b.currentTransmissionKey = 0)

namespace Beside
open KittyGraphicsState
variable {named : Prop} {key now : ℕ} {stored : KittyGraphicsCommand} {a b : KittyGraphicsState}

/-- Eviction keeps the transmission if it is fresh, and then both states hold the same other
transmissions. -/
theorem evict (h : Beside named key stored now a b) {later : ℕ} (hnow : now ≤ later)
    (hfresh : fresh later stored = true) :
    Beside named key stored later (a.evictStaleChunks later) (b.evictStaleChunks later) ∧
      ∀ j ≠ key, (a.evictStaleChunks later).incompleteImages.lookup j =
        (b.evictStaleChunks later).incompleteImages.lookup j := by
  have hsame : ∀ j ≠ key, (a.evictStaleChunks later).incompleteImages.lookup j =
      (b.evictStaleChunks later).incompleteImages.lookup j := by
    intro j hj
    rw [evictStaleChunks_lookup, evictStaleChunks_lookup]
    exact h.others j hj later hnow
  refine ⟨⟨h.positive, ?_, fun j hj _ _ => by rw [hsame j hj], fun hnamed => ?_, ?_⟩, hsame⟩
  · rw [evictStaleChunks_lookup, h.stored]
    simp [Option.filter, hfresh]
  · rw [evictStaleChunks_nextAutoImageId, evictStaleChunks_nextAutoImageId]
    exact h.next hnamed
  · obtain hkey | ⟨ha, hb⟩ := h.current
    · left
      rw [evictStaleChunks_current (by rw [hkey]; exact h.stored) hfresh]
      exact hkey
    · exact .inr ⟨evictStaleChunks_current_zero ha, evictStaleChunks_current_zero hb⟩

/-- A command that gets another key gets it in both states. -/
theorem imageKey (h : Beside named key stored now a b) {cmd : KittyGraphicsCommand}
    (hkey : (a.imageKey cmd).1 ≠ key) (hname : cmd.Named ∨ named) :
    (b.imageKey cmd).1 = (a.imageKey cmd).1 ∧ (b.imageKey cmd).2.1 = (a.imageKey cmd).2.1 ∧
      Beside named key stored now (a.imageKey cmd).2.2 (b.imageKey cmd).2.2 := by
  by_cases hnamed : cmd.Named
  · rw [imageKey_named hnamed, imageKey_named hnamed]
    exact ⟨rfl, rfl, h⟩
  obtain hcurrent | ⟨ha, hb⟩ := h.current
  · have hzero : a.currentTransmissionKey ≠ 0 := by
      rw [hcurrent]
      exact h.positive.ne'
    rw [imageKey_current hnamed hzero] at hkey
    exact absurd hcurrent hkey
  · have hnext := h.next (hname.resolve_left hnamed)
    rw [imageKey_new hnamed ha, imageKey_new hnamed hb]
    unfold allocateImageId
    rw [hnext]
    exact ⟨rfl, rfl, ⟨h.positive, h.stored, h.others, fun _ => rfl, .inr ⟨ha, hb⟩⟩⟩

/-- A command that ends another transmission, or none, does so in both states. -/
theorem takeCommand (h : Beside named key stored now a b)
    (hsame : ∀ j ≠ key, a.incompleteImages.lookup j = b.incompleteImages.lookup j) {j : ℕ}
    (hj : j ≠ key) (cmd : KittyGraphicsCommand) :
    (a.takeCommand j cmd).1 = (b.takeCommand j cmd).1 ∧
      Beside named key stored now (a.takeCommand j cmd).2 (b.takeCommand j cmd).2 := by
  unfold KittyGraphicsState.takeCommand
  rw [← hsame j hj]
  cases hlookup : a.incompleteImages.lookup j with
  | none => exact ⟨rfl, h⟩
  | some other =>
    have herased : Beside named key stored now
        { a with incompleteImages := a.incompleteImages.erase j, currentTransmissionKey := 0 }
        { b with incompleteImages := b.incompleteImages.erase j, currentTransmissionKey := 0 } := by
      refine ⟨h.positive, ?_, fun i hi later hlater => ?_, h.next, .inr ⟨rfl, rfl⟩⟩
      · rw [Table.lookup_erase_of, if_neg hj.symm]
        exact h.stored
      · rw [Table.lookup_erase_of, Table.lookup_erase_of, hsame i hi]
    dsimp only
    by_cases hlarge : maxSize < other.payload.length + cmd.payload.length
    · rw [if_pos hlarge, if_pos hlarge]
      exact ⟨rfl, herased⟩
    · rw [if_neg hlarge, if_neg hlarge]
      exact ⟨rfl, herased⟩

/-- A complete command with another key does the same in both states. -/
theorem other (h : Beside named key stored now a b) (codecs : Codecs) (host : Host)
    {cmd : KittyGraphicsCommand} (hnow : now ≤ host.now) (hfresh : fresh host.now stored = true)
    (hmore : cmd.more = false) (hkey : (a.imageKey cmd).1 ≠ key) (hname : cmd.Named ∨ named) :
    (handleCommand codecs host cmd a).1 = (handleCommand codecs host cmd b).1 ∧
      Beside named key stored host.now (handleCommand codecs host cmd a).2
        (handleCommand codecs host cmd b).2 := by
  obtain ⟨hsameKey, hsameCmd, hkeyed⟩ := h.imageKey hkey hname
  obtain ⟨hevicted, hsame⟩ := hkeyed.evict hnow hfresh
  obtain ⟨hresponse, hstate⟩ := hevicted.takeCommand hsame hkey (a.imageKey cmd).2.1
  rw [handleCommand_complete codecs host a hmore, handleCommand_complete codecs host b hmore,
    hsameKey, hsameCmd]
  exact ⟨congrArg (Option.map (·.dispatch codecs host)) hresponse, hstate⟩

/-- A chunk of the transmission with more to come is added to it. -/
theorem chunk (h : Beside named key stored now a b) (codecs : Codecs) (host : Host)
    {cmd : KittyGraphicsCommand} (hnow : now ≤ host.now) (hfresh : fresh host.now stored = true)
    (hmore : cmd.more = true) (hkey : a.imageKey cmd = (key, cmd, a))
    (hsize : stored.payload.length + cmd.payload.length ≤ maxSize) :
    (handleCommand codecs host cmd a).1 = some .pendingChunk ∧
      Beside named key
        { stored with payload := stored.payload ++ cmd.payload, lastTouched := host.now } host.now
        (handleCommand codecs host cmd a).2 b := by
  obtain ⟨hevicted, -⟩ := h.evict hnow hfresh
  rw [handleCommand_chunk codecs host a hmore, hkey]
  unfold storeChunk
  rw [hevicted.stored]
  dsimp only
  rw [if_neg (by omega)]
  refine ⟨rfl, h.positive, AList.lookup_insert _, fun j hj later hlater => ?_, fun hnamed => ?_,
    .inl rfl⟩
  · dsimp only
    rw [AList.lookup_insert_ne hj, evictStaleChunks_lookup, filter_fresh_filter hlater]
    exact h.others j hj later (by omega)
  · exact (evictStaleChunks_nextAutoImageId a host.now).trans (h.next hnamed)

/-- The last chunk of the transmission completes it. -/
theorem last (h : Beside named key stored now a b) (codecs : Codecs) (host : Host)
    {cmd : KittyGraphicsCommand} (hnow : now ≤ host.now) (hfresh : fresh host.now stored = true)
    (hmore : cmd.more = false) (hkey : a.imageKey cmd = (key, cmd, a))
    (hsize : stored.payload.length + cmd.payload.length ≤ maxSize) :
    (handleCommand codecs host cmd a).1 =
      some ({ stored with payload := stored.payload ++ cmd.payload }.dispatch codecs host) := by
  obtain ⟨hevicted, -⟩ := h.evict hnow hfresh
  rw [handleCommand_complete codecs host a hmore, hkey]
  unfold KittyGraphicsState.takeCommand
  rw [hevicted.stored]
  dsimp only
  rw [if_neg (by omega)]
  rfl

/-- The first chunk of a transmission puts it beside the state before. -/
theorem first (codecs : Codecs) (host : Host) {cmd : KittyGraphicsCommand}
    (hmore : cmd.more = true)
    (hfree : (b.evictStaleChunks host.now).incompleteImages.lookup (b.imageKey cmd).1 = none) :
    (handleCommand codecs host cmd b).1 = some .pendingChunk ∧
      Beside cmd.Named (b.imageKey cmd).1 { (b.imageKey cmd).2.1 with lastTouched := host.now }
        host.now (handleCommand codecs host cmd b).2 b := by
  have hlookup (j : ℕ) :
      ((b.imageKey cmd).2.2.evictStaleChunks host.now).incompleteImages.lookup j =
        (b.incompleteImages.lookup j).filter (fresh host.now) := by
    rw [evictStaleChunks_lookup, (imageKey_state b cmd).1]
  have hfree' : ((b.imageKey cmd).2.2.evictStaleChunks host.now).incompleteImages.lookup
      (b.imageKey cmd).1 = none := by
    rw [hlookup, ← evictStaleChunks_lookup]
    exact hfree
  rw [handleCommand_chunk codecs host b hmore]
  unfold storeChunk
  rw [hfree']
  refine ⟨rfl, imageKey_pos b cmd, AList.lookup_insert _, fun j hj later hlater => ?_,
    fun hnamed => ?_, .inl rfl⟩
  · dsimp only
    rw [AList.lookup_insert_ne hj, hlookup, filter_fresh_filter hlater]
  · dsimp only
    rw [evictStaleChunks_nextAutoImageId, imageKey_named hnamed]

end Beside

/-! ### Payloads -/

/-- Base64 decodes every group of four characters on its own. -/
structure Codecs.Base64Laws (codecs : Codecs) : Prop where
  standard_append : ∀ {x y bytes : List UInt8}, 4 ∣ x.length → y ≠ [] →
    codecs.standard (x ++ y) = some bytes →
      ∃ dx dy, codecs.standard x = some dx ∧ codecs.standard y = some dy ∧ bytes = dx ++ dy
  noPad_append : ∀ {x y bytes : List UInt8}, 4 ∣ x.length → y ≠ [] →
    codecs.standardNoPad (x ++ y) = some bytes →
      ∃ dx dy, codecs.standardNoPad x = some dx ∧ codecs.standardNoPad y = some dy ∧
        bytes = dx ++ dy
  agree : ∀ {x bytes bytes' : List UInt8}, codecs.standard x = some bytes →
    codecs.standardNoPad x = some bytes' → bytes = bytes'

theorem Codecs.Base64Laws.decodePayload_append {codecs : Codecs} (h : codecs.Base64Laws)
    {x y bytes : List UInt8} (hx : 4 ∣ x.length)
    (hdecode : decodePayloadBase64 codecs (x ++ y) = some bytes) :
    ∃ dx dy, decodePayloadBase64 codecs x = some dx ∧ decodePayloadBase64 codecs y = some dy ∧
      bytes = dx ++ dy := by
  by_cases hxnil : x = []
  · exact ⟨[], bytes, if_pos hxnil, by rwa [hxnil] at hdecode, rfl⟩
  by_cases hynil : y = []
  · exact ⟨bytes, [], by rwa [hynil, List.append_nil] at hdecode, if_pos hynil,
      (List.append_nil _).symm⟩
  unfold decodePayloadBase64 at hdecode ⊢
  rw [if_neg (by simp [hxnil])] at hdecode
  rw [if_neg hxnil, if_neg hynil]
  cases hboth : codecs.standard (x ++ y) with
  | some data =>
    rw [hboth] at hdecode
    obtain ⟨dx, dy, hdx, hdy, rfl⟩ := h.standard_append hx hynil hboth
    rw [hdx, hdy]
    exact ⟨dx, dy, rfl, rfl, (Option.some.inj hdecode).symm⟩
  | none =>
    rw [hboth] at hdecode
    obtain ⟨dx, dy, hdx, hdy, rfl⟩ := h.noPad_append hx hynil hdecode
    refine ⟨dx, dy, ?_, ?_, rfl⟩
    · cases hstandard : codecs.standard x with
      | none => exact hdx
      | some data => rw [h.agree hstandard hdx]
    · cases hstandard : codecs.standard y with
      | none => exact hdy
      | some data => rw [h.agree hstandard hdy]

/-! ### Commands as they arrive -/

/-- A command with the host's answers while it is handled. -/
structure Apc where
  host : Host
  control : List UInt8
  payload : List UInt8

namespace Apc

def params (apc : Apc) : List (List UInt8) := [[0x47], apc.control, apc.payload]

/-- The command of the control data. -/
def metadata (apc : Apc) : Option KittyGraphicsCommand := readControl apc.host apc.control

def receive (codecs : Codecs) (apc : Apc) (s : KittyGraphicsState) :
    Option KittyGraphicsResponse × KittyGraphicsState :=
  parse codecs apc.host apc.params s

theorem readCommand_eq {codecs : Codecs} {apc : Apc} {cmd : KittyGraphicsCommand}
    {data : List UInt8} (hmeta : apc.metadata = some cmd)
    (hdata : decodePayloadBase64 codecs apc.payload = some data) :
    readCommand codecs apc.host apc.params = some { cmd with payload := data } := by
  have hcontrol : readControl apc.host apc.control = some cmd := hmeta
  simp only [readCommand, params, List.getD_cons_zero, List.getD_cons_succ, hcontrol, hdata]

end Apc

/-- A command between the first and the last chunk of a transmission: one of its chunks, or
another command. -/
inductive Event
  | chunk (apc : Apc)
  | other (apc : Apc)

namespace Event

def apc : Event → Apc
  | .chunk apc => apc
  | .other apc => apc

def isOther : Event → Bool
  | .chunk _ => false
  | .other _ => true

def chunkPayload : Event → List UInt8
  | .chunk apc => apc.payload
  | .other _ => []

end Event

def runEvents (codecs : Codecs) (s : KittyGraphicsState) (events : List Event) :
    KittyGraphicsState :=
  events.foldl (fun s e => (e.apc.receive codecs s).2) s

/-- The responses to the other commands. -/
def otherResponses (codecs : Codecs) (s : KittyGraphicsState) :
    List Event → List (Option KittyGraphicsResponse)
  | [] => []
  | .chunk apc :: events => otherResponses codecs (apc.receive codecs s).2 events
  | .other apc :: events =>
    (apc.receive codecs s).1 :: otherResponses codecs (apc.receive codecs s).2 events

/-- A chunk of a transmission names the same image as its first chunk, or none. -/
def KittyGraphicsCommand.Continues (cmd start : KittyGraphicsCommand) : Prop :=
  cmd.action ≠ .query ∧
    (¬ cmd.Named ∨ (cmd.imageId = start.imageId ∧ cmd.imageNumber = start.imageNumber))

/-- A transmission cut into chunks at groups of four characters, and as one command. The first
chunk has the control data of the whole but for the `m` key. -/
structure Cut (start : KittyGraphicsCommand) (first : Apc) (events : List Event)
    (last whole : Apc) : Prop where
  firstChunk : first.metadata = some start
  more : start.more = true
  transmits : start.earlyResponse = none
  chunks : ∀ apc, .chunk apc ∈ events →
    ∃ cmd, apc.metadata = some cmd ∧ cmd.more = true ∧ cmd.Continues start
  lastChunk : ∃ cmd, last.metadata = some cmd ∧ cmd.more = false ∧ cmd.Continues start
  wholeCommand : whole.metadata = some { start with more := false, lastTouched := whole.host.now }
  host : whole.host = last.host
  payload : whole.payload = first.payload ++ (events.flatMap Event.chunkPayload ++ last.payload)
  firstGroups : 4 ∣ first.payload.length
  groups : ∀ apc, .chunk apc ∈ events → 4 ∣ apc.payload.length

/-- A chunk comes in time, and finds its transmission: by its own name, or because it is the
one in progress. -/
def Arrives (key touched : ℕ) (s : KittyGraphicsState) (apc : Apc) : Prop :=
  apc.host.now - touched < chunkStaleTimeout ∧
    ∀ cmd, apc.metadata = some cmd → cmd.Named ∨ s.currentTransmissionKey = key

/-- A command takes no part in transmissions, or it is complete, comes in time and gets another
key than the transmission; and one of the two names its image. -/
def StaysApart (codecs : Codecs) (start : KittyGraphicsCommand) (key touched : ℕ)
    (s : KittyGraphicsState) (apc : Apc) : Prop :=
  ∀ cmd, readCommand codecs apc.host apc.params = some cmd → cmd.earlyResponse = none →
    cmd.more = false ∧ apc.host.now - touched < chunkStaleTimeout ∧
      (s.imageKey cmd).1 ≠ key ∧ (cmd.Named ∨ start.Named)

/-- What comes after the first chunk does not disturb the transmission, which was touched last
at some time. -/
def Undisturbed (codecs : Codecs) (start : KittyGraphicsCommand) (key : ℕ) (last : Apc) :
    ℕ → KittyGraphicsState → List Event → Prop
  | touched, s, [] => Arrives key touched s last
  | touched, s, .chunk apc :: events =>
    Arrives key touched s apc ∧
      Undisturbed codecs start key last apc.host.now (apc.receive codecs s).2 events
  | touched, s, .other apc :: events =>
    StaysApart codecs start key touched s apc ∧
      Undisturbed codecs start key last touched (apc.receive codecs s).2 events

/-! ### The transmission -/

theorem KittyGraphicsCommand.earlyResponse_eq_none {cmd : KittyGraphicsCommand} :
    cmd.earlyResponse = none ↔
      ¬ (0 < cmd.imageId ∧ 0 < cmd.imageNumber) ∧ cmd.action ≠ .query := by
  unfold earlyResponse
  by_cases hboth : 0 < cmd.imageId ∧ 0 < cmd.imageNumber
  · rw [if_pos hboth]
    exact ⟨fun h => (nomatch h), fun h => absurd hboth h.1⟩
  rw [if_neg hboth]
  by_cases hquery : cmd.action = .query
  · rw [if_pos hquery]
    exact ⟨fun h => (by split at h <;> cases h), fun h => absurd hquery h.2⟩
  · rw [if_neg hquery]
    exact ⟨fun _ => ⟨hboth, hquery⟩, fun _ => rfl⟩

/-- A chunk of a transmission is a command that takes part in it. -/
theorem KittyGraphicsCommand.Continues.earlyResponse {cmd start : KittyGraphicsCommand}
    (h : cmd.Continues start) (hstart : start.earlyResponse = none) :
    cmd.earlyResponse = none := by
  rw [earlyResponse_eq_none] at hstart ⊢
  obtain ⟨hquery, hnot | ⟨hid, hnumber⟩⟩ := h
  · exact ⟨fun hboth => hnot (.inl hboth.1), hquery⟩
  · rw [hid, hnumber]
    exact ⟨hstart.1, hquery⟩

/-- A chunk that arrives gets the key of its transmission. -/
theorem Arrives.imageKey {key touched : ℕ} {s : KittyGraphicsState} {apc : Apc}
    (h : Arrives key touched s apc) (hkey : 0 < key) {cmd start : KittyGraphicsCommand}
    (hstart : start.Named → start.ownKey = key) (hmeta : apc.metadata = some cmd)
    (hcont : cmd.Continues start) (data : List UInt8) :
    s.imageKey { cmd with payload := data } = (key, { cmd with payload := data }, s) := by
  rw [KittyGraphicsState.imageKey_payload s cmd data cmd.more cmd.lastTouched]
  by_cases hnamed : cmd.Named
  · obtain ⟨hid, hnumber⟩ := hcont.2.resolve_left (not_not.mpr hnamed)
    have hown : cmd.ownKey = start.ownKey := by
      unfold KittyGraphicsCommand.ownKey
      rw [hid, hnumber]
    have hstartNamed : start.Named := by
      unfold KittyGraphicsCommand.Named at hnamed ⊢
      rwa [hid, hnumber] at hnamed
    rw [KittyGraphicsState.imageKey_named hnamed, hown, hstart hstartNamed]
  · have hcurrent := (h.2 cmd hmeta).resolve_left hnamed
    rw [KittyGraphicsState.imageKey_current hnamed (by omega), hcurrent]

theorem parse_command {codecs : Codecs} {apc : Apc} {s : KittyGraphicsState}
    {cmd : KittyGraphicsCommand} (hread : readCommand codecs apc.host apc.params = some cmd)
    (hearly : cmd.earlyResponse = none) :
    apc.receive codecs s = handleCommand codecs apc.host cmd s := by
  unfold Apc.receive parse
  rw [hread]
  dsimp only
  rw [hearly]

/-- A chunk that arrives is handled under the key of its transmission. -/
theorem Arrives.receive {codecs : Codecs} {key touched : ℕ} {s : KittyGraphicsState} {apc : Apc}
    (h : Arrives key touched s apc) (hkey : 0 < key) {cmd start : KittyGraphicsCommand}
    (hstart : start.Named → start.ownKey = key) (htransmits : start.earlyResponse = none)
    (hmeta : apc.metadata = some cmd) (hcont : cmd.Continues start) {data : List UInt8}
    (hdata : decodePayloadBase64 codecs apc.payload = some data) :
    ∃ full : KittyGraphicsCommand, full.payload = data ∧ full.more = cmd.more ∧
      s.imageKey full = (key, full, s) ∧
      apc.receive codecs s = handleCommand codecs apc.host full s :=
  ⟨{ cmd with payload := data }, rfl, rfl, h.imageKey hkey hstart hmeta hcont data,
    parse_command (Apc.readCommand_eq hmeta hdata) (hcont.earlyResponse htransmits)⟩

/-- A command that takes no part in transmissions leaves the state alone. -/
theorem parse_apart {codecs : Codecs} {apc : Apc}
    (h : ∀ cmd, readCommand codecs apc.host apc.params = some cmd → cmd.earlyResponse ≠ none)
    (s s' : KittyGraphicsState) :
    (apc.receive codecs s).1 = (apc.receive codecs s').1 ∧ (apc.receive codecs s).2 = s := by
  unfold Apc.receive parse
  cases hread : readCommand codecs apc.host apc.params with
  | none => exact ⟨rfl, rfl⟩
  | some cmd =>
    dsimp only
    cases hearly : cmd.earlyResponse with
    | none => exact absurd hearly (h cmd hread)
    | some response => exact ⟨rfl, rfl⟩

namespace Beside
variable {key now touched : ℕ} {stored start : KittyGraphicsCommand} {a b : KittyGraphicsState}
  {codecs : Codecs}

/-- A command that stays apart does the same in both states. -/
theorem staysApart (h : Beside start.Named key stored now a b) {apc : Apc}
    (hnow : now ≤ apc.host.now) (happart : StaysApart codecs start key stored.lastTouched a apc) :
    (apc.receive codecs a).1 = (apc.receive codecs b).1 ∧
      ∃ later ≤ apc.host.now, Beside start.Named key stored later (apc.receive codecs a).2
        (apc.receive codecs b).2 := by
  by_cases hearly : ∃ cmd, readCommand codecs apc.host apc.params = some cmd ∧
      cmd.earlyResponse = none
  · obtain ⟨cmd, hread, hnone⟩ := hearly
    obtain ⟨hmore, htime, hkey, hname⟩ := happart cmd hread hnone
    have hfresh : fresh apc.host.now stored = true := decide_eq_true htime
    obtain ⟨hresponse, hbeside⟩ := h.other codecs apc.host hnow hfresh hmore hkey hname
    rw [parse_command hread hnone, parse_command hread hnone]
    exact ⟨hresponse, apc.host.now, le_rfl, hbeside⟩
  · have hapart : ∀ cmd, readCommand codecs apc.host apc.params = some cmd →
        cmd.earlyResponse ≠ none := fun cmd hread hnone => hearly ⟨cmd, hread, hnone⟩
    rw [(parse_apart hapart a b).2, (parse_apart hapart b b).2]
    exact ⟨(parse_apart hapart a b).1, now, hnow, h⟩

/-- The rest of a transmission: its last chunk completes the payload stored so far with the
bytes of the chunks to come, and the other commands do what they do without it. -/
theorem run (hlaws : codecs.Base64Laws) (hnames : start.Named → start.ownKey = key)
    (htransmits : start.earlyResponse = none) {last : Apc}
    (hlast : ∃ cmd, last.metadata = some cmd ∧ cmd.more = false ∧ cmd.Continues start)
    (events : List Event) {data : List UInt8}
    (h : Beside start.Named key stored now a b)
    (hclock : (now :: (events.map (·.apc.host.now) ++ [last.host.now])).Pairwise (· ≤ ·))
    (hchunks : ∀ apc, .chunk apc ∈ events → (∃ cmd, apc.metadata = some cmd ∧ cmd.more = true ∧
      cmd.Continues start) ∧ 4 ∣ apc.payload.length)
    (hdata : decodePayloadBase64 codecs (events.flatMap Event.chunkPayload ++ last.payload) =
      some data)
    (hsize : stored.payload.length + data.length ≤ maxSize)
    (hund : Undisturbed codecs start key last stored.lastTouched a events) :
    (last.receive codecs (runEvents codecs a events)).1 =
        some ({ stored with payload := stored.payload ++ data }.dispatch codecs last.host) ∧
      otherResponses codecs a events = otherResponses codecs b (events.filter Event.isOther) := by
  induction events generalizing stored now a b data with
  | nil =>
    obtain ⟨cmd, hmeta, hmore, hcont⟩ := hlast
    have harrives : Arrives key stored.lastTouched a last := hund
    obtain ⟨full, rfl, hfull, hkey, hreceive⟩ :=
      harrives.receive h.positive hnames htransmits hmeta hcont hdata
    have hresult := h.last codecs last.host (by simpa using hclock) (decide_eq_true harrives.1)
      (hfull.trans hmore) hkey hsize
    exact ⟨(congrArg Prod.fst hreceive).trans hresult, rfl⟩
  | cons e events ih =>
    obtain ⟨hnow, hclock'⟩ := List.pairwise_cons.mp hclock
    have hnow' : now ≤ e.apc.host.now := hnow _ (by simp)
    have hchunks' : ∀ apc, Event.chunk apc ∈ events → (∃ cmd, apc.metadata = some cmd ∧
        cmd.more = true ∧ cmd.Continues start) ∧ 4 ∣ apc.payload.length :=
      fun apc hapc => hchunks apc (List.mem_cons_of_mem _ hapc)
    cases e with
    | chunk apc =>
      obtain ⟨harrives, hund'⟩ := hund
      obtain ⟨⟨cmd, hmeta, hmore, hcont⟩, hgroups⟩ := hchunks apc List.mem_cons_self
      rw [List.flatMap_cons, List.append_assoc] at hdata
      obtain ⟨dx, dy, hdx, hdy, rfl⟩ := hlaws.decodePayload_append hgroups hdata
      rw [List.length_append] at hsize
      obtain ⟨full, rfl, hfull, hkey, hreceive⟩ :=
        harrives.receive h.positive hnames htransmits hmeta hcont hdx
      obtain ⟨-, hbeside⟩ := h.chunk codecs apc.host hnow' (decide_eq_true harrives.1)
        (hfull.trans hmore) hkey (by omega)
      rw [← hreceive] at hbeside
      obtain ⟨hfinal, hothers⟩ := ih hbeside hclock' hchunks' hdy
        (by rw [List.length_append]; omega) hund'
      rw [List.append_assoc] at hfinal
      exact ⟨hfinal, hothers⟩
    | other apc =>
      obtain ⟨happart, hund'⟩ := hund
      obtain ⟨hresponse, later, hlater, hbeside⟩ := h.staysApart hnow' happart
      have hclock'' : (later :: (events.map (·.apc.host.now) ++ [last.host.now])).Pairwise
          (· ≤ ·) := by
        obtain ⟨hapc, hrest⟩ := List.pairwise_cons.mp hclock'
        exact List.pairwise_cons.mpr ⟨fun t ht => hlater.trans (hapc t ht), hrest⟩
      obtain ⟨hfinal, hothers⟩ := ih hbeside hclock'' hchunks' hdata hsize hund'
      exact ⟨hfinal, congrArg₂ List.cons hresponse hothers⟩

end Beside
/-- A command with its payload, as it is handled. -/
theorem Apc.receive_payload {codecs : Codecs} {apc : Apc} {cmd : KittyGraphicsCommand}
    (hmeta : apc.metadata = some cmd) (hearly : cmd.earlyResponse = none) {data : List UInt8}
    (hdata : decodePayloadBase64 codecs apc.payload = some data) (s : KittyGraphicsState) :
    ∃ full : KittyGraphicsCommand, full.more = cmd.more ∧ full.Named = cmd.Named ∧
      s.imageKey full =
        ((s.imageKey cmd).1, { (s.imageKey cmd).2.1 with payload := data }, (s.imageKey cmd).2.2) ∧
      apc.receive codecs s = handleCommand codecs apc.host full s := by
  refine ⟨{ cmd with payload := data }, rfl, rfl, ?_,
    parse_command (readCommand_eq hmeta hdata) hearly⟩
  rw [KittyGraphicsState.imageKey_payload s cmd data cmd.more cmd.lastTouched]
  have hcmd := KittyGraphicsState.imageKey_command s cmd
  rw [hcmd]

/-- The first chunk of a transmission with a free key. -/
theorem Beside.receive_first {codecs : Codecs} {first : Apc} {start : KittyGraphicsCommand}
    (hmeta : first.metadata = some start) (hearly : start.earlyResponse = none)
    (hmore : start.more = true) {data : List UInt8}
    (hdata : decodePayloadBase64 codecs first.payload = some data) {s : KittyGraphicsState}
    (hfree : (s.evictStaleChunks first.host.now).incompleteImages.lookup
      (s.imageKey start).1 = none) :
    (first.receive codecs s).1 = some .pendingChunk ∧
      Beside start.Named (s.imageKey start).1
        { (s.imageKey start).2.1 with payload := data, lastTouched := first.host.now }
        first.host.now (first.receive codecs s).2 s := by
  obtain ⟨full, hfull, hnamed, hkey, hreceive⟩ := first.receive_payload hmeta hearly hdata s
  have hfirst := Beside.first codecs first.host (hfull.trans hmore) (b := s)
    (by rw [hkey]; exact hfree)
  rw [hkey, hnamed, ← hreceive] at hfirst
  exact hfirst

/-- A transmission in one command with a free key. -/
theorem receive_whole {codecs : Codecs} {whole : Apc} {cmd : KittyGraphicsCommand}
    (hmeta : whole.metadata = some cmd) (hearly : cmd.earlyResponse = none)
    (hmore : cmd.more = false) {data : List UInt8}
    (hdata : decodePayloadBase64 codecs whole.payload = some data) {s : KittyGraphicsState}
    (hfree : (s.evictStaleChunks whole.host.now).incompleteImages.lookup (s.imageKey cmd).1 = none) :
    (whole.receive codecs s).1 =
      some ({ (s.imageKey cmd).2.1 with payload := data }.dispatch codecs whole.host) := by
  obtain ⟨full, hfull, -, hkey, hreceive⟩ := whole.receive_payload hmeta hearly hdata s
  have hfree' : ((s.imageKey cmd).2.2.evictStaleChunks whole.host.now).incompleteImages.lookup
      (s.imageKey cmd).1 = none := by
    rw [KittyGraphicsState.evictStaleChunks_lookup, (KittyGraphicsState.imageKey_state s cmd).1,
      ← KittyGraphicsState.evictStaleChunks_lookup]
    exact hfree
  rw [hreceive, handleCommand_complete codecs whole.host s (hfull.trans hmore), hkey]
  unfold KittyGraphicsState.takeCommand
  rw [hfree']
  rfl

/-- A transmission in chunks produces what it produces as one command with the metadata of the
first chunk, and commands in between do what they do without it: if its key is free at the
start, every chunk comes within ten seconds and finds the transmission, the other commands are
complete ones with other keys or take no part in transmissions, and the payload is valid and
not too large. -/
theorem transmission_chunked {codecs : Codecs} (hlaws : codecs.Base64Laws)
    {start : KittyGraphicsCommand} {first last whole : Apc} {events : List Event}
    (hcut : Cut start first events last whole) {data : List UInt8}
    (hdata : decodePayloadBase64 codecs whole.payload = some data) (hsize : data.length ≤ maxSize)
    (hclock : (first.host.now :: (events.map (·.apc.host.now) ++ [last.host.now])).Pairwise
      (· ≤ ·))
    {s : KittyGraphicsState}
    (hfree : (s.evictStaleChunks first.host.now).incompleteImages.lookup
      (s.imageKey start).1 = none)
    (hund : Undisturbed codecs start (s.imageKey start).1 last first.host.now
      (first.receive codecs s).2 events) :
    (first.receive codecs s).1 = some .pendingChunk ∧
      (last.receive codecs (runEvents codecs (first.receive codecs s).2 events)).1 =
        (whole.receive codecs s).1 ∧
      otherResponses codecs (first.receive codecs s).2 events =
        otherResponses codecs s (events.filter Event.isOther) := by
  have hparts := hdata
  rw [hcut.payload] at hparts
  obtain ⟨dx, dy, hdx, hdy, rfl⟩ := hlaws.decodePayload_append hcut.firstGroups hparts
  rw [List.length_append] at hsize
  have hnames : start.Named → start.ownKey = (s.imageKey start).1 := fun hnamed => by
    rw [KittyGraphicsState.imageKey_named hnamed]
  have hnow : first.host.now ≤ whole.host.now := by
    rw [hcut.host]
    exact (List.pairwise_cons.mp hclock).1 _ (by simp)
  obtain ⟨hpending, hbeside⟩ :=
    Beside.receive_first hcut.firstChunk hcut.transmits hcut.more hdx hfree
  obtain ⟨hlast, hothers⟩ := hbeside.run hlaws hnames hcut.transmits hcut.lastChunk events hclock
    (fun apc hapc => ⟨hcut.chunks apc hapc, hcut.groups apc hapc⟩) hdy hsize hund
  refine ⟨hpending, hlast.trans ?_, hothers⟩
  -- as one command, it still has a free key when the last chunk comes
  have hkey := KittyGraphicsState.imageKey_payload s start start.payload false whole.host.now
  have hwhole := receive_whole (s := s) hcut.wholeCommand hcut.transmits rfl hdata (by
    rw [hkey, KittyGraphicsState.evictStaleChunks_lookup, ← filter_fresh_filter hnow,
      ← KittyGraphicsState.evictStaleChunks_lookup, hfree]
    rfl)
  rw [hkey] at hwhole
  rw [hwhole, hcut.host]
  rfl

/-- Codecs for uncompressed pixels. -/
def plainCodecs : Codecs where
  standard := Base64.decodeStandard
  standardNoPad := Base64.decodeNoPad
  inflate := fun _ _ => none
  decodePng := fun _ => none

theorem plainCodecs_base64Laws : plainCodecs.Base64Laws where
  standard_append := Base64.decodeStandard_append
  noPad_append := Base64.decodeNoPad_append
  agree := Base64.decodeStandard_agree

/-- A command at some time, on a host without files. -/
def Apc.ofText (now : ℕ) (control payload : String) : Apc where
  host := ⟨now, fun _ => false, fun _ => none, fun _ => none⟩
  control := control.toList.map fun c => UInt8.ofNat c.toNat
  payload := payload.toList.map fun c => UInt8.ofNat c.toNat

/-- An image of two pixels, in two chunks or one; its last chunk may come late. -/
def pixelsFirst : Apc := .ofText 0 "a=T,i=1,f=24,s=2,v=1,m=1" "/wAA"

def pixelsLast (now : ℕ) : Apc := .ofText now "m=0" "AP8A"

def pixelsWhole (now : ℕ) : Apc := .ofText now "a=T,i=1,f=24,s=2,v=1" "/wAAAP8A"

def pixelsStart : KittyGraphicsCommand :=
  { action := .transmitAndDisplay, format := .rgb24, width := 2, height := 1, imageId := 1,
    more := true }

theorem pixels_cut {now : ℕ} {events : List Event} (h : ∀ e ∈ events, e.isOther = true) :
    Cut pixelsStart pixelsFirst events (pixelsLast now) (pixelsWhole now) := by
  have hnone : ∀ apc, Event.chunk apc ∉ events := fun apc hapc => nomatch h _ hapc
  have hpayload : events.flatMap Event.chunkPayload = [] := by
    refine List.flatMap_eq_nil_iff.mpr fun e he => ?_
    cases e with
    | chunk apc => exact absurd he (hnone apc)
    | other apc => rfl
  refine ⟨rfl, rfl, rfl, fun apc hapc => absurd hapc (hnone apc), ⟨{ lastTouched := now }, rfl, rfl,
    nofun, .inl ?_⟩, rfl, rfl, ?_, by decide, fun apc hapc => absurd hapc (hnone apc)⟩
  · rintro (h | h) <;> exact absurd h (lt_irrefl 0)
  · rw [hpayload]
    rfl

/-- The image comes whole around the display of another image and a query. -/
theorem transmission_chunked_two_pixels :
    (pixelsFirst.receive plainCodecs {}).1 = some .pendingChunk ∧
      ((pixelsLast 3).receive plainCodecs (runEvents plainCodecs
        (pixelsFirst.receive plainCodecs {}).2
        [.other (.ofText 1 "a=p,i=2" ""), .other (.ofText 2 "a=q,i=3" "")])).1 =
        ((pixelsWhole 3).receive plainCodecs {}).1 ∧
      otherResponses plainCodecs (pixelsFirst.receive plainCodecs {}).2
          [.other (.ofText 1 "a=p,i=2" ""), .other (.ofText 2 "a=q,i=3" "")] =
        otherResponses plainCodecs {}
          [.other (.ofText 1 "a=p,i=2" ""), .other (.ofText 2 "a=q,i=3" "")] := by
  have hput : readCommand plainCodecs (Apc.ofText 1 "a=p,i=2" "").host
      (Apc.ofText 1 "a=p,i=2" "").params =
        some { action := .put, imageId := 2, lastTouched := 1 } := by decide +kernel
  have hquery : readCommand plainCodecs (Apc.ofText 2 "a=q,i=3" "").host
      (Apc.ofText 2 "a=q,i=3" "").params =
        some { action := .query, imageId := 3, lastTouched := 2 } := by decide +kernel
  refine transmission_chunked plainCodecs_base64Laws (pixels_cut (by decide))
    (show _ = some [255, 0, 0, 0, 255, 0] by decide +kernel) (by decide) (by decide +kernel) rfl
    ⟨fun cmd hread _ => ?_, fun cmd hread hearly => ?_, by decide +kernel, fun cmd _ => .inr ?_⟩
  · cases Option.some.inj (hput.symm.trans hread)
    exact ⟨rfl, by decide +kernel, by decide +kernel, .inl (.inl (by decide))⟩
  · cases Option.some.inj (hquery.symm.trans hread)
    exact nomatch hearly
  · decide +kernel

/-- A command without an id or number ends the transmission instead of having its own effect;
so does one whose number is the id of the image; and after ten seconds the transmission is
gone. -/
theorem transmission_chunked_disturbed :
    (∃ events, Cut pixelsStart pixelsFirst events (pixelsLast 2) (pixelsWhole 2) ∧
      events = [Event.other (.ofText 1 "a=d" "")] ∧
      ((pixelsLast 2).receive plainCodecs (runEvents plainCodecs
        (pixelsFirst.receive plainCodecs {}).2 events)).1 ≠
          ((pixelsWhole 2).receive plainCodecs {}).1 ∧
      otherResponses plainCodecs (pixelsFirst.receive plainCodecs {}).2 events ≠
        otherResponses plainCodecs {} events) ∧
    (∃ events, Cut pixelsStart pixelsFirst events (pixelsLast 2) (pixelsWhole 2) ∧
      events = [Event.other (.ofText 1 "a=p,I=1" "")] ∧
      otherResponses plainCodecs (pixelsFirst.receive plainCodecs {}).2 events ≠
        otherResponses plainCodecs {} events) ∧
    Cut pixelsStart pixelsFirst [] (pixelsLast (10 * 10 ^ 9)) (pixelsWhole (10 * 10 ^ 9)) ∧
      ((pixelsLast (10 * 10 ^ 9)).receive plainCodecs
        (pixelsFirst.receive plainCodecs {}).2).1 ≠
          ((pixelsWhole (10 * 10 ^ 9)).receive plainCodecs {}).1 :=
  ⟨⟨_, pixels_cut (by decide), rfl, by decide +kernel, by decide +kernel⟩,
    ⟨_, pixels_cut (by decide), rfl, by decide +kernel⟩, pixels_cut nofun, by decide +kernel⟩

end Rio.Kitty
