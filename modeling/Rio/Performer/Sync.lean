import Rio.Copa.Batched
import Rio.Performer.Dispatch

/-! Synchronized updates: while one is pending, what is read is held back in a buffer and
searched for the sequences that extend or end the update. -/

set_option linter.dupNamespace false

namespace Rio.Performer.Sync
open Rio.Copa Rio.Rounds Rio.Checked

def syncBufferSize : ℕ := 0x200000

def syncEscapeLen : ℕ := 8

/-- `\e[?2026h`. -/
def bsuCsi : List UInt8 := 0x1B :: bytes ['[', '?', '2', '0', '2', '6', 'h']

/-- `\e[?2026l`. -/
def esuCsi : List UInt8 := 0x1B :: bytes ['[', '?', '2', '0', '2', '6', 'l']

/-- The `Performer` keeps the default `terminated`. -/
def performer : Perform Unit := ⟨fun _ _ => (), fun _ => false⟩

/-- The dispatcher sets the timeout on this call. -/
def setsTimeout : Call → Bool
  | .csiDispatch params intermediates ignore action =>
    match csiDispatch none params intermediates ignore action with
    | .ok actions => decide (.setSyncTimeout ∈ actions)
    | .error _ => false
  | _ => false

/-- The offsets that the search looks at, the last one first. -/
def searchOffsets (buffer : List UInt8) (newBytes : ℕ) : List ℕ :=
  let start := buffer.length - newBytes - (syncEscapeLen - 1)
  let stop := buffer.length - (syncEscapeLen - 1)
  ((List.range' start (stop - start)).filter fun i => buffer[i]? = some 0x1B).reverse

/-- The sequence at an offset of the buffer. -/
def escapeAt (buffer : List UInt8) (offset : ℕ) : List UInt8 :=
  (buffer.drop offset).take syncEscapeLen

/-- What the processor does to its handler: what the parser calls for, and leaving the mode. -/
inductive Effect
  | call (call : Call)
  | unsetSyncUpdate
  deriving DecidableEq, Repr

/-- The parser with the state of synchronized updates. -/
structure Processor where
  parser : BatchedParser := .new
  /-- A timeout is set. -/
  timeout : Bool := false
  buffer : List UInt8 := []
  deriving DecidableEq, Repr

namespace Processor

/-- The performer gets the calls of the parser. -/
def perform (p : Processor) (parser : BatchedParser) (calls : List Call) :
    Processor × List Effect :=
  ({ p with parser := parser, timeout := p.timeout || calls.any setsTimeout },
    calls.map .call)

/-- The buffer is parsed up to the offset of a sequence that begins another update, or all of it;
then the mode is left. -/
def stopSyncInternal (p : Processor) (bsuOffset : Option ℕ) : Processor × List Effect :=
  let buffer := p.buffer
  let r := p.parser.advance (buffer.take (bsuOffset.getD buffer.length))
  let flushed := r.1.flushBatch
  let (p, effects) := p.perform flushed.1 (r.2 ++ flushed.2)
  match bsuOffset with
  | some offset => ({ p with buffer := buffer.drop offset }, effects)
  | none => ({ p with timeout := false, buffer := [] }, effects ++ [.unsetSyncUpdate])

def stopSync (p : Processor) : Processor × List Effect := p.stopSyncInternal none

/-- Look at the escapes from the last one to the first, up to the first one found that ends the
update. -/
def scanCsi (p : Processor) : List ℕ → Option ℕ → Processor × List Effect
  | [], _ => (p, [])
  | offset :: offsets, bsuOffset =>
    let escape := escapeAt p.buffer offset
    if escape = bsuCsi then scanCsi { p with timeout := true } offsets (some offset)
    else if escape = esuCsi then p.stopSyncInternal bsuOffset
    else scanCsi p offsets bsuOffset

def advanceSyncCsi (p : Processor) (newBytes : ℕ) : Processor × List Effect :=
  p.scanCsi (searchOffsets p.buffer newBytes) none

/-- A read of the parser, with the number of bytes it takes. -/
def parse (p : Processor) (bytes : List UInt8) : Processor × List Effect × ℕ :=
  let r := p.parser.advanceUntilTerminated performer () bytes
  let (p, effects) := p.perform r.1 r.2.1
  (p, effects, r.2.2)

/-- Hold the bytes back, or end the update if they are too many. -/
def advanceSync (p : Processor) (bytes : List UInt8) : Processor × List Effect × ℕ :=
  if syncBufferSize - 1 ≤ p.buffer.length + bytes.length then
    let (p, effects) := p.stopSync
    let (p, more, taken) := p.parse bytes
    (p, effects ++ more, taken)
  else
    let (p, effects) := { p with buffer := p.buffer ++ bytes }.advanceSyncCsi bytes.length
    (p, effects, bytes.length)

/-- The loop of `advance`; the fuel bounds its turns. -/
def advanceLoop : ℕ → Processor → List UInt8 → Processor × List Effect
  | 0, p, _ => (p, [])
  | _ + 1, p, [] => (p, [])
  | fuel + 1, p, b :: bs =>
    let (p, effects, taken) := if p.timeout then p.advanceSync (b :: bs) else p.parse (b :: bs)
    let (p, more) := advanceLoop fuel p ((b :: bs).drop taken)
    (p, effects ++ more)

def advance (p : Processor) (bytes : List UInt8) : Processor × List Effect :=
  advanceLoop bytes.length p bytes

end Processor

/-- What happens to a processor: bytes are read, or the event loop finds the timeout reached. -/
inductive Input
  | read (bytes : List UInt8)
  | stopSync
  deriving DecidableEq, Repr

def Processor.step (p : Processor) : Input → Processor × List Effect
  | .read bytes => p.advance bytes
  | .stopSync => p.stopSync

/-- The bytes that come in. -/
def Input.bytes : Input → List UInt8
  | .read bytes => bytes
  | .stopSync => []

/-- The calls among the effects. -/
def calls (effects : List Effect) : List Call :=
  effects.filterMap fun effect =>
    match effect with
    | .call call => some call
    | .unsetSyncUpdate => none

/-! ### What the parser is handed -/

/-- The parser reads these bytes, cut into reads in some way, and makes the calls among the
effects. -/
def Parses (q q' : Parser) (handed : List UInt8) (effects : List Effect) : Prop :=
  ∃ pieces, pieces.flatten = handed ∧ Transducer.run Parser.advance q pieces = (q', calls effects)

theorem Parses.nil (q : Parser) : Parses q q [] [] := ⟨[], rfl, rfl⟩

theorem calls_append (xs ys : List Effect) : calls (xs ++ ys) = calls xs ++ calls ys :=
  List.filterMap_append

theorem calls_map (cs : List Call) : calls (cs.map .call) = cs := by
  simp [calls, List.filterMap_map]

theorem Parses.append {q q' q'' : Parser} {xs ys : List UInt8} {effects more : List Effect}
    (h : Parses q q' xs effects) (h' : Parses q' q'' ys more) :
    Parses q q'' (xs ++ ys) (effects ++ more) := by
  obtain ⟨pieces, rfl, hrun⟩ := h
  obtain ⟨pieces', rfl, hrun'⟩ := h'
  refine ⟨pieces ++ pieces', List.flatten_append, ?_⟩
  rw [Transducer.run_append, hrun, calls_append]
  dsimp only
  rw [hrun']
  rfl

/-- From one state to another the bytes that come in are handed to the parser behind the ones that
were held back, up to the ones that are held back then. -/
def Moves (p : Processor) (incoming : List UInt8) (out : Processor × List Effect) : Prop :=
  ∃ q q' handed, p.parser = .idle q ∧ out.1.parser = .idle q' ∧ Parses q q' handed out.2 ∧
    p.buffer ++ incoming = handed ++ out.1.buffer

theorem Moves.andThen {p : Processor} {xs ys : List UInt8} {out out' : Processor × List Effect}
    (h : Moves p xs out) (h' : Moves out.1 ys out') :
    Moves p (xs ++ ys) (out'.1, out.2 ++ out'.2) := by
  obtain ⟨q, r, handed, hq, hr, hparses, hbytes⟩ := h
  obtain ⟨r', t, handed', hr', ht, hparses', hbytes'⟩ := h'
  have hsame : r = r' := by
    rw [hr] at hr'
    exact congrArg BatchedParser.parser hr'
  subst r'
  refine ⟨q, t, handed ++ handed', hq, ht, hparses.append hparses', ?_⟩
  rw [← List.append_assoc, hbytes, List.append_assoc, hbytes', List.append_assoc]

namespace Processor
variable {p : Processor} {q : Parser}

theorem parse_idle (hp : p.parser = .idle q) (bytes : List UInt8) :
    p.parse bytes = ((p.perform (.idle (q.advance bytes).1) (q.advance bytes).2).1,
      (p.perform (.idle (q.advance bytes).1) (q.advance bytes).2).2, bytes.length) := by
  have hnever : q.NeverTerminated performer () bytes :=
    ⟨fun _ => rfl, unstopped_of_never performer (fun _ => rfl) _ _ _ _⟩
  have hplain := ((BatchedParser.readsAsPlain_iff performer () q bytes).mpr
    ⟨Parser.terminatedBetweenRounds_of_never performer () q bytes hnever, fun _ => hnever⟩).2.1
  have hall := Parser.advanceUntilTerminated_of_never performer () q bytes hnever
  rw [parse, hp, hplain, hall, q.advance_eq_readAll, q.readAll_taken]

theorem parse_moves (hp : p.parser = .idle q) (hbuffer : p.buffer = []) (bytes : List UInt8) :
    Moves p bytes ((p.parse bytes).1, (p.parse bytes).2.1) := by
  rw [parse_idle hp]
  refine ⟨q, (q.advance bytes).1, bytes, hp, rfl, ⟨[bytes], by simp, ?_⟩, ?_⟩
  · simp [perform, calls_map]
  · simp [perform, hbuffer]

/-- What a stop leaves behind, without the bookkeeping of the parser. -/
theorem stopSyncInternal_idle (hp : p.parser = .idle q) (bsuOffset : Option ℕ) :
    (p.stopSyncInternal bsuOffset).1.parser =
        .idle (q.advance (p.buffer.take (bsuOffset.getD p.buffer.length))).1 ∧
      calls (p.stopSyncInternal bsuOffset).2 =
        (q.advance (p.buffer.take (bsuOffset.getD p.buffer.length))).2 ∧
      (p.stopSyncInternal bsuOffset).1.buffer = p.buffer.drop (bsuOffset.getD p.buffer.length) := by
  unfold stopSyncInternal
  rw [hp]
  dsimp only
  rw [BatchedParser.advance_idle]
  have hflush : ∀ r : Parser, (BatchedParser.idle r).flushBatch = (.idle r, []) := fun _ => rfl
  cases bsuOffset with
  | none => simp [hflush, perform, calls]
  | some offset => simp [hflush, perform, calls_map]

theorem stopSyncInternal_moves (hp : p.parser = .idle q) (bsuOffset : Option ℕ) :
    Moves p [] (p.stopSyncInternal bsuOffset) := by
  obtain ⟨hparser, hcalls, hbuffer⟩ := stopSyncInternal_idle hp bsuOffset
  refine ⟨q, _, p.buffer.take (bsuOffset.getD p.buffer.length), hp, hparser,
    ⟨[p.buffer.take (bsuOffset.getD p.buffer.length)], by simp, ?_⟩, ?_⟩
  · rw [Transducer.run_singleton, hcalls]
  · rw [hbuffer, List.take_append_drop, List.append_nil]

theorem scanCsi_moves (offsets : List ℕ) :
    ∀ {p : Processor} {q : Parser} (_ : p.parser = .idle q) (bsuOffset : Option ℕ),
      Moves p [] (p.scanCsi offsets bsuOffset) := by
  induction offsets with
  | nil => exact fun {p q} hp _ => ⟨q, q, [], hp, hp, .nil q, by simp [scanCsi]⟩
  | cons offset offsets ih =>
    intro p q hp bsuOffset
    unfold scanCsi
    dsimp only
    split
    · exact ih (p := { p with timeout := true }) hp (some offset)
    · split
      · exact stopSyncInternal_moves hp bsuOffset
      · exact ih hp bsuOffset

end Processor

/-! ### What the buffer can hold -/

theorem escapeAt_drop (buffer : List UInt8) (b i : ℕ) :
    escapeAt (buffer.drop b) i = escapeAt buffer (b + i) := by
  rw [escapeAt, escapeAt, List.drop_drop]

theorem escapeAt_length {buffer : List UInt8} {i : ℕ} {escape : List UInt8}
    (hlen : escape.length = syncEscapeLen) (h : escapeAt buffer i = escape) :
    i + syncEscapeLen ≤ buffer.length := by
  have := congrArg List.length h
  rw [escapeAt, List.length_take, List.length_drop, hlen] at this
  unfold syncEscapeLen at *
  omega

/-- A sequence that ends inside the front part of a buffer is one of the front part. -/
theorem escapeAt_append {xs ys : List UInt8} {i : ℕ} (h : i + syncEscapeLen ≤ xs.length) :
    escapeAt (xs ++ ys) i = escapeAt xs i := by
  unfold escapeAt
  rw [List.drop_append_of_le_length (by omega), List.take_append_of_le_length]
  rw [List.length_drop]
  omega

/-- No complete sequence that ends the update is held back. -/
def Unended (buffer : List UInt8) : Prop := ∀ i, escapeAt buffer i ≠ esuCsi

theorem unended_nil : Unended [] := by
  intro i h
  have := escapeAt_length (by decide) h
  simp [syncEscapeLen] at this

theorem unended_iff {buffer : List UInt8} : Unended buffer ↔ ¬ esuCsi <:+: buffer := by
  constructor
  · rintro h ⟨before, after, rfl⟩
    refine h before.length ?_
    rw [escapeAt, List.append_assoc, List.drop_left]
    exact List.take_left' rfl
  · intro h i hi
    refine h ⟨buffer.take i, (buffer.drop i).drop syncEscapeLen, ?_⟩
    rw [← hi, escapeAt, List.append_assoc, List.take_append_drop, List.take_append_drop]

/-- The search looks at every place where a sequence may have been completed. -/
theorem mem_searchOffsets {buffer bytes : List UInt8} (h : Unended buffer) {i : ℕ}
    (hi : escapeAt (buffer ++ bytes) i = esuCsi) :
    i ∈ searchOffsets (buffer ++ bytes) bytes.length := by
  have hend := escapeAt_length (by decide) hi
  have hnew : buffer.length < i + syncEscapeLen := by
    by_contra hold
    exact h i ((escapeAt_append (by omega)).symm.trans hi)
  have hfirst : (buffer ++ bytes)[i]? = some 0x1B := by
    have hhead : (escapeAt (buffer ++ bytes) i)[0]? = some 0x1B := by
      rw [hi]
      rfl
    simpa [escapeAt, syncEscapeLen] using hhead
  unfold searchOffsets
  rw [List.mem_reverse, List.mem_filter, List.mem_range'_1]
  unfold syncEscapeLen at *
  simp only [List.length_append] at *
  refine ⟨⟨by omega, by omega⟩, ?_⟩
  rw [hfirst]
  decide

theorem searchOffsets_sorted (buffer : List UInt8) (newBytes : ℕ) :
    (searchOffsets buffer newBytes).Pairwise (· > ·) := by
  unfold searchOffsets
  rw [List.pairwise_reverse]
  exact (List.pairwise_lt_range' 1).filter _

namespace Processor

/-- What is held back between two inputs. -/
structure Held (p : Processor) : Prop where
  idle : ∃ q, p.parser = .idle q
  pending : p.timeout = false → p.buffer = []
  room : p.buffer.length + 1 < syncBufferSize
  unended : Unended p.buffer

theorem default_held : Held {} where
  idle := ⟨.new, rfl⟩
  pending _ := rfl
  room := by decide
  unended := unended_nil

/-- An update is extended or left in part, and what stays begins with the sequence that begins
another update; or all is let go. -/
structure Scanned (buffer : List UInt8) (p : Processor) : Prop where
  pending : p.timeout = false → p.buffer = []
  suffix : p.buffer <:+ buffer
  unended : Unended p.buffer
  whole : p.buffer = [] ∨ p.buffer = buffer ∨ syncEscapeLen ≤ p.buffer.length

theorem stopSyncInternal_none (p : Processor) :
    (p.stopSyncInternal none).1.timeout = false ∧ (p.stopSyncInternal none).1.buffer = [] :=
  ⟨rfl, rfl⟩

theorem stopSyncInternal_some (p : Processor) (b : ℕ) :
    (p.stopSyncInternal (some b)).1.buffer = p.buffer.drop b ∧
      (p.timeout = true → (p.stopSyncInternal (some b)).1.timeout = true) := by
  refine ⟨rfl, fun h => ?_⟩
  simp [stopSyncInternal, perform, h]

/-- The scan from the last escape to the first. Behind the offset of a sequence that begins an
update nothing ends one, since those offsets were looked at before. -/
theorem scanCsi_scanned (offsets : List ℕ) :
    ∀ {p : Processor} {bsuOffset : Option ℕ}, p.timeout = true →
      offsets.Pairwise (· > ·) → (∀ i, escapeAt p.buffer i = esuCsi → i ∈ offsets) →
      (∀ b, bsuOffset = some b → escapeAt p.buffer b = bsuCsi ∧
        ∀ i, b ≤ i → escapeAt p.buffer i ≠ esuCsi) →
      Scanned p.buffer (p.scanCsi offsets bsuOffset).1 := by
  induction offsets with
  | nil =>
    intro p bsuOffset htimeout _ hall _
    refine ⟨fun h => ?_, List.suffix_rfl, fun i hi => ?_, Or.inr (Or.inl rfl)⟩
    · have htrue : p.timeout = false := h
      rw [htimeout] at htrue
      cases htrue
    · exact List.not_mem_nil (hall i hi)
  | cons offset offsets ih =>
    intro p bsuOffset htimeout hsorted hall hbsu
    obtain ⟨hbelow, hsorted⟩ := List.pairwise_cons.mp hsorted
    have hrest (hne : escapeAt p.buffer offset ≠ esuCsi) (i : ℕ)
        (hi : escapeAt p.buffer i = esuCsi) : i ∈ offsets := by
      rcases List.mem_cons.mp (hall i hi) with rfl | hmem
      · exact absurd hi hne
      · exact hmem
    unfold scanCsi
    dsimp only
    split
    case isTrue hbegin =>
      have hne : escapeAt p.buffer offset ≠ esuCsi := by
        rw [hbegin]
        decide
      refine ih (p := { p with timeout := true }) rfl hsorted (hrest hne) ?_
      rintro b ⟨⟩
      refine ⟨hbegin, fun i hle hi => ?_⟩
      have := hbelow i (hrest hne i hi)
      omega
    case isFalse =>
      split
      case isFalse hne => exact ih htimeout hsorted (hrest hne) hbsu
      case isTrue =>
        cases bsuOffset with
        | none =>
          obtain ⟨-, hbuffer⟩ := stopSyncInternal_none p
          refine ⟨fun _ => hbuffer, ?_, ?_, Or.inl hbuffer⟩
          · rw [hbuffer]
            exact List.nil_suffix
          · rw [hbuffer]
            exact unended_nil
        | some b =>
          obtain ⟨hbuffer, htimeout'⟩ := stopSyncInternal_some p b
          obtain ⟨hbegin, hclear⟩ := hbsu b rfl
          refine ⟨fun h => ?_, ?_, ?_, Or.inr (Or.inr ?_)⟩
          · rw [htimeout' htimeout] at h
            cases h
          · rw [hbuffer]
            exact List.drop_suffix b p.buffer
          · rw [hbuffer]
            intro i hi
            rw [escapeAt_drop] at hi
            exact hclear (b + i) (Nat.le_add_right b i) hi
          · have := escapeAt_length (by decide) hbegin
            rw [hbuffer, List.length_drop]
            omega

theorem advanceSync_short {p : Processor} {bytes : List UInt8}
    (h : ¬ syncBufferSize - 1 ≤ p.buffer.length + bytes.length) :
    p.advanceSync bytes =
      (({ p with buffer := p.buffer ++ bytes }.advanceSyncCsi bytes.length).1,
        ({ p with buffer := p.buffer ++ bytes }.advanceSyncCsi bytes.length).2, bytes.length) :=
  if_neg h

theorem advanceSync_long {p : Processor} {bytes : List UInt8}
    (h : syncBufferSize - 1 ≤ p.buffer.length + bytes.length) :
    p.advanceSync bytes = ((p.stopSync.1.parse bytes).1,
      p.stopSync.2 ++ (p.stopSync.1.parse bytes).2.1, (p.stopSync.1.parse bytes).2.2) :=
  if_pos h

/-- One turn of the loop takes all bytes of the read. -/
theorem turn_spec {p : Processor} (h : p.Held) (bytes : List UInt8) :
    let r := if p.timeout then p.advanceSync bytes else p.parse bytes
    r.2.2 = bytes.length ∧ Moves p bytes (r.1, r.2.1) ∧ Held r.1 ∧
      (r.1.buffer = [] ∨ r.1.buffer = p.buffer ++ bytes ∨ syncEscapeLen ≤ r.1.buffer.length) := by
  obtain ⟨q, hq⟩ := h.idle
  dsimp only
  split
  case isFalse hoff =>
    have hnil : p.buffer = [] := h.pending (by simpa using hoff)
    have hmoves := parse_moves hq hnil bytes
    have hbuffer : (p.parse bytes).1.buffer = [] := by
      rw [parse_idle hq]
      exact hnil
    refine ⟨by rw [parse_idle hq], hmoves, ⟨?_, fun _ => hbuffer, ?_, ?_⟩, Or.inl hbuffer⟩
    · obtain ⟨_, q', _, _, hq', _⟩ := hmoves
      exact ⟨q', hq'⟩
    · rw [hbuffer]
      decide
    · rw [hbuffer]
      exact unended_nil
  case isTrue hon =>
    by_cases hlong : syncBufferSize - 1 ≤ p.buffer.length + bytes.length
    · have hstop : Moves p [] p.stopSync := stopSyncInternal_moves hq none
      obtain ⟨_, q', _, _, hq', _⟩ := id hstop
      have hnil : p.stopSync.1.buffer = [] := (stopSyncInternal_none p).2
      have hmoves := hstop.andThen (parse_moves hq' hnil bytes)
      rw [List.nil_append] at hmoves
      have hbuffer : (p.stopSync.1.parse bytes).1.buffer = [] := by
        rw [parse_idle hq']
        exact hnil
      rw [advanceSync_long hlong]
      refine ⟨by rw [parse_idle hq'], hmoves, ⟨?_, fun _ => hbuffer, ?_, ?_⟩, Or.inl hbuffer⟩
      · obtain ⟨_, q'', _, _, hq'', _⟩ := hmoves
        exact ⟨q'', hq''⟩
      · rw [hbuffer]
        decide
      · rw [hbuffer]
        exact unended_nil
    · rw [advanceSync_short hlong]
      dsimp only
      have hmoves := scanCsi_moves (searchOffsets (p.buffer ++ bytes) bytes.length)
        (p := { p with buffer := p.buffer ++ bytes }) hq none
      have hscanned : Scanned (p.buffer ++ bytes)
          ({ p with buffer := p.buffer ++ bytes }.advanceSyncCsi bytes.length).1 :=
        scanCsi_scanned (p := { p with buffer := p.buffer ++ bytes }) _ hon
          (searchOffsets_sorted _ _) (fun i hi => mem_searchOffsets h.unended hi) (by simp)
      obtain ⟨r, q', handed, hr, hq', hparses, hbytes⟩ := hmoves
      refine ⟨rfl, ⟨r, q', handed, hr, hq', hparses, ?_⟩,
        ⟨⟨q', hq'⟩, hscanned.pending, ?_, hscanned.unended⟩, hscanned.whole⟩
      · exact (List.append_nil _).symm.trans hbytes
      · have hle := hscanned.suffix.length_le
        rw [List.length_append] at hle
        omega

theorem advance_eq {p : Processor} (h : p.Held) {bytes : List UInt8} (hne : bytes ≠ []) :
    p.advance bytes =
      ((if p.timeout then p.advanceSync bytes else p.parse bytes).1,
        (if p.timeout then p.advanceSync bytes else p.parse bytes).2.1) := by
  obtain ⟨b, bs, rfl⟩ := List.exists_cons_of_ne_nil hne
  have htaken := (turn_spec h (b :: bs)).1
  have hdone : ∀ (fuel : ℕ) (p : Processor), advanceLoop fuel p [] = (p, []) := by
    intro fuel p
    cases fuel <;> rfl
  unfold advance
  rw [List.length_cons, advanceLoop]
  dsimp only
  rw [htaken, List.drop_length, hdone, List.append_nil]

theorem advance_moves {p : Processor} (h : p.Held) (bytes : List UInt8) :
    Moves p bytes (p.advance bytes) ∧ Held (p.advance bytes).1 := by
  by_cases hne : bytes = []
  · subst hne
    obtain ⟨q, hq⟩ := h.idle
    exact ⟨⟨q, q, [], hq, hq, .nil q, by simp [advance, advanceLoop]⟩, h⟩
  · rw [advance_eq h hne]
    exact ⟨(turn_spec h bytes).2.1, (turn_spec h bytes).2.2.1⟩

/-- Two escapes do not overlap. -/
theorem escapeAt_apart {buffer : List UInt8} {i b : ℕ} (hi : escapeAt buffer i = esuCsi)
    (hb : escapeAt buffer b = bsuCsi) (hlt : i < b) : i + syncEscapeLen ≤ b := by
  by_contra hnear
  have hat : ∀ {j : ℕ}, j < syncEscapeLen → esuCsi[j]? = buffer[i + j]? := by
    intro j hj
    rw [← hi, escapeAt, List.getElem?_take_of_lt hj, List.getElem?_drop]
  have hbegin : buffer[b]? = some 0x1B := by
    have hhead : (escapeAt buffer b)[0]? = some 0x1B := by
      rw [hb]
      rfl
    simpa [escapeAt, syncEscapeLen] using hhead
  obtain ⟨j, rfl⟩ := Nat.exists_eq_add_of_lt hlt
  have hinside := hat (j := j + 1) (by omega)
  rw [← Nat.add_assoc, hbegin] at hinside
  have hbody : ∀ k < 7, esuCsi[k + 1]? ≠ some 0x1B := by decide
  exact hbody j (by unfold syncEscapeLen at hnear; omega) hinside

/-- The scan does nothing, lets everything go, or stops at an escape that begins an update, behind
one of the escapes that it looks at. -/
theorem scanCsi_cases (offsets : List ℕ) :
    ∀ {p : Processor} (bsuOffset : Option ℕ), offsets.Pairwise (· > ·) →
      (∀ b, bsuOffset = some b → escapeAt p.buffer b = bsuCsi ∧ ∀ i ∈ offsets, i < b) →
      let r := p.scanCsi offsets bsuOffset
      r.2 = [] ∧ r.1.buffer = p.buffer ∨ r.1.buffer = [] ∨
        ∃ i ∈ offsets, ∃ b, i + syncEscapeLen ≤ b ∧ r.1.buffer = p.buffer.drop b := by
  induction offsets with
  | nil => exact fun _ _ _ => .inl ⟨rfl, rfl⟩
  | cons offset offsets ih =>
    intro p bsuOffset hsorted hbsu
    obtain ⟨hbelow, hsorted⟩ := List.pairwise_cons.mp hsorted
    unfold scanCsi
    dsimp only
    split
    case isTrue hbegin =>
      have hrest := ih (p := { p with timeout := true }) (some offset) hsorted
        (by rintro b ⟨⟩; exact ⟨hbegin, hbelow⟩)
      exact hrest.imp_right (Or.imp_right fun ⟨i, hi, b, h⟩ => ⟨i, List.mem_cons_of_mem _ hi, b, h⟩)
    case isFalse =>
      split
      case isTrue hend =>
        cases bsuOffset with
        | none => exact .inr (.inl (stopSyncInternal_none p).2)
        | some b =>
          obtain ⟨hbegin, habove⟩ := hbsu b rfl
          have hapart := escapeAt_apart hend hbegin (habove offset List.mem_cons_self)
          exact .inr (.inr ⟨offset, List.mem_cons_self, b, hapart, (stopSyncInternal_some p b).1⟩)
      case isFalse =>
        have hrest := ih (p := p) bsuOffset hsorted fun b hb =>
          ⟨(hbsu b hb).1, fun i hi => (hbsu b hb).2 i (List.mem_cons_of_mem _ hi)⟩
        exact hrest.imp_right
          (Or.imp_right fun ⟨i, hi, b, h⟩ => ⟨i, List.mem_cons_of_mem _ hi, b, h⟩)

/-- Bytes that come in are held back behind those that were and nothing is done; or all that was
held back is let go, and of the bytes at most an end of them stays. -/
def Split (buffer bytes : List UInt8) (out : Processor × List Effect) : Prop :=
  out.2 = [] ∧ out.1.buffer = buffer ++ bytes ∨
    out.1.buffer <:+ bytes ∧ out.1.buffer.length < bytes.length

theorem Split.andThen {buffer xs ys : List UInt8} {out out' : Processor × List Effect}
    (h : Split buffer xs out) (h' : Split out.1.buffer ys out') :
    Split buffer (xs ++ ys) (out'.1, out.2 ++ out'.2) := by
  unfold Split at *
  rcases h' with ⟨hnone', hall'⟩ | ⟨hsuffix', hshort'⟩
  · rw [hnone', hall', List.append_nil]
    rcases h with ⟨hnone, hall⟩ | ⟨hsuffix, hshort⟩
    · left
      exact ⟨hnone, by rw [hall, List.append_assoc]⟩
    · right
      obtain ⟨front, hfront⟩ := hsuffix
      refine ⟨⟨front, by rw [← hfront, List.append_assoc]⟩, ?_⟩
      simp only [List.length_append]
      omega
  · right
    refine ⟨hsuffix'.trans (List.suffix_append xs ys), ?_⟩
    dsimp only
    rw [List.length_append]
    omega

theorem advance_split {p : Processor} (h : p.Held) (bytes : List UInt8) :
    Split p.buffer bytes (p.advance bytes) := by
  by_cases hne : bytes = []
  · subst hne
    exact .inl ⟨rfl, (List.append_nil _).symm⟩
  have hsome : 0 < bytes.length := List.length_pos_of_ne_nil hne
  have hgone : ∀ out : Processor × List Effect, out.1.buffer = [] → Split p.buffer bytes out := by
    intro out hnil
    right
    rw [hnil]
    exact ⟨List.nil_suffix, hsome⟩
  obtain ⟨q, hq⟩ := h.idle
  rw [advance_eq h hne]
  split
  case isFalse hoff =>
    refine hgone _ ?_
    rw [parse_idle hq]
    exact h.pending (by simpa using hoff)
  case isTrue =>
    by_cases hlong : syncBufferSize - 1 ≤ p.buffer.length + bytes.length
    · refine hgone _ ?_
      have hstop : Moves p [] p.stopSync := stopSyncInternal_moves hq none
      obtain ⟨_, q', _, _, hq', _⟩ := hstop
      rw [advanceSync_long hlong]
      show (p.stopSync.1.parse bytes).1.buffer = []
      rw [parse_idle hq']
      exact (stopSyncInternal_none p).2
    · rw [advanceSync_short hlong]
      have hscan := scanCsi_cases (searchOffsets (p.buffer ++ bytes) bytes.length)
        (p := { p with buffer := p.buffer ++ bytes }) none
        (searchOffsets_sorted _ _) (by simp)
      rcases hscan with hnone | hnil | ⟨i, hi, b, hapart, hdrop⟩
      · exact .inl hnone
      · exact hgone _ hnil
      · right
        have hlow : p.buffer.length < b := by
          unfold searchOffsets at hi
          rw [List.mem_reverse, List.mem_filter, List.mem_range'_1, List.length_append] at hi
          unfold syncEscapeLen at *
          omega
        have hcut : (p.buffer ++ bytes).drop b = bytes.drop (b - p.buffer.length) := by
          rw [List.drop_append, List.drop_eq_nil_of_le hlow.le, List.nil_append]
        have hrest := hdrop.trans hcut
        refine ⟨hrest ▸ List.drop_suffix _ _, ?_⟩
        have hlength := congrArg List.length hrest
        rw [List.length_drop] at hlength
        exact hlength.trans_lt (by omega)

theorem step_moves {p : Processor} (h : p.Held) (input : Input) :
    Moves p input.bytes (p.step input) ∧ Held (p.step input).1 := by
  cases input with
  | read bytes => exact advance_moves h bytes
  | stopSync =>
    obtain ⟨q, hq⟩ := h.idle
    have hmoves := stopSyncInternal_moves hq none
    obtain ⟨_, q', _, _, hq', _⟩ := id hmoves
    refine ⟨hmoves, ⟨q', hq'⟩, fun _ => rfl, ?_, ?_⟩
    · change ([] : List UInt8).length + 1 < syncBufferSize
      decide
    · exact unended_nil

theorem run_moves (inputs : List Input) :
    ∀ {p : Processor}, p.Held →
      Moves p (inputs.flatMap Input.bytes) (Transducer.run step p inputs) ∧
        Held (Transducer.run step p inputs).1 := by
  induction inputs with
  | nil =>
    intro p h
    obtain ⟨q, hq⟩ := h.idle
    exact ⟨⟨q, q, [], hq, hq, .nil q, by simp⟩, h⟩
  | cons input inputs ih =>
    intro p h
    obtain ⟨hmoves, hheld⟩ := step_moves h input
    obtain ⟨hmoves', hheld'⟩ := ih hheld
    rw [List.flatMap_cons, Transducer.run_cons]
    exact ⟨hmoves.andThen hmoves', hheld'⟩

/-- Synchronized updates lose, repeat and reorder nothing: whatever is read, however the reads cut
it and whenever timeouts end updates, the parser reads all of it, up to what is held back. -/
theorem run_parses (inputs : List Input) :
    ∃ pieces : List (List UInt8),
      pieces.flatten ++ (Transducer.run step {} inputs).1.buffer = inputs.flatMap Input.bytes ∧
      (Transducer.run Parser.advance .new pieces).2 = calls (Transducer.run step {} inputs).2 := by
  obtain ⟨q, q', handed, hq, -, ⟨pieces, rfl, hrun⟩, hbytes⟩ := (run_moves inputs default_held).1
  have hnew : q = .new := (congrArg BatchedParser.parser hq).symm
  subst hnew
  exact ⟨pieces, hbytes.symm, by rw [hrun]⟩

/-- What is held back: only bytes of a pending update, fewer than the buffer is made for, without
a complete sequence that ends the update. -/
theorem run_held (inputs : List Input) :
    ((Transducer.run step {} inputs).1.timeout = false →
        (Transducer.run step {} inputs).1.buffer = []) ∧
      (Transducer.run step {} inputs).1.buffer.length + 1 < syncBufferSize ∧
      ¬ esuCsi <:+: (Transducer.run step {} inputs).1.buffer := by
  have h := (run_moves inputs default_held).2
  exact ⟨h.pending, h.room, unended_iff.mp h.unended⟩

/-- A read that completes the sequence that ends an update lets everything go, wherever the
sequence was cut. -/
theorem run_released (inputs : List Input) (bytes : List UInt8)
    (h : esuCsi <:+ (Transducer.run step {} inputs).1.buffer ++ bytes) :
    ((Transducer.run step {} inputs).1.advance bytes).1.buffer = [] := by
  have hheld := (run_moves inputs default_held).2
  generalize (Transducer.run step {} inputs).1 = p at *
  by_cases hne : bytes = []
  · rw [hne, List.append_nil] at h
    exact absurd h.isInfix (unended_iff.mp hheld.unended)
  · obtain ⟨-, hmoves, hafter, hwhole⟩ := turn_spec hheld bytes
    rw [advance_eq hheld hne]
    dsimp only at hmoves hafter hwhole ⊢
    generalize (if p.timeout then p.advanceSync bytes else p.parse bytes) = r at *
    have hsuffix : r.1.buffer <:+ p.buffer ++ bytes := by
      obtain ⟨_, _, handed, _, _, _, hbytes⟩ := hmoves
      exact ⟨handed, hbytes.symm⟩
    have hunended := unended_iff.mp hafter.unended
    rcases hwhole with hnil | hall | hlong
    · exact hnil
    · exact absurd (hall ▸ h.isInfix) hunended
    · exact absurd (List.suffix_of_suffix_length_le h hsuffix hlong).isInfix hunended

/-- The sequence that ends the update comes in two reads. -/
theorem run_released_split :
    ((Transducer.run step {} [.read bsuCsi, .read [0x61, 0x1B, 0x5B, 0x3F]]).1.advance
      (bytes ['2', '0', '2', '6', 'l'])).1.buffer = [] :=
  run_released [.read bsuCsi, .read [0x61, 0x1B, 0x5B, 0x3F]] _ (by decide +kernel)

end Processor
end Rio.Performer.Sync
