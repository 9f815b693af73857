import Rio.Copa.Carry
import Rio.Lib.Rounds

/-! Reading until the `Perform` argument reports `terminated`, and the parser that hands long
reads on as one batch. The batch is read to its end whatever `terminated` says, and inside a
slice of the ground state `terminated` is not looked at. -/

set_option linter.dupNamespace false

namespace Rio.Copa
open Rio.Utf8 Rio.Rounds

/-- An implementation of `Perform`: what a call does to it, and its `terminated`. -/
abbrev Perform (σ : Type*) := Observer σ Call

namespace Parser

/-- One round of the loops over a read. -/
def round (p : Parser) (bytes : List UInt8) : Taken Parser Call :=
  if p.state = .ground then p.advanceGround bytes
  else
    let r := p.changeState (bytes.headD 0)
    (r.1, r.2, 1)

/-- The handling of partial codepoints before the loops. -/
def carryRound (p : Parser) (bytes : List UInt8) : Taken Parser Call :=
  if p.partialUtf8.length ≠ 0 then p.advancePartialUtf8 bytes else (p, [], 0)

/-- The parser after the read, the calls, and the number of bytes read before termination. -/
def advanceUntilTerminated {σ : Type*} (performer : Perform σ) (s : σ) (p : Parser)
    (bytes : List UInt8) : Taken Parser Call :=
  let r := p.carryRound bytes
  andThen r (pollRounds round performer bytes.length (performer.after s r.2.1) r.1
    (bytes.drop r.2.2))

end Parser

/-- The parser behind a buffer for long reads. -/
structure BatchedParser where
  parser : Parser
  inputBuffer : List UInt8 := []
  batchThreshold : ℕ := 1024
  deriving DecidableEq, Repr

namespace BatchedParser

def new : BatchedParser := { parser := .new }

def flushBatch (b : BatchedParser) : BatchedParser × List Call :=
  if b.inputBuffer = [] then (b, [])
  else
    let r := b.parser.advance b.inputBuffer
    ({ b with parser := r.1, inputBuffer := [] }, r.2)

/-- Add a long read to the buffer and flush the buffer when it is long enough. -/
def batch (b : BatchedParser) (bytes : List UInt8) : BatchedParser × List Call :=
  let b := { b with inputBuffer := b.inputBuffer ++ bytes }
  if b.batchThreshold ≤ b.inputBuffer.length then b.flushBatch else (b, [])

def advance (b : BatchedParser) (bytes : List UInt8) : BatchedParser × List Call :=
  if bytes.length < b.batchThreshold then
    let r := b.parser.advance bytes
    ({ b with parser := r.1 }, r.2)
  else b.batch bytes

def advanceUntilTerminated {σ : Type*} (performer : Perform σ) (s : σ) (b : BatchedParser)
    (bytes : List UInt8) : BatchedParser × List Call × ℕ :=
  if bytes.length < b.batchThreshold then
    let r := b.parser.advanceUntilTerminated performer s bytes
    ({ b with parser := r.1 }, r.2)
  else
    let r := b.batch bytes
    (r.1, r.2, bytes.length)

/-- A batched parser between two calls: the buffer is empty. -/
def idle (p : Parser) : BatchedParser := { parser := p }

end BatchedParser

/-! ### Rounds of one character

The reading that `terminated` is documented for, checked after every character. -/

namespace Parser

/-- A slice of the ground state has a character next and goes on behind it. -/
def insideSlice (p : Parser) (bytes : List UInt8) : Bool :=
  p.state = .ground && bytes.head? != some 0x1B &&
    match head bytes with
    | .char _ n => n < bytes.length
    | _ => false

def characterRound (p : Parser) (bytes : List UInt8) : Taken Parser Call :=
  if p.insideSlice bytes then
    match head bytes with
    | .char c n => (p, [groundCall c], n)
    | _ => p.round bytes
  else p.round bytes

/-- Reading that looks at `terminated` before everything it reads. -/
def readUntilTerminated {σ : Type*} (performer : Perform σ) (s : σ) (p : Parser)
    (bytes : List UInt8) : Taken Parser Call :=
  if bytes ≠ [] ∧ performer.stop s = true then (p, [], 0)
  else
    let r := p.carryRound bytes
    andThen r (pollRounds characterRound performer bytes.length (performer.after s r.2.1) r.1
      (bytes.drop r.2.2))

/-! ### What the rounds take -/

theorem advanceGround_taken (p : Parser) {bytes : List UInt8} (hne : bytes ≠ []) :
    1 ≤ (p.advanceGround bytes).2.2 ∧ (p.advanceGround bytes).2.2 ≤ bytes.length := by
  have hpos : 0 < bytes.length := List.length_pos_iff.mpr hne
  have hk : bytes.findIdx (· == 0x1B) ≤ bytes.length := List.findIdx_le_length
  unfold advanceGround
  dsimp only
  generalize bytes.findIdx (· == 0x1B) = k at *
  have hlenk : (bytes.take k).length = k := List.length_take_of_le hk
  have hvalid := scan_validUpTo_le (bytes.take k).length (bytes.take k)
  have herr := fromUtf8_errorAt (bytes.take k)
  rw [← fromUtf8] at hvalid
  generalize fromUtf8 (bytes.take k) = parsed at *
  obtain ⟨chars, valid, error⟩ := parsed
  dsimp only at hvalid herr ⊢
  by_cases hk0 : k = 0
  · simp only [if_pos hk0]
    omega
  · simp only [if_neg hk0]
    rcases error with _ | _ | n
    · by_cases hlt : k < bytes.length
      · simp only [if_pos hlt]
        omega
      · simp only [if_neg hlt]
        omega
    · by_cases hlt : k < bytes.length
      · simp only [if_pos hlt]
        omega
      · simp only [if_neg hlt]
        omega
    · have hn := head_invalid_le herr
      rw [List.length_drop] at hn
      dsimp only
      omega

theorem round_progress : Progress round := by
  intro p bytes hne
  have hpos : 0 < bytes.length := List.length_pos_iff.mpr hne
  unfold round
  split
  · exact p.advanceGround_taken hne
  · exact ⟨le_rfl, hpos⟩

theorem characterRound_progress : Progress characterRound := by
  intro p bytes hne
  have hround := round_progress p bytes hne
  unfold characterRound
  split
  · cases h : head bytes with
    | char c n => exact head_char_le h
    | invalid n => exact hround
    | incomplete => exact hround
  · exact hround

/-- The character at the head of a buffer is within it. -/
private theorem utf8Size_headD_le {buffer : List UInt8} {error : Option (Option ℕ)}
    (herr : (fromUtf8 buffer).error = error) (hpos : error = none → buffer ≠ []) :
    error = none → ((fromUtf8 buffer).chars.headD replacement).utf8Size ≤ buffer.length := by
  intro hnone
  have hne := hpos hnone
  rw [hnone] at herr
  cases h : head buffer with
  | char c n =>
    have hn := (head_char_le h).2
    rw [fromUtf8_char h, List.headD_cons, head_char_utf8Size h]
    exact hn
  | invalid n =>
    rw [fromUtf8_invalid h] at herr
    cases herr
  | incomplete =>
    rw [fromUtf8_incomplete hne h] at herr
    cases herr

theorem carryRound_taken (p : Parser) (bytes : List UInt8) :
    (p.carryRound bytes).2.2 ≤ bytes.length := by
  unfold carryRound
  split
  next hcarry =>
    unfold advancePartialUtf8
    dsimp only
    generalize hbuf : p.partialUtf8 ++
      bytes.take (min bytes.length (partialCapacity - p.partialUtf8.length)) = buffer
    have hlen : buffer.length ≤ p.partialUtf8.length + bytes.length := by
      rw [← hbuf, List.length_append, List.length_take]
      omega
    have hne : buffer ≠ [] := by
      rw [← hbuf]
      intro hnil
      rw [List.append_eq_nil_iff] at hnil
      exact hcarry (by rw [hnil.1]; rfl)
    have hsize := utf8Size_headD_le (rfl : (fromUtf8 buffer).error = _) fun _ => hne
    have hvalid := scan_validUpTo_le buffer.length buffer
    have herr := fromUtf8_errorAt buffer
    rw [← fromUtf8] at hvalid
    generalize fromUtf8 buffer = parsed at *
    obtain ⟨chars, valid, error⟩ := parsed
    dsimp only at hvalid herr hsize ⊢
    rcases error with _ | error
    · have hsize := hsize rfl
      dsimp only
      omega
    · by_cases hvalid0 : 0 < valid
      · simp only [if_pos hvalid0]
        omega
      · simp only [if_neg hvalid0]
        rcases error with _ | n
        · dsimp only
          omega
        · have hn := head_invalid_le herr
          rw [List.length_drop] at hn
          dsimp only
          omega
  next => exact Nat.zero_le _

/-- With a carry and something to read, a call is made or a byte taken. -/
theorem carryRound_acts {p : Parser} (hcarry : p.partialUtf8 ≠ []) {bytes : List UInt8}
    (hne : bytes ≠ []) : (p.carryRound bytes).2.1 = [] → (p.carryRound bytes).2.2 ≠ 0 := by
  have hpos : p.partialUtf8.length ≠ 0 := fun h => hcarry (List.length_eq_zero_iff.mp h)
  have hlen : 0 < bytes.length := List.length_pos_iff.mpr hne
  rw [carryRound, if_pos hpos]
  unfold advancePartialUtf8
  dsimp only
  generalize hbuf : p.partialUtf8 ++
    bytes.take (min bytes.length (partialCapacity - p.partialUtf8.length)) = buffer
  have hlong : p.partialUtf8.length ≤ buffer.length := by
    rw [← hbuf, List.length_append]
    omega
  have herr := fromUtf8_errorAt buffer
  generalize fromUtf8 buffer = parsed at *
  obtain ⟨chars, valid, error⟩ := parsed
  rcases error with _ | error
  · simp
  · by_cases hvalid : 0 < valid
    · simp [hvalid]
    · rcases error with _ | n
      · have h0 : valid = 0 := by omega
        rw [h0, List.drop_zero] at herr
        have h3 := head_incomplete_length herr.2
        have htake : min bytes.length (partialCapacity - p.partialUtf8.length) ≠ 0 := by
          unfold partialCapacity
          omega
        simp [h0, htake]
      · simp [hvalid]

/-! ### A slice as a row of characters -/

/-- A character that does not start with the escape character ends before the next one. -/
private theorem head_char_before_escape {bytes : List UInt8} {c : Char} {n : ℕ}
    (hne : bytes.head? ≠ some 0x1B) (h : head bytes = .char c n) :
    head (bytes.take (bytes.findIdx (· == 0x1B))) = .char c n := by
  have hk : bytes.findIdx (· == 0x1B) ≤ bytes.length := List.findIdx_le_length
  by_cases hopen : head (bytes.take (bytes.findIdx (· == 0x1B))) = .incomplete
  · exfalso
    rcases Nat.lt_or_ge (bytes.findIdx (· == 0x1B)) bytes.length with hlt | hge
    · have hget := List.findIdx_getElem (w := hlt)
      have hsplit : bytes.take (bytes.findIdx (· == 0x1B)) ++ [0x1B] ++
          bytes.drop (bytes.findIdx (· == 0x1B) + 1) = bytes := by
        conv_rhs => rw [← List.take_append_drop (bytes.findIdx (· == 0x1B)) bytes]
        rw [List.drop_eq_getElem_cons hlt, eq_of_beq hget]
        simp
      have hfirst : bytes.take (bytes.findIdx (· == 0x1B)) ≠ [] := by
        intro hnil
        rw [hnil] at hsplit
        rw [← hsplit] at hne
        exact hne rfl
      have hbad : head (bytes.take (bytes.findIdx (· == 0x1B)) ++ [0x1B]) =
          .invalid (bytes.take (bytes.findIdx (· == 0x1B))).length := by
        by_contra hcontra
        exact absurd (head_concat_ge hfirst hopen hcontra) (by decide)
      have := head_append_invalid hbad (bytes.drop (bytes.findIdx (· == 0x1B) + 1))
      rw [hsplit, h] at this
      cases this
    · rw [List.take_of_length_le hge, h] at hopen
      cases hopen
  · have := head_append (bytes.drop (bytes.findIdx (· == 0x1B))) hopen
    rwa [List.take_append_drop, h, eq_comm] at this

/-- A slice is its first character and the slice behind it. -/
theorem advanceGround_char (p : Parser) {bytes : List UInt8} {c : Char} {n : ℕ}
    (hne : bytes.head? ≠ some 0x1B) (h : head bytes = .char c n) :
    p.advanceGround bytes =
      if n < bytes.length then
        andThen (p, [groundCall c], n) (p.advanceGround (bytes.drop n))
      else (p, [groundCall c], n) := by
  have htake := head_char_before_escape hne h
  have hk : bytes.findIdx (· == 0x1B) ≤ bytes.length := List.findIdx_le_length
  have hshift : n ≤ bytes.findIdx (· == 0x1B) →
      (bytes.drop n).findIdx (· == 0x1B) = bytes.findIdx (· == 0x1B) - n := by
    intro hn
    have hfree : ∀ b ∈ bytes.take n, ¬ (b == 0x1B) = true := by
      intro b hb
      obtain ⟨i, hi, rfl⟩ := List.mem_take_iff_getElem.mp hb
      have hlt : i < bytes.findIdx (· == 0x1B) := by omega
      simpa using List.not_of_lt_findIdx hlt
    have happ : (bytes.take n ++ bytes.drop n).findIdx (· == 0x1B) = _ := List.findIdx_append
    have hall : (bytes.take n).findIdx (· == 0x1B) = (bytes.take n).length := by
      rw [List.findIdx_eq_length]
      exact fun b hb => by simpa using hfree b hb
    rw [List.take_append_drop, hall, if_neg (lt_irrefl _), List.length_take] at happ
    omega
  obtain ⟨hn1, hnk⟩ := head_char_le htake
  unfold advanceGround
  dsimp only
  generalize bytes.findIdx (· == 0x1B) = k at *
  rw [List.length_take_of_le hk] at hnk
  rw [hshift hnk, if_neg (show k ≠ 0 by omega), fromUtf8_char htake, List.drop_take,
    List.length_drop]
  dsimp only
  rcases Nat.lt_or_ge n bytes.length with hlt | hge
  · rw [if_pos hlt]
    rcases Nat.eq_zero_or_pos (k - n) with hzero | hpos
    · have hkn : k = n := by omega
      subst hkn
      simp [fromUtf8, groundDispatch, andThen, hlt]
    · rw [if_neg (show k - n ≠ 0 by omega)]
      have hcond : k - n < bytes.length - n ↔ k < bytes.length := by omega
      generalize fromUtf8 ((bytes.drop n).take (k - n)) = parsed
      obtain ⟨chars, valid, error⟩ := parsed
      have hget : (bytes.drop n).getD valid 0 = bytes.getD (n + valid) 0 := by
        simp only [List.getD_eq_getElem?_getD, List.getElem?_drop]
      simp only [hcond, hget, List.drop_drop]
      rcases error with _ | _ | len
      · by_cases hkl : k < bytes.length
        · simp only [if_pos hkl, andThen, groundDispatch, List.map_cons, List.singleton_append]
          congr 2
          omega
        · simp only [if_neg hkl, andThen, groundDispatch, List.map_cons, List.singleton_append]
          congr 2
          omega
      · by_cases hkl : k < bytes.length
        · simp only [if_pos hkl, andThen, groundDispatch, List.map_cons, List.cons_append]
          congr 2
          omega
        · simp only [if_neg hkl, andThen, groundDispatch, List.map_cons, List.singleton_append]
          congr 2
          omega
      · simp only [andThen, groundDispatch, List.map_cons, List.cons_append]
        congr 2
        omega
  · have hkn : k = n := by omega
    rw [if_neg (show ¬ n < bytes.length by omega), hkn]
    simp [fromUtf8, groundDispatch, show ¬ n < bytes.length by omega]

/-- The rounds of one character divide the rounds of the loops. -/
theorem characterRound_divides : Divides characterRound round insideSlice where
  progress := characterRound_progress
  whole := by
    intro p bytes _ hin
    rw [characterRound, hin]
    rfl
  part := by
    intro p bytes _ hin
    have hinside := hin
    simp only [insideSlice, Bool.and_eq_true, decide_eq_true_eq, bne_iff_ne] at hin
    obtain ⟨⟨hground, hne⟩, hhead⟩ := hin
    cases h : head bytes with
    | char c n =>
      simp only [h, decide_eq_true_eq] at hhead
      have hchar : p.characterRound bytes = (p, [groundCall c], n) := by
        rw [characterRound, if_pos hinside, h]
      rw [hchar]
      refine ⟨hhead, ?_⟩
      dsimp only
      rw [round, if_pos hground, round, if_pos hground, advanceGround_char p hne h,
        if_pos hhead]
    | invalid n =>
      rw [h] at hhead
      cases hhead
    | incomplete =>
      rw [h] at hhead
      cases hhead

/-! ### The plain loop -/

theorem advanceLoop_eq_runRounds (fuel : ℕ) (p : Parser) (bytes : List UInt8) :
    advanceLoop fuel p bytes =
      ((runRounds round fuel p bytes).1, (runRounds round fuel p bytes).2.1) := by
  induction fuel generalizing p bytes with
  | zero => rfl
  | succ fuel ih =>
    rcases bytes with _ | ⟨b, bs⟩
    · rfl
    rw [advanceLoop, runRounds_round]
    by_cases hground : p.state = .ground
    · rw [if_pos hground, round, if_pos hground]
      dsimp only
      rw [ih]
      rfl
    · rw [if_neg hground, round, if_neg hground]
      dsimp only
      rw [ih]
      rfl

/-- Reading to the end of the input. -/
def readAll (p : Parser) (bytes : List UInt8) : Taken Parser Call :=
  let r := p.carryRound bytes
  andThen r (runRounds round bytes.length r.1 (bytes.drop r.2.2))

theorem advance_eq_readAll (p : Parser) (bytes : List UInt8) :
    p.advance bytes = ((p.readAll bytes).1, (p.readAll bytes).2.1) := by
  unfold advance readAll carryRound
  by_cases hcarry : p.partialUtf8.length ≠ 0
  · rw [if_pos hcarry, if_pos hcarry]
    dsimp only
    rw [advanceLoop_eq_runRounds]
    rfl
  · rw [if_neg hcarry, if_neg hcarry, advanceLoop_eq_runRounds]
    dsimp only
    simp [andThen]

theorem readAll_taken (p : Parser) (bytes : List UInt8) :
    (p.readAll bytes).2.2 = bytes.length := by
  have hcarry := p.carryRound_taken bytes
  have hrest := runRounds_taken round_progress (p.carryRound bytes).1
    (show (bytes.drop (p.carryRound bytes).2.2).length ≤ bytes.length by
      rw [List.length_drop]
      omega)
  rw [List.length_drop] at hrest
  rw [readAll, andThen, hrest]
  dsimp only
  omega

/-! ### The two loops of one read -/

/-- The carry is not continued after termination, and `terminated` is not first true between
two characters of one slice. -/
def TerminatedBetweenRounds {σ : Type*} (performer : Perform σ) (s : σ) (p : Parser)
    (bytes : List UInt8) : Prop :=
  let r := p.carryRound bytes
  (p.partialUtf8 ≠ [] → bytes ≠ [] → performer.stop s = false) ∧
    StopsBetween characterRound insideSlice performer bytes.length
      (performer.after s r.2.1) r.1 (bytes.drop r.2.2)

/-- `terminated` is never true with bytes left to read. -/
def NeverTerminated {σ : Type*} (performer : Perform σ) (s : σ) (p : Parser)
    (bytes : List UInt8) : Prop :=
  let r := p.carryRound bytes
  (bytes ≠ [] → performer.stop s = false) ∧
    Unstopped characterRound performer bytes.length
      (performer.after s r.2.1) r.1 (bytes.drop r.2.2)

section
variable {σ : Type*} (performer : Perform σ) (s : σ) (p : Parser) (bytes : List UInt8)

private theorem carryRound_rest :
    (bytes.drop (p.carryRound bytes).2.2).length ≤ bytes.length := by
  rw [List.length_drop]
  omega

/-- No byte is read after termination exactly when `terminated` becomes true between rounds. -/
theorem advanceUntilTerminated_eq_iff :
    p.advanceUntilTerminated performer s bytes = p.readUntilTerminated performer s bytes ↔
      TerminatedBetweenRounds performer s p bytes := by
  have hpoll := pollRounds_long_iff performer characterRound_divides
    (performer.after s (p.carryRound bytes).2.1) (p.carryRound bytes).1 (carryRound_rest p bytes)
  unfold advanceUntilTerminated readUntilTerminated TerminatedBetweenRounds
  dsimp only
  rw [← hpoll]
  by_cases hstop : bytes ≠ [] ∧ performer.stop s = true
  · obtain ⟨hne, hs⟩ := hstop
    rw [if_pos ⟨hne, hs⟩]
    by_cases hcarry : p.partialUtf8 = []
    · have hidle : p.carryRound bytes = (p, [], 0) := by
        rw [carryRound, if_neg (by simp [hcarry])]
      simp [hidle, hcarry, pollRounds_stop, hs, andThen]
    · have hacts := carryRound_acts hcarry hne
      constructor
      · intro heq
        exfalso
        have hcalls := congrArg (fun t => t.2.1) heq
        have hn := congrArg (fun t => t.2.2) heq
        simp only [andThen, List.append_eq_nil_iff, Nat.add_eq_zero_iff] at hcalls hn
        exact hacts hcalls.1 hn.1
      · rintro ⟨hfalse, -⟩
        rw [hfalse hcarry hne] at hs
        cases hs
  · rw [if_neg hstop, andThen_inj]
    constructor
    · intro heq
      refine ⟨fun _ hne => ?_, heq⟩
      by_contra hs
      exact hstop ⟨hne, by simpa using hs⟩
    · exact fun h => h.2

/-- The read is taken to its end exactly when `terminated` stays false. -/
theorem readUntilTerminated_taken :
    (p.readUntilTerminated performer s bytes).2.2 = bytes.length ↔
      NeverTerminated performer s p bytes := by
  have hcarry := p.carryRound_taken bytes
  have htaken := (pollRounds_taken performer characterRound_progress
    (performer.after s (p.carryRound bytes).2.1) (p.carryRound bytes).1
    (carryRound_rest p bytes)).2
  rw [List.length_drop] at htaken
  unfold readUntilTerminated NeverTerminated
  dsimp only
  rw [← htaken]
  by_cases hstop : bytes ≠ [] ∧ performer.stop s = true
  · obtain ⟨hne, hs⟩ := hstop
    have hpos := List.length_pos_iff.mpr hne
    rw [if_pos ⟨hne, hs⟩]
    constructor
    · intro h
      dsimp only at h
      omega
    · rintro ⟨hfalse, -⟩
      rw [hfalse hne] at hs
      cases hs
  · have hs : bytes ≠ [] → performer.stop s = false := by
      intro hne
      by_contra hs
      exact hstop ⟨hne, by simpa using hs⟩
    rw [if_neg hstop, andThen]
    dsimp only
    constructor
    · intro h
      exact ⟨hs, by omega⟩
    · rintro ⟨-, h⟩
      omega

theorem terminatedBetweenRounds_of_never (h : NeverTerminated performer s p bytes) :
    TerminatedBetweenRounds performer s p bytes := by
  obtain ⟨hs, hun⟩ := h
  refine ⟨fun _ => hs, stopsBetween_of_unstopped performer characterRound_progress ?_
    (carryRound_rest p bytes) hun⟩
  intro q bs hin
  have hne : bs ≠ [] := by
    rintro rfl
    simp [insideSlice, head_nil] at hin
  exact (characterRound_divides.part q bs hne hin).1

/-- A read that is not terminated is a plain read. -/
theorem advanceUntilTerminated_of_never (h : NeverTerminated performer s p bytes) :
    p.advanceUntilTerminated performer s bytes = p.readAll bytes := by
  have hcarry := p.carryRound_taken bytes
  have hbetween := terminatedBetweenRounds_of_never performer s p bytes h
  have heq := (advanceUntilTerminated_eq_iff performer s p bytes).mpr hbetween
  have hall := (readUntilTerminated_taken performer s p bytes).mpr h
  have hpoll := pollRounds_taken performer round_progress
    (performer.after s (p.carryRound bytes).2.1) (p.carryRound bytes).1 (carryRound_rest p bytes)
  rw [← heq] at hall
  unfold advanceUntilTerminated at hall ⊢
  rw [readAll, andThen_inj]
  apply pollRounds_of_unstopped
  apply hpoll.2.mp
  simp only [andThen] at hall
  rw [List.length_drop]
  omega

end
end Parser

namespace BatchedParser

theorem batch_idle (p : Parser) {bytes : List UInt8} (hlong : ¬ bytes.length < 1024) :
    (idle p).batch bytes = (idle (p.advance bytes).1, (p.advance bytes).2) := by
  have hne : bytes ≠ [] := by
    rintro rfl
    exact hlong (by decide)
  rw [batch, idle]
  dsimp only
  rw [List.nil_append, if_pos (Nat.le_of_not_lt hlong), flushBatch, if_neg hne]
  rfl

/-- Batched reading is plain reading, and leaves the buffer empty again. -/
theorem advance_idle (p : Parser) (bytes : List UInt8) :
    (idle p).advance bytes = (idle (p.advance bytes).1, (p.advance bytes).2) := by
  unfold advance
  split
  · rfl
  next hlong => exact batch_idle p hlong

theorem advanceUntilTerminated_idle {σ : Type*} (performer : Perform σ) (s : σ) (p : Parser)
    (bytes : List UInt8) :
    ∃ q, ((idle p).advanceUntilTerminated performer s bytes).1 = idle q := by
  unfold advanceUntilTerminated
  split
  · exact ⟨_, rfl⟩
  next hlong =>
    rw [batch_idle p hlong]
    exact ⟨_, rfl⟩

/-- Any number of reads through the batched parser are the same reads of the plain one. -/
theorem run_advance_idle (reads : List (List UInt8)) (p : Parser) :
    Transducer.run advance (idle p) reads =
      (idle (Transducer.run Parser.advance p reads).1,
        (Transducer.run Parser.advance p reads).2) := by
  induction reads generalizing p with
  | nil => rfl
  | cons bytes reads ih =>
    rw [Transducer.run_cons, Transducer.run_cons, advance_idle]
    dsimp only
    rw [ih]
    rfl

/-- The batched parser is a drop-in for the plain one on this read: `advance` makes the same
calls; `advance_until_terminated` makes the same calls and returns the same count, and reads
nothing after termination. -/
def ReadsAsPlain {σ : Type*} (performer : Perform σ) (s : σ) (p : Parser)
    (bytes : List UInt8) : Prop :=
  let plain := p.advanceUntilTerminated performer s bytes
  (idle p).advance bytes = (idle (p.advance bytes).1, (p.advance bytes).2) ∧
    (idle p).advanceUntilTerminated performer s bytes = (idle plain.1, plain.2) ∧
    plain = p.readUntilTerminated performer s bytes

/-- The reads on which the batched parser is a drop-in: `terminated` is first true between two
rounds of the plain loop, and not before the end of a read that makes a batch. -/
theorem readsAsPlain_iff {σ : Type*} (performer : Perform σ) (s : σ) (p : Parser)
    (bytes : List UInt8) :
    ReadsAsPlain performer s p bytes ↔
      p.TerminatedBetweenRounds performer s bytes ∧
        (1024 ≤ bytes.length → p.NeverTerminated performer s bytes) := by
  unfold ReadsAsPlain
  dsimp only
  rw [p.advanceUntilTerminated_eq_iff performer s bytes]
  constructor
  · rintro ⟨-, hbatched, hbetween⟩
    refine ⟨hbetween, fun hlong => ?_⟩
    have hread := (p.advanceUntilTerminated_eq_iff performer s bytes).mpr hbetween
    rw [advanceUntilTerminated, if_neg (by exact Nat.not_lt.mpr hlong)] at hbatched
    have hcount : bytes.length = _ := congrArg (fun r => r.2.2) hbatched
    rw [hread] at hcount
    exact (p.readUntilTerminated_taken performer s bytes).mp hcount.symm
  · rintro ⟨hbetween, hnever⟩
    refine ⟨advance_idle p bytes, ?_, hbetween⟩
    by_cases hlong : 1024 ≤ bytes.length
    · have hall := p.advanceUntilTerminated_of_never performer s bytes (hnever hlong)
      have hcount := p.readAll_taken bytes
      rw [advanceUntilTerminated, if_neg (by exact Nat.not_lt.mpr hlong),
        batch_idle p (Nat.not_lt.mpr hlong), p.advance_eq_readAll, hall]
      dsimp only
      rw [← hcount]
    · rw [advanceUntilTerminated, if_pos (by exact Nat.lt_of_not_le hlong)]
      rfl

/-- A performer that the first call terminates. -/
def firstCall : Perform Bool := ⟨fun _ _ => true, id⟩

/-- The plain loop stops behind the first escape sequence. -/
theorem advanceUntilTerminated_escape (text : List UInt8) :
    (Parser.new.advanceUntilTerminated firstCall false (0x1B :: 0x37 :: text)).2.2 = 2 := by
  have hcarry : Parser.new.carryRound (0x1B :: 0x37 :: text) = (.new, [], 0) := rfl
  have hescape : Parser.new.round (0x1B :: 0x37 :: text) = (Parser.new.enterEscape, [], 1) := rfl
  have hsave : Parser.new.enterEscape.round (0x37 :: text) =
      ((Parser.new.enterEscape.escDispatch 0x37).1,
        (Parser.new.enterEscape.escDispatch 0x37).2, 1) := rfl
  have hrun : firstCall.stop false ≠ true := by decide
  rw [Parser.advanceUntilTerminated, hcarry]
  dsimp only
  rw [List.drop_zero, List.length_cons, Observer.after_nil, pollRounds_round _ _ hrun, hescape]
  dsimp only
  rw [List.drop_one, List.tail_cons, Observer.after_nil, List.length_cons,
    pollRounds_round _ _ hrun, hsave]
  dsimp only
  rw [pollRounds_stop _ _ (by rfl)]
  rfl

/-- A saved cursor with a long text behind it, and a short text. -/
theorem advanceUntilTerminated_firstCall :
    ¬ ReadsAsPlain firstCall false .new (0x1B :: 0x37 :: List.replicate 1022 0x61) ∧
      ¬ ReadsAsPlain firstCall false .new [0x61, 0x62] := by
  constructor
  · rintro ⟨-, hbatched, -⟩
    have hcount := congrArg (fun r => r.2.2) hbatched
    have hplain := advanceUntilTerminated_escape (List.replicate 1022 0x61)
    have hlen : (0x1B :: 0x37 :: List.replicate 1022 (0x61 : UInt8)).length = 1024 := by
      rw [List.length_cons, List.length_cons, List.length_replicate]
    generalize (0x1B :: 0x37 :: List.replicate 1022 (0x61 : UInt8)) = bytes at *
    dsimp only at hcount
    rw [hplain, advanceUntilTerminated, if_neg (by rw [hlen]; decide)] at hcount
    dsimp only at hcount
    omega
  · rintro ⟨-, -, hread⟩
    exact absurd hread (by decide)

end BatchedParser
end Rio.Copa
