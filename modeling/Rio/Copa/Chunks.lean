import Rio.Copa.Advance

/-! The parser against the byte machine: a read with no carried bytes does exactly what the
byte machine does on its bytes, and so does a read that completes a carried sequence, unless it
runs into one of the two cases of `carryFault`. -/

set_option linter.dupNamespace false

namespace Rio.Copa
open Rio.Utf8 Rio.Transducer
namespace Parser

/-- Bytes are carried only in the ground state, and they are an unfinished sequence. -/
structure WellFormed (p : Parser) : Prop where
  unfinished : head p.partialUtf8 = .incomplete
  ground : p.partialUtf8 ≠ [] → p.state = .ground

theorem new_wellFormed : WellFormed new := ⟨rfl, fun h => absurd rfl h⟩

theorem wellFormed_of_nil {p : Parser} (hp : p.partialUtf8 = []) : p.WellFormed :=
  ⟨by rw [hp]; rfl, fun h => absurd hp h⟩

/-- The parser with another carry. -/
def withCarry (p : Parser) (carry : List UInt8) : Parser := { p with partialUtf8 := carry }

@[simp] theorem withCarry_partialUtf8 (p : Parser) (carry : List UInt8) :
    (p.withCarry carry).partialUtf8 = carry := rfl

@[simp] theorem withCarry_state (p : Parser) (carry : List UInt8) :
    (p.withCarry carry).state = p.state := rfl

@[simp] theorem withCarry_withCarry (p : Parser) (carry carry' : List UInt8) :
    (p.withCarry carry).withCarry carry' = p.withCarry carry' := rfl

@[simp] theorem withCarry_self (p : Parser) : p.withCarry p.partialUtf8 = p := rfl

/-! ### The carry is kept by every transition outside the ground state -/

@[simp] theorem resetParams_partialUtf8 (p : Parser) :
    p.resetParams.partialUtf8 = p.partialUtf8 := rfl

@[simp] theorem enterEscape_partialUtf8 (p : Parser) :
    p.enterEscape.partialUtf8 = p.partialUtf8 := rfl

@[simp] theorem actionCollect_partialUtf8 (p : Parser) (b : UInt8) :
    (p.actionCollect b).partialUtf8 = p.partialUtf8 := by
  unfold actionCollect
  split <;> rfl

@[simp] theorem actionSubparam_partialUtf8 (p : Parser) :
    p.actionSubparam.partialUtf8 = p.partialUtf8 := by
  unfold actionSubparam
  split <;> rfl

@[simp] theorem actionParam_partialUtf8 (p : Parser) :
    p.actionParam.partialUtf8 = p.partialUtf8 := by
  unfold actionParam
  split <;> rfl

@[simp] theorem actionParamnext_partialUtf8 (p : Parser) (b : UInt8) :
    (p.actionParamnext b).partialUtf8 = p.partialUtf8 := by
  unfold actionParamnext
  split <;> rfl

@[simp] theorem finishParams_partialUtf8 (p : Parser) :
    p.finishParams.partialUtf8 = p.partialUtf8 := by
  unfold finishParams
  split <;> rfl

@[simp] theorem actionCsiDispatch_partialUtf8 (p : Parser) (b : UInt8) :
    (p.actionCsiDispatch b).1.partialUtf8 = p.partialUtf8 := by
  simp [actionCsiDispatch]

@[simp] theorem actionHook_partialUtf8 (p : Parser) (b : UInt8) :
    (p.actionHook b).1.partialUtf8 = p.partialUtf8 := by
  simp [actionHook]

@[simp] theorem actionOscPutParam_partialUtf8 (p : Parser) :
    p.actionOscPutParam.partialUtf8 = p.partialUtf8 := by
  unfold actionOscPutParam
  dsimp only
  split_ifs <;> rfl

@[simp] theorem oscEnd_partialUtf8 (p : Parser) (b : UInt8) :
    (p.oscEnd b).1.partialUtf8 = p.partialUtf8 := by
  simp [oscEnd, clearOsc]

private theorem ite_partialUtf8 {c : Prop} [Decidable c] {x y : Out} {carry : List UInt8}
    (hx : x.1.partialUtf8 = carry) (hy : y.1.partialUtf8 = carry) :
    (if c then x else y).1.partialUtf8 = carry := by
  split
  · exact hx
  · exact hy

@[simp] theorem anywhere_partialUtf8 (p : Parser) (b : UInt8) :
    (p.anywhere b).1.partialUtf8 = p.partialUtf8 :=
  ite_partialUtf8 rfl (ite_partialUtf8 rfl rfl)

private theorem advanceCsi_partialUtf8 (p : Parser) (b : UInt8) :
    (p.advanceCsiEntry b).1.partialUtf8 = p.partialUtf8 ∧
      (p.advanceCsiIgnore b).1.partialUtf8 = p.partialUtf8 ∧
      (p.advanceCsiIntermediate b).1.partialUtf8 = p.partialUtf8 ∧
      (p.advanceCsiParam b).1.partialUtf8 = p.partialUtf8 := by
  refine ⟨?_, ?_, ?_, ?_⟩
  all_goals
    repeat' apply ite_partialUtf8
    all_goals first | rfl | simp

private theorem advanceDcs_partialUtf8 (p : Parser) (b : UInt8) :
    (p.advanceDcsEntry b).1.partialUtf8 = p.partialUtf8 ∧
      (p.advanceDcsIntermediate b).1.partialUtf8 = p.partialUtf8 ∧
      (p.advanceDcsParam b).1.partialUtf8 = p.partialUtf8 ∧
      (p.advanceDcsPassthrough b).1.partialUtf8 = p.partialUtf8 := by
  refine ⟨?_, ?_, ?_, ?_⟩
  all_goals
    repeat' apply ite_partialUtf8
    all_goals first | rfl | simp

private theorem advanceEsc_partialUtf8 (p : Parser) (b : UInt8) :
    (p.advanceEsc b).1.partialUtf8 = p.partialUtf8 ∧
      (p.advanceEscIntermediate b).1.partialUtf8 = p.partialUtf8 := by
  constructor
  all_goals
    repeat' apply ite_partialUtf8
    all_goals first | rfl | simp

private theorem advanceString_partialUtf8 (p : Parser) (put : UInt8 → Call) (fin : Call)
    (b : UInt8) :
    (p.advanceOscString b).1.partialUtf8 = p.partialUtf8 ∧
      (p.advanceApcString b).1.partialUtf8 = p.partialUtf8 ∧
      (advanceOpaqueString put fin p b).1.partialUtf8 = p.partialUtf8 := by
  refine ⟨?_, ?_, ?_⟩
  all_goals
    repeat' apply ite_partialUtf8
    all_goals first | rfl | exact oscEnd_partialUtf8 p b | exact actionOscPutParam_partialUtf8 _

theorem changeState_partialUtf8 (p : Parser) (b : UInt8) :
    (p.changeState b).1.partialUtf8 = p.partialUtf8 := by
  obtain ⟨hce, hci, hcm, hcp⟩ := advanceCsi_partialUtf8 p b
  obtain ⟨hde, hdm, hdp, hdt⟩ := advanceDcs_partialUtf8 p b
  obtain ⟨he, hei⟩ := advanceEsc_partialUtf8 p b
  unfold changeState
  split
  · exact hce
  · exact hci
  · exact hcm
  · exact hcp
  · exact hde
  · exact anywhere_partialUtf8 p b
  · exact hdm
  · exact hdp
  · exact hdt
  · exact he
  · exact hei
  · exact (advanceString_partialUtf8 p .apcPut .apcEnd b).1
  · exact (advanceString_partialUtf8 p _ _ b).2.2
  · exact (advanceString_partialUtf8 p .apcPut .apcEnd b).2.1
  · exact (advanceString_partialUtf8 p _ _ b).2.2
  · rfl

/-! ### Runs of the byte machine in the ground state -/

/-- Up to the next escape character the ground state only decodes. -/
theorem run_stepByte_plain {p : Parser} (hp : p.state = .ground) {bs : List UInt8}
    (hbs : ∀ b ∈ bs, b ≠ 0x1B) :
    run stepByte p bs =
      (p.withCarry (run feedByte p.partialUtf8 bs).1,
        (run feedByte p.partialUtf8 bs).2.flatMap itemCalls) := by
  induction bs generalizing p with
  | nil => rfl
  | cons b bs ih =>
    have hb : b ≠ 0x1B := hbs b List.mem_cons_self
    have hstep : stepByte p b = (p.withCarry (feedByte p.partialUtf8 b).1,
        (feedByte p.partialUtf8 b).2.flatMap itemCalls) := by
      rw [stepByte, if_pos hp, if_neg hb, withCarry]
    have hrest := ih (p := p.withCarry (feedByte p.partialUtf8 b).1) hp
      fun x hx => hbs x (List.mem_cons_of_mem b hx)
    rw [run_cons, hstep, hrest, run_cons]
    simp [emit]

theorem run_stepByte_escape {p : Parser} (hp : p.state = .ground) (bs : List UInt8) :
    run stepByte p (0x1B :: bs) =
      emit (flushCalls p.partialUtf8) (run stepByte (p.withCarry []).enterEscape bs) := by
  rw [run_cons, stepByte, if_pos hp, if_pos rfl, withCarry]

/-- A well-formed parser with a carry stands where the byte machine stands after reading the
carry. -/
theorem run_stepByte_resume {p : Parser} (hp : p.WellFormed) (hground : p.state = .ground)
    (bs : List UInt8) :
    run stepByte (p.withCarry []) (p.partialUtf8 ++ bs) = run stepByte p bs := by
  have hcarry : ∀ b ∈ p.partialUtf8, b ≠ 0x1B := by
    intro b hb h
    have := head_incomplete_ge hp.unfinished b hb
    subst h
    exact absurd this (by decide)
  rw [run_append, run_stepByte_plain (by exact hground) hcarry, withCarry_partialUtf8,
    run_feedByte_incomplete hp.unfinished]
  rfl

theorem itemCalls_bad {b : UInt8} (hb : 0xA0 ≤ b) (bs : List UInt8) :
    itemCalls (.bad (b :: bs)) = [.print replacement] := by
  rcases bs with _ | ⟨b', bs⟩
  · have hlow : ¬ b ≤ 0x9F := by grind
    rw [itemCalls, if_neg hlow]
  · rfl

/-! ### A read with nothing carried -/

private theorem escape_split (bytes : List UInt8) :
    (∀ b ∈ bytes.take (bytes.findIdx (· == 0x1B)), b ≠ 0x1B) ∧
      (bytes.findIdx (· == 0x1B) < bytes.length →
        bytes.drop (bytes.findIdx (· == 0x1B)) =
          0x1B :: bytes.drop (bytes.findIdx (· == 0x1B) + 1)) := by
  constructor
  · intro b hb
    obtain ⟨i, hi, rfl⟩ := List.mem_take_iff_getElem.mp hb
    have hlt : i < bytes.findIdx (· == 0x1B) := lt_of_lt_of_le hi (min_le_left _ _)
    simpa using List.not_of_lt_findIdx hlt
  · intro hlt
    have hget := List.findIdx_getElem (w := hlt)
    rw [List.drop_eq_getElem_cons hlt, eq_of_beq hget]

private theorem flatMap_itemCalls_char (cs : List Char) :
    (cs.map Item.char).flatMap itemCalls = groundDispatch cs := by
  induction cs with
  | nil => rfl
  | cons c cs ih => rw [List.map_cons, List.flatMap_cons, ih]; rfl

/-- A ground-state run over escape-free bytes dispatches their valid prefix. -/
private theorem run_stepByte_scan {p : Parser} (hp : p.state = .ground)
    (hcarry : p.partialUtf8 = []) {bs : List UInt8} (hbs : ∀ b ∈ bs, b ≠ 0x1B)
    (rest : List UInt8) :
    run stepByte p (bs ++ rest) =
      emit (groundDispatch (fromUtf8 bs).chars)
        (run stepByte p (bs.drop (fromUtf8 bs).validUpTo ++ rest)) := by
  have hdrop : ∀ b ∈ bs.drop (fromUtf8 bs).validUpTo, b ≠ 0x1B :=
    fun b hb => hbs b (List.mem_of_mem_drop hb)
  rw [run_append, run_append, run_stepByte_plain hp hbs, run_stepByte_plain hp hdrop, hcarry,
    run_feedByte_fromUtf8 bs]
  simp only [emit, List.flatMap_append, flatMap_itemCalls_char, List.append_assoc]

/-- An ill-formed sequence in the ground state. -/
private theorem run_stepByte_invalid {p : Parser} (hp : p.state = .ground)
    (hcarry : p.partialUtf8 = []) {bs : List UInt8} (hbs : ∀ b ∈ bs, b ≠ 0x1B) {n : ℕ}
    (hhead : head bs = .invalid n) (rest : List UInt8) :
    run stepByte p (bs ++ rest) =
      emit (itemCalls (.bad (bs.take n))) (run stepByte p (bs.drop n ++ rest)) := by
  have hdrop : ∀ b ∈ bs.drop n, b ≠ 0x1B := fun b hb => hbs b (List.mem_of_mem_drop hb)
  rw [run_append, run_append, run_stepByte_plain hp hbs, run_stepByte_plain hp hdrop, hcarry,
    run_feedByte_invalid hhead]
  simp only [emit, List.flatMap_append, List.flatMap_cons, List.flatMap_nil, List.append_nil,
    List.append_assoc]

private theorem itemCalls_invalid {bs : List UInt8} {n : ℕ} (h : head bs = .invalid n) :
    itemCalls (.bad (bs.take n)) =
      [if n = 1 ∧ bs.getD 0 0 ≤ 0x9F then .execute (bs.getD 0 0) else .print replacement] := by
  obtain ⟨h1, hn⟩ := head_invalid_le h
  rcases bs with _ | ⟨b, _ | ⟨b', bs⟩⟩
  · simp at hn
    omega
  · have : n = 1 := by
      simp at hn
      omega
    subst this
    simp only [List.take_succ_cons, List.take_nil, itemCalls, List.getD_cons_zero, true_and]
    split <;> rfl
  · obtain rfl | ⟨m, rfl⟩ : n = 1 ∨ ∃ m, n = m + 2 := by
      rcases n with _ | _ | m
      · omega
      · exact .inl rfl
      · exact .inr ⟨m, rfl⟩
    · simp only [List.take_succ_cons, List.take_zero, itemCalls, List.getD_cons_zero, true_and]
      split <;> rfl
    · simp [itemCalls]

/-- One round of the ground state does what the byte machine does on the bytes it takes, and
leaves a carry only at the end of the read. -/
theorem run_advanceGround {p : Parser} (hp : p.state = .ground) (hcarry : p.partialUtf8 = [])
    {bytes : List UInt8} (hne : bytes ≠ []) :
    run stepByte p bytes =
        emit (p.advanceGround bytes).2.1
          (run stepByte (p.advanceGround bytes).1 (bytes.drop (p.advanceGround bytes).2.2)) ∧
      1 ≤ (p.advanceGround bytes).2.2 ∧
      ((p.advanceGround bytes).1.partialUtf8 = [] ∨
        bytes.drop (p.advanceGround bytes).2.2 = []) := by
  obtain ⟨hplain, hescape⟩ := escape_split bytes
  have hk : bytes.findIdx (· == 0x1B) ≤ bytes.length := List.findIdx_le_length
  unfold advanceGround
  generalize bytes.findIdx (· == 0x1B) = k at *
  have hself : p.withCarry [] = p := by rw [← hcarry, withCarry_self]
  by_cases hk0 : k = 0
  · subst hk0
    have hlen : 0 < bytes.length := List.length_pos_iff.mpr hne
    have hbytes : bytes = 0x1B :: bytes.drop 1 := hescape hlen
    simp only [↓reduceIte]
    refine ⟨?_, le_rfl, .inl hcarry⟩
    conv_lhs => rw [hbytes]
    rw [run_stepByte_escape hp, hcarry, hself]
    rfl
  · have hscan := run_stepByte_scan hp hcarry hplain (bytes.drop k)
    rw [List.take_append_drop] at hscan
    have herr := fromUtf8_errorAt (bytes.take k)
    have hlenk : (bytes.take k).length = k := List.length_take_of_le hk
    have hvalid : (fromUtf8 (bytes.take k)).validUpTo ≤ k := by
      have := scan_validUpTo_le (bytes.take k).length (bytes.take k)
      rw [fromUtf8]
      omega
    simp only [if_neg hk0]
    generalize fromUtf8 (bytes.take k) = parsed at *
    obtain ⟨chars, valid, error⟩ := parsed
    simp only at hscan herr hvalid ⊢
    rcases error with _ | _ | n
    · -- the text is valid up to the escape character or the end
      simp only [Scan.ErrorAt] at herr
      rw [herr, List.nil_append] at hscan
      by_cases hlt : k < bytes.length
      · simp only [if_pos hlt]
        refine ⟨?_, by omega, .inl hcarry⟩
        rw [hscan, hescape hlt, run_stepByte_escape hp, hcarry, hself]
        rfl
      · simp only [if_neg hlt]
        exact ⟨hscan, by omega, .inl hcarry⟩
    · simp only [Scan.ErrorAt] at herr
      obtain ⟨hrest, hinc⟩ := herr
      have hdrop : ∀ b ∈ (bytes.take k).drop valid, b ≠ 0x1B :=
        fun b hb => hplain b (List.mem_of_mem_drop hb)
      have htail : run stepByte p ((bytes.take k).drop valid ++ bytes.drop k) =
          run stepByte (p.withCarry ((bytes.take k).drop valid)) (bytes.drop k) := by
        rw [run_append, run_stepByte_plain hp hdrop, hcarry, run_feedByte_incomplete hinc]
        rfl
      rw [htail] at hscan
      by_cases hlt : k < bytes.length
      · -- cut off by an escape character
        simp only [if_pos hlt]
        refine ⟨?_, by omega, .inl hcarry⟩
        rw [hscan, hescape hlt, run_stepByte_escape (by exact hp), withCarry_partialUtf8,
          withCarry_withCarry, hself, flushCalls, if_neg hrest, emit_emit]
      · -- cut off by the end of the read
        simp only [if_neg hlt]
        have hkl : k = bytes.length := by omega
        refine ⟨?_, by have := List.length_pos_iff.mpr hne; omega, .inr (by simp)⟩
        rw [hscan, hkl]
        simp only [List.take_length, List.drop_length, run_nil, hcarry, List.nil_append]
        rfl
    · simp only [Scan.ErrorAt] at herr
      have hn := head_invalid_le herr
      rw [List.length_drop, hlenk] at hn
      have hdrop : ∀ b ∈ (bytes.take k).drop valid, b ≠ 0x1B :=
        fun b hb => hplain b (List.mem_of_mem_drop hb)
      have hget : ((bytes.take k).drop valid).getD 0 0 = bytes.getD valid 0 := by
        simp only [List.getD_eq_getElem?_getD, List.getElem?_drop, Nat.add_zero]
        rw [List.getElem?_take_of_lt (by omega)]
      have hrest : ((bytes.take k).drop valid).drop n ++ bytes.drop k =
          bytes.drop (valid + n) := by
        rw [List.drop_drop]
        conv_rhs => rw [← List.take_append_drop k bytes]
        rw [List.drop_append_of_le_length (by omega)]
      rw [run_stepByte_invalid hp hcarry hdrop herr, itemCalls_invalid herr, hget, hrest,
        emit_emit] at hscan
      exact ⟨hscan, by simp only; omega, .inl hcarry⟩

/-- With fuel for every byte, the loop is the byte machine. -/
theorem advanceLoop_eq_run {fuel : ℕ} {p : Parser} (hcarry : p.partialUtf8 = [])
    {bytes : List UInt8} (hfuel : bytes.length ≤ fuel) :
    advanceLoop fuel p bytes = run stepByte p bytes := by
  induction fuel generalizing p bytes with
  | zero =>
    rw [List.length_eq_zero_iff.mp (Nat.le_zero.mp hfuel)]
    rfl
  | succ fuel ih =>
    rcases bytes with _ | ⟨b, bs⟩
    · rfl
    rw [advanceLoop]
    by_cases hp : p.state = .ground
    · obtain ⟨hrun, hpos, hrest⟩ := run_advanceGround hp hcarry (List.cons_ne_nil b bs)
      rw [if_pos hp, hrun]
      dsimp only
      congr 1
      rcases hrest with hnil | hdone
      · apply ih hnil
        rw [List.length_drop]
        omega
      · rw [hdone]
        cases fuel <;> rfl
    · have hstep : stepByte p b = p.changeState b := by rw [stepByte, if_neg hp]
      have hnext : (p.changeState b).1.partialUtf8 = [] := by
        rw [changeState_partialUtf8, hcarry]
      rw [if_neg hp, run_cons, hstep]
      dsimp only
      rw [ih hnext (by simpa using hfuel)]

end Parser
end Rio.Copa
