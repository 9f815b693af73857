import Rio.Copa.Chunks

/-! A read that starts with a carried sequence. The carry is completed by `advancePartialUtf8`,
which differs from the ground state in two ways: it prints a C1 control character instead of
executing it, and it skips one byte too many when the carried character takes two bytes and is
followed by a seven-bit byte and a byte that is not. -/

set_option linter.dupNamespace false

namespace Rio.Copa
open Rio.Utf8 Rio.Transducer
namespace Parser

/-- The read completes the carry to a control character. -/
def completesControl (carry bytes : List UInt8) : Bool :=
  match head (carry ++ bytes) with
  | .char c _ => isControl c
  | _ => false

/-- The byte behind the completed character is skipped. -/
def losesByte : List UInt8 → List UInt8 → Bool
  | [b0], b1 :: a :: x :: _ => charWidth b0 == 2 && isCont b1 && a ≤ 0x7F && 0x80 ≤ x
  | _, _ => false

/-- A read that continues the carry other than the ground state would. -/
def carryFault (p : Parser) (bytes : List UInt8) : Bool :=
  !p.partialUtf8.isEmpty &&
    (completesControl p.partialUtf8 bytes || losesByte p.partialUtf8 bytes)

theorem head_buffer {carry : List UInt8} (bytes : List UInt8) (hlen : carry.length ≤ 3) :
    head (carry ++ bytes.take (min bytes.length (partialCapacity - carry.length))) =
      head (carry ++ bytes) := by
  set k := min bytes.length (partialCapacity - carry.length) with hk
  by_cases hopen : head (carry ++ bytes.take k) = .incomplete
  · have h3 := head_incomplete_length hopen
    rw [List.length_append, List.length_take] at h3
    have hall : bytes.take k = bytes := by
      apply List.take_of_length_le
      unfold partialCapacity at hk
      omega
    rw [hall]
  · have happ := head_append (bytes.drop k) hopen
    rw [List.append_assoc, List.take_append_drop] at happ
    exact happ.symm

private theorem head_ascii {a : UInt8} (ha : a ≤ 0x7F) (bs : List UInt8) :
    head (a :: bs) = .char (Char.ofNat a.toNat) 1 :=
  head_width_one (charWidth_ascii ha) bs

theorem head_char_high {a : UInt8} {bs : List UInt8} {c : Char} {n : ℕ}
    (ha : ¬ a ≤ 0x7F) (h : head (a :: bs) = .char c n) : 2 ≤ n := by
  have hn := (head_char_le h).1
  rw [head_char_width h] at hn ⊢
  unfold charWidth at hn ⊢
  rw [if_neg ha] at hn ⊢
  split_ifs at hn ⊢ <;> omega

private theorem head_singleton_high {x : UInt8} (hx : ¬ x ≤ 0x7F) :
    (fromUtf8 [x]).validUpTo = 0 ∧ (fromUtf8 [x]).error ≠ none := by
  rcases head_singleton x with h | h | ⟨c, h⟩
  · simp [fromUtf8_incomplete (by simp) h]
  · simp [fromUtf8_invalid h]
  · have := head_char_high hx h
    omega

/-- Of at most two bytes with an error among them, only a leading seven-bit byte is valid. -/
private theorem fromUtf8_short {bs : List UInt8} (hlen : bs.length ≤ 2)
    (herr : (fromUtf8 bs).error ≠ none) :
    (fromUtf8 bs).validUpTo = if bs.length = 2 ∧ bs.getD 0 0 ≤ 0x7F then 1 else 0 := by
  rcases bs with _ | ⟨a, _ | ⟨x, _ | ⟨y, bs⟩⟩⟩
  · exact absurd rfl herr
  · by_cases ha : a ≤ 0x7F
    · rw [fromUtf8_char (head_ascii ha [])] at herr
      exact absurd rfl herr
    · simpa using (head_singleton_high ha).1
  · by_cases ha : a ≤ 0x7F
    · rw [fromUtf8_char (head_ascii ha [x])] at herr ⊢
      simp only [List.drop_succ_cons, List.drop_zero] at herr ⊢
      have hx : ¬ x ≤ 0x7F := by
        intro hx
        rw [fromUtf8_char (head_ascii hx [])] at herr
        exact herr rfl
      simp [(head_singleton_high hx).1, ha]
    · simp only [List.getD_cons_zero, ha, and_false, if_false]
      cases h : head [a, x] with
      | incomplete => simp [fromUtf8_incomplete (by simp) h]
      | invalid n => simp [fromUtf8_invalid h]
      | char c n =>
        have hn := head_char_le h
        have h2 : n = 2 := by
          have := head_char_high ha h
          simp at hn
          omega
        subst h2
        rw [fromUtf8_char h] at herr
        exact absurd rfl herr
  · simp at hlen

/-- Where the head of a continued carry is decided: not inside the carry. -/
private theorem carry_split {carry bytes : List UInt8} (hcarry : head carry = .incomplete)
    (hdec : head (carry ++ bytes) ≠ .incomplete) :
    ∃ xs b ys, carry ++ bytes = xs ++ b :: ys ∧ head xs = .incomplete ∧
      head (xs ++ [b]) = head (carry ++ bytes) ∧ carry.length ≤ xs.length := by
  obtain ⟨xs, b, ys, heq, hxs, hb⟩ := head_split hdec
  refine ⟨xs, b, ys, heq, hxs, hb, ?_⟩
  by_contra hlt
  rcases List.append_eq_append_iff.mp heq with ⟨t, hx, -⟩ | ⟨t, hc, ht⟩
  · rw [hx, List.length_append] at hlt
    omega
  · rcases t with _ | ⟨b', t⟩
    · rw [hc, List.append_nil] at hlt
      exact hlt le_rfl
    · obtain ⟨rfl, -⟩ := List.cons.inj ht
      have hopen : head (xs ++ [b]) = .incomplete := by
        have hlong : head (xs ++ [b] ++ t) = .incomplete := by
          rw [List.append_assoc, List.singleton_append, ← hc]
          exact hcarry
        exact head_append_incomplete hlong
      exact hdec (hb ▸ hopen)

/-- An unfinished sequence in front of a ground-state run is carried. -/
private theorem run_stepByte_carry {p : Parser} (hp : p.state = .ground) {xs : List UInt8}
    (hxs : head xs = .incomplete) (bytes : List UInt8) :
    run stepByte (p.withCarry []) (xs ++ bytes) = run stepByte (p.withCarry xs) bytes :=
  run_stepByte_resume (p := p.withCarry xs) ⟨hxs, fun _ => hp⟩ hp bytes

/-- A byte that breaks an unfinished sequence off is read again on its own. -/
private theorem stepByte_break {p : Parser} (hp : p.state = .ground) {xs : List UInt8}
    {b : UInt8} {n : ℕ} (hne : xs ≠ []) (hxs : head xs = .incomplete)
    (hb : head (xs ++ [b]) = .invalid n) :
    stepByte (p.withCarry xs) b =
      emit [.print replacement] (stepByte (p.withCarry []) b) := by
  unfold stepByte
  rw [if_pos (show (p.withCarry xs).state = .ground from hp),
    if_pos (show (p.withCarry []).state = .ground from hp)]
  by_cases hesc : b = 0x1B
  · rw [if_pos hesc, if_pos hesc, withCarry_partialUtf8, flushCalls, if_neg hne]
    rfl
  · rw [if_neg hesc, if_neg hesc, withCarry_partialUtf8]
    rcases feedByte_invalid hxs hb with ⟨h, -, -⟩ | ⟨-, -, hstep⟩
    · exact absurd h hne
    · have hbad : itemCalls (.bad xs) = [.print replacement] := by
        rcases xs with _ | ⟨x, xs⟩
        · exact absurd rfl hne
        · have := (head_incomplete_first hxs).1
          exact itemCalls_bad (by grind) xs
      rw [hstep]
      simp only [emit, List.flatMap_append, List.flatMap_cons, List.flatMap_nil,
        List.append_nil, hbad]
      rfl

/-- The byte machine on a read that breaks the carry off. -/
theorem run_stepByte_carry_invalid {p : Parser} (hp : p.WellFormed) (hne : p.partialUtf8 ≠ [])
    {bytes : List UInt8} {n : ℕ} (h : head (p.partialUtf8 ++ bytes) = .invalid n) :
    p.partialUtf8.length ≤ n ∧
      run stepByte p bytes =
        emit [.print replacement]
          (run stepByte (p.withCarry []) (bytes.drop (n - p.partialUtf8.length))) := by
  have hground := hp.ground hne
  obtain ⟨xs, b, ys, heq, hxs, hb, hlen⟩ := carry_split hp.unfinished (by rw [h]; simp)
  have hxne : xs ≠ [] := by
    rintro rfl
    exact hne (List.length_eq_zero_iff.mp (Nat.le_zero.mp hlen))
  obtain ⟨hnil, -, -⟩ | ⟨-, rfl, -⟩ := feedByte_invalid hxs (hb.trans h)
  · exact absurd hnil hxne
  refine ⟨hlen, ?_⟩
  have hdrop : bytes.drop (xs.length - p.partialUtf8.length) = b :: ys := by
    have := congrArg (List.drop xs.length) heq
    rwa [List.drop_left, List.drop_append, List.drop_eq_nil_of_le hlen, List.nil_append] at this
  rw [← run_stepByte_resume hp hground, heq, run_stepByte_carry hground hxs, run_cons,
    stepByte_break hground hxne hxs (hb.trans h), hdrop, run_cons]
  simp [emit]

/-- The byte machine on a read that completes the carry. -/
theorem run_stepByte_carry_char {p : Parser} (hp : p.WellFormed) (hne : p.partialUtf8 ≠ [])
    {bytes : List UInt8} {c : Char} {n : ℕ} (h : head (p.partialUtf8 ++ bytes) = .char c n) :
    p.partialUtf8.length < n ∧
      run stepByte p bytes =
        emit [groundCall c]
          (run stepByte (p.withCarry []) (bytes.drop (n - p.partialUtf8.length))) := by
  have hground := hp.ground hne
  obtain ⟨xs, b, ys, heq, hxs, hb, hlen⟩ := carry_split hp.unfinished (by rw [h]; simp)
  have hxne : xs ≠ [] := by
    rintro rfl
    exact hne (List.length_eq_zero_iff.mp (Nat.le_zero.mp hlen))
  obtain ⟨hstep, rfl⟩ := feedByte_char hxs (hb.trans h)
  refine ⟨by omega, ?_⟩
  have hdrop : bytes.drop (xs.length + 1 - p.partialUtf8.length) = ys := by
    have := congrArg (List.drop (xs.length + 1)) heq
    rw [List.drop_append, List.drop_append] at this
    simpa [List.drop_eq_nil_of_le, Nat.le_succ_of_le hlen] using this
  have hesc : b ≠ 0x1B := by
    rintro rfl
    exact absurd (head_concat_ge hxne hxs (by rw [hb, h]; simp)) (by decide)
  have hbyte : stepByte (p.withCarry xs) b = (p.withCarry [], [groundCall c]) := by
    rw [stepByte, if_pos (by exact hground), if_neg hesc, withCarry_partialUtf8, hstep]
    rfl
  rw [← run_stepByte_resume hp hground, heq, run_stepByte_carry hground hxs, run_cons, hbyte,
    hdrop]

/-- Bytes behind the completed character that are in the buffer with it. -/
private theorem losesByte_iff {carry bytes : List UInt8} {c : Char} {n : ℕ}
    (hpos : carry ≠ []) (hn : carry.length < n) (h : head (carry ++ bytes) = .char c n)
    (rest : List UInt8)
    (hrest : rest = (carry ++ bytes.take (min bytes.length (partialCapacity - carry.length))).drop n) :
    losesByte carry bytes = true ↔
      (fromUtf8 rest).error ≠ none ∧ rest.length = 2 ∧ rest.getD 0 0 ≤ 0x7F := by
  have hlen : rest.length = carry.length + min bytes.length (partialCapacity - carry.length) - n := by
    rw [hrest, List.length_drop, List.length_append, List.length_take]
    omega
  unfold partialCapacity at hlen
  rcases carry with _ | ⟨b0, _ | ⟨b1, carry⟩⟩
  · exact absurd rfl hpos
  · rcases bytes with _ | ⟨b1, _ | ⟨a, _ | ⟨x, bytes⟩⟩⟩
    · simp only [losesByte, Bool.false_eq_true, false_iff]
      simp at hlen
      omega
    · simp only [losesByte, Bool.false_eq_true, false_iff]
      simp at hlen hn
      omega
    · simp only [losesByte, Bool.false_eq_true, false_iff]
      simp at hlen hn
      omega
    · by_cases hw : charWidth b0 = 2
      · have h2 : n = 2 := by rw [head_char_width h, hw]
        subst h2
        have hcont : isCont b1 = true := by
          rw [List.singleton_append, head_width_two hw, head2] at h
          by_contra hc
          rw [if_neg hc] at h
          cases h
        have hr : rest = [a, x] := by simpa [partialCapacity] using hrest
        subst hr
        have hx : 0x80 ≤ x ↔ ¬ x ≤ 0x7F := by grind
        simp only [losesByte, hw, hcont, beq_self_eq_true, Bool.true_and, Bool.and_eq_true,
          decide_eq_true_eq, List.length_cons, List.length_nil, List.getD_cons_zero, true_and]
        constructor
        · rintro ⟨ha, hx'⟩
          refine ⟨?_, ha⟩
          rw [fromUtf8_char (head_ascii ha [x])]
          exact (head_singleton_high (hx.mp hx')).2
        · rintro ⟨herr, ha⟩
          refine ⟨ha, hx.mpr fun hlow => herr ?_⟩
          rw [fromUtf8_char (head_ascii ha [x])]
          simp only [List.drop_succ_cons, List.drop_zero]
          rw [fromUtf8_char (head_ascii hlow [])]
          rfl
      · have hn2 : n ≠ 2 := by rwa [head_char_width h]
        simp only [losesByte, beq_eq_false_iff_ne.mpr hw, Bool.false_and, Bool.false_eq_true,
          false_iff]
        simp at hlen hn
        omega
  · simp only [losesByte, Bool.false_eq_true, false_iff]
    simp at hlen hn
    omega

/-- The parser on a read that completes the carry. -/
theorem advance_carry_char {p : Parser} (hp : p.WellFormed) (hne : p.partialUtf8 ≠ [])
    {bytes : List UInt8} {c : Char} {n : ℕ} (h : head (p.partialUtf8 ++ bytes) = .char c n) :
    p.advance bytes =
      emit [.print c]
        (run stepByte (p.withCarry []) (bytes.drop (n - p.partialUtf8.length +
          if losesByte p.partialUtf8 bytes then 1 else 0))) := by
  have hlen3 := head_incomplete_length hp.unfinished
  have hn := (run_stepByte_carry_char hp hne h).1
  have hpos : p.partialUtf8.length ≠ 0 := fun h0 => hne (List.length_eq_zero_iff.mp h0)
  have hloop (k : ℕ) : advanceLoop bytes.length (p.withCarry []) (bytes.drop k) =
      run stepByte (p.withCarry []) (bytes.drop k) :=
    advanceLoop_eq_run rfl (by rw [List.length_drop]; omega)
  have hbuf := (head_buffer bytes hlen3).trans h
  have hlose := losesByte_iff hne hn h _ rfl
  have hrest4 : ((p.partialUtf8 ++ bytes.take
      (min bytes.length (partialCapacity - p.partialUtf8.length))).drop n).length ≤ 2 := by
    rw [List.length_drop, List.length_append, List.length_take]
    unfold partialCapacity
    omega
  unfold advance
  rw [if_pos hpos]
  unfold advancePartialUtf8
  simp only [fromUtf8_char hbuf, List.headD_cons]
  generalize (p.partialUtf8 ++ bytes.take
      (min bytes.length (partialCapacity - p.partialUtf8.length))).drop n = rest at *
  cases herr : (fromUtf8 rest).error with
  | none =>
    have hkeep : losesByte p.partialUtf8 bytes = false := by
      by_contra hl
      exact (hlose.mp (by simpa using hl)).1 herr
    simp only [hkeep, Bool.false_eq_true, if_false, Nat.add_zero, head_char_utf8Size h]
    exact congrArg _ (hloop _)
  | some error =>
    have hvalid := fromUtf8_short hrest4 (by simp [herr])
    have hskip : (fromUtf8 rest).validUpTo = if losesByte p.partialUtf8 bytes then 1 else 0 := by
      rw [hvalid]
      simp only [hlose, herr, ne_eq, reduceCtorEq, not_false_eq_true, true_and]
    have hvpos : 0 < n + (fromUtf8 rest).validUpTo := by omega
    simp only [if_pos hvpos]
    rw [← hskip, show n - p.partialUtf8.length + (fromUtf8 rest).validUpTo =
      n + (fromUtf8 rest).validUpTo - p.partialUtf8.length by omega]
    exact congrArg _ (hloop _)

/-- The parser on a read that breaks the carry off. -/
theorem advance_carry_invalid {p : Parser} (hp : p.WellFormed) (hne : p.partialUtf8 ≠ [])
    {bytes : List UInt8} {n : ℕ} (h : head (p.partialUtf8 ++ bytes) = .invalid n) :
    p.advance bytes = run stepByte p bytes := by
  have hlen3 := head_incomplete_length hp.unfinished
  have hpos : p.partialUtf8.length ≠ 0 := fun h0 => hne (List.length_eq_zero_iff.mp h0)
  have hbuf := (head_buffer bytes hlen3).trans h
  rw [(run_stepByte_carry_invalid hp hne h).2]
  unfold advance
  rw [if_pos hpos]
  unfold advancePartialUtf8
  simp only [fromUtf8_invalid hbuf, lt_irrefl, if_false]
  exact congrArg _ (advanceLoop_eq_run rfl (by rw [List.length_drop]; omega))

/-- The parser on a read that leaves the carry unfinished. -/
theorem advance_carry_incomplete {p : Parser} (hp : p.WellFormed) (hne : p.partialUtf8 ≠ [])
    {bytes : List UInt8} (h : head (p.partialUtf8 ++ bytes) = .incomplete) :
    p.advance bytes = run stepByte p bytes ∧
      run stepByte p bytes = (p.withCarry (p.partialUtf8 ++ bytes), []) := by
  have hground := hp.ground hne
  have hlen3 := head_incomplete_length hp.unfinished
  have hpos : p.partialUtf8.length ≠ 0 := fun h0 => hne (List.length_eq_zero_iff.mp h0)
  have hrun : run stepByte p bytes = (p.withCarry (p.partialUtf8 ++ bytes), []) := by
    have hcarry := run_stepByte_carry hground h []
    rw [List.append_nil] at hcarry
    rw [← run_stepByte_resume hp hground, hcarry]
    rfl
  refine ⟨?_, hrun⟩
  have hbuf := (head_buffer bytes hlen3).trans h
  have hfull := head_incomplete_length h
  rw [List.length_append] at hfull
  have hcopy : min bytes.length (partialCapacity - p.partialUtf8.length) = bytes.length := by
    unfold partialCapacity
    omega
  rw [hcopy, List.take_length] at hbuf
  have hbne : p.partialUtf8 ++ bytes ≠ [] := by simp [hne]
  unfold advance
  rw [if_pos hpos, hrun]
  unfold advancePartialUtf8
  simp only [hcopy, List.take_length, fromUtf8_incomplete hbne hbuf, lt_irrefl, if_false,
    List.drop_length]
  cases bytes <;> rfl

/-- A read that does not run into one of the two differences is read as by the byte machine. -/
theorem advance_eq_run {p : Parser} (hp : p.WellFormed) {bytes : List UInt8}
    (hok : p.carryFault bytes = false) : p.advance bytes = run stepByte p bytes := by
  by_cases hne : p.partialUtf8 = []
  · unfold advance
    rw [if_neg (by simp [hne])]
    exact advanceLoop_eq_run hne le_rfl
  · cases h : head (p.partialUtf8 ++ bytes) with
    | incomplete => exact (advance_carry_incomplete hp hne h).1
    | invalid n => exact advance_carry_invalid hp hne h
    | char c n =>
      have hempty : p.partialUtf8.isEmpty = false := by simpa using hne
      simp only [carryFault, completesControl, h, hempty, Bool.not_false, Bool.true_and,
        Bool.or_eq_false_iff] at hok
      rw [advance_carry_char hp hne h, (run_stepByte_carry_char hp hne h).2, hok.2, groundCall,
        hok.1]
      rfl

/-- The byte machine keeps the carry well formed. -/
theorem stepByte_wellFormed {p : Parser} (hp : p.WellFormed) (b : UInt8) :
    (p.stepByte b).1.WellFormed := by
  by_cases hground : p.state = .ground
  · by_cases hesc : b = 0x1B
    · rw [stepByte, if_pos hground, if_pos hesc]
      exact wellFormed_of_nil rfl
    · rw [stepByte, if_pos hground, if_neg hesc]
      refine ⟨?_, fun _ => hground⟩
      have hstart : head (start b).1 = .incomplete := by
        unfold start
        cases h : head [b] <;> first | rfl | exact h
      simp only
      unfold feedByte
      split
      · exact hstart
      · split
        · rfl
        · exact hstart
        · assumption
  · have hnil : p.partialUtf8 = [] := by
      by_contra h
      exact hground (hp.ground h)
    rw [stepByte, if_neg hground]
    exact wellFormed_of_nil (by rw [changeState_partialUtf8, hnil])

theorem run_stepByte_wellFormed (bytes : List UInt8) {p : Parser} (hp : p.WellFormed) :
    (run stepByte p bytes).1.WellFormed := by
  induction bytes generalizing p with
  | nil => exact hp
  | cons b bytes ih => exact ih (stepByte_wellFormed hp b)

/-- Reads of which none is faulty are read as one. -/
theorem run_advance_eq_advance (pieces : List (List UInt8)) {p : Parser} (hp : p.WellFormed)
    (hcarry : p.partialUtf8 = [])
    (hok : AllSteps advance (fun p bytes => p.carryFault bytes = false) p pieces) :
    run advance p pieces = p.advance pieces.flatten := by
  have hpieces := run_slices (I := WellFormed) (fun _ _ h => advance_eq_run h)
    (fun p bytes h => run_stepByte_wellFormed bytes h) pieces p hp hok
  rw [hpieces, advance_eq_run hp (by simp [carryFault, hcarry])]

end Parser
end Rio.Copa
