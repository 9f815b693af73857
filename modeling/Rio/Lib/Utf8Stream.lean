import Rio.Lib.Utf8

/-! Two decoders built on `head`: one that scans a slice up to its first error, and one that
reads a byte at a time and keeps an unfinished sequence between bytes. -/
namespace Rio.Utf8
open Rio.Transducer

/-- The characters of the longest valid prefix of a slice, its length, and the error behind
it: `none` for a valid slice, `some none` for a sequence cut off by the end, `some (some n)`
for `n` ill-formed bytes. -/
structure Scan where
  chars : List Char
  validUpTo : ℕ
  error : Option (Option ℕ)
  deriving DecidableEq, Repr

def scan : ℕ → List UInt8 → Scan
  | 0, _ => ⟨[], 0, none⟩
  | _ + 1, [] => ⟨[], 0, none⟩
  | fuel + 1, b :: bs =>
    match head (b :: bs) with
    | .char c n =>
      let rest := scan fuel ((b :: bs).drop n)
      ⟨c :: rest.chars, n + rest.validUpTo, rest.error⟩
    | .invalid n => ⟨[], 0, some (some n)⟩
    | .incomplete => ⟨[], 0, some none⟩

/-- Every character takes a byte, so the length of the slice is fuel enough. -/
def fromUtf8 (bs : List UInt8) : Scan := scan bs.length bs

/-- What the byte-at-a-time decoder emits. -/
inductive Item
  | char (c : Char)
  /-- An ill-formed sequence. -/
  | bad (bs : List UInt8)
  deriving DecidableEq, Repr

/-- A byte with no unfinished sequence before it. -/
def start (b : UInt8) : List UInt8 × List Item :=
  match head [b] with
  | .char c _ => ([], [.char c])
  | .invalid _ => ([], [.bad [b]])
  | .incomplete => ([b], [])

/-- A byte after the unfinished sequence `carry`. -/
def feedByte (carry : List UInt8) (b : UInt8) : List UInt8 × List Item :=
  if carry = [] then start b
  else
    match head (carry ++ [b]) with
    | .char c _ => ([], [.char c])
    | .invalid _ => emit [.bad carry] (start b)
    | .incomplete => (carry ++ [b], [])

theorem head_singleton (b : UInt8) :
    head [b] = .incomplete ∨ head [b] = .invalid 1 ∨ ∃ c, head [b] = .char c 1 := by
  rcases charWidth_cases b with hw | hw | hw | hw | hw
  · exact .inr (.inl (head_width_zero hw []))
  · exact .inr (.inr ⟨_, head_width_one hw []⟩)
  · exact .inl (head_width_two hw [])
  · exact .inl (head_width_three hw [])
  · exact .inl (head_width_four hw [])

/-- Where a decided head is decided: all bytes before `b` leave it open. -/
theorem head_split {bs : List UInt8} (hbs : head bs ≠ .incomplete) :
    ∃ xs b ys, bs = xs ++ b :: ys ∧ head xs = .incomplete ∧ head (xs ++ [b]) = head bs := by
  induction bs using List.reverseRecOn with
  | nil => exact absurd rfl hbs
  | append_singleton bs z ih =>
    by_cases hopen : head bs = .incomplete
    · exact ⟨bs, z, [], rfl, hopen, rfl⟩
    · obtain ⟨xs, b, ys, rfl, hxs, hb⟩ := ih hopen
      refine ⟨xs, b, ys ++ [z], by simp, hxs, ?_⟩
      rw [head_append [z] hopen, hb]

theorem run_feedByte_incomplete {xs : List UInt8} (hx : head xs = .incomplete) :
    run feedByte [] xs = (xs, []) := by
  induction xs using List.reverseRecOn with
  | nil => rfl
  | append_singleton xs b ih =>
    rw [run_append, ih (head_append_incomplete hx), run_singleton, emit_nil, feedByte]
    by_cases hxs : xs = []
    · subst hxs
      rw [if_pos rfl, start, List.nil_append] at *
      rw [hx]
    · rw [if_neg hxs, hx]

/-- The byte that completes a character. -/
theorem feedByte_char {xs : List UInt8} {b : UInt8} {c : Char} {n : ℕ}
    (hx : head xs = .incomplete) (hb : head (xs ++ [b]) = .char c n) :
    feedByte xs b = ([], [.char c]) ∧ n = xs.length + 1 := by
  by_cases hxs : xs = []
  · subst hxs
    rw [List.nil_append] at hb
    constructor
    · rw [feedByte, if_pos rfl, start, hb]
    · rcases head_singleton b with h | h | ⟨d, h⟩ <;> rw [hb] at h <;> simp_all
  · constructor
    · rw [feedByte, if_neg hxs, hb]
    · rcases head_concat b hxs hx with h | h | ⟨d, h⟩ <;> rw [hb] at h <;> simp_all

/-- The byte that shows a sequence to be ill formed: it is the ill-formed sequence itself, or
comes right behind it. -/
theorem feedByte_invalid {xs : List UInt8} {b : UInt8} {n : ℕ}
    (hx : head xs = .incomplete) (hb : head (xs ++ [b]) = .invalid n) :
    (xs = [] ∧ n = 1 ∧ feedByte xs b = ([], [.bad [b]])) ∨
      (xs ≠ [] ∧ n = xs.length ∧ feedByte xs b = emit [.bad xs] (feedByte [] b)) := by
  by_cases hxs : xs = []
  · subst hxs
    rw [List.nil_append] at hb
    refine .inl ⟨rfl, ?_, ?_⟩
    · rcases head_singleton b with h | h | ⟨d, h⟩ <;> rw [hb] at h <;> simp_all
    · rw [feedByte, if_pos rfl, start, hb]
  · refine .inr ⟨hxs, ?_, ?_⟩
    · rcases head_concat b hxs hx with h | h | ⟨d, h⟩ <;> rw [hb] at h <;> simp_all
    · rw [feedByte, if_neg hxs, hb, feedByte, if_pos rfl]

theorem head_char_le {bs : List UInt8} {c : Char} {n : ℕ} (h : head bs = .char c n) :
    1 ≤ n ∧ n ≤ bs.length := by
  obtain ⟨xs, b, ys, rfl, hxs, hb⟩ := head_split (show head bs ≠ .incomplete by simp [h])
  have hn := (feedByte_char hxs (hb.trans h)).2
  simp only [List.length_append, List.length_cons]
  omega

theorem head_invalid_le {bs : List UInt8} {n : ℕ} (h : head bs = .invalid n) :
    1 ≤ n ∧ n ≤ bs.length := by
  obtain ⟨xs, b, ys, rfl, hxs, hb⟩ := head_split (show head bs ≠ .incomplete by simp [h])
  simp only [List.length_append, List.length_cons]
  rcases feedByte_invalid hxs (hb.trans h) with ⟨rfl, hn, -⟩ | ⟨hne, hn, -⟩
  · omega
  · have := List.length_pos_iff.mpr hne
    omega

theorem run_feedByte_char {bs : List UInt8} {c : Char} {n : ℕ} (h : head bs = .char c n) :
    run feedByte [] bs = emit [.char c] (run feedByte [] (bs.drop n)) := by
  obtain ⟨xs, b, ys, rfl, hxs, hb⟩ := head_split (show head bs ≠ .incomplete by simp [h])
  obtain ⟨hstep, hn⟩ := feedByte_char hxs (hb.trans h)
  have hdrop : (xs ++ b :: ys).drop n = ys := by
    rw [hn, List.drop_append, List.drop_eq_nil_of_le (by omega)]
    simp
  rw [hdrop, run_append, run_feedByte_incomplete hxs, emit_nil, run_cons, hstep]

theorem run_feedByte_invalid {bs : List UInt8} {n : ℕ} (h : head bs = .invalid n) :
    run feedByte [] bs = emit [.bad (bs.take n)] (run feedByte [] (bs.drop n)) := by
  obtain ⟨xs, b, ys, rfl, hxs, hb⟩ := head_split (show head bs ≠ .incomplete by simp [h])
  rw [run_append, run_feedByte_incomplete hxs, emit_nil, run_cons]
  rcases feedByte_invalid hxs (hb.trans h) with ⟨rfl, rfl, hstep⟩ | ⟨-, rfl, hstep⟩
  · rw [hstep]
    rfl
  · rw [hstep, List.drop_left, List.take_left, run_cons]
    simp [emit]

@[simp]
theorem scan_nil (fuel : ℕ) : scan fuel [] = ⟨[], 0, none⟩ := by
  cases fuel <;> rfl

/-- One round of the scan, with what the head decides. -/
theorem scan_succ_cons (fuel : ℕ) (b : UInt8) (bs : List UInt8) :
    scan (fuel + 1) (b :: bs) =
      match head (b :: bs) with
      | .char c n =>
        let rest := scan fuel ((b :: bs).drop n)
        ⟨c :: rest.chars, n + rest.validUpTo, rest.error⟩
      | .invalid n => ⟨[], 0, some (some n)⟩
      | .incomplete => ⟨[], 0, some none⟩ := rfl

theorem scan_char (fuel : ℕ) {bs : List UInt8} {c : Char} {n : ℕ} (h : head bs = .char c n) :
    scan (fuel + 1) bs =
      ⟨c :: (scan fuel (bs.drop n)).chars, n + (scan fuel (bs.drop n)).validUpTo,
        (scan fuel (bs.drop n)).error⟩ := by
  rcases bs with _ | ⟨b, bs⟩
  · simp [head_nil] at h
  · rw [scan_succ_cons, h]

theorem scan_invalid (fuel : ℕ) {bs : List UInt8} {n : ℕ} (h : head bs = .invalid n) :
    scan (fuel + 1) bs = ⟨[], 0, some (some n)⟩ := by
  rcases bs with _ | ⟨b, bs⟩
  · simp [head_nil] at h
  · rw [scan_succ_cons, h]

theorem scan_incomplete (fuel : ℕ) {bs : List UInt8} (hne : bs ≠ [])
    (h : head bs = .incomplete) : scan (fuel + 1) bs = ⟨[], 0, some none⟩ := by
  rcases bs with _ | ⟨b, bs⟩
  · exact absurd rfl hne
  · rw [scan_succ_cons, h]

/-- What the error of a scan says about the bytes behind the valid prefix. -/
def Scan.ErrorAt (error : Option (Option ℕ)) (rest : List UInt8) : Prop :=
  match error with
  | none => rest = []
  | some none => rest ≠ [] ∧ head rest = .incomplete
  | some (some n) => head rest = .invalid n

theorem length_drop_le_of_char {bs : List UInt8} {c : Char} {n fuel : ℕ}
    (h : head bs = .char c n) (hfuel : bs.length ≤ fuel + 1) : (bs.drop n).length ≤ fuel := by
  have hn := head_char_le h
  rw [List.length_drop]
  omega

theorem scan_errorAt {fuel : ℕ} {bs : List UInt8} (hfuel : bs.length ≤ fuel) :
    Scan.ErrorAt (scan fuel bs).error (bs.drop (scan fuel bs).validUpTo) := by
  induction fuel generalizing bs with
  | zero => exact List.length_eq_zero_iff.mp (Nat.le_zero.mp hfuel)
  | succ fuel ih =>
    by_cases hne : bs = []
    · subst hne
      rfl
    · cases h : head bs with
      | char c n =>
        rw [scan_char fuel h, ← List.drop_drop]
        exact ih (length_drop_le_of_char h hfuel)
      | invalid n =>
        rw [scan_invalid fuel h]
        exact h
      | incomplete =>
        rw [scan_incomplete fuel hne h]
        exact ⟨hne, h⟩

theorem scan_validUpTo_le (fuel : ℕ) (bs : List UInt8) :
    (scan fuel bs).validUpTo ≤ bs.length := by
  induction fuel generalizing bs with
  | zero => exact Nat.zero_le _
  | succ fuel ih =>
    by_cases hne : bs = []
    · simp [hne]
    · cases h : head bs with
      | char c n =>
        have hn := head_char_le h
        have hrest := ih (bs.drop n)
        rw [List.length_drop] at hrest
        rw [scan_char fuel h]
        simp only
        omega
      | invalid n => simp [scan_invalid fuel h]
      | incomplete => simp [scan_incomplete fuel hne h]

/-- The byte-at-a-time decoder emits the characters of the valid prefix and goes on behind
it. -/
theorem run_feedByte_scan (fuel : ℕ) (bs : List UInt8) :
    run feedByte [] bs =
      emit ((scan fuel bs).chars.map .char)
        (run feedByte [] (bs.drop (scan fuel bs).validUpTo)) := by
  induction fuel generalizing bs with
  | zero => rfl
  | succ fuel ih =>
    by_cases hne : bs = []
    · subst hne
      rfl
    · cases h : head bs with
      | char c n =>
        rw [scan_char fuel h, run_feedByte_char h, ih (bs.drop n), emit_emit, List.drop_drop]
        rfl
      | invalid n =>
        rw [scan_invalid fuel h]
        rfl
      | incomplete =>
        rw [scan_incomplete fuel hne h]
        rfl

/-- Fuel beyond the length of the slice changes nothing. -/
theorem scan_fuel {fuel : ℕ} {bs : List UInt8} (hfuel : bs.length ≤ fuel) :
    scan fuel bs = fromUtf8 bs := by
  change scan fuel bs = scan bs.length bs
  induction fuel using Nat.strong_induction_on generalizing bs with
  | _ fuel ih =>
    by_cases hne : bs = []
    · simp [hne]
    · have hpos := List.length_pos_iff.mpr hne
      obtain ⟨k, rfl⟩ : ∃ k, fuel = k + 1 := ⟨fuel - 1, by omega⟩
      obtain ⟨m, hm⟩ : ∃ m, bs.length = m + 1 := ⟨bs.length - 1, by omega⟩
      rw [hm]
      cases h : head bs with
      | char c n =>
        have hk := length_drop_le_of_char h hfuel
        have hrest := length_drop_le_of_char h hm.le
        rw [scan_char k h, scan_char m h, ih k (by omega) hk]
        rcases Nat.lt_or_ge m (k + 1) with hlt | hge
        · rw [ih m hlt hrest]
        · omega
      | invalid n => rw [scan_invalid k h, scan_invalid m h]
      | incomplete => rw [scan_incomplete k hne h, scan_incomplete m hne h]

theorem fromUtf8_char {bs : List UInt8} {c : Char} {n : ℕ} (h : head bs = .char c n) :
    fromUtf8 bs =
      ⟨c :: (fromUtf8 (bs.drop n)).chars, n + (fromUtf8 (bs.drop n)).validUpTo,
        (fromUtf8 (bs.drop n)).error⟩ := by
  have hfuel : (bs.drop n).length ≤ bs.length := by
    rw [List.length_drop]
    omega
  rw [← scan_fuel (Nat.le_succ bs.length), scan_char _ h, scan_fuel hfuel]

theorem fromUtf8_invalid {bs : List UInt8} {n : ℕ} (h : head bs = .invalid n) :
    fromUtf8 bs = ⟨[], 0, some (some n)⟩ := by
  rw [← scan_fuel (Nat.le_succ bs.length), scan_invalid _ h]

theorem fromUtf8_incomplete {bs : List UInt8} (hne : bs ≠ []) (h : head bs = .incomplete) :
    fromUtf8 bs = ⟨[], 0, some none⟩ := by
  rw [← scan_fuel (Nat.le_succ bs.length), scan_incomplete _ hne h]

theorem fromUtf8_errorAt (bs : List UInt8) :
    Scan.ErrorAt (fromUtf8 bs).error (bs.drop (fromUtf8 bs).validUpTo) :=
  scan_errorAt le_rfl

theorem run_feedByte_fromUtf8 (bs : List UInt8) :
    run feedByte [] bs =
      emit ((fromUtf8 bs).chars.map .char)
        (run feedByte [] (bs.drop (fromUtf8 bs).validUpTo)) :=
  run_feedByte_scan bs.length bs

end Rio.Utf8
