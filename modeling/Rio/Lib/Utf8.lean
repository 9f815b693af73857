import Rio.Lib.Transducer
import Mathlib.Data.List.Basic
import Mathlib.Tactic

/-! UTF-8 decoding of a byte sequence one scalar value at a time, with the two kinds of
error a validator reports: a sequence that is ill formed after some bytes, and a sequence
that is well formed so far but cut off by the end of the input. -/
namespace Rio.Utf8
open Rio.Transducer

/-- `lo ≤ b ≤ hi`. -/
def inRange (lo hi b : UInt8) : Bool := lo ≤ b && b ≤ hi

/-- A continuation byte `10xxxxxx`. -/
def isCont (b : UInt8) : Bool := inRange 0x80 0xBF b

/-- Bytes announced by a leading byte; `0` for a byte that leads nothing. -/
def charWidth (b : UInt8) : ℕ :=
  if b ≤ 0x7F then 1
  else if inRange 0xC2 0xDF b then 2
  else if inRange 0xE0 0xEF b then 3
  else if inRange 0xF0 0xF4 b then 4
  else 0

/-- The second bytes allowed after the leading byte of a three-byte sequence. -/
def second3 (b0 b1 : UInt8) : Bool :=
  if b0 = 0xE0 then inRange 0xA0 0xBF b1
  else if b0 = 0xED then inRange 0x80 0x9F b1
  else isCont b1

/-- The second bytes allowed after the leading byte of a four-byte sequence. -/
def second4 (b0 b1 : UInt8) : Bool :=
  if b0 = 0xF0 then inRange 0x90 0xBF b1
  else if b0 = 0xF4 then inRange 0x80 0x8F b1
  else isCont b1

def scalar2 (b0 b1 : UInt8) : ℕ := (b0.toNat - 0xC0) * 64 + (b1.toNat - 0x80)

def scalar3 (b0 b1 b2 : UInt8) : ℕ :=
  (b0.toNat - 0xE0) * 4096 + (b1.toNat - 0x80) * 64 + (b2.toNat - 0x80)

def scalar4 (b0 b1 b2 b3 : UInt8) : ℕ :=
  (b0.toNat - 0xF0) * 262144 + (b1.toNat - 0x80) * 4096 + (b2.toNat - 0x80) * 64 +
    (b3.toNat - 0x80)

/-- What stands at the front of a byte sequence. -/
inductive Head
  /-- A scalar value and the number of bytes it takes. -/
  | char (c : Char) (len : ℕ)
  /-- An ill-formed sequence of that many bytes. -/
  | invalid (len : ℕ)
  /-- The input ends inside a sequence that is well formed so far. -/
  | incomplete
  deriving DecidableEq, Repr

def head2 (b0 : UInt8) : List UInt8 → Head
  | [] => .incomplete
  | b1 :: _ => if isCont b1 then .char (Char.ofNat (scalar2 b0 b1)) 2 else .invalid 1

def head3 (b0 : UInt8) : List UInt8 → Head
  | [] => .incomplete
  | b1 :: bs =>
    if second3 b0 b1 then
      match bs with
      | [] => .incomplete
      | b2 :: _ => if isCont b2 then .char (Char.ofNat (scalar3 b0 b1 b2)) 3 else .invalid 2
    else .invalid 1

def head4 (b0 : UInt8) : List UInt8 → Head
  | [] => .incomplete
  | b1 :: bs =>
    if second4 b0 b1 then
      match bs with
      | [] => .incomplete
      | b2 :: bs =>
        if isCont b2 then
          match bs with
          | [] => .incomplete
          | b3 :: _ =>
            if isCont b3 then .char (Char.ofNat (scalar4 b0 b1 b2 b3)) 4 else .invalid 3
        else .invalid 2
    else .invalid 1

/-- The scalar value or the error at the front of `bs`. -/
def head : List UInt8 → Head
  | [] => .incomplete
  | b0 :: bs =>
    match charWidth b0 with
    | 1 => .char (Char.ofNat b0.toNat) 1
    | 2 => head2 b0 bs
    | 3 => head3 b0 bs
    | 4 => head4 b0 bs
    | _ => .invalid 1

/-! ### Heads of extended and of cut sequences -/

theorem head_nil : head [] = .incomplete := rfl

theorem charWidth_cases (b : UInt8) :
    charWidth b = 0 ∨ charWidth b = 1 ∨ charWidth b = 2 ∨ charWidth b = 3 ∨ charWidth b = 4 := by
  unfold charWidth
  split_ifs <;> simp

theorem head_width_zero {b : UInt8} (hb : charWidth b = 0) (bs : List UInt8) :
    head (b :: bs) = .invalid 1 := by
  simp only [head, hb]

theorem head_width_one {b : UInt8} (hb : charWidth b = 1) (bs : List UInt8) :
    head (b :: bs) = .char (Char.ofNat b.toNat) 1 := by
  simp only [head, hb]

theorem head_width_two {b : UInt8} (hb : charWidth b = 2) (bs : List UInt8) :
    head (b :: bs) = head2 b bs := by
  simp only [head, hb]

theorem head_width_three {b : UInt8} (hb : charWidth b = 3) (bs : List UInt8) :
    head (b :: bs) = head3 b bs := by
  simp only [head, hb]

theorem head_width_four {b : UInt8} (hb : charWidth b = 4) (bs : List UInt8) :
    head (b :: bs) = head4 b bs := by
  simp only [head, hb]

private theorem head2_append {b : UInt8} {xs : List UInt8} (ys : List UInt8)
    (hx : head2 b xs ≠ .incomplete) : head2 b (xs ++ ys) = head2 b xs := by
  rcases xs with _ | ⟨b1, xs⟩
  · exact absurd rfl hx
  · rfl

private theorem head3_append {b : UInt8} {xs : List UInt8} (ys : List UInt8)
    (hx : head3 b xs ≠ .incomplete) : head3 b (xs ++ ys) = head3 b xs := by
  rcases xs with _ | ⟨b1, _ | ⟨b2, xs⟩⟩
  · exact absurd rfl hx
  · simp_all [head3]
  · rfl

private theorem head4_append {b : UInt8} {xs : List UInt8} (ys : List UInt8)
    (hx : head4 b xs ≠ .incomplete) : head4 b (xs ++ ys) = head4 b xs := by
  rcases xs with _ | ⟨b1, _ | ⟨b2, _ | ⟨b3, xs⟩⟩⟩
  · exact absurd rfl hx
  · simp_all [head4]
  · by_cases h1 : second4 b b1 = true <;> simp_all [head4]
  · rfl

/-- What is decided at the front of a sequence stays decided when the sequence goes on. -/
theorem head_append {xs : List UInt8} (ys : List UInt8) (hx : head xs ≠ .incomplete) :
    head (xs ++ ys) = head xs := by
  rcases xs with _ | ⟨b0, xs⟩
  · exact absurd rfl hx
  · rw [List.cons_append]
    rcases charWidth_cases b0 with hw | hw | hw | hw | hw
    · rw [head_width_zero hw, head_width_zero hw]
    · rw [head_width_one hw, head_width_one hw]
    · rw [head_width_two hw] at hx ⊢
      rw [head_width_two hw, head2_append ys hx]
    · rw [head_width_three hw] at hx ⊢
      rw [head_width_three hw, head3_append ys hx]
    · rw [head_width_four hw] at hx ⊢
      rw [head_width_four hw, head4_append ys hx]

theorem head_append_char {xs : List UInt8} {c : Char} {n : ℕ} (hx : head xs = .char c n)
    (ys : List UInt8) : head (xs ++ ys) = .char c n := by
  rw [head_append ys (by simp [hx]), hx]

theorem head_append_invalid {xs : List UInt8} {n : ℕ} (hx : head xs = .invalid n)
    (ys : List UInt8) : head (xs ++ ys) = .invalid n := by
  rw [head_append ys (by simp [hx]), hx]

theorem head_append_incomplete {xs ys : List UInt8} (hx : head (xs ++ ys) = .incomplete) :
    head xs = .incomplete := by
  by_contra hne
  rw [head_append ys hne] at hx
  exact hne hx

/-- A byte after an unfinished sequence finishes it, breaks it off, or leaves it unfinished. -/
theorem head_concat {xs : List UInt8} (b : UInt8) (hne : xs ≠ []) (hx : head xs = .incomplete) :
    head (xs ++ [b]) = .incomplete ∨ head (xs ++ [b]) = .invalid xs.length ∨
      ∃ c, head (xs ++ [b]) = .char c (xs.length + 1) := by
  rcases xs with _ | ⟨b0, xs⟩
  · exact absurd rfl hne
  · rw [List.cons_append]
    rcases charWidth_cases b0 with hw | hw | hw | hw | hw
    · simp [head_width_zero hw] at hx
    · simp [head_width_one hw] at hx
    · rw [head_width_two hw] at hx ⊢
      rcases xs with _ | ⟨b1, xs⟩
      · by_cases h1 : isCont b <;> simp [head2, h1]
      · simp only [head2] at hx
        split at hx <;> simp at hx
    · rw [head_width_three hw] at hx ⊢
      rcases xs with _ | ⟨b1, _ | ⟨b2, xs⟩⟩
      · by_cases h1 : second3 b0 b <;> simp [head3, h1]
      · by_cases h1 : second3 b0 b1 <;> by_cases h2 : isCont b <;> simp_all [head3]
      · by_cases h1 : second3 b0 b1 <;> by_cases h2 : isCont b2 <;> simp_all [head3]
    · rw [head_width_four hw] at hx ⊢
      rcases xs with _ | ⟨b1, _ | ⟨b2, _ | ⟨b3, xs⟩⟩⟩
      · by_cases h1 : second4 b0 b <;> simp [head4, h1]
      · by_cases h1 : second4 b0 b1 <;> by_cases h2 : isCont b <;> simp_all [head4]
      · by_cases h1 : second4 b0 b1 <;> by_cases h2 : isCont b2 <;> by_cases h3 : isCont b <;>
          simp_all [head4]
      · by_cases h1 : second4 b0 b1 <;> by_cases h2 : isCont b2 <;> by_cases h3 : isCont b3 <;>
          simp_all [head4]

theorem head_singleton_ascii {b : UInt8} (hb : b ≤ 0x7F) :
    head [b] = .char (Char.ofNat b.toNat) 1 :=
  head_width_one (by simp [charWidth, hb]) []

theorem charWidth_ascii {b : UInt8} (hb : b ≤ 0x7F) : charWidth b = 1 := by
  simp [charWidth, hb]

theorem charWidth_ge_two {b : UInt8} (hb : 2 ≤ charWidth b) : 0xC2 ≤ b ∧ b ≤ 0xF4 := by
  unfold charWidth inRange at hb
  split_ifs at hb <;> grind

/-- An unfinished sequence has at most three bytes. -/
theorem head_incomplete_length {xs : List UInt8} (hx : head xs = .incomplete) :
    xs.length ≤ 3 := by
  rcases xs with _ | ⟨b0, _ | ⟨b1, _ | ⟨b2, _ | ⟨b3, xs⟩⟩⟩⟩
  · simp
  · simp
  · simp
  · simp
  · exfalso
    rcases charWidth_cases b0 with hw | hw | hw | hw | hw
    · simp [head_width_zero hw] at hx
    · simp [head_width_one hw] at hx
    · simp only [head_width_two hw, head2] at hx
      split_ifs at hx
    · simp only [head_width_three hw, head3] at hx
      split_ifs at hx
    · simp only [head_width_four hw, head4] at hx
      split_ifs at hx

/-- An unfinished sequence starts with a leading byte. -/
theorem head_incomplete_first {b : UInt8} {xs : List UInt8} (hx : head (b :: xs) = .incomplete) :
    0xC2 ≤ b ∧ b ≤ 0xF4 := by
  apply charWidth_ge_two
  rcases charWidth_cases b with hw | hw | hw | hw | hw
  · simp [head_width_zero hw] at hx
  · simp [head_width_one hw] at hx
  · omega
  · omega
  · omega

theorem isCont_ge {b : UInt8} (hb : isCont b = true) : 0x80 ≤ b := by
  unfold isCont inRange at hb
  grind

theorem second3_ge {b0 b : UInt8} (hb : second3 b0 b = true) : 0x80 ≤ b := by
  unfold second3 isCont inRange at hb
  grind

theorem second4_ge {b0 b : UInt8} (hb : second4 b0 b = true) : 0x80 ≤ b := by
  unfold second4 isCont inRange at hb
  grind

/-- A seven-bit byte breaks an unfinished sequence off. -/
theorem head_concat_ge {xs : List UInt8} {b : UInt8} (hne : xs ≠ []) (hx : head xs = .incomplete)
    (hb : head (xs ++ [b]) ≠ .invalid xs.length) : 0x80 ≤ b := by
  rcases xs with _ | ⟨b0, xs⟩
  · exact absurd rfl hne
  · rw [List.cons_append] at hb
    rcases charWidth_cases b0 with hw | hw | hw | hw | hw
    · simp [head_width_zero hw] at hx
    · simp [head_width_one hw] at hx
    · rw [head_width_two hw] at hx hb
      rcases xs with _ | ⟨b1, xs⟩
      · by_cases h1 : isCont b
        · exact isCont_ge h1
        · simp [head2, h1] at hb
      · simp only [head2] at hx
        split at hx <;> simp at hx
    · rw [head_width_three hw] at hx hb
      rcases xs with _ | ⟨b1, _ | ⟨b2, xs⟩⟩
      · by_cases h1 : second3 b0 b
        · exact second3_ge h1
        · simp [head3, h1] at hb
      · by_cases h2 : isCont b
        · exact isCont_ge h2
        · by_cases h1 : second3 b0 b1 <;> simp_all [head3]
      · by_cases h1 : second3 b0 b1 <;> by_cases h2 : isCont b2 <;> simp_all [head3]
    · rw [head_width_four hw] at hx hb
      rcases xs with _ | ⟨b1, _ | ⟨b2, _ | ⟨b3, xs⟩⟩⟩
      · by_cases h1 : second4 b0 b
        · exact second4_ge h1
        · simp [head4, h1] at hb
      · by_cases h2 : isCont b
        · exact isCont_ge h2
        · by_cases h1 : second4 b0 b1 <;> simp_all [head4]
      · by_cases h3 : isCont b
        · exact isCont_ge h3
        · by_cases h1 : second4 b0 b1 <;> by_cases h2 : isCont b2 <;> simp_all [head4]
      · by_cases h1 : second4 b0 b1 <;> by_cases h2 : isCont b2 <;> by_cases h3 : isCont b3 <;>
          simp_all [head4]

theorem head_incomplete_ge {xs : List UInt8} (hx : head xs = .incomplete) :
    ∀ b ∈ xs, 0x80 ≤ b := by
  induction xs using List.reverseRecOn with
  | nil => simp
  | append_singleton xs z ih =>
    have hxs := head_append_incomplete hx
    intro b hb
    rcases List.mem_append.mp hb with hb | hb
    · exact ih hxs b hb
    · obtain rfl := List.mem_singleton.mp hb
      by_cases hne : xs = []
      · subst hne
        have := (head_incomplete_first hx).1
        grind
      · exact head_concat_ge hne hxs (by simp [hx])

private theorem toNat_ofNat {n : ℕ} (h : n < 0xD800 ∨ 0xDFFF < n ∧ n < 0x110000) :
    (Char.ofNat n).toNat = n := by
  have hv : n.isValidChar := h
  rw [Char.ofNat, dif_pos hv]
  rfl

private theorem inRange_toNat {lo hi b : UInt8} (h : inRange lo hi b = true) :
    lo.toNat ≤ b.toNat ∧ b.toNat ≤ hi.toNat := by
  simpa [inRange, UInt8.le_iff_toNat_le] using h

private theorem charWidth_range (b : UInt8) :
    (charWidth b = 1 → b.toNat < 0x80) ∧ (charWidth b = 2 → 0xC2 ≤ b.toNat ∧ b.toNat ≤ 0xDF) ∧
      (charWidth b = 3 → 0xE0 ≤ b.toNat ∧ b.toNat ≤ 0xEF) ∧
      (charWidth b = 4 → 0xF0 ≤ b.toNat ∧ b.toNat ≤ 0xF4) := by
  unfold charWidth
  split_ifs with h1 h2 h3 h4
  · have : b.toNat ≤ 0x7F := UInt8.le_iff_toNat_le.mp h1
    simp
    omega
  · simpa using inRange_toNat h2
  · simpa using inRange_toNat h3
  · simpa using inRange_toNat h4
  · simp

private theorem isCont_range {b : UInt8} (h : isCont b = true) :
    0x80 ≤ b.toNat ∧ b.toNat ≤ 0xBF := by
  simpa using inRange_toNat h

private theorem second3_range {b0 b : UInt8} (h : second3 b0 b = true) :
    0x80 ≤ b.toNat ∧ b.toNat ≤ 0xBF ∧ (b0.toNat = 0xE0 → 0xA0 ≤ b.toNat) ∧
      (b0.toNat = 0xED → b.toNat ≤ 0x9F) := by
  have heq (k : UInt8) : b0 = k ↔ b0.toNat = k.toNat := UInt8.toNat_inj.symm
  unfold second3 at h
  simp only [heq] at h
  split_ifs at h with h1 h2
  · have := inRange_toNat h
    simp at this h1
    omega
  · have := inRange_toNat h
    simp at this h1 h2
    omega
  · have := isCont_range h
    simp at h1 h2
    omega

private theorem second4_range {b0 b : UInt8} (h : second4 b0 b = true) :
    0x80 ≤ b.toNat ∧ b.toNat ≤ 0xBF ∧ (b0.toNat = 0xF0 → 0x90 ≤ b.toNat) ∧
      (b0.toNat = 0xF4 → b.toNat ≤ 0x8F) := by
  have heq (k : UInt8) : b0 = k ↔ b0.toNat = k.toNat := UInt8.toNat_inj.symm
  unfold second4 at h
  simp only [heq] at h
  split_ifs at h with h1 h2
  · have := inRange_toNat h
    simp at this h1
    omega
  · have := inRange_toNat h
    simp at this h1 h2
    omega
  · have := isCont_range h
    simp at h1 h2
    omega

/-- The range of a character and the number of bytes it takes. -/
theorem head_char_range {bs : List UInt8} {c : Char} {n : ℕ} (h : head bs = .char c n) :
    n = 1 ∧ c.toNat < 0x80 ∨ n = 2 ∧ 0x80 ≤ c.toNat ∧ c.toNat < 0x800 ∨
      n = 3 ∧ 0x800 ≤ c.toNat ∧ c.toNat < 0x10000 ∨ n = 4 ∧ 0x10000 ≤ c.toNat := by
  rcases bs with _ | ⟨b0, bs⟩
  · simp [head_nil] at h
  obtain ⟨hw1, hw2, hw3, hw4⟩ := charWidth_range b0
  rcases charWidth_cases b0 with hw | hw | hw | hw | hw
  · simp [head_width_zero hw] at h
  · rw [head_width_one hw] at h
    obtain ⟨rfl, rfl⟩ := Head.char.inj h
    have hb := hw1 hw
    rw [toNat_ofNat (by omega)]
    exact .inl ⟨rfl, by omega⟩
  · rw [head_width_two hw] at h
    rcases bs with _ | ⟨b1, bs⟩ <;> simp only [head2, reduceCtorEq] at h
    split_ifs at h with h1
    obtain ⟨rfl, rfl⟩ := Head.char.inj h
    have hb := hw2 hw
    have hb1 := isCont_range h1
    unfold scalar2
    rw [toNat_ofNat (by omega)]
    exact .inr (.inl ⟨rfl, by omega, by omega⟩)
  · rw [head_width_three hw] at h
    rcases bs with _ | ⟨b1, _ | ⟨b2, bs⟩⟩ <;> simp only [head3, reduceCtorEq] at h
    · split_ifs at h
    split_ifs at h with h1 h2
    obtain ⟨rfl, rfl⟩ := Head.char.inj h
    have hb := hw3 hw
    have hb1 := second3_range h1
    have hb2 := isCont_range h2
    unfold scalar3
    rw [toNat_ofNat (by omega)]
    exact .inr (.inr (.inl ⟨rfl, by omega, by omega⟩))
  · rw [head_width_four hw] at h
    rcases bs with _ | ⟨b1, _ | ⟨b2, _ | ⟨b3, bs⟩⟩⟩ <;> simp only [head4, reduceCtorEq] at h
    · split_ifs at h
    · split_ifs at h
    split_ifs at h with h1 h2 h3
    obtain ⟨rfl, rfl⟩ := Head.char.inj h
    have hb := hw4 hw
    have hb1 := second4_range h1
    have hb2 := isCont_range h2
    have hb3 := isCont_range h3
    unfold scalar4
    rw [toNat_ofNat (by omega)]
    exact .inr (.inr (.inr ⟨rfl, by omega⟩))

/-- The leading byte announces the length. -/
theorem head_char_width {b : UInt8} {bs : List UInt8} {c : Char} {n : ℕ}
    (h : head (b :: bs) = .char c n) : n = charWidth b := by
  rcases charWidth_cases b with hw | hw | hw | hw | hw
  · simp [head_width_zero hw] at h
  · rw [head_width_one hw] at h
    rw [hw, (Head.char.inj h).2]
  · rw [head_width_two hw] at h
    rcases bs with _ | ⟨b1, bs⟩ <;> simp only [head2, reduceCtorEq] at h
    split_ifs at h
    rw [hw, (Head.char.inj h).2]
  · rw [head_width_three hw] at h
    rcases bs with _ | ⟨b1, _ | ⟨b2, bs⟩⟩ <;> simp only [head3, reduceCtorEq] at h <;>
      split_ifs at h
    rw [hw, (Head.char.inj h).2]
  · rw [head_width_four hw] at h
    rcases bs with _ | ⟨b1, _ | ⟨b2, _ | ⟨b3, bs⟩⟩⟩ <;> simp only [head4, reduceCtorEq] at h <;>
      split_ifs at h
    rw [hw, (Head.char.inj h).2]

theorem head_char_utf8Size {bs : List UInt8} {c : Char} {n : ℕ} (h : head bs = .char c n) :
    c.utf8Size = n := by
  have hr := head_char_range h
  have hv (k : UInt32) : c.val ≤ k ↔ c.toNat ≤ k.toNat := UInt32.le_iff_toNat_le
  unfold Char.utf8Size
  simp only [hv]
  norm_num
  split_ifs <;> omega

end Rio.Utf8
