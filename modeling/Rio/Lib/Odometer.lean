import Mathlib.Data.List.Basic
import Mathlib.Tactic

/-! Counting through all words of digits below a base, short words first. A word is written with
its last digit in front. -/
namespace Rio.Odometer

/-- The next word. -/
def increment (base : ℕ) : List ℕ → List ℕ
  | [] => [0]
  | d :: ds => if base ≤ d + 1 then 0 :: increment base ds else (d + 1) :: ds

/-- The number of words up to a word. -/
def value (base : ℕ) : List ℕ → ℕ
  | [] => 0
  | d :: ds => d + 1 + base * value base ds

/-- All words, from the word of the digit `0` on. -/
def word (base : ℕ) : ℕ → List ℕ
  | 0 => [0]
  | n + 1 => increment base (word base n)

variable {base : ℕ} {ds es : List ℕ}

@[simp] theorem increment_nil (base : ℕ) : increment base [] = [0] := rfl

theorem increment_cons (base d : ℕ) (ds : List ℕ) :
    increment base (d :: ds) =
      if base ≤ d + 1 then 0 :: increment base ds else (d + 1) :: ds := rfl

@[simp] theorem value_nil (base : ℕ) : value base [] = 0 := rfl

@[simp] theorem value_cons (base d : ℕ) (ds : List ℕ) :
    value base (d :: ds) = d + 1 + base * value base ds := rfl

theorem increment_lt (hbase : 0 < base) (h : ∀ d ∈ ds, d < base) :
    ∀ d ∈ increment base ds, d < base := by
  induction ds with
  | nil => simpa using hbase
  | cons d ds ih =>
    obtain ⟨hd, hds⟩ := List.forall_mem_cons.mp h
    rw [increment_cons]
    split_ifs with hlast
    · exact List.forall_mem_cons.mpr ⟨hbase, ih hds⟩
    · exact List.forall_mem_cons.mpr ⟨Nat.lt_of_not_le hlast, hds⟩

theorem value_increment (h : ∀ d ∈ ds, d < base) :
    value base (increment base ds) = value base ds + 1 := by
  induction ds with
  | nil => simp
  | cons d ds ih =>
    obtain ⟨hd, hds⟩ := List.forall_mem_cons.mp h
    rw [increment_cons]
    split_ifs with hlast
    · have hcarry : base = d + 1 := by omega
      simp only [value_cons, ih hds, Nat.mul_add, Nat.mul_one]
      omega
    · simp only [value_cons]
      omega

theorem length_le_increment (base : ℕ) (ds : List ℕ) :
    ds.length ≤ (increment base ds).length := by
  induction ds with
  | nil => exact Nat.zero_le _
  | cons d ds ih =>
    rw [increment_cons]
    split_ifs
    · exact Nat.succ_le_succ ih
    · exact le_rfl

theorem value_injective (hds : ∀ d ∈ ds, d < base) (hes : ∀ e ∈ es, e < base)
    (h : value base ds = value base es) : ds = es := by
  induction ds generalizing es with
  | nil =>
    cases es with
    | nil => rfl
    | cons e es =>
      simp only [value_nil, value_cons] at h
      omega
  | cons d ds ih =>
    cases es with
    | nil =>
      simp only [value_nil, value_cons] at h
      omega
    | cons e es =>
      obtain ⟨hd, hds'⟩ := List.forall_mem_cons.mp hds
      obtain ⟨he, hes'⟩ := List.forall_mem_cons.mp hes
      have hsum : d + base * value base ds = e + base * value base es := by
        simp only [value_cons] at h
        omega
      have hdigit : d = e := by
        have hmod := congrArg (· % base) hsum
        simpa [Nat.add_mul_mod_self_left, Nat.mod_eq_of_lt hd, Nat.mod_eq_of_lt he] using hmod
      subst hdigit
      have hrest : value base ds = value base es :=
        Nat.eq_of_mul_eq_mul_left (by omega) (Nat.add_left_cancel hsum)
      rw [ih hds' hes' hrest]

/-- More digits in front make a word later. -/
theorem value_append_ge (ds : List ℕ) (hbase : 0 < base) (hne : es ≠ []) :
    base * value base ds < value base (es ++ ds) := by
  induction es with
  | nil => exact absurd rfl hne
  | cons e es ih =>
    have hle : value base ds ≤ value base (es ++ ds) := by
      cases es with
      | nil => exact le_rfl
      | cons e es =>
        have hlt := ih (List.cons_ne_nil _ _)
        exact (Nat.le_mul_of_pos_left _ hbase).trans hlt.le
    have hmul := Nat.mul_le_mul_left base hle
    simp only [List.cons_append, value_cons]
    omega

/-! ### The words in order -/

theorem word_lt (hbase : 0 < base) (n : ℕ) : ∀ d ∈ word base n, d < base := by
  induction n with
  | zero => exact List.forall_mem_singleton.mpr hbase
  | succ n ih => exact increment_lt hbase ih

theorem value_word (hbase : 0 < base) (n : ℕ) : value base (word base n) = n + 1 := by
  induction n with
  | zero => exact Nat.zero_add 1
  | succ n ih =>
    show value base (increment base (word base n)) = n + 1 + 1
    rw [value_increment (word_lt hbase n), ih]

theorem word_injective (hbase : 0 < base) : Function.Injective (word base) := by
  intro i j h
  have hvalue := congrArg (value base) h
  rw [value_word hbase, value_word hbase] at hvalue
  exact Nat.succ.inj hvalue

theorem word_eq_of_value (hbase : 0 < base) {n : ℕ} (hds : ∀ d ∈ ds, d < base)
    (h : value base ds = n + 1) : word base n = ds :=
  value_injective (word_lt hbase n) hds ((value_word hbase n).trans h.symm)

theorem length_word_mono (base : ℕ) {i j : ℕ} (h : i ≤ j) :
    (word base i).length ≤ (word base j).length := by
  induction h with
  | refl => exact le_rfl
  | step _ ih => exact ih.trans (length_le_increment base _)

/-- The words of one digit come first. -/
theorem word_of_lt {n : ℕ} (h : n < base) : word base n = [n] :=
  word_eq_of_value (by omega) (by simpa using h) (by simp)

/-- The first word that has a given word behind its first digit. -/
theorem word_extend (hbase : 0 < base) (i : ℕ) :
    word base (base * (i + 1)) = 0 :: word base i := by
  refine word_eq_of_value hbase (List.forall_mem_cons.mpr ⟨hbase, word_lt hbase i⟩) ?_
  simp only [value_cons, value_word hbase]
  omega

/-- A word behind other digits belongs to a word that comes that much later. -/
theorem le_of_word_append (hbase : 0 < base) {i j : ℕ} (hne : es ≠ [])
    (h : word base j = es ++ word base i) : base * (i + 1) ≤ j := by
  have hlt := value_append_ge (word base i) hbase hne
  rw [← h, value_word hbase, value_word hbase] at hlt
  exact Nat.lt_succ_iff.mp hlt

end Rio.Odometer
