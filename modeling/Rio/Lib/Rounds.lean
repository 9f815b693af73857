import Mathlib.Data.List.Basic
import Mathlib.Tactic

/-! Loops that take their input in rounds of one element or more, and may look at an observer
of the output before each round and stop. A loop with longer rounds looks less often; the
results here say when that makes no difference. -/
namespace Rio.Rounds

variable {ρ σ α β : Type*}

/-- What a stretch of rounds yields: the reader after it, the output, and the number of
elements taken. -/
abbrev Taken (ρ β : Type*) := ρ × List β × ℕ

/-- A stretch with another one before it. -/
def andThen (first : Taken ρ β) (next : Taken ρ β) : Taken ρ β :=
  (next.1, first.2.1 ++ next.2.1, first.2.2 + next.2.2)

theorem andThen_assoc (x y z : Taken ρ β) :
    andThen (andThen x y) z = andThen x (andThen y z) := by
  simp [andThen, Nat.add_assoc]

theorem andThen_inj {x y z : Taken ρ β} : andThen x y = andThen x z ↔ y = z := by
  obtain ⟨r, out, n⟩ := y
  obtain ⟨r', out', n'⟩ := z
  simp [andThen]

/-- An observer that is told every output and may ask to stop. -/
structure Observer (σ β : Type*) where
  observe : σ → β → σ
  stop : σ → Bool

/-- The observer after a list of outputs. -/
def Observer.after (o : Observer σ β) (s : σ) (out : List β) : σ := out.foldl o.observe s

@[simp] theorem Observer.after_nil (o : Observer σ β) (s : σ) : o.after s [] = s := rfl

theorem Observer.after_append (o : Observer σ β) (s : σ) (xs ys : List β) :
    o.after s (xs ++ ys) = o.after (o.after s xs) ys := List.foldl_append

/-- Take rounds until the input is used up or the observer asks to stop. -/
def pollRounds (round : ρ → List α → Taken ρ β) (o : Observer σ β) :
    ℕ → σ → ρ → List α → Taken ρ β
  | 0, _, r, _ => (r, [], 0)
  | _ + 1, _, r, [] => (r, [], 0)
  | fuel + 1, s, r, x :: xs =>
    if o.stop s then (r, [], 0)
    else
      let t := round r (x :: xs)
      andThen t (pollRounds round o fuel (o.after s t.2.1) t.1 ((x :: xs).drop t.2.2))

/-- Take rounds until the input is used up. -/
def runRounds (round : ρ → List α → Taken ρ β) : ℕ → ρ → List α → Taken ρ β
  | 0, r, _ => (r, [], 0)
  | _ + 1, r, [] => (r, [], 0)
  | fuel + 1, r, x :: xs =>
    let t := round r (x :: xs)
    andThen t (runRounds round fuel t.1 ((x :: xs).drop t.2.2))

/-- The observer never asks to stop while there is input left. -/
def Unstopped (round : ρ → List α → Taken ρ β) (o : Observer σ β) : ℕ → σ → ρ → List α → Prop
  | 0, _, _, _ => True
  | _ + 1, _, _, [] => True
  | fuel + 1, s, r, x :: xs =>
    let t := round r (x :: xs)
    o.stop s = false ∧ Unstopped round o fuel (o.after s t.2.1) t.1 ((x :: xs).drop t.2.2)

/-- A round takes at least one element and no more than there are. -/
def Progress (round : ρ → List α → Taken ρ β) : Prop :=
  ∀ r xs, xs ≠ [] → 1 ≤ (round r xs).2.2 ∧ (round r xs).2.2 ≤ xs.length

section
variable {round : ρ → List α → Taken ρ β} (o : Observer σ β)

theorem Progress.drop_length (h : Progress round) (r : ρ) (x : α) (xs : List α) :
    ((x :: xs).drop (round r (x :: xs)).2.2).length ≤ xs.length := by
  have hpos := (h r (x :: xs) (List.cons_ne_nil x xs)).1
  rw [List.length_drop, List.length_cons]
  omega

theorem pollRounds_succ_cons (fuel : ℕ) (s : σ) (r : ρ) (x : α) (xs : List α) :
    pollRounds round o (fuel + 1) s r (x :: xs) =
      if o.stop s then (r, [], 0)
      else
        andThen (round r (x :: xs)) (pollRounds round o fuel (o.after s (round r (x :: xs)).2.1)
          (round r (x :: xs)).1 ((x :: xs).drop (round r (x :: xs)).2.2)) := rfl

variable (round) in
theorem pollRounds_stop {s : σ} (hstop : o.stop s = true) (fuel : ℕ) (r : ρ) (xs : List α) :
    pollRounds round o fuel s r xs = (r, [], 0) := by
  rcases fuel with _ | fuel
  · rfl
  rcases xs with _ | ⟨x, xs⟩
  · rfl
  · rw [pollRounds_succ_cons, if_pos hstop]

variable (round) in
theorem pollRounds_round {s : σ} (hstop : ¬ o.stop s = true) (fuel : ℕ) (r : ρ) (x : α)
    (xs : List α) :
    pollRounds round o (fuel + 1) s r (x :: xs) =
      andThen (round r (x :: xs)) (pollRounds round o fuel (o.after s (round r (x :: xs)).2.1)
        (round r (x :: xs)).1 ((x :: xs).drop (round r (x :: xs)).2.2)) := by
  rw [pollRounds_succ_cons, if_neg hstop]

theorem runRounds_round (fuel : ℕ) (r : ρ) (x : α) (xs : List α) :
    runRounds round (fuel + 1) r (x :: xs) =
      andThen (round r (x :: xs)) (runRounds round fuel (round r (x :: xs)).1
        ((x :: xs).drop (round r (x :: xs)).2.2)) := rfl

theorem unstopped_round (fuel : ℕ) (s : σ) (r : ρ) (x : α) (xs : List α) :
    Unstopped round o (fuel + 1) s r (x :: xs) ↔
      o.stop s = false ∧ Unstopped round o fuel (o.after s (round r (x :: xs)).2.1)
        (round r (x :: xs)).1 ((x :: xs).drop (round r (x :: xs)).2.2) := Iff.rfl

theorem unstopped_of_never (h : ∀ s, o.stop s = false) :
    ∀ (fuel : ℕ) (s : σ) (r : ρ) (xs : List α), Unstopped round o fuel s r xs
  | 0, _, _, _ => trivial
  | _ + 1, _, _, [] => trivial
  | fuel + 1, s, _, _ :: _ => ⟨h s, unstopped_of_never h fuel _ _ _⟩

/-- Fuel for every element is as good as any more. -/
theorem pollRounds_fuel (h : Progress round) {fuel fuel' : ℕ} (s : σ) (r : ρ) {xs : List α}
    (hfuel : xs.length ≤ fuel) (hfuel' : xs.length ≤ fuel') :
    pollRounds round o fuel s r xs = pollRounds round o fuel' s r xs := by
  induction fuel generalizing fuel' s r xs with
  | zero =>
    rw [List.length_eq_zero_iff.mp (Nat.le_zero.mp hfuel)]
    cases fuel' <;> rfl
  | succ fuel ih =>
    rcases xs with _ | ⟨x, xs⟩
    · cases fuel' <;> rfl
    rcases fuel' with _ | fuel'
    · simp at hfuel'
    have hdrop := h.drop_length r x xs
    rw [List.length_cons] at hfuel hfuel'
    by_cases hstop : o.stop s = true
    · rw [pollRounds_stop round o hstop, pollRounds_stop round o hstop]
    · rw [pollRounds_round round o hstop, pollRounds_round round o hstop,
        ih _ _ (by omega) (show _ ≤ fuel' by omega)]

/-- The whole input is taken exactly when nobody asks to stop. -/
theorem pollRounds_taken (h : Progress round) {fuel : ℕ} (s : σ) (r : ρ) {xs : List α}
    (hfuel : xs.length ≤ fuel) :
    (pollRounds round o fuel s r xs).2.2 ≤ xs.length ∧
      ((pollRounds round o fuel s r xs).2.2 = xs.length ↔ Unstopped round o fuel s r xs) := by
  induction fuel generalizing s r xs with
  | zero =>
    rw [List.length_eq_zero_iff.mp (Nat.le_zero.mp hfuel)]
    exact ⟨le_rfl, iff_of_true rfl trivial⟩
  | succ fuel ih =>
    rcases xs with _ | ⟨x, xs⟩
    · exact ⟨le_rfl, iff_of_true rfl trivial⟩
    have hdrop := h.drop_length r x xs
    have hlen := (h r (x :: xs) (List.cons_ne_nil x xs)).2
    rw [List.length_cons] at hfuel
    rw [unstopped_round]
    by_cases hstop : o.stop s = true
    · rw [pollRounds_stop round o hstop]
      simp [hstop]
    · rw [pollRounds_round round o hstop]
      obtain ⟨hle, hiff⟩ := ih (o.after s (round r (x :: xs)).2.1) (round r (x :: xs)).1
        (show ((x :: xs).drop (round r (x :: xs)).2.2).length ≤ fuel by omega)
      rw [List.length_drop] at hle hiff
      rw [andThen, ← hiff]
      simp only [hstop]
      constructor
      · omega
      · constructor
        · intro heq
          exact ⟨trivial, by omega⟩
        · rintro ⟨-, heq⟩
          omega

/-- A loop that is never asked to stop is the plain loop. -/
theorem pollRounds_of_unstopped {fuel : ℕ} {s : σ} {r : ρ} {xs : List α}
    (hun : Unstopped round o fuel s r xs) :
    pollRounds round o fuel s r xs = runRounds round fuel r xs := by
  induction fuel generalizing s r xs with
  | zero => rfl
  | succ fuel ih =>
    rcases xs with _ | ⟨x, xs⟩
    · rfl
    obtain ⟨hstop, hrest⟩ := hun
    rw [pollRounds_round round o (by simp [hstop]), runRounds_round, ih hrest]

theorem runRounds_taken (h : Progress round) {fuel : ℕ} (r : ρ) {xs : List α}
    (hfuel : xs.length ≤ fuel) : (runRounds round fuel r xs).2.2 = xs.length := by
  induction fuel generalizing r xs with
  | zero =>
    rw [List.length_eq_zero_iff.mp (Nat.le_zero.mp hfuel)]
    rfl
  | succ fuel ih =>
    rcases xs with _ | ⟨x, xs⟩
    · rfl
    have hdrop := h.drop_length r x xs
    have hlen := (h r (x :: xs) (List.cons_ne_nil x xs)).2
    rw [List.length_cons] at hfuel
    have hrest := ih (round r (x :: xs)).1
      (show ((x :: xs).drop (round r (x :: xs)).2.2).length ≤ fuel by omega)
    rw [List.length_drop] at hrest
    rw [runRounds_round, andThen, hrest]
    dsimp only
    omega

end

/-! ### Long rounds against short ones -/

/-- A long round is a short one, or, where the short one ends `inside` it, a short one and
then the long round from there. -/
structure Divides (short long : ρ → List α → Taken ρ β) (inside : ρ → List α → Bool) : Prop where
  progress : Progress short
  whole : ∀ r xs, xs ≠ [] → inside r xs = false → long r xs = short r xs
  part : ∀ r xs, xs ≠ [] → inside r xs = true →
    (short r xs).2.2 < xs.length ∧
      long r xs = andThen (short r xs) (long (short r xs).1 (xs.drop (short r xs).2.2))

/-- Up to where the loop of short rounds ends, nobody asks to stop inside a long round. -/
def StopsBetween (short : ρ → List α → Taken ρ β) (inside : ρ → List α → Bool)
    (o : Observer σ β) : ℕ → σ → ρ → List α → Prop
  | 0, _, _, _ => True
  | _ + 1, _, _, [] => True
  | fuel + 1, s, r, x :: xs =>
    let t := short r (x :: xs)
    let s' := o.after s t.2.1
    o.stop s = true ∨
      ((inside r (x :: xs) = true → o.stop s' = false) ∧
        StopsBetween short inside o fuel s' t.1 ((x :: xs).drop t.2.2))

section
variable {short long : ρ → List α → Taken ρ β} {inside : ρ → List α → Bool} (o : Observer σ β)

theorem stopsBetween_round (fuel : ℕ) (s : σ) (r : ρ) (x : α) (xs : List α) :
    StopsBetween short inside o (fuel + 1) s r (x :: xs) ↔
      o.stop s = true ∨
        ((inside r (x :: xs) = true → o.stop (o.after s (short r (x :: xs)).2.1) = false) ∧
          StopsBetween short inside o fuel (o.after s (short r (x :: xs)).2.1)
            (short r (x :: xs)).1 ((x :: xs).drop (short r (x :: xs)).2.2)) := Iff.rfl

theorem Divides.progress_long (h : Divides short long inside) : Progress long := by
  have hmain : ∀ n r (xs : List α), xs.length ≤ n → xs ≠ [] →
      1 ≤ (long r xs).2.2 ∧ (long r xs).2.2 ≤ xs.length := by
    intro n
    induction n with
    | zero =>
      intro r xs hn hne
      exact absurd (List.length_eq_zero_iff.mp (Nat.le_zero.mp hn)) hne
    | succ n ih =>
      intro r xs hn hne
      have hshort := h.progress r xs hne
      by_cases hin : inside r xs = true
      · obtain ⟨hlt, heq⟩ := h.part r xs hne hin
        have hrest := ih (short r xs).1 (xs.drop (short r xs).2.2)
          (by rw [List.length_drop]; omega)
          (by rw [← List.length_pos_iff, List.length_drop]; omega)
        rw [List.length_drop] at hrest
        rw [heq, andThen]
        dsimp only
        omega
      · rw [h.whole r xs hne (by simpa using hin)]
        exact hshort
  exact fun r xs hne => hmain xs.length r xs le_rfl hne

theorem stopsBetween_of_unstopped {fuel : ℕ} {s : σ} {r : ρ} {xs : List α}
    (hp : Progress short) (hin : ∀ r xs, inside r xs = true → (short r xs).2.2 < xs.length)
    (hfuel : xs.length ≤ fuel) (hun : Unstopped short o fuel s r xs) :
    StopsBetween short inside o fuel s r xs := by
  induction fuel generalizing s r xs with
  | zero => trivial
  | succ fuel ih =>
    rcases xs with _ | ⟨x, xs⟩
    · trivial
    obtain ⟨-, hrest⟩ := hun
    have hdrop := hp.drop_length r x xs
    rw [List.length_cons] at hfuel
    refine .inr ⟨fun hinside => ?_, ih (by omega) hrest⟩
    have hlt := hin r (x :: xs) hinside
    have hne : 0 < ((x :: xs).drop (short r (x :: xs)).2.2).length := by
      rw [List.length_drop]
      omega
    generalize (x :: xs).drop (short r (x :: xs)).2.2 = rest at *
    rcases rest with _ | ⟨y, rest⟩
    · simp at hne
    · rcases fuel with _ | fuel
      · simp at hdrop
        omega
      · exact hrest.1

/-- The loop of long rounds does what the loop of short ones does exactly when nobody asks to
stop inside a long round. -/
theorem pollRounds_long_iff (h : Divides short long inside) {fuel : ℕ} (s : σ) (r : ρ)
    {xs : List α} (hfuel : xs.length ≤ fuel) :
    pollRounds long o fuel s r xs = pollRounds short o fuel s r xs ↔
      StopsBetween short inside o fuel s r xs := by
  have hlong := h.progress_long
  induction fuel generalizing s r xs with
  | zero => exact iff_of_true rfl trivial
  | succ fuel ih =>
    rcases xs with _ | ⟨x, xs⟩
    · exact iff_of_true rfl trivial
    have hdrop := h.progress.drop_length r x xs
    have hcons := List.cons_ne_nil x xs
    rw [List.length_cons] at hfuel
    rw [stopsBetween_round]
    by_cases hstop : o.stop s = true
    · simp [pollRounds_stop _ o hstop, hstop]
    have hrest := ih (o.after s (short r (x :: xs)).2.1) (short r (x :: xs)).1
      (show ((x :: xs).drop (short r (x :: xs)).2.2).length ≤ fuel by omega)
    have hshort := pollRounds_round short o hstop fuel r x xs
    have hall := pollRounds_round long o hstop fuel r x xs
    simp only [hstop, Bool.false_eq_true, false_or]
    by_cases hin : inside r (x :: xs) = true
    · obtain ⟨hlt, heq⟩ := h.part r (x :: xs) hcons hin
      rw [List.length_cons] at hlt
      obtain ⟨y, ys, hys⟩ : ∃ y ys, (x :: xs).drop (short r (x :: xs)).2.2 = y :: ys := by
        apply List.exists_cons_of_length_pos
        rw [List.length_drop, List.length_cons]
        omega
      rw [hall, hshort, heq]
      rw [hys] at hrest hdrop ⊢
      generalize short r (x :: xs) = t at *
      obtain ⟨r', out, n⟩ := t
      dsimp only at *
      simp only [hin, forall_const]
      have hlen : (x :: xs).length - n = (y :: ys).length := by rw [← hys, List.length_drop]
      rw [List.length_cons, List.length_cons] at hlen
      have htake := hlong r' (y :: ys) (List.cons_ne_nil y ys)
      rw [List.length_cons] at hdrop htake
      by_cases hs' : o.stop (o.after s out) = true
      · -- the short loop ends here and the long one has a round to go
        have hcount := pollRounds_stop short o hs' fuel r' (y :: ys)
        constructor
        · intro hcontra
          have hn := congrArg (fun t => t.2.2) hcontra
          simp only [andThen, hcount] at hn
          omega
        · rintro ⟨hfalse, -⟩
          rw [hs'] at hfalse
          cases hfalse
      · have hfuel' : fuel = (fuel - 1) + 1 := by omega
        have hstep := pollRounds_round long o hs' (fuel - 1) r' y ys
        rw [← hfuel'] at hstep
        have htail : (x :: xs).drop (n + (long r' (y :: ys)).2.2) =
            (y :: ys).drop (long r' (y :: ys)).2.2 := by
          rw [← hys, List.drop_drop]
        have hjoin : andThen (andThen (r', out, n) (long r' (y :: ys))) (pollRounds long o fuel
              (o.after s (out ++ (long r' (y :: ys)).2.1)) (long r' (y :: ys)).1
              ((y :: ys).drop (long r' (y :: ys)).2.2)) =
            andThen (r', out, n) (pollRounds long o fuel (o.after s out) r' (y :: ys)) := by
          have hle : ((y :: ys).drop (long r' (y :: ys)).2.2).length ≤ fuel - 1 := by
            rw [List.length_drop, List.length_cons]
            omega
          rw [hstep, ← andThen_assoc, o.after_append,
            pollRounds_fuel o hlong _ _ (show _ ≤ fuel by omega) hle]
        simp only [andThen] at hjoin ⊢
        rw [htail, hjoin]
        have hs'' : o.stop (o.after s out) = false := by simpa using hs'
        simp only [hs'', true_and]
        exact (andThen_inj (x := (r', out, n))).trans hrest
    · have heq := h.whole r (x :: xs) hcons (by simpa using hin)
      rw [heq] at hall
      rw [hall, hshort, andThen_inj]
      simp only [hin, Bool.false_eq_true, false_implies, true_and]
      exact hrest

end
end Rio.Rounds
