import Mathlib.Order.Filter.AtTopBot.Basic
import Rio.Lib.Checked

/-! Loops that end, among computations that may stop at a fault. -/
namespace Rio.Checked
open Filter

universe u
variable {α β σ : Type u}

/-- A loop of at most so many turns; a turn goes on with a new state or ends with a result. -/
def loop (turn : σ → Outcome (σ ⊕ α)) : ℕ → σ → Outcome α
  | 0, _ => .error .index
  | fuel + 1, s => do
    match ← turn s with
    | .inl s => loop turn fuel s
    | .inr a => return a

/-- A computation has a result if its loops may make enough turns. -/
def Ends (x : ℕ → Outcome α) (a : α) : Prop := ∀ᶠ fuel in atTop, x fuel = .ok a

variable {x : ℕ → Outcome α} {f : ℕ → α → Outcome β} {a a' : α} {b : β}

theorem Ends.of_ok (h : ∀ fuel, x fuel = .ok a) : Ends x a := Eventually.of_forall h

theorem Ends.const {y : Outcome α} (h : y = .ok a) : Ends (fun _ => y) a := .of_ok fun _ => h

theorem Ends.bind (hx : Ends x a) (hf : Ends (fun fuel => f fuel a) b) :
    Ends (fun fuel => x fuel >>= f fuel) b := by
  filter_upwards [hx, hf] with fuel hx hf
  rw [hx]
  exact hf

theorem Ends.unique (h : Ends x a) (h' : Ends x a') : a = a' := by
  obtain ⟨fuel, heq, heq'⟩ := (h.and h').exists
  exact Except.ok.inj (heq.symm.trans heq')

theorem not_ends (h : ∀ fuel, ¬ Safe (x fuel)) : ¬ Ends x a := by
  intro hends
  obtain ⟨fuel, heq⟩ := hends.exists
  exact h fuel ⟨a, heq⟩

/-- More turns do not change a result. -/
def Settles (x : ℕ → Outcome α) : Prop := ∀ fuel a, x fuel = .ok a → Ends x a

theorem Settles.bind (hx : Settles x) (hf : ∀ a, Settles fun fuel => f fuel a) :
    Settles fun fuel => x fuel >>= f fuel := by
  intro fuel b h
  obtain ⟨a, ha, hb⟩ := ok_of_bind h
  exact (hx fuel a ha).bind (hf a fuel b hb)

theorem Settles.const (y : Outcome α) : Settles fun _ => y := fun _ _ h => .const h

theorem Ends.of_bind (hx : Settles x) (h : Ends (fun fuel => x fuel >>= f fuel) b) :
    ∃ a, Ends x a ∧ Ends (fun fuel => f fuel a) b := by
  obtain ⟨fuel, heq⟩ := h.exists
  obtain ⟨a, ha, -⟩ := ok_of_bind heq
  refine ⟨a, hx fuel a ha, ?_⟩
  filter_upwards [hx fuel a ha, h] with n hn hb
  rw [hn] at hb
  exact hb

/-! ### Loops -/

variable {turn : σ → Outcome (σ ⊕ α)} {s s' : σ}

theorem loop_succ (turn : σ → Outcome (σ ⊕ α)) (fuel : ℕ) (s : σ) :
    loop turn (fuel + 1) s = turn s >>= fun
      | .inl s => loop turn fuel s
      | .inr a => return a := rfl

theorem loop_done (h : turn s = .ok (.inr a)) (fuel : ℕ) : loop turn (fuel + 1) s = .ok a := by
  rw [loop_succ, h]
  rfl

theorem loop_again (h : turn s = .ok (.inl s')) (fuel : ℕ) :
    loop turn (fuel + 1) s = loop turn fuel s' := by
  rw [loop_succ, h]
  rfl

theorem ends_loop_of_done (h : turn s = .ok (.inr a)) : Ends (fun fuel => loop turn fuel s) a := by
  filter_upwards [eventually_ge_atTop 1] with fuel hfuel
  obtain ⟨n, rfl⟩ := Nat.exists_eq_add_of_le' hfuel
  exact loop_done h n

theorem ends_loop_of_again (h : turn s = .ok (.inl s'))
    (hs' : Ends (fun fuel => loop turn fuel s') a) : Ends (fun fuel => loop turn fuel s) a := by
  obtain ⟨n, hn⟩ := eventually_atTop.mp hs'
  refine eventually_atTop.mpr ⟨n + 1, fun fuel hfuel => ?_⟩
  obtain ⟨m, rfl⟩ := Nat.exists_eq_add_of_le' (Nat.le_of_add_left_le hfuel)
  exact (loop_again h m).trans (hn m (Nat.le_of_succ_le_succ hfuel))

theorem settles_loop (turn : σ → Outcome (σ ⊕ α)) (s : σ) :
    Settles fun fuel => loop turn fuel s := by
  intro fuel
  induction fuel generalizing s with
  | zero => exact fun a h => absurd h nofun
  | succ fuel ih =>
    intro a h
    obtain ⟨next, hnext, hrest⟩ := ok_of_bind h
    cases next with
    | inl s' => exact ends_loop_of_again hnext (ih s' a hrest)
    | inr a' =>
      obtain rfl := Except.ok.inj hrest
      exact ends_loop_of_done hnext

/-- A loop ends if each turn keeps an invariant and makes a variant smaller. -/
theorem exists_ends_loop (inv : σ → Prop) (post : α → Prop) (variant : σ → ℕ)
    (hturn : ∀ s, inv s → (∃ s', turn s = .ok (.inl s') ∧ inv s' ∧ variant s' < variant s) ∨
      ∃ a, turn s = .ok (.inr a) ∧ post a) (s : σ) (hs : inv s) :
    ∃ a, Ends (fun fuel => loop turn fuel s) a ∧ post a := by
  induction hn : variant s using Nat.strong_induction_on generalizing s with
  | _ n ih =>
    obtain ⟨s', heq, hs', hless⟩ | ⟨a, heq, ha⟩ := hturn s hs
    · obtain ⟨a, hends, ha⟩ := ih (variant s') (hn ▸ hless) s' hs' rfl
      exact ⟨a, ends_loop_of_again heq hends, ha⟩
    · exact ⟨a, ends_loop_of_done heq, ha⟩

/-- A loop has no result if an invariant keeps every turn from ending it. -/
theorem not_safe_loop (inv : σ → Prop)
    (hturn : ∀ s, inv s → ¬ Safe (turn s) ∨ ∃ s', turn s = .ok (.inl s') ∧ inv s') :
    ∀ (fuel : ℕ) (s : σ), inv s → ¬ Safe (loop turn fuel s)
  | 0, _, _ => not_safe_error _
  | fuel + 1, s, hs => by
    obtain hfault | ⟨s', heq, hs'⟩ := hturn s hs
    · intro hsafe
      obtain ⟨turned, hturned, -⟩ := safe_bind_iff.mp hsafe
      exact hfault ⟨turned, hturned⟩
    · rw [loop_again heq]
      exact not_safe_loop inv hturn fuel s' hs'

/-! ### Searches through lists -/

section Lists
variable {γ : Type} {check : γ → Outcome Bool} {xs : List γ}

theorem findM_ok {pred : γ → Bool} (h : ∀ x ∈ xs, check x = .ok (pred x)) :
    xs.findM? check = .ok (xs.find? pred) := by
  induction xs with
  | nil => rfl
  | cons x xs ih =>
    obtain ⟨hx, hxs⟩ := List.forall_mem_cons.mp h
    rw [List.findM?, hx, ok_bind, List.find?_cons]
    cases pred x with
    | true => rfl
    | false => exact ih hxs

theorem not_safe_findM (hne : xs ≠ []) (h : ∀ x ∈ xs, ¬ Safe (check x)) :
    ¬ Safe (xs.findM? check) := by
  cases xs with
  | nil => exact absurd rfl hne
  | cons x xs =>
    intro hsafe
    rw [List.findM?] at hsafe
    obtain ⟨b, hb, -⟩ := safe_bind_iff.mp hsafe
    exact h x List.mem_cons_self ⟨b, hb⟩

/-- The last of the numbers below `n` with a property is no smaller than any other. -/
theorem exists_find_reverse_range {pred : ℕ → Bool} {k : ℕ} (hk : pred k = true) :
    ∀ {n : ℕ}, k < n → ∃ m, (List.range n).reverse.find? pred = some m ∧ k ≤ m
  | 0, hlt => absurd hlt (Nat.not_lt_zero _)
  | n + 1, hlt => by
    rw [List.range_succ, List.reverse_append, List.reverse_singleton, List.singleton_append,
      List.find?_cons]
    cases hlast : pred n with
    | true => exact ⟨n, rfl, Nat.le_of_lt_succ hlt⟩
    | false =>
      have hne : k ≠ n := by
        rintro rfl
        rw [hk] at hlast
        cases hlast
      exact exists_find_reverse_range hk (by omega)

end Lists

end Rio.Checked
