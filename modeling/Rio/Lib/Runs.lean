import Mathlib.Data.List.Basic
import Mathlib.Tactic

/-! Runs of a machine given by a step function, each step of which may be subject to a
condition on the state before it. -/
namespace Rio.Runs

variable {σ τ ι : Type*}

/-- `ok` holds before every step of the run. -/
def Permitted (step : σ → ι → σ) (ok : σ → ι → Prop) : σ → List ι → Prop
  | _, [] => True
  | s, x :: xs => ok s x ∧ Permitted step ok (step s x) xs

theorem Permitted.mono {step : σ → ι → σ} {ok ok' : σ → ι → Prop}
    (himp : ∀ s x, ok s x → ok' s x) :
    ∀ {xs : List ι} {s : σ}, Permitted step ok s xs → Permitted step ok' s xs
  | [], _, _ => trivial
  | _ :: _, _, h => ⟨himp _ _ h.1, h.2.mono himp⟩

theorem Permitted.and {step : σ → ι → σ} {ok ok' : σ → ι → Prop} :
    ∀ {xs : List ι} {s : σ}, Permitted step ok s xs → Permitted step ok' s xs →
      Permitted step (fun s x => ok s x ∧ ok' s x) s xs
  | [], _, _, _ => trivial
  | _ :: _, _, h, h' => ⟨⟨h.1, h'.1⟩, h.2.and h'.2⟩

/-- A condition on the inputs alone. -/
theorem Permitted.of_forall {step : σ → ι → σ} {ok : ι → Prop} :
    ∀ {xs : List ι} {s : σ}, (∀ x ∈ xs, ok x) → Permitted step (fun _ x => ok x) s xs
  | [], _, _ => trivial
  | x :: _, _, h =>
    ⟨h x List.mem_cons_self, of_forall fun y hy => h y (List.mem_cons_of_mem x hy)⟩

theorem Permitted.of_always {step : σ → ι → σ} {ok : σ → ι → Prop} (h : ∀ s x, ok s x) :
    ∀ (xs : List ι) (s : σ), Permitted step ok s xs
  | [], _ => trivial
  | x :: xs, s => ⟨h s x, of_always h xs (step s x)⟩

instance {step : σ → ι → σ} {ok : σ → ι → Prop} [∀ s x, Decidable (ok s x)] :
    ∀ (xs : List ι) (s : σ), Decidable (Permitted step ok s xs)
  | [], _ => isTrue trivial
  | x :: xs, s =>
    have : Decidable (Permitted step ok (step s x) xs) := instDecidablePermitted xs (step s x)
    inferInstanceAs (Decidable (_ ∧ _))

/-- An invariant that every permitted step keeps holds at the end of a permitted run. -/
theorem invariant {step : σ → ι → σ} {ok : σ → ι → Prop} {I : σ → Prop}
    (hstep : ∀ s x, I s → ok s x → I (step s x)) :
    ∀ (xs : List ι) (s : σ), I s → Permitted step ok s xs → I (xs.foldl step s)
  | [], _, hs, _ => hs
  | x :: xs, s, hs, hok => invariant hstep xs (step s x) (hstep s x hs hok.1) hok.2

/-- A condition that implies another in the states that an invariant holds in. -/
theorem Permitted.mono_of_invariant {step : σ → ι → σ} {ok ok' : σ → ι → Prop} {I : σ → Prop}
    (hstep : ∀ s x, I s → ok s x → I (step s x)) (himp : ∀ s x, I s → ok s x → ok' s x) :
    ∀ {xs : List ι} {s : σ}, I s → Permitted step ok s xs → Permitted step ok' s xs
  | [], _, _, _ => trivial
  | _ :: _, _, hs, h => ⟨himp _ _ hs h.1, mono_of_invariant hstep himp (hstep _ _ hs h.1) h.2⟩

/-- Two conditions that agree in the states that either of them leads to permit the same runs. -/
theorem permitted_congr {step : σ → ι → σ} {p : ι → Prop} {ok ok' : σ → ι → Prop} {I : σ → Prop}
    (hstep : ∀ s x, I s → p x → ok s x → I (step s x))
    (hiff : ∀ s x, I s → p x → (ok s x ↔ ok' s x)) :
    ∀ (xs : List ι) (s : σ), (∀ x ∈ xs, p x) → I s →
      (Permitted step ok s xs ↔ Permitted step ok' s xs)
  | [], _, _, _ => Iff.rfl
  | x :: xs, s, hp, hs => by
    have hx := hp x List.mem_cons_self
    have hrest (hok : ok s x) := permitted_congr hstep hiff xs (step s x)
      (fun y hy => hp y (List.mem_cons_of_mem x hy)) (hstep s x hs hx hok)
    constructor
    · exact fun h => ⟨(hiff s x hs hx).mp h.1, (hrest h.1).mp h.2⟩
    · intro h
      have hok := (hiff s x hs hx).mpr h.1
      exact ⟨hok, (hrest hok).mpr h.2⟩

/-- A machine simulated step by step is simulated over permitted runs. -/
theorem simulation {step : σ → ι → σ} {ok : σ → ι → Prop} {I : σ → Prop}
    {step' : τ → ι → τ} {view : σ → τ} (hinv : ∀ s x, I s → ok s x → I (step s x))
    (hsim : ∀ s x, I s → ok s x → view (step s x) = step' (view s) x) :
    ∀ (xs : List ι) (s : σ), I s → Permitted step ok s xs →
      view (xs.foldl step s) = xs.foldl step' (view s)
  | [], _, _, _ => rfl
  | x :: xs, s, hs, hok => by
    rw [List.foldl_cons, List.foldl_cons, ← hsim s x hs hok.1]
    exact simulation hinv hsim xs (step s x) (hinv s x hs hok.1) hok.2

end Rio.Runs
