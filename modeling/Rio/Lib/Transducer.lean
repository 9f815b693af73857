import Mathlib.Data.List.Basic
import Mathlib.Tactic

/-! Machines that take one input at a time and emit a list of outputs. A machine that reads a
whole slice at a time is again such a machine, with slices for inputs, and the results here
say when the two agree. -/
namespace Rio.Transducer

variable {σ α β : Type*}

/-- The state after a list of inputs and everything emitted on the way. -/
def run (step : σ → α → σ × List β) : σ → List α → σ × List β
  | s, [] => (s, [])
  | s, x :: xs => ((run step (step s x).1 xs).1, (step s x).2 ++ (run step (step s x).1 xs).2)

/-- A result with more output in front. -/
def emit (pre : List β) (out : σ × List β) : σ × List β := (out.1, pre ++ out.2)

/-- `ok` holds of every state a run goes through together with the input read there. -/
def AllSteps (step : σ → α → σ × List β) (ok : σ → α → Prop) : σ → List α → Prop
  | _, [] => True
  | s, x :: xs => ok s x ∧ AllSteps step ok (step s x).1 xs

@[simp] theorem emit_nil (out : σ × List β) : emit [] out = out := rfl

@[simp] theorem emit_emit (xs ys : List β) (out : σ × List β) :
    emit xs (emit ys out) = emit (xs ++ ys) out := by
  simp [emit]

@[simp] theorem run_nil (step : σ → α → σ × List β) (s : σ) : run step s [] = (s, []) := rfl

theorem run_cons (step : σ → α → σ × List β) (s : σ) (x : α) (xs : List α) :
    run step s (x :: xs) = emit (step s x).2 (run step (step s x).1 xs) := rfl

@[simp] theorem run_singleton (step : σ → α → σ × List β) (s : σ) (x : α) :
    run step s [x] = step s x := by
  simp [run_cons, emit]

theorem run_append (step : σ → α → σ × List β) (s : σ) (xs ys : List α) :
    run step s (xs ++ ys) = emit (run step s xs).2 (run step (run step s xs).1 ys) := by
  induction xs generalizing s with
  | nil => rfl
  | cons x xs ih => rw [List.cons_append, run_cons, ih, run_cons, emit_emit]; rfl

/-- An invariant that every permitted step keeps holds at the end of a run of such steps. -/
theorem run_invariant {step : σ → α → σ × List β} {I : σ → Prop} {ok : σ → α → Prop}
    (hstep : ∀ s x, I s → ok s x → I (step s x).1) :
    ∀ (xs : List α) (s : σ), I s → AllSteps step ok s xs → I (run step s xs).1
  | [], _, hs, _ => hs
  | x :: xs, s, hs, hok => run_invariant hstep xs _ (hstep s x hs hok.1) hok.2

/-- A slice machine that does on each permitted slice what the unit machine does on its
elements does on a list of slices what the unit machine does on the whole input. -/
theorem run_slices {step : σ → α → σ × List β} {slice : σ → List α → σ × List β}
    {I : σ → Prop} {ok : σ → List α → Prop}
    (hslice : ∀ s xs, I s → ok s xs → slice s xs = run step s xs)
    (hinv : ∀ s xs, I s → I (run step s xs).1) :
    ∀ (xss : List (List α)) (s : σ), I s → AllSteps slice ok s xss →
      run slice s xss = run step s xss.flatten
  | [], _, _, _ => rfl
  | xs :: xss, s, hs, hok => by
    have hx := hslice s xs hs hok.1
    have hrest := run_slices hslice hinv xss (slice s xs).1 (hx ▸ hinv s xs hs) hok.2
    rw [run_cons, List.flatten_cons, run_append, hrest, hx]

end Rio.Transducer
