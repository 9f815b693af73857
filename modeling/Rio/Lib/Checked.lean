import Mathlib.Data.List.Basic
import Mathlib.Tactic

/-! Computations that stop at a read behind the end of a slice and at arithmetic that leaves
its type, and when they do not. -/
namespace Rio.Checked

inductive Fault
  | index
  | overflow
  | divideByZero
  deriving DecidableEq, Repr

abbrev Outcome := Except Fault

universe u
variable {α β σ : Type u}

/-- `xs[i]` -/
def read (xs : List α) (i : ℕ) : Outcome α :=
  match xs[i]? with
  | some x => .ok x
  | none => .error .index

/-- `xs[i..]` -/
def sliceFrom (xs : List α) (i : ℕ) : Outcome (List α) :=
  if i ≤ xs.length then .ok (xs.drop i) else .error .index

/-- `xs[i..j]` -/
def slice (xs : List α) (i j : ℕ) : Outcome (List α) :=
  if i ≤ j ∧ j ≤ xs.length then .ok ((xs.drop i).take (j - i)) else .error .index

/-- Subtraction of unsigned numbers. -/
def sub (a b : ℕ) : Outcome ℕ := if b ≤ a then .ok (a - b) else .error .overflow

/-- A result that fits `bits` bits. -/
def fit (bits n : ℕ) : Outcome ℕ := if n < 2 ^ bits then .ok n else .error .overflow

/-- A shift of a word of `bits` bits. -/
def shiftRight (bits n k : ℕ) : Outcome ℕ :=
  if k < bits then .ok (n >>> k) else .error .overflow

def div (a b : ℕ) : Outcome ℕ := if b = 0 then .error .divideByZero else .ok (a / b)

/-- The outputs of a loop over a list. -/
def collect (f : α → Outcome (List β)) : List α → Outcome (List β)
  | [] => .ok []
  | x :: xs => do
    let first ← f x
    let rest ← collect f xs
    return first ++ rest

/-- The computation runs to its end. -/
def Safe (x : Outcome α) : Prop := ∃ a, x = .ok a

@[simp] theorem safe_ok (a : α) : Safe (.ok a : Outcome α) := ⟨a, rfl⟩

@[simp] theorem safe_pure (a : α) : Safe (pure a : Outcome α) := ⟨a, rfl⟩

@[simp] theorem not_safe_error (e : Fault) : ¬ Safe (.error e : Outcome α) := by
  rintro ⟨a, h⟩
  cases h

theorem safe_bind_iff {x : Outcome α} {f : α → Outcome β} :
    Safe (x >>= f) ↔ ∃ a, x = .ok a ∧ Safe (f a) := by
  cases x with
  | error e =>
    constructor
    · rintro ⟨b, h⟩
      cases h
    · rintro ⟨a, h, -⟩
      cases h
  | ok a =>
    constructor
    · exact fun h => ⟨a, rfl, h⟩
    · rintro ⟨b, h, hf⟩
      cases h
      exact hf

@[simp] theorem ok_bind (a : α) (f : α → Outcome β) : (.ok a >>= f : Outcome β) = f a := rfl

theorem Safe.bind {x : Outcome α} {f : α → Outcome β} (hx : Safe x) (hf : ∀ a, Safe (f a)) :
    Safe (x >>= f) := by
  obtain ⟨a, h⟩ := hx
  exact safe_bind_iff.mpr ⟨a, h, hf a⟩

/-- What follows cannot stop, so only the first part can. -/
theorem safe_bind_total {x : Outcome α} {f : α → Outcome β} (hf : ∀ a, Safe (f a)) :
    Safe (x >>= f) ↔ Safe x := by
  rw [safe_bind_iff]
  exact ⟨fun ⟨a, h, _⟩ => ⟨a, h⟩, fun ⟨a, h⟩ => ⟨a, h, hf a⟩⟩

theorem safe_ite_of {c : Prop} [Decidable c] {x y : Outcome α} (hx : c → Safe x)
    (hy : ¬ c → Safe y) : Safe (if c then x else y) := by
  split
  next h => exact hx h
  next h => exact hy h

theorem safe_ite {c : Prop} [Decidable c] {x y : Outcome α} (hx : Safe x) (hy : Safe y) :
    Safe (if c then x else y) := safe_ite_of (fun _ => hx) fun _ => hy

theorem read_of_lt {xs : List α} {i : ℕ} (hi : i < xs.length) : read xs i = .ok xs[i] := by
  rw [read, List.getElem?_eq_getElem hi]

theorem safe_read_iff {xs : List α} {i : ℕ} : Safe (read xs i) ↔ i < xs.length := by
  constructor
  · intro h
    by_contra hi
    rw [read, List.getElem?_eq_none (Nat.le_of_not_lt hi)] at h
    exact not_safe_error _ h
  · exact fun hi => ⟨_, read_of_lt hi⟩

theorem sliceFrom_of_le {xs : List α} {i : ℕ} (hi : i ≤ xs.length) :
    sliceFrom xs i = .ok (xs.drop i) := if_pos hi

theorem slice_of_le {xs : List α} {i j : ℕ} (hij : i ≤ j) (hj : j ≤ xs.length) :
    slice xs i j = .ok ((xs.drop i).take (j - i)) := if_pos ⟨hij, hj⟩

theorem sub_of_le {a b : ℕ} (h : b ≤ a) : sub a b = .ok (a - b) := if_pos h

theorem fit_of_lt {bits n : ℕ} (h : n < 2 ^ bits) : fit bits n = .ok n := if_pos h

theorem safe_shiftRight_iff {bits n k : ℕ} : Safe (shiftRight bits n k) ↔ k < bits := by
  unfold shiftRight
  split
  next h => simp [h]
  next h => simp [h]

theorem div_of_ne_zero {a b : ℕ} (h : b ≠ 0) : div a b = .ok (a / b) := if_neg h

theorem safe_collect_iff {f : α → Outcome (List β)} {xs : List α} :
    Safe (collect f xs) ↔ ∀ x ∈ xs, Safe (f x) := by
  induction xs with
  | nil => simp [collect]
  | cons x xs ih =>
    rw [collect, safe_bind_iff, List.forall_mem_cons]
    constructor
    · rintro ⟨a, ha, hrest⟩
      exact ⟨⟨a, ha⟩, ih.mp ((safe_bind_total fun _ => safe_pure _).mp hrest)⟩
    · rintro ⟨⟨a, ha⟩, hrest⟩
      exact ⟨a, ha, (safe_bind_total fun _ => safe_pure _).mpr (ih.mpr hrest)⟩

theorem collect_ok {f : α → Outcome (List β)} {g : α → List β} {xs : List α}
    (h : ∀ x ∈ xs, f x = .ok (g x)) : collect f xs = .ok (xs.flatMap g) := by
  induction xs with
  | nil => rfl
  | cons x xs ih =>
    obtain ⟨hx, hxs⟩ := List.forall_mem_cons.mp h
    rw [collect, hx, ih hxs, List.flatMap_cons]
    rfl

theorem safe_foldlM_iff {f : σ → α → Outcome σ} {ok : α → Prop} :
    ∀ {xs : List α} {s : σ}, (∀ s, ∀ x ∈ xs, Safe (f s x) ↔ ok x) →
      (Safe (xs.foldlM f s) ↔ ∀ x ∈ xs, ok x)
  | [], s, _ => iff_of_true (safe_ok s) nofun
  | x :: xs, s, hf => by
    have hrest (s : σ) : Safe (xs.foldlM f s) ↔ ∀ x ∈ xs, ok x :=
      safe_foldlM_iff fun s y hy => hf s y (List.mem_cons_of_mem x hy)
    have hx := hf s x List.mem_cons_self
    rw [List.foldlM_cons, safe_bind_iff, List.forall_mem_cons]
    constructor
    · rintro ⟨s', hs', hs⟩
      exact ⟨hx.mp ⟨s', hs'⟩, (hrest s').mp hs⟩
    · rintro ⟨hok, hall⟩
      obtain ⟨s', hs'⟩ := hx.mpr hok
      exact ⟨s', hs', (hrest s').mpr hall⟩

theorem foldlM_congr {f g : σ → α → Outcome σ} :
    ∀ {xs : List α} {s : σ}, (∀ s, ∀ x ∈ xs, f s x = g s x) → xs.foldlM f s = xs.foldlM g s
  | [], _, _ => rfl
  | x :: xs, s, hfg => by
    rw [List.foldlM_cons, List.foldlM_cons, hfg s x List.mem_cons_self]
    exact bind_congr fun s' => foldlM_congr fun s y hy => hfg s y (List.mem_cons_of_mem x hy)

theorem ok_of_bind {x : Outcome α} {f : α → Outcome β} {b : β} (h : x >>= f = .ok b) :
    ∃ a, x = .ok a ∧ f a = .ok b := by
  cases x with
  | error e => cases h
  | ok a => exact ⟨a, rfl, h⟩

/-- Two loops whose outputs have the same lengths agree only if all of their outputs do. -/
theorem collect_inj {f g : α → Outcome (List β)} :
    ∀ {xs : List α}, (∀ x ∈ xs, ∀ a b, f x = .ok a → g x = .ok b → a.length = b.length) →
      Safe (collect f xs) → collect f xs = collect g xs → ∀ x ∈ xs, f x = g x
  | [], _, _, _ => nofun
  | x :: xs, hlen, ⟨out, hout⟩, heq => by
    obtain ⟨a, ha, hrest⟩ := ok_of_bind hout
    obtain ⟨as, has, hout'⟩ := ok_of_bind hrest
    obtain ⟨b, hb, hrest'⟩ := ok_of_bind (heq.symm.trans hout)
    obtain ⟨bs, hbs, hout''⟩ := ok_of_bind hrest'
    have hparts : a ++ as = b ++ bs :=
      (Except.ok.inj hout').trans (Except.ok.inj hout'').symm
    obtain ⟨hab, hrests⟩ := List.append_inj hparts (hlen x List.mem_cons_self a b ha hb)
    intro y hy
    obtain rfl | hy := List.mem_cons.mp hy
    · rw [ha, hb, hab]
    · refine collect_inj (fun z hz => hlen z (List.mem_cons_of_mem x hz)) ⟨as, has⟩ ?_ y hy
      rw [has, hbs, hrests]

theorem collect_congr {f g : α → Outcome (List β)} :
    ∀ {xs : List α}, (∀ x ∈ xs, f x = g x) → collect f xs = collect g xs
  | [], _ => rfl
  | x :: xs, h => by
    rw [collect, collect, h x List.mem_cons_self,
      collect_congr fun y hy => h y (List.mem_cons_of_mem x hy)]

theorem collect_concat (f : α → Outcome (List β)) (x : α) : ∀ xs : List α,
    collect f (xs ++ [x]) = collect f xs >>= fun out => f x >>= fun last => .ok (out ++ last)
  | [] => by
    show f x >>= (fun first => .ok (first ++ [])) = f x >>= fun last => .ok ([] ++ last)
    simp only [List.append_nil, List.nil_append]
  | y :: ys => by
    rw [List.cons_append, collect, collect, collect_concat f x ys]
    simp only [bind_assoc, ok_bind, pure_bind, List.append_assoc]
    rfl

/-- A loop runs to its end with the outputs of another one. -/
theorem collect_agrees_iff {f g : α → Outcome (List β)} {xs : List α}
    (hlen : ∀ x ∈ xs, ∀ a b, f x = .ok a → g x = .ok b → a.length = b.length) :
    Safe (collect f xs) ∧ collect g xs = collect f xs ↔ ∀ x ∈ xs, Safe (f x) ∧ g x = f x := by
  constructor
  · rintro ⟨hsafe, heq⟩ x hx
    exact ⟨safe_collect_iff.mp hsafe x hx, (collect_inj hlen hsafe heq.symm x hx).symm⟩
  · intro hall
    refine ⟨safe_collect_iff.mpr fun x hx => (hall x hx).1, ?_⟩
    exact collect_congr fun x hx => (hall x hx).2

end Rio.Checked
