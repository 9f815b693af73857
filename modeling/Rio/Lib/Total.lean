import Mathlib.Data.List.DropRight
import Rio.Lib.Ring

/-! The total weight of the elements of a list, and what the operations on lists do to it. -/
namespace Rio
open Rio.Ring

variable {β : Type*} {w : β → ℕ}

/-- The weights of the elements added up. -/
def total (w : β → ℕ) (l : List β) : ℕ := (l.map w).sum

@[simp] theorem total_nil : total w [] = 0 := rfl

@[simp] theorem total_cons (x : β) (l : List β) : total w (x :: l) = w x + total w l := by
  unfold total
  rw [List.map_cons, List.sum_cons]

@[simp] theorem total_append (l l' : List β) : total w (l ++ l') = total w l + total w l' := by
  unfold total
  rw [List.map_append, List.sum_append]

theorem total_perm {l l' : List β} (h : l.Perm l') : total w l = total w l' :=
  (h.map w).sum_eq

theorem total_sublist_le {l l' : List β} (h : l.Sublist l') : total w l ≤ total w l' :=
  (h.map w).sum_le_sum fun _ _ => Nat.zero_le _

theorem total_take_add_drop (n : ℕ) (l : List β) :
    total w (l.take n) + total w (l.drop n) = total w l := by
  rw [← total_append, List.take_append_drop]

theorem total_reverse (l : List β) : total w l.reverse = total w l :=
  total_perm l.reverse_perm

theorem total_rotate (l : List β) (n : ℕ) : total w (l.rotate n) = total w l :=
  total_perm (l.rotate_perm n)

theorem swapAt_perm (l : List β) (i j : ℕ) : (swapAt l i j).Perm l := by
  by_cases hi : i < l.length
  · by_cases hj : j < l.length
    · rw [swapAt_of_lt hi hj]
      exact List.set_set_perm hi hj
    · simp [swapAt, List.getElem?_eq_none (Nat.le_of_not_lt hj)]
  · simp [swapAt, List.getElem?_eq_none (Nat.le_of_not_lt hi)]

theorem total_swapAt (l : List β) (i j : ℕ) : total w (swapAt l i j) = total w l :=
  total_perm (swapAt_perm l i j)

theorem total_replicate_of_zero {x : β} (hx : w x = 0) (n : ℕ) :
    total w (List.replicate n x) = 0 := by
  unfold total
  rw [List.map_replicate, hx, List.sum_replicate, smul_zero]

theorem total_modify_le {f : β → β} (hf : ∀ x, w (f x) ≤ w x) (l : List β) :
    ∀ i, total w (l.modify i f) ≤ total w l := by
  induction l with
  | nil => exact fun i => by simp
  | cons x l ih =>
    intro i
    have hx := hf x
    cases i with
    | zero =>
      rw [List.modify_zero_cons, total_cons, total_cons]
      omega
    | succ i =>
      have hl := ih i
      rw [List.modify_succ_cons, total_cons, total_cons]
      omega

/-- The weight of an element that is written goes away, and that of what is written is added. -/
theorem total_modify_add_le {d : β} (hd : w d = 0) (f : β → β) (l : List β) :
    ∀ i, total w (l.modify i f) + w (l.getD i d) ≤ total w l + w (f (l.getD i d)) := by
  induction l with
  | nil => exact fun i => by simp [hd]
  | cons y l ih =>
    intro i
    cases i with
    | zero =>
      rw [List.modify_zero_cons, total_cons, total_cons, List.getD_cons_zero]
      omega
    | succ i =>
      have hl := ih i
      rw [List.modify_succ_cons, total_cons, total_cons, List.getD_cons_succ]
      omega

theorem total_map_le {f : β → β} (hf : ∀ x, w (f x) ≤ w x) (l : List β) :
    total w (l.map f) ≤ total w l := by
  induction l with
  | nil => exact le_rfl
  | cons x l ih =>
    have hx := hf x
    rw [List.map_cons, total_cons, total_cons]
    omega

theorem total_mapIdx_le {f : ℕ → β → β} (hf : ∀ i x, w (f i x) ≤ w x) (l : List β) :
    total w (l.mapIdx f) ≤ total w l := by
  induction l generalizing f with
  | nil => exact le_rfl
  | cons x l ih =>
    have hx := hf 0 x
    have hl := ih (f := fun i => f (i + 1)) fun i => hf (i + 1)
    rw [List.mapIdx_cons, total_cons, total_cons]
    omega

theorem total_rdropWhile_le (p : β → Bool) (l : List β) :
    total w (l.rdropWhile p) ≤ total w l :=
  total_sublist_le (List.rdropWhile_prefix p l).sublist

theorem le_total_of_mem {x : β} {l : List β} (hx : x ∈ l) : w x ≤ total w l :=
  List.single_le_sum (fun _ _ => Nat.zero_le _) _ (List.mem_map_of_mem hx)

/-- No element has weight. -/
theorem total_eq_zero_iff {l : List β} : total w l = 0 ↔ ∀ x ∈ l, w x = 0 := by
  induction l with
  | nil => simp
  | cons x l ih => simp [ih]

/-- The elements that satisfy a predicate and those that do not. -/
theorem total_filter_add (p : β → Bool) (l : List β) :
    total w (l.filter p) + total w (l.filter fun x => !p x) = total w l := by
  rw [← total_append]
  exact total_perm (List.filter_append_perm p l)

theorem total_filter_not_eq_zero_iff {p : β → Bool} {l : List β} :
    total w (l.filter fun x => !p x) = 0 ↔ ∀ x ∈ l, p x = false → w x = 0 := by
  rw [total_eq_zero_iff]
  simp only [List.mem_filter, Bool.not_eq_true', and_imp]

end Rio
