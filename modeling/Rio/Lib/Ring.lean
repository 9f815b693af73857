import Mathlib.Data.List.Rotate
import Mathlib.Tactic

/-! Lists read as rings: a list `l` with a start `z` stands for `l.rotate z`. Element
updates at a wrapped index are the same updates of the rotated list. -/
namespace Rio.Ring

variable {α : Type*}

/-- Exchange two elements; nothing happens if one of them is missing. -/
def swapAt (l : List α) (i j : ℕ) : List α :=
  match l[i]?, l[j]? with
  | some x, some y => (l.set i y).set j x
  | _, _ => l

@[simp] theorem length_swapAt (l : List α) (i j : ℕ) : (swapAt l i j).length = l.length := by
  unfold swapAt
  split
  · simp
  · rfl

theorem swapAt_of_lt {l : List α} {i j : ℕ} (hi : i < l.length) (hj : j < l.length) :
    swapAt l i j = (l.set i l[j]).set j l[i] := by
  unfold swapAt
  rw [List.getElem?_eq_getElem hi, List.getElem?_eq_getElem hj]

theorem getElem?_swapAt {l : List α} {i j : ℕ} (hi : i < l.length) (hj : j < l.length) (k : ℕ) :
    (swapAt l i j)[k]? = if k = j then l[i]? else if k = i then l[j]? else l[k]? := by
  rw [swapAt_of_lt hi hj, List.getElem?_set, List.getElem?_set]
  by_cases hkj : k = j
  · subst hkj
    simp [hi, hj]
  · by_cases hki : k = i
    · subst hki
      simp [hi, hj, hkj, Ne.symm hkj]
    · simp [hkj, hki, Ne.symm hkj, Ne.symm hki]

theorem swapAt_comm (l : List α) (i j : ℕ) : swapAt l i j = swapAt l j i := by
  by_cases hi : i < l.length
  · by_cases hj : j < l.length
    · rw [swapAt_of_lt hi hj, swapAt_of_lt hj hi]
      by_cases hij : i = j
      · subst hij
        rfl
      · rw [List.set_comm _ _ hij]
    · simp [swapAt, List.getElem?_eq_none (Nat.le_of_not_lt hj), hi]
  · simp [swapAt, List.getElem?_eq_none (Nat.le_of_not_lt hi)]

theorem mem_swapAt {l : List α} {i j : ℕ} {x : α} (hx : x ∈ swapAt l i j) : x ∈ l := by
  unfold swapAt at hx
  split at hx
  next a b ha hb =>
    rcases List.mem_or_eq_of_mem_set hx with h | rfl
    · rcases List.mem_or_eq_of_mem_set h with h | rfl
      · exact h
      · exact List.mem_of_getElem? hb
    · exact List.mem_of_getElem? ha
  next => exact hx

/-- Where element `i` of a ring of `n` elements that starts at `z` is stored. One
subtraction is enough to wrap. -/
def ringIndex (z n i : ℕ) : ℕ :=
  if n ≤ z + i then z + i - n else z + i

theorem ringIndex_lt {z n i : ℕ} (hz : z < n) (hi : i < n) : ringIndex z n i < n := by
  unfold ringIndex
  split_ifs <;> omega

theorem ringIndex_eq_mod {z n i : ℕ} (hz : z < n) (hi : i < n) :
    ringIndex z n i = (i + z) % n := by
  unfold ringIndex
  split_ifs with h
  · rw [Nat.mod_eq_sub_mod (by omega), Nat.mod_eq_of_lt (by omega)]
    omega
  · rw [Nat.mod_eq_of_lt (by omega)]
    omega

theorem ringIndex_inj {z n i j : ℕ} (hi : i < n) (hj : j < n) :
    ringIndex z n i = ringIndex z n j ↔ i = j := by
  unfold ringIndex
  split_ifs <;> omega

theorem getElem?_rotate {l : List α} {z i : ℕ} (hz : z < l.length) (hi : i < l.length) :
    (l.rotate z)[i]? = l[ringIndex z l.length i]? := by
  rw [List.getElem?_rotate hi, ringIndex_eq_mod hz hi]

/-- Two rings of one length agree if they do so element by element. -/
theorem rotate_ext {l l' : List α} {z : ℕ} (hlen : l'.length = l.length)
    (hz : z < l.length) {r : List α} (hr : r.length = l.length)
    (h : ∀ i < l.length, l'[ringIndex z l.length i]? = r[i]?) : l'.rotate z = r := by
  apply List.ext_getElem?
  intro i
  by_cases hi : i < l.length
  · rw [getElem?_rotate (hlen ▸ hz) (hlen ▸ hi), hlen]
    exact h i hi
  · rw [List.getElem?_eq_none (by rw [List.length_rotate]; omega),
      List.getElem?_eq_none (by omega)]

theorem rotate_swapAt {l : List α} {z i j : ℕ} (hz : z < l.length) (hi : i < l.length)
    (hj : j < l.length) :
    (swapAt l (ringIndex z l.length i) (ringIndex z l.length j)).rotate z =
      swapAt (l.rotate z) i j := by
  apply rotate_ext (by simp) hz (by simp)
  intro k hk
  rw [getElem?_swapAt (ringIndex_lt hz hi) (ringIndex_lt hz hj),
    getElem?_swapAt (by simpa using hi) (by simpa using hj), getElem?_rotate hz hk,
    getElem?_rotate hz hi, getElem?_rotate hz hj]
  simp only [ringIndex_inj hk hj, ringIndex_inj hk hi]

theorem take_swapAt {l : List α} {i j n : ℕ} (hi : i < n) (hj : j < n) (hn : n ≤ l.length) :
    (swapAt l i j).take n = swapAt (l.take n) i j := by
  have hlen : (l.take n).length = n := List.length_take_of_le hn
  rw [swapAt_of_lt (by omega) (by omega), swapAt_of_lt (by omega) (by omega)]
  simp only [List.take_set, List.getElem_take]

theorem drop_swapAt {l : List α} {i j n : ℕ} (hi : i < n) (hj : j < n) (hn : n ≤ l.length) :
    (swapAt l i j).drop n = l.drop n := by
  rw [swapAt_of_lt (by omega) (by omega), List.drop_set_of_lt hj, List.drop_set_of_lt hi]

end Rio.Ring
