import Rio.Lib.Total
import Mathlib.Data.List.AList

/-! Finite maps as association lists with distinct keys: what the lists of the library lack,
which is keeping or changing some entries and the total weight of all values. -/
namespace Rio

abbrev Table (K V : Type*) := AList fun _ : K => V

namespace Table
variable {K V : Type*} [DecidableEq K]

/-- Keep the entries that satisfy a predicate. -/
def retain (p : K → V → Bool) (t : Table K V) : Table K V :=
  ⟨t.entries.filter fun e => p e.1 e.2, t.nodupKeys.sublist List.filter_sublist⟩

/-- Change every value. -/
def mapValues (f : V → V) (t : Table K V) : Table K V :=
  ⟨t.entries.map fun e => ⟨e.1, f e.2⟩, List.NodupKeys.map₂ (fun _ => f) _ t.nodupKeys⟩

/-- Change the value of a key. -/
def adjust (k : K) (f : V → V) (t : Table K V) : Table K V :=
  ⟨t.entries.map fun e => ⟨e.1, if e.1 = k then f e.2 else e.2⟩,
    List.NodupKeys.map₂ (fun j v => if j = k then f v else v) _ t.nodupKeys⟩

theorem mem_entries_iff {t : Table K V} {k : K} {v : V} :
    (⟨k, v⟩ : Σ _ : K, V) ∈ t.entries ↔ t.lookup k = some v :=
  (AList.mem_lookup_iff (s := t)).symm

theorem lookup_retain_eq_some {p : K → V → Bool} {t : Table K V} {k : K} {v : V} :
    (t.retain p).lookup k = some v ↔ t.lookup k = some v ∧ p k v = true := by
  rw [← mem_entries_iff, ← mem_entries_iff, retain, List.mem_filter]

theorem lookup_retain (p : K → V → Bool) (t : Table K V) (k : K) :
    (t.retain p).lookup k = (t.lookup k).filter (p k) := by
  ext v
  rw [lookup_retain_eq_some, Option.filter_eq_some_iff]

theorem lookup_retain_of_pos {p : K → V → Bool} {t : Table K V} {k : K} {v : V}
    (h : t.lookup k = some v) (hp : p k v = true) : (t.retain p).lookup k = some v :=
  lookup_retain_eq_some.mpr ⟨h, hp⟩

omit [DecidableEq K] in
@[simp] theorem retain_empty (p : K → V → Bool) : (∅ : Table K V).retain p = ∅ := rfl

theorem lookup_mapValues (f : V → V) (t : Table K V) (k : K) :
    (t.mapValues f).lookup k = (t.lookup k).map f :=
  List.dlookup_map₂ (f := fun _ => f) k

theorem retain_eq_self {p : K → V → Bool} {t : Table K V}
    (h : ∀ k v, t.lookup k = some v → p k v = true) : t.retain p = t := by
  apply AList.ext
  exact List.filter_eq_self.mpr fun e he => h e.1 e.2 (mem_entries_iff.mp he)

theorem erase_eq_self {t : Table K V} {k : K} (h : t.lookup k = none) : t.erase k = t := by
  apply AList.ext
  exact List.kerase_of_notMem_keys (AList.lookup_eq_none.mp h)

theorem lookup_insert_of (t : Table K V) (k j : K) (v : V) :
    (t.insert k v).lookup j = if j = k then some v else t.lookup j := by
  by_cases h : j = k
  · rw [if_pos h, h, AList.lookup_insert]
  · rw [if_neg h, AList.lookup_insert_ne h]

theorem lookup_erase_of (t : Table K V) (k j : K) :
    (t.erase k).lookup j = if j = k then none else t.lookup j := by
  by_cases h : j = k
  · rw [if_pos h, h, AList.lookup_erase]
  · rw [if_neg h, AList.lookup_erase_ne h]

/-- Give every entry the key that is said for its own, and drop it where none is. -/
def rekey {J : Type*} [DecidableEq J] (f : K → Option J) (t : Table K V) : Table J V :=
  t.entries.foldl
    (fun rekeyed e =>
      match f e.1 with
      | some j => rekeyed.insert j e.2
      | none => rekeyed) ∅

theorem lookup_foldl_insert {J : Type*} [DecidableEq J] {f : K → Option J} {source : J → K}
    (hf : ∀ k j, f k = some j ↔ k = source j) (j : J) :
    ∀ (l : List (Σ _ : K, V)) (acc : Table J V), l.NodupKeys →
      (l.foldl (fun rekeyed e =>
        match f e.1 with
        | some j => rekeyed.insert j e.2
        | none => rekeyed) acc).lookup j = (l.dlookup (source j)).or (acc.lookup j)
  | [], _, _ => rfl
  | e :: l, acc, hl => by
    obtain ⟨k, v⟩ := e
    obtain ⟨hnotMem, hl⟩ := List.nodupKeys_cons.mp hl
    rw [List.foldl_cons, lookup_foldl_insert hf j l _ hl]
    by_cases hk : source j = k
    · subst hk
      rw [List.dlookup_cons_eq, List.dlookup_eq_none.mpr hnotMem, (hf _ j).mpr rfl]
      exact AList.lookup_insert acc
    · rw [List.dlookup_cons_ne _ _ hk]
      congr 1
      cases hkey : f k with
      | none => rfl
      | some i =>
        have hij : j ≠ i := by
          rintro rfl
          exact hk ((hf k j).mp hkey).symm
        exact AList.lookup_insert_ne hij

/-- Where the keys are said one for one, the value of a key is that of its source. -/
theorem lookup_rekey {J : Type*} [DecidableEq J] {f : K → Option J} {source : J → K}
    (hf : ∀ k j, f k = some j ↔ k = source j) (t : Table K V) (j : J) :
    (t.rekey f).lookup j = t.lookup (source j) :=
  (lookup_foldl_insert hf j t.entries ∅ t.nodupKeys).trans Option.or_none

theorem perm_kerase {l : List (Σ _ : K, V)} {k : K} {v : V} (h : l.dlookup k = some v) :
    l.Perm (⟨k, v⟩ :: l.kerase k) := by
  induction l with
  | nil => exact absurd h nofun
  | cons e l ih =>
    obtain ⟨j, w⟩ := e
    by_cases hkj : k = j
    · subst hkj
      rw [List.dlookup_cons_eq] at h
      obtain rfl := Option.some_inj.mp h
      have hkerase : List.kerase k ((⟨k, w⟩ : Σ _ : K, V) :: l) = l := List.kerase_cons_eq rfl
      rw [hkerase]
    · rw [List.dlookup_cons_ne l _ hkj] at h
      rw [List.kerase_cons_ne hkj]
      exact ((ih h).cons _).trans (.swap _ _ _)

theorem perm_erase {t : Table K V} {k : K} {v : V} (h : t.lookup k = some v) :
    t.entries.Perm (⟨k, v⟩ :: (t.erase k).entries) := perm_kerase h

theorem entries_foldl_adjust {α : Type*} (key : α → K) (f : α → V → V) :
    ∀ (l : List α) (t : Table K V),
      (l.foldl (fun t p => t.adjust (key p) (f p)) t).entries = t.entries.map fun e =>
        ⟨e.1, l.foldl (fun v p => if e.1 = key p then f p v else v) e.2⟩
  | [], t => (List.map_id' t.entries).symm
  | p :: l, t => by
    rw [List.foldl_cons, entries_foldl_adjust key f l]
    exact List.map_map

/-! ### Total weight -/

/-- The weights of all values added up. -/
def weight (w : V → ℕ) (t : Table K V) : ℕ := total (fun e : Σ _ : K, V => w e.2) t.entries

variable {w : V → ℕ}

/-- The weight of the value of a key. -/
def weightOf (w : V → ℕ) (t : Table K V) (k : K) : ℕ := (t.lookup k).elim 0 w

theorem total_kerase_add (k : K) (l : List (Σ _ : K, V)) :
    total (fun e : Σ _ : K, V => w e.2) (l.kerase k) + (l.dlookup k).elim 0 w =
      total (fun e : Σ _ : K, V => w e.2) l := by
  induction l with
  | nil => rfl
  | cons e l ih =>
    obtain ⟨j, v⟩ := e
    by_cases h : k = j
    · subst h
      have hkerase : List.kerase k ((⟨k, v⟩ : Σ _ : K, V) :: l) = l := List.kerase_cons_eq rfl
      rw [hkerase, List.dlookup_cons_eq, total_cons]
      exact Nat.add_comm _ _
    · rw [List.kerase_cons_ne h, List.dlookup_cons_ne l _ h, total_cons, total_cons, ← ih]
      exact Nat.add_assoc _ _ _

theorem weight_erase_add (t : Table K V) (k : K) :
    weight w (t.erase k) + weightOf w t k = weight w t :=
  total_kerase_add k t.entries

theorem weight_insert_add (t : Table K V) (k : K) (v : V) :
    weight w (t.insert k v) + weightOf w t k = weight w t + w v := by
  have herase := weight_erase_add (w := w) t k
  have hinsert : weight w (t.insert k v) = w v + weight w (t.erase k) := total_cons _ _
  omega

end Table
end Rio
