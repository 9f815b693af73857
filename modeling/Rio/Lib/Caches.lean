import Mathlib.Data.Finset.Card
import Mathlib.Tactic

/-! Caches. A memo table keeps what a function has returned. A bounded list of entries keeps the
least recently used one in front: a key that is used goes to the back, and a new key drops the
front when the list is full, so that a key stays exactly as long as fewer others than there are
places have been used since. A copy is kept up to date through marks on what has changed. -/
namespace Rio.Memo

variable {κ ν : Type*} [DecidableEq κ]

def find (m : List (κ × ν)) (k : κ) : Option ν := m.lookup k

/-- The value of a key, which is entered if it is not there. -/
def entry (m : List (κ × ν)) (k : κ) (v : ν) : List (κ × ν) × ν :=
  match find m k with
  | some w => (m, w)
  | none => ((k, v) :: m, v)

/-- A table that holds nothing but values of a function. -/
def Sound (f : κ → ν) (m : List (κ × ν)) : Prop := ∀ k v, find m k = some v → v = f k

theorem sound_nil (f : κ → ν) : Sound f [] := fun _ _ h => nomatch h

variable {f : κ → ν} {m : List (κ × ν)}

theorem entry_snd (h : Sound f m) (k : κ) : (entry m k (f k)).2 = f k := by
  unfold entry
  split
  case h_1 w hw => exact h k w hw
  case h_2 => rfl

theorem entry_sound (h : Sound f m) (k : κ) : Sound f (entry m k (f k)).1 := by
  unfold entry
  split
  case h_1 => exact h
  case h_2 =>
    intro j v hv
    rw [find, List.lookup_cons] at hv
    split at hv
    case h_1 hj =>
      obtain rfl := LawfulBEq.eq_of_beq hj
      exact (Option.some.inj hv).symm
    case h_2 => exact h j v hv

theorem find_entry_self (m : List (κ × ν)) (k : κ) (v : ν) :
    find (entry m k v).1 k = some (entry m k v).2 := by
  unfold entry
  split
  case h_1 w hw => exact hw
  case h_2 => exact List.lookup_cons_self

/-- What is in the table stays there. -/
theorem find_entry (m : List (κ × ν)) (k : κ) (v : ν) {j : κ} {w : ν}
    (h : find m j = some w) : find (entry m k v).1 j = some w := by
  unfold entry
  split
  case h_1 => exact h
  case h_2 hnone =>
    rw [find, List.lookup_cons]
    split
    case h_1 hj =>
      obtain rfl := LawfulBEq.eq_of_beq hj
      rw [hnone] at h
      cases h
    case h_2 => exact h

end Rio.Memo

namespace Rio.Lru

variable {κ ν : Type*}

def keys (b : List (κ × ν)) : List κ := b.map Prod.fst

theorem mem_keys {b : List (κ × ν)} {k : κ} : k ∈ keys b ↔ ∃ v, (k, v) ∈ b := by
  simp [keys]

theorem keys_cons (e : κ × ν) (b : List (κ × ν)) : keys (e :: b) = e.1 :: keys b := rfl

theorem length_keys (b : List (κ × ν)) : (keys b).length = b.length := List.length_map _

theorem keys_append (b c : List (κ × ν)) : keys (b ++ c) = keys b ++ keys c := List.map_append

theorem nodup_concat {b : List (κ × ν)} {k : κ} (h : (keys b).Nodup) (hk : k ∉ keys b) (v : ν) :
    (keys (b ++ [(k, v)])).Nodup := by
  rw [keys_append]
  exact List.Nodup.append h (List.nodup_singleton k) (by simpa [keys] using hk)

variable [DecidableEq κ]

def lookup (b : List (κ × ν)) (k : κ) : Option ν :=
  (b.find? fun e => decide (e.1 = k)).map Prod.snd

/-- The entry of the key goes to the back. -/
def refresh (b : List (κ × ν)) (k : κ) (v : ν) : List (κ × ν) :=
  (b.filter fun e => decide (e.1 ≠ k)) ++ [(k, v)]

/-- A key is used: its entry goes to the back, or comes in there, in a free place or in place of
the least recently used one. -/
def put (n : ℕ) (b : List (κ × ν)) (u : κ × ν) : List (κ × ν) :=
  if u.1 ∈ keys b then refresh b u.1 u.2
  else if b.length < n then b ++ [u]
  else b.tail ++ [u]

/-- Every key has one entry, and there are no more entries than places. -/
structure Bounded (n : ℕ) (b : List (κ × ν)) : Prop where
  nodup : (keys b).Nodup
  length : b.length ≤ n

section
variable {n : ℕ} {b : List (κ × ν)} {k : κ} {v : ν}

theorem lookup_eq_none_iff : lookup b k = none ↔ k ∉ keys b := by
  unfold lookup
  rw [Option.map_eq_none_iff, List.find?_eq_none, mem_keys]
  constructor
  · rintro h ⟨v, hv⟩
    exact h (k, v) hv (decide_eq_true rfl)
  · rintro h ⟨k', v⟩ hv
    simp only [decide_eq_true_eq]
    rintro rfl
    exact h ⟨v, hv⟩

theorem mem_of_lookup (h : lookup b k = some v) : k ∈ keys b := by
  by_contra hk
  rw [lookup_eq_none_iff.mpr hk] at h
  cases h

theorem lookup_of_split {pre post : List (κ × ν)} (h : k ∉ keys pre) :
    lookup (pre ++ (k, v) :: post) k = some v := by
  have hnone : (pre.find? fun e => decide (e.1 = k)) = none := by
    have := lookup_eq_none_iff.mpr h
    unfold lookup at this
    rwa [Option.map_eq_none_iff] at this
  unfold lookup
  rw [List.find?_append, hnone, Option.none_or]
  simp

theorem mem_entry_of_lookup (h : lookup b k = some v) : (k, v) ∈ b := by
  obtain ⟨⟨k', w⟩, he, hw⟩ := Option.map_eq_some_iff.mp h
  have hkey : k' = k := by simpa using List.find?_some he
  have hvalue : w = v := hw
  subst hkey hvalue
  exact List.mem_of_find?_eq_some he

/-! ### One use -/

theorem keys_filter_sublist (k : κ) (b : List (κ × ν)) :
    (keys (b.filter fun e => decide (e.1 ≠ k))).Sublist (keys b) :=
  List.filter_sublist.map _

theorem not_mem_keys_filter (k : κ) (b : List (κ × ν)) :
    k ∉ keys (b.filter fun e => decide (e.1 ≠ k)) := by
  simp [keys]

/-- Without an entry of the key nothing is taken out. -/
theorem filter_absent (h : k ∉ keys b) : b.filter (fun e => decide (e.1 ≠ k)) = b := by
  refine List.filter_eq_self.mpr fun e he => ?_
  simp only [decide_eq_true_eq]
  rintro rfl
  exact h (List.mem_map_of_mem he)

/-- A used key is at the back. -/
theorem put_eq_concat (n : ℕ) (b : List (κ × ν)) (u : κ × ν) :
    ∃ pre, put n b u = pre ++ [u] ∧ u.1 ∉ keys pre := by
  unfold put
  split
  case isTrue => exact ⟨_, rfl, not_mem_keys_filter u.1 b⟩
  case isFalse hk =>
    split
    · exact ⟨b, rfl, hk⟩
    · exact ⟨b.tail, rfl, fun hmem => hk (((List.tail_sublist b).map _).subset hmem)⟩

theorem lookup_put_self (n : ℕ) (b : List (κ × ν)) (u : κ × ν) :
    lookup (put n b u) u.1 = some u.2 := by
  obtain ⟨pre, heq, hpre⟩ := put_eq_concat n b u
  rw [heq]
  exact lookup_of_split hpre

/-- Using a key twice is using it once. -/
theorem put_put (n : ℕ) (b : List (κ × ν)) (u : κ × ν) : put n (put n b u) u = put n b u := by
  obtain ⟨pre, heq, hpre⟩ := put_eq_concat n b u
  have hmem : u.1 ∈ keys (pre ++ [u]) := by
    rw [keys_append]
    exact List.mem_append_right _ (by simp [keys])
  rw [heq, put, if_pos hmem, refresh, List.filter_append, filter_absent hpre,
    List.filter_cons_of_neg (by simp), List.filter_nil, List.append_nil]

theorem put_bounded (hn : 0 < n) (h : Bounded n b) (u : κ × ν) : Bounded n (put n b u) := by
  have hlength := h.length
  unfold put
  split
  case isTrue hk =>
    refine ⟨nodup_concat (h.nodup.sublist (keys_filter_sublist u.1 b))
      (not_mem_keys_filter u.1 b) u.2, ?_⟩
    obtain ⟨w, hw⟩ := mem_keys.mp hk
    have hless : (b.filter fun e => decide (e.1 ≠ u.1)).length < b.length :=
      List.length_filter_lt_length_iff_exists.mpr ⟨(u.1, w), hw, by simp⟩
    rw [refresh, List.length_append, List.length_singleton]
    omega
  case isFalse hk =>
    split
    case isTrue hroom =>
      refine ⟨nodup_concat h.nodup hk u.2, ?_⟩
      rw [List.length_append, List.length_singleton]
      omega
    case isFalse =>
      have htail := (List.tail_sublist b).map Prod.fst
      refine ⟨nodup_concat (h.nodup.sublist htail) (fun hmem => hk (htail.subset hmem)) u.2, ?_⟩
      rw [List.length_append, List.length_singleton, List.length_tail]
      omega

/-- Only the used entry is new. -/
theorem mem_put {e u : κ × ν} (h : e ∈ put n b u) : e = u ∨ e ∈ b := by
  unfold put at h
  split_ifs at h with hk hroom
  · rcases List.mem_append.mp h with hold | hnew
    · exact Or.inr (List.mem_filter.mp hold).1
    · exact Or.inl (List.mem_singleton.mp hnew)
  · rcases List.mem_append.mp h with hold | hnew
    · exact Or.inr hold
    · exact Or.inl (List.mem_singleton.mp hnew)
  · rcases List.mem_append.mp h with hold | hnew
    · exact Or.inr (List.mem_of_mem_tail hold)
    · exact Or.inl (List.mem_singleton.mp hnew)

/-- What the use of another key does to an entry: those behind it stay there, the used one joins
them, and the entry goes only if it was in front of a full list and a new key came in. -/
theorem put_split {pre post : List (κ × ν)} {u : κ × ν} (hne : u.1 ≠ k) (hpre : k ∉ keys pre) :
    (∃ pre' post', put n (pre ++ (k, v) :: post) u = pre' ++ (k, v) :: post' ∧ k ∉ keys pre' ∧
        (keys post').toFinset = insert u.1 (keys post).toFinset) ∨
      (pre = [] ∧ u.1 ∉ keys post ∧ n ≤ post.length + 1 ∧
        put n (pre ++ (k, v) :: post) u = post ++ [u]) := by
  have hlast (c : List (κ × ν)) :
      (keys (c ++ [u])).toFinset = insert u.1 (keys c).toFinset := by
    rw [keys_append]
    ext i
    simp [keys]
  unfold put
  split
  case isTrue =>
    left
    refine ⟨pre.filter fun e => decide (e.1 ≠ u.1),
      (post.filter fun e => decide (e.1 ≠ u.1)) ++ [u], ?_, ?_, ?_⟩
    · rw [refresh, List.filter_append, List.filter_cons_of_pos (by simpa using hne.symm)]
      simp
    · exact fun hmem => hpre ((keys_filter_sublist _ _).subset hmem)
    · rw [hlast]
      ext i
      simp [keys]
      tauto
  case isFalse hnew =>
    split
    case isTrue => exact Or.inl ⟨pre, post ++ [u], by simp, hpre, hlast post⟩
    case isFalse hfull =>
      cases pre with
      | nil =>
        right
        refine ⟨rfl, fun hmem => hnew (List.mem_cons_of_mem _ hmem), ?_, rfl⟩
        rw [List.nil_append, List.length_cons] at hfull
        omega
      | cons x pre =>
        have hpre' : k ∉ keys pre := fun hmem => hpre (List.mem_cons_of_mem _ hmem)
        exact Or.inl ⟨pre, post ++ [u], by simp, hpre', hlast post⟩

/-- A key that is not there does not come in by the use of others. -/
theorem put_absent {u : κ × ν} (hne : u.1 ≠ k) (h : k ∉ keys b) : k ∉ keys (put n b u) := by
  intro hmem
  obtain ⟨w, hw⟩ := mem_keys.mp hmem
  rcases mem_put hw with heq | hold
  · exact hne (congrArg Prod.fst heq).symm
  · exact h (mem_keys.mpr ⟨w, hold⟩)

/-! ### Runs -/

/-- Where the entry of a key is after others have been used: it has just these behind it, or they
are too many and it is gone. -/
def Placed (n : ℕ) (b : List (κ × ν)) (k : κ) (v : ν) (used : Finset κ) : Prop :=
  (∃ pre post, b = pre ++ (k, v) :: post ∧ k ∉ keys pre ∧ (keys post).toFinset = used) ∨
    (k ∉ keys b ∧ n ≤ used.card)

/-- The keys that are used. -/
def usedKeys (us : List (κ × ν)) : Finset κ := (keys us).toFinset

theorem put_self_placed (n : ℕ) (b : List (κ × ν)) (k : κ) (v : ν) :
    Placed n (put n b (k, v)) k v ∅ := by
  obtain ⟨pre, heq, hpre⟩ := put_eq_concat n b (k, v)
  exact Or.inl ⟨pre, [], heq, hpre, rfl⟩

theorem put_placed {used : Finset κ} {u : κ × ν} (hb : Bounded n b) (hne : u.1 ≠ k)
    (h : Placed n b k v used) : Placed n (put n b u) k v (insert u.1 used) := by
  rcases h with ⟨pre, post, rfl, hpre, rfl⟩ | ⟨habsent, hmany⟩
  · rcases put_split (n := n) (v := v) hne hpre with
      ⟨pre', post', heq, hpre', hset⟩ | ⟨rfl, hnew, hfull, heq⟩
    · exact Or.inl ⟨pre', post', heq, hpre', hset⟩
    · right
      have hnodup := hb.nodup
      rw [List.nil_append, keys_cons, List.nodup_cons] at hnodup
      constructor
      · rw [heq, keys_append, List.mem_append, not_or]
        exact ⟨hnodup.1, by simpa [keys] using hne.symm⟩
      · rw [Finset.card_insert_of_notMem (by simpa using hnew),
          List.toFinset_card_of_nodup hnodup.2, length_keys]
        exact hfull
  · exact Or.inr ⟨put_absent hne habsent,
      hmany.trans (Finset.card_le_card (Finset.subset_insert _ _))⟩

theorem run_placed (hn : 0 < n) : ∀ (us : List (κ × ν)) {b : List (κ × ν)} {used : Finset κ},
    Bounded n b → (∀ u ∈ us, u.1 ≠ k) → Placed n b k v used →
    Placed n (us.foldl (put n) b) k v (usedKeys us ∪ used)
  | [], _, _, _, _, h => by simpa [usedKeys, keys] using h
  | u :: us, b, used, hb, hne, h => by
    have hstep := put_placed hb (hne u List.mem_cons_self) h
    have hrest := run_placed hn us (put_bounded hn hb u)
      (fun w hw => hne w (List.mem_cons_of_mem u hw)) hstep
    have hsame : usedKeys (u :: us) ∪ used = usedKeys us ∪ insert u.1 used := by
      simp [usedKeys, keys, Finset.insert_union, Finset.union_insert]
    rw [List.foldl_cons, hsame]
    exact hrest

theorem run_bounded (hn : 0 < n) (us : List (κ × ν)) (hb : Bounded n b) :
    Bounded n (us.foldl (put n) b) :=
  List.foldlRecOn us (put n) hb fun _ hc u _ => put_bounded hn hc u

/-- A key that has been used is found exactly as long as fewer others than there are places have
been used since. -/
theorem run_lookup (hn : 0 < n) (us : List (κ × ν)) (hb : Bounded n b) (k : κ) (v : ν)
    (hne : ∀ u ∈ us, u.1 ≠ k) :
    lookup (us.foldl (put n) (put n b (k, v))) k =
      if (usedKeys us).card < n then some v else none := by
  have hput := put_bounded hn hb (k, v)
  have hplaced := run_placed hn us hput hne (put_self_placed n b k v)
  have hbounded := run_bounded hn us hput
  rw [Finset.union_empty] at hplaced
  rcases hplaced with ⟨pre, post, heq, hpre, hset⟩ | ⟨habsent, hmany⟩
  · have hlength := hbounded.length
    have hnodup := hbounded.nodup
    rw [heq, List.length_append, List.length_cons] at hlength
    rw [heq, keys_append, List.nodup_append] at hnodup
    have hpost : (keys post).Nodup := by
      have := hnodup.2.1
      rw [keys_cons, List.nodup_cons] at this
      exact this.2
    have hcard : (usedKeys us).card = post.length := by
      rw [← hset, List.toFinset_card_of_nodup hpost, length_keys]
    rw [if_pos (by omega), heq, lookup_of_split hpre]
  · rw [if_neg (by omega), lookup_eq_none_iff.mpr habsent]

end
end Rio.Lru

namespace Rio.Marks

variable {α β : Type*} (dirty : α → Bool) (val : α → β)

/-- From `a` to `a'` the value changes with a mark only, and a mark stays. -/
def Marked (a a' : α) : Prop := dirty a' = false → dirty a = false ∧ val a' = val a

/-- A copy that is behind the original in marked places only. -/
def Lags (a : α) (copy : β) : Prop := dirty a = false → copy = val a

variable {dirty val}

theorem Marked.refl (a : α) : Marked dirty val a a := fun h => ⟨h, rfl⟩

theorem Marked.trans {a b c : α} (h : Marked dirty val a b) (h' : Marked dirty val b c) :
    Marked dirty val a c := by
  intro hc
  obtain ⟨hb, hbc⟩ := h' hc
  obtain ⟨ha, hab⟩ := h hb
  exact ⟨ha, hbc.trans hab⟩

theorem Marked.of_dirty {a a' : α} (h : dirty a' = true) : Marked dirty val a a' := by
  intro hclean
  rw [h] at hclean
  cases hclean

/-- A value that neither changes nor is marked. -/
theorem Marked.of_eq {a a' : α} (hdirty : dirty a' = dirty a) (hval : val a' = val a) :
    Marked dirty val a a' :=
  fun h => ⟨hdirty ▸ h, hval⟩

theorem Lags.of_eq {a : α} {copy : β} (h : copy = val a) : Lags dirty val a copy := fun _ => h

/-- Changes leave a copy behind in marked places only. -/
theorem Lags.marked {a a' : α} {copy : β} (h : Lags dirty val a copy)
    (hmarked : Marked dirty val a a') : Lags dirty val a' copy := by
  intro hclean
  obtain ⟨ha, hval⟩ := hmarked hclean
  exact (h ha).trans hval.symm

/-- Copying what is marked brings the copy up to date. -/
theorem Lags.refresh {a : α} {copy : β} (h : Lags dirty val a copy) :
    (if dirty a = true then val a else copy) = val a := by
  split_ifs with hdirty
  · rfl
  · exact h (by simpa using hdirty)

end Rio.Marks
