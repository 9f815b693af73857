import Rio.Grid.Grid
import Rio.Grid.StorageRing

/-! The storage read line by line: what each operation does to the row of a line. -/

set_option linter.dupNamespace false

namespace Rio
open Rio.Ring

variable {α : Type}

theorem mem_lineRange {a b l : ℤ} : l ∈ lineRange a b ↔ a ≤ l ∧ l < b := by
  unfold lineRange
  rw [List.mem_map]
  constructor
  · rintro ⟨k, hk, rfl⟩
    have := List.mem_range.mp hk
    omega
  · rintro ⟨hal, hlb⟩
    exact ⟨(l - a).toNat, List.mem_range.mpr (by omega), by omega⟩

theorem nodup_lineRange (a b : ℤ) : (lineRange a b).Nodup := by
  unfold lineRange
  apply List.nodup_range.map
  intro x y hxy
  simpa using hxy

@[simp] theorem length_lineRange (a b : ℤ) : (lineRange a b).length = (b - a).toNat := by
  simp [lineRange]

theorem lineRange_empty {a b : ℤ} (h : b ≤ a) : lineRange a b = [] := by
  apply List.length_eq_zero_iff.mp
  rw [length_lineRange]
  omega

theorem lineRange_concat {a b : ℤ} (h : a ≤ b) : lineRange a (b + 1) = lineRange a b ++ [b] := by
  unfold lineRange
  have hlen : (b + 1 - a).toNat = (b - a).toNat + 1 := by omega
  rw [hlen, List.range_succ, List.map_append, List.map_singleton]
  congr 2
  omega

theorem lineRange_cons {a b : ℤ} (h : a < b) : lineRange a b = a :: lineRange (a + 1) b := by
  unfold lineRange
  have hlen : (b - a).toNat = (b - (a + 1)).toNat + 1 := by omega
  rw [hlen, List.range_succ_eq_map, List.map_cons, List.map_map]
  congr 1
  · simp
  · apply List.map_congr_left
    intro k _
    simp only [Function.comp_apply, Nat.cast_succ]
    ring

theorem lineRange_append {a b c : ℤ} (hab : a ≤ b) (hbc : b ≤ c) :
    lineRange a c = lineRange a b ++ lineRange b c := by
  obtain ⟨k, rfl⟩ : ∃ k : ℕ, c = b + k := ⟨(c - b).toNat, by omega⟩
  clear hbc
  induction k with
  | zero => simp [lineRange_empty]
  | succ k ih =>
    push_cast
    rw [← add_assoc, lineRange_concat (by omega), lineRange_concat (by omega), ih,
      List.append_assoc]

theorem take_lineRange {a b : ℤ} {k : ℕ} (h : a + k ≤ b) :
    (lineRange a b).take k = lineRange a (a + k) := by
  rw [lineRange_append (show a ≤ a + k by omega) h, List.take_append_of_le_length (by simp),
    List.take_of_length_le (by simp)]

theorem drop_lineRange {a b : ℤ} {k : ℕ} (h : a + k ≤ b) :
    (lineRange a b).drop k = lineRange (a + k) b := by
  rw [lineRange_append (show a ≤ a + k by omega) h, List.drop_append_of_le_length (by simp),
    List.drop_eq_nil_of_le (by simp), List.nil_append]

theorem map_add_lineRange (a b : ℤ) (n : ℤ) :
    (lineRange a b).map (· + n) = lineRange (a + n) (b + n) := by
  unfold lineRange
  rw [List.map_map, show (b + n - (a + n)).toNat = (b - a).toNat by omega]
  apply List.map_congr_left
  intro k _
  simp only [Function.comp_apply]
  ring

namespace Storage

/-- The topmost line in use. -/
def top (s : Storage α) : ℤ := s.visibleLines - s.len

theorem inBounds_iff {s : Storage α} {l : ℤ} :
    s.InBounds l ↔ s.top ≤ l ∧ l < s.visibleLines := by
  unfold InBounds offset top
  omega

theorem row_eq_ring {s : Storage α} (hs : s.WellFormed) {l : ℤ} (hl : s.InBounds l) :
    s.row l = s.ring.getD (s.offset l) default := by
  have hlen := hs.len_le
  have hoff := hl.2
  rw [row, List.getD_eq_getElem?_getD, computeIndex_eq,
    ← getElem?_rotate (hs.zero_lt_of_len hoff) (by omega), List.getD_eq_getElem?_getD, ring]

theorem offset_inj {s : Storage α} {a b : ℤ} (ha : a < s.visibleLines) (hb : b < s.visibleLines) :
    s.offset a = s.offset b ↔ a = b := by
  unfold offset
  omega

/-! ### Frames -/

@[simp] theorem modify_len (s : Storage α) (a : ℤ) (f : Row α → Row α) :
    (s.modify a f).len = s.len := rfl

@[simp] theorem modify_visibleLines (s : Storage α) (a : ℤ) (f : Row α → Row α) :
    (s.modify a f).visibleLines = s.visibleLines := rfl

@[simp] theorem modify_length (s : Storage α) (a : ℤ) (f : Row α → Row α) :
    (s.modify a f).inner.length = s.inner.length := by
  simp [modify]

@[simp] theorem swap_len (s : Storage α) (a b : ℤ) : (s.swap a b).len = s.len := rfl

@[simp] theorem swap_visibleLines (s : Storage α) (a b : ℤ) :
    (s.swap a b).visibleLines = s.visibleLines := rfl

@[simp] theorem swap_length (s : Storage α) (a b : ℤ) :
    (s.swap a b).inner.length = s.inner.length := by
  simp [swap]

@[simp] theorem modify_top (s : Storage α) (a : ℤ) (f : Row α → Row α) :
    (s.modify a f).top = s.top := rfl

@[simp] theorem swap_top (s : Storage α) (a b : ℤ) : (s.swap a b).top = s.top := rfl

theorem modify_wellFormed {s : Storage α} (hs : s.WellFormed) (a : ℤ) (f : Row α → Row α) :
    (s.modify a f).WellFormed := by
  constructor
  · rcases hs.zero_lt with h | h
    · left
      simpa [modify] using h
    · right
      simp [modify, h]
  · simpa using hs.len_le

/-! ### One operation -/

theorem row_modify {s : Storage α} (hs : s.WellFormed) {a l : ℤ} (ha : s.InBounds a)
    (hl : s.InBounds l) (f : Row α → Row α) :
    (s.modify a f).row l = if l = a then f (s.row a) else s.row l := by
  have hla := computeIndex_lt hs ha
  have hll := computeIndex_lt hs hl
  have hinj : s.computeIndex a = s.computeIndex l ↔ l = a := by
    have hlen := hs.len_le
    have hoa := ha.2
    have hol := hl.2
    rw [computeIndex_eq, computeIndex_eq, ringIndex_inj (by omega) (by omega),
      offset_inj ha.1 hl.1]
    exact eq_comm
  have hindex : (s.modify a f).computeIndex l = s.computeIndex l := by
    unfold computeIndex
    rw [modify_length]
    rfl
  unfold row
  rw [hindex, List.getD_eq_getElem?_getD]
  show (s.inner.modify (s.computeIndex a) f)[s.computeIndex l]?.getD default = _
  rw [List.getElem?_modify]
  by_cases h : l = a
  · subst h
    simp [List.getD_eq_getElem?_getD, List.getElem?_eq_getElem hla]
  · simp [hinj.not.mpr h, h, List.getD_eq_getElem?_getD]

theorem row_swap {s : Storage α} (hs : s.WellFormed) {a b l : ℤ} (ha : s.InBounds a)
    (hb : s.InBounds b) (hl : s.InBounds l) :
    (s.swap a b).row l = if l = b then s.row a else if l = a then s.row b else s.row l := by
  have hlen := hs.len_le
  have hoa := ha.2
  have hob := hb.2
  have hol := hl.2
  have hinjb : s.computeIndex l = s.computeIndex b ↔ l = b := by
    rw [computeIndex_eq, computeIndex_eq, ringIndex_inj (by omega) (by omega),
      offset_inj hl.1 hb.1]
  have hinja : s.computeIndex l = s.computeIndex a ↔ l = a := by
    rw [computeIndex_eq, computeIndex_eq, ringIndex_inj (by omega) (by omega),
      offset_inj hl.1 ha.1]
  have hindex : (s.swap a b).computeIndex l = s.computeIndex l := by
    unfold computeIndex swap
    simp [offset]
  unfold row
  rw [hindex, List.getD_eq_getElem?_getD]
  show (swapAt s.inner (s.computeIndex a) (s.computeIndex b))[s.computeIndex l]?.getD default = _
  rw [getElem?_swapAt (computeIndex_lt hs ha) (computeIndex_lt hs hb)]
  simp only [hinjb, hinja, List.getD_eq_getElem?_getD]
  split_ifs <;> rfl

/-- Rotating by a negative count moves the rows up. -/
theorem row_rotate_up {s : Storage α} (hs : s.WellFormed) {n : ℕ} {l : ℤ}
    (hl : s.InBounds l) (hln : s.InBounds (l + n)) :
    (s.rotate (-(n : ℤ))).row l = s.row (l + n) := by
  have hlen := hs.len_le
  have hoff := hl.2
  have hoffn := hln.2
  have hshift : s.offset l = s.offset (l + n) + n := by
    have h1 := hl.1
    have h2 := hln.1
    unfold offset at *
    omega
  have hcount : |(-(n : ℤ))| ≤ s.inner.length := by
    rw [abs_neg, Nat.abs_cast]
    omega
  have hwf : (s.rotate (-(n : ℤ))).WellFormed := rotate_wellFormed hs (by omega) _
  have hbound : (s.rotate (-(n : ℤ))).InBounds l := hl
  have hn : n ≤ s.inner.length := by omega
  rw [row_eq_ring hwf hbound, row_eq_ring hs hln, rotate_ring hcount,
    show (s.rotate (-(n : ℤ))).offset l = s.offset l from rfl, hshift,
    List.getD_eq_getElem?_getD, List.getD_eq_getElem?_getD,
    List.getElem?_rotate (by rw [length_ring]; omega), length_ring]
  congr 2
  by_cases h0 : n = 0
  · subst h0
    simpa using Nat.mod_eq_of_lt (show s.offset l < s.inner.length by omega)
  · have hmod : (-(n : ℤ)) % (s.inner.length : ℤ) = ((s.inner.length - n) % s.inner.length : ℕ) := by
      rw [Int.natCast_mod, Int.natCast_sub hn, sub_eq_neg_add, Int.add_emod_right]
    rw [hmod, Int.toNat_natCast]
    rcases Nat.lt_or_ge n s.inner.length with h | h
    · rw [Nat.mod_eq_of_lt (show s.inner.length - n < s.inner.length by omega),
        show s.offset (l + n) + n + (s.inner.length - n) = s.offset (l + n) + s.inner.length by omega,
        Nat.add_mod_right, Nat.mod_eq_of_lt (by omega)]
    · omega

/-- Rotating down moves the rows down. -/
theorem row_rotateDown {s : Storage α} (hs : s.WellFormed) {n : ℕ} {l : ℤ}
    (hl : s.InBounds l) (hln : s.InBounds (l - n)) :
    (s.rotateDown n).row l = s.row (l - n) := by
  have hlen := hs.len_le
  have hoff := hl.2
  have hoffn := hln.2
  have hshift : s.offset (l - n) = s.offset l + n := by
    have h1 := hl.1
    unfold offset at *
    omega
  have hwf : (s.rotateDown n).WellFormed := rotateDown_wellFormed hs (by omega) n
  have hbound : (s.rotateDown n).InBounds l := hl
  rw [row_eq_ring hwf hbound, row_eq_ring hs hln, rotateDown_ring,
    show (s.rotateDown n).offset l = s.offset l from rfl, hshift,
    List.getD_eq_getElem?_getD, List.getD_eq_getElem?_getD,
    List.getElem?_rotate (by rw [length_ring]; omega), length_ring,
    Nat.mod_eq_of_lt (by omega)]

theorem row_initializeRows [Inhabited α] {s : Storage α} (hs : s.WellFormed) {n columns : ℕ}
    {l : ℤ} (hl : s.InBounds l) : (s.initializeRows n columns).row l = s.row l := by
  have hlen := hs.len_le
  have hoff := hl.2
  have hwf := initializeRows_wellFormed hs n columns
  have hoffset : (s.initializeRows n columns).offset l = s.offset l := by
    unfold offset
    rw [initializeRows_visibleLines]
  have hbound : (s.initializeRows n columns).InBounds l := by
    refine ⟨by rw [initializeRows_visibleLines]; exact hl.1, ?_⟩
    rw [hoffset, initializeRows_len]
    omega
  rw [row_eq_ring hwf hbound, row_eq_ring hs hl, hoffset, initializeRows_ring,
    List.getD_eq_getElem?_getD, List.getD_eq_getElem?_getD]
  split
  · rw [List.getElem?_append_left (by rw [length_ring]; omega)]
  · rfl

/-! ### What holds of every row -/

theorem row_mem {s : Storage α} (hs : s.WellFormed) {l : ℤ} (hl : s.InBounds l) :
    s.row l ∈ s.inner := by
  have hlt := computeIndex_lt hs hl
  rw [row, List.getD_eq_getElem?_getD, List.getElem?_eq_getElem hlt]
  exact List.getElem_mem hlt

/-- A property of every row, the cached ones included. -/
def AllRows (P : Row α → Prop) (s : Storage α) : Prop := ∀ r ∈ s.inner, P r

theorem AllRows.mono {P Q : Row α → Prop} {s : Storage α} (h : s.AllRows P)
    (himp : ∀ r, P r → Q r) : s.AllRows Q :=
  fun r hr => himp r (h r hr)

theorem AllRows.modify {P : Row α → Prop} {s : Storage α} (h : s.AllRows P) (a : ℤ)
    {f : Row α → Row α} (hf : ∀ r, P r → P (f r)) : (s.modify a f).AllRows P := by
  intro r hr
  have hmem : r ∈ s.inner.modify (s.computeIndex a) f := hr
  obtain ⟨i, hi, rfl⟩ := List.mem_iff_getElem.mp hmem
  have hi' : i < s.inner.length := by simpa using hi
  rw [List.getElem_modify]
  split
  · exact hf _ (h _ (List.getElem_mem hi'))
  · exact h _ (List.getElem_mem hi')

theorem AllRows.swap {P : Row α → Prop} {s : Storage α} (h : s.AllRows P) (a b : ℤ) :
    (s.swap a b).AllRows P :=
  fun _ hr => h _ (mem_swapAt hr)

theorem AllRows.rezero {P : Row α → Prop} {s : Storage α} (h : s.AllRows P) :
    s.rezero.AllRows P := by
  intro r hr
  rw [rezero_inner] at hr
  exact h r (List.mem_rotate.mp hr)

theorem AllRows.truncate {P : Row α → Prop} {s : Storage α} (h : s.AllRows P) :
    s.truncate.AllRows P :=
  fun r hr => h.rezero r (List.mem_of_mem_take hr)

theorem AllRows.shrinkLines {P : Row α → Prop} {s : Storage α} (h : s.AllRows P) (k : ℕ) :
    (s.shrinkLines k).AllRows P := by
  rw [shrinkLines_eq]
  split
  · exact AllRows.truncate (s := { s with len := s.len - k }) h
  · exact h

theorem AllRows.initializeRows [Inhabited α] {P : Row α → Prop} {s : Storage α}
    (h : s.AllRows P) (n columns : ℕ) (hnew : P (Row.new columns)) :
    (s.initializeRows n columns).AllRows P := by
  unfold Storage.initializeRows
  split
  · intro r hr
    rcases List.mem_append.mp hr with hr | hr
    · exact h.rezero r hr
    · rw [List.eq_of_mem_replicate hr]
      exact hnew
  · exact h

theorem AllRows.foldl {P : Row α → Prop} {f : Storage α → ℤ → Storage α}
    (hf : ∀ s l, AllRows P s → AllRows P (f s l)) :
    ∀ (ls : List ℤ) {s : Storage α}, s.AllRows P → (ls.foldl f s).AllRows P
  | [], _, h => h
  | l :: ls, s, h => AllRows.foldl hf ls (hf s l h)

theorem AllRows.swapLines {P : Row α → Prop} {s : Storage α} (h : s.AllRows P) (shift : ℤ)
    (ls : List ℤ) : (s.swapLines shift ls).AllRows P :=
  AllRows.foldl (fun _ l h => h.swap l _) ls h

theorem AllRows.resetLines [GridSquare α] {P : Row α → Prop} {s : Storage α} (h : s.AllRows P)
    {template : α} (hreset : ∀ r, P r → P (r.reset template)) (ls : List ℤ) :
    (s.resetLines template ls).AllRows P :=
  AllRows.foldl (fun _ l h => h.modify l hreset) ls h

theorem AllRows.markLines {P : Row α → Prop} {s : Storage α} (h : s.AllRows P)
    (hmark : ∀ r, P r → P r.markDirty) (ls : List ℤ) : (s.markLines ls).AllRows P :=
  AllRows.foldl (fun _ l h => h.modify l hmark) ls h

/-! ### Loops over lines -/

/-- The same lines in use, out of as many rows. -/
structure SameLayout (s t : Storage α) : Prop where
  wellFormed : t.WellFormed
  len : t.len = s.len
  visibleLines : t.visibleLines = s.visibleLines
  length : t.inner.length = s.inner.length

theorem SameLayout.refl {s : Storage α} (hs : s.WellFormed) : SameLayout s s := ⟨hs, rfl, rfl, rfl⟩

theorem SameLayout.trans {s t u : Storage α} (hst : SameLayout s t) (htu : SameLayout t u) :
    SameLayout s u :=
  ⟨htu.wellFormed, htu.len.trans hst.len, htu.visibleLines.trans hst.visibleLines,
    htu.length.trans hst.length⟩

theorem SameLayout.inBounds {s t : Storage α} (h : SameLayout s t) {l : ℤ} (hl : s.InBounds l) :
    t.InBounds l := by
  rw [inBounds_iff] at hl ⊢
  unfold top at hl ⊢
  rwa [h.len, h.visibleLines]

theorem sameLayout_modify {s : Storage α} (hs : s.WellFormed) (a : ℤ) (f : Row α → Row α) :
    SameLayout s (s.modify a f) :=
  ⟨modify_wellFormed hs a f, rfl, rfl, modify_length s a f⟩

theorem sameLayout_swap {s : Storage α} (hs : s.WellFormed) (a b : ℤ) :
    SameLayout s (s.swap a b) :=
  ⟨swap_wellFormed hs a b, rfl, rfl, swap_length s a b⟩

theorem sameLayout_foldl {f : Storage α → ℤ → Storage α}
    (hf : ∀ s l, WellFormed s → SameLayout s (f s l)) :
    ∀ (ls : List ℤ) {s : Storage α}, s.WellFormed → SameLayout s (ls.foldl f s)
  | [], _, hs => .refl hs
  | l :: ls, s, hs => (hf s l hs).trans (sameLayout_foldl hf ls (hf s l hs).wellFormed)

/-- The same change made to each of some lines. -/
theorem row_foldl_modify {s : Storage α} (hs : s.WellFormed) (f : Row α → Row α) {ls : List ℤ}
    (hnodup : ls.Nodup) (hls : ∀ l ∈ ls, s.InBounds l) {l : ℤ} (hl : s.InBounds l) :
    (ls.foldl (fun s i => s.modify i f) s).row l = if l ∈ ls then f (s.row l) else s.row l := by
  induction ls generalizing s with
  | nil => simp
  | cons a ls ih =>
    have hsame := sameLayout_modify hs a f
    have ha := hls a List.mem_cons_self
    have hnotin : a ∉ ls := (List.nodup_cons.mp hnodup).1
    rw [List.foldl_cons, ih hsame.wellFormed (List.nodup_cons.mp hnodup).2
      (fun i hi => hsame.inBounds (hls i (List.mem_cons_of_mem a hi))) (hsame.inBounds hl),
      row_modify hs ha hl]
    by_cases hla : l = a
    · subst hla
      simp [hnotin]
    · simp [hla]

theorem sameLayout_resetLines [GridSquare α] {s : Storage α} (hs : s.WellFormed) (template : α) (ls : List ℤ) :
    SameLayout s (s.resetLines template ls) :=
  sameLayout_foldl (fun _ l h => sameLayout_modify h l _) ls hs

theorem sameLayout_markLines {s : Storage α} (hs : s.WellFormed) (ls : List ℤ) :
    SameLayout s (s.markLines ls) :=
  sameLayout_foldl (fun _ l h => sameLayout_modify h l _) ls hs

theorem sameLayout_swapLines {s : Storage α} (hs : s.WellFormed) (shift : ℤ) (ls : List ℤ) :
    SameLayout s (s.swapLines shift ls) :=
  sameLayout_foldl (fun _ l h => sameLayout_swap h l _) ls hs

@[simp] theorem foldl_modify_len (f : Row α → Row α) (ls : List ℤ) (s : Storage α) :
    (ls.foldl (fun s i => s.modify i f) s).len = s.len := by
  induction ls generalizing s with
  | nil => rfl
  | cons a ls ih => rw [List.foldl_cons, ih, modify_len]

@[simp] theorem resetLines_len [GridSquare α] (s : Storage α) (template : α) (ls : List ℤ) :
    (s.resetLines template ls).len = s.len :=
  foldl_modify_len _ ls s

@[simp] theorem markLines_len (s : Storage α) (ls : List ℤ) : (s.markLines ls).len = s.len :=
  foldl_modify_len _ ls s

@[simp] theorem swapLines_len (s : Storage α) (shift : ℤ) (ls : List ℤ) :
    (s.swapLines shift ls).len = s.len := by
  unfold swapLines
  induction ls generalizing s with
  | nil => rfl
  | cons a ls ih => rw [List.foldl_cons, ih, swap_len]

@[simp] theorem rotate_len (s : Storage α) (count : ℤ) : (s.rotate count).len = s.len := rfl

@[simp] theorem rotateDown_len (s : Storage α) (n : ℕ) : (s.rotateDown n).len = s.len := rfl

theorem row_resetLines [GridSquare α] {s : Storage α} (hs : s.WellFormed) (template : α) {ls : List ℤ}
    (hnodup : ls.Nodup) (hls : ∀ l ∈ ls, s.InBounds l) {l : ℤ} (hl : s.InBounds l) :
    (s.resetLines template ls).row l =
      if l ∈ ls then (s.row l).reset template else s.row l :=
  row_foldl_modify hs _ hnodup hls hl

theorem row_markLines {s : Storage α} (hs : s.WellFormed) {ls : List ℤ} (hnodup : ls.Nodup)
    (hls : ∀ l ∈ ls, s.InBounds l) {l : ℤ} (hl : s.InBounds l) :
    (s.markLines ls).row l = if l ∈ ls then (s.row l).markDirty else s.row l :=
  row_foldl_modify hs _ hnodup hls hl

/-- Exchanging each line of `a..b`, in ascending order, with the one `n` further down moves the
rows below up by `n`. What the first `n` rows have in common, the last `n` have then. -/
theorem row_swapLines_ascending {s : Storage α} (hs : s.WellFormed) {n : ℕ} {a b : ℤ}
    (hab : a ≤ b) (ha : s.top ≤ a) (hb : b + n ≤ s.visibleLines) {P : Row α → Prop}
    (hP : ∀ l, a ≤ l → l < a + n → P (s.row l)) :
    (∀ l, a ≤ l → l < b → (s.swapLines n (lineRange a b)).row l = s.row (l + n)) ∧
      (∀ l, s.InBounds l → l < a ∨ b + n ≤ l →
        (s.swapLines n (lineRange a b)).row l = s.row l) ∧
      ∀ l, b ≤ l → l < b + n → P ((s.swapLines n (lineRange a b)).row l) := by
  obtain ⟨k, rfl⟩ : ∃ k : ℕ, b = a + k := ⟨(b - a).toNat, by omega⟩
  clear hab
  induction k with
  | zero =>
    rw [lineRange_empty (by simp)]
    refine ⟨fun l h1 h2 => by simp at h2; omega, fun l _ _ => rfl, fun l h1 h2 => ?_⟩
    exact hP l (by simpa using h1) (by simpa using h2)
  | succ k ih =>
    obtain ⟨hmoved, hkept, hrest⟩ := ih (by push_cast at hb; omega)
    have hrange : lineRange a (a + (k + 1 : ℕ)) = lineRange a (a + k) ++ [a + k] := by
      rw [← lineRange_concat (by omega)]
      push_cast
      congr 1
      ring
    have hsame := sameLayout_swapLines hs n (lineRange a (a + k))
    have hswap : s.swapLines n (lineRange a (a + (k + 1 : ℕ))) =
        (s.swapLines n (lineRange a (a + k))).swap (a + k) (a + k + n) := by
      rw [hrange, swapLines, List.foldl_append]
      rfl
    rw [hswap]
    generalize s.swapLines n (lineRange a (a + k)) = t at hmoved hkept hrest hsame
    push_cast at hb
    have hbounds (l : ℤ) (h1 : a ≤ l) (h2 : l < a + k + 1 + n) : s.InBounds l :=
      inBounds_iff.mpr ⟨by omega, by omega⟩
    have hrow (l : ℤ) (hl : s.InBounds l) :=
      row_swap hsame.wellFormed (hsame.inBounds (hbounds (a + k) (by omega) (by omega)))
        (hsame.inBounds (hbounds (a + k + n) (by omega) (by omega))) (hsame.inBounds hl)
    have hnext : t.row (a + k + n) = s.row (a + k + n) :=
      hkept _ (hbounds _ (by omega) (by omega)) (.inr le_rfl)
    refine ⟨?_, ?_, ?_⟩
    · intro l h1 h2
      push_cast at h2
      rw [hrow l (hbounds l h1 (by omega))]
      by_cases hl : l = a + k
      · subst hl
        rw [if_pos rfl, hnext]
        split_ifs with h0
        · rw [← h0] at hnext ⊢
          exact hnext
        · rfl
      · rw [if_neg hl, if_neg (by omega), hmoved l h1 (by omega)]
    · intro l hl hout
      push_cast at hout
      rw [hrow l hl, if_neg (by omega), if_neg (by omega)]
      exact hkept l hl (by omega)
    · intro l h1 h2
      push_cast at h1 h2
      rw [hrow l (hbounds l (by omega) (by omega))]
      split_ifs with hl h0
      · exact hrest _ (by omega) (by omega)
      · exact absurd h0 (by omega)
      · exact hrest l (by omega) (by omega)

/-- Exchanging each line of `a..b`, in descending order, with the one `n` further up moves the
rows above down by `n`. -/
theorem row_swapLines_descending {s : Storage α} (hs : s.WellFormed) {n : ℕ} {a b : ℤ}
    (hab : a ≤ b) (ha : s.top ≤ a - n) (hb : b ≤ s.visibleLines) :
    (∀ l, a ≤ l → l < b →
        (s.swapLines (-(n : ℤ)) (lineRange a b).reverse).row l = s.row (l - n)) ∧
      ∀ l, s.InBounds l → l < a - n ∨ b ≤ l →
        (s.swapLines (-(n : ℤ)) (lineRange a b).reverse).row l = s.row l := by
  obtain ⟨k, rfl⟩ : ∃ k : ℕ, a = b - k := ⟨(b - a).toNat, by omega⟩
  clear hab
  induction k with
  | zero =>
    rw [lineRange_empty (by simp)]
    exact ⟨fun l h1 h2 => by simp at h1; omega, fun l _ _ => rfl⟩
  | succ k ih =>
    push_cast at ha
    obtain ⟨hmoved, hkept⟩ := ih (by omega)
    have hrange : (lineRange (b - (k + 1 : ℕ)) b).reverse =
        (lineRange (b - k) b).reverse ++ [b - (k + 1 : ℕ)] := by
      rw [lineRange_cons (by push_cast; omega), List.reverse_cons]
      congr 3
      push_cast
      ring
    have hsame := sameLayout_swapLines hs (-(n : ℤ)) (lineRange (b - k) b).reverse
    have hswap : s.swapLines (-(n : ℤ)) (lineRange (b - (k + 1 : ℕ)) b).reverse =
        (s.swapLines (-(n : ℤ)) (lineRange (b - k) b).reverse).swap (b - k - 1) (b - k - 1 - n) := by
      rw [hrange, swapLines, List.foldl_append]
      simp only [List.foldl_cons, List.foldl_nil]
      push_cast
      rw [show b - (k + 1 : ℤ) = b - k - 1 by ring]
      rfl
    rw [hswap]
    generalize s.swapLines (-(n : ℤ)) (lineRange (b - k) b).reverse = t at hmoved hkept hsame
    have hbounds (l : ℤ) (h1 : b - k - 1 - n ≤ l) (h2 : l < b) : s.InBounds l :=
      inBounds_iff.mpr ⟨by omega, by omega⟩
    have hrow (l : ℤ) (hl : s.InBounds l) :=
      row_swap hsame.wellFormed (hsame.inBounds (hbounds (b - k - 1) (by omega) (by omega)))
        (hsame.inBounds (hbounds (b - k - 1 - n) (by omega) (by omega))) (hsame.inBounds hl)
    have hnext : t.row (b - k - 1 - n) = s.row (b - k - 1 - n) :=
      hkept _ (hbounds _ (by omega) (by omega)) (.inl (by omega))
    constructor
    · intro l h1 h2
      push_cast at h1
      rw [hrow l (hbounds l (by omega) h2)]
      by_cases hl : l = b - k - 1
      · subst hl
        rw [if_pos rfl, hnext]
        split_ifs with h0
        · rw [← h0] at hnext ⊢
          exact hnext
        · rfl
      · rw [if_neg hl, if_neg (by omega), hmoved l (by omega) h2]
    · intro l hl hout
      push_cast at hout
      rw [hrow l hl, if_neg (by omega), if_neg (by omega)]
      exact hkept l hl (by omega)

/-- Exchanging each line of `a..b`, in ascending order, with the one `n` further up is the
same as exchanging the lines above with those further down. -/
theorem swapLines_neg_ascending (s : Storage α) (n : ℕ) (a b : ℤ) :
    s.swapLines (-(n : ℤ)) (lineRange a b) = s.swapLines n (lineRange (a - n) (b - n)) := by
  have hcomm (s : Storage α) (i j : ℤ) : s.swap i j = s.swap j i := by
    unfold swap
    rw [swapAt_comm]
  unfold swapLines
  rw [sub_eq_add_neg, sub_eq_add_neg, ← map_add_lineRange, List.foldl_map]
  congr 1
  funext s i
  rw [hcomm]
  congr 1
  ring

end Storage
end Rio
