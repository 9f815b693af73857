import Rio.Lib.Checked

/-! Rectangles of elements in a flat buffer that holds one row after the other: copying one into
a buffer, and reading it back. -/
namespace Rio.Raster
open Rio.Checked

universe u
variable {α : Type u}

/-! ### Positions -/

theorem index_inj {stride x y x' y' : ℕ} (hx : x < stride) (hx' : x' < stride)
    (h : y * stride + x = y' * stride + x') : x = x' ∧ y = y' := by
  have hstride : 0 < stride := Nat.zero_lt_of_lt hx
  have hcol : x = x' := by
    have hmod := congrArg (· % stride) h
    simpa only [Nat.mul_add_mod_self_right, Nat.mod_eq_of_lt hx, Nat.mod_eq_of_lt hx'] using hmod
  refine ⟨hcol, ?_⟩
  rw [hcol] at h
  exact Nat.eq_of_mul_eq_mul_right hstride (Nat.add_right_cancel h)

theorem index_lt {stride x y rows : ℕ} (hx : x < stride) (hy : y < rows) :
    y * stride + x < rows * stride := by
  calc y * stride + x < y * stride + stride := Nat.add_lt_add_left hx _
    _ = (y + 1) * stride := (Nat.succ_mul y stride).symm
    _ ≤ rows * stride := Nat.mul_le_mul_right stride hy

/-! ### Writing a slice -/

/-- `xs[start..start + ys.len()].copy_from_slice(ys)` -/
def overwrite (xs : List α) (start : ℕ) (ys : List α) : Outcome (List α) :=
  if start + ys.length ≤ xs.length then
    .ok (xs.take start ++ (ys ++ xs.drop (start + ys.length)))
  else .error .index

theorem overwrite_of_le (xs ys : List α) (start : ℕ) (h : start + ys.length ≤ xs.length) :
    ∃ out, overwrite xs start ys = .ok out ∧ out.length = xs.length ∧
      ∀ i, out[i]? = if start ≤ i ∧ i < start + ys.length then ys[i - start]? else xs[i]? := by
  refine ⟨_, if_pos h, ?_, fun i => ?_⟩
  · simp only [List.length_append, List.length_take, List.length_drop]
    omega
  · have htake : (xs.take start).length = start := by
      rw [List.length_take]
      omega
    by_cases hbefore : i < start
    · rw [List.getElem?_append_left (by rwa [htake]), List.getElem?_take_of_lt hbefore,
        if_neg (by omega)]
    rw [List.getElem?_append_right (by omega), htake]
    by_cases hinside : i < start + ys.length
    · rw [List.getElem?_append_left (by omega), if_pos (by omega)]
    · rw [List.getElem?_append_right (by omega), List.getElem?_drop, if_neg (by omega)]
      congr 1
      omega

/-! ### Copying a rectangle -/

/-- Copy the rows of a rectangle, which `src` holds one after the other, to the position of its
first element. -/
def blit (stride x y rowLen rows : ℕ) (src dst : List α) : Outcome (List α) :=
  (List.range rows).foldlM
    (fun dst row => do
      let line ← slice src (row * rowLen) (row * rowLen + rowLen)
      overwrite dst ((y + row) * stride + x) line)
    dst

/-- What a rectangle that fits leaves in the buffer. -/
structure Blits (stride x y rowLen rows : ℕ) (src dst out : List α) : Prop where
  length : out.length = dst.length
  inside : ∀ row < rows, ∀ i < rowLen,
    out[(y + row) * stride + (x + i)]? = src[row * rowLen + i]?
  outside : ∀ px py, px < stride → ¬(x ≤ px ∧ px < x + rowLen ∧ y ≤ py ∧ py < y + rows) →
    out[py * stride + px]? = dst[py * stride + px]?

theorem blit_of_le {stride x y rowLen rows : ℕ} (src dst : List α) (hx : x + rowLen ≤ stride)
    (hy : (y + rows) * stride ≤ dst.length) (hsrc : rows * rowLen ≤ src.length) :
    ∃ out, blit stride x y rowLen rows src dst = .ok out ∧
      Blits stride x y rowLen rows src dst out := by
  induction rows with
  | zero =>
    refine ⟨dst, rfl, rfl, fun row hrow => absurd hrow (Nat.not_lt_zero row), fun _ _ _ _ => rfl⟩
  | succ rows ih =>
    have hrows : (y + rows + 1) * stride = (y + rows) * stride + stride := Nat.succ_mul _ _
    have hsrcRows : (rows + 1) * rowLen = rows * rowLen + rowLen := Nat.succ_mul _ _
    rw [← Nat.add_assoc] at hy
    obtain ⟨before, hbefore, hlength, hinside, houtside⟩ := ih (by omega) (by omega)
    have hslice : slice src (rows * rowLen) (rows * rowLen + rowLen) =
        .ok ((src.drop (rows * rowLen)).take rowLen) := by
      rw [slice_of_le (Nat.le_add_right _ _) (by omega), Nat.add_sub_cancel_left]
    have hline : ((src.drop (rows * rowLen)).take rowLen).length = rowLen := by
      rw [List.length_take, List.length_drop]
      omega
    obtain ⟨out, hout, hlen, hget⟩ := overwrite_of_le before
      ((src.drop (rows * rowLen)).take rowLen) ((y + rows) * stride + x)
      (by rw [hline, hlength]; omega)
    refine ⟨out, ?_, hlen.trans hlength, fun row hrow i hi => ?_, fun px py hpx hout => ?_⟩
    · unfold blit at hbefore ⊢
      rw [List.range_succ, List.foldlM_append, hbefore, ok_bind, List.foldlM_cons, hslice, ok_bind,
        hout]
      rfl
    · rw [hget, hline]
      obtain hrow | rfl := Nat.lt_succ_iff_lt_or_eq.mp hrow
      · rw [if_neg, hinside row hrow i hi]
        -- an earlier row ends before this one starts
        have hbelow : (y + row + 1) * stride ≤ (y + rows) * stride :=
          Nat.mul_le_mul_right stride (by omega)
        rw [Nat.succ_mul] at hbelow
        omega
      · rw [if_pos (by omega), List.getElem?_take_of_lt (by omega), List.getElem?_drop]
        congr 1
        omega
    · rw [hget, hline, if_neg, houtside px py hpx (by omega)]
      rintro ⟨hle, hlt⟩
      -- a position in the row that is written is one of its columns
      obtain hpy | rfl | hpy := Nat.lt_trichotomy py (y + rows)
      · have hbelow : (py + 1) * stride ≤ (y + rows) * stride :=
          Nat.mul_le_mul_right stride hpy
        rw [Nat.succ_mul] at hbelow
        omega
      · omega
      · have habove : (y + rows + 1) * stride ≤ py * stride := Nat.mul_le_mul_right stride hpy
        omega

/-! ### Reading a rectangle -/

def readRect (stride x y rowLen rows : ℕ) (buf : List α) : List α :=
  (List.range rows).flatMap fun row => (buf.drop ((y + row) * stride + x)).take rowLen

theorem readRect_succ (stride x y rowLen rows : ℕ) (buf : List α) :
    readRect stride x y rowLen (rows + 1) buf = readRect stride x y rowLen rows buf ++
      (buf.drop ((y + rows) * stride + x)).take rowLen := by
  unfold readRect
  rw [List.range_succ, List.flatMap_append, List.flatMap_singleton]

/-- A rectangle reads as the elements that its positions hold. -/
theorem readRect_eq {stride x y rowLen rows : ℕ} {buf src : List α}
    (hsrc : src.length = rows * rowLen)
    (h : ∀ row < rows, ∀ i < rowLen, buf[(y + row) * stride + (x + i)]? = src[row * rowLen + i]?) :
    readRect stride x y rowLen rows buf = src := by
  have htaken : ∀ n ≤ rows, readRect stride x y rowLen n buf = src.take (n * rowLen) := by
    intro n
    induction n with
    | zero =>
      intro _
      rw [Nat.zero_mul]
      rfl
    | succ n ih =>
      intro hn
      have hline : (buf.drop ((y + n) * stride + x)).take rowLen =
          (src.drop (n * rowLen)).take rowLen := by
        refine List.ext_getElem? fun i => ?_
        by_cases hi : i < rowLen
        · rw [List.getElem?_take_of_lt hi, List.getElem?_take_of_lt hi, List.getElem?_drop,
            List.getElem?_drop, Nat.add_assoc, h n hn i hi]
        · rw [List.getElem?_take, List.getElem?_take, if_neg hi, if_neg hi]
      rw [readRect_succ, ih (Nat.le_of_succ_le hn), hline, Nat.succ_mul, List.take_add]
  rw [htaken rows le_rfl, ← hsrc, List.take_length]

/-! ### Widening a buffer in place -/

/-- `xs.resize(len, value)` -/
def resize (xs : List α) (len : ℕ) (value : α) : List α :=
  xs.take len ++ List.replicate (len - xs.length) value

theorem resize_length (xs : List α) (len : ℕ) (value : α) : (resize xs len value).length = len := by
  unfold resize
  rw [List.length_append, List.length_take, List.length_replicate]
  omega

theorem getElem?_resize {xs : List α} {len : ℕ} (hlen : xs.length ≤ len) (value : α) (i : ℕ) :
    (resize xs len value)[i]? =
      if i < xs.length then xs[i]? else if i < len then some value else none := by
  unfold resize
  rw [List.take_of_length_le hlen]
  by_cases hi : i < xs.length
  · rw [List.getElem?_append_left hi, if_pos hi]
  · rw [List.getElem?_append_right (Nat.le_of_not_lt hi), List.getElem?_replicate, if_neg hi]
    exact if_congr (by omega) rfl rfl

/-- `xs.swap(i, j)` -/
def swap (xs : List α) (i j : ℕ) : Outcome (List α) := do
  let a ← Checked.read xs i
  let b ← Checked.read xs j
  .ok ((xs.set i b).set j a)

theorem swap_of_lt (xs : List α) {i j : ℕ} (hi : i < xs.length) (hj : j < xs.length) :
    ∃ out, swap xs i j = .ok out ∧ out.length = xs.length ∧
      ∀ k, out[k]? = if k = j then xs[i]? else if k = i then xs[j]? else xs[k]? := by
  refine ⟨(xs.set i xs[j]).set j xs[i], ?_, ?_, fun k => ?_⟩
  · unfold swap
    rw [read_of_lt hi, ok_bind, read_of_lt hj, ok_bind]
  · rw [List.length_set, List.length_set]
  · rw [List.getElem?_set, List.getElem?_set, List.length_set]
    by_cases hkj : j = k
    · rw [if_pos hkj, if_pos hj, if_pos hkj.symm, List.getElem?_eq_getElem hi]
    · rw [if_neg hkj, if_neg (Ne.symm hkj)]
      by_cases hki : i = k
      · rw [if_pos hki, if_pos hi, if_pos hki.symm, List.getElem?_eq_getElem hj]
      · rw [if_neg hki, if_neg (Ne.symm hki)]

/-- Move the rows of a buffer to the positions that they have with a greater length, the last
element first. -/
def widenRow (stride newStride y : ℕ) (xs : List α) : ℕ → Outcome (List α)
  | 0 => .ok xs
  | x + 1 => do
    let xs ← swap xs (y * stride + x) (y * newStride + x)
    widenRow stride newStride y xs x

def widen (stride newStride : ℕ) (xs : List α) : ℕ → Outcome (List α)
  | 0 => .ok xs
  | y + 1 => do
    let xs ← widenRow stride newStride y xs stride
    widen stride newStride xs y

/-- What the buffer is when only the elements of the first `n` positions are not moved yet: these
stand where they were, the others where they go, and what is left over is blank. -/
structure Widening (stride newStride rows : ℕ) (blank : α) (orig : List α) (n : ℕ) (xs : List α) :
    Prop where
  todo : ∀ k < n, xs[k]? = orig[k]?
  moved : ∀ x < stride, ∀ y < rows, n ≤ y * stride + x →
    xs[y * newStride + x]? = orig[y * stride + x]?
  blank : ∀ k < xs.length, n ≤ k →
    (∀ x < stride, ∀ y < rows, n ≤ y * stride + x → k ≠ y * newStride + x) → xs[k]? = some blank

theorem Widening.swap {stride newStride rows x y : ℕ} {blank : α} {orig xs : List α}
    (hstride : stride ≤ newStride) (hx : x < stride) (hy : y < rows)
    (hlen : rows * newStride ≤ xs.length)
    (h : Widening stride newStride rows blank orig (y * stride + x + 1) xs) :
    ∃ out, swap xs (y * stride + x) (y * newStride + x) = .ok out ∧ out.length = xs.length ∧
      Widening stride newStride rows blank orig (y * stride + x) out := by
  have hle : y * stride + x ≤ y * newStride + x :=
    Nat.add_le_add_right (Nat.mul_le_mul_left y hstride) x
  have hnew := index_lt (hx.trans_le hstride) hy
  obtain ⟨out, hswap, hlength, hget⟩ := swap_of_lt xs (i := y * stride + x)
    (j := y * newStride + x) (by omega) (by omega)
  -- no other element goes to the new position, or stands at the old one
  have hother {x' y' : ℕ} (hx' : x' < stride) (hy' : y' < rows)
      (hne : y * stride + x ≠ y' * stride + x') (hn : y * stride + x ≤ y' * stride + x') :
      y' * newStride + x' ≠ y * newStride + x ∧ y' * newStride + x' ≠ y * stride + x := by
    constructor
    · intro heq
      obtain ⟨rfl, rfl⟩ := index_inj (hx'.trans_le hstride) (hx.trans_le hstride) heq
      exact hne rfl
    · have hle' : y' * stride + x' ≤ y' * newStride + x' :=
        Nat.add_le_add_right (Nat.mul_le_mul_left y' hstride) x'
      omega
  refine ⟨out, hswap, hlength, fun k hk => ?_, fun x' hx' y' hy' hn => ?_, fun k hk hn hfree => ?_⟩
  · rw [hget, if_neg (by omega), if_neg (by omega)]
    exact h.todo k (by omega)
  · rw [hget]
    by_cases heq : y * stride + x = y' * stride + x'
    · obtain ⟨rfl, rfl⟩ := index_inj hx hx' heq
      rw [if_pos rfl]
      exact h.todo _ (Nat.lt_succ_self _)
    · obtain ⟨hnew', hold'⟩ := hother hx' hy' heq hn
      rw [if_neg hnew', if_neg hold']
      exact h.moved x' hx' y' hy' (by omega)
  · have hfresh := hfree x hx y hy le_rfl
    rw [hget, if_neg hfresh]
    rw [hlength] at hk
    by_cases hold : k = y * stride + x
    · rw [if_pos hold]
      refine h.blank _ (by omega) (by omega) fun x' hx' y' hy' hn' => ?_
      exact (hother hx' hy' (by omega) (by omega)).1.symm
    · rw [if_neg hold]
      exact h.blank k hk (by omega) fun x' hx' y' hy' hn' => hfree x' hx' y' hy' (by omega)

theorem Widening.row {stride newStride rows y : ℕ} {blank : α} {orig : List α}
    (hstride : stride ≤ newStride) (hy : y < rows) : ∀ {x : ℕ} {xs : List α}, x ≤ stride →
    rows * newStride ≤ xs.length → Widening stride newStride rows blank orig (y * stride + x) xs →
    ∃ out, widenRow stride newStride y xs x = .ok out ∧ out.length = xs.length ∧
      Widening stride newStride rows blank orig (y * stride) out
  | 0, xs, _, _, h => ⟨xs, rfl, rfl, h⟩
  | x + 1, xs, hx, hlen, h => by
    obtain ⟨mid, hswap, hmid, hwide⟩ := h.swap hstride hx hy hlen
    obtain ⟨out, hrow, hout, hdone⟩ := Widening.row hstride hy (Nat.le_of_succ_le hx)
      (hmid ▸ hlen) hwide
    refine ⟨out, ?_, hout.trans hmid, hdone⟩
    unfold widenRow
    rw [hswap]
    exact hrow

theorem Widening.all {stride newStride rows : ℕ} {blank : α} {orig : List α}
    (hstride : stride ≤ newStride) : ∀ {y : ℕ} {xs : List α}, y ≤ rows →
    rows * newStride ≤ xs.length → Widening stride newStride rows blank orig (y * stride) xs →
    ∃ out, widen stride newStride xs y = .ok out ∧ out.length = xs.length ∧
      Widening stride newStride rows blank orig 0 out
  | 0, xs, _, _, h => ⟨xs, rfl, rfl, by rwa [Nat.zero_mul] at h⟩
  | y + 1, xs, hy, hlen, h => by
    rw [Nat.succ_mul] at h
    obtain ⟨mid, hrow, hmid, hwide⟩ := h.row hstride hy le_rfl hlen
    obtain ⟨out, hrest, hout, hdone⟩ := Widening.all hstride (Nat.le_of_succ_le hy)
      (hmid ▸ hlen) hwide
    refine ⟨out, ?_, hout.trans hmid, hdone⟩
    unfold widen
    rw [hrow]
    exact hrest

/-- A widened buffer has the old picture in its top left corner, and is blank elsewhere. -/
theorem widen_of_le {stride newStride rows newRows : ℕ} (orig : List α) (blank : α)
    (hstride : stride ≤ newStride) (hrows : rows ≤ newRows)
    (hlen : orig.length = rows * stride) :
    ∃ out, widen stride newStride (resize orig (newRows * newStride) blank) rows = .ok out ∧
      out.length = newRows * newStride ∧
      ∀ x < newStride, ∀ y < newRows, out[y * newStride + x]? =
        if x < stride ∧ y < rows then orig[y * stride + x]? else some blank := by
  have hle : orig.length ≤ newRows * newStride :=
    hlen.trans_le (Nat.mul_le_mul hrows hstride)
  have hlength := resize_length orig (newRows * newStride) blank
  have hstart : Widening stride newStride rows blank orig (rows * stride)
      (resize orig (newRows * newStride) blank) := by
    refine ⟨fun k hk => ?_, fun x hx y hy hn => ?_, fun k hk hn _ => ?_⟩
    · rw [getElem?_resize hle, if_pos (hlen ▸ hk)]
    · exact absurd (index_lt hx hy) (Nat.not_lt.mpr hn)
    · rw [hlength] at hk
      rw [getElem?_resize hle, if_neg (by omega), if_pos hk]
  obtain ⟨out, hwiden, hout, hdone⟩ := hstart.all hstride le_rfl
    ((Nat.mul_le_mul_right newStride hrows).trans_eq hlength.symm)
  refine ⟨out, hwiden, hout.trans hlength, fun x hx y hy => ?_⟩
  by_cases hin : x < stride ∧ y < rows
  · rw [if_pos hin]
    exact hdone.moved x hin.1 y hin.2 (Nat.zero_le _)
  · rw [if_neg hin]
    refine hdone.blank _ ?_ (Nat.zero_le _) fun x' hx' y' hy' _ heq => hin ?_
    · rw [hout, hlength]
      exact index_lt hx hy
    · obtain ⟨rfl, rfl⟩ := index_inj hx (hx'.trans_le hstride) heq
      exact ⟨hx', hy'⟩

end Rio.Raster
