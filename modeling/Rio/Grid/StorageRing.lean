import Rio.Grid.Storage
import Rio.Lib.Runs

/-! The storage as a pair of lists: the rows in use from the bottom line up, and the rows kept
behind them. Every operation of the storage is an operation on the two lists. -/

set_option linter.dupNamespace false

namespace Rio
open Rio.Ring Rio.Runs

/-- What a storage holds: `lines` in use, bottom line first, `cached` rows behind them. -/
structure Buffer (α : Type) where
  lines : List (Row α)
  cached : List (Row α)
  visibleLines : ℕ

inductive StorageOp (α : Type)
  | initializeRows (additionalRows columns : ℕ)
  | growVisibleLines (next : ℕ)
  | shrinkVisibleLines (next : ℕ)
  | shrinkLines (shrinkage : ℕ)
  | truncate
  | rotate (count : ℤ)
  | rotateDown (count : ℕ)
  | swap (a b : ℤ)
  | takeAll
  | replaceInner (vec : List (Row α))

variable {α : Type}

namespace Buffer

/-- The position of a line among the rows in use. -/
def index (b : Buffer α) (line : ℤ) : ℕ := (b.visibleLines - 1 - line).toNat

/-- Append rows at the history end: the cached ones first, fresh ones behind them. -/
def extend [Inhabited α] (b : Buffer α) (additionalRows columns : ℕ) : Buffer α :=
  let pool :=
    if b.cached.length < additionalRows then
      b.cached ++ List.replicate (max additionalRows maxCacheSize) (Row.new columns)
    else b.cached
  { b with lines := b.lines ++ pool.take additionalRows, cached := pool.drop additionalRows }

/-- Drop rows at the history end; they are cached unless the cache gets too long. -/
def dropOldest (b : Buffer α) (shrinkage : ℕ) : Buffer α :=
  let kept := b.lines.length - shrinkage
  let cached := b.lines.drop kept ++ b.cached
  { b with
    lines := b.lines.take kept
    cached := if maxCacheSize < cached.length then [] else cached }

/-- Rotate all rows, the cached ones included. -/
def rotateAll (b : Buffer α) (count : ℤ) : Buffer α :=
  let rows := b.lines ++ b.cached
  let rows := rows.rotate (count % rows.length).toNat
  { b with lines := rows.take b.lines.length, cached := rows.drop b.lines.length }

def step [Inhabited α] (b : Buffer α) : StorageOp α → Buffer α
  | .initializeRows additionalRows columns => b.extend additionalRows columns
  | .growVisibleLines next =>
    let columns := (b.lines.getD (b.index 0) default).len
    { b.extend (next - b.visibleLines) columns with visibleLines := next }
  | .shrinkVisibleLines next =>
    { b.dropOldest (b.visibleLines - next) with visibleLines := next }
  | .shrinkLines shrinkage => b.dropOldest shrinkage
  | .truncate => { b with cached := [] }
  | .rotate count => b.rotateAll count
  | .rotateDown count => b.rotateAll count
  | .swap a c => { b with lines := swapAt b.lines (b.index a) (b.index c) }
  | .takeAll => { b with lines := [], cached := [] }
  | .replaceInner vec => { b with lines := vec, cached := [] }

end Buffer

namespace Storage

def step [Inhabited α] (s : Storage α) : StorageOp α → Storage α
  | .initializeRows additionalRows columns => s.initializeRows additionalRows columns
  | .growVisibleLines next => s.growVisibleLines next
  | .shrinkVisibleLines next => s.shrinkVisibleLines next
  | .shrinkLines shrinkage => s.shrinkLines shrinkage
  | .truncate => s.truncate
  | .rotate count => s.rotate count
  | .rotateDown count => s.rotateDown count
  | .swap a b => s.swap a b
  | .takeAll => s.takeAll.1
  | .replaceInner vec => s.replaceInner vec

/-- The assertions of `computeIndex`. -/
def InBounds (s : Storage α) (line : ℤ) : Prop := line < s.visibleLines ∧ s.offset line < s.len

instance (s : Storage α) (line : ℤ) : Decidable (s.InBounds line) :=
  inferInstanceAs (Decidable (_ ∧ _))

/-- What the operations assert, or need for their subtractions. -/
def Asserted (s : Storage α) : StorageOp α → Prop
  | .growVisibleLines next => s.visibleLines ≤ next ∧ s.InBounds 0
  | .shrinkVisibleLines next => next ≤ s.visibleLines ∧ s.visibleLines - next ≤ s.len
  | .shrinkLines shrinkage => shrinkage ≤ s.len
  | .rotate count => 0 < s.inner.length ∧ |count| ≤ s.inner.length
  | .rotateDown _ => 0 < s.inner.length
  | .swap a b => s.InBounds a ∧ s.InBounds b
  | _ => True

/-- The operations that can leave fewer rows in use than there are visible lines. -/
def KeepsVisible (s : Storage α) : StorageOp α → Prop
  | .shrinkLines shrinkage => s.visibleLines + shrinkage ≤ s.len
  | .takeAll => s.visibleLines = 0
  | .replaceInner vec => s.visibleLines ≤ vec.length
  | _ => True

/-- The start lies in the buffer, and so do the rows in use. -/
structure WellFormed (s : Storage α) : Prop where
  zero_lt : s.zero < s.inner.length ∨ s.inner = []
  len_le : s.len ≤ s.inner.length

/-- All rows from the bottom line on. -/
def ring (s : Storage α) : List (Row α) := s.inner.rotate s.zero

def buffer (s : Storage α) : Buffer α := ⟨s.ring.take s.len, s.ring.drop s.len, s.visibleLines⟩

@[simp] theorem length_ring (s : Storage α) : s.ring.length = s.inner.length :=
  List.length_rotate ..

theorem withCapacity_wellFormed [Inhabited α] (visibleLines columns : ℕ) :
    (withCapacity visibleLines columns : Storage α).WellFormed := by
  refine ⟨?_, by simp [withCapacity]⟩
  rcases visibleLines with _ | n
  · right
    simp [withCapacity]
  · left
    simp [withCapacity]

/-! ### Lines and indices -/

theorem computeIndex_eq (s : Storage α) (line : ℤ) :
    s.computeIndex line = ringIndex s.zero s.inner.length (s.offset line) := rfl

theorem offset_eq {s : Storage α} {line : ℤ} (hline : line < s.visibleLines) :
    s.offset line = s.buffer.index line := by
  unfold offset Buffer.index buffer
  simp only
  omega

theorem WellFormed.zero_lt_of_len {s : Storage α} (hs : s.WellFormed) {n : ℕ} (hn : n < s.len) :
    s.zero < s.inner.length := by
  rcases hs.zero_lt with h | h
  · exact h
  · have := hs.len_le
    rw [h, List.length_nil] at this
    omega

theorem computeIndex_lt {s : Storage α} (hs : s.WellFormed) {line : ℤ} (hline : s.InBounds line) :
    s.computeIndex line < s.inner.length := by
  have hlen := hs.len_le
  have hoff := hline.2
  rw [computeIndex_eq]
  exact ringIndex_lt (hs.zero_lt_of_len hoff) (by omega)

/-- A line in bounds is read from the list of the rows in use. -/
theorem getElem?_computeIndex {s : Storage α} (hs : s.WellFormed) {line : ℤ}
    (hline : s.InBounds line) :
    s.inner[s.computeIndex line]? = s.buffer.lines[s.buffer.index line]? := by
  have hlen := hs.len_le
  have hoff := hline.2
  have hidx := offset_eq hline.1
  rw [computeIndex_eq, ← getElem?_rotate (hs.zero_lt_of_len hoff) (by omega), ← hidx]
  unfold buffer
  rw [List.getElem?_take_of_lt hoff, ring]

/-! ### The operations on the ring -/

theorem rezero_inner (s : Storage α) : s.rezero.inner = s.ring := by
  unfold rezero ring
  split
  next h => rw [h, List.rotate_zero]
  next => rfl

theorem rezero_zero (s : Storage α) : s.rezero.zero = 0 := by
  unfold rezero
  split
  next h => exact h
  next => rfl

theorem rezero_len (s : Storage α) : s.rezero.len = s.len := by
  unfold rezero
  split <;> rfl

theorem rezero_visibleLines (s : Storage α) : s.rezero.visibleLines = s.visibleLines := by
  unfold rezero
  split <;> rfl

theorem truncate_eq (s : Storage α) :
    s.truncate = ⟨s.ring.take s.len, 0, s.visibleLines, s.len⟩ := by
  unfold truncate
  simp only [rezero_inner, rezero_zero, rezero_len, rezero_visibleLines]

theorem truncate_ring (s : Storage α) : s.truncate.ring = s.ring.take s.len := by
  rw [truncate_eq, ring]
  simp

private theorem wellFormed_zero (inner : List (Row α)) (visibleLines len : ℕ)
    (hlen : len ≤ inner.length) : WellFormed ⟨inner, 0, visibleLines, len⟩ := by
  refine ⟨?_, hlen⟩
  rcases inner with _ | ⟨r, inner⟩
  · exact .inr rfl
  · exact .inl (Nat.succ_pos _)

theorem truncate_wellFormed {s : Storage α} (hs : s.WellFormed) : s.truncate.WellFormed := by
  rw [truncate_eq]
  apply wellFormed_zero
  rw [List.length_take, length_ring]
  exact le_min le_rfl hs.len_le

theorem truncate_buffer {s : Storage α} (hs : s.WellFormed) :
    s.truncate.buffer = { s.buffer with cached := [] } := by
  have hlen : (s.ring.take s.len).length = s.len :=
    List.length_take_of_le (by rw [length_ring]; exact hs.len_le)
  unfold buffer
  rw [truncate_ring, truncate_eq]
  simp only
  rw [List.take_of_length_le hlen.le, List.drop_eq_nil_of_le hlen.le]

section Initialize

variable [Inhabited α]

theorem initializeRows_visibleLines (s : Storage α) (n columns : ℕ) :
    (s.initializeRows n columns).visibleLines = s.visibleLines := by
  unfold initializeRows
  split
  · exact rezero_visibleLines s
  · rfl

theorem initializeRows_len (s : Storage α) (n columns : ℕ) :
    (s.initializeRows n columns).len = s.len + n := by
  unfold initializeRows
  split
  · exact congrArg (· + n) (rezero_len s)
  · rfl

theorem initializeRows_ring (s : Storage α) (n columns : ℕ) :
    (s.initializeRows n columns).ring =
      if s.inner.length < s.len + n then
        s.ring ++ List.replicate (max n maxCacheSize) (Row.new columns)
      else s.ring := by
  unfold initializeRows
  split
  next h => simp only [ring, rezero_zero, rezero_inner, List.rotate_zero]
  next h => rfl

theorem initializeRows_wellFormed {s : Storage α} (hs : s.WellFormed) (n columns : ℕ) :
    (s.initializeRows n columns).WellFormed := by
  have hlen := hs.len_le
  by_cases hgrow : s.inner.length < s.len + n
  · have hinner : (s.initializeRows n columns).inner =
        s.ring ++ List.replicate (max n maxCacheSize) (Row.new columns) := by
      unfold initializeRows
      rw [if_pos hgrow]
      simp only [rezero_inner]
    have hzero : (s.initializeRows n columns).zero = 0 := by
      unfold initializeRows
      rw [if_pos hgrow]
      exact rezero_zero s
    have hsize : (s.initializeRows n columns).inner.length =
        s.inner.length + max n maxCacheSize := by
      rw [hinner, List.length_append, length_ring, List.length_replicate]
    constructor
    · left
      rw [hzero, hsize]
      unfold maxCacheSize
      omega
    · rw [initializeRows_len, hsize]
      omega
  · have heq : s.initializeRows n columns = { s with len := s.len + n } := by
      unfold initializeRows
      rw [if_neg hgrow]
    rw [heq]
    exact ⟨hs.zero_lt, by simp only; omega⟩

theorem initializeRows_buffer {s : Storage α} (hs : s.WellFormed) (n columns : ℕ) :
    (s.initializeRows n columns).buffer = s.buffer.extend n columns := by
  have hlen : s.len ≤ s.ring.length := by
    rw [length_ring]
    exact hs.len_le
  have hcond : (s.ring.drop s.len).length < n ↔ s.inner.length < s.len + n := by
    have hinner := hs.len_le
    rw [List.length_drop, length_ring]
    omega
  unfold buffer Buffer.extend
  rw [initializeRows_ring, initializeRows_len, initializeRows_visibleLines]
  simp only [hcond]
  split
  · rw [List.take_add, ← List.drop_drop, List.take_append_of_le_length hlen,
      List.drop_append_of_le_length hlen]
  · rw [List.take_add, ← List.drop_drop]

theorem growVisibleLines_buffer {s : Storage α} (hs : s.WellFormed) {next : ℕ}
    (hzero : s.InBounds 0) :
    (s.growVisibleLines next).buffer = s.buffer.step (.growVisibleLines next) := by
  have hrow : s.row 0 = s.buffer.lines.getD (s.buffer.index 0) default := by
    rw [row, List.getD_eq_getElem?_getD, getElem?_computeIndex hs hzero,
      List.getD_eq_getElem?_getD]
  have hext := initializeRows_buffer hs (next - s.visibleLines) (s.row 0).len
  rw [hrow] at hext
  unfold growVisibleLines Buffer.step
  rw [hrow]
  exact congrArg (fun b : Buffer α => { b with visibleLines := next }) hext

end Initialize

theorem shrinkLines_eq (s : Storage α) (k : ℕ) :
    s.shrinkLines k =
      if s.len - k + maxCacheSize < s.inner.length then { s with len := s.len - k }.truncate
      else { s with len := s.len - k } := rfl

theorem shrinkLines_visibleLines (s : Storage α) (k : ℕ) :
    (s.shrinkLines k).visibleLines = s.visibleLines := by
  rw [shrinkLines_eq]
  split
  · rw [truncate_eq]
  · rfl

theorem shrinkLines_len (s : Storage α) (k : ℕ) : (s.shrinkLines k).len = s.len - k := by
  rw [shrinkLines_eq]
  split
  · rw [truncate_eq]
  · rfl

private theorem wellFormed_len {s : Storage α} (hs : s.WellFormed) (k : ℕ) :
    WellFormed { s with len := s.len - k } := by
  have hlen := hs.len_le
  exact ⟨hs.zero_lt, by simp only; omega⟩

theorem shrinkLines_wellFormed {s : Storage α} (hs : s.WellFormed) (k : ℕ) :
    (s.shrinkLines k).WellFormed := by
  rw [shrinkLines_eq]
  split
  · exact truncate_wellFormed (wellFormed_len hs k)
  · exact wellFormed_len hs k

private theorem buffer_len {s : Storage α} (hs : s.WellFormed) (k : ℕ) :
    buffer { s with len := s.len - k } =
      { s.buffer with
        lines := s.buffer.lines.take (s.len - k)
        cached := s.buffer.lines.drop (s.len - k) ++ s.buffer.cached } := by
  have hlen : s.len ≤ s.ring.length := by
    rw [length_ring]
    exact hs.len_le
  unfold buffer
  simp only [Buffer.mk.injEq, and_true]
  constructor
  · rw [List.take_take, min_eq_left (by omega)]
    rfl
  · have hsplit := List.take_append_drop s.len s.ring
    conv_lhs => rw [show ring { s with len := s.len - k } = s.ring from rfl, ← hsplit]
    rw [List.drop_append_of_le_length (by rw [List.length_take]; omega)]

theorem length_buffer {s : Storage α} (hs : s.WellFormed) : s.buffer.lines.length = s.len := by
  unfold buffer
  rw [List.length_take, length_ring, min_eq_left hs.len_le]

theorem shrinkLines_buffer {s : Storage α} (hs : s.WellFormed) (k : ℕ) :
    (s.shrinkLines k).buffer = s.buffer.dropOldest k := by
  have hlen := hs.len_le
  have hlines := length_buffer hs
  have hcached : (s.buffer.lines.drop (s.len - k) ++ s.buffer.cached).length =
      s.inner.length - (s.len - k) := by
    rw [List.length_append, List.length_drop, hlines]
    unfold buffer
    rw [List.length_drop, length_ring] at *
    omega
  have hcond : maxCacheSize < (s.buffer.lines.drop (s.len - k) ++ s.buffer.cached).length ↔
      s.len - k + maxCacheSize < s.inner.length := by
    rw [hcached]
    omega
  rw [shrinkLines_eq]
  unfold Buffer.dropOldest
  simp only [hlines, hcond]
  split
  · rw [truncate_buffer (wellFormed_len hs k), buffer_len hs k]
  · rw [buffer_len hs k]

theorem rotate_ring {s : Storage α} {count : ℤ} (hcount : |count| ≤ s.inner.length) :
    (s.rotate count).ring = s.ring.rotate (count % s.inner.length).toNat := by
  have habs := abs_le.mp hcount
  unfold rotate ring
  simp only
  rw [List.rotate_mod, List.rotate_rotate]
  have hmod : (s.zero + count + s.inner.length).toNat % s.inner.length =
      (s.zero + (count % s.inner.length).toNat) % s.inner.length := by
    zify
    rw [Int.toNat_of_nonneg (by omega)]
    by_cases h0 : (s.inner.length : ℤ) = 0
    · have hc : count = 0 := by omega
      simp [h0, hc]
    · rw [Int.toNat_of_nonneg (Int.emod_nonneg _ h0), Int.add_emod_right]
      simp
  rw [← List.rotate_mod, hmod, List.rotate_mod]

theorem rotate_wellFormed {s : Storage α} (hs : s.WellFormed) (hpos : 0 < s.inner.length)
    (count : ℤ) : (s.rotate count).WellFormed :=
  ⟨.inl (Nat.mod_lt _ hpos), hs.len_le⟩

theorem rotateDown_ring (s : Storage α) (count : ℕ) :
    (s.rotateDown count).ring = s.ring.rotate count := by
  unfold rotateDown ring
  simp only
  rw [List.rotate_mod, List.rotate_rotate]

theorem rotateDown_wellFormed {s : Storage α} (hs : s.WellFormed) (hpos : 0 < s.inner.length)
    (count : ℕ) : (s.rotateDown count).WellFormed :=
  ⟨.inl (Nat.mod_lt _ hpos), hs.len_le⟩

/-- A rotation of all rows, seen on the two lists. -/
private theorem buffer_rotate {s t : Storage α} (hs : s.WellFormed) {count : ℤ}
    (hring : t.ring = s.ring.rotate (count % s.inner.length).toNat) (hlen : t.len = s.len)
    (hvisible : t.visibleLines = s.visibleLines) : t.buffer = s.buffer.rotateAll count := by
  have hlines := length_buffer hs
  have hrows : s.buffer.lines ++ s.buffer.cached = s.ring := List.take_append_drop s.len s.ring
  unfold Buffer.rotateAll
  simp only [hrows, hlines, length_ring]
  unfold buffer
  rw [hring, hlen, hvisible]

theorem swap_ring {s : Storage α} (hs : s.WellFormed) {a b : ℤ} (ha : s.InBounds a)
    (hb : s.InBounds b) :
    (s.swap a b).ring = swapAt s.ring (s.buffer.index a) (s.buffer.index b) := by
  have hlen := hs.len_le
  have hoa := ha.2
  have hob := hb.2
  unfold swap ring
  simp only [computeIndex_eq]
  rw [rotate_swapAt (hs.zero_lt_of_len hoa) (by omega) (by omega), offset_eq ha.1,
    offset_eq hb.1]

theorem swap_wellFormed {s : Storage α} (hs : s.WellFormed) (a b : ℤ) :
    (s.swap a b).WellFormed := by
  constructor
  · rcases hs.zero_lt with h | h
    · left
      simpa [swap] using h
    · right
      simp [swap, swapAt, h]
  · simpa [swap] using hs.len_le

theorem swap_buffer {s : Storage α} (hs : s.WellFormed) {a b : ℤ} (ha : s.InBounds a)
    (hb : s.InBounds b) :
    (s.swap a b).buffer =
      { s.buffer with
        lines := swapAt s.buffer.lines (s.buffer.index a) (s.buffer.index b) } := by
  have hle : s.len ≤ s.ring.length := by
    rw [length_ring]
    exact hs.len_le
  have hia : s.buffer.index a < s.len := offset_eq ha.1 ▸ ha.2
  have hib : s.buffer.index b < s.len := offset_eq hb.1 ▸ hb.2
  have hring := swap_ring hs ha hb
  have htake := take_swapAt hia hib hle
  have hdrop := drop_swapAt hia hib hle
  rw [← hring] at htake hdrop
  show Buffer.mk ((s.swap a b).ring.take s.len) ((s.swap a b).ring.drop s.len) _ = _
  rw [htake, hdrop]
  rfl

theorem takeAll_snd {s : Storage α} : s.takeAll.2 = s.buffer.lines := by
  unfold takeAll
  rw [truncate_eq]
  rfl

theorem takeAll_fst (s : Storage α) : s.takeAll.1 = ⟨[], 0, s.visibleLines, 0⟩ := by
  unfold takeAll
  rw [truncate_eq]

theorem replaceInner_buffer (s : Storage α) (vec : List (Row α)) :
    (s.replaceInner vec).buffer = { s.buffer with lines := vec, cached := [] } := by
  simp [replaceInner, buffer, ring]

/-! ### Runs -/

variable [Inhabited α]

theorem step_wellFormed {s : Storage α} (hs : s.WellFormed) {op : StorageOp α}
    (hop : s.Asserted op) : (s.step op).WellFormed := by
  cases op with
  | initializeRows n columns => exact initializeRows_wellFormed hs n columns
  | growVisibleLines next =>
    have h := initializeRows_wellFormed hs (next - s.visibleLines) (s.row 0).len
    exact ⟨h.zero_lt, h.len_le⟩
  | shrinkVisibleLines next =>
    have h := shrinkLines_wellFormed hs (s.visibleLines - next)
    exact ⟨h.zero_lt, h.len_le⟩
  | shrinkLines k => exact shrinkLines_wellFormed hs k
  | truncate => exact truncate_wellFormed hs
  | rotate count => exact rotate_wellFormed hs hop.1 count
  | rotateDown count => exact rotateDown_wellFormed hs hop count
  | swap a b => exact swap_wellFormed hs a b
  | takeAll =>
    show s.takeAll.1.WellFormed
    rw [takeAll_fst]
    exact ⟨.inr rfl, le_rfl⟩
  | replaceInner vec => exact wellFormed_zero vec s.visibleLines vec.length le_rfl

theorem step_buffer {s : Storage α} (hs : s.WellFormed) {op : StorageOp α}
    (hop : s.Asserted op) : (s.step op).buffer = s.buffer.step op := by
  cases op with
  | initializeRows n columns => exact initializeRows_buffer hs n columns
  | growVisibleLines next => exact growVisibleLines_buffer hs hop.2
  | shrinkVisibleLines next =>
    have h := shrinkLines_buffer hs (s.visibleLines - next)
    exact congrArg (fun b : Buffer α => { b with visibleLines := next }) h
  | shrinkLines k => exact shrinkLines_buffer hs k
  | truncate => exact truncate_buffer hs
  | rotate count => exact buffer_rotate hs (rotate_ring hop.2) rfl rfl
  | rotateDown count =>
    have hring : (s.rotateDown count).ring =
        s.ring.rotate ((count : ℤ) % s.inner.length).toNat := by
      rw [rotateDown_ring, ← List.rotate_mod, length_ring, ← Int.natCast_mod, Int.toNat_natCast]
    exact buffer_rotate hs hring rfl rfl
  | swap a b => exact swap_buffer hs hop.1 hop.2
  | takeAll =>
    show s.takeAll.1.buffer = _
    rw [takeAll_fst]
    simp [buffer, ring, Buffer.step]
  | replaceInner vec => exact replaceInner_buffer s vec

theorem step_visibleLines_le {s : Storage α} (hvisible : s.visibleLines ≤ s.len)
    {op : StorageOp α} (hop : s.Asserted op) (hkeep : s.KeepsVisible op) :
    (s.step op).visibleLines ≤ (s.step op).len := by
  cases op with
  | initializeRows n columns =>
    simp only [step, initializeRows_visibleLines, initializeRows_len]
    omega
  | growVisibleLines next =>
    simp only [step, growVisibleLines, initializeRows_len]
    omega
  | shrinkVisibleLines next =>
    have h := hop.1
    simp only [step, shrinkVisibleLines, shrinkLines_len]
    omega
  | shrinkLines k =>
    have h : s.visibleLines + k ≤ s.len := hkeep
    simp only [step, shrinkLines_visibleLines, shrinkLines_len]
    omega
  | truncate =>
    show s.truncate.visibleLines ≤ s.truncate.len
    rw [truncate_eq]
    exact hvisible
  | rotate count => exact hvisible
  | rotateDown count => exact hvisible
  | swap a b => exact hvisible
  | takeAll =>
    show s.takeAll.1.visibleLines ≤ s.takeAll.1.len
    rw [takeAll_fst]
    exact le_of_eq hkeep
  | replaceInner vec => exact hkeep

/-- The storage over any run whose steps meet what the operations assert: its two lists are
those of the run on lists, every line in bounds is the row at its distance from the bottom
line, the start and the rows in use lie in the buffer, and taking all rows yields those in
use. -/
theorem run_refines_buffer (s : Storage α) (hs : s.WellFormed) (ops : List (StorageOp α))
    (hops : Permitted step Asserted s ops) :
    (ops.foldl step s).buffer = ops.foldl Buffer.step s.buffer ∧
      (ops.foldl step s).WellFormed ∧
      (s.visibleLines ≤ s.len → Permitted step KeepsVisible s ops →
        (ops.foldl step s).visibleLines ≤ (ops.foldl step s).len) ∧
      (∀ line, (ops.foldl step s).InBounds line →
        (ops.foldl step s).computeIndex line < (ops.foldl step s).inner.length ∧
          (ops.foldl step s).buffer.lines[((ops.foldl step s).visibleLines - 1 - line).toNat]? =
            some ((ops.foldl step s).row line)) ∧
      (ops.foldl step s).takeAll.2 = (ops.foldl step s).buffer.lines := by
  have hwf : (ops.foldl step s).WellFormed :=
    Runs.invariant (I := WellFormed) (fun _ _ hs hop => step_wellFormed hs hop) ops s hs hops
  refine ⟨?_, hwf, ?_, ?_, takeAll_snd⟩
  · exact Runs.simulation (fun _ _ hs hop => step_wellFormed hs hop)
      (fun _ _ hs hop => step_buffer hs hop) ops s hs hops
  · intro hvisible hkeep
    induction ops generalizing s with
    | nil => exact hvisible
    | cons op ops ih =>
      exact ih (s.step op) (step_wellFormed hs hops.1) hops.2 hwf
        (step_visibleLines_le hvisible hops.1 hkeep.1) hkeep.2
  · intro line hline
    have hlt := computeIndex_lt hwf hline
    refine ⟨hlt, ?_⟩
    have hget := getElem?_computeIndex hwf hline
    rw [show ((ops.foldl step s).visibleLines - 1 - line).toNat =
      (ops.foldl step s).buffer.index line from rfl, ← hget, row,
      List.getD_eq_getElem?_getD, List.getElem?_eq_getElem hlt]
    rfl

theorem run_refines_buffer_rotate_swap :
    ([.rotate (-1), .swap 0 1] : List (StorageOp ℕ)).foldl Buffer.step
        (withCapacity 2 1 : Storage ℕ).buffer =
      (([.rotate (-1), .swap 0 1] : List (StorageOp ℕ)).foldl step (withCapacity 2 1)).buffer :=
  (run_refines_buffer (withCapacity 2 1) (withCapacity_wellFormed 2 1) [.rotate (-1), .swap 0 1]
    ⟨⟨by decide, by decide⟩, ⟨by decide, by decide⟩, trivial⟩).1.symm

/-- With a cached row behind the rows in use, a rotation brings it into use. -/
theorem rotate_brings_cached_row :
    let rows : List (Row ℕ) := [.fromVec [0] 1, .fromVec [1] 1, .fromVec [2] 1]
    let s := ((withCapacity 2 1 : Storage ℕ).replaceInner rows).shrinkLines 1
    (0 < s.inner.length ∧ |(1 : ℤ)| ≤ s.inner.length) ∧
      s.buffer.lines = [.fromVec [0] 1, .fromVec [1] 1] ∧
      (s.rotate 1).buffer.lines = [.fromVec [1] 1, .fromVec [2] 1] ∧
      (s.rotate 1).buffer.lines ≠ s.buffer.lines.rotate 1 ∧
      (s.rotate 1).buffer.lines ≠ s.buffer.lines.rotate (s.buffer.lines.length - 1) := by
  decide

end Storage
end Rio
