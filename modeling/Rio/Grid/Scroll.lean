import Rio.Grid.Lines

/-! Scrolling on the list of screen rows and the list of history rows. -/

set_option linter.dupNamespace false

namespace Rio

/-- Resetting a cell keeps nothing of it. -/
class LawfulGridSquare (α : Type) [GridSquare α] : Prop where
  reset_eq : ∀ c d template : α, GridSquare.reset c template = GridSquare.reset d template

instance : LawfulGridSquare Square := ⟨fun _ _ _ => rfl⟩

variable {α : Type} [GridSquare α]

/-- A row that scrolling clears. -/
def Row.blank (columns : ℕ) (template : α) : Row α := (Row.new columns).reset template

theorem Row.reset_eq_blank [LawfulGridSquare α] {r : Row α} {columns : ℕ} (hr : r.len = columns)
    (template : α) : r.reset template = Row.blank columns template := by
  have hinner : r.inner.map (fun c => GridSquare.reset c template) =
      (List.replicate columns default).map fun c => GridSquare.reset c template := by
    rw [List.map_replicate, List.eq_replicate_iff]
    refine ⟨by rw [List.length_map]; exact hr, ?_⟩
    intro c hc
    obtain ⟨d, -, rfl⟩ := List.mem_map.mp hc
    exact LawfulGridSquare.reset_eq d default template
  unfold Row.blank Row.reset Row.new
  simp only [hinner]

theorem Row.reset_len (r : Row α) (template : α) : (r.reset template).len = r.len := by
  simp [Row.reset, Row.len]

@[simp] theorem Row.markDirty_blank (columns : ℕ) (template : α) :
    (Row.blank columns template).markDirty = Row.blank columns template := rfl

/-- The number of lines that scrolling by `n` moves out of a region. -/
def Region.clamp (r : Region) (n : ℕ) : ℕ := min n (r.stop - r.start).toNat

namespace Grid

/-- The rows on screen, from the top. -/
def viewport (g : Grid α) : List (Row α) := (lineRange 0 g.lines).map g.row

/-- The rows of the history, oldest first. -/
def history (g : Grid α) : List (Row α) := (lineRange (-(g.historySize : ℤ)) 0).map g.row

/-- What every operation relies on: the screen is filled, the history is within its limit, and
all rows, the cached ones included, have the width of the grid. -/
structure WellFormed (g : Grid α) : Prop where
  storage : g.raw.WellFormed
  visible : g.raw.visibleLines = g.lines
  filled : g.lines ≤ g.raw.len
  limit : g.historySize ≤ g.maxScrollLimit
  width : g.raw.AllRows fun r => r.len = g.columns

omit [GridSquare α] in
theorem WellFormed.top_eq {g : Grid α} (hg : g.WellFormed) : g.raw.top = -(g.historySize : ℤ) := by
  have h1 := hg.visible
  have h2 := hg.filled
  unfold Storage.top historySize Dimensions.historySize dimensions
  simp only
  omega

omit [GridSquare α] in
theorem WellFormed.inBounds {g : Grid α} (hg : g.WellFormed) {l : ℤ}
    (hl : -(g.historySize : ℤ) ≤ l) (hl' : l < g.lines) : g.raw.InBounds l := by
  rw [Storage.inBounds_iff, hg.top_eq, hg.visible]
  exact ⟨hl, hl'⟩

/-- Clearing some lines and then marking some: the rows by line. -/
private theorem row_reset_mark [LawfulGridSquare α] {s : Storage α} (hs : s.WellFormed)
    {columns : ℕ} (hwidth : s.AllRows fun r => r.len = columns) (template : α) {ls ms : List ℤ}
    (hls : ls.Nodup) (hms : ms.Nodup) (hlb : ∀ l ∈ ls, s.InBounds l)
    (hmb : ∀ l ∈ ms, s.InBounds l) {l : ℤ} (hl : s.InBounds l) :
    ((s.resetLines template ls).markLines ms).row l =
      if l ∈ ls then Row.blank columns template
      else if l ∈ ms then (s.row l).markDirty
      else s.row l := by
  have hsame := Storage.sameLayout_resetLines hs template ls
  rw [Storage.row_markLines hsame.wellFormed hms (fun i hi => hsame.inBounds (hmb i hi))
    (hsame.inBounds hl), Storage.row_resetLines hs template hls hlb hl]
  by_cases h : l ∈ ls
  · rw [if_pos h, if_pos h, Row.reset_eq_blank (hwidth _ (Storage.row_mem hs hl)),
      Row.markDirty_blank, ite_self]
  · rw [if_neg h, if_neg h]

/-! ### Scrolling up -/

theorem increaseScrollLimit_lines (g : Grid α) (n : ℕ) :
    (g.increaseScrollLimit n).lines = g.lines := by
  unfold increaseScrollLimit
  dsimp only
  split <;> rfl

theorem increaseScrollLimit_cursor (g : Grid α) (n : ℕ) :
    (g.increaseScrollLimit n).cursor = g.cursor := by
  unfold increaseScrollLimit
  dsimp only
  split <;> rfl

theorem increaseScrollLimit_raw {g : Grid α} (hg : g.WellFormed) (n : ℕ) :
    (g.increaseScrollLimit n).raw =
      g.raw.initializeRows (min n (g.maxScrollLimit - g.historySize)) g.columns := by
  unfold increaseScrollLimit
  dsimp only
  split
  next => rfl
  next h =>
    rw [not_not.mp h, Storage.initializeRows, if_neg (by have := hg.storage.len_le; omega)]
    rfl

theorem holdDisplay_increaseScrollLimit_raw (g : Grid α) (n m : ℕ) :
    ((g.holdDisplay n).increaseScrollLimit m).raw = (g.increaseScrollLimit m).raw := by
  unfold increaseScrollLimit
  dsimp only
  split
  · rw [if_pos (by assumption)]
    rfl
  · rw [if_neg (by assumption)]
    rfl

theorem scrollUp_raw_reset {g : Grid α} {r : Region} {n : ℕ}
    (hall : r.stop - r.start ≤ n ∧ r.start ≠ 0) :
    (g.scrollUp r n).raw =
      g.raw.resetLines g.cursor.template (lineRange r.start r.stop) := by
  unfold scrollUp
  rw [if_pos hall]

theorem scrollUp_raw_inner {g : Grid α} {r : Region} {n : ℕ}
    (hall : ¬ (r.stop - r.start ≤ n ∧ r.start ≠ 0)) (hstart : r.start ≠ 0) :
    (g.scrollUp r n).raw =
      ((g.raw.swapLines n (lineRange r.start (r.stop - n))).resetLines g.cursor.template
        (lineRange (r.stop - n) r.stop)).markLines (lineRange r.start r.stop) := by
  unfold scrollUp
  rw [if_neg hall]
  simp only [if_neg hstart]
  rfl

theorem scrollUp_raw_top {g : Grid α} {r : Region} {n : ℕ} (hstart : r.start = 0) :
    (g.scrollUp r n).raw =
      ((((g.increaseScrollLimit n).raw.rotate (-(n : ℤ))).swapLines (-(n : ℤ))
        (lineRange r.stop g.lines).reverse).resetLines g.cursor.template
          (lineRange (r.stop - n) r.stop)).markLines (lineRange r.start r.stop) := by
  unfold scrollUp
  rw [if_neg (by simp [hstart])]
  simp only [hstart, lineRange_empty (le_refl (0 : ℤ)), List.reverse_nil,
    Storage.swapLines, List.foldl_nil, increaseScrollLimit_cursor, increaseScrollLimit_lines,
    holdDisplay_increaseScrollLimit_raw]
  rfl

/-- Scrolling a region below the top line of the screen. -/
theorem row_scrollUp_inner [LawfulGridSquare α] {g : Grid α} (hg : g.WellFormed) {r : Region}
    (hstart : 0 < r.start) (hregion : r.start < r.stop) (hstop : r.stop ≤ g.lines) {n k : ℕ}
    (hk : k = min n (r.stop - r.start).toNat) {l : ℤ} (hl : -(g.historySize : ℤ) ≤ l)
    (hl' : l < g.lines) :
    (g.scrollUp r n).row l =
      if l < r.start ∨ r.stop ≤ l then g.row l
      else if l < r.stop - k then (g.row (l + k)).markDirty
      else Row.blank g.columns g.cursor.template := by
  have hb {a b : ℤ} (ha : 0 ≤ a) (hb : b ≤ g.lines) : ∀ i ∈ lineRange a b, g.raw.InBounds i := by
    intro i hi
    have := mem_lineRange.mp hi
    exact hg.inBounds (by omega) (by omega)
  have hlb := hg.inBounds hl hl'
  unfold row
  by_cases hall : r.stop - r.start ≤ n ∧ r.start ≠ 0
  · rw [scrollUp_raw_reset hall, Storage.row_resetLines hg.storage _ (nodup_lineRange _ _)
      (hb hstart.le hstop) hlb, Row.reset_eq_blank (hg.width _ (Storage.row_mem hg.storage hlb))]
    simp only [mem_lineRange]
    split_ifs <;> first | rfl | omega
  · have hkn : k = n := by omega
    subst hkn
    rw [scrollUp_raw_inner hall hstart.ne']
    have hsame := Storage.sameLayout_swapLines hg.storage k (lineRange r.start (r.stop - k))
    have hwidth := hg.width.swapLines k (lineRange r.start (r.stop - k))
    obtain ⟨hmoved, hkept, -⟩ := Storage.row_swapLines_ascending hg.storage (n := k)
      (show r.start ≤ r.stop - k by omega) (by rw [hg.top_eq]; omega)
      (by rw [hg.visible]; omega) (P := fun _ => True) (fun _ _ _ => trivial)
    rw [row_reset_mark hsame.wellFormed hwidth _ (nodup_lineRange _ _) (nodup_lineRange _ _)
      (fun i hi => hsame.inBounds (hb (by omega) hstop i hi))
      (fun i hi => hsame.inBounds (hb hstart.le hstop i hi)) (hsame.inBounds hlb)]
    simp only [mem_lineRange]
    split_ifs <;> first | rfl | omega | skip
    · rw [hmoved l (by omega) (by omega)]
    · exact hkept l hlb (by omega)

/-- Scrolling changes the rows and the display offset. -/
theorem scrollUp_eq (g : Grid α) (r : Region) (n : ℕ) :
    g.scrollUp r n =
      { g with
        raw := (g.scrollUp r n).raw
        displayOffset := (g.scrollUp r n).displayOffset } := by
  unfold scrollUp increaseScrollLimit holdDisplay
  dsimp only
  split_ifs <;> rfl

@[simp] theorem scrollUp_lines (g : Grid α) (r : Region) (n : ℕ) :
    (g.scrollUp r n).lines = g.lines := by
  rw [scrollUp_eq]

@[simp] theorem scrollUp_columns (g : Grid α) (r : Region) (n : ℕ) :
    (g.scrollUp r n).columns = g.columns := by
  rw [scrollUp_eq]

@[simp] theorem scrollUp_cursor (g : Grid α) (r : Region) (n : ℕ) :
    (g.scrollUp r n).cursor = g.cursor := by
  rw [scrollUp_eq]

@[simp] theorem scrollUp_savedCursor (g : Grid α) (r : Region) (n : ℕ) :
    (g.scrollUp r n).savedCursor = g.savedCursor := by
  rw [scrollUp_eq]

@[simp] theorem scrollUp_maxScrollLimit (g : Grid α) (r : Region) (n : ℕ) :
    (g.scrollUp r n).maxScrollLimit = g.maxScrollLimit := by
  rw [scrollUp_eq]

@[simp] theorem scrollUp_styleSet (g : Grid α) (r : Region) (n : ℕ) :
    (g.scrollUp r n).styleSet = g.styleSet := by
  rw [scrollUp_eq]

@[simp] theorem scrollUp_extrasTable (g : Grid α) (r : Region) (n : ℕ) :
    (g.scrollUp r n).extrasTable = g.extrasTable := by
  rw [scrollUp_eq]

/-- The history grows by the rows scrolled out, up to its limit. -/
theorem historySize_scrollUp_top {g : Grid α} (hg : g.WellFormed) {r : Region}
    (hstart : r.start = 0) (n : ℕ) :
    (g.scrollUp r n).historySize = min (g.historySize + n) g.maxScrollLimit := by
  have hlen : (g.scrollUp r n).raw.len =
      g.raw.len + min n (g.maxScrollLimit - g.historySize) := by
    rw [scrollUp_raw_top hstart, increaseScrollLimit_raw hg, Storage.markLines_len,
      Storage.resetLines_len, Storage.swapLines_len, Storage.rotate_len,
      Storage.initializeRows_len]
  have hfilled := hg.filled
  have hlimit := hg.limit
  unfold historySize Dimensions.historySize dimensions at *
  simp only [hlen, scrollUp_lines] at *
  omega

/-- Scrolling a region at the top of the screen. -/
theorem row_scrollUp_top [LawfulGridSquare α] {g : Grid α} (hg : g.WellFormed) {r : Region}
    (hstart : r.start = 0) (hstop : r.stop ≤ g.lines) {n : ℕ} (hn : n ≤ r.stop) {l : ℤ}
    (hl : -((g.scrollUp r n).historySize : ℤ) ≤ l) (hl' : l < g.lines) :
    (g.scrollUp r n).row l =
      if r.stop ≤ l then g.row l
      else if l < 0 then g.row (l + n)
      else if l < r.stop - n then (g.row (l + n)).markDirty
      else Row.blank g.columns g.cursor.template := by
  rw [historySize_scrollUp_top hg hstart] at hl
  have hlimit := hg.limit
  have htop := hg.top_eq
  have hvisible := hg.visible
  unfold row
  rw [scrollUp_raw_top hstart, increaseScrollLimit_raw hg]
  have hm : min n (g.maxScrollLimit - g.historySize) =
      min (g.historySize + n) g.maxScrollLimit - g.historySize := by omega
  set m := min n (g.maxScrollLimit - g.historySize)
  -- the rows before anything has moved
  have hwf₁ := Storage.initializeRows_wellFormed hg.storage m g.columns
  have hwidth₁ := hg.width.initializeRows m g.columns (by simp [Row.new, Row.len])
  have hrow₁ {i : ℤ} (h1 : -(g.historySize : ℤ) ≤ i) (h2 : i < g.lines) :
      (g.raw.initializeRows m g.columns).row i = g.raw.row i :=
    Storage.row_initializeRows hg.storage (hg.inBounds h1 h2)
  have hbounds₁ {i : ℤ} : (g.raw.initializeRows m g.columns).InBounds i ↔
      -(g.historySize + m : ℤ) ≤ i ∧ i < g.lines := by
    unfold Storage.top at htop
    rw [Storage.inBounds_iff, Storage.top, Storage.initializeRows_visibleLines,
      Storage.initializeRows_len, hvisible]
    omega
  clear_value m
  generalize g.raw.initializeRows m g.columns = s at hwf₁ hwidth₁ hrow₁ hbounds₁ ⊢
  -- the rotation
  have hpos : 0 < s.inner.length := by
    have := hwf₁.len_le
    have h := (hbounds₁ (i := l)).mpr ⟨by omega, hl'⟩
    have := h.2
    omega
  have hwf₂ : (s.rotate (-(n : ℤ))).WellFormed := Storage.rotate_wellFormed hwf₁ hpos _
  have hwidth₂ : (s.rotate (-(n : ℤ))).AllRows fun r => r.len = g.columns := hwidth₁
  have hbounds₂ {i : ℤ} : (s.rotate (-(n : ℤ))).InBounds i ↔
      -(g.historySize + m : ℤ) ≤ i ∧ i < g.lines := hbounds₁
  have hrow₂ {i : ℤ} (h1 : -(g.historySize + m : ℤ) ≤ i) (h2 : i + n < g.lines) :
      (s.rotate (-(n : ℤ))).row i = g.raw.row (i + n) := by
    rw [Storage.row_rotate_up hwf₁ (hbounds₁.mpr ⟨h1, by omega⟩)
      (hbounds₁.mpr ⟨by omega, h2⟩), hrow₁ (by omega) h2]
  have htop₂ : (s.rotate (-(n : ℤ))).top = -(g.historySize + m : ℤ) := by
    have hsmall := (hbounds₂ (i := -(g.historySize + m : ℤ))).mpr ⟨le_rfl, by omega⟩
    have hbelow := (hbounds₂ (i := -(g.historySize + m : ℤ) - 1)).not.mpr (by omega)
    rw [Storage.inBounds_iff] at hsmall hbelow
    omega
  have hvisible₂ : (s.rotate (-(n : ℤ))).visibleLines = g.lines := by
    have hlast := (hbounds₂ (i := (g.lines : ℤ) - 1)).mpr ⟨by omega, by omega⟩
    have hbelow := (hbounds₂ (i := (g.lines : ℤ))).not.mpr (by omega)
    rw [Storage.inBounds_iff] at hlast hbelow
    omega
  generalize s.rotate (-(n : ℤ)) = t at hwf₂ hwidth₂ hrow₂ hbounds₂ htop₂ hvisible₂ ⊢
  -- the lines fixed at the bottom
  obtain ⟨hmoved, hkept⟩ := Storage.row_swapLines_descending hwf₂ (n := n) hstop
    (by omega) (by omega)
  have hsame := Storage.sameLayout_swapLines hwf₂ (-(n : ℤ)) (lineRange r.stop g.lines).reverse
  have hin {i : ℤ} (h1 : -(g.historySize + m : ℤ) ≤ i) (h2 : i < g.lines) :=
    hsame.inBounds (hbounds₂.mpr ⟨h1, h2⟩)
  rw [row_reset_mark hsame.wellFormed (hwidth₂.swapLines _ _) _ (nodup_lineRange _ _)
    (nodup_lineRange _ _)
    (fun i hi => by have := mem_lineRange.mp hi; exact hin (by omega) (by omega))
    (fun i hi => by have := mem_lineRange.mp hi; exact hin (by omega) (by omega))
    (hin (by omega) hl')]
  simp only [mem_lineRange, hstart]
  split_ifs <;> first | rfl | omega | skip
  · rw [hkept l (hbounds₂.mpr ⟨by omega, by omega⟩) (by omega), hrow₂ (by omega) (by omega)]
  · rw [hmoved l (by omega) (by omega), hrow₂ (by omega) (by omega), sub_add_cancel]
  · rw [hkept l (hbounds₂.mpr ⟨by omega, by omega⟩) (by omega), hrow₂ (by omega) (by omega)]

/-! ### Scrolling down -/

/-- Scrolling down changes the rows only. -/
theorem scrollDown_eq (g : Grid α) (r : Region) (n : ℕ) :
    g.scrollDown r n = { g with raw := (g.scrollDown r n).raw } := by
  unfold scrollDown
  split_ifs <;> rfl

@[simp] theorem scrollDown_lines (g : Grid α) (r : Region) (n : ℕ) :
    (g.scrollDown r n).lines = g.lines := by
  rw [scrollDown_eq]

@[simp] theorem scrollDown_columns (g : Grid α) (r : Region) (n : ℕ) :
    (g.scrollDown r n).columns = g.columns := by
  rw [scrollDown_eq]

@[simp] theorem scrollDown_cursor (g : Grid α) (r : Region) (n : ℕ) :
    (g.scrollDown r n).cursor = g.cursor := by
  rw [scrollDown_eq]

@[simp] theorem scrollDown_savedCursor (g : Grid α) (r : Region) (n : ℕ) :
    (g.scrollDown r n).savedCursor = g.savedCursor := by
  rw [scrollDown_eq]

@[simp] theorem scrollDown_maxScrollLimit (g : Grid α) (r : Region) (n : ℕ) :
    (g.scrollDown r n).maxScrollLimit = g.maxScrollLimit := by
  rw [scrollDown_eq]

@[simp] theorem scrollDown_styleSet (g : Grid α) (r : Region) (n : ℕ) :
    (g.scrollDown r n).styleSet = g.styleSet := by
  rw [scrollDown_eq]

@[simp] theorem scrollDown_extrasTable (g : Grid α) (r : Region) (n : ℕ) :
    (g.scrollDown r n).extrasTable = g.extrasTable := by
  rw [scrollDown_eq]

theorem scrollDown_raw_reset {g : Grid α} {r : Region} {n : ℕ}
    (hall : r.stop - r.start ≤ n) :
    (g.scrollDown r n).raw =
      g.raw.resetLines g.cursor.template (lineRange r.start r.stop) := by
  unfold scrollDown
  rw [if_pos hall]

/-- The rotation of the whole storage, used where there is no history. -/
theorem scrollDown_raw_rotate {g : Grid α} {r : Region} {n : ℕ}
    (hall : ¬ r.stop - r.start ≤ n) (hmax : g.maxScrollLimit = 0) :
    (g.scrollDown r n).raw =
      (((((g.raw.swapLines n (lineRange (r.stop - n) (g.lines - n))).rotateDown n).resetLines
        g.cursor.template (lineRange 0 n)).swapLines n (lineRange 0 r.start)).markLines
          (lineRange r.start r.stop)) := by
  unfold scrollDown
  rw [if_neg hall, if_pos hmax, Storage.swapLines_neg_ascending]

theorem scrollDown_raw_swap {g : Grid α} {r : Region} {n : ℕ}
    (hall : ¬ r.stop - r.start ≤ n) (hmax : g.maxScrollLimit ≠ 0) :
    (g.scrollDown r n).raw =
      ((g.raw.swapLines (-(n : ℤ)) (lineRange (r.start + n) r.stop).reverse).resetLines
        g.cursor.template (lineRange r.start (r.start + n)).reverse).markLines
          (lineRange r.start r.stop) := by
  unfold scrollDown
  rw [if_neg hall, if_neg hmax]

theorem historySize_scrollDown (g : Grid α) (r : Region) (n : ℕ) :
    (g.scrollDown r n).historySize = g.historySize := by
  have hlen : (g.scrollDown r n).raw.len = g.raw.len := by
    by_cases hall : r.stop - r.start ≤ n
    · rw [scrollDown_raw_reset hall, Storage.resetLines_len]
    · by_cases hmax : g.maxScrollLimit = 0
      · rw [scrollDown_raw_rotate hall hmax, Storage.markLines_len, Storage.swapLines_len,
          Storage.resetLines_len, Storage.rotateDown_len, Storage.swapLines_len]
      · rw [scrollDown_raw_swap hall hmax, Storage.markLines_len, Storage.resetLines_len,
          Storage.swapLines_len]
  unfold historySize Dimensions.historySize dimensions
  simp only [hlen, scrollDown_lines]

private theorem row_scrollDown_rotate [LawfulGridSquare α] {g : Grid α} (hg : g.WellFormed)
    {r : Region} {n : ℕ} (hstart : 0 ≤ r.start) (hstop : r.stop ≤ g.lines)
    (hall : ¬ r.stop - r.start ≤ n) (hmax : g.maxScrollLimit = 0) {l : ℤ} (hl : 0 ≤ l)
    (hl' : l < g.lines) :
    (g.scrollDown r n).row l =
      if l < r.start ∨ r.stop ≤ l then g.row l
      else if l < r.start + n then Row.blank g.columns g.cursor.template
      else (g.row (l - n)).markDirty := by
  have htop : g.raw.top = 0 := by
    have := hg.limit
    have := hg.top_eq
    omega
  have hvisible := hg.visible
  unfold row
  rw [scrollDown_raw_rotate hall hmax]
  -- the lines fixed at the bottom move up, to where the rotation takes them back from
  obtain ⟨hmoved, hkept, -⟩ := Storage.row_swapLines_ascending hg.storage (n := n)
    (show r.stop - n ≤ g.lines - n by omega) (by omega) (by omega)
    (P := fun _ => True) (fun _ _ _ => trivial)
  have hsame₁ := Storage.sameLayout_swapLines hg.storage n
    (lineRange (r.stop - n) (g.lines - n))
  have hwidth₁ := hg.width.swapLines n (lineRange (r.stop - n) (g.lines - n))
  have hbounds {i : ℤ} (h1 : 0 ≤ i) (h2 : i < g.lines) : g.raw.InBounds i :=
    Storage.inBounds_iff.mpr ⟨by omega, by omega⟩
  generalize g.raw.swapLines n (lineRange (r.stop - n) (g.lines - n)) = s
    at hmoved hkept hsame₁ hwidth₁ ⊢
  -- the rotation
  have hpos : 0 < s.inner.length := by
    have hlen := hsame₁.wellFormed.len_le
    have := (hsame₁.inBounds (hbounds hl hl')).2
    omega
  have hsame₂ : Storage.SameLayout g.raw (s.rotateDown n) :=
    ⟨Storage.rotateDown_wellFormed hsame₁.wellFormed hpos n, hsame₁.len, hsame₁.visibleLines,
      hsame₁.length⟩
  have hwidth₂ : (s.rotateDown n).AllRows fun r => r.len = g.columns := hwidth₁
  have hrow₂ {i : ℤ} (h1 : n ≤ i) (h2 : i < g.lines) :
      (s.rotateDown n).row i = if i < r.stop then g.raw.row (i - n) else g.raw.row i := by
    rw [Storage.row_rotateDown hsame₁.wellFormed (hsame₁.inBounds (hbounds (by omega) h2))
      (hsame₁.inBounds (hbounds (by omega) (by omega)))]
    split_ifs
    · exact hkept _ (hbounds (by omega) (by omega)) (by omega)
    · rw [hmoved _ (by omega) (by omega), sub_add_cancel]
  generalize s.rotateDown n = t at hsame₂ hwidth₂ hrow₂ ⊢
  -- the lines that come in at the top, and the lines fixed there
  have hsame₃ := hsame₂.trans
    (Storage.sameLayout_resetLines hsame₂.wellFormed g.cursor.template (lineRange 0 n))
  have hrow₃ {i : ℤ} (h1 : 0 ≤ i) (h2 : i < g.lines) :
      (t.resetLines g.cursor.template (lineRange 0 n)).row i =
        if i < n then Row.blank g.columns g.cursor.template else t.row i := by
    rw [Storage.row_resetLines hsame₂.wellFormed _ (nodup_lineRange _ _)
      (fun i hi => by
        have := mem_lineRange.mp hi
        exact hsame₂.inBounds (hbounds (by omega) (by omega)))
      (hsame₂.inBounds (hbounds h1 h2)), Row.reset_eq_blank
        (hwidth₂ _ (Storage.row_mem hsame₂.wellFormed (hsame₂.inBounds (hbounds h1 h2))))]
    simp only [mem_lineRange, h1, true_and]
  generalize t.resetLines g.cursor.template (lineRange 0 n) = u at hsame₃ hrow₃ ⊢
  have htop₃ : u.top = 0 := by
    rw [← htop, Storage.top, hsame₃.len, hsame₃.visibleLines, Storage.top]
  have hvisible₃ := hsame₃.visibleLines
  obtain ⟨hback, hrest, hblank⟩ := Storage.row_swapLines_ascending hsame₃.wellFormed (n := n)
    hstart (by omega) (by omega) (P := fun row => row = Row.blank g.columns g.cursor.template)
    (fun i h1 h2 => by rw [hrow₃ (by omega) (by omega), if_pos (by omega)])
  have hsame₄ := hsame₃.trans
    (Storage.sameLayout_swapLines hsame₃.wellFormed n (lineRange 0 r.start))
  rw [Storage.row_markLines hsame₄.wellFormed (nodup_lineRange _ _)
    (fun i hi => by
      have := mem_lineRange.mp hi
      exact hsame₄.inBounds (hbounds (by omega) (by omega)))
    (hsame₄.inBounds (hbounds hl hl'))]
  simp only [mem_lineRange]
  by_cases habove : l < r.start
  · rw [if_neg (by omega), if_pos (by omega), hback l hl habove,
      hrow₃ (by omega) (by omega), if_neg (by omega), hrow₂ (by omega) (by omega),
      if_pos (by omega), add_sub_cancel_right]
  · by_cases hfirst : l < r.start + n
    · rw [if_pos (by omega), if_neg (by omega), if_pos hfirst, hblank l (by omega) hfirst,
        Row.markDirty_blank]
    · have hmoved₃ : u.row l = t.row l := by rw [hrow₃ hl hl', if_neg (by omega)]
      rw [hrest l (hsame₃.inBounds (hbounds hl hl')) (by omega), hmoved₃,
        hrow₂ (by omega) hl']
      split_ifs <;> first | rfl | omega

private theorem row_scrollDown_swap [LawfulGridSquare α] {g : Grid α} (hg : g.WellFormed)
    {r : Region} {n : ℕ} (hstart : 0 ≤ r.start) (hstop : r.stop ≤ g.lines)
    (hall : ¬ r.stop - r.start ≤ n) (hmax : g.maxScrollLimit ≠ 0) {l : ℤ}
    (hl : -(g.historySize : ℤ) ≤ l) (hl' : l < g.lines) :
    (g.scrollDown r n).row l =
      if l < r.start ∨ r.stop ≤ l then g.row l
      else if l < r.start + n then Row.blank g.columns g.cursor.template
      else (g.row (l - n)).markDirty := by
  have htop := hg.top_eq
  have hvisible := hg.visible
  have hb {a b : ℤ} (ha : 0 ≤ a) (hb : b ≤ g.lines) : ∀ i ∈ lineRange a b, g.raw.InBounds i := by
    intro i hi
    have := mem_lineRange.mp hi
    exact hg.inBounds (by omega) (by omega)
  unfold row
  rw [scrollDown_raw_swap hall hmax]
  obtain ⟨hmoved, hkept⟩ := Storage.row_swapLines_descending hg.storage (n := n)
    (show r.start + n ≤ r.stop by omega) (by omega) (by omega)
  have hsame := Storage.sameLayout_swapLines hg.storage (-(n : ℤ))
    (lineRange (r.start + n) r.stop).reverse
  rw [row_reset_mark hsame.wellFormed (hg.width.swapLines _ _) _
    (List.nodup_reverse.mpr (nodup_lineRange _ _)) (nodup_lineRange _ _)
    (fun i hi => hsame.inBounds (hb hstart (by omega) i (List.mem_reverse.mp hi)))
    (fun i hi => hsame.inBounds (hb hstart hstop i hi))
    (hsame.inBounds (hg.inBounds hl hl'))]
  simp only [List.mem_reverse, mem_lineRange]
  split_ifs <;> first | rfl | omega | skip
  · rw [hmoved l (by omega) (by omega)]
  · exact hkept l (hg.inBounds hl hl') (by omega)

/-- Scrolling a region down, by either implementation. -/
theorem row_scrollDown [LawfulGridSquare α] {g : Grid α} (hg : g.WellFormed) {r : Region}
    (hstart : 0 ≤ r.start) (hstop : r.stop ≤ g.lines) {n k : ℕ}
    (hk : k = min n (r.stop - r.start).toNat) {l : ℤ} (hl : -(g.historySize : ℤ) ≤ l)
    (hl' : l < g.lines) :
    (g.scrollDown r n).row l =
      if l < r.start ∨ r.stop ≤ l then g.row l
      else if l < r.start + k then Row.blank g.columns g.cursor.template
      else (g.row (l - k)).markDirty := by
  by_cases hall : r.stop - r.start ≤ n
  · have hlb := hg.inBounds hl hl'
    unfold row
    rw [scrollDown_raw_reset hall, Storage.row_resetLines hg.storage _ (nodup_lineRange _ _)
      (fun i hi => by
        have := mem_lineRange.mp hi
        exact hg.inBounds (by omega) (by omega)) hlb,
      Row.reset_eq_blank (hg.width _ (Storage.row_mem hg.storage hlb))]
    simp only [mem_lineRange]
    split_ifs <;> first | rfl | omega
  · obtain rfl : k = n := by omega
    by_cases hmax : g.maxScrollLimit = 0
    · have := hg.limit
      exact row_scrollDown_rotate hg hstart hstop hall hmax (by omega) hl'
    · exact row_scrollDown_swap hg hstart hstop hall hmax hl hl'

/-! ### The rows as lists -/

/-- The items of `start..stop` move up by `count`, blank ones come in at the end of it, and the
whole of it is marked. -/
def regionUp {β : Type} (mark : β → β) (blank : β) (start stop count : ℕ) (v : List β) : List β :=
  v.take start ++ ((v.take stop).drop (start + count) ++ List.replicate count blank).map mark ++
    v.drop stop

/-- The items of `start..stop` move down by `count`. -/
def regionDown {β : Type} (mark : β → β) (blank : β) (start stop count : ℕ) (v : List β) : List β :=
  v.take start ++ (List.replicate count blank ++ (v.take (stop - count)).drop start).map mark ++
    v.drop stop

private theorem map_lineRange_const {β : Type} {f : ℤ → β} {a : ℤ} {k : ℕ} {b : β}
    (h : ∀ l, a ≤ l → l < a + k → f l = b) :
    (lineRange a (a + k)).map f = List.replicate k b := by
  rw [List.eq_replicate_iff]
  refine ⟨by simp, ?_⟩
  intro c hc
  obtain ⟨l, hl, rfl⟩ := List.mem_map.mp hc
  have := mem_lineRange.mp hl
  exact h l this.1 this.2

private theorem map_lineRange_shift {β : Type} (f f' : ℤ → β) {a b : ℤ} (k : ℤ)
    (h : ∀ l, a ≤ l → l < b → f' l = f (l + k)) :
    (lineRange a b).map f' = (lineRange (a + k) (b + k)).map f := by
  rw [← map_add_lineRange, List.map_map]
  apply List.map_congr_left
  intro l hl
  have := mem_lineRange.mp hl
  exact h l this.1 this.2

theorem map_lineRange_congr {β : Type} {f f' : ℤ → β} {a b : ℤ}
    (h : ∀ l, a ≤ l → l < b → f' l = f l) : (lineRange a b).map f' = (lineRange a b).map f := by
  simpa using map_lineRange_shift f f' (a := a) (b := b) 0 (by simpa using h)

theorem map_lineRange_regionUp {β : Type} {mark : β → β} {blank : β} {f f' : ℤ → β}
    {start stop count n : ℕ} (hsc : start + count ≤ stop) (hn : stop ≤ n)
    (hfixed : ∀ l : ℤ, 0 ≤ l → l < n → l < start ∨ stop ≤ l → f' l = f l)
    (hmoved : ∀ l : ℤ, start ≤ l → l < stop - count → f' l = mark (f (l + count)))
    (hblank : ∀ l : ℤ, stop - count ≤ l → l < stop → f' l = mark blank) :
    (lineRange 0 n).map f' = regionUp mark blank start stop count ((lineRange 0 n).map f) := by
  have htake {k : ℕ} (hk : k ≤ n) :
      ((lineRange 0 n).map f).take k = (lineRange 0 k).map f := by
    rw [← List.map_take, take_lineRange (by omega), zero_add]
  have hdrop : ((lineRange 0 n).map f).drop stop = (lineRange stop n).map f := by
    rw [← List.map_drop, drop_lineRange (by omega), zero_add]
  have hinner : (((lineRange 0 n).map f).take stop).drop (start + count) =
      (lineRange (start + count) stop).map f := by
    rw [htake hn, ← List.map_drop, drop_lineRange (by push_cast; omega), zero_add,
      Nat.cast_add]
  have hsplit : lineRange 0 n = lineRange 0 start ++
      (lineRange start (stop - count) ++ lineRange (stop - count) stop) ++ lineRange stop n := by
    rw [← lineRange_append (by omega) (by omega), ← lineRange_append (by omega) (by omega),
      ← lineRange_append (by omega) (by omega)]
  unfold regionUp
  rw [htake (by omega), hdrop, hinner, hsplit, List.map_append, List.map_append, List.map_append,
    List.map_append, List.map_map, List.map_replicate]
  congr 1
  · congr 1
    · exact map_lineRange_congr fun l h1 h2 => hfixed l h1 (by omega) (.inl h2)
    · congr 1
      · rw [map_lineRange_shift (mark ∘ f) f' count hmoved, sub_add_cancel]
      · have h := map_lineRange_const (f := f') (a := (stop : ℤ) - count) (k := count)
          (b := mark blank) (fun l h1 h2 => hblank l h1 (by omega))
        rwa [sub_add_cancel] at h
  · exact map_lineRange_congr fun l h1 h2 => hfixed l (by omega) h2 (.inr h1)

theorem map_lineRange_regionDown {β : Type} {mark : β → β} {blank : β} {f f' : ℤ → β}
    {start stop count n : ℕ} (hsc : start + count ≤ stop) (hn : stop ≤ n)
    (hfixed : ∀ l : ℤ, 0 ≤ l → l < n → l < start ∨ stop ≤ l → f' l = f l)
    (hblank : ∀ l : ℤ, start ≤ l → l < start + count → f' l = mark blank)
    (hmoved : ∀ l : ℤ, start + count ≤ l → l < stop → f' l = mark (f (l - count))) :
    (lineRange 0 n).map f' = regionDown mark blank start stop count ((lineRange 0 n).map f) := by
  have htake {k : ℕ} (hk : k ≤ n) :
      ((lineRange 0 n).map f).take k = (lineRange 0 k).map f := by
    rw [← List.map_take, take_lineRange (by omega), zero_add]
  have hdrop : ((lineRange 0 n).map f).drop stop = (lineRange stop n).map f := by
    rw [← List.map_drop, drop_lineRange (by omega), zero_add]
  have hinner : (((lineRange 0 n).map f).take (stop - count)).drop start =
      (lineRange start (stop - count)).map f := by
    rw [htake (by omega), ← List.map_drop, drop_lineRange (by omega), zero_add,
      Nat.cast_sub (by omega)]
  have hsplit : lineRange 0 n = lineRange 0 start ++
      (lineRange start (start + count) ++ lineRange (start + count) stop) ++ lineRange stop n := by
    rw [← lineRange_append (by omega) (by omega), ← lineRange_append (by omega) (by omega),
      ← lineRange_append (by omega) (by omega)]
  unfold regionDown
  rw [htake (by omega), hdrop, hinner, hsplit, List.map_append, List.map_append, List.map_append,
    List.map_append, List.map_map, List.map_replicate]
  congr 1
  · congr 1
    · exact map_lineRange_congr fun l h1 h2 => hfixed l h1 (by omega) (.inl h2)
    · congr 1
      · exact map_lineRange_const hblank
      · have h := map_lineRange_shift (mark ∘ f) f' (a := start + count) (b := stop)
          (-(count : ℤ)) (fun l h1 h2 => by rw [hmoved l h1 h2]; rfl)
        rwa [add_neg_cancel_right, ← sub_eq_add_neg] at h
  · exact map_lineRange_congr fun l h1 h2 => hfixed l (by omega) h2 (.inr h1)

section Lists

variable [LawfulGridSquare α] {g : Grid α} {r : Region} {n : ℕ}

theorem viewport_scrollUp (hg : g.WellFormed) (hstart : 0 ≤ r.start) (hregion : r.start < r.stop)
    (hstop : r.stop ≤ g.lines) (hn : r.start = 0 → n ≤ r.stop) :
    (g.scrollUp r n).viewport =
      regionUp Row.markDirty (Row.blank g.columns g.cursor.template) r.start.toNat r.stop.toNat
        (r.clamp n) g.viewport := by
  have hk : r.clamp n = min n (r.stop - r.start).toNat := rfl
  unfold viewport
  rw [scrollUp_lines]
  by_cases htop : r.start = 0
  · have hkn : r.clamp n = n := by have := hn htop; omega
    have hrow {l : ℤ} (h1 : 0 ≤ l) (h2 : l < g.lines) :=
      row_scrollUp_top hg htop hstop (hn htop) (l := l) (by omega) h2
    rw [hkn]
    apply map_lineRange_regionUp (by omega) (by omega)
    · intro l h1 h2 h3
      rw [hrow h1 h2, if_pos (by omega)]
    · intro l h1 h2
      rw [hrow (by omega) (by omega), if_neg (by omega), if_neg (by omega), if_pos (by omega)]
    · intro l h1 h2
      have hn := hn htop
      rw [hrow (by omega) (by omega), if_neg (by omega), if_neg (by omega), if_neg (by omega),
        Row.markDirty_blank]
  · have hrow {l : ℤ} (h1 : 0 ≤ l) (h2 : l < g.lines) :=
      row_scrollUp_inner hg (by omega) hregion hstop hk (l := l) (by omega) h2
    apply map_lineRange_regionUp (by omega) (by omega)
    · intro l h1 h2 h3
      rw [hrow h1 h2, if_pos (by omega)]
    · intro l h1 h2
      rw [hrow (by omega) (by omega), if_neg (by omega), if_pos (by omega)]
    · intro l h1 h2
      rw [hrow (by omega) (by omega), if_neg (by omega), if_neg (by omega),
        Row.markDirty_blank]

/-- What leaves a region at the top of the screen is appended to the history, whose oldest rows
go once its limit is reached. -/
theorem history_scrollUp_top (hg : g.WellFormed) (hstart : r.start = 0) (hstop : r.stop ≤ g.lines)
    (hn : n ≤ r.stop) :
    (g.scrollUp r n).history =
      (g.history ++ g.viewport.take n).drop (g.historySize + n - g.maxScrollLimit) := by
  have hlimit := hg.limit
  have hsize := historySize_scrollUp_top hg hstart n
  have hrow {l : ℤ} (h1 : -((g.scrollUp r n).historySize : ℤ) ≤ l) (h2 : l < 0) :
      (g.scrollUp r n).row l = g.row (l + n) := by
    rw [row_scrollUp_top hg hstart hstop hn h1 (by omega)]
    split_ifs <;> first | rfl | omega
  unfold history viewport
  rw [map_lineRange_shift g.row _ n (fun l h1 h2 => hrow h1 h2), ← List.map_take,
    take_lineRange (by omega), ← List.map_append, ← lineRange_append (by omega) (by omega),
    ← List.map_drop, drop_lineRange (by omega), hsize]
  congr 2
  omega

/-- Scrolling a region below the top line leaves the history alone. -/
theorem history_scrollUp_inner (hg : g.WellFormed) (hstart : 0 < r.start)
    (hregion : r.start < r.stop) (hstop : r.stop ≤ g.lines) :
    (g.scrollUp r n).history = g.history := by
  have hsize : (g.scrollUp r n).historySize = g.historySize := by
    have hlen : (g.scrollUp r n).raw.len = g.raw.len := by
      by_cases hall : r.stop - r.start ≤ n ∧ r.start ≠ 0
      · rw [scrollUp_raw_reset hall, Storage.resetLines_len]
      · rw [scrollUp_raw_inner hall hstart.ne', Storage.markLines_len, Storage.resetLines_len,
          Storage.swapLines_len]
    unfold historySize Dimensions.historySize dimensions
    simp only [hlen, scrollUp_lines]
  unfold history
  rw [hsize]
  apply map_lineRange_congr
  intro l h1 h2
  rw [row_scrollUp_inner hg hstart hregion hstop rfl h1 (by omega), if_pos (by omega)]

theorem viewport_scrollDown (hg : g.WellFormed) (hstart : 0 ≤ r.start)
    (hregion : r.start < r.stop) (hstop : r.stop ≤ g.lines) :
    (g.scrollDown r n).viewport =
      regionDown Row.markDirty (Row.blank g.columns g.cursor.template) r.start.toNat r.stop.toNat
        (r.clamp n) g.viewport := by
  have hk : r.clamp n = min n (r.stop - r.start).toNat := rfl
  have hrow {l : ℤ} (h1 : 0 ≤ l) (h2 : l < g.lines) :=
    row_scrollDown hg hstart hstop hk (l := l) (by omega) h2
  unfold viewport
  rw [scrollDown_lines]
  apply map_lineRange_regionDown (by omega) (by omega)
  · intro l h1 h2 h3
    rw [hrow h1 h2, if_pos (by omega)]
  · intro l h1 h2
    rw [hrow (by omega) (by omega), if_neg (by omega), if_pos (by omega), Row.markDirty_blank]
  · intro l h1 h2
    rw [hrow (by omega) (by omega), if_neg (by omega), if_neg (by omega)]

theorem history_scrollDown (hg : g.WellFormed) (hstart : 0 ≤ r.start)
    (hstop : r.stop ≤ g.lines) : (g.scrollDown r n).history = g.history := by
  unfold history
  rw [historySize_scrollDown]
  apply map_lineRange_congr
  intro l h1 h2
  rw [row_scrollDown hg hstart hstop rfl h1 (by omega), if_pos (by omega)]

end Lists

theorem new_wellFormed {lines : ℕ} (hlines : 0 < lines) (columns maxScrollLimit : ℕ) :
    (new lines columns maxScrollLimit : Grid α).WellFormed := by
  constructor
  · exact ⟨.inl (by simp [new, Storage.withCapacity, hlines]), by simp [new, Storage.withCapacity]⟩
  · rfl
  · exact le_refl lines
  · simp [historySize, Dimensions.historySize, dimensions, new, Storage.withCapacity]
  · intro r hr
    rw [List.eq_of_mem_replicate hr]
    simp [Row.new, Row.len, new]

/-- Scrolling a region is a rotation of its rows, the history takes what leaves the top of the
screen, and both ways of scrolling down agree. -/
theorem scroll_refines_rotation (g : Grid Square) (hg : g.WellFormed) (r : Region)
    (hstart : 0 ≤ r.start) (hregion : r.start < r.stop) (hstop : r.stop ≤ g.lines) (n : ℕ) :
    ((r.start = 0 → n ≤ r.stop) →
      (g.scrollUp r n).viewport =
          regionUp Row.markDirty (Row.blank g.columns g.cursor.template) r.start.toNat
            r.stop.toNat (r.clamp n) g.viewport ∧
        (g.scrollUp r n).history =
          if r.start = 0 then
            (g.history ++ g.viewport.take n).drop (g.historySize + n - g.maxScrollLimit)
          else g.history) ∧
      ((g.scrollDown r n).viewport =
          regionDown Row.markDirty (Row.blank g.columns g.cursor.template) r.start.toNat
            r.stop.toNat (r.clamp n) g.viewport ∧
        (g.scrollDown r n).history = g.history) ∧
      ∀ g' : Grid Square, g'.WellFormed → g'.lines = g.lines → g'.columns = g.columns →
        g'.cursor.template = g.cursor.template → g'.viewport = g.viewport →
          (g'.scrollDown r n).viewport = (g.scrollDown r n).viewport := by
  refine ⟨?_, ?_, ?_⟩
  · intro hn
    refine ⟨viewport_scrollUp hg hstart hregion hstop hn, ?_⟩
    split_ifs with htop
    · exact history_scrollUp_top hg htop hstop (hn htop)
    · exact history_scrollUp_inner hg (by omega) hregion hstop
  · exact ⟨viewport_scrollDown hg hstart hregion hstop, history_scrollDown hg hstart hstop⟩
  · intro g' hg' hlines hcolumns htemplate hviewport
    rw [viewport_scrollDown hg' hstart hregion (by omega), viewport_scrollDown hg hstart hregion
      hstop, hcolumns, htemplate, hviewport]

theorem scroll_refines_rotation_new :
    ((new 3 2 10 : Grid Square).scrollUp ⟨0, 2⟩ 1).history =
        (new 3 2 10 : Grid Square).viewport.take 1 ∧
      ((new 3 2 0 : Grid Square).scrollDown ⟨1, 3⟩ 1).viewport =
        ((new 3 2 10 : Grid Square).scrollDown ⟨1, 3⟩ 1).viewport :=
  ⟨((scroll_refines_rotation (new 3 2 10) (new_wellFormed (by decide) 2 10) ⟨0, 2⟩ (by decide)
      (by decide) (by decide) 1).1 (by decide)).2,
    (scroll_refines_rotation (new 3 2 10) (new_wellFormed (by decide) 2 10) ⟨1, 3⟩ (by decide)
      (by decide) (by decide) 1).2.2 (new 3 2 0) (new_wellFormed (by decide) 2 0) rfl rfl rfl rfl⟩

/-- A count above the size of a region at the top of the screen appends blank rows as well. -/
theorem scrollUp_appends_blank_row :
    ¬ ∀ (g : Grid Square) (r : Region) (n : ℕ), g.WellFormed → 0 ≤ r.start → r.start < r.stop →
        r.stop ≤ g.lines → r.start = 0 →
        (g.scrollUp r n).history =
          (g.history ++ g.viewport.take (r.clamp n)).drop
            (g.historySize + r.clamp n - g.maxScrollLimit) := by
  intro h
  have hwf : (new 3 2 10 : Grid Square).WellFormed := new_wellFormed (by decide) 2 10
  have heq := congrArg List.length
    (h (new 3 2 10) ⟨0, 1⟩ 2 hwf (by decide) (by decide) (by decide) rfl)
  have hsize := historySize_scrollUp_top (r := ⟨0, 1⟩) hwf rfl 2
  simp only [history, viewport, List.length_map, length_lineRange, hsize, List.length_drop,
    List.length_append, List.length_take] at heq
  exact absurd heq (by decide)

end Grid
end Rio
