import Rio.Grid.Origin
import Rio.Grid.ReflowRows

/-! Where the rows of a grid go when it is resized. Rows are counted from the oldest one of the
history, as placements of images do. -/

set_option linter.dupNamespace false

namespace Rio

/-! ### The storage -/

namespace Storage

variable {α : Type} {s : Storage α} {l : ℤ}

theorem rotate_natCast (s : Storage α) (n : ℕ) : s.rotate n = s.rotateDown n := by
  unfold rotate rotateDown
  rw [← Nat.cast_add, ← Nat.cast_add, Int.toNat_natCast, Nat.add_mod_right]

theorem row_eq_buffer (hs : s.WellFormed) (hl : s.InBounds l) :
    s.row l = s.buffer.lines.getD (s.buffer.index l) default := by
  rw [row, List.getD_eq_getElem?_getD, getElem?_computeIndex hs hl, List.getD_eq_getElem?_getD]

/-- Dropping rows at the end of the history leaves the others in their lines. -/
theorem row_shrinkLines (hs : s.WellFormed) {k : ℕ} (hl : (s.shrinkLines k).InBounds l) :
    (s.shrinkLines k).row l = s.row l := by
  have hvisible := shrinkLines_visibleLines s k
  have hlen := shrinkLines_len s k
  have hoffset : (s.shrinkLines k).offset l = s.offset l := by
    unfold offset
    rw [hvisible]
  have hin : s.InBounds l := ⟨hvisible ▸ hl.1, by
    have := hl.2
    omega⟩
  have hindex : (s.shrinkLines k).buffer.index l = s.buffer.index l := by
    unfold Buffer.index
    rw [shrinkLines_buffer hs]
    rfl
  have hwithin : s.buffer.index l < s.buffer.lines.length - k := by
    have hlines := length_buffer hs
    have hlt := hl.2
    rw [hoffset, offset_eq hin.1] at hlt
    change s.buffer.index l < _ at hlt
    omega
  rw [row_eq_buffer (shrinkLines_wellFormed hs k) hl, row_eq_buffer hs hin, hindex,
    shrinkLines_buffer hs]
  unfold Buffer.dropOldest
  rw [List.getD_eq_getElem?_getD, List.getD_eq_getElem?_getD, List.getElem?_take_of_lt hwithin]

/-- New lines come in at the end of the history; all rows keep their distance from the bottom. -/
theorem row_growVisibleLines [Inhabited α] (hs : s.WellFormed) {next : ℕ}
    (hnext : s.visibleLines ≤ next) (hl : s.InBounds l) :
    (s.growVisibleLines next).row (l + (next - s.visibleLines : ℕ)) = s.row l := by
  have hkept : (s.initializeRows (next - s.visibleLines) (s.row 0).len).row l = s.row l :=
    row_initializeRows hs hl
  rw [← hkept]
  have hoffset : (s.growVisibleLines next).offset (l + (next - s.visibleLines : ℕ)) =
      (s.initializeRows (next - s.visibleLines) (s.row 0).len).offset l := by
    unfold offset
    rw [initializeRows_visibleLines]
    show (-(l + (next - s.visibleLines : ℕ) - next)).toNat - 1 = _
    omega
  unfold row computeIndex
  rw [hoffset]
  rfl

/-- All rows replaced one by one. -/
theorem row_mapRows (hs : s.WellFormed) (f : Row α → Row α) (hl : s.InBounds l) :
    (s.takeAll.1.replaceInner (s.takeAll.2.map f)).row l = f (s.row l) := by
  have hlines := length_buffer hs
  have hindex : s.buffer.index l < s.len := by
    rw [← offset_eq hl.1]
    exact hl.2
  have hplace : (s.takeAll.1.replaceInner (s.takeAll.2.map f)).computeIndex l =
      s.buffer.index l := by
    rw [takeAll_fst, takeAll_snd]
    unfold computeIndex
    show (if (s.buffer.lines.map f).length ≤ 0 + s.offset l then _ else 0 + s.offset l) = _
    rw [Nat.zero_add, offset_eq hl.1, if_neg (by rw [List.length_map, hlines]; exact hindex.not_ge)]
  rw [row_eq_buffer hs hl]
  unfold row
  rw [hplace, takeAll_snd]
  show (s.buffer.lines.map f).getD _ default = _
  rw [List.getD_eq_getElem?_getD, List.getD_eq_getElem?_getD, List.getElem?_map,
    List.getElem?_eq_getElem (by rw [hlines]; exact hindex)]
  rfl

end Storage

namespace Grid

variable {D : Prop} {g g' : Grid Square}

/-! ### More or fewer lines -/

/-- How many rows leave the history when the cursor is kept on the screen. -/
def overflow (g : Grid Square) (target : ℕ) : ℕ :=
  g.historySize + (g.cursor.pos.row.toNat + 1 - target) - g.maxScrollLimit

/-- The rows are those of before, without the `dropped` oldest ones, and blank rows below them. -/
def RowsMove (g g' : Grid Square) (dropped : ℕ) : Prop :=
  ∀ line before : ℤ, -(g'.historySize : ℤ) ≤ line → line < g'.lines →
    before + g.historySize = line + g'.historySize + dropped →
      (before < g.lines → (g'.row line).inner = (g.row before).inner) ∧
        (g.lines ≤ before → (g'.row line).inner = List.replicate g.columns default)

theorem RowsMove.refl (g : Grid Square) : g.RowsMove g 0 := by
  intro line before _ hline hsame
  have hbefore : before = line := by omega
  exact ⟨fun _ => by rw [hbefore], fun h => by omega⟩

theorem blank_inner (columns : ℕ) :
    (Row.blank columns (default : Square)).inner = List.replicate columns default :=
  List.map_replicate

theorem row_decreaseScrollLimit (hg : g.WellFormed) {n : ℕ} {line : ℤ}
    (htop : -((g.historySize - n : ℕ) : ℤ) ≤ line) (hline : line < g.lines) :
    (g.decreaseScrollLimit n).row line = g.row line := by
  rw [decreaseScrollLimit_eq]
  split_ifs with hzero
  · rfl
  · refine Storage.row_shrinkLines hg.storage ?_
    have hfilled := hg.filled
    have hvisible := hg.visible
    rw [historySize_eq] at htop ⊢
    rw [Storage.inBounds_iff, Storage.top, Storage.shrinkLines_visibleLines,
      Storage.shrinkLines_len]
    omega

/-- A grid with other cursors. -/
theorem WellFormed.of_same (hg : g.WellFormed) (hraw : g'.raw = g.raw) (hlines : g'.lines = g.lines)
    (hcolumns : g'.columns = g.columns) (hlimit : g'.maxScrollLimit = g.maxScrollLimit) :
    g'.WellFormed := by
  obtain ⟨hstorage, hvisible, hfilled, hmax, hwidth⟩ := hg
  rw [historySize_eq] at hmax
  refine ⟨?_, ?_, ?_, ?_, ?_⟩
  · rwa [hraw]
  · rwa [hraw, hlines]
  · rwa [hraw, hlines]
  · rwa [historySize_eq, hraw, hlines, hlimit]
  · rwa [hraw, hcolumns]

/-- The grid of `growLines` before the rows that are not its own leave the history. -/
theorem growLines_eq_decrease (hg : g.WellFormed) {target : ℕ} (htarget : g.lines < target) :
    ∃ moved : Grid Square,
      g.growLines target = moved.decreaseScrollLimit (target - g.lines) ∧
      moved.raw = (if min g.historySize (target - g.lines) ≠ target - g.lines then
        (scrollUp { g with raw := g.raw.growVisibleLines target, lines := target } ⟨0, target⟩
          (target - g.lines - min g.historySize (target - g.lines))).raw
        else g.raw.growVisibleLines target) ∧
      moved.lines = target ∧ moved.columns = g.columns ∧
      moved.maxScrollLimit = g.maxScrollLimit ∧
      moved.cursor = { g.cursor with
        pos := { g.cursor.pos with
          row := g.cursor.pos.row + (min g.historySize (target - g.lines) : ℕ) } } := by
  have hsize := historySize_growVisibleLines hg htarget
  unfold growLines
  dsimp only
  rw [hsize]
  refine ⟨_, rfl, ?_, ?_, ?_, ?_, ?_⟩
  · dsimp only
    split_ifs <;> rfl
  · dsimp only
    split_ifs
    · exact scrollUp_lines _ _ _
    · rfl
  · dsimp only
    split_ifs
    · exact scrollUp_columns _ _ _
    · rfl
  · dsimp only
    split_ifs
    · exact scrollUp_maxScrollLimit _ _ _
    · rfl
  · dsimp only
    split_ifs
    · rw [scrollUp_cursor]
    · rfl

theorem historySize_growLines (hg : g.WellFormed) {target : ℕ} (hlines : 1 ≤ g.lines)
    (htarget : g.lines < target) :
    (g.growLines target).historySize = g.historySize - (target - g.lines) := by
  have hwf := growVisibleLines_wellFormed hg hlines htarget
  have hsize := historySize_growVisibleLines hg htarget
  have hlimit := hg.limit
  obtain ⟨moved, hmoved, hraw, hmovedLines, -⟩ := growLines_eq_decrease hg htarget
  rw [hmoved, historySize_decreaseScrollLimit]
  by_cases hscroll : min g.historySize (target - g.lines) ≠ target - g.lines
  · rw [if_pos hscroll] at hraw
    have hscrolled := historySize_scrollUp_top hwf (r := ⟨0, target⟩) rfl
      (target - g.lines - min g.historySize (target - g.lines))
    rw [hsize] at hscrolled
    have hmovedSize : moved.historySize = min (g.historySize +
        (target - g.lines - min g.historySize (target - g.lines))) g.maxScrollLimit := by
      rw [← hscrolled, historySize_eq, historySize_eq, hraw, hmovedLines, scrollUp_lines]
    omega
  · rw [if_neg hscroll] at hraw
    rw [← hsize, historySize_eq, historySize_eq, hraw, hmovedLines]

/-- More lines leave every row where it is, counted from the oldest one. -/
theorem growLines_rows (hg : g.Sound D) (htemplate : g.cursor.template = default) {target : ℕ}
    (htarget : g.lines < target) : g.RowsMove (g.growLines target) 0 := by
  have hwf := growVisibleLines_wellFormed hg.wellFormed hg.lines_pos htarget
  have hsize := historySize_growVisibleLines hg.wellFormed htarget
  have hvisible := hg.wellFormed.visible
  have hlimit := hg.wellFormed.limit
  have hrow {line : ℤ} (htop : -(g.historySize : ℤ) ≤ line) (hline : line < g.lines) :
      (g.raw.growVisibleLines target).row (line + (target - g.lines : ℕ)) = g.row line := by
    rw [← hvisible]
    exact Storage.row_growVisibleLines hg.wellFormed.storage (by omega)
      (hg.wellFormed.inBounds htop hline)
  obtain ⟨moved, hmoved, hraw, hlines, hcolumns, hmax, -⟩ :=
    growLines_eq_decrease hg.wellFormed htarget
  intro line before htop hline hsame
  rw [hmoved, historySize_decreaseScrollLimit] at htop hsame
  rw [hmoved, decreaseScrollLimit_lines, hlines] at hline
  by_cases hscroll : min g.historySize (target - g.lines) ≠ target - g.lines
  · -- all of the history comes back, and the rows go up to the top
    obtain ⟨gap, hgap⟩ : ∃ gap, target - g.lines = g.historySize + gap :=
      ⟨target - g.lines - g.historySize, by omega⟩
    have hfits : (gap : ℤ) ≤ target := by omega
    rw [if_pos hscroll, hgap, Nat.min_eq_left (Nat.le_add_right _ gap),
      Nat.add_sub_cancel_left] at hraw
    rw [hgap] at hmoved htop hsame hrow
    have hscrolled := historySize_scrollUp_top hwf (r := ⟨0, target⟩) rfl gap
    rw [hsize] at hscrolled
    have hmovedWf : moved.WellFormed := (scrollUp_wellFormed hwf (by dsimp only; omega) _ _).of_same
      hraw (by rw [hlines, scrollUp_lines]) (by rw [hcolumns, scrollUp_columns])
      (by rw [hmax, scrollUp_maxScrollLimit])
    have hmovedSize : moved.historySize = min (g.historySize + gap) g.maxScrollLimit := by
      rw [← hscrolled, historySize_eq, historySize_eq, hraw, hlines, scrollUp_lines]
    have hnone : moved.historySize - (g.historySize + gap) = 0 := by
      rw [hmovedSize]
      exact Nat.sub_eq_zero_of_le (min_le_left _ _)
    rw [hnone, Nat.cast_zero, neg_zero] at htop
    have hplace : before + g.historySize = line := by simpa [hnone] using hsame
    have hmovedRow : moved.row line = (scrollUp
        { g with raw := g.raw.growVisibleLines target, lines := target } ⟨0, target⟩ gap).row
          line := congrArg (Storage.row · line) hraw
    have hreach : -((min (g.historySize + gap) g.maxScrollLimit : ℕ) : ℤ) ≤ line :=
      le_trans (neg_nonpos.mpr (Int.natCast_nonneg _)) htop
    rw [hmoved, row_decreaseScrollLimit hmovedWf (by rw [hnone]; simpa using htop)
      (hline.trans_eq (congrArg Nat.cast hlines.symm)), hmovedRow,
      row_scrollUp_top hwf rfl le_rfl hfits (by rw [hscrolled]; exact hreach) hline,
      if_neg (not_le.mpr hline), if_neg (not_lt.mpr htop)]
    clear hscrolled hmovedSize hreach hlimit hraw
    constructor
    · intro hbefore
      rw [if_pos (by dsimp only; omega)]
      have hsource : line + gap = before + (g.historySize + gap : ℕ) := by omega
      rw [hsource]
      show ((g.raw.growVisibleLines target).row _).inner = _
      rw [hrow (by omega) hbefore]
    · intro hbelow
      rw [if_neg (by dsimp only; omega)]
      dsimp only
      rw [htemplate]
      exact blank_inner _
  · rw [if_neg hscroll] at hraw
    have hmovedWf : moved.WellFormed := hwf.of_same hraw hlines hcolumns hmax
    have hmovedSize : moved.historySize = g.historySize := by
      rw [← hsize, historySize_eq, historySize_eq, hraw, hlines]
    rw [hmovedSize] at htop hsame
    rw [hmoved, row_decreaseScrollLimit hmovedWf (by rw [hmovedSize]; exact htop)
      (hline.trans_eq (congrArg Nat.cast hlines.symm))]
    unfold row
    rw [hraw]
    constructor
    · intro hbefore
      rw [show line = before + (target - g.lines : ℕ) by omega, hrow (by omega) hbefore]
      rfl
    · intro hbelow
      omega

/-- The grid of `shrinkLines` after the cursor was scrolled into the new screen. -/
def keepInside (g : Grid Square) (target : ℕ) : Grid Square :=
  if 0 < g.cursor.pos.row.toNat + 1 - target then
    let g := g.scrollUp ⟨0, g.lines⟩ (g.cursor.pos.row.toNat + 1 - target)
    { g with
      cursor :=
        { g.cursor with pos := { g.cursor.pos with row := min g.cursor.pos.row (target - 1) } } }
  else g

/-- The grid of `shrinkLines` from the one whose cursor is on the new screen. -/
def cutLines (g : Grid Square) (target : ℕ) : Grid Square :=
  { g with
    savedCursor :=
      { g.savedCursor with
        pos := { g.savedCursor.pos with row := min g.savedCursor.pos.row (target - 1) } }
    raw := (g.raw.rotate ((g.lines - target : ℕ) : ℤ)).shrinkVisibleLines target
    lines := target }

theorem shrinkLines_eq_cutLines (g : Grid Square) (target : ℕ) :
    g.shrinkLines target = (g.keepInside target).cutLines target := rfl

theorem keepInside_same (g : Grid Square) (target : ℕ) :
    (g.keepInside target).lines = g.lines ∧ (g.keepInside target).columns = g.columns ∧
      (g.keepInside target).maxScrollLimit = g.maxScrollLimit := by
  unfold keepInside
  split_ifs
  · exact ⟨scrollUp_lines _ _ _, scrollUp_columns _ _ _, scrollUp_maxScrollLimit _ _ _⟩
  · exact ⟨rfl, rfl, rfl⟩

theorem keepInside_wellFormed (hg : g.WellFormed) (hlines : 1 ≤ g.lines) (target : ℕ) :
    (g.keepInside target).WellFormed := by
  unfold keepInside
  split_ifs
  · exact (scrollUp_wellFormed hg hlines _ _).of_same rfl rfl rfl rfl
  · exact hg

theorem historySize_keepInside (hg : g.WellFormed) (target : ℕ) :
    (g.keepInside target).historySize =
      min (g.historySize + (g.cursor.pos.row.toNat + 1 - target)) g.maxScrollLimit := by
  have hlimit := hg.limit
  unfold keepInside
  split_ifs with hscroll
  · exact historySize_scrollUp_top hg rfl _
  · omega

theorem keepInside_row (hg : g.Sound D) {target : ℕ} (hpos : 1 ≤ target) :
    (g.keepInside target).cursor.pos.row =
      g.cursor.pos.row - (g.cursor.pos.row.toNat + 1 - target : ℕ) := by
  obtain ⟨hrow0, -, -⟩ := hg.cursor
  unfold keepInside
  split_ifs with hscroll
  · dsimp only
    rw [scrollUp_cursor]
    omega
  · omega

/-- The rows go up with the cursor. -/
theorem row_keepInside (hg : g.Sound D) {target : ℕ} (hpos : 1 ≤ target) {line : ℤ}
    (htop : -((g.keepInside target).historySize : ℤ) ≤ line) (hline : line < target) :
    ((g.keepInside target).row line).inner =
      (g.row (line + (g.cursor.pos.row.toNat + 1 - target : ℕ))).inner := by
  obtain ⟨hrow0, hrow1, -⟩ := hg.cursor
  rw [historySize_keepInside hg.wellFormed] at htop
  unfold keepInside
  split_ifs with hscroll
  · show ((g.scrollUp _ _).row line).inner = _
    rw [row_scrollUp_top hg.wellFormed rfl le_rfl (by dsimp only; omega)
      (by rw [historySize_scrollUp_top hg.wellFormed rfl]; omega) (by omega),
      if_neg (by dsimp only; omega)]
    by_cases hneg : line < 0
    · rw [if_pos hneg]
    · rw [if_neg hneg, if_pos (by dsimp only; omega)]
      rfl
  · rw [Nat.eq_zero_of_not_pos hscroll, Nat.cast_zero, add_zero]

theorem cutLines_rows (hg : g.WellFormed) (hlines : 1 ≤ g.lines) {target : ℕ} (hpos : 1 ≤ target)
    (htarget : target ≤ g.lines) {line : ℤ} (htop : -(g.historySize : ℤ) ≤ line)
    (hline : line < target) : (g.cutLines target).row line = g.row line := by
  have hvisible := hg.visible
  have hfilled := hg.filled
  rw [historySize_eq] at htop
  have hlen := hg.storage.len_le
  have hrotated : (g.raw.rotateDown (g.lines - target)).WellFormed :=
    Storage.rotateDown_wellFormed hg.storage (by omega) _
  have hshrunk : ((g.raw.rotateDown (g.lines - target)).shrinkLines (g.lines - target)).InBounds
      (line + (g.lines - target : ℕ)) := by
    rw [Storage.inBounds_iff, Storage.top, Storage.shrinkLines_visibleLines,
      Storage.shrinkLines_len]
    show (g.raw.visibleLines : ℤ) - ((g.raw.len - (g.lines - target) : ℕ) : ℤ) ≤ _ ∧
      _ < (g.raw.visibleLines : ℤ)
    omega
  have hin : (g.raw.rotateDown (g.lines - target)).InBounds (line + (g.lines - target : ℕ)) := by
    rw [Storage.inBounds_iff, Storage.top]
    show (g.raw.visibleLines : ℤ) - (g.raw.len : ℤ) ≤ _ ∧ _ < (g.raw.visibleLines : ℤ)
    omega
  have hback : g.raw.InBounds (line + (g.lines - target : ℕ) - (g.lines - target : ℕ)) := by
    rw [Storage.inBounds_iff, Storage.top]
    omega
  have hrow := Storage.row_shrinkLines hrotated hshrunk
  rw [Storage.row_rotateDown hg.storage hin hback, add_sub_cancel_right] at hrow
  refine Eq.trans ?_ hrow
  -- the lines are counted from the new bottom
  have hoffset : ((g.raw.rotateDown (g.lines - target)).shrinkVisibleLines target).offset line =
      ((g.raw.rotateDown (g.lines - target)).shrinkLines (g.lines - target)).offset
        (line + (g.lines - target : ℕ)) := by
    unfold Storage.offset
    rw [Storage.shrinkLines_visibleLines]
    show (-(line - target)).toNat - 1 =
      (-(line + (g.lines - target : ℕ) - g.raw.visibleLines)).toNat - 1
    omega
  unfold cutLines row Storage.row Storage.computeIndex
  dsimp only
  rw [Storage.rotate_natCast, hoffset]
  unfold Storage.shrinkVisibleLines
  dsimp only
  rw [show (g.raw.rotateDown (g.lines - target)).visibleLines = g.lines from hvisible]

/-- Fewer lines drop the rows that do not fit into the history, and those below the screen. -/
theorem shrinkLines_rows (hg : g.Sound D) {target : ℕ} (hpos : 1 ≤ target)
    (htarget : target < g.lines) : g.RowsMove (g.shrinkLines target) (g.overflow target) := by
  obtain ⟨hrow0, hrow1, -⟩ := hg.cursor
  have hlines := hg.lines_pos
  have hlimit := hg.wellFormed.limit
  have hsame := (g.keepInside_same target).1
  have hkept := keepInside_wellFormed hg.wellFormed hlines target
  have hsize : (g.shrinkLines target).historySize = (g.keepInside target).historySize :=
    historySize_shrinkVisibleLines hkept (by rw [hsame]; omega)
  intro line before htop hline hplace
  rw [hsize] at htop hplace
  change line < target at hline
  unfold overflow at hplace
  rw [shrinkLines_eq_cutLines, cutLines_rows hkept (by omega) hpos (by omega) htop hline,
    row_keepInside hg hpos htop hline]
  rw [historySize_keepInside hg.wellFormed] at htop hplace
  have hbefore : before = line + (g.cursor.pos.row.toNat + 1 - target : ℕ) := by omega
  rw [hbefore]
  exact ⟨fun _ => rfl, fun hbelow => by omega⟩

theorem decreaseScrollLimit_cursor (g : Grid Square) (n : ℕ) :
    (g.decreaseScrollLimit n).cursor = g.cursor := by
  rw [decreaseScrollLimit_eq]
  split_ifs <;> rfl

/-- The grid with as many lines as asked for. -/
def resizeLines (g : Grid Square) (lines : ℕ) : Grid Square :=
  if g.lines < lines then g.growLines lines
  else if lines < g.lines then g.shrinkLines lines else g

theorem resizeLines_lines (g : Grid Square) (lines : ℕ) : (g.resizeLines lines).lines = lines := by
  unfold resizeLines
  split_ifs with hmore hless
  · exact growLines_lines g lines
  · exact shrinkLines_lines g lines
  · omega

theorem resizeLines_columns (g : Grid Square) (lines : ℕ) :
    (g.resizeLines lines).columns = g.columns := by
  unfold resizeLines
  split_ifs
  · exact growLines_columns g lines
  · exact shrinkLines_columns g lines
  · rfl

theorem resizeLines_rows (hg : g.Sound D) (htemplate : g.cursor.template = default) {lines : ℕ}
    (hpos : 1 ≤ lines) : g.RowsMove (g.resizeLines lines) (g.overflow lines) := by
  obtain ⟨hrow0, hrow1, -⟩ := hg.cursor
  have hlimit := hg.wellFormed.limit
  unfold resizeLines
  split_ifs with hmore hless
  · have hnone : g.overflow lines = 0 := by
      unfold overflow
      omega
    rw [hnone]
    exact growLines_rows hg htemplate hmore
  · exact shrinkLines_rows hg hpos hless
  · have hnone : g.overflow lines = 0 := by
      unfold overflow
      omega
    rw [hnone]
    exact .refl g

/-- The cursor stays in its column and goes where its row goes. -/
theorem resizeLines_cursor (hg : g.Sound D) {lines : ℕ} (hpos : 1 ≤ lines) :
    ∃ row : ℤ, (g.resizeLines lines).cursor =
        { g.cursor with pos := { g.cursor.pos with row := row } } ∧
      row + (g.resizeLines lines).historySize + g.overflow lines =
        g.cursor.pos.row + g.historySize := by
  obtain ⟨hrow0, hrow1, -⟩ := hg.cursor
  have hlimit := hg.wellFormed.limit
  unfold resizeLines
  split_ifs with hmore hless
  · obtain ⟨moved, hmoved, -, -, -, -, hcursor⟩ := growLines_eq_decrease hg.wellFormed hmore
    rw [historySize_growLines hg.wellFormed hg.lines_pos hmore, hmoved, decreaseScrollLimit_cursor]
    refine ⟨_, hcursor, ?_⟩
    unfold overflow
    omega
  · have hsame := (g.keepInside_same lines).1
    have hsize : (g.shrinkLines lines).historySize = (g.keepInside lines).historySize :=
      historySize_shrinkVisibleLines (keepInside_wellFormed hg.wellFormed hg.lines_pos lines)
        (by rw [hsame]; omega)
    refine ⟨(g.keepInside lines).cursor.pos.row, ?_, ?_⟩
    · show (g.keepInside lines).cursor = _
      unfold keepInside
      split_ifs
      · dsimp only
        rw [scrollUp_cursor]
      · rfl
    · rw [hsize, historySize_keepInside hg.wellFormed, keepInside_row hg hpos]
      unfold overflow
      omega
  · refine ⟨g.cursor.pos.row, rfl, ?_⟩
    unfold overflow
    omega

/-! ### More or fewer columns without a reflow -/

/-- No row is joined with the next one or split by a change of the columns: either the text is not
reflown, or no row wraps at its end, or nothing is cut off from a row and the cursor is not beyond
the new width. -/
structure Unbroken (g : Grid Square) (columns : ℕ) : Prop where
  grow : g.columns < columns → ∀ line : ℤ, -(g.historySize : ℤ) ≤ line → line < g.lines →
    ((g.row line).cell (g.columns - 1)).wrapline = false
  shrink : columns < g.columns → ∀ line : ℤ, -(g.historySize : ℤ) ≤ line → line < g.lines →
    ((g.row line).shrink columns).2 = none
  cursor : columns < g.columns → (unwrapCursor true g.cursor).pos.col ≤ columns

theorem oldestFirst_rows (rows : List (Row Square)) :
    ((oldestFirst rows).map Prod.fst).reverse = rows := by
  unfold oldestFirst
  rw [List.map_reverse, List.reverse_reverse]
  exact List.zipIdx_map_fst 0 rows

theorem growLoop_unbroken {reflow : Bool} {columns : ℕ} (lines : ℕ) :
    ∀ (rows : List (Row Square × ℕ)) (st : GrowState),
      (∀ r ∈ st.reversed, shouldReflow reflow columns r = false) →
      (∀ x ∈ rows, shouldReflow reflow columns x.1 = false) →
      growLoop reflow lines columns rows st =
        { st with reversed := (rows.map Prod.fst).reverse ++ st.reversed } := by
  intro rows
  induction rows with
  | nil => exact fun st _ _ => rfl
  | cons x rows ih =>
    intro st hst hrows
    have hx := hrows x List.mem_cons_self
    have hstep : growStep reflow lines columns st x.2 x.1 =
        { st with reversed := x.1 :: st.reversed } := by
      unfold growStep
      cases hreversed : st.reversed with
      | nil => rfl
      | cons lastRow rest =>
        have hlast := hst lastRow (by rw [hreversed]; exact List.mem_cons_self)
        dsimp only
        rw [hlast]
        rfl
    show growLoop reflow lines columns rows (growStep reflow lines columns st x.2 x.1) = _
    have hpushed : ∀ r ∈ x.1 :: st.reversed, shouldReflow reflow columns r = false :=
      List.forall_mem_cons.mpr ⟨hx, hst⟩
    rw [hstep, ih { st with reversed := x.1 :: st.reversed } hpushed fun y hy =>
      hrows y (List.mem_cons_of_mem x hy)]
    dsimp only
    rw [List.map_cons, List.reverse_cons, List.append_assoc]
    rfl

theorem shrinkLoop_unbroken {reflow : Bool} {columns : ℕ} (lines : ℕ) :
    ∀ (rows : List (Row Square × ℕ)) (st : ShrinkState), st.buffered = none →
      (reflow = true → st.cursor.pos.col ≤ columns) →
      (∀ x ∈ rows, reflow = true → (x.1.shrink columns).2 = none) →
      shrinkLoop reflow lines columns rows st =
        { st with
          newRaw := (rows.map fun x => (x.1.shrink columns).1).reverse ++ st.newRaw } := by
  intro rows
  induction rows with
  | nil => exact fun st _ _ _ => rfl
  | cons x rows ih =>
    intro st hbuffered hcursor hrows
    have hx := hrows x List.mem_cons_self
    have hstep : shrinkStep reflow lines columns st x.2 x.1 =
        { st with newRaw := (x.1.shrink columns).1 :: st.newRaw } := by
      unfold shrinkStep
      have hfits : (if reflow = true then (x.1.shrink columns).2 else none) = none ∧
          ¬(reflow = true ∧ x.2 = cursorBufferLine lines st.cursor ∧
            columns < st.cursor.pos.col) := by
        refine ⟨?_, fun hspace => (hcursor hspace.1).not_gt hspace.2.2⟩
        split_ifs with hreflow
        · exact hx hreflow
        · rfl
      rw [hbuffered]
      dsimp only
      unfold shrinkRow
      dsimp only
      rw [if_pos hfits, hbuffered]
    show shrinkLoop reflow lines columns rows (shrinkStep reflow lines columns st x.2 x.1) = _
    rw [hstep, ih { st with newRaw := (x.1.shrink columns).1 :: st.newRaw } hbuffered hcursor
      fun y hy => hrows y (List.mem_cons_of_mem x hy)]
    dsimp only
    rw [List.map_cons, List.reverse_cons, List.append_assoc]
    rfl

theorem exists_line (hg : g.WellFormed) {r : Row Square} (hr : r ∈ g.raw.takeAll.2) :
    ∃ line : ℤ, -(g.historySize : ℤ) ≤ line ∧ line < g.lines ∧ g.row line = r := by
  have hvisible := hg.visible
  have hfilled := hg.filled
  have hlength := length_takeAll hg
  rw [Storage.takeAll_snd] at hr hlength
  obtain ⟨k, hk, rfl⟩ := List.getElem_of_mem hr
  have hin : g.raw.InBounds (g.lines - 1 - k) := by
    rw [Storage.inBounds_iff, Storage.top]
    omega
  refine ⟨g.lines - 1 - k, ?_, by omega, ?_⟩
  · rw [historySize_eq]
    omega
  · have hindex : g.raw.buffer.index (g.lines - 1 - k) = k := by
      show ((g.raw.visibleLines : ℤ) - 1 - (g.lines - 1 - k)).toNat = k
      omega
    unfold row
    rw [Storage.row_eq_buffer hg.storage hin, hindex, List.getD_eq_getElem?_getD,
      List.getElem?_eq_getElem hk]
    rfl

/-- A grid with each row replaced by another one. -/
structure RowsBecome (g g' : Grid Square) (f : Row Square → Row Square) : Prop where
  history : g'.historySize = g.historySize
  cursor : g'.cursor.pos.row = g.cursor.pos.row
  rows : ∀ line : ℤ, -(g.historySize : ℤ) ≤ line → line < g.lines → g'.row line = f (g.row line)

theorem unwrapCursor_row (reflow : Bool) (cursor : Cursor Square) :
    (unwrapCursor reflow cursor).pos.row = cursor.pos.row := by
  unfold unwrapCursor
  split_ifs <;> rfl

theorem unwrapCursor_col (reflow : Bool) (cursor : Cursor Square) :
    (unwrapCursor reflow cursor).pos.col =
      if cursor.shouldWrap && reflow then cursor.pos.col + 1 else cursor.pos.col := by
  unfold unwrapCursor
  split_ifs <;> rfl

theorem growColumns_rows (hg : g.Sound D) {reflow : Bool} {columns : ℕ}
    (hunbroken : reflow = true → ∀ line : ℤ, -(g.historySize : ℤ) ≤ line → line < g.lines →
      ((g.row line).cell (g.columns - 1)).wrapline = false) :
    g.RowsBecome (g.growColumns reflow columns) (Row.grow · columns) := by
  have hlength := length_takeAll hg.wellFormed
  have hfilled := hg.wellFormed.filled
  have hrows : ∀ x ∈ oldestFirst g.raw.takeAll.2, shouldReflow reflow columns x.1 = false := by
    intro x hx
    obtain ⟨line, htop, hline, hrow⟩ := exists_line hg.wellFormed (mem_oldestFirst hx)
    have hlen : x.1.len = g.columns := mem_takeAll hg.wellFormed (mem_oldestFirst hx)
    unfold shouldReflow
    cases reflow with
    | false => rfl
    | true =>
      rw [hlen, ← hrow, hunbroken rfl line htop hline, Bool.and_false]
  have hloop := growLoop_unbroken g.lines (oldestFirst g.raw.takeAll.2)
    { cursor := unwrapCursor reflow g.cursor, displayOffset := g.displayOffset
      cursorLineDelta := 0, reversed := [] } (List.forall_mem_nil _) hrows
  dsimp only at hloop
  rw [oldestFirst_rows, List.append_nil] at hloop
  have hgrown : (g.growColumns reflow columns).cursor = unwrapCursor reflow g.cursor ∧
      (g.growColumns reflow columns).raw =
        g.raw.takeAll.1.replaceInner (g.raw.takeAll.2.map (Row.grow · columns)) := by
    unfold growColumns
    dsimp only
    rw [hloop]
    have hviewport : fillViewport
        { cursor := unwrapCursor reflow g.cursor, displayOffset := g.displayOffset
          cursorLineDelta := 0, reversed := g.raw.takeAll.2 } g.lines columns =
        { cursor := unwrapCursor reflow g.cursor, displayOffset := g.displayOffset
          cursorLineDelta := 0, reversed := g.raw.takeAll.2 } :=
      if_neg (by dsimp only; omega)
    rw [hviewport]
    exact ⟨rfl, rfl⟩
  obtain ⟨hcursor, hraw⟩ := hgrown
  refine ⟨?_, ?_, fun line htop hline => ?_⟩
  · rw [historySize_eq, historySize_eq, hraw, growColumns_lines]
    show (g.raw.takeAll.2.map (Row.grow · columns)).length - _ = _
    rw [List.length_map, hlength]
  · rw [hcursor, unwrapCursor_row]
  · unfold row
    rw [hraw]
    exact Storage.row_mapRows hg.wellFormed.storage _ (hg.wellFormed.inBounds htop hline)

theorem placeCursor_row (reflow : Bool) (hrow : 0 ≤ g.cursor.pos.row)
    (hrow' : g.cursor.pos.row < g.lines) :
    (g.placeCursor reflow).pos.row = g.cursor.pos.row := by
  unfold placeCursor
  dsimp only
  split_ifs
  · rfl
  · rfl
  · unfold Pos.gridClamp
    dsimp only
    have hbottom : g.dimensions.bottommostLine = (g.lines : ℤ) - 1 := rfl
    rw [if_neg (by omega), if_neg (by omega)]

theorem shrinkColumns_rows (hg : g.Sound D) {reflow : Bool} {columns : ℕ}
    (hcursor : reflow = true → (unwrapCursor reflow g.cursor).pos.col ≤ columns)
    (hunbroken : reflow = true → ∀ line : ℤ, -(g.historySize : ℤ) ≤ line → line < g.lines →
      ((g.row line).shrink columns).2 = none) :
    g.RowsBecome (g.shrinkColumns reflow columns) fun r => (r.shrink columns).1 := by
  have hlength := length_takeAll hg.wellFormed
  have hfilled := hg.wellFormed.filled
  have hlimit := hg.wellFormed.limit
  have hrows : ∀ x ∈ oldestFirst g.raw.takeAll.2, reflow = true →
      (x.1.shrink columns).2 = none := by
    intro x hx hreflow
    obtain ⟨line, htop, hline, hrow⟩ := exists_line hg.wellFormed (mem_oldestFirst hx)
    rw [← hrow]
    exact hunbroken hreflow line htop hline
  have hloop := shrinkLoop_unbroken g.lines (oldestFirst g.raw.takeAll.2)
    { cursor := unwrapCursor reflow g.cursor, displayOffset := g.displayOffset
      newRaw := [], buffered := none } rfl hcursor hrows
  have hcut : ((oldestFirst g.raw.takeAll.2).map fun x => (x.1.shrink columns).1).reverse =
      g.raw.takeAll.2.map fun r => (r.shrink columns).1 := by
    conv_rhs => rw [← oldestFirst_rows g.raw.takeAll.2, List.map_reverse, List.map_map]
    rfl
  dsimp only at hloop
  rw [hcut, List.append_nil] at hloop
  have hall : (g.raw.takeAll.2.map fun r => (r.shrink columns).1).take
      (g.maxScrollLimit + g.lines) = g.raw.takeAll.2.map fun r => (r.shrink columns).1 := by
    rw [List.take_of_length_le]
    rw [List.length_map, hlength]
    rw [historySize_eq] at hlimit
    omega
  have hshrunk : (g.shrinkColumns reflow columns).cursor.pos.row =
        (unwrapCursor reflow g.cursor).pos.row ∧
      (g.shrinkColumns reflow columns).raw =
        g.raw.takeAll.1.replaceInner (g.raw.takeAll.2.map fun r => (r.shrink columns).1) := by
    unfold shrinkColumns
    dsimp only
    rw [hloop]
    dsimp only
    rw [hall]
    refine ⟨placeCursor_row reflow ?_ ?_, rfl⟩
    · dsimp only
      rw [unwrapCursor_row]
      exact hg.cursor.1
    · dsimp only
      rw [unwrapCursor_row]
      exact hg.cursor.2.1
  obtain ⟨hcursorRow, hraw⟩ := hshrunk
  refine ⟨?_, ?_, fun line htop hline => ?_⟩
  · rw [historySize_eq, historySize_eq, hraw, shrinkColumns_lines]
    show (g.raw.takeAll.2.map fun r => (r.shrink columns).1).length - _ = _
    rw [List.length_map, hlength]
  · rw [hcursorRow, unwrapCursor_row]
  · unfold row
    rw [hraw]
    exact Storage.row_mapRows hg.wellFormed.storage _ (hg.wellFormed.inBounds htop hline)

/-! ### A whole resize -/

/-- The text of a row, counted from the oldest one. -/
def textAt (g : Grid Square) (absRow : ℤ) (col : ℕ) : Square :=
  g.cell ⟨absRow - g.historySize, col⟩

/-- The rows are those of before without the `dropped` oldest ones, as far as both have columns. -/
def KeepsText (g g' : Grid Square) (dropped : ℕ) : Prop :=
  ∀ absRow : ℤ, 0 ≤ absRow → absRow < g'.historySize + g'.lines →
    absRow + dropped < g.historySize + g.lines →
      ∀ col < min g.columns g'.columns, g'.textAt absRow col = g.textAt (absRow + dropped) col

theorem cell_of_inner {r r' : Row Square} (h : r'.inner = r.inner) (col : ℕ) :
    r'.cell col = r.cell col := by
  unfold Row.cell
  rw [h]

theorem shrink_cut_of_inner {r r' : Row Square} (h : r'.inner = r.inner) (columns : ℕ) :
    (r'.shrink columns).2 = (r.shrink columns).2 := by
  unfold Row.shrink Row.len
  rw [h]
  split_ifs <;> rfl

theorem shrink_cut_blank {r : Row Square} {width : ℕ} (h : r.inner = List.replicate width default)
    (columns : ℕ) : (r.shrink columns).2 = none := by
  unfold Row.shrink
  split_ifs
  · rfl
  · have hempty : (r.inner.drop columns).rdropWhile GridSquare.isEmpty = [] := by
      rw [h, List.drop_replicate, List.rdropWhile_eq_nil_iff]
      intro c hc
      rw [List.eq_of_mem_replicate hc]
      rfl
    dsimp only
    rw [hempty]
    rfl

/-- The text is not reflown, or no row is joined or split. -/
def Still (g : Grid Square) (reflow : Bool) (columns : ℕ) : Prop :=
  reflow = true → g.Unbroken columns

theorem RowsMove.unbroken {dropped : ℕ} {columns : ℕ} (h : g.RowsMove g' dropped)
    (hcolumns : g'.columns = g.columns)
    (hcursor : (unwrapCursor true g'.cursor).pos.col = (unwrapCursor true g.cursor).pos.col)
    (hunbroken : g.Unbroken columns) : g'.Unbroken columns := by
  have hrows {P : Row Square → Prop} (hsame : ∀ r r' : Row Square, r'.inner = r.inner → P r → P r')
      (hblank : ∀ r : Row Square, r.inner = List.replicate g.columns default → P r)
      (hP : ∀ line : ℤ, -(g.historySize : ℤ) ≤ line → line < g.lines → P (g.row line)) (line : ℤ)
      (htop : -(g'.historySize : ℤ) ≤ line) (hline : line < g'.lines) : P (g'.row line) := by
    obtain ⟨hkept, hnew⟩ := h line (line + g'.historySize + dropped - g.historySize) htop hline
      (by omega)
    by_cases hbefore : line + g'.historySize + dropped - g.historySize < g.lines
    · exact hsame _ _ (hkept hbefore) (hP _ (by omega) hbefore)
    · exact hblank _ (hnew (by omega))
  refine ⟨fun hless => ?_, fun hmore => ?_, fun hmore => ?_⟩
  · rw [hcolumns] at hless ⊢
    refine hrows (P := fun r => (r.cell (g.columns - 1)).wrapline = false)
      (fun r r' hinner hr => ?_) (fun r hr => ?_) (hunbroken.grow hless)
    · rw [cell_of_inner hinner]
      exact hr
    · unfold Row.cell
      rw [hr, List.getD_eq_getElem?_getD, List.getElem?_replicate]
      split_ifs <;> rfl
  · rw [hcolumns] at hmore
    exact hrows (P := fun r => (r.shrink columns).2 = none)
      (fun r r' hinner hr => (shrink_cut_of_inner hinner columns).trans hr)
      (fun r hr => shrink_cut_blank hr columns) (hunbroken.shrink hmore)
  · rw [hcolumns] at hmore
    rw [hcursor]
    exact hunbroken.cursor hmore

/-- The grid with as many columns as asked for. -/
def resizeColumns (g : Grid Square) (reflow : Bool) (columns : ℕ) : Grid Square :=
  if g.columns < columns then g.growColumns reflow columns
  else if columns < g.columns then g.shrinkColumns reflow columns else g

theorem grow_cell (r : Row Square) {columns col : ℕ} (hcol : col < r.len) :
    (r.grow columns).cell col = r.cell col := by
  unfold Row.grow Row.cell
  rw [List.getD_eq_getElem?_getD, List.getD_eq_getElem?_getD, List.getElem?_append_left hcol]

theorem shrink_cell (r : Row Square) {columns col : ℕ} (hcol : col < columns) :
    (r.shrink columns).1.cell col = r.cell col := by
  unfold Row.shrink
  split_ifs
  · rfl
  · unfold Row.cell
    dsimp only
    rw [List.getD_eq_getElem?_getD, List.getD_eq_getElem?_getD, List.getElem?_take_of_lt hcol]

/-- Without a reflow a change of the columns leaves the rows in their lines. -/
theorem resizeColumns_cells (hg : g.Sound D) {reflow : Bool} {columns : ℕ}
    (hstill : g.Still reflow columns) :
    (g.resizeColumns reflow columns).historySize = g.historySize ∧
      (g.resizeColumns reflow columns).cursor.pos.row = g.cursor.pos.row ∧
      ∀ line : ℤ, -(g.historySize : ℤ) ≤ line → line < g.lines →
        ∀ col < min g.columns columns,
          (g.resizeColumns reflow columns).cell ⟨line, col⟩ = g.cell ⟨line, col⟩ := by
  unfold resizeColumns
  split_ifs with hmore hless
  · have hgrown : g.RowsBecome (g.growColumns reflow columns) (Row.grow · columns) :=
      growColumns_rows hg fun hreflow => (hstill hreflow).grow hmore
    obtain ⟨hhistory, hcursor, hrows⟩ := hgrown
    refine ⟨hhistory, hcursor, fun line htop hline col hcol => ?_⟩
    have hwidth := hg.wellFormed.width _
      (Storage.row_mem hg.wellFormed.storage (hg.wellFormed.inBounds htop hline))
    unfold cell
    rw [hrows line htop hline]
    refine grow_cell _ ?_
    change (g.row line).len = g.columns at hwidth
    dsimp only
    omega
  · have hshrunk : g.RowsBecome (g.shrinkColumns reflow columns) fun r => (r.shrink columns).1 :=
      shrinkColumns_rows hg
        (fun hreflow => by
          rw [hreflow]
          exact (hstill hreflow).cursor hless) fun hreflow => (hstill hreflow).shrink hless
    obtain ⟨hhistory, hcursor, hrows⟩ := hshrunk
    refine ⟨hhistory, hcursor, fun line htop hline col hcol => ?_⟩
    unfold cell
    rw [hrows line htop hline]
    exact shrink_cell _ (by dsimp only; omega)
  · exact ⟨rfl, rfl, fun _ _ _ _ _ => rfl⟩

/-- Where the rows go without a reflow, and that the cursor goes with them. -/
theorem resize_text (hg : g.Sound D) {reflow : Bool} {lines columns : ℕ} (hlines : 1 ≤ lines)
    (hstill : g.Still reflow columns) :
    g.KeepsText (g.resize reflow lines columns) (g.overflow lines) ∧
      ((g.resize reflow lines columns).historySize : ℤ) +
        (g.resize reflow lines columns).cursor.pos.row + g.overflow lines =
          g.historySize + g.cursor.pos.row := by
  have hblank : Sound D { g with cursor := { g.cursor with template := default } } :=
    hg.of_eq rfl rfl rfl rfl rfl rfl rfl
  have hrows := resizeLines_rows hblank rfl hlines
  obtain ⟨row, hcursor, hrow⟩ := resizeLines_cursor hblank hlines
  have hsound : Sound D (resizeLines { g with cursor := { g.cursor with template := default } }
      lines) := resizeLines_sound hblank hlines
  have hcolumns := resizeLines_columns { g with cursor := { g.cursor with template := default } }
    lines
  have hkept := resizeLines_lines { g with cursor := { g.cursor with template := default } } lines
  have hstill' : Still (resizeLines { g with cursor := { g.cursor with template := default } }
      lines) reflow columns := by
    intro hreflow
    obtain ⟨hgrow, hshrink, hbeyond⟩ := hstill hreflow
    rw [unwrapCursor_col] at hbeyond
    refine hrows.unbroken hcolumns ?_ ⟨hgrow, hshrink, ?_⟩
    · rw [hcursor, unwrapCursor_col, unwrapCursor_col]
    · rw [unwrapCursor_col]
      exact hbeyond
  obtain ⟨hhistory, hline, hcells⟩ := resizeColumns_cells hsound hstill'
  have hresize (p : Pos) : (g.resize reflow lines columns).cell p =
      ((resizeLines { g with cursor := { g.cursor with template := default } } lines).resizeColumns
        reflow columns).cell p := rfl
  have hwide := resize_columns g reflow lines columns
  have hhigh := resize_lines g reflow lines columns
  have hsize : (g.resize reflow lines columns).historySize =
      (resizeLines { g with cursor := { g.cursor with template := default } } lines).historySize :=
    hhistory
  constructor
  · intro absRow hfirst hlast hbefore col hcol
    rw [hhigh, hsize] at hlast
    rw [hwide] at hcol
    unfold textAt
    rw [hsize, hresize]
    generalize hmiddle : resizeLines { g with cursor := { g.cursor with template := default } }
      lines = middle at hrows hcells hkept hcolumns hlast ⊢
    have hcell := hcells (absRow - middle.historySize) (by omega) (by omega) col
      (by rw [hcolumns]; exact hcol)
    have hplace : absRow + g.overflow lines - g.historySize + g.historySize =
        absRow - middle.historySize + middle.historySize + g.overflow lines := by omega
    have hinner := (hrows (absRow - middle.historySize) (absRow + g.overflow lines - g.historySize)
      (by omega) (by omega) hplace).1 (show _ < (g.lines : ℤ) by omega)
    exact hcell.trans (cell_of_inner hinner col)
  · rw [hsize]
    have hsame : (g.resize reflow lines columns).cursor.pos.row = row :=
      hline.trans (congrArg (fun c : Cursor Square => c.pos.row) hcursor)
    rw [hsame]
    change row + _ + (g.overflow lines : ℤ) = g.cursor.pos.row + g.historySize at hrow
    omega

end Grid
end Rio
