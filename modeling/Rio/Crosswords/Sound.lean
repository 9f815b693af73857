import Rio.Crosswords.Ops
import Rio.Grid.ResizeSound

/-! Every operation keeps the cursors of both screens on the screen and, as long as no region
below the top line scrolls under a display that is scrolled back, the display in the history. -/

set_option linter.dupNamespace false

namespace Rio

variable {D : Prop}

namespace Crosswords

/-- What holds of a terminal at all times. -/
structure Sound (D : Prop) (t : Crosswords) : Prop where
  grid : t.grid.Sound D
  inactive : t.inactiveGrid.Sound D
  lines_eq : t.inactiveGrid.lines = t.grid.lines
  columns_eq : t.inactiveGrid.columns = t.grid.columns
  region : t.scrollRegion.stop ≤ t.grid.lines

variable {t : Crosswords}

theorem Sound.of_eq (h : t.Sound D) {t' : Crosswords} (hgrid : t'.grid = t.grid)
    (hinactive : t'.inactiveGrid = t.inactiveGrid) (hregion : t'.scrollRegion = t.scrollRegion) :
    t'.Sound D := by
  obtain ⟨h1, h2, h3, h4, h5⟩ := h
  refine ⟨?_, ?_, ?_, ?_, ?_⟩
  · rwa [hgrid]
  · rwa [hinactive]
  · rwa [hgrid, hinactive]
  · rwa [hgrid, hinactive]
  · rwa [hgrid, hregion]

theorem Sound.mapGrid (h : t.Sound D) {f : Grid Square → Grid Square} (hf : (f t.grid).Sound D)
    (hlines : (f t.grid).lines = t.grid.lines) (hcolumns : (f t.grid).columns = t.grid.columns) :
    (t.mapGrid f).Sound D :=
  ⟨hf, h.inactive, h.lines_eq.trans hlines.symm, h.columns_eq.trans hcolumns.symm,
    h.region.trans_eq (congrArg Nat.cast hlines.symm)⟩

theorem Sound.damageLine (h : t.Sound D) (line : ℕ) : (t.damageLine line).Sound D :=
  h.of_eq rfl rfl rfl

theorem Sound.damageCursor (h : t.Sound D) : t.damageCursor.Sound D := h.of_eq rfl rfl rfl

theorem Sound.markFullyDamaged (h : t.Sound D) : t.markFullyDamaged.Sound D := h.of_eq rfl rfl rfl

theorem damageLines_eq (t : Crosswords) (lines : List ℤ) :
    t.damageLines lines = { t with damage := (t.damageLines lines).damage } := by
  unfold damageLines
  induction lines generalizing t with
  | nil => rfl
  | cons l lines ih =>
    rw [List.foldl_cons, ih]
    rfl

@[simp] theorem damageLines_grid (t : Crosswords) (lines : List ℤ) :
    (t.damageLines lines).grid = t.grid := by
  rw [damageLines_eq]

theorem Sound.damageLines (h : t.Sound D) (lines : List ℤ) : (t.damageLines lines).Sound D := by
  rw [damageLines_eq]
  exact h.of_eq rfl rfl rfl

theorem Sound.topmostLine_le_row (h : t.Sound D) : t.grid.topmostLine ≤ t.pos.row := by
  have hrow : 0 ≤ t.pos.row := h.grid.cursor.1
  show -(t.grid.historySize : ℤ) ≤ t.pos.row
  omega

/-- Moving the cursor on the screen. -/
theorem Sound.setPos (h : t.Sound D) {row : ℤ} {col : ℕ} (hrow0 : 0 ≤ row)
    (hrow1 : row < t.grid.lines) (hcol : col < t.grid.columns) :
    (t.mapGrid fun g => (g.setLine row).setCol col).Sound D :=
  h.mapGrid ((h.grid.setLine hrow0 hrow1).setCol hcol) rfl rfl

theorem Sound.setCol (h : t.Sound D) {col : ℕ} (hcol : col < t.grid.columns) :
    (t.mapGrid (·.setCol col)).Sound D :=
  h.mapGrid (h.grid.setCol hcol) rfl rfl

theorem Sound.setLine (h : t.Sound D) {row : ℤ} (hrow0 : 0 ≤ row) (hrow1 : row < t.grid.lines) :
    (t.mapGrid (·.setLine row)).Sound D :=
  h.mapGrid (h.grid.setLine hrow0 hrow1) rfl rfl

theorem Sound.setShouldWrap (h : t.Sound D) (on : Bool) :
    (t.mapGrid (·.setShouldWrap on)).Sound D :=
  h.mapGrid (h.grid.setShouldWrap on) rfl rfl

theorem Sound.setColNoWrap (h : t.Sound D) {col : ℕ} (hcol : col < t.grid.columns) (on : Bool) :
    (t.mapGrid fun g => (g.setCol col).setShouldWrap on).Sound D :=
  h.mapGrid ((h.grid.setCol hcol).setShouldWrap on) rfl rfl

theorem Sound.modifyRow (h : t.Sound D) (line : ℤ) {f : Row Square → Row Square}
    (hf : ∀ r, (f r).len = r.len) : (t.mapGrid (·.modifyRow line f)).Sound D :=
  h.mapGrid (h.grid.modifyRow line hf) rfl rfl

theorem Sound.modifyCursorCell (h : t.Sound D) (f : Square → Square) :
    (t.mapGrid (·.modifyCursorCell f)).Sound D :=
  h.mapGrid (h.grid.modifyCursorCell f) rfl rfl

/-! ### Cursor -/

theorem Sound.col_lt (h : t.Sound D) : t.pos.col < t.grid.columns := h.grid.cursor.2.2

theorem Sound.lastColumn_lt (h : t.Sound D) : t.grid.lastColumn < t.grid.columns := by
  have := h.grid.columns_ge
  show t.grid.columns - 1 < t.grid.columns
  omega

theorem Sound.goto (h : t.Sound D) (line : ℤ) (col : ℕ) : (t.goto line col).Sound D := by
  have hlines := h.grid.lines_pos
  have hregion := h.region
  have hcol := h.lastColumn_lt
  unfold Crosswords.goto
  obtain ⟨yOffset, maxY, heq, hmax⟩ : ∃ y m : ℤ,
      (if t.mode.origin then (t.scrollRegion.start, t.scrollRegion.stop - 1)
        else (0, t.grid.bottommostLine)) = (y, m) ∧ m < t.grid.lines := by
    split_ifs
    · exact ⟨_, _, rfl, by omega⟩
    · refine ⟨_, _, rfl, ?_⟩
      show (t.grid.lines : ℤ) - 1 < t.grid.lines
      omega
  rw [heq]
  dsimp only
  apply Sound.setShouldWrap
  apply Sound.damageCursor
  exact h.damageCursor.setPos (le_max_right _ _)
    (show max (min (line + yOffset) maxY) 0 < (t.grid.lines : ℤ) by omega)
    (show min col t.grid.lastColumn < t.grid.columns by omega)

theorem Sound.moveForward (h : t.Sound D) (cols : ℕ) : (t.moveForward cols).Sound D := by
  have hcol := h.lastColumn_lt
  exact h.damageCursor.setColNoWrap
    (show min (t.pos.col + cols) t.grid.lastColumn < t.grid.columns by omega) false

theorem Sound.moveBackward (h : t.Sound D) (cols : ℕ) : (t.moveBackward cols).Sound D := by
  have hcol := h.col_lt
  exact h.damageCursor.setColNoWrap (show t.pos.col - cols < t.grid.columns by omega) false

theorem prevTab_le (tabs : List Bool) (col : ℕ) : prevTab tabs col ≤ col := by
  unfold prevTab
  rcases hfind : (List.range col).reverse.find? fun i => tabs.getD i false with _ | i
  · exact le_rfl
  · have hmem := List.mem_of_find?_eq_some hfind
    rw [List.mem_reverse, List.mem_range] at hmem
    exact hmem.le

theorem nextTab_lt {tabs : List Bool} {columns : ℕ} :
    ∀ (fuel : ℕ) {col : ℕ}, col < columns → nextTab tabs columns fuel col < columns
  | 0, _, h => h
  | fuel + 1, col, h => by
    unfold nextTab
    split_ifs with hlast
    · exact h
    · omega
    · exact nextTab_lt fuel (by omega)

theorem iterate_lt {f : ℕ → ℕ} {n : ℕ} (hf : ∀ k, k < n → f k < n) :
    ∀ (count : ℕ) {k : ℕ}, k < n → f^[count] k < n
  | 0, _, h => h
  | count + 1, k, h => by
    rw [Function.iterate_succ_apply]
    exact iterate_lt hf count (hf k h)

theorem Sound.moveBackwardTabs (h : t.Sound D) (count : ℕ) :
    (t.moveBackwardTabs count).Sound D := by
  have hcol := iterate_lt (f := prevTab t.tabs) (fun k hk => (prevTab_le t.tabs k).trans_lt hk)
    count h.col_lt
  exact (h.setCol hcol).damageCursor

theorem Sound.moveForwardTabs (h : t.Sound D) (count : ℕ) : (t.moveForwardTabs count).Sound D := by
  have hcol := iterate_lt (f := nextTab t.tabs t.grid.columns t.grid.columns)
    (fun k hk => nextTab_lt _ hk) count h.col_lt
  exact (h.setCol hcol).damageCursor

theorem Sound.carriageReturn (h : t.Sound D) : t.carriageReturn.Sound D := by
  have hcolumns := h.grid.columns_ge
  exact h.damageCursor.setColNoWrap (show 0 < t.grid.columns by omega) false

theorem Sound.backspace (h : t.Sound D) : t.backspace.Sound D := by
  have hcol := h.col_lt
  unfold Crosswords.backspace
  split_ifs
  · exact (h.setColNoWrap (show t.pos.col - 1 < t.grid.columns by omega) false).damageCursor
  · exact h

theorem Sound.saveCursorPosition (h : t.Sound D) : t.saveCursorPosition.Sound D := by
  have hg := h.grid
  have hwf := hg.wellFormed
  refine h.mapGrid ⟨?_, hg.lines_pos, hg.columns_ge, hg.cursor, hg.cursor, hg.display⟩ rfl rfl
  exact ⟨hwf.storage, hwf.visible, hwf.filled, hwf.limit, hwf.width⟩

theorem Sound.restoreCursorPosition (h : t.Sound D) : t.restoreCursorPosition.Sound D := by
  have hg := h.grid
  have hrestored : (t.damageCursor.mapGrid fun g => { g with cursor := g.savedCursor }).Sound D :=
    h.damageCursor.mapGrid ⟨hg.wellFormed.withCursor _, hg.lines_pos, hg.columns_ge,
      hg.savedCursor, hg.savedCursor, hg.display⟩ rfl rfl
  exact hrestored.damageCursor

theorem Sound.setScrollingRegion (h : t.Sound D) (top : ℕ) (bottom : Option ℕ) :
    (t.setScrollingRegion top bottom).Sound D := by
  unfold Crosswords.setScrollingRegion
  dsimp only
  split_ifs
  · exact h
  · apply Sound.goto
    exact ⟨h.grid, h.inactive, h.lines_eq, h.columns_eq, min_le_right _ _⟩

/-! ### Scrolling -/

theorem Sound.scrollDownRelative (h : t.Sound D) (origin : ℤ) (lines : ℕ) :
    (t.scrollDownRelative origin lines).Sound D := by
  have hscrolled (region : Region) (n : ℕ) : (t.mapGrid (·.scrollDown region n)).Sound D :=
    h.mapGrid (h.grid.scrollDown _ _) (Grid.scrollDown_lines _ _ _)
      (Grid.scrollDown_columns _ _ _)
  exact (hscrolled _ _).of_eq rfl rfl rfl

/-- The lines that scrolling up from `origin` scrolls by. -/
def scrollCount (t : Crosswords) (lines : ℕ) : ℕ :=
  min lines (t.scrollRegion.stop - t.scrollRegion.start).toNat

theorem Sound.scrollUpRelative (h : t.Sound D) (origin : ℤ) {lines : ℕ}
    (hholds : D → t.grid.ScrollHolds ⟨origin, t.scrollRegion.stop⟩ (t.scrollCount lines)) :
    (t.scrollUpRelative origin lines).Sound D := by
  apply Sound.damageLines
  have hscrolled : (t.mapGrid (·.scrollUp ⟨origin, t.scrollRegion.stop⟩
      (t.scrollCount lines))).Sound D :=
    h.mapGrid (h.grid.scrollUp _ hholds) (Grid.scrollUp_lines _ _ _)
      (Grid.scrollUp_columns _ _ _)
  exact hscrolled.of_eq rfl rfl rfl

theorem scrollUpRelative_grid (t : Crosswords) (origin : ℤ) (lines : ℕ) :
    (t.scrollUpRelative origin lines).grid =
      t.grid.scrollUp ⟨origin, t.scrollRegion.stop⟩ (t.scrollCount lines) := by
  unfold scrollUpRelative
  rw [damageLines_grid]
  rfl

theorem scrollUpRelative_scrollRegion (t : Crosswords) (origin : ℤ) (lines : ℕ) :
    (t.scrollUpRelative origin lines).scrollRegion = t.scrollRegion := by
  unfold scrollUpRelative
  rw [damageLines_eq]
  rfl

/-- How many of `k` line feeds scroll the screen. -/
def marginScrolls (t : Crosswords) (k : ℕ) : ℕ :=
  if t.pos.row < t.scrollRegion.stop then k - (t.scrollRegion.stop - 1 - t.pos.row).toNat else 0

/-- `k` line feeds keep the display within the history. -/
def LinefeedsHold (t : Crosswords) (k : ℕ) : Prop :=
  t.scrollRegion.start = 0 ∨ t.scrollRegion.stop - t.scrollRegion.start ≤ 1 ∨
    t.grid.displayOffset = 0 ∨
      min (t.grid.displayOffset + t.marginScrolls k) t.grid.maxScrollLimit ≤ t.grid.historySize

theorem marginScrolls_le (t : Crosswords) (k : ℕ) : t.marginScrolls k ≤ k := by
  unfold marginScrolls
  split_ifs
  · exact Nat.sub_le _ _
  · exact Nat.zero_le _

/-- On the last line of the region every line feed scrolls. -/
theorem marginScrolls_of_last (hnext : t.pos.row + 1 = t.scrollRegion.stop) (k : ℕ) :
    t.marginScrolls k = k := by
  unfold marginScrolls
  rw [if_pos (by omega)]
  omega

theorem LinefeedsHold.scrollHolds {k : ℕ} (h : t.LinefeedsHold (k + 1))
    (hnext : t.pos.row + 1 = t.scrollRegion.stop) :
    t.grid.ScrollHolds ⟨t.scrollRegion.start, t.scrollRegion.stop⟩ (t.scrollCount 1) := by
  unfold LinefeedsHold at h
  rw [marginScrolls_of_last hnext] at h
  unfold Grid.ScrollHolds scrollCount
  dsimp only
  omega

/-- A display that comes to lie no further back stays in the history. -/
theorem LinefeedsHold.of_le {t' : Crosswords} {k k' : ℕ} (h : t.LinefeedsHold k)
    (hregion : t'.scrollRegion = t.scrollRegion)
    (hmax : t'.grid.maxScrollLimit = t.grid.maxScrollLimit)
    (hsize : t'.grid.historySize = t.grid.historySize)
    (hshown : t.grid.displayOffset = 0 → t'.grid.displayOffset = 0)
    (hle : t'.grid.displayOffset + t'.marginScrolls k' ≤
      t.grid.displayOffset + t.marginScrolls k) : t'.LinefeedsHold k' := by
  unfold LinefeedsHold at h ⊢
  rw [hregion, hmax, hsize]
  rcases h with hstart | hsmall | hzero | hfits
  · exact .inl hstart
  · exact .inr (.inl hsmall)
  · exact .inr (.inr (.inl (hshown hzero)))
  · exact .inr (.inr (.inr ((min_le_min_right _ hle).trans hfits)))

theorem Sound.linefeed (h : t.Sound D) {k : ℕ} (hholds : D → t.LinefeedsHold (k + 1)) :
    t.linefeed.Sound D := by
  have hrow := h.grid.cursor.1
  unfold Crosswords.linefeed
  dsimp only
  split_ifs with hnext hlast
  · exact h.scrollUpRelative _ fun hD => (hholds hD).scrollHolds hnext
  · apply Sound.damageCursor
    refine h.damageCursor.setLine ?_ hlast
    show 0 ≤ t.grid.cursor.pos.row + 1
    omega
  · exact h

/-- What a line feed does to the grid and the cursor. -/
theorem linefeed_cases (t : Crosswords) :
    (t.pos.row + 1 = t.scrollRegion.stop ∧
        t.linefeed.grid = t.grid.scrollUp t.scrollRegion (t.scrollCount 1)) ∨
      (t.pos.row + 1 ≠ t.scrollRegion.stop ∧ t.pos.row + 1 < t.grid.lines ∧
        t.linefeed.grid = t.grid.setLine (t.pos.row + 1)) ∨
      (t.pos.row + 1 ≠ t.scrollRegion.stop ∧ t.grid.lines ≤ t.pos.row + 1 ∧ t.linefeed = t) := by
  unfold linefeed
  dsimp only
  split_ifs with hnext hlast
  · exact .inl ⟨hnext, scrollUpRelative_grid t _ _⟩
  · exact .inr (.inl ⟨hnext, hlast, rfl⟩)
  · exact .inr (.inr ⟨hnext, by omega, rfl⟩)

theorem linefeed_scrollRegion (t : Crosswords) : t.linefeed.scrollRegion = t.scrollRegion := by
  unfold linefeed
  dsimp only
  split_ifs
  · exact scrollUpRelative_scrollRegion t _ _
  · rfl
  · rfl

theorem linefeed_columns (t : Crosswords) : t.linefeed.grid.columns = t.grid.columns := by
  obtain ⟨-, h⟩ | ⟨-, -, h⟩ | ⟨-, -, h⟩ := linefeed_cases t
  · rw [h, Grid.scrollUp_columns]
  · rw [h]
    rfl
  · rw [h]

/-- The rest of some line feeds holds the display after the first of them. -/
theorem LinefeedsHold.linefeed {k : ℕ} (h : t.LinefeedsHold (k + 1)) :
    t.linefeed.LinefeedsHold k := by
  have hregion := linefeed_scrollRegion t
  obtain ⟨hnext, hgrid⟩ | ⟨hnext, -, hgrid⟩ | ⟨hnext, -, heq⟩ := linefeed_cases t
  · by_cases hstart : t.scrollRegion.start = 0
    · exact .inl (by rw [hregion, hstart])
    · have hcount : t.scrollCount 1 ≤ 1 := min_le_left _ _
      have hrest := t.linefeed.marginScrolls_le k
      refine h.of_le hregion ?_ ?_ (fun hzero => ?_) ?_
      · rw [hgrid, Grid.scrollUp_maxScrollLimit]
      · rw [hgrid, Grid.historySize_scrollUp_inner hstart]
      · rw [hgrid, Grid.displayOffset_scrollUp, hzero]
        simp
      · rw [marginScrolls_of_last hnext, hgrid, Grid.displayOffset_scrollUp]
        split_ifs <;> omega
  · refine h.of_le hregion (by rw [hgrid]; rfl) (by rw [hgrid]; rfl) (by rw [hgrid]; exact id) ?_
    have hrow : t.linefeed.pos.row = t.pos.row + 1 := by
      unfold pos
      rw [hgrid]
      rfl
    have hscrolls : t.linefeed.marginScrolls k ≤ t.marginScrolls (k + 1) := by
      unfold marginScrolls
      rw [hregion, hrow]
      split_ifs <;> omega
    rw [hgrid]
    exact Nat.add_le_add_left hscrolls _
  · rw [heq]
    have hscrolls : t.marginScrolls k ≤ t.marginScrolls (k + 1) := by
      unfold marginScrolls
      split_ifs <;> omega
    exact h.of_le rfl rfl rfl id (Nat.add_le_add_left hscrolls _)

theorem Sound.linefeeds : ∀ (k : ℕ) {t : Crosswords}, t.Sound D → (D → t.LinefeedsHold k) →
    (Crosswords.linefeed^[k] t).Sound D
  | 0, _, h, _ => h
  | k + 1, t, h, hholds => by
    rw [Function.iterate_succ_apply]
    exact Sound.linefeeds k (h.linefeed hholds) fun hD => (hholds hD).linefeed

end Crosswords
end Rio
