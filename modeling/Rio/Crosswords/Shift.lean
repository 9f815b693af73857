import Rio.Crosswords.Frame
import Rio.Grid.Origin

/-! Which lines an operation scrolls, and that what else it changes is next to the cursor. -/

set_option linter.dupNamespace false

namespace Rio

/-- Lines of a region that are scrolled. -/
inductive Shift
  | none
  | up (r : Region) (n : ℕ)
  | down (r : Region) (n : ℕ)
  deriving DecidableEq, Repr

namespace Shift

/-- The line that the text of a line was on before. -/
def origin : Shift → ℤ → Option ℤ
  | none, line => some line
  | up r n, line => r.originUp n line
  | down r n, line => r.originDown n line

/-- The size of the history afterwards. -/
def history (g : Grid Square) : Shift → ℕ
  | up r n => if r.start = 0 then min (g.historySize + n) g.maxScrollLimit else g.historySize
  | none | down _ _ => g.historySize

end Shift

/-! ### Edits next to a line -/

namespace Grid

/-- Only cells on a row and the one above it change. -/
structure Touches (row : ℤ) (g g' : Grid Square) : Prop where
  lines : g'.lines = g.lines
  len : g'.raw.len = g.raw.len
  limit : g'.maxScrollLimit = g.maxScrollLimit
  cells : ∀ line, g.topmostLine ≤ line → line < g.lines → line ≠ row - 1 → line ≠ row →
    ∀ col, g'.cell ⟨line, col⟩ = g.cell ⟨line, col⟩

variable {row : ℤ} {g g' g'' : Grid Square}

namespace Touches

theorem of_raw (hraw : g'.raw = g.raw) (hlines : g'.lines = g.lines)
    (hlimit : g'.maxScrollLimit = g.maxScrollLimit) : g.Touches row g' := by
  refine ⟨hlines, congrArg Storage.len hraw, hlimit, fun line _ _ _ _ col => ?_⟩
  unfold cell Grid.row
  rw [hraw]

theorem refl (row : ℤ) (g : Grid Square) : g.Touches row g := of_raw rfl rfl rfl

theorem historySize (h : g.Touches row g') : g'.historySize = g.historySize := by
  rw [historySize_eq, historySize_eq, h.len, h.lines]

theorem topmostLine (h : g.Touches row g') : g'.topmostLine = g.topmostLine := by
  rw [topmostLine_eq, topmostLine_eq, h.historySize]

theorem trans (h : g.Touches row g') (h' : g'.Touches row g'') : g.Touches row g'' := by
  refine ⟨h'.lines.trans h.lines, h'.len.trans h.len, h'.limit.trans h.limit, ?_⟩
  intro line htop hline habove hrow col
  have hcell := h'.cells line (by rwa [h.topmostLine]) (by rwa [h.lines]) habove hrow col
  exact hcell.trans (h.cells line htop hline habove hrow col)

end Touches

theorem touches_modifyRow (hg : g.WellFormed) {line : ℤ} (htop : g.topmostLine ≤ line)
    (hline : line < g.lines) (hnear : line = row - 1 ∨ line = row) (f : Row Square → Row Square) :
    g.Touches row (g.modifyRow line f) := by
  refine ⟨rfl, rfl, rfl, fun l hltop hl habove hrow col => ?_⟩
  have hin := hg.inBounds htop hline
  have hother := Storage.row_modify hg.storage hin (hg.inBounds hltop hl) f
  rw [if_neg (by omega)] at hother
  unfold cell
  exact congrArg (fun r => Row.cell r col) hother

theorem touches_clearWide (h : g.Sound False) :
    g.Touches g.cursor.pos.row (Crosswords.clearWide g) := by
  have hrow := h.cursor.1
  have hbottom := h.cursor.2.1
  have htop : g.topmostLine ≤ g.cursor.pos.row := by
    rw [topmostLine_eq]
    omega
  have hhere (col : ℕ) (f : Square → Square) :
      g.Touches g.cursor.pos.row (g.modifyCell ⟨g.cursor.pos.row, col⟩ f) :=
    touches_modifyRow h.wellFormed htop hbottom (.inr rfl) _
  have habove (col : ℕ) (f : Square → Square) (hfirst : g.cursor.pos.row ≠ g.topmostLine)
      {g' : Grid Square} (h' : g'.Sound False) (htouch : g.Touches g.cursor.pos.row g') :
      g.Touches g.cursor.pos.row (g'.modifyCell ⟨g.cursor.pos.row - 1, col⟩ f) := by
    refine htouch.trans (touches_modifyRow h'.wellFormed ?_ ?_ (.inl rfl) _)
    · rw [htouch.topmostLine]
      show g.topmostLine ≤ g.cursor.pos.row - 1
      omega
    · rw [htouch.lines]
      show g.cursor.pos.row - 1 < g.lines
      omega
  unfold Crosswords.clearWide
  dsimp only
  split_ifs with h1 h2 h3 h4 h5 h6
  · exact habove _ _ h3.2 (h.modifyCell _ _) (hhere _ _)
  · exact hhere _ _
  · exact habove _ _ h5.2 (h.modifyCell _ _) (hhere _ _)
  · exact hhere _ _
  · exact habove _ _ h6.2 h (.refl _ _)
  · exact .refl _ _
  · exact .refl _ _

end Grid

namespace Crosswords

variable {t t' t'' : Crosswords}

/-- Only cells on the row of the cursor and the one above it change. -/
structure Touches (t t' : Crosswords) : Prop where
  row : t'.pos.row = t.pos.row
  region : t'.scrollRegion = t.scrollRegion
  grid : t.grid.Touches t.pos.row t'.grid

namespace Touches

theorem refl (t : Crosswords) : t.Touches t := ⟨rfl, rfl, .refl _ _⟩

theorem trans (h : t.Touches t') (h' : t'.Touches t'') : t.Touches t'' :=
  ⟨h'.row.trans h.row, h'.region.trans h.region, h.grid.trans (h.row ▸ h'.grid)⟩

/-- No cell changes, and the cursor moves on its row. -/
theorem of_raw (hraw : t'.grid.raw = t.grid.raw) (hlines : t'.grid.lines = t.grid.lines)
    (hlimit : t'.grid.maxScrollLimit = t.grid.maxScrollLimit) (hrow : t'.pos.row = t.pos.row)
    (hregion : t'.scrollRegion = t.scrollRegion) : t.Touches t' :=
  ⟨hrow, hregion, .of_raw hraw hlines hlimit⟩

theorem damageLine (h : t.Touches t') (line : ℕ) : t.Touches (t'.damageLine line) :=
  h.trans (.of_raw rfl rfl rfl rfl rfl)

end Touches

theorem touches_modifyRow (h : t.Sound False) (f : Row Square → Row Square) :
    t.Touches (t.mapGrid (·.modifyRow t.pos.row f)) :=
  ⟨rfl, rfl, Grid.touches_modifyRow h.grid.wellFormed h.topmostLine_le_row
    h.grid.cursor.2.1 (.inr rfl) f⟩

theorem touches_modifyCell (h : t.Sound False) (col : ℕ) (f : Square → Square) :
    t.Touches (t.mapGrid (·.modifyCell ⟨t.pos.row, col⟩ f)) :=
  touches_modifyRow h _

theorem touches_modifyCursorCell (h : t.Sound False) (f : Square → Square) :
    t.Touches (t.mapGrid (·.modifyCursorCell f)) :=
  touches_modifyRow h _

theorem touches_writeAtCursor (h : t.Sound False) (c : Char) : t.Touches (t.writeAtCursor c) := by
  have hcleared : t.Touches (t.mapGrid clearWide) := by
    refine ⟨?_, rfl, Grid.touches_clearWide h.grid⟩
    show (clearWide t.grid).cursor.pos.row = t.grid.cursor.pos.row
    rw [Grid.clearWide_eq]
  have hsound : (t.mapGrid clearWide).Sound False := by
    refine h.mapGrid h.grid.clearWide ?_ ?_
    · rw [Grid.clearWide_eq]
    · rw [Grid.clearWide_eq]
  exact hcleared.trans (touches_modifyCursorCell hsound _)

theorem touches_writeTagged (h : t.Sound False) (c : Char) (tag : Wide) :
    t.Touches (t.writeTagged c tag) :=
  (touches_writeAtCursor h c).trans (touches_modifyCursorCell (h.writeAtCursor c) _)

theorem touches_advance (t : Crosswords) : t.Touches t.advance := by
  unfold advance
  split_ifs
  · exact .of_raw rfl rfl rfl rfl rfl
  · exact .of_raw rfl rfl rfl rfl rfl

theorem touches_shiftForInsert (h : t.Sound False) (width : ℕ) : t.Touches (t.shiftForInsert width) := by
  unfold shiftForInsert
  dsimp only
  split_ifs
  · exact touches_modifyRow h _
  · exact .refl t

theorem touches_markPlaceholder (h : t.Sound False) (c : Char) : t.Touches (t.markPlaceholder c) := by
  unfold markPlaceholder
  split_ifs
  · exact touches_modifyRow h _
  · exact .refl t

theorem touches_pushZeroWidth (h : t.Sound False) (col : ℕ) (c : Char) :
    t.Touches (t.mapGrid (pushZeroWidth · ⟨t.pos.row, col⟩ c)) := by
  obtain ⟨f, extrasTable, heq⟩ := pushZeroWidth_eq t.grid ⟨t.pos.row, col⟩ c
  have hgrid : t.grid.Touches t.pos.row (pushZeroWidth t.grid ⟨t.pos.row, col⟩ c) ∧
      (pushZeroWidth t.grid ⟨t.pos.row, col⟩ c).cursor.pos.row = t.pos.row := by
    rw [heq]
    exact ⟨(touches_modifyCell h col f).grid.trans (.of_raw rfl rfl rfl), rfl⟩
  exact ⟨hgrid.2, rfl, hgrid.1⟩

theorem touches_widenInPlace (h : t.Sound False) {baseCol : ℕ} (hbase : baseCol + 1 < t.grid.columns) :
    t.Touches (t.widenInPlace baseCol) := by
  have hcell := touches_modifyCell h baseCol (·.setWide .wide)
  have hmoved : t.Touches (t.mapGrid fun g =>
      ((g.modifyCell ⟨t.pos.row, baseCol⟩ (·.setWide .wide)).setCol (baseCol + 1)).setShouldWrap
        false) := hcell.trans (.of_raw rfl rfl rfl rfl rfl)
  have hsound : (t.mapGrid fun g =>
      ((g.modifyCell ⟨t.pos.row, baseCol⟩ (·.setWide .wide)).setCol (baseCol + 1)).setShouldWrap
        false).Sound False :=
    h.mapGrid (((h.grid.modifyCell _ _).setCol hbase).setShouldWrap false) rfl rfl
  have hwritten := hmoved.trans (touches_writeTagged hsound ' ' .spacer)
  exact (hwritten.trans (touches_advance _)).damageLine t.pos.row.toNat

theorem touches_applyEmojiVs15 (h : t.Sound False) (u : Unicode) : t.Touches (t.applyEmojiVs15 u) := by
  unfold applyEmojiVs15
  dsimp only
  split_ifs
  · exact .refl t
  · exact .refl t
  · have hbase := touches_modifyCell h (t.baseColumn - 1) (·.setWide .narrow)
    have hsound : (t.mapGrid (·.modifyCell ⟨t.pos.row, t.baseColumn - 1⟩
        (·.setWide .narrow))).Sound False := h.mapGrid (h.grid.modifyCell _ _) rfl rfl
    have hspacer := touches_modifyCell hsound t.baseColumn fun _ => default
    exact (hbase.trans hspacer).trans (.of_raw rfl rfl rfl rfl rfl)

/-! ### What an operation scrolls -/

instance (u : Unicode) (t : Crosswords) : Decidable (Vs16Wraps u t) :=
  inferInstanceAs (Decidable (_ ∧ _ ∧ _ ∧ _ ∧ _))

instance (u : Unicode) (t : Crosswords) (c : Char) : Decidable (Wraps u t c) :=
  match hwidth : u.width c with
  | none => isFalse fun ⟨_, hsome, _⟩ => Option.noConfusion rfl (heq_of_eq (hwidth.symm.trans hsome))
  | some width =>
    decidable_of_iff (if width = 0 then c = '\ufe0f' ∧ Vs16Wraps u t
      else t.mode.lineWrap ∧
        (t.grid.cursor.shouldWrap ∨ width ≠ 1 ∧ t.grid.columns ≤ t.pos.col + 1))
      ⟨fun h => ⟨width, hwidth, h⟩, fun ⟨_, hsome, h⟩ => by
        rwa [Option.some.inj (hwidth.symm.trans hsome)]⟩

/-- A line feed scrolls at the end of the scroll region. -/
def linefeedShift (t : Crosswords) : Shift :=
  if t.pos.row + 1 = t.scrollRegion.stop then .up t.scrollRegion (t.scrollCount 1) else .none

/-- The lines that an operation scrolls. -/
def shift (u : Unicode) (t : Crosswords) : Op → Shift
  | .input c => if Wraps u t c then t.linefeedShift else .none
  | .linefeed | .newline => t.linefeedShift
  | .reverseIndex =>
    if t.pos.row = t.scrollRegion.start then .down t.scrollRegion (t.scrollCount 1) else .none
  | .scrollUp lines => .up t.scrollRegion (t.scrollCount lines)
  | .scrollDown lines => .down t.scrollRegion (t.scrollCount lines)
  | .deleteLines lines =>
    let lines := min (t.grid.lines - t.pos.row.toNat) lines
    if 0 < lines ∧ t.scrollRegion.start ≤ t.pos.row ∧ t.pos.row < t.scrollRegion.stop then
      .up ⟨t.pos.row, t.scrollRegion.stop⟩ (t.scrollCount lines)
    else .none
  | .insertBlankLines lines =>
    if t.scrollRegion.start ≤ t.pos.row ∧ t.pos.row < t.scrollRegion.stop then
      .down ⟨t.pos.row, t.scrollRegion.stop⟩
        (min (t.scrollCount lines) (t.scrollRegion.stop - t.pos.row).toNat)
    else .none
  | _ => .none

/-- Prints, line feeds and scrolls. -/
def Rolling : Op → Prop
  | .input _ | .linefeed | .newline | .reverseIndex | .scrollUp _ | .scrollDown _
  | .deleteLines _ | .insertBlankLines _ => True
  | _ => False

/-- The lines of the scroll region are in order. -/
def RegionOrdered (t : Crosswords) : Prop :=
  0 ≤ t.scrollRegion.start ∧ t.scrollRegion.start ≤ t.scrollRegion.stop

/-- The row of the cursor and the two above it. -/
def Near (t : Crosswords) (line : ℤ) : Prop := t.pos.row - 2 ≤ line ∧ line ≤ t.pos.row

/-- Lines are scrolled, and cells of some lines are written. -/
structure Rolls (t t' : Crosswords) (shift : Shift) (written : ℤ → Prop) : Prop where
  lines : t'.grid.lines = t.grid.lines
  history : t'.grid.historySize = shift.history t.grid
  text : ∀ line, t'.grid.topmostLine ≤ line → line < t'.grid.lines →
    ∀ l, shift.origin line = some l → t.grid.topmostLine ≤ l ∧ l < t.grid.lines ∧
      (¬ written line → ∀ col, t'.grid.cell ⟨line, col⟩ = t.grid.cell ⟨l, col⟩)

variable {s : Shift} {written : ℤ → Prop}

theorem Touches.history (h : t.Touches t') (s : Shift) : s.history t'.grid = s.history t.grid := by
  cases s with
  | up r n =>
    unfold Shift.history
    dsimp only
    rw [h.grid.historySize, h.grid.limit]
  | none => exact h.grid.historySize
  | down r n => exact h.grid.historySize

/-- Cells next to the cursor are written and nothing is scrolled. -/
theorem Touches.rolls (h : t.Touches t') : t.Rolls t' .none t'.Near := by
  refine ⟨h.grid.lines, h.grid.historySize, ?_⟩
  rintro line htop hline l ⟨⟩
  rw [h.grid.topmostLine] at htop
  rw [h.grid.lines] at hline
  refine ⟨htop, hline, fun hfar => h.grid.cells line htop hline ?_ ?_⟩
  · rintro rfl
    exact hfar ⟨by rw [h.row]; omega, by rw [h.row]; omega⟩
  · rintro rfl
    exact hfar ⟨by rw [h.row]; omega, by rw [h.row]⟩

theorem Rolls.touches (h : t.Rolls t' s t'.Near) (h' : t'.Touches t'') : t.Rolls t'' s t''.Near := by
  refine ⟨h'.grid.lines.trans h.lines, h'.grid.historySize.trans h.history, ?_⟩
  intro line htop hline l hl
  rw [h'.grid.topmostLine] at htop
  rw [h'.grid.lines] at hline
  obtain ⟨hltop, hlline, hcells⟩ := h.text line htop hline l hl
  refine ⟨hltop, hlline, fun hfar col => ?_⟩
  unfold Near at hfar hcells
  rw [h'.row] at hfar
  have hcell := h'.grid.cells line htop hline (by omega) (by omega) col
  exact hcell.trans (hcells hfar col)

/-- What is written before a scroll next to the cursor is next to it after the scroll. -/
theorem Touches.then_rolls (h : t.Touches t') (h' : t'.Rolls t'' s fun _ => False)
    (hnear : ∀ line l, s.origin line = some l → l = t'.pos.row - 1 ∨ l = t'.pos.row →
      t''.Near line) : t.Rolls t'' s t''.Near := by
  refine ⟨h'.lines.trans h.grid.lines, h'.history.trans (h.history s), ?_⟩
  intro line htop hline l hl
  obtain ⟨hltop, hlline, hcells⟩ := h'.text line htop hline l hl
  rw [h.grid.topmostLine] at hltop
  rw [h.grid.lines] at hlline
  refine ⟨hltop, hlline, fun hfar col => ?_⟩
  have hcell := h.grid.cells l hltop hlline
    (fun heq => hfar (hnear line l hl (.inl (heq.trans (by rw [h.row])))))
    (fun heq => hfar (hnear line l hl (.inr (heq.trans h.row.symm)))) col
  exact (hcells id col).trans hcell

/-! ### Scrolling -/

theorem rolls_scrollUpRelative (h : t.Sound False) (hregion : t.RegionOrdered) {origin : ℤ}
    (hstart : t.scrollRegion.start ≤ origin) (hstop : origin ≤ t.scrollRegion.stop) (lines : ℕ) :
    t.Rolls (t.scrollUpRelative origin lines)
      (.up ⟨origin, t.scrollRegion.stop⟩ (t.scrollCount lines)) fun _ => False := by
  obtain ⟨hzero, hle⟩ := hregion
  have hgrid := scrollUpRelative_grid t origin lines
  refine ⟨?_, ?_, fun line htop hline l hl => ?_⟩
  · rw [hgrid, Grid.scrollUp_lines]
  · rw [hgrid]
    unfold Shift.history
    dsimp only
    split_ifs with htop
    · exact Grid.historySize_scrollUp_top h.grid.wellFormed htop _
    · exact Grid.historySize_scrollUp_inner htop _
  · rw [hgrid] at htop hline
    rw [Grid.scrollUp_lines] at hline
    have hcount : origin = 0 → (t.scrollCount lines : ℤ) ≤ t.scrollRegion.stop := by
      unfold scrollCount
      omega
    have horigin := Grid.hasOrigin_scrollUp (r := ⟨origin, t.scrollRegion.stop⟩)
      h.grid.wellFormed (hzero.trans hstart) hstop h.region hcount htop hline
    have hl' : Region.originUp ⟨origin, t.scrollRegion.stop⟩ (t.scrollCount lines) line =
      some l := hl
    rw [hl'] at horigin
    rw [hgrid]
    exact ⟨horigin.1, horigin.2.1, fun _ => horigin.2.2⟩

theorem rolls_scrollDownRelative (h : t.Sound False) {origin : ℤ} (hstart : 0 ≤ origin) (lines : ℕ) :
    t.Rolls (t.scrollDownRelative origin lines)
      (.down ⟨origin, t.scrollRegion.stop⟩
        (min (t.scrollCount lines) (t.scrollRegion.stop - origin).toNat)) fun _ => False := by
  have hgrid : (t.scrollDownRelative origin lines).grid =
      t.grid.scrollDown ⟨origin, t.scrollRegion.stop⟩
        (min (t.scrollCount lines) (t.scrollRegion.stop - origin).toNat) := rfl
  refine ⟨?_, ?_, fun line htop hline l hl => ?_⟩
  · rw [hgrid, Grid.scrollDown_lines]
  · rw [hgrid]
    exact Grid.historySize_scrollDown _ _ _
  · rw [hgrid] at htop hline
    rw [Grid.scrollDown_lines] at hline
    have horigin := Grid.hasOrigin_scrollDown (r := ⟨origin, t.scrollRegion.stop⟩)
      h.grid.wellFormed hstart h.region htop hline
    have hl' : Region.originDown ⟨origin, t.scrollRegion.stop⟩
      (min (t.scrollCount lines) (t.scrollRegion.stop - origin).toNat) line = some l := hl
    rw [hl'] at horigin
    rw [hgrid]
    exact ⟨horigin.1, horigin.2.1, fun _ => horigin.2.2⟩

/-- No cell changes. -/
theorem rolls_of_raw (hraw : t'.grid.raw = t.grid.raw) (hlines : t'.grid.lines = t.grid.lines) :
    t.Rolls t' .none fun _ => False := by
  have hsize : t'.grid.historySize = t.grid.historySize := by
    rw [Grid.historySize_eq, Grid.historySize_eq, hraw, hlines]
  refine ⟨hlines, hsize, ?_⟩
  rintro line htop hline l ⟨⟩
  rw [Grid.topmostLine_eq, hsize] at htop
  rw [hlines] at hline
  refine ⟨htop, hline, fun _ col => ?_⟩
  unfold Grid.cell Grid.row
  rw [hraw]

theorem rolls_linefeed (h : t.Sound False) (hregion : t.RegionOrdered) :
    t.Rolls t.linefeed t.linefeedShift fun _ => False := by
  unfold linefeedShift
  by_cases hnext : t.pos.row + 1 = t.scrollRegion.stop
  · have heq : t.linefeed = t.scrollUpRelative t.scrollRegion.start 1 := by
      unfold linefeed
      exact if_pos hnext
    rw [if_pos hnext, heq]
    exact rolls_scrollUpRelative h hregion le_rfl hregion.2 1
  · rw [if_neg hnext]
    obtain ⟨hnext', -⟩ | ⟨-, -, hgrid⟩ | ⟨-, -, heq⟩ := linefeed_cases t
    · exact absurd hnext' hnext
    · refine rolls_of_raw ?_ ?_
      · rw [hgrid]
        rfl
      · rw [hgrid]
        rfl
    · rw [heq]
      exact rolls_of_raw rfl rfl

/-- What is next to the cursor before a line feed is next to it afterwards. -/
theorem near_linefeed (t : Crosswords) (line l : ℤ)
    (hl : t.linefeedShift.origin line = some l) (hnear : l = t.pos.row - 1 ∨ l = t.pos.row) :
    t.linefeed.Near line := by
  obtain ⟨hnext, hgrid⟩ | ⟨hnext, -, hgrid⟩ | ⟨hnext, -, heq⟩ := linefeed_cases t
  · have hrow : t.linefeed.pos.row = t.pos.row := by
      unfold pos
      rw [hgrid, Grid.scrollUp_cursor]
    unfold linefeedShift at hl
    rw [if_pos hnext] at hl
    change t.scrollRegion.originUp _ line = some l at hl
    unfold Region.originUp Region.clamp at hl
    unfold Near
    rw [hrow]
    split_ifs at hl with hfixed hmoved
    · cases hl
      omega
    · have := Option.some.inj hl
      unfold scrollCount at this
      omega
  · have hrow : t.linefeed.pos.row = t.pos.row + 1 := by
      unfold pos
      rw [hgrid]
      rfl
    unfold linefeedShift at hl
    rw [if_neg hnext] at hl
    cases hl
    unfold Near
    omega
  · unfold linefeedShift at hl
    rw [if_neg hnext] at hl
    cases hl
    rw [heq]
    unfold Near
    omega

/-! ### Printing -/

theorem Touches.linefeedShift (h : t.Touches t') : t'.linefeedShift = t.linefeedShift := by
  unfold Crosswords.linefeedShift scrollCount
  rw [h.row, h.region]

theorem rolls_wrapline (h : t.Touches t') (h' : t'.Sound False) (hregion : t'.RegionOrdered)
    (hwrap : t'.mode.lineWrap) : t.Rolls t'.wrapline t.linefeedShift t'.wrapline.Near := by
  have hmarked := h.trans (touches_modifyCursorCell h' (·.setWrapline true))
  have hsound := h'.modifyCursorCell (·.setWrapline true)
  obtain ⟨t₁, heq, hcases⟩ := wrapline_eq hwrap
  have hrolls : t.Rolls t₁ t.linefeedShift t₁.Near := by
    rw [← hmarked.linefeedShift]
    obtain rfl | ⟨hstop, rfl⟩ := hcases
    · exact hmarked.then_rolls (rolls_linefeed hsound hregion) (near_linefeed _)
    · have hnone : (t'.mapGrid (·.modifyCursorCell (·.setWrapline true))).linefeedShift = .none :=
        if_neg (by
          show ¬ t'.pos.row + 1 = t'.scrollRegion.stop
          omega)
      rw [hnone]
      refine hmarked.then_rolls (rolls_of_raw rfl rfl) ?_
      rintro line l ⟨⟩ hnear
      show t'.pos.row + 1 - 2 ≤ line ∧ line ≤ t'.pos.row + 1
      change line = t'.pos.row - 1 ∨ line = t'.pos.row at hnear
      omega
  rw [heq]
  exact hrolls.touches (.of_raw rfl rfl rfl rfl rfl)

theorem rolls_widenOnNextRow (h : t.Sound False) (hregion : t.RegionOrdered)
    (hwrap : t.mode.lineWrap) {baseCol : ℕ} (hbase : baseCol < t.grid.columns) (base : Square) :
    t.Rolls (t.widenOnNextRow baseCol base) t.linefeedShift
      (t.widenOnNextRow baseCol base).Near := by
  have hmoved := h.setColNoWrap hbase false
  have htouch : t.Touches (t.mapGrid fun g => (g.setCol baseCol).setShouldWrap false) :=
    .of_raw rfl rfl rfl rfl rfl
  have hspacer := htouch.trans (touches_writeTagged hmoved ' ' .leadingSpacer)
  have hspacerSound := hmoved.writeTagged ' ' .leadingSpacer
  have hmode : ((t.mapGrid fun g => (g.setCol baseCol).setShouldWrap false).writeTagged ' '
      .leadingSpacer).mode.lineWrap := by
    rw [writeTagged_mode]
    exact hwrap
  have hordered : ((t.mapGrid fun g => (g.setCol baseCol).setShouldWrap false).writeTagged ' '
      .leadingSpacer).RegionOrdered := hregion
  have hrolls := rolls_wrapline hspacer hspacerSound hordered hmode
  have hsound := hspacerSound.wrapline fun hD _ => hD.elim
  unfold widenOnNextRow
  dsimp only
  generalize ((t.mapGrid fun g => (g.setCol baseCol).setShouldWrap false).writeTagged ' '
    .leadingSpacer).wrapline = t₂ at hrolls hsound ⊢
  have hone : 1 < t₂.grid.columns := hsound.grid.columns_ge
  have hbased : t₂.Touches (t₂.mapGrid fun g =>
      (g.modifyCell ⟨t₂.pos.row, 0⟩ fun _ => base.setWide .wide).setCol 1) :=
    (touches_modifyCell hsound 0 _).trans (.of_raw rfl rfl rfl rfl rfl)
  have hbasedSound := hsound.mapGrid
    (f := fun g => (g.modifyCell ⟨t₂.pos.row, 0⟩ fun _ => base.setWide .wide).setCol 1)
    ((hsound.grid.modifyCell _ _).setCol hone) rfl rfl
  have hwritten := hbased.trans (touches_writeTagged hbasedSound ' ' .spacer)
  have hlast (t₃ : Crosswords) (h₃ : t₂.Touches t₃) (a b : ℕ) :
      t.Rolls ((t₃.damageLine a).damageLine b) t.linefeedShift
        ((t₃.damageLine a).damageLine b).Near :=
    hrolls.touches ((h₃.damageLine a).damageLine b)
  refine hlast _ ?_ _ _
  generalize Crosswords.writeTagged _ ' ' .spacer = t₃ at hwritten ⊢
  split_ifs
  · exact hwritten.trans (.of_raw rfl rfl rfl rfl rfl)
  · exact hwritten.trans (.of_raw rfl rfl rfl rfl rfl)

theorem rolls_applyEmojiVs16 (h : t.Sound False) (hregion : t.RegionOrdered) (u : Unicode) :
    t.Rolls (t.applyEmojiVs16 u) (if Vs16Wraps u t then t.linefeedShift else .none)
      (t.applyEmojiVs16 u).Near := by
  unfold applyEmojiVs16
  dsimp only
  by_cases hstart : ¬t.grid.cursor.shouldWrap ∧ t.pos.col = 0
  · have hnot : ¬Vs16Wraps u t :=
      fun hwraps => hwraps.1.elim hstart.1 fun hcol => hcol hstart.2
    rw [if_pos hstart, if_neg hnot]
    exact (Touches.refl t).rolls
  rw [if_neg hstart]
  by_cases hvalid : (t.grid.cell ⟨t.pos.row, t.baseColumn⟩).wide ≠ .narrow ∨
      (!u.vsIsValidBase (t.grid.cell ⟨t.pos.row, t.baseColumn⟩).c '\ufe0f') = true
  · have hnot : ¬Vs16Wraps u t := by
      rintro ⟨-, hnarrow, hbase, -⟩
      rw [hbase] at hvalid
      exact hvalid.elim (fun hwide => hwide hnarrow) Bool.noConfusion
    rw [if_pos hvalid, if_neg hnot]
    exact (Touches.refl t).rolls
  rw [if_neg hvalid]
  by_cases hroom : t.grid.columns ≤ t.baseColumn + 1
  · rw [if_pos hroom]
    by_cases hwrap : t.mode.lineWrap
    · have hwraps : Vs16Wraps u t := by
        rw [not_or, not_not] at hvalid
        refine ⟨?_, hvalid.1, by simpa using hvalid.2, hroom, hwrap⟩
        by_cases hpending : t.grid.cursor.shouldWrap
        · exact .inl hpending
        · exact .inr fun hcol => hstart ⟨hpending, hcol⟩
      rw [if_pos hwraps, if_neg (by simp [hwrap])]
      exact rolls_widenOnNextRow h hregion hwrap h.baseColumn_lt _
    · have hnot : ¬Vs16Wraps u t := fun hwraps => hwrap hwraps.2.2.2.2
      rw [if_neg hnot, if_pos (by simpa using hwrap)]
      exact (Touches.refl t).rolls
  · have hnot : ¬Vs16Wraps u t := fun hwraps => hroom hwraps.2.2.2.1
    rw [if_neg hroom, if_neg hnot]
    exact (touches_widenInPlace h (not_le.mp hroom)).rolls

theorem rolls_inputZeroWidth (h : t.Sound False) (hregion : t.RegionOrdered) (u : Unicode)
    (c : Char) : t.Rolls (t.inputZeroWidth u c)
      (if c = '\ufe0f' ∧ Vs16Wraps u t then t.linefeedShift else .none)
      (t.inputZeroWidth u c).Near := by
  have happlied : t.Rolls (if c = '\ufe0f' then t.applyEmojiVs16 u
      else if c = '\ufe0e' then t.applyEmojiVs15 u else t)
      (if c = '\ufe0f' ∧ Vs16Wraps u t then t.linefeedShift else .none)
      (if c = '\ufe0f' then t.applyEmojiVs16 u
        else if c = '\ufe0e' then t.applyEmojiVs15 u else t).Near := by
    by_cases hvs16 : c = '\ufe0f'
    · rw [if_pos hvs16]
      have hrolls := rolls_applyEmojiVs16 h hregion u
      simpa only [hvs16, true_and] using hrolls
    · rw [if_neg hvs16, if_neg fun hboth : c = '\ufe0f' ∧ Vs16Wraps u t => hvs16 hboth.1]
      split_ifs
      · exact (touches_applyEmojiVs15 h u).rolls
      · exact (Touches.refl t).rolls
  have hsound : (if c = '\ufe0f' then t.applyEmojiVs16 u
      else if c = '\ufe0e' then t.applyEmojiVs15 u else t).Sound False := by
    split_ifs
    · exact h.applyEmojiVs16 u fun hD => hD.elim
    · exact h.applyEmojiVs15 u
    · exact h
  unfold inputZeroWidth
  dsimp only
  generalize (if c = '\ufe0f' then t.applyEmojiVs16 u
    else if c = '\ufe0e' then t.applyEmojiVs15 u else t) = t₁ at happlied hsound ⊢
  exact happlied.touches ((touches_pushZeroWidth hsound _ c).damageLine _)

theorem touches_inputNarrow (h : t.Sound False) (c : Char) :
    t.Touches (t.writeAtCursor c).damageCursor.advance :=
  ((touches_writeAtCursor h c).damageLine _).trans (touches_advance _)

/-- A wide character after the room for it is made. -/
theorem touches_inputFitted (h : t.Sound False) (hcol : t.pos.col + 1 < t.grid.columns) (c : Char) :
    t.Touches ((((t.writeTagged c .wide).mapGrid
      (·.setCol ((t.writeTagged c .wide).pos.col + 1))).writeTagged ' ' .spacer).damageCursor
        ).advance := by
  have hwide := touches_writeTagged h c .wide
  have hsound := h.writeTagged c .wide
  have hfits : (t.writeTagged c .wide).pos.col + 1 < (t.writeTagged c .wide).grid.columns := by
    rwa [writeTagged_columns, writeTagged_pos]
  generalize t.writeTagged c .wide = written at hwide hsound hfits ⊢
  have hmoved : (written.mapGrid (·.setCol (written.pos.col + 1))).Sound False :=
    hsound.setCol hfits
  have hcol : t.Touches (written.mapGrid (·.setCol (written.pos.col + 1))) :=
    hwide.trans (.of_raw rfl rfl rfl rfl rfl)
  have hspacer := hcol.trans (touches_writeTagged hmoved ' ' .spacer)
  exact (hspacer.damageLine _).trans (touches_advance _)

theorem rolls_inputWide (h' : t'.Sound False) (htouch : t.Touches t')
    (hregion : t'.RegionOrdered) (c : Char) :
    t.Rolls (t'.inputWide c)
      (if t'.mode.lineWrap ∧ t'.grid.columns ≤ t'.pos.col + 1 then t.linefeedShift else .none)
      (t'.inputWide c).Near := by
  unfold inputWide
  by_cases hlast : t'.grid.columns ≤ t'.pos.col + 1
  · by_cases hwrap : t'.mode.lineWrap
    · have hspacer := htouch.trans (touches_writeTagged h' ' ' .leadingSpacer)
      have hspacerSound := h'.writeTagged ' ' .leadingSpacer
      have hrolls := rolls_wrapline hspacer hspacerSound hregion (by rwa [writeTagged_mode])
      have hfit : t'.fitWide = (t'.writeTagged ' ' .leadingSpacer).wrapline := if_pos hlast
      have hcol := h'.fitWide_col (.inr hwrap)
      have hsound := h'.fitWide fun hD => hD.elim
      rw [if_neg (by simp [hwrap]), if_pos ⟨hwrap, hlast⟩]
      rw [← hfit] at hrolls
      have hcolumns := fitWide_columns t'
      exact hrolls.touches (touches_inputFitted hsound (hcolumns.symm ▸ hcol) c)
    · rw [if_pos ⟨hlast, by simpa using hwrap⟩, if_neg fun hboth => hwrap hboth.1]
      have hpending : t.Touches (t'.mapGrid (·.setShouldWrap true)) :=
        htouch.trans (.of_raw rfl rfl rfl rfl rfl)
      exact hpending.rolls
  · have hfit : t'.fitWide = t' := if_neg hlast
    rw [if_neg fun hboth => hlast hboth.1, if_neg fun hboth => hlast hboth.2]
    dsimp only
    rw [hfit]
    exact (htouch.trans (touches_inputFitted h' (not_le.mp hlast) c)).rolls

theorem rolls_inputVisible (h : t.Sound False) (hregion : t.RegionOrdered) (c : Char) (width : ℕ) :
    t.Rolls (t.inputVisible c width)
      (if t.mode.lineWrap ∧
          (t.grid.cursor.shouldWrap ∨ width ≠ 1 ∧ t.grid.columns ≤ t.pos.col + 1) then
        t.linefeedShift else .none)
      (t.inputVisible c width).Near := by
  unfold inputVisible
  dsimp only
  by_cases hpending : t.grid.cursor.shouldWrap = true ∧ t.mode.lineWrap
  · -- the wrap comes first, and leaves room for a wide character
    have hrolls := rolls_wrapline (.refl t) h hregion hpending.2
    have hsound := h.wrapline fun hD _ => hD.elim
    have hcol := wrapline_col hpending.2
    have hwraps : t.mode.lineWrap ∧
        (t.grid.cursor.shouldWrap ∨ width ≠ 1 ∧ t.grid.columns ≤ t.pos.col + 1) :=
      ⟨hpending.2, .inl hpending.1⟩
    rw [if_pos hpending.1, if_pos hwraps]
    generalize t.wrapline = t₁ at hrolls hsound hcol ⊢
    have hprepared := (touches_shiftForInsert hsound width).trans
      (touches_markPlaceholder (hsound.shiftForInsert width) c)
    have hpreparedSound := (hsound.shiftForInsert width).markPlaceholder c
    have hcells := (onlyCells_shiftForInsert t₁ width).trans (onlyCells_markPlaceholder _ c)
    have hroom : ¬((t₁.shiftForInsert width).markPlaceholder c).grid.columns ≤
        ((t₁.shiftForInsert width).markPlaceholder c).pos.col + 1 := by
      have := hsound.grid.columns_ge
      rw [hcells.columns, hcells.pos, hcol]
      omega
    generalize (t₁.shiftForInsert width).markPlaceholder c = t₂ at hprepared hpreparedSound hroom ⊢
    split_ifs with hone
    · exact hrolls.touches (hprepared.trans (touches_inputNarrow hpreparedSound c))
    · have hfit : t₂.fitWide = t₂ := if_neg hroom
      unfold inputWide
      rw [if_neg fun hboth => hroom hboth.1]
      dsimp only
      rw [hfit]
      exact hrolls.touches (hprepared.trans (touches_inputFitted hpreparedSound (not_le.mp hroom) c))
  · have hstay : (if t.grid.cursor.shouldWrap then t.wrapline else t) = t := by
      split_ifs with hwrap
      · unfold wrapline
        rw [if_pos (by simpa [hwrap] using hpending)]
      · rfl
    rw [hstay]
    have hprepared := (touches_shiftForInsert h width).trans
      (touches_markPlaceholder (h.shiftForInsert width) c)
    have hpreparedSound := (h.shiftForInsert width).markPlaceholder c
    have hcells := (onlyCells_shiftForInsert t width).trans (onlyCells_markPlaceholder _ c)
    have hcolumns := hcells.columns
    have hpos := hcells.pos
    have hmode := hcells.mode
    have hordered : ((t.shiftForInsert width).markPlaceholder c).RegionOrdered := by
      unfold RegionOrdered
      rwa [hprepared.region]
    generalize (t.shiftForInsert width).markPlaceholder c = t₂
      at hprepared hpreparedSound hcolumns hpos hmode hordered ⊢
    split_ifs with hone hwraps hwraps
    · exact absurd ⟨hwraps.2.resolve_right fun hwide => hwide.1 hone, hwraps.1⟩ hpending
    · exact (hprepared.trans (touches_inputNarrow hpreparedSound c)).rolls
    · have hlast : t₂.mode.lineWrap ∧ t₂.grid.columns ≤ t₂.pos.col + 1 := by
        rw [hmode, hcolumns, hpos]
        refine ⟨hwraps.1, (hwraps.2.resolve_left fun hwrap => hpending ⟨hwrap, hwraps.1⟩).2⟩
      have hrolls := rolls_inputWide hpreparedSound hprepared hordered c
      rwa [if_pos hlast] at hrolls
    · have hlast : ¬(t₂.mode.lineWrap ∧ t₂.grid.columns ≤ t₂.pos.col + 1) := by
        rw [hmode, hcolumns, hpos]
        exact fun hboth => hwraps ⟨hboth.1, .inr ⟨hone, hboth.2⟩⟩
      have hrolls := rolls_inputWide hpreparedSound hprepared hordered c
      rwa [if_neg hlast] at hrolls

theorem wraps_iff {u : Unicode} {c : Char} {width : ℕ} (hwidth : u.width c = some width) :
    Wraps u t c ↔ if width = 0 then c = '\ufe0f' ∧ Vs16Wraps u t
      else t.mode.lineWrap ∧
        (t.grid.cursor.shouldWrap ∨ width ≠ 1 ∧ t.grid.columns ≤ t.pos.col + 1) := by
  constructor
  · rintro ⟨width', hwidth', h⟩
    rwa [Option.some.inj (hwidth.symm.trans hwidth')]
  · exact fun h => ⟨width, hwidth, h⟩

theorem rolls_input (h : t.Sound False) (hregion : t.RegionOrdered) (u : Unicode) (c : Char) :
    t.Rolls (t.input u c) (if Wraps u t c then t.linefeedShift else .none) (t.input u c).Near := by
  unfold input
  rcases hwidth : u.width c with _ | width
  · have hnot : ¬Wraps u t c := by
      rintro ⟨width, hsome, -⟩
      rw [hwidth] at hsome
      cases hsome
    rw [if_neg hnot]
    exact (Touches.refl t).rolls
  · rw [if_congr (wraps_iff hwidth) rfl rfl]
    dsimp only
    by_cases hzero : width = 0
    · simp only [if_pos hzero]
      exact rolls_inputZeroWidth h hregion u c
    · simp only [if_neg hzero]
      exact rolls_inputVisible h hregion c width

/-! ### One operation -/

/-- The lines that an operation may write, besides those that it scrolls. -/
def writes (t' : Crosswords) : Op → ℤ → Prop
  | .input _, line => t'.Near line
  | _, _ => False

theorem rolls_carriageReturn (h : t.Rolls t' s fun _ => False) :
    t.Rolls t'.carriageReturn s fun _ => False := ⟨h.lines, h.history, h.text⟩

/-- What an operation scrolls is where the text that it does not write comes from. -/
theorem rolls_step (h : t.Sound False) (hregion : t.RegionOrdered) (u : Unicode) {op : Op}
    (hop : Rolling op) : t.Rolls (t.step u op) (t.shift u op) ((t.step u op).writes op) := by
  cases op with
  | input c => exact rolls_input h hregion u c
  | linefeed => exact rolls_linefeed h hregion
  | newline =>
    show t.Rolls t.newline t.linefeedShift fun _ => False
    unfold newline
    dsimp only
    split_ifs
    · exact rolls_carriageReturn (rolls_linefeed h hregion)
    · exact rolls_linefeed h hregion
  | reverseIndex =>
    show t.Rolls t.reverseIndex (if t.pos.row = t.scrollRegion.start then _ else _) fun _ => False
    unfold reverseIndex
    split_ifs
    · have hrolls := rolls_scrollDownRelative h hregion.1 1
      have hcount : min (t.scrollCount 1) (t.scrollRegion.stop - t.scrollRegion.start).toNat =
          t.scrollCount 1 := min_eq_left (min_le_right _ _)
      rwa [hcount] at hrolls
    · exact rolls_of_raw rfl rfl
  | scrollUp lines => exact rolls_scrollUpRelative h hregion le_rfl hregion.2 lines
  | scrollDown lines =>
    have hrolls := rolls_scrollDownRelative h hregion.1 lines
    have hcount : min (t.scrollCount lines) (t.scrollRegion.stop - t.scrollRegion.start).toNat =
        t.scrollCount lines := min_eq_left (min_le_right _ _)
    rwa [hcount] at hrolls
  | deleteLines lines =>
    show t.Rolls (t.deleteLines lines) (if _ then _ else _) fun _ => False
    unfold deleteLines
    dsimp only
    split_ifs with hinside
    · exact rolls_scrollUpRelative h hregion hinside.2.1 hinside.2.2.le _
    · exact rolls_of_raw rfl rfl
  | insertBlankLines lines =>
    show t.Rolls (t.insertBlankLines lines) (if _ then _ else _) fun _ => False
    unfold insertBlankLines
    dsimp only
    split_ifs with hinside
    · exact rolls_scrollDownRelative h h.grid.cursor.1 lines
    · exact rolls_of_raw rfl rfl
  | _ => exact hop.elim

theorem Rolling.editsScreen {op : Op} (hop : Rolling op) : EditsScreen op := by
  cases op with
  | input | linefeed | newline | reverseIndex | scrollUp | scrollDown | deleteLines
  | insertBlankLines => trivial
  | _ => exact hop.elim

theorem Rolling.sized {op : Op} (hop : Rolling op) : op.Sized := by
  cases op with
  | resize => exact hop.elim
  | _ => trivial

end Crosswords
end Rio
