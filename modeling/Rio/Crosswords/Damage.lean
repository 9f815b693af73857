import Rio.Crosswords.Frame
import Rio.Lib.Caches

/-! Damage: the rows that an operation changes carry dirty marks, and the terminal is damaged then,
as a whole or in some line. -/

set_option linter.dupNamespace false

namespace Rio

/-- The cells of a row change with a dirty mark only. -/
abbrev Row.Stamped (r r' : Row Square) : Prop := Marks.Marked Row.dirty Row.inner r r'

theorem Row.stamped_modify (r : Row Square) (col : ℕ) (f : Square → Square) :
    r.Stamped (r.modify col f) := .of_dirty rfl

theorem Row.stamped_modifyAll (r : Row Square) (f : List Square → List Square) :
    r.Stamped (r.modifyAll f) := .of_dirty rfl

theorem Row.stamped_fill (r : Row Square) (start stop : ℕ) (c : Square) :
    r.Stamped (r.fill start stop c) := .of_dirty rfl

theorem Row.stamped_fillFrom (r : Row Square) (start : ℕ) (c : Square) :
    r.Stamped (r.fillFrom start c) := .of_dirty rfl

theorem Row.stamped_reset (r : Row Square) (template : Square) : r.Stamped (r.reset template) :=
  .of_dirty rfl

/-- A write to one line reaches a row or does not. -/
theorem Storage.row_modify_cases {α : Type} (s : Storage α) (a l : ℤ) (f : Row α → Row α) :
    (s.modify a f).row l = s.row l ∨ (s.modify a f).row l = f (s.row l) := by
  have hindex : (s.modify a f).computeIndex l = s.computeIndex l := by
    unfold computeIndex
    rw [modify_length]
    rfl
  have hrow : (s.modify a f).row l =
      (((if s.computeIndex a = s.computeIndex l then f else id) <$>
        s.inner[s.computeIndex l]?).getD default) := by
    unfold row
    rw [hindex, List.getD_eq_getElem?_getD]
    unfold modify
    rw [List.getElem?_modify]
    split_ifs <;> rfl
  rw [hrow]
  unfold row
  rw [List.getD_eq_getElem?_getD]
  rcases s.inner[s.computeIndex l]? with _ | r
  · left
    rfl
  · split_ifs
    · right
      rfl
    · left
      rfl

namespace TermDamageState

/-- Damage is added, none is taken away. -/
structure Grows (d d' : TermDamageState) : Prop where
  length : d'.lines.length = d.lines.length
  full : d.full = true → d'.full = true
  lines : true ∈ d.lines → true ∈ d'.lines

theorem Grows.refl (d : TermDamageState) : d.Grows d := ⟨rfl, id, id⟩

theorem Grows.trans {d d' d'' : TermDamageState} (h : d.Grows d') (h' : d'.Grows d'') :
    d.Grows d'' :=
  ⟨h'.length.trans h.length, fun hd => h'.full (h.full hd), fun hd => h'.lines (h.lines hd)⟩

theorem grows_damageLine (d : TermDamageState) (line : ℕ) : d.Grows (d.damageLine line) := by
  refine ⟨?_, id, fun h => ?_⟩
  · unfold damageLine
    rw [List.length_set]
  · obtain ⟨i, hi, htrue⟩ := List.mem_iff_getElem.mp h
    unfold damageLine
    refine List.mem_iff_getElem.mpr ⟨i, by simpa using hi, ?_⟩
    rw [List.getElem_set]
    split_ifs
    · rfl
    · exact htrue

theorem mem_damageLine {d : TermDamageState} {line : ℕ} (hline : line < d.lines.length) :
    true ∈ (d.damageLine line).lines :=
  List.mem_set hline true

end TermDamageState

namespace Grid

/-- A display that is scrolled back has a history to show. -/
def Anchored (g : Grid Square) : Prop := g.maxScrollLimit = 0 → g.displayOffset = 0

variable {g g' : Grid Square}

theorem Anchored.sound (h : g.Anchored) (hsound : g.Sound False) :
    g.Sound (g.maxScrollLimit = 0) := by
  refine ⟨hsound.wellFormed, hsound.lines_pos, hsound.columns_ge, hsound.cursor,
    hsound.savedCursor, fun hlimit => ?_⟩
  rw [h hlimit]
  exact Nat.zero_le _

theorem anchored_of_sound (hlimit : g'.maxScrollLimit = g.maxScrollLimit)
    (h : g'.Sound (g.maxScrollLimit = 0)) : g'.Anchored := by
  intro hzero
  have hdisplay := h.display (hlimit ▸ hzero)
  have hhistory := h.wellFormed.limit
  omega

theorem decreaseScrollLimit_maxScrollLimit (g : Grid Square) (count : ℕ) :
    (g.decreaseScrollLimit count).maxScrollLimit = g.maxScrollLimit := by
  unfold decreaseScrollLimit
  dsimp only
  split_ifs <;> rfl

theorem growLines_maxScrollLimit (g : Grid Square) (target : ℕ) :
    (g.growLines target).maxScrollLimit = g.maxScrollLimit := by
  unfold growLines
  dsimp only
  rw [decreaseScrollLimit_maxScrollLimit]
  dsimp only
  split_ifs
  · exact scrollUp_maxScrollLimit _ _ _
  · rfl

theorem shrinkLines_maxScrollLimit (g : Grid Square) (target : ℕ) :
    (g.shrinkLines target).maxScrollLimit = g.maxScrollLimit := by
  unfold shrinkLines
  dsimp only
  split_ifs
  · exact scrollUp_maxScrollLimit _ _ _
  · rfl

theorem resize_maxScrollLimit (g : Grid Square) (reflow : Bool) (lines columns : ℕ) :
    (g.resize reflow lines columns).maxScrollLimit = g.maxScrollLimit := by
  have hlines (g : Grid Square) :
      (if g.lines < lines then g.growLines lines
        else if lines < g.lines then g.shrinkLines lines
        else g).maxScrollLimit = g.maxScrollLimit := by
    split_ifs
    · exact growLines_maxScrollLimit g lines
    · exact shrinkLines_maxScrollLimit g lines
    · rfl
  have hcolumns (g : Grid Square) :
      (if g.columns < columns then g.growColumns reflow columns
        else if columns < g.columns then g.shrinkColumns reflow columns
        else g).maxScrollLimit = g.maxScrollLimit := by
    split_ifs <;> rfl
  exact (hcolumns _).trans (hlines _)

theorem Anchored.resize (h : g.Anchored) (hsound : g.Sound False) (reflow : Bool)
    {lines columns : ℕ} (hlines : 1 ≤ lines) (hcolumns : 2 ≤ columns) :
    (g.resize reflow lines columns).Anchored :=
  anchored_of_sound (resize_maxScrollLimit g reflow lines columns)
    ((h.sound hsound).resize reflow hlines hcolumns)

end Grid

namespace Crosswords

/-- Some line is damaged. -/
def Hinted (t : Crosswords) : Prop := true ∈ t.damage.lines

/-- The rows of the screen change with dirty marks only, and no damage is taken away. A terminal
that is damaged as a whole needs no marks. -/
structure Alters (t t' : Crosswords) : Prop where
  lines : t'.grid.lines = t.grid.lines
  limit : t'.grid.maxScrollLimit = t.grid.maxScrollLimit
  offset : t.grid.Anchored → (t'.grid.displayOffset = 0 ↔ t.grid.displayOffset = 0)
  grows : t.damage.Grows t'.damage
  rows : t'.damage.full = true ∨
    ∀ l : ℤ, 0 ≤ l → l < t.grid.lines → (t.grid.row l).Stamped (t'.grid.row l)

/-- The rows of the screen change with damage only. -/
structure Refreshes (t t' : Crosswords) : Prop where
  alters : t.Alters t'
  shown : t'.damage.full = true ∨ t'.Hinted ∨
    ∀ l : ℤ, 0 ≤ l → l < t.grid.lines → (t'.grid.row l).inner = (t.grid.row l).inner

variable {t t' t'' : Crosswords}

namespace Alters

theorem anchored (h : t.Alters t') (ht : t.grid.Anchored) : t'.grid.Anchored := by
  intro hlimit
  rw [h.offset ht]
  exact ht (h.limit ▸ hlimit)

/-- The active screen keeps its rows, and the display stays where it is. -/
theorem still (hraw : t'.grid.raw = t.grid.raw) (hlines : t'.grid.lines = t.grid.lines)
    (hlimit : t'.grid.maxScrollLimit = t.grid.maxScrollLimit)
    (hoffset : t'.grid.displayOffset = t.grid.displayOffset) (hgrows : t.damage.Grows t'.damage) :
    t.Alters t' := by
  refine ⟨hlines, hlimit, fun _ => by rw [hoffset], hgrows, .inr fun l _ _ => ?_⟩
  unfold Grid.row
  rw [hraw]
  exact .refl _

theorem refl (t : Crosswords) : t.Alters t := still rfl rfl rfl rfl (.refl _)

theorem trans (h : t.Alters t') (h' : t'.Alters t'') : t.Alters t'' := by
  refine ⟨h'.lines.trans h.lines, h'.limit.trans h.limit, fun ht => ?_, h.grows.trans h'.grows, ?_⟩
  · exact (h'.offset (h.anchored ht)).trans (h.offset ht)
  · rcases h'.rows with hfull | hrows'
    · exact .inl hfull
    · rcases h.rows with hfull | hrows
      · exact .inl (h'.grows.full hfull)
      · exact .inr fun l hl hl' => (hrows l hl hl').trans (hrows' l hl (h.lines ▸ hl'))

theorem iterate {f : Crosswords → Crosswords} (hf : ∀ t : Crosswords, t.Alters (f t)) :
    ∀ (count : ℕ) (t : Crosswords), t.Alters (f^[count] t)
  | 0, t => refl t
  | count + 1, t => by
    rw [Function.iterate_succ_apply]
    exact (hf t).trans (iterate hf count (f t))

theorem foldl {β : Type} {f : Crosswords → β → Crosswords}
    (hf : ∀ (t : Crosswords) b, t.Alters (f t b)) :
    ∀ (bs : List β) (t : Crosswords), t.Alters (bs.foldl f t)
  | [], t => refl t
  | b :: bs, t => (hf t b).trans (foldl hf bs (f t b))

theorem mapGrid_foldl {β : Type} {f : Grid Square → β → Grid Square}
    (hf : ∀ (t : Crosswords) b, t.Alters (t.mapGrid (f · b))) (bs : List β) (t : Crosswords) :
    t.Alters (t.mapGrid fun g => bs.foldl f g) := by
  induction bs generalizing t with
  | nil => exact refl t
  | cons b bs ih => exact (hf t b).trans (ih (t.mapGrid (f · b)))

end Alters

/-- A write to the rows of a line. -/
theorem alters_modify (line : ℤ) {f : Row Square → Row Square}
    (hf : ∀ r : Row Square, r.Stamped (f r))
    (hraw : t'.grid.raw = t.grid.raw.modify line f) (hlines : t'.grid.lines = t.grid.lines)
    (hlimit : t'.grid.maxScrollLimit = t.grid.maxScrollLimit)
    (hoffset : t'.grid.displayOffset = t.grid.displayOffset) (hgrows : t.damage.Grows t'.damage) :
    t.Alters t' := by
  refine ⟨hlines, hlimit, fun _ => by rw [hoffset], hgrows, .inr fun l _ _ => ?_⟩
  unfold Grid.row
  rw [hraw]
  rcases Storage.row_modify_cases t.grid.raw line l f with h | h
  · rw [h]
    exact .refl _
  · rw [h]
    exact hf _

theorem alters_modifyRow (t : Crosswords) (line : ℤ) {f : Row Square → Row Square}
    (hf : ∀ r : Row Square, r.Stamped (f r)) : t.Alters (t.mapGrid (·.modifyRow line f)) :=
  alters_modify line hf rfl rfl rfl rfl (.refl _)

theorem alters_modifyCell (t : Crosswords) (p : Pos) (f : Square → Square) :
    t.Alters (t.mapGrid (·.modifyCell p f)) :=
  alters_modifyRow t p.row fun r => r.stamped_modify p.col f

/-- A write to a cell and to the table of extras. -/
theorem alters_cell {p : Pos} {f : Square → Square} {extrasTable : ExtrasTable}
    (hgrid : t'.grid = { t.grid.modifyCell p f with extrasTable := extrasTable })
    (hdamage : t'.damage = t.damage) : t.Alters t' := by
  refine alters_modify p.row (fun r => r.stamped_modify p.col f) ?_ ?_ ?_ ?_ ?_
  · rw [hgrid]
    rfl
  · rw [hgrid]
    rfl
  · rw [hgrid]
    rfl
  · rw [hgrid]
    rfl
  · rw [hdamage]
    exact .refl _

theorem alters_modifyCursorCell (t : Crosswords) (f : Square → Square) :
    t.Alters (t.mapGrid (·.modifyCursorCell f)) :=
  alters_modify t.pos.row (fun r => r.stamped_modify t.pos.col f) rfl rfl rfl rfl (.refl _)

theorem alters_resetRegion (t : Crosswords) (r : Grid Square → Region) :
    t.Alters (t.mapGrid fun g => g.resetRegion (r g)) := by
  have hlines (template : Square) : ∀ (lines : List ℤ) (t : Crosswords), t.Alters
      (t.mapGrid fun g => { g with raw := g.raw.resetLines template lines }) := by
    intro lines
    induction lines with
    | nil => exact fun t => .refl t
    | cons line lines ih =>
      intro t
      have hline := alters_modifyRow t line fun r => r.stamped_reset template
      exact hline.trans (ih _)
  exact hlines _ _ t

theorem alters_damageLine (t : Crosswords) (line : ℕ) : t.Alters (t.damageLine line) :=
  .still rfl rfl rfl rfl (TermDamageState.grows_damageLine _ _)

theorem alters_damageLines (t : Crosswords) (lines : List ℤ) :
    t.Alters (t.damageLines lines) := by
  unfold damageLines
  exact .foldl (fun t (line : ℤ) => alters_damageLine t line.toNat) lines t

theorem alters_damageCursor (t : Crosswords) : t.Alters t.damageCursor := alters_damageLine t _

/-! ### Damage that is there -/

namespace Refreshes

theorem of_full (h : t.Alters t') (hfull : t'.damage.full = true) : t.Refreshes t' :=
  ⟨h, .inl hfull⟩

theorem of_hinted (h : t.Alters t') (hhinted : t'.Hinted) : t.Refreshes t' :=
  ⟨h, .inr (.inl hhinted)⟩

theorem still (hraw : t'.grid.raw = t.grid.raw) (hlines : t'.grid.lines = t.grid.lines)
    (hlimit : t'.grid.maxScrollLimit = t.grid.maxScrollLimit)
    (hoffset : t'.grid.displayOffset = t.grid.displayOffset) (hgrows : t.damage.Grows t'.damage) :
    t.Refreshes t' := by
  refine ⟨.still hraw hlines hlimit hoffset hgrows, .inr (.inr fun l _ _ => ?_)⟩
  unfold Grid.row
  rw [hraw]

theorem refl (t : Crosswords) : t.Refreshes t := still rfl rfl rfl rfl (.refl _)

theorem trans (h : t.Refreshes t') (h' : t'.Refreshes t'') : t.Refreshes t'' := by
  refine ⟨h.alters.trans h'.alters, ?_⟩
  rcases h'.shown with hfull | hhinted | hcells'
  · exact .inl hfull
  · exact .inr (.inl hhinted)
  · rcases h.shown with hfull | hhinted | hcells
    · exact .inl (h'.alters.grows.full hfull)
    · exact .inr (.inl (h'.alters.grows.lines hhinted))
    · exact .inr (.inr fun l hl hl' =>
        (hcells' l hl (h.alters.lines ▸ hl')).trans (hcells l hl hl'))

end Refreshes

/-- What an operation finds: cursors on the screens, an ordered scroll region, and a damage mark
for each line. -/
structure Live (t : Crosswords) : Prop where
  sound : t.Sound False
  start : 0 ≤ t.scrollRegion.start
  stop : t.scrollRegion.start ≤ t.scrollRegion.stop
  marks : t.damage.lines.length = t.grid.lines
  anchored : t.grid.Anchored
  inactive : t.inactiveGrid.Anchored

theorem Live.row_lt (h : t.Live) : t.pos.row < t.grid.lines := h.sound.grid.cursor.2.1

theorem Live.lines_pos (h : t.Live) : 1 ≤ t.grid.lines := h.sound.grid.lines_pos

theorem Live.mk' (h : t.Live) (hsound : t'.Sound False) (hframe : t.Frame t')
    (halters : t.Alters t') : t'.Live := by
  refine ⟨hsound, ?_, ?_, ?_, halters.anchored h.anchored, ?_⟩
  · rw [hframe.scrollRegion]
    exact h.start
  · rw [hframe.scrollRegion]
    exact h.stop
  · rw [halters.grows.length, halters.lines]
    exact h.marks
  · rw [hframe.inactiveGrid]
    exact h.inactive

/-- A line of the screen is damaged at the end. -/
theorem Alters.refreshes_damageLine (h : t.Alters t')
    (hmarks : t.damage.lines.length = t.grid.lines) {line : ℕ} (hline : line < t.grid.lines) :
    t.Refreshes (t'.damageLine line) := by
  refine .of_hinted (h.trans (alters_damageLine t' line)) ?_
  refine TermDamageState.mem_damageLine ?_
  rw [h.grows.length, hmarks]
  exact hline

/-- The line of the cursor is damaged at the end. -/
theorem Alters.refreshes_damageCursor (h : t.Alters t')
    (hmarks : t.damage.lines.length = t.grid.lines) (hlines : 1 ≤ t.grid.lines)
    (hrow : t'.pos.row < t.grid.lines) : t.Refreshes t'.damageCursor :=
  h.refreshes_damageLine hmarks (by omega)

theorem hinted_damageLines {lines : List ℤ} {line : ℤ} (hmem : line ∈ lines)
    (hline : line.toNat < t.damage.lines.length) : (t.damageLines lines).Hinted := by
  obtain ⟨before, after, rfl⟩ := List.append_of_mem hmem
  have hsplit : t.damageLines (before ++ line :: after) =
      ((t.damageLines before).damageLine line.toNat).damageLines after := by
    unfold damageLines
    rw [List.foldl_append, List.foldl_cons]
  rw [hsplit]
  refine (alters_damageLines _ after).grows.lines (TermDamageState.mem_damageLine ?_)
  rwa [(alters_damageLines t before).grows.length]

/-! ### Scrolling -/

theorem stamped_scrollUp {g : Grid Square} (hg : g.WellFormed) {r : Region} (hstart : 0 ≤ r.start)
    (hstop : r.stop ≤ g.lines) {n : ℕ} (hn : r.start = 0 → n ≤ r.stop) {l : ℤ} (hl : 0 ≤ l)
    (hl' : l < g.lines) : (g.row l).Stamped ((g.scrollUp r n).row l) := by
  by_cases hzero : r.start = 0
  · rw [Grid.row_scrollUp_top hg hzero hstop (hn hzero) (by omega) hl']
    split_ifs
    · exact .refl _
    · omega
    · exact .of_dirty rfl
    · exact .of_dirty rfl
  · by_cases hregion : r.start < r.stop
    · rw [Grid.row_scrollUp_inner hg (by omega) hregion hstop rfl (by omega) hl']
      split_ifs
      · exact .refl _
      · exact .of_dirty rfl
      · exact .of_dirty rfl
    · unfold Grid.row
      rw [Grid.scrollUp_raw_reset ⟨by omega, hzero⟩, lineRange_empty (by omega)]
      exact .refl _

/-- Scrolling an empty region leaves the screen as it is. -/
theorem row_scrollUp_empty {g : Grid Square} (hg : g.WellFormed) {r : Region}
    (hempty : r.stop ≤ r.start) (hstop : r.stop ≤ g.lines) {n : ℕ} (hn : r.start = 0 → n ≤ r.stop)
    {l : ℤ} (hl : 0 ≤ l) (hl' : l < g.lines) : (g.scrollUp r n).row l = g.row l := by
  by_cases hzero : r.start = 0
  · rw [Grid.row_scrollUp_top hg hzero hstop (hn hzero) (by omega) hl', if_pos (by omega)]
  · unfold Grid.row
    rw [Grid.scrollUp_raw_reset ⟨by omega, hzero⟩, lineRange_empty (by omega)]
    rfl

theorem displayOffset_scrollUp_eq_zero {g : Grid Square} (hg : g.Anchored) (r : Region) (n : ℕ) :
    (g.scrollUp r n).displayOffset = 0 ↔ g.displayOffset = 0 := by
  unfold Grid.Anchored at hg
  rw [Grid.displayOffset_scrollUp]
  split_ifs <;> omega

theorem Live.refreshes_scrollUpRelative (h : t.Live) {origin : ℤ}
    (horigin : t.scrollRegion.start ≤ origin) (lines : ℕ) :
    t.Refreshes (t.scrollUpRelative origin lines) := by
  have hstart := h.start
  have hstop := h.stop
  have hwf := h.sound.grid.wellFormed
  have hcount : (t.scrollCount lines : ℤ) ≤ t.scrollRegion.stop - t.scrollRegion.start := by
    unfold scrollCount
    omega
  have hgrid := scrollUpRelative_grid t origin lines
  obtain ⟨t₁, heq, hdamage⟩ : ∃ t₁ : Crosswords, t.scrollUpRelative origin lines =
      t₁.damageLines (lineRange origin t.scrollRegion.stop) ∧ t₁.damage = t.damage :=
    ⟨_, rfl, rfl⟩
  have hgrows : t.damage.Grows (t.scrollUpRelative origin lines).damage := by
    rw [heq, ← hdamage]
    exact (alters_damageLines _ _).grows
  obtain ⟨r, hr, hregion⟩ : ∃ r : Region, r = ⟨origin, t.scrollRegion.stop⟩ ∧
      r.stop ≤ t.grid.lines := ⟨_, rfl, h.sound.region⟩
  have hrstart : 0 ≤ r.start := by
    rw [hr]
    exact h.start.trans horigin
  have hn : r.start = 0 → (t.scrollCount lines : ℤ) ≤ r.stop := by
    rw [hr]
    dsimp only
    omega
  rw [← hr] at hgrid
  have halters : t.Alters (t.scrollUpRelative origin lines) := by
    refine ⟨?_, ?_, fun ht => ?_, hgrows, .inr fun l hl hl' => ?_⟩
    · rw [hgrid, Grid.scrollUp_lines]
    · rw [hgrid, Grid.scrollUp_maxScrollLimit]
    · rw [hgrid]
      exact displayOffset_scrollUp_eq_zero ht _ _
    · rw [hgrid]
      exact stamped_scrollUp hwf hrstart hregion hn hl hl'
  refine ⟨halters, .inr ?_⟩
  by_cases hempty : r.stop ≤ r.start
  · right
    intro l hl hl'
    rw [hgrid, row_scrollUp_empty hwf hempty hregion hn hl hl']
  · left
    rw [hr] at hempty hregion
    rw [heq]
    refine hinted_damageLines (mem_lineRange.mpr ⟨le_refl origin, not_le.mp hempty⟩) ?_
    rw [hdamage, h.marks]
    dsimp only at hempty hregion
    omega

theorem refreshes_scrollDownRelative (t : Crosswords) (origin : ℤ) (lines : ℕ) :
    t.Refreshes (t.scrollDownRelative origin lines) := by
  refine .of_full ⟨?_, ?_, fun _ => ?_, ⟨rfl, fun _ => rfl, id⟩, .inl rfl⟩ rfl
  · exact Grid.scrollDown_lines _ _ _
  · exact Grid.scrollDown_maxScrollLimit _ _ _
  · show (t.grid.scrollDown _ _).displayOffset = 0 ↔ _
    rw [Grid.scrollDown_eq]

theorem Live.refreshes_linefeed (h : t.Live) : t.Refreshes t.linefeed := by
  unfold linefeed
  dsimp only
  split_ifs with hnext hlast
  · exact h.refreshes_scrollUpRelative le_rfl 1
  · exact .still rfl rfl rfl rfl ((TermDamageState.grows_damageLine _ _).trans
      (TermDamageState.grows_damageLine _ _))
  · exact .refl t

theorem Live.linefeed (h : t.Live) : t.linefeed.Live :=
  h.mk' (h.sound.linefeed (k := 0) False.elim) (frame_linefeed t) h.refreshes_linefeed.alters

theorem Live.refreshes_linefeeds : ∀ (k : ℕ) {t : Crosswords}, t.Live →
    t.Refreshes (Crosswords.linefeed^[k] t) ∧ (Crosswords.linefeed^[k] t).Live
  | 0, t, h => ⟨.refl t, h⟩
  | k + 1, t, h => by
    obtain ⟨hrefreshes, hlive⟩ := Live.refreshes_linefeeds k h.linefeed
    rw [Function.iterate_succ_apply]
    exact ⟨h.refreshes_linefeed.trans hrefreshes, hlive⟩

/-- Moving the cursor, with some lines damaged. -/
theorem Live.refreshes_wrapline (h : t.Live) : t.Refreshes t.wrapline := by
  by_cases hwrap : t.mode.lineWrap
  · have hsound := h.sound.wrapline (D := False) False.elim
    obtain ⟨t₁, heq, hcases⟩ := wrapline_eq hwrap
    have hmarked := alters_modifyCursorCell t (·.setWrapline true)
    have hlive := h.mk' (h.sound.modifyCursorCell (·.setWrapline true)) (.mapGrid t rfl rfl) hmarked
    have halters : t.Alters t₁ := by
      rcases hcases with rfl | ⟨-, rfl⟩
      · exact hmarked.trans hlive.refreshes_linefeed.alters
      · exact hmarked.trans (.still rfl rfl rfl rfl (TermDamageState.grows_damageLine _ _))
    rw [heq] at hsound ⊢
    obtain ⟨t₂, ht₂, hmoved⟩ : ∃ t₂, t₂ = (t₁.mapGrid fun g => (g.setCol 0).setShouldWrap false) ∧
        t₁.Alters t₂ := ⟨_, rfl, .still rfl rfl rfl rfl (.refl _)⟩
    rw [← ht₂] at hsound ⊢
    have hmoved' := halters.trans hmoved
    have hrow : t₂.pos.row < t₂.grid.lines := hsound.grid.cursor.2.1
    exact hmoved'.refreshes_damageCursor h.marks h.lines_pos (hmoved'.lines ▸ hrow)
  · unfold wrapline
    rw [if_pos (by simpa using hwrap)]
    exact .refl t

theorem Live.wrapline (h : t.Live) : t.wrapline.Live :=
  h.mk' (h.sound.wrapline (D := False) False.elim) (frame_wrapline t) h.refreshes_wrapline.alters

/-! ### Printing -/

theorem alters_clearWide (t : Crosswords) : t.Alters (t.mapGrid clearWide) := by
  unfold mapGrid clearWide
  dsimp only
  split_ifs
  · exact (alters_modifyCell t _ _).trans (alters_modifyCell _ _ _)
  · exact alters_modifyCell t _ _
  · exact (alters_modifyCell t _ _).trans (alters_modifyCell _ _ _)
  · exact alters_modifyCell t _ _
  · exact alters_modifyCell t _ _
  · exact .refl t
  · exact .refl t

theorem alters_writeAtCursor (t : Crosswords) (c : Char) : t.Alters (t.writeAtCursor c) := by
  obtain ⟨cell, heq⟩ : ∃ cell : Square, t.writeAtCursor c =
      t.mapGrid fun g => (clearWide g).modifyCursorCell fun _ => cell := ⟨_, rfl⟩
  rw [heq]
  exact (alters_clearWide t).trans (alters_modifyCursorCell (t.mapGrid clearWide) _)

theorem alters_writeTagged (t : Crosswords) (c : Char) (tag : Wide) :
    t.Alters (t.writeTagged c tag) :=
  (alters_writeAtCursor t c).trans (alters_modifyCursorCell _ _)

theorem refreshes_advance (t : Crosswords) : t.Refreshes t.advance := by
  unfold advance
  split_ifs <;> exact .still rfl rfl rfl rfl (.refl _)

theorem Live.writeTagged (h : t.Live) (c : Char) (tag : Wide) : (t.writeTagged c tag).Live :=
  h.mk' (h.sound.writeTagged c tag) (frame_writeTagged t c tag) (alters_writeTagged t c tag)

theorem Live.refreshes_widenOnNextRow (h : t.Live) {baseCol : ℕ} (hbase : baseCol < t.grid.columns)
    (base : Square) : t.Refreshes (t.widenOnNextRow baseCol base) := by
  have hrow0 : 0 ≤ t.pos.row := h.sound.grid.cursor.1
  have hrow1 : t.pos.row < t.grid.lines := h.sound.grid.cursor.2.1
  have hmoved : t.Alters (t.mapGrid fun g => (g.setCol baseCol).setShouldWrap false) :=
    .still rfl rfl rfl rfl (.refl _)
  have hlive := h.mk' (h.sound.setColNoWrap hbase false) (.mapGrid t rfl rfl) hmoved
  unfold widenOnNextRow
  dsimp only
  generalize (t.mapGrid fun g => (g.setCol baseCol).setShouldWrap false) = t₁ at hmoved hlive ⊢
  have hwrapped := hmoved.trans ((alters_writeTagged t₁ ' ' .leadingSpacer).trans
    (hlive.writeTagged ' ' .leadingSpacer).refreshes_wrapline.alters)
  generalize (t₁.writeTagged ' ' .leadingSpacer).wrapline = t₂ at hwrapped ⊢
  have hplaced : t₂.Alters (t₂.mapGrid fun g =>
      (g.modifyCell ⟨t₂.pos.row, 0⟩ fun _ => base.setWide .wide).setCol 1) :=
    (alters_modifyCell t₂ ⟨t₂.pos.row, 0⟩ _).trans (.still rfl rfl rfl rfl (.refl _))
  have hwritten := (hwrapped.trans hplaced).trans (alters_writeTagged _ ' ' .spacer)
  generalize ((t₂.mapGrid fun g =>
    (g.modifyCell ⟨t₂.pos.row, 0⟩ fun _ => base.setWide .wide).setCol 1).writeTagged ' ' .spacer) =
      t₃ at hwritten ⊢
  have hended : t.Alters
      (if 2 < t.grid.columns then t₃.mapGrid (·.setCol 2)
        else t₃.mapGrid (·.setShouldWrap true)) := by
    split_ifs <;> exact hwritten.trans (.still rfl rfl rfl rfl (.refl _))
  have hline : t.pos.row.toNat < t.grid.lines := by omega
  exact (hended.refreshes_damageLine h.marks hline).trans
    (.still rfl rfl rfl rfl (TermDamageState.grows_damageLine _ _))

theorem Live.refreshes_widenInPlace (h : t.Live) (baseCol : ℕ) :
    t.Refreshes (t.widenInPlace baseCol) := by
  have hrow0 : 0 ≤ t.pos.row := h.sound.grid.cursor.1
  have hrow1 : t.pos.row < t.grid.lines := h.sound.grid.cursor.2.1
  have hplaced : t.Alters (t.mapGrid fun g =>
      ((g.modifyCell ⟨t.pos.row, baseCol⟩ (·.setWide .wide)).setCol (baseCol + 1)).setShouldWrap
        false) :=
    (alters_modifyCell t ⟨t.pos.row, baseCol⟩ _).trans (.still rfl rfl rfl rfl (.refl _))
  have hwritten := hplaced.trans (alters_writeTagged _ ' ' .spacer)
  exact (hwritten.trans (refreshes_advance _).alters).refreshes_damageLine h.marks (by omega)

theorem Live.refreshes_applyEmojiVs16 (h : t.Live) (u : Unicode) :
    t.Refreshes (t.applyEmojiVs16 u) := by
  unfold applyEmojiVs16
  dsimp only
  split_ifs
  · exact .refl t
  · exact .refl t
  · exact .refl t
  · exact h.refreshes_widenOnNextRow h.sound.baseColumn_lt _
  · exact h.refreshes_widenInPlace _

theorem Live.refreshes_applyEmojiVs15 (h : t.Live) (u : Unicode) :
    t.Refreshes (t.applyEmojiVs15 u) := by
  have hrow0 : 0 ≤ t.pos.row := h.sound.grid.cursor.1
  have hrow1 : t.pos.row < t.grid.lines := h.sound.grid.cursor.2.1
  unfold applyEmojiVs15
  dsimp only
  split_ifs
  · exact .refl t
  · exact .refl t
  · have hcleared := (alters_modifyCell t ⟨t.pos.row, t.baseColumn - 1⟩ (·.setWide .narrow)).trans
      (alters_modifyCell _ ⟨t.pos.row, t.baseColumn⟩ fun _ => default)
    have hmoved : t.Alters ((t.mapGrid fun g =>
        ((g.modifyCell ⟨t.pos.row, t.baseColumn - 1⟩ (·.setWide .narrow)).modifyCell
          ⟨t.pos.row, t.baseColumn⟩ fun _ => default).setCol t.baseColumn).mapGrid
            (·.setShouldWrap false)) :=
      hcleared.trans (.still rfl rfl rfl rfl (.refl _))
    exact hmoved.refreshes_damageLine h.marks (by omega)

theorem Live.refreshes_inputZeroWidth (h : t.Live) (u : Unicode) (c : Char) :
    t.Refreshes (t.inputZeroWidth u c) := by
  unfold inputZeroWidth
  dsimp only
  obtain ⟨t₁, ht₁, happlied, hsound⟩ : ∃ t₁, t₁ = (if c = '\ufe0f' then t.applyEmojiVs16 u
      else if c = '\ufe0e' then t.applyEmojiVs15 u else t) ∧ t.Alters t₁ ∧ t₁.Sound False := by
    refine ⟨_, rfl, ?_⟩
    split_ifs
    · exact ⟨(h.refreshes_applyEmojiVs16 u).alters, h.sound.applyEmojiVs16 u False.elim⟩
    · exact ⟨(h.refreshes_applyEmojiVs15 u).alters, h.sound.applyEmojiVs15 u⟩
    · exact ⟨.refl t, h.sound⟩
  rw [← ht₁]
  have hrow0 : 0 ≤ t₁.pos.row := hsound.grid.cursor.1
  have hrow1 : t₁.pos.row < t₁.grid.lines := hsound.grid.cursor.2.1
  have hlines := happlied.lines
  generalize (⟨t₁.pos.row, _⟩ : Pos) = p
  have hpushed : t₁.Alters (t₁.mapGrid (pushZeroWidth · p c)) := by
    obtain ⟨f, extrasTable, heq⟩ := pushZeroWidth_eq t₁.grid p c
    exact alters_cell heq rfl
  exact (happlied.trans hpushed).refreshes_damageLine h.marks (by omega)

theorem alters_shiftForInsert (t : Crosswords) (width : ℕ) :
    t.Alters (t.shiftForInsert width) := by
  unfold shiftForInsert
  dsimp only
  split_ifs
  · exact alters_modifyRow t _ fun r => r.stamped_modifyAll _
  · exact .refl t

/-- The mark of a row with placeholders is not a part of its cells. -/
theorem refreshes_markPlaceholder (t : Crosswords) (c : Char) :
    t.Refreshes (t.markPlaceholder c) := by
  unfold markPlaceholder
  split_ifs
  · refine ⟨alters_modifyRow t _ fun r => .of_eq rfl rfl, .inr (.inr fun l _ _ => ?_)⟩
    have hrow := Storage.row_modify_cases t.grid.raw t.pos.row l
      fun row => { row with kittyVirtualPlaceholder := true }
    rcases hrow with h | h <;> exact (congrArg Row.inner h :)
  · exact .refl t

theorem Live.alters_fitWide (h : t.Live) : t.Alters t.fitWide := by
  unfold fitWide
  split_ifs
  · exact (alters_writeTagged t ' ' .leadingSpacer).trans
      (h.writeTagged ' ' .leadingSpacer).refreshes_wrapline.alters
  · exact .refl t

theorem advance_row (t : Crosswords) : t.advance.pos.row = t.pos.row := by
  unfold advance
  split_ifs <;> rfl

/-- A wide character goes to where there is room for it; without line wrapping there may be no
room at all. -/
theorem Live.refreshes_inputWide (h : t.Live) {t₀ : Crosswords} (h₀ : t₀.Live)
    (halters : t₀.Alters t) (c : Char)
    (hroom : t.grid.columns ≤ t.pos.col + 1 → t₀.Refreshes t) : t₀.Refreshes (t.inputWide c) := by
  have hsound := h.sound.inputWide (D := False) c False.elim
  unfold inputWide at hsound ⊢
  split_ifs at hsound ⊢ with hlast
  · exact (hroom hlast.1).trans (.still rfl rfl rfl rfl (.refl _))
  · have hwritten := (halters.trans h.alters_fitWide).trans (alters_writeTagged _ c .wide)
    generalize t.fitWide.writeTagged c .wide = t₁ at hwritten hsound ⊢
    have hmoved : t₀.Alters (t₁.mapGrid (·.setCol (t₁.pos.col + 1))) :=
      hwritten.trans (.still rfl rfl rfl rfl (.refl _))
    have hspaced := hmoved.trans (alters_writeTagged _ ' ' .spacer)
    dsimp only at hsound ⊢
    generalize (t₁.mapGrid (·.setCol (t₁.pos.col + 1))).writeTagged ' ' .spacer = t₂
      at hspaced hsound ⊢
    have hrow : t₂.damageCursor.advance.pos.row < t₂.damageCursor.advance.grid.lines :=
      hsound.grid.cursor.2.1
    rw [advance_row, (refreshes_advance _).alters.lines] at hrow
    exact (hspaced.refreshes_damageCursor h₀.marks h₀.lines_pos (hspaced.lines ▸ hrow)).trans
      (refreshes_advance _)

/-- Shifting the rest of the row for a character that does not fit changes nothing. -/
theorem shiftForInsert_of_last {width : ℕ} (hwidth : width ≠ 0)
    (hlast : t.grid.columns ≤ t.pos.col + 1) : t.shiftForInsert width = t := by
  unfold shiftForInsert
  dsimp only
  rw [if_neg (by omega)]

theorem Live.refreshes_inputVisible (h : t.Live) (c : Char) {width : ℕ} (hwidth : width ≠ 0) :
    t.Refreshes (t.inputVisible c width) := by
  unfold inputVisible
  dsimp only
  obtain ⟨t₁, ht₁, hwrapped, h₁⟩ : ∃ t₁, t₁ = (if t.grid.cursor.shouldWrap then t.wrapline else t) ∧
      t.Refreshes t₁ ∧ t₁.Live := by
    refine ⟨_, rfl, ?_⟩
    split_ifs
    · exact ⟨h.refreshes_wrapline, h.wrapline⟩
    · exact ⟨.refl t, h⟩
  rw [← ht₁]
  have hmarked := refreshes_markPlaceholder (t₁.shiftForInsert width) c
  have hprepared := (alters_shiftForInsert t₁ width).trans hmarked.alters
  have hcells := (onlyCells_shiftForInsert t₁ width).trans (onlyCells_markPlaceholder _ c)
  have hlive := h₁.mk' ((h₁.sound.shiftForInsert width).markPlaceholder c) (.onlyCells hcells)
    hprepared
  split_ifs
  · have hwritten := hprepared.trans (alters_writeAtCursor _ c)
    have hrow := (hlive.sound.writeAtCursor c).grid.cursor.2.1
    have hshown := hwritten.refreshes_damageCursor h₁.marks h₁.lines_pos (hwritten.lines ▸ hrow)
    exact hwrapped.trans (hshown.trans (refreshes_advance _))
  · refine hwrapped.trans (hlive.refreshes_inputWide h₁ hprepared c fun hlast => ?_)
    rw [hcells.columns, hcells.pos] at hlast
    rwa [shiftForInsert_of_last hwidth hlast] at hmarked ⊢

theorem Live.refreshes_input (h : t.Live) (u : Unicode) (c : Char) : t.Refreshes (t.input u c) := by
  unfold input
  rcases u.width c with _ | width
  · exact .refl t
  · dsimp only
    split_ifs with hzero
    · exact h.refreshes_inputZeroWidth u c
    · exact h.refreshes_inputVisible c hzero

end Crosswords
end Rio
