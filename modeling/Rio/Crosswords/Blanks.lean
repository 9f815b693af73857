import Rio.Crosswords.Edits
import Rio.Crosswords.Erase
import Rio.Crosswords.Shift
import Rio.Grid.ClearViewport

/-! The style of the cells that operations leave blank. -/

set_option linter.dupNamespace false

namespace Rio
open Rio.Runs

/-! ### Styles shown -/

/-- A palette color that has a name is the color of its number. -/
def AnsiColor.resolve : AnsiColor → AnsiColor
  | .named n => if n.toNat < 16 then .indexed n.toNat.toUInt8 else .named n
  | c => c

/-- A style with the color that the background resolves to. -/
def Style.resolve (s : Style) : Style := { s with bg := s.bg.resolve }

namespace Square

def bgPaletteIndex (c : Square) : UInt8 := c.lo.toUInt8

def bgRgb (c : Square) : UInt8 × UInt8 × UInt8 := (c.lo.toUInt8, (c.lo >>> 8).toUInt8, c.hi.toUInt8)

theorem bgRgb_setBgRgb (c : Square) (r g b : UInt8) : (c.setBgRgb r g b).bgRgb = (r, g, b) := by
  unfold bgRgb setBgRgb
  refine Prod.ext ?_ (Prod.ext ?_ ?_)
  · refine UInt8.eq_of_toBitVec_eq (BitVec.eq_of_getLsbD_eq fun i hi => ?_)
    simp [hi]
  · refine UInt8.eq_of_toBitVec_eq (BitVec.eq_of_getLsbD_eq fun i hi => ?_)
    have hlow : i < 16 := by omega
    have hhigh : 8 + i < 16 := by omega
    simp [hi, hlow, hhigh]
  · exact UInt8.toUInt8_toUInt16 b

end Square

namespace Grid

/-- The style that a cell is shown in. -/
def resolvedStyle (g : Grid Square) (c : Square) : Style :=
  match c.tag with
  | .codepoint => (g.styleOf c).resolve
  | .bgPalette => { bg := .indexed c.bgPaletteIndex }
  | .bgRgb => { bg := .spec c.bgRgb.1 c.bgRgb.2.1 c.bgRgb.2.2 }

/-- The style of the pen. -/
def penStyle (g : Grid Square) : Style := g.styleOf g.cursor.template

/-- The default style with the background of the pen only. -/
def blankStyle (g : Grid Square) : Style := Style.resolve { bg := g.penStyle.bg }

end Grid

/-! ### The table of styles -/

/-- The first style is the default one, and every style has a number. -/
structure StyleSet.Intact (s : StyleSet) : Prop where
  first : s.styles[0]? = some ({} : Style)
  length_le : s.styles.length ≤ StyleSet.maxStyles

namespace StyleSet

variable {s : StyleSet} {style : Style} {id : StyleId}

theorem Intact.length_pos (h : s.Intact) : 0 < s.styles.length :=
  (List.getElem?_eq_some_iff.mp h.first).1

theorem new_intact : StyleSet.new.Intact := ⟨rfl, by decide⟩

theorem Intact.intern (h : s.Intact) (style : Style) : (s.intern style).1.Intact := by
  unfold StyleSet.intern
  split_ifs with hmem hfull
  · exact h
  · exact h
  · refine ⟨?_, ?_⟩
    · rw [List.getElem?_append_left h.length_pos]
      exact h.first
    · rw [List.length_append, List.length_singleton]
      omega

theorem Intact.get_eq (h : s.Intact) (id : StyleId) : s.get id = s.styles.getD id.toNat {} := by
  unfold StyleSet.get
  split_ifs with hzero
  · rw [hzero, List.getD_eq_getElem?_getD]
    exact (congrArg (fun o : Option Style => o.getD {}) h.first).symm
  · rfl

/-- A style that the table has is found under the number that it is given. -/
theorem Intact.intern_of_mem (h : s.Intact) (hmem : style ∈ s.styles) :
    (s.intern style).1 = s ∧ s.get (s.intern style).2 = style := by
  have hindex := List.idxOf_lt_length_iff.mpr hmem
  have hlength := h.length_le
  have hsmall : s.styles.idxOf style < 2 ^ 16 := by
    unfold maxStyles at hlength
    omega
  unfold StyleSet.intern
  rw [if_pos hmem]
  refine ⟨rfl, ?_⟩
  rw [h.get_eq, UInt16.toNat_ofNat_of_lt' hsmall, List.getD_eq_getElem?_getD,
    List.getElem?_eq_getElem hindex, Option.getD_some, List.getElem_idxOf]

/-- A style other than the default one is an entry of the table. -/
theorem Intact.mem_of_get (h : s.Intact) (hget : s.get id = style) (hother : style ≠ {}) :
    style ∈ s.styles := by
  rw [h.get_eq, List.getD_eq_getElem?_getD] at hget
  by_cases hin : id.toNat < s.styles.length
  · rw [List.getElem?_eq_getElem hin, Option.getD_some] at hget
    rw [← hget]
    exact List.getElem_mem hin
  · rw [List.getElem?_eq_none (not_lt.mp hin)] at hget
    exact absurd hget.symm hother

end StyleSet

namespace Grid

variable {g : Grid Square}

theorem resolvedStyle_bgPalette {c : Square} (htag : c.tag = .bgPalette) :
    g.resolvedStyle c = { bg := .indexed c.bgPaletteIndex } := by
  unfold resolvedStyle
  rw [htag]

theorem resolvedStyle_bgRgb {c : Square} (htag : c.tag = .bgRgb) :
    g.resolvedStyle c = { bg := .spec c.bgRgb.1 c.bgRgb.2.1 c.bgRgb.2.2 } := by
  unfold resolvedStyle
  rw [htag]

/-- A color that only the table can encode is the background of a style of the table. -/
theorem mem_of_plain (hstyles : g.styleSet.Intact) (hplain : g.penStyle = { bg := g.penStyle.bg })
    {n : NamedColor} (hbg : g.penStyle.bg = .named n) (hback : n ≠ .background) :
    ({ bg := .named n } : Style) ∈ g.styleSet.styles := by
  rw [hbg] at hplain
  refine hstyles.mem_of_get hplain fun heq => hback ?_
  exact AnsiColor.named.inj (congrArg Style.bg heq)

/-- The blank of the editing operations is shown with the background of the pen, and a pen with
nothing else needs no new style for it. -/
theorem resolvedStyle_templateBlank (hstyles : g.styleSet.Intact)
    (hplain : g.penStyle = { bg := g.penStyle.bg }) :
    g.templateBlank.1.resolvedStyle g.templateBlank.2 = g.blankStyle ∧
      g.templateBlank.1.styleSet = g.styleSet := by
  show (g.blankWithBg g.penStyle.bg).1.resolvedStyle (g.blankWithBg g.penStyle.bg).2 =
    Style.resolve { bg := g.penStyle.bg } ∧ (g.blankWithBg g.penStyle.bg).1.styleSet = g.styleSet
  rcases hbg : g.penStyle.bg with n | ⟨r, g', b⟩ | i
  · unfold blankWithBg
    dsimp only
    split_ifs with hback hpalette
    · refine ⟨?_, rfl⟩
      have hdefault : g.styleSet.get defaultStyleId = {} := if_pos rfl
      rw [hback]
      exact congrArg Style.resolve hdefault
    · refine ⟨(resolvedStyle_bgPalette rfl).trans ?_, rfl⟩
      have hindex : (Square.setBgPalette default n.toNat.toUInt8).bgPaletteIndex =
          n.toNat.toUInt8 := UInt8.toUInt8_toUInt16 _
      unfold Style.resolve AnsiColor.resolve
      dsimp only
      rw [hindex, if_pos hpalette]
    · obtain ⟨hsame, hget⟩ := hstyles.intern_of_mem (mem_of_plain hstyles hplain hbg hback)
      refine ⟨?_, hsame⟩
      rw [hsame]
      exact congrArg Style.resolve hget
  · have hblank : g.blankWithBg (.spec r g' b) = (g, Square.setBgRgb default r g' b) := rfl
    rw [hblank]
    refine ⟨(resolvedStyle_bgRgb rfl).trans ?_, rfl⟩
    rw [Square.bgRgb_setBgRgb]
    rfl
  · have hblank : g.blankWithBg (.indexed i) = (g, Square.setBgPalette default i) := rfl
    have hindex : (Square.setBgPalette default i).bgPaletteIndex = i := UInt8.toUInt8_toUInt16 _
    rw [hblank]
    refine ⟨(resolvedStyle_bgPalette rfl).trans ?_, rfl⟩
    rw [hindex]
    rfl

/-- A cell that is reset keeps the whole style of the pen. -/
theorem resolvedStyle_reset (g : Grid Square) (c : Square) :
    g.resolvedStyle (Square.reset c g.cursor.template) = g.penStyle.resolve := rfl

/-- A cell that is reset is shown as a blank exactly when the pen has nothing but a background. -/
theorem resolve_eq_blankStyle_iff :
    g.penStyle.resolve = g.blankStyle ↔ g.penStyle = { bg := g.penStyle.bg } := by
  unfold blankStyle Style.resolve
  generalize g.penStyle = s
  obtain ⟨fg, bg, underlineColor, flags⟩ := s
  simp only [Style.mk.injEq, true_and]

theorem resolvedStyle_congr {g' : Grid Square} (hset : g'.styleSet = g.styleSet) (c : Square) :
    g'.resolvedStyle c = g.resolvedStyle c := by
  unfold resolvedStyle styleOf
  rw [hset]

/-! ### Blank lines -/

theorem cell_of_row_blank {line : ℤ} {columns : ℕ} {template : Square}
    (hrow : g.row line = Row.blank columns template) {col : ℕ} (hcol : col < columns) :
    g.cell ⟨line, col⟩ = Square.reset default template := by
  unfold cell
  dsimp only
  rw [hrow]
  refine Row.cell_reset template ?_
  rwa [Row.new_len]

/-- Clearing the viewport leaves blank lines on the screen. -/
theorem cell_clearViewport (h : g.Sound False) {p : Pos} (hrow : 0 ≤ p.row) (hline : p.row < g.lines)
    (hcol : p.col < g.columns) :
    g.clearViewport.cell p = Square.reset default g.cursor.template :=
  cell_of_row_blank (row_clearViewport_blank h.wellFormed h.lines_pos
    (Nat.le_of_succ_le h.columns_ge) hrow hline) hcol

end Grid

/-! ### Which cells an operation blanks -/

namespace Crosswords

variable {t t' : Crosswords} {p : Pos}

/-- The cells of the screen that an operation leaves blank. -/
def Blanks (u : Unicode) (t : Crosswords) : Op → Pos → Prop
  | .clearLine mode, p => t.LineNames mode p
  | .clearScreen .below, p => t.Below p
  -- as the code does it, with the first line left alone from the second one
  | .clearScreen .above, p =>
    p.row = t.pos.row ∧ p.col ≤ t.pos.col ∨ 1 < t.pos.row ∧ p.row < t.pos.row
  | .clearScreen .all, _ => True
  | .clearScreen .saved, _ => False
  | .eraseChars count, p | .insertBlank count, p =>
    p.row = t.pos.row ∧ t.pos.col ≤ p.col ∧ p.col < t.pos.col + count
  | .deleteChars count, p => p.row = t.pos.row ∧ t.grid.columns ≤ p.col + count
  | .setPrivateMode (.named .columnMode), _ | .unsetPrivateMode (.named .columnMode), _ => True
  | .input _, _ => False
  | op, p => (t.shift u op).origin p.row = none

/-- A cell has one of the two kinds of blank. -/
structure LeavesBlank (t t' : Crosswords) (p : Pos) : Prop where
  styleSet : t'.grid.styleSet = t.grid.styleSet ∨
    t'.grid.styleSet = t.grid.templateBlank.1.styleSet
  cell : t'.grid.cell p = t.grid.templateBlank.2 ∨
    t'.grid.cell p = Square.reset default t.grid.cursor.template

/-- The style of a cell after an operation. -/
def shownAfter (u : Unicode) (t : Crosswords) (op : Op) (p : Pos) : Style :=
  (t.step u op).grid.resolvedStyle ((t.step u op).grid.cell p)

theorem LeavesBlank.resolvedStyle (h : t.LeavesBlank t' p) (hstyles : t.grid.styleSet.Intact)
    (hplain : t.grid.penStyle = { bg := t.grid.penStyle.bg }) :
    t'.grid.resolvedStyle (t'.grid.cell p) = t.grid.blankStyle := by
  obtain ⟨hblank, hset⟩ := Grid.resolvedStyle_templateBlank hstyles hplain
  have hsame : t'.grid.styleSet = t.grid.styleSet := h.styleSet.elim id fun h' => h'.trans hset
  rw [Grid.resolvedStyle_congr hsame]
  obtain hcell | hcell := h.cell
  · rw [hcell, ← hblank]
    exact (Grid.resolvedStyle_congr hset _).symm
  · rw [hcell, Grid.resolvedStyle_reset]
    exact Grid.resolve_eq_blankStyle_iff.mpr hplain

theorem Overwrites.leavesBlank {value : Pos → Option Square} (h : t.Overwrites t' value)
    (hp : t.grid.HasCell p)
    (hstyles : t'.grid.styleSet = t.grid.styleSet ∨
      t'.grid.styleSet = t.grid.templateBlank.1.styleSet)
    (hvalue : value p = some t.grid.templateBlank.2 ∨
      value p = some (Square.reset default t.grid.cursor.template)) : t.LeavesBlank t' p := by
  refine ⟨hstyles, ?_⟩
  rw [h.cells p hp]
  obtain hvalue | hvalue := hvalue
  · rw [hvalue]
    exact .inl rfl
  · rw [hvalue]
    exact .inr rfl

theorem hasCell_of_onScreen (hp : p.OnScreen t.grid.lines t.grid.columns) : t.grid.HasCell p := by
  refine ⟨?_, hp.2.1, hp.2.2⟩
  have hrow := hp.1
  show -(t.grid.historySize : ℤ) ≤ p.row
  omega

theorem leavesBlank_clearLine (h : t.Sound False) (hp : p.OnScreen t.grid.lines t.grid.columns)
    {mode : LineClearMode} (hnamed : t.LineNames mode p) : t.LeavesBlank (t.clearLine mode) p := by
  refine (overwrites_clearLine h mode).leavesBlank (hasCell_of_onScreen hp) (.inr ?_)
    (.inl (if_pos hnamed))
  cases mode with
  | right =>
    show (if _ then _ else _ : Crosswords).grid.styleSet = _
    split_ifs
    · rfl
    · rfl
  | left => rfl
  | all => rfl

theorem leavesBlank_clearBelow (h : t.Sound False) (hp : p.OnScreen t.grid.lines t.grid.columns)
    (hnamed : t.Below p) : t.LeavesBlank (t.clearScreen .below) p := by
  refine (overwrites_clearBelow h).leavesBlank (hasCell_of_onScreen hp) (.inr ?_) ?_
  · show (Crosswords.damageLines _ _).grid.styleSet = _
    rw [damageLines_grid]
    split_ifs
    · rfl
    · rfl
  · by_cases hhere : p.row = t.pos.row ∧ t.pos.col ≤ p.col
    · exact .inl (if_pos hhere)
    · rw [if_neg hhere]
      exact .inr (if_pos (hnamed.resolve_left hhere))

theorem leavesBlank_clearAbove (h : t.Sound False) (hp : p.OnScreen t.grid.lines t.grid.columns)
    (hnamed : p.row = t.pos.row ∧ p.col ≤ t.pos.col ∨ 1 < t.pos.row ∧ p.row < t.pos.row) :
    t.LeavesBlank (t.clearScreen .above) p := by
  refine (overwrites_clearAbove h).leavesBlank (hasCell_of_onScreen hp) (.inr ?_) ?_
  · show (Crosswords.damageLines _ _).grid.styleSet = _
    rw [damageLines_grid]
    show (if _ then _ else _ : Crosswords).grid.styleSet = _
    split_ifs
    · rfl
    · rfl
  · by_cases hhere : p.row = t.pos.row ∧ p.col ≤ t.pos.col
    · exact .inl (if_pos hhere)
    · have hrows := hnamed.resolve_left hhere
      rw [if_neg hhere]
      exact .inr (if_pos ⟨hrows.1, hp.1, hrows.2⟩)

theorem leavesBlank_clearAll (h : t.Sound False) (hp : p.OnScreen t.grid.lines t.grid.columns) :
    t.LeavesBlank (t.clearScreen .all) p := by
  rw [← blanked_lines t, ← blanked_columns t] at hp
  have hset : t.blanked.grid.styleSet = t.grid.templateBlank.1.styleSet := rfl
  have hgrid : (t.clearScreen .all).grid = if t.mode.altScreen then
      t.blanked.grid.resetRegion ⟨0, t.blanked.grid.lines⟩ else t.blanked.grid.clearViewport := by
    show (if _ then _ else _ : Crosswords).grid = _
    split_ifs
    · rfl
    · rfl
  by_cases halt : t.mode.altScreen
  · rw [if_pos halt] at hgrid
    have hreset := overwrites_resetRegion h.blanked (r := ⟨0, t.blanked.grid.lines⟩) le_rfl le_rfl
    refine ⟨.inr (by rw [hgrid]; rfl), .inr ?_⟩
    rw [hgrid, ← blanked_cursor]
    refine (hreset.cells p (hasCell_of_onScreen hp)).trans ?_
    rw [if_pos ⟨hp.1, hp.2.1⟩]
    rfl
  · rw [if_neg halt] at hgrid
    refine ⟨.inr ?_, .inr ?_⟩
    · rw [hgrid, (Grid.noNewIds_clearViewport _).styleSet, hset]
    · rw [hgrid, ← blanked_cursor]
      exact Grid.cell_clearViewport h.blanked.grid hp.1 hp.2.1 hp.2.2

theorem leavesBlank_eraseChars (h : t.Sound False) (hp : p.OnScreen t.grid.lines t.grid.columns)
    {count : ℕ} (hnamed : p.row = t.pos.row ∧ t.pos.col ≤ p.col ∧ p.col < t.pos.col + count) :
    t.LeavesBlank (t.eraseChars count) p :=
  (overwrites_eraseChars h count).leavesBlank (hasCell_of_onScreen hp) (.inr rfl)
    (.inl (if_pos hnamed))

/-- An edit of the line of the cursor that puts the blank into a cell. -/
theorem leavesBlank_withBlank (h : t.Sound False) (hp : p.OnScreen t.grid.lines t.grid.columns)
    (hrow : p.row = t.pos.row) (f : Square → Row Square → Row Square)
    (hf : (f t.grid.templateBlank.2 (t.grid.row p.row)).cell p.col = t.grid.templateBlank.2) :
    t.LeavesBlank (t.withBlank fun t blank =>
      t.damageCursor.mapGrid (·.modifyRow t.pos.row (f blank))) p := by
  have hcell := hasCell_of_onScreen hp
  refine ⟨.inr rfl, .inl ?_⟩
  unfold Grid.cell
  rw [row_withBlank h f p.row hcell.1 hcell.2.1, if_pos hrow]
  exact hf

theorem leavesBlank_deleteChars (h : t.Sound False) (hp : p.OnScreen t.grid.lines t.grid.columns)
    {count : ℕ} (hnamed : p.row = t.pos.row ∧ t.grid.columns ≤ p.col + count) :
    t.LeavesBlank (t.deleteChars count) p := by
  have hcell := hasCell_of_onScreen hp
  have hlen := Grid.row_len h.grid.wellFormed hcell.1 hcell.2.1
  refine leavesBlank_withBlank h hp hnamed.1 (fun blank row =>
    (row.modifyAll (swapCells t.pos.col
      (min (t.pos.col + min count t.grid.columns) (t.grid.columns - 1))
      (t.grid.columns - min (t.pos.col + min count t.grid.columns)
        (t.grid.columns - 1)))).fillFrom (t.grid.columns - min count t.grid.columns) blank) ?_
  rw [Row.cell_fillFrom, if_pos (by have := hnamed.2; omega)]
  show p.col < (swapCells _ _ _ (t.grid.row p.row).inner).length
  rw [swapCells_length, hlen]
  exact hp.2.2

theorem leavesBlank_insertBlank (h : t.Sound False) (hp : p.OnScreen t.grid.lines t.grid.columns)
    {count : ℕ} (hnamed : p.row = t.pos.row ∧ t.pos.col ≤ p.col ∧ p.col < t.pos.col + count) :
    t.LeavesBlank (t.insertBlank count) p := by
  have hcell := hasCell_of_onScreen hp
  have hlen := Grid.row_len h.grid.wellFormed hcell.1 hcell.2.1
  have hcol := hp.2.2
  refine leavesBlank_withBlank h hp hnamed.1 (fun blank row =>
    (row.modifyAll (swapCellsBack t.pos.col
      (t.pos.col + min count (t.grid.columns - t.pos.col))
      (t.grid.columns - (t.pos.col + min count (t.grid.columns - t.pos.col))))).fill t.pos.col
        (t.pos.col + min count (t.grid.columns - t.pos.col)) blank) ?_
  rw [Row.cell_fill, if_pos (by have := hnamed.2; omega)]
  show p.col < (swapCellsBack _ _ _ (t.grid.row p.row).inner).length
  rw [swapCellsBack_length, hlen]
  exact hcol

theorem leavesBlank_deccolm (h : t.Sound False) (hp : p.OnScreen t.grid.lines t.grid.columns) :
    t.LeavesBlank t.deccolm p ∧ t.deccolm.grid.styleSet = t.grid.styleSet ∧
      t.deccolm.grid.cell p = Square.reset default t.grid.cursor.template := by
  have hset := h.setScrollingRegion 1 none
  have hsame : (t.setScrollingRegion 1 none).grid.styleSet = t.grid.styleSet ∧
      (t.setScrollingRegion 1 none).grid.cursor.template = t.grid.cursor.template ∧
      (t.setScrollingRegion 1 none).grid.lines = t.grid.lines ∧
      (t.setScrollingRegion 1 none).grid.columns = t.grid.columns := by
    unfold setScrollingRegion goto
    dsimp only
    split_ifs
    · exact ⟨rfl, rfl, rfl, rfl⟩
    · exact ⟨rfl, rfl, rfl, rfl⟩
    · exact ⟨rfl, rfl, rfl, rfl⟩
  obtain ⟨hstyles, htemplate, hlines, hcolumns⟩ := hsame
  rw [← hlines, ← hcolumns] at hp
  have hreset := overwrites_resetRegion hset
    (r := ⟨0, (t.setScrollingRegion 1 none).grid.lines⟩) le_rfl le_rfl
  have hcell : t.deccolm.grid.cell p = Square.reset default t.grid.cursor.template := by
    rw [← htemplate]
    refine (hreset.cells p (hasCell_of_onScreen hp)).trans ?_
    rw [if_pos ⟨hp.1, hp.2.1⟩]
    rfl
  have hdone : t.deccolm.grid.styleSet = t.grid.styleSet := hstyles
  exact ⟨⟨.inl hdone, .inr hcell⟩, hdone, hcell⟩

theorem leavesBlank_of_origin {line : ℤ} {origin : Option ℤ} (hrow : p.row = line)
    (horigin : t.grid.HasOrigin t'.grid line origin) (hnone : origin = none)
    (hcol : p.col < t.grid.columns) (hset : t'.grid.styleSet = t.grid.styleSet) :
    t.LeavesBlank t' p := by
  rw [hnone] at horigin
  have hcell := Grid.cell_of_row_blank horigin hcol
  rw [← hrow] at hcell
  exact ⟨.inl hset, .inr hcell⟩

theorem leavesBlank_scrollUpRelative (h : t.Sound False) (hregion : t.RegionOrdered) {origin : ℤ}
    (hstart : t.scrollRegion.start ≤ origin) (hstop : origin ≤ t.scrollRegion.stop) (lines : ℕ)
    (hp : p.OnScreen t.grid.lines t.grid.columns)
    (hnone : (Shift.up ⟨origin, t.scrollRegion.stop⟩ (t.scrollCount lines)).origin p.row = none) :
    t.LeavesBlank (t.scrollUpRelative origin lines) p := by
  obtain ⟨hzero, hle⟩ := hregion
  have hgrid := scrollUpRelative_grid t origin lines
  have hcount : origin = 0 → (t.scrollCount lines : ℤ) ≤ t.scrollRegion.stop := by
    unfold scrollCount
    omega
  have htop : (t.grid.scrollUp ⟨origin, t.scrollRegion.stop⟩
      (t.scrollCount lines)).topmostLine ≤ p.row := by
    have hrow := hp.1
    rw [Grid.topmostLine_eq]
    omega
  have horigin := Grid.hasOrigin_scrollUp (r := ⟨origin, t.scrollRegion.stop⟩)
    h.grid.wellFormed (hzero.trans hstart) hstop h.region hcount htop hp.2.1
  rw [← hgrid] at horigin
  refine leavesBlank_of_origin rfl horigin hnone hp.2.2 ?_
  rw [hgrid, (Grid.noNewIds_scrollUp _ _ _).styleSet]

theorem leavesBlank_scrollDownRelative (h : t.Sound False) {origin : ℤ} (hstart : 0 ≤ origin)
    (lines : ℕ) (hp : p.OnScreen t.grid.lines t.grid.columns)
    (hnone : (Shift.down ⟨origin, t.scrollRegion.stop⟩ (min (t.scrollCount lines)
      (t.scrollRegion.stop - origin).toNat)).origin p.row = none) :
    t.LeavesBlank (t.scrollDownRelative origin lines) p := by
  have hgrid : (t.scrollDownRelative origin lines).grid =
      t.grid.scrollDown ⟨origin, t.scrollRegion.stop⟩
        (min (t.scrollCount lines) (t.scrollRegion.stop - origin).toNat) := rfl
  have htop : (t.grid.scrollDown ⟨origin, t.scrollRegion.stop⟩ (min (t.scrollCount lines)
      (t.scrollRegion.stop - origin).toNat)).topmostLine ≤ p.row := by
    have hrow := hp.1
    rw [Grid.topmostLine_eq]
    omega
  have horigin := Grid.hasOrigin_scrollDown (r := ⟨origin, t.scrollRegion.stop⟩)
    h.grid.wellFormed hstart h.region htop hp.2.1
  rw [← hgrid] at horigin
  refine leavesBlank_of_origin rfl horigin hnone hp.2.2 ?_
  rw [hgrid, (Grid.noNewIds_scrollDown _ _ _).styleSet]

theorem leavesBlank_linefeed (h : t.Sound False) (hregion : t.RegionOrdered)
    (hp : p.OnScreen t.grid.lines t.grid.columns) (hnone : t.linefeedShift.origin p.row = none) :
    t.LeavesBlank t.linefeed p := by
  unfold linefeedShift at hnone
  by_cases hnext : t.pos.row + 1 = t.scrollRegion.stop
  · have heq : t.linefeed = t.scrollUpRelative t.scrollRegion.start 1 := if_pos hnext
    rw [if_pos hnext] at hnone
    rw [heq]
    exact leavesBlank_scrollUpRelative h hregion le_rfl hregion.2 1 hp hnone
  · rw [if_neg hnext] at hnone
    exact absurd hnone (Option.some_ne_none _)

/-- Every operation leaves one of the two kinds of blank in the cells that it blanks. -/
theorem leavesBlank_step (h : t.Sound False) (hregion : t.RegionOrdered) (u : Unicode) {op : Op}
    (hp : p.OnScreen t.grid.lines t.grid.columns) (hblanks : t.Blanks u op p) :
    t.LeavesBlank (t.step u op) p := by
  cases op with
  | clearLine mode => exact leavesBlank_clearLine h hp hblanks
  | clearScreen mode =>
    cases mode with
    | below => exact leavesBlank_clearBelow h hp hblanks
    | above => exact leavesBlank_clearAbove h hp hblanks
    | all => exact leavesBlank_clearAll h hp
    | saved => exact hblanks.elim
  | eraseChars count => exact leavesBlank_eraseChars h hp hblanks
  | insertBlank count => exact leavesBlank_insertBlank h hp hblanks
  | deleteChars count => exact leavesBlank_deleteChars h hp hblanks
  | linefeed => exact leavesBlank_linefeed h hregion hp hblanks
  | newline =>
    have hblank := leavesBlank_linefeed h hregion hp hblanks
    show t.LeavesBlank t.newline p
    unfold newline
    dsimp only
    split_ifs
    · exact ⟨hblank.styleSet, hblank.cell⟩
    · exact hblank
  | reverseIndex =>
    have hnone : (if t.pos.row = t.scrollRegion.start then
      Shift.down t.scrollRegion (t.scrollCount 1) else .none).origin p.row = none := hblanks
    show t.LeavesBlank t.reverseIndex p
    by_cases htop : t.pos.row = t.scrollRegion.start
    · have heq : t.reverseIndex = t.scrollDownRelative t.scrollRegion.start 1 := if_pos htop
      have hcount : min (t.scrollCount 1) (t.scrollRegion.stop - t.scrollRegion.start).toNat =
          t.scrollCount 1 := min_eq_left (min_le_right _ _)
      rw [if_pos htop, ← hcount] at hnone
      rw [heq]
      exact leavesBlank_scrollDownRelative h hregion.1 1 hp hnone
    · rw [if_neg htop] at hnone
      exact absurd hnone (Option.some_ne_none _)
  | scrollUp lines => exact leavesBlank_scrollUpRelative h hregion le_rfl hregion.2 lines hp hblanks
  | scrollDown lines =>
    have hcount : min (t.scrollCount lines) (t.scrollRegion.stop - t.scrollRegion.start).toNat =
        t.scrollCount lines := min_eq_left (min_le_right _ _)
    have hnone : (Shift.down t.scrollRegion (t.scrollCount lines)).origin p.row = none := hblanks
    rw [← hcount] at hnone
    exact leavesBlank_scrollDownRelative h hregion.1 lines hp hnone
  | deleteLines lines =>
    have hnone : (if 0 < min (t.grid.lines - t.pos.row.toNat) lines ∧
        t.scrollRegion.start ≤ t.pos.row ∧ t.pos.row < t.scrollRegion.stop then
      Shift.up ⟨t.pos.row, t.scrollRegion.stop⟩
        (t.scrollCount (min (t.grid.lines - t.pos.row.toNat) lines))
      else .none).origin p.row = none := hblanks
    show t.LeavesBlank (t.deleteLines lines) p
    unfold deleteLines
    dsimp only
    split_ifs at hnone ⊢ with hinside
    · exact leavesBlank_scrollUpRelative h hregion hinside.2.1 hinside.2.2.le _ hp hnone
    · exact absurd hnone (Option.some_ne_none _)
  | insertBlankLines lines =>
    have hnone : (if t.scrollRegion.start ≤ t.pos.row ∧ t.pos.row < t.scrollRegion.stop then
      Shift.down ⟨t.pos.row, t.scrollRegion.stop⟩
        (min (t.scrollCount lines) (t.scrollRegion.stop - t.pos.row).toNat)
      else .none).origin p.row = none := hblanks
    show t.LeavesBlank (t.insertBlankLines lines) p
    unfold insertBlankLines
    dsimp only
    split_ifs at hnone ⊢ with hinside
    · exact leavesBlank_scrollDownRelative h h.grid.cursor.1 lines hp hnone
    · exact absurd hnone (Option.some_ne_none _)
  | setPrivateMode mode =>
    rcases mode with mode | mode
    · cases mode with
      | columnMode => exact (leavesBlank_deccolm h hp).1
      | _ => exact absurd hblanks (Option.some_ne_none _)
    · exact absurd hblanks (Option.some_ne_none _)
  | unsetPrivateMode mode =>
    rcases mode with mode | mode
    · cases mode with
      | columnMode => exact (leavesBlank_deccolm h hp).1
      | _ => exact absurd hblanks (Option.some_ne_none _)
    · exact absurd hblanks (Option.some_ne_none _)
  | input c => exact hblanks.elim
  | _ => exact absurd hblanks (Option.some_ne_none _)

/-! ### Runs -/

end Crosswords

theorem Grid.edit_styleSet {g g' : Grid Square} (hedit : g.Edit g') (h : g.styleSet.Intact) :
    g'.styleSet.Intact := by
  cases hedit with
  | move hmove =>
    rw [hmove.styleSet]
    exact h
  | relocate p q hc hmove hbase =>
    show (StyleSet.Intact _)
    have hsame := hmove.styleSet
    exact hsame ▸ h
  | intern style => exact h.intern style
  | setTemplateStyle style => exact h.intern style
  | fill _ _ _ | write _ _ | startHyperlink _ | endHyperlink | save | restore => exact h
  | zeroWidth p ch =>
    obtain ⟨f, extrasTable, heq⟩ := Crosswords.pushZeroWidth_eq g p ch
    rw [heq]
    exact h
  | placeGraphic p graphic =>
    obtain ⟨f, extrasTable, heq⟩ := Crosswords.placeGraphicCell_eq g p graphic
    rw [heq]
    exact h
  | clearGraphic p =>
    obtain ⟨f, extrasTable, heq⟩ := Grid.clearGraphicAt_eq g p
    rw [heq]
    exact h

theorem Grid.edits_styleSet {g g' : Grid Square} (hedits : Relation.ReflTransGen Grid.Edit g g')
    (h : g.styleSet.Intact) : g'.styleSet.Intact := by
  induction hedits with
  | refl => exact h
  | tail _ hedit ih => exact edit_styleSet hedit ih

namespace Crosswords

variable {t t' : Crosswords} {p : Pos}

/-- What holds in every run: the tables of styles are whole and the scroll region is in order. -/
structure Ready (t : Crosswords) : Prop where
  region : t.RegionOrdered
  styles : t.grid.styleSet.Intact
  inactive : t.inactiveGrid.styleSet.Intact

/-- Scroll regions start at the first line or below. -/
def Placed : Op → Prop
  | .setScrollingRegion top _ => 1 ≤ top
  | _ => True

theorem setScrollingRegion_ordered (hregion : t.RegionOrdered) {top : ℕ} (htop : 1 ≤ top)
    (bottom : Option ℕ) : (t.setScrollingRegion top bottom).RegionOrdered := by
  unfold setScrollingRegion
  dsimp only
  split_ifs with hempty
  · exact hregion
  · have hset : ({ t with scrollRegion := ⟨min ((top : ℤ) - 1) t.grid.lines,
        min ((bottom.getD t.grid.lines : ℕ) : ℤ) t.grid.lines⟩ } : Crosswords).RegionOrdered := by
      unfold RegionOrdered
      dsimp only
      omega
    unfold RegionOrdered at hset ⊢
    rw [(frame_goto _ 0 0).scrollRegion]
    exact hset

theorem swapAlt_ordered (hregion : t.RegionOrdered) : t.swapAlt.RegionOrdered := by
  unfold swapAlt
  dsimp only
  split_ifs
  · exact hregion
  · exact hregion

theorem popKeyboardModes_scrollRegion (t : Crosswords) (toPop : ℕ) :
    (t.popKeyboardModes toPop).scrollRegion = t.scrollRegion := by
  unfold popKeyboardModes
  split_ifs
  · rfl
  · obtain ⟨stack, idx, heq⟩ := popKeyboardMode_iterate t toPop
    rw [heq]

theorem step_ordered (hregion : t.RegionOrdered) (u : Unicode) {op : Op} (hplaced : Placed op) :
    (t.step u op).RegionOrdered := by
  by_cases hedits : EditsScreen op
  · unfold RegionOrdered
    rw [(step_frame u t hedits).scrollRegion]
    exact hregion
  cases op with
  | setScrollingRegion top bottom => exact setScrollingRegion_ordered hregion hplaced bottom
  | setMode mode => cases mode <;> exact hregion
  | unsetMode mode => cases mode <;> exact hregion
  | setPrivateMode mode =>
    rcases mode with mode | mode
    · cases mode with
      | swapScreenAndSetRestoreCursor =>
        show (if _ then _ else _ : Crosswords).RegionOrdered
        split_ifs
        · exact hregion
        · exact swapAlt_ordered hregion
      | columnMode => exact setScrollingRegion_ordered hregion le_rfl none
      | _ => exact hregion
    · exact hregion
  | unsetPrivateMode mode =>
    rcases mode with mode | mode
    · cases mode with
      | swapScreenAndSetRestoreCursor =>
        show (if _ then _ else _ : Crosswords).RegionOrdered
        split_ifs
        · exact swapAlt_ordered hregion
        · exact hregion
      | columnMode => exact setScrollingRegion_ordered hregion le_rfl none
      | _ => exact hregion
    · exact hregion
  | resetState =>
    refine ⟨le_rfl, ?_⟩
    show (0 : ℤ) ≤ (_ : ℕ)
    omega
  | resize numCols numLines cellWidth cellHeight =>
    show (t.resize numCols numLines cellWidth cellHeight).RegionOrdered
    unfold resize
    dsimp only
    by_cases hsame : t.grid.columns = numCols ∧ t.grid.lines = numLines
    · rw [if_pos hsame]
      exact hregion
    · rw [if_neg hsame]
      refine ⟨le_rfl, ?_⟩
      show (0 : ℤ) ≤ (_ : ℕ)
      omega
  | popKeyboardModes toPop =>
    show (t.popKeyboardModes toPop).RegionOrdered
    unfold RegionOrdered
    rw [popKeyboardModes_scrollRegion]
    exact hregion
  | toggleViMode =>
    show t.toggleViMode.RegionOrdered
    unfold toggleViMode
    dsimp only
    split_ifs
    · exact hregion
    · exact hregion
    · exact hregion
  | setKeypadApplicationMode | unsetKeypadApplicationMode | setKeyboardMode _ _
  | pushKeyboardMode _ => exact hregion
  | _ => exact absurd trivial hedits

theorem Ready.swapAlt (h : t.Ready) :
    t.swapAlt.grid.styleSet.Intact ∧ t.swapAlt.inactiveGrid.styleSet.Intact := by
  unfold Crosswords.swapAlt
  dsimp only
  split_ifs
  · exact ⟨h.inactive, h.styles⟩
  · exact ⟨h.inactive, h.styles⟩

theorem Ready.step_styles (h : t.Ready) (u : Unicode) (op : Op) :
    (t.step u op).grid.styleSet.Intact ∧ (t.step u op).inactiveGrid.styleSet.Intact := by
  by_cases hone : BothScreens op
  · cases op with
    | setPrivateMode mode =>
      rcases mode with mode | mode
      · cases mode with
        | swapScreenAndSetRestoreCursor =>
          show (if _ then _ else _ : Crosswords).grid.styleSet.Intact ∧
            (if _ then _ else _ : Crosswords).inactiveGrid.styleSet.Intact
          split_ifs
          · exact ⟨h.styles, h.inactive⟩
          · exact h.swapAlt
        | _ => exact hone.elim
      · exact hone.elim
    | unsetPrivateMode mode =>
      rcases mode with mode | mode
      · cases mode with
        | swapScreenAndSetRestoreCursor =>
          show (if _ then _ else _ : Crosswords).grid.styleSet.Intact ∧
            (if _ then _ else _ : Crosswords).inactiveGrid.styleSet.Intact
          split_ifs
          · exact h.swapAlt
          · exact ⟨h.styles, h.inactive⟩
        | _ => exact hone.elim
      · exact hone.elim
    | resetState =>
      show t.resetState.grid.styleSet.Intact ∧ t.resetState.inactiveGrid.styleSet.Intact
      unfold resetState
      dsimp only
      split_ifs
      · exact ⟨h.inactive, h.styles⟩
      · exact ⟨h.styles, h.inactive⟩
    | resize numCols numLines cellWidth cellHeight =>
      show (t.resize numCols numLines cellWidth cellHeight).grid.styleSet.Intact ∧
        (t.resize numCols numLines cellWidth cellHeight).inactiveGrid.styleSet.Intact
      unfold resize
      dsimp only
      by_cases hsame : t.grid.columns = numCols ∧ t.grid.lines = numLines
      · rw [if_pos hsame]
        exact ⟨h.styles, h.inactive⟩
      · rw [if_neg hsame]
        have hgrid := (Grid.resize_frame t.grid (!t.mode.altScreen) numLines numCols).2.2.1
        have hother := (Grid.resize_frame t.inactiveGrid t.mode.altScreen numLines numCols).2.2.1
        rw [hgrid, hother]
        exact ⟨h.styles, h.inactive⟩
    | _ => exact hone.elim
  · obtain ⟨hedits, hinactive⟩ := step_edits u t h.styles.length_pos hone
    rw [hinactive]
    exact ⟨Grid.edits_styleSet hedits h.styles, h.inactive⟩

theorem Ready.step (h : t.Ready) (u : Unicode) {op : Op} (hplaced : Placed op) :
    (t.step u op).Ready :=
  ⟨step_ordered h.region u hplaced, (h.step_styles u op).1, (h.step_styles u op).2⟩

theorem run_ready (u : Unicode) (columns lines limit : ℕ) {ops : List Op}
    (hplaced : ∀ op ∈ ops, Placed op) : ((new columns lines limit).run u ops).Ready := by
  have hstart : (new columns lines limit).Ready :=
    ⟨⟨le_rfl, Int.natCast_nonneg lines⟩, StyleSet.new_intact, StyleSet.new_intact⟩
  have hpermitted : Permitted (step u) (fun _ op => Placed op) (new columns lines limit) ops :=
    .of_forall hplaced
  exact invariant (fun t op h hop => h.step u hop) ops _ hstart hpermitted

/-- All blanks are shown in the default style with the background of the pen, whatever operation
they come from, exactly when the pen has no other attribute. -/
theorem blanks_alike_iff (h : t.Sound False) (hready : t.Ready) (u : Unicode) :
    (∀ (op : Op) (p : Pos), p.OnScreen t.grid.lines t.grid.columns → t.Blanks u op p →
      t.shownAfter u op p = t.grid.blankStyle) ↔
      t.grid.penStyle = { bg := t.grid.penStyle.bg } := by
  constructor
  · intro halike
    have hlines := h.grid.lines_pos
    have hcolumns := h.grid.columns_ge
    have horigin : (⟨0, 0⟩ : Pos).OnScreen t.grid.lines t.grid.columns := by
      refine ⟨le_rfl, ?_, ?_⟩
      · show (0 : ℤ) < t.grid.lines
        omega
      · show 0 < t.grid.columns
        omega
    obtain ⟨-, hset, hcell⟩ := leavesBlank_deccolm h horigin
    have hshown : t.deccolm.grid.resolvedStyle (t.deccolm.grid.cell ⟨0, 0⟩) = t.grid.blankStyle :=
      halike (.setPrivateMode (.named .columnMode)) ⟨0, 0⟩ horigin trivial
    rw [hcell, Grid.resolvedStyle_congr hset, Grid.resolvedStyle_reset] at hshown
    exact Grid.resolve_eq_blankStyle_iff.mp hshown
  · intro hplain op p hp hblanks
    exact (leavesBlank_step h hready.region u hp hblanks).resolvedStyle hready.styles hplain

theorem blanks_alike_new :
    (∀ (op : Op) (p : Pos), p.OnScreen (new 3 2 0).grid.lines (new 3 2 0).grid.columns →
      (new 3 2 0).Blanks .basic op p →
        (new 3 2 0).shownAfter .basic op p = (new 3 2 0).grid.blankStyle) ↔
      (new 3 2 0).grid.penStyle = { bg := (new 3 2 0).grid.penStyle.bg } :=
  blanks_alike_iff (new_sound False (by decide) (by decide) 0)
    ⟨⟨le_rfl, by decide⟩, StyleSet.new_intact, StyleSet.new_intact⟩ .basic

/-- A line that scrolls in is underlined by an underlined pen, and an erased one is not. -/
theorem scroll_underlines :
    ¬∀ (op : Op) (p : Pos), p.OnScreen 2 3 →
      ((new 3 2 0).run .basic [.terminalAttribute .underline]).Blanks .basic op p →
        ((new 3 2 0).run .basic [.terminalAttribute .underline]).shownAfter .basic op p =
          ((new 3 2 0).run .basic [.terminalAttribute .underline]).grid.blankStyle := by
  intro halike
  have hshown := halike (.scrollUp 1) ⟨1, 0⟩ ⟨by decide, by decide, by decide⟩ (by rfl)
  revert hshown
  decide

end Crosswords
end Rio
