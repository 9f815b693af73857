import Mathlib.Logic.Relation
import Rio.Crosswords.Frame
import Rio.Grid.Issued

/-! What the operations do to the ids on the active screen, as a chain of a few kinds of edit.
What every kind of edit keeps, every operation keeps. -/

set_option linter.dupNamespace false

namespace Rio

theorem weight_swapCells {w : Square → ℕ} (start stop count : ℕ) (cells : List Square) :
    total w (swapCells start stop count cells) = total w cells := by
  unfold swapCells
  induction List.range count generalizing cells with
  | nil => rfl
  | cons offset offsets ih => rw [List.foldl_cons, ih, total_swapAt]

theorem weight_swapCellsBack {w : Square → ℕ} (start stop count : ℕ) (cells : List Square) :
    total w (swapCellsBack start stop count cells) = total w cells := by
  unfold swapCellsBack
  induction (List.range count).reverse generalizing cells with
  | nil => rfl
  | cons offset offsets ih => rw [List.foldl_cons, ih, total_swapAt]

namespace Grid

/-- The cells move, disappear or become blank, and the cursors stay but for their positions. -/
structure NoNewIds (g g' : Grid Square) : Prop where
  template : g'.cursor.template = g.cursor.template
  savedTemplate : g'.savedCursor.template = g.savedCursor.template
  styleSet : g'.styleSet = g.styleSet
  extrasTable : g'.extrasTable = g.extrasTable
  weight_le : ∀ w, OfIds w → Clean w g.cursor.template → g'.weight w ≤ g.weight w

/-- A cell that has the ids of another. -/
def SameIds (c c' : Square) : Prop :=
  c'.tag = c.tag ∧ c'.lo = c.lo ∧ c'.hi = c.hi ∧ c'.flags.graphics = c.flags.graphics

/-- A cell with a character and the ids of the cursor's template. -/
def PenCell (g : Grid Square) (c : Square) : Prop :=
  c.tag = .codepoint ∧ c.lo = g.cursor.template.lo ∧ c.hi = g.cursor.template.hi

/-- A cell without extras that the grid may be filled with. -/
def Blank (g : Grid Square) (c : Square) : Prop :=
  c.flags.graphics = false ∧
    (c.isBgOnly = true ∨ c.hi = 0 ∧ c.styleId.toNat < g.styleSet.styles.length)

/-- One edit of the active screen. -/
inductive Edit (g : Grid Square) : Grid Square → Prop
  | move {g' : Grid Square} (h : g.NoNewIds g') : Edit g g'
  | fill (line : ℤ) {f : Row Square → Row Square} {c : Square} (hc : g.Blank c)
      (hf : ∀ w, OfIds w → w c = 0 → ∀ r, (f r).weight w ≤ r.weight w) :
      Edit g (g.modifyRow line f)
  | write (p : Pos) {c : Square} (hc : g.PenCell c) :
      Edit g (g.modifyCell p fun _ => c)
  /-- A cell is overwritten, and what it held is written elsewhere. -/
  | relocate (p q : Pos) {c base : Square} {g' : Grid Square} (hc : g.PenCell c)
      (h : (g.modifyCell p fun _ => c).NoNewIds g') (hbase : SameIds (g.cell p) base) :
      Edit g (g'.modifyCell q fun _ => base)
  | intern (style : Style) : Edit g { g with styleSet := (g.styleSet.intern style).1 }
  | setTemplateStyle (style : Style) : Edit g (g.setTemplateStyle style)
  | startHyperlink (hl : Hyperlink) :
      Edit g ({ g with extrasTable := (g.extrasTable.alloc { hyperlink := some hl }).1 }.setTemplate
        { g.cursor.template.setExtrasId (some (g.extrasTable.alloc { hyperlink := some hl }).2) with
          flags := { g.cursor.template.flags with hyperlink := true } })
  | endHyperlink :
      Edit g (g.setTemplate { g.cursor.template.setExtrasId none with
        flags := { g.cursor.template.flags with hyperlink := false } })
  | save : Edit g { g with savedCursor := g.cursor }
  | restore : Edit g { g with cursor := g.savedCursor }
  | zeroWidth (p : Pos) (ch : Char) : Edit g (Crosswords.pushZeroWidth g p ch)
  | placeGraphic (p : Pos) (graphic : GraphicCell) : Edit g (Crosswords.placeGraphicCell g p graphic)
  | clearGraphic (p : Pos) : Edit g (g.clearGraphicAt p)

section NoNewIds

variable {g g' g'' : Grid Square}

theorem NoNewIds.refl (g : Grid Square) : g.NoNewIds g := ⟨rfl, rfl, rfl, rfl, fun _ _ _ => le_rfl⟩

theorem NoNewIds.trans (h : g.NoNewIds g') (h' : g'.NoNewIds g'') : g.NoNewIds g'' :=
  ⟨h'.template.trans h.template, h'.savedTemplate.trans h.savedTemplate,
    h'.styleSet.trans h.styleSet, h'.extrasTable.trans h.extrasTable, fun w hw hclean =>
      (h'.weight_le w hw (h.template ▸ hclean)).trans (h.weight_le w hw hclean)⟩

/-- The rows stay. -/
theorem NoNewIds.of_eq (hraw : g'.raw = g.raw)
    (htemplate : g'.cursor.template = g.cursor.template)
    (hsaved : g'.savedCursor.template = g.savedCursor.template)
    (hstyles : g'.styleSet = g.styleSet) (hextras : g'.extrasTable = g.extrasTable) :
    g.NoNewIds g' :=
  ⟨htemplate, hsaved, hstyles, hextras, fun w _ _ => by
    unfold weight
    rw [hraw]⟩

theorem noNewIds_modifyRow (g : Grid Square) (line : ℤ) {f : Row Square → Row Square}
    (hf : ∀ w, OfIds w → ∀ r, (f r).weight w ≤ r.weight w) : g.NoNewIds (g.modifyRow line f) :=
  ⟨rfl, rfl, rfl, rfl, fun w hw _ => weight_modifyRow_le (hf w hw) g line⟩

theorem noNewIds_modifyCell (g : Grid Square) (p : Pos) {f : Square → Square}
    (hf : ∀ w, OfIds w → ∀ c, w (f c) ≤ w c) : g.NoNewIds (g.modifyCell p f) :=
  noNewIds_modifyRow g p.row fun w hw r => Row.weight_modify_le (hf w hw) r p.col

theorem noNewIds_setWide (g : Grid Square) (p : Pos) (tag : Wide) :
    g.NoNewIds (g.modifyCell p (·.setWide tag)) :=
  noNewIds_modifyCell g p fun _ hw c => (hw.setWide tag c).le

theorem noNewIds_clear (g : Grid Square) (p : Pos) : g.NoNewIds (g.modifyCell p Square.clear) :=
  noNewIds_modifyCell g p fun _ hw _ => hw.blank.trans_le (Nat.zero_le _)

theorem noNewIds_scrollUp (g : Grid Square) (r : Region) (n : ℕ) : g.NoNewIds (g.scrollUp r n) :=
  ⟨by simp, by simp, by simp, by simp, fun _ hw hclean => weight_scrollUp_le hw.blank hclean r n⟩

theorem noNewIds_scrollDown (g : Grid Square) (r : Region) (n : ℕ) :
    g.NoNewIds (g.scrollDown r n) :=
  ⟨by simp, by simp, by simp, by simp, fun _ _ hclean => weight_scrollDown_le hclean r n⟩

theorem noNewIds_resetRegion (g : Grid Square) (r : Region) : g.NoNewIds (g.resetRegion r) :=
  ⟨rfl, rfl, rfl, rfl, fun _ _ hclean => weight_resetRegion_le hclean r⟩

theorem noNewIds_clearViewport (g : Grid Square) : g.NoNewIds g.clearViewport :=
  ⟨congrArg Cursor.template (scrollUp_cursor g _ _),
    congrArg Cursor.template (scrollUp_savedCursor g _ _), scrollUp_styleSet g _ _,
    scrollUp_extrasTable g _ _, fun _ hw hclean => weight_clearViewport_le hw.blank hclean⟩

theorem noNewIds_clearWide (g : Grid Square) : g.NoNewIds (Crosswords.clearWide g) := by
  have hprev (g : Grid Square) (p : Pos) : g.NoNewIds (g.modifyCell p fun prev =>
      if prev.wide = .leadingSpacer then prev.setWide .narrow else prev) :=
    noNewIds_modifyCell g p fun w hw c => by
      split_ifs
      · exact (hw.setWide .narrow c).le
      · exact le_rfl
  unfold Crosswords.clearWide
  dsimp only
  split_ifs
  · exact (noNewIds_setWide g _ _).trans (hprev _ _)
  · exact noNewIds_setWide g _ _
  · exact (noNewIds_clear g _).trans (hprev _ _)
  · exact noNewIds_clear g _
  · exact hprev g _
  · exact .refl g
  · exact .refl g

end NoNewIds
end Grid

namespace Crosswords

/-- The active screen changes by a chain of edits. -/
def Edits (t t' : Crosswords) : Prop := Relation.ReflTransGen Grid.Edit t.grid t'.grid

variable {t t' t'' : Crosswords}

namespace Edits

theorem refl (t : Crosswords) : t.Edits t := Relation.ReflTransGen.refl

theorem trans (h : t.Edits t') (h' : t'.Edits t'') : t.Edits t'' :=
  Relation.ReflTransGen.trans h h'

theorem edit (h : t.grid.Edit t'.grid) : t.Edits t' := .single h

theorem move (h : t.grid.NoNewIds t'.grid) : t.Edits t' := .single (.move h)

theorem of_grid_eq (h : t'.grid = t.grid) : t.Edits t' := by
  unfold Edits
  rw [h]

/-- Only positions and what is not part of the screen change. -/
theorem of_eq (hraw : t'.grid.raw = t.grid.raw)
    (htemplate : t'.grid.cursor.template = t.grid.cursor.template)
    (hsaved : t'.grid.savedCursor.template = t.grid.savedCursor.template)
    (hstyles : t'.grid.styleSet = t.grid.styleSet)
    (hextras : t'.grid.extrasTable = t.grid.extrasTable) : t.Edits t' :=
  move (.of_eq hraw htemplate hsaved hstyles hextras)

theorem damageLines (t : Crosswords) (lines : List ℤ) : t.Edits (t.damageLines lines) :=
  of_grid_eq (damageLines_grid t lines)

theorem iterate {f : Crosswords → Crosswords} (hf : ∀ t : Crosswords, t.Edits (f t)) :
    ∀ (count : ℕ) (t : Crosswords), t.Edits (f^[count] t)
  | 0, t => refl t
  | count + 1, t => by
    rw [Function.iterate_succ_apply]
    exact (hf t).trans (iterate hf count (f t))

theorem foldl {β : Type} {f : Crosswords → β → Crosswords}
    (hf : ∀ (t : Crosswords) b, t.Edits (f t b)) :
    ∀ (bs : List β) (t : Crosswords), t.Edits (bs.foldl f t)
  | [], t => refl t
  | b :: bs, t => (hf t b).trans (foldl hf bs (f t b))

theorem mapGrid_foldl {β : Type} {f : Grid Square → β → Grid Square}
    (hf : ∀ (g : Grid Square) b, g.Edit (f g b)) (bs : List β) (t : Crosswords) :
    t.Edits (t.mapGrid fun g => bs.foldl f g) := by
  induction bs generalizing t with
  | nil => exact refl t
  | cons b bs ih =>
    have hfirst : t.Edits (t.mapGrid (f · b)) := edit (hf t.grid b)
    exact hfirst.trans (ih (t.mapGrid (f · b)))

end Edits

/-! ### Cursor and scrolling -/

theorem edits_goto (t : Crosswords) (line : ℤ) (col : ℕ) : t.Edits (t.goto line col) := by
  unfold goto
  split
  exact .of_eq rfl rfl rfl rfl rfl

theorem edits_backspace (t : Crosswords) : t.Edits t.backspace := by
  unfold backspace
  split_ifs
  · exact .of_eq rfl rfl rfl rfl rfl
  · exact .refl t

theorem noNewIds_scrollUpRelative (t : Crosswords) (origin : ℤ) (lines : ℕ) :
    t.grid.NoNewIds (t.scrollUpRelative origin lines).grid := by
  rw [scrollUpRelative_grid]
  exact Grid.noNewIds_scrollUp t.grid _ _

theorem edits_scrollUpRelative (t : Crosswords) (origin : ℤ) (lines : ℕ) :
    t.Edits (t.scrollUpRelative origin lines) :=
  .move (noNewIds_scrollUpRelative t origin lines)

theorem edits_scrollDownRelative (t : Crosswords) (origin : ℤ) (lines : ℕ) :
    t.Edits (t.scrollDownRelative origin lines) :=
  .move (Grid.noNewIds_scrollDown t.grid _ _)

theorem noNewIds_linefeed (t : Crosswords) : t.grid.NoNewIds t.linefeed.grid := by
  obtain ⟨-, heq⟩ | ⟨-, -, heq⟩ | ⟨-, -, heq⟩ := linefeed_cases t
  · rw [heq]
    exact Grid.noNewIds_scrollUp t.grid _ _
  · rw [heq]
    exact .of_eq rfl rfl rfl rfl rfl
  · rw [heq]
    exact .refl _

theorem edits_linefeed (t : Crosswords) : t.Edits t.linefeed := .move (noNewIds_linefeed t)

theorem edits_newline (t : Crosswords) : t.Edits t.newline := by
  have hfed := edits_linefeed t
  unfold newline
  dsimp only
  split_ifs
  · exact hfed.trans (.of_eq rfl rfl rfl rfl rfl)
  · exact hfed

theorem noNewIds_wrapline (t : Crosswords) : t.grid.NoNewIds t.wrapline.grid := by
  by_cases hwrap : t.mode.lineWrap
  · have hmarked : t.grid.NoNewIds (t.mapGrid (·.modifyCursorCell (·.setWrapline true))).grid :=
      Grid.noNewIds_modifyCell t.grid _ fun w hw c => (hw.setWrapline true c).le
    obtain ⟨t₁, heq, rfl | ⟨-, rfl⟩⟩ := wrapline_eq hwrap
    · rw [heq]
      exact (hmarked.trans (noNewIds_linefeed _)).trans (.of_eq rfl rfl rfl rfl rfl)
    · rw [heq]
      exact hmarked.trans (.of_eq rfl rfl rfl rfl rfl)
  · unfold wrapline
    rw [if_pos (by simpa using hwrap)]
    exact .refl t.grid

theorem edits_wrapline (t : Crosswords) : t.Edits t.wrapline := .move (noNewIds_wrapline t)

theorem edits_deleteLines (t : Crosswords) (lines : ℕ) : t.Edits (t.deleteLines lines) := by
  unfold deleteLines
  dsimp only
  split_ifs
  · exact edits_scrollUpRelative t _ _
  · exact .refl t

theorem edits_insertBlankLines (t : Crosswords) (lines : ℕ) :
    t.Edits (t.insertBlankLines lines) := by
  unfold insertBlankLines
  dsimp only
  split_ifs
  · exact edits_scrollDownRelative t _ _
  · exact .refl t

theorem edits_reverseIndex (t : Crosswords) : t.Edits t.reverseIndex := by
  unfold reverseIndex
  split_ifs
  · exact edits_scrollDownRelative t _ _
  · exact .of_eq rfl rfl rfl rfl rfl

/-! ### Printing -/

theorem edits_advance (t : Crosswords) : t.Edits t.advance := by
  unfold advance
  split_ifs <;> exact .of_eq rfl rfl rfl rfl rfl

/-- The cell that printing a character writes. -/
theorem writeAtCursor_eq (t : Crosswords) (c : Char) :
    ∃ cell : Square, cell.tag = .codepoint ∧ cell.lo = t.grid.cursor.template.lo ∧
      cell.hi = t.grid.cursor.template.hi ∧
      t.writeAtCursor c =
        t.mapGrid fun g => (clearWide g).modifyCursorCell fun _ => cell := by
  unfold writeAtCursor
  refine ⟨_, ?_, ?_, ?_, rfl⟩
  · rfl
  · rfl
  show (t.grid.cursor.template.extrasId).getD 0 = t.grid.cursor.template.hi
  unfold Square.extrasId
  split_ifs with hhi
  · exact hhi.symm
  · rfl

theorem edits_writeAtCursor (t : Crosswords) (c : Char) : t.Edits (t.writeAtCursor c) := by
  obtain ⟨cell, htag, hlo, hhi, heq⟩ := writeAtCursor_eq t c
  have hcleared := Grid.noNewIds_clearWide t.grid
  have hedits : t.Edits (t.mapGrid clearWide) := .move hcleared
  rw [heq]
  refine hedits.trans (.edit (.write _ ⟨htag, ?_, ?_⟩))
  · exact hlo.trans (congrArg Square.lo hcleared.template.symm)
  · exact hhi.trans (congrArg Square.hi hcleared.template.symm)

theorem edits_writeTagged (t : Crosswords) (c : Char) (tag : Wide) :
    t.Edits (t.writeTagged c tag) :=
  (edits_writeAtCursor t c).trans (.move (Grid.noNewIds_setWide _ _ tag))

/-- Widening a character in the last column takes it to the next row. -/
theorem edits_widenOnNextRow (t : Crosswords) {baseCol : ℕ} {base : Square}
    (hbase : base = t.grid.cell ⟨t.pos.row, baseCol⟩) (hnarrow : base.wide = .narrow) :
    t.Edits (t.widenOnNextRow baseCol base) := by
  have hmoved : t.Edits (t.mapGrid fun g => (g.setCol baseCol).setShouldWrap false) :=
    .of_eq rfl rfl rfl rfl rfl
  have hcell : base =
      (t.mapGrid fun g => (g.setCol baseCol).setShouldWrap false).grid.cell
        (t.mapGrid fun g => (g.setCol baseCol).setShouldWrap false).pos := hbase
  unfold widenOnNextRow
  dsimp only
  generalize (t.mapGrid fun g => (g.setCol baseCol).setShouldWrap false) = t₁ at hmoved hcell ⊢
  refine hmoved.trans ?_
  obtain ⟨cell, htag, hlo, hhi, heq⟩ := writeAtCursor_eq t₁ ' '
  have hunchanged : clearWide t₁.grid = t₁.grid := by
    have hwide : (t₁.grid.cell t₁.grid.cursor.pos).wide = .narrow := hcell ▸ hnarrow
    unfold clearWide
    dsimp only
    rw [hwide, if_neg (by simp)]
  have hwrapped : (t₁.grid.modifyCell t₁.pos fun _ => cell).NoNewIds
      (t₁.writeTagged ' ' .leadingSpacer).wrapline.grid := by
    refine Grid.NoNewIds.trans ?_ (noNewIds_wrapline _)
    unfold writeTagged
    rw [heq]
    unfold mapGrid
    dsimp only
    rw [hunchanged]
    exact Grid.noNewIds_setWide _ _ _
  generalize (t₁.writeTagged ' ' .leadingSpacer).wrapline = t₂ at hwrapped ⊢
  have hrelocated : t₁.Edits (t₂.mapGrid fun g =>
      (g.modifyCell ⟨t₂.pos.row, 0⟩ fun _ => base.setWide .wide).setCol 1) := by
    have hsame : Grid.SameIds (t₁.grid.cell t₁.pos) (base.setWide .wide) := by
      rw [hcell]
      exact ⟨rfl, rfl, rfl, rfl⟩
    have hedit : t₁.Edits (t₂.mapGrid fun g =>
        g.modifyCell ⟨t₂.pos.row, 0⟩ fun _ => base.setWide .wide) :=
      .edit (.relocate t₁.pos ⟨t₂.pos.row, 0⟩ ⟨htag, hlo, hhi⟩ hwrapped hsame)
    exact hedit.trans (.of_eq rfl rfl rfl rfl rfl)
  have hwritten := hrelocated.trans (edits_writeTagged _ ' ' .spacer)
  generalize ((t₂.mapGrid fun g =>
    (g.modifyCell ⟨t₂.pos.row, 0⟩ fun _ => base.setWide .wide).setCol 1).writeTagged ' ' .spacer) =
      t₃ at hwritten ⊢
  split_ifs
  · exact hwritten.trans (.of_eq rfl rfl rfl rfl rfl)
  · exact hwritten.trans (.of_eq rfl rfl rfl rfl rfl)

theorem edits_widenInPlace (t : Crosswords) (baseCol : ℕ) : t.Edits (t.widenInPlace baseCol) := by
  unfold widenInPlace
  dsimp only
  have htagged : t.Edits (t.mapGrid fun g =>
      ((g.modifyCell ⟨t.pos.row, baseCol⟩ (·.setWide .wide)).setCol (baseCol + 1)).setShouldWrap
        false) :=
    .move ((Grid.noNewIds_setWide t.grid ⟨t.pos.row, baseCol⟩ .wide).trans
      (.of_eq rfl rfl rfl rfl rfl))
  have hwritten := htagged.trans (edits_writeTagged _ ' ' .spacer)
  generalize (t.mapGrid fun g =>
    ((g.modifyCell ⟨t.pos.row, baseCol⟩ (·.setWide .wide)).setCol (baseCol + 1)).setShouldWrap
      false).writeTagged ' ' .spacer = written at hwritten ⊢
  exact (hwritten.trans (edits_advance written)).trans (.of_grid_eq rfl)

theorem edits_applyEmojiVs16 (t : Crosswords) (u : Unicode) : t.Edits (t.applyEmojiVs16 u) := by
  unfold applyEmojiVs16
  dsimp only
  split_ifs with hstart hvalid hroom hwrap
  · exact .refl t
  · exact .refl t
  · exact .refl t
  · exact edits_widenOnNextRow t rfl (not_not.mp (not_or.mp hvalid).1)
  · exact edits_widenInPlace t _

theorem edits_applyEmojiVs15 (t : Crosswords) (u : Unicode) : t.Edits (t.applyEmojiVs15 u) := by
  unfold applyEmojiVs15
  dsimp only
  split_ifs
  · exact .refl t
  · exact .refl t
  · have hnarrowed := Grid.noNewIds_setWide t.grid ⟨t.pos.row, t.baseColumn - 1⟩ .narrow
    have hcleared := hnarrowed.trans (Grid.noNewIds_clear _ ⟨t.pos.row, t.baseColumn⟩)
    exact .move (hcleared.trans (.of_eq rfl rfl rfl rfl rfl))

theorem edits_inputZeroWidth (t : Crosswords) (u : Unicode) (c : Char) :
    t.Edits (t.inputZeroWidth u c) := by
  unfold inputZeroWidth
  dsimp only
  have happlied : t.Edits (if c = '\ufe0f' then t.applyEmojiVs16 u
      else if c = '\ufe0e' then t.applyEmojiVs15 u else t) := by
    split_ifs
    · exact edits_applyEmojiVs16 t u
    · exact edits_applyEmojiVs15 t u
    · exact .refl t
  generalize (if c = '\ufe0f' then t.applyEmojiVs16 u
    else if c = '\ufe0e' then t.applyEmojiVs15 u else t) = t₁ at happlied ⊢
  refine happlied.trans ?_
  generalize (⟨t₁.pos.row, _⟩ : Pos) = p
  exact .edit (.zeroWidth p c)

theorem noNewIds_modifyAll (g : Grid Square) (line : ℤ) {f : List Square → List Square}
    (hf : ∀ w cells, total w (f cells) = total w cells) :
    g.NoNewIds (g.modifyRow line (·.modifyAll f)) :=
  Grid.noNewIds_modifyRow g line fun w _ r => (hf w r.inner).le

theorem edits_shiftForInsert (t : Crosswords) (width : ℕ) : t.Edits (t.shiftForInsert width) := by
  unfold shiftForInsert
  dsimp only
  split_ifs
  · exact .move (noNewIds_modifyAll t.grid _ fun _ cells => weight_swapCellsBack _ _ _ cells)
  · exact .refl t

theorem edits_markPlaceholder (t : Crosswords) (c : Char) : t.Edits (t.markPlaceholder c) := by
  unfold markPlaceholder
  split_ifs
  · exact .move (Grid.noNewIds_modifyRow t.grid _ fun _ _ _ => le_rfl)
  · exact .refl t

theorem edits_fitWide (t : Crosswords) : t.Edits t.fitWide := by
  unfold fitWide
  split_ifs
  · exact (edits_writeTagged t ' ' .leadingSpacer).trans (edits_wrapline _)
  · exact .refl t

theorem edits_inputWide (t : Crosswords) (c : Char) : t.Edits (t.inputWide c) := by
  unfold inputWide
  split_ifs
  · exact .of_eq rfl rfl rfl rfl rfl
  · refine Edits.trans ?_ (edits_advance _)
    have hwritten := (edits_fitWide t).trans (edits_writeTagged _ c .wide)
    generalize t.fitWide.writeTagged c .wide = t₁ at hwritten ⊢
    have hmoved : t.Edits (t₁.mapGrid (·.setCol (t₁.pos.col + 1))) :=
      hwritten.trans (.of_eq rfl rfl rfl rfl rfl)
    exact (hmoved.trans (edits_writeTagged _ ' ' .spacer)).trans (.of_grid_eq rfl)

theorem edits_inputVisible (t : Crosswords) (c : Char) (width : ℕ) :
    t.Edits (t.inputVisible c width) := by
  unfold inputVisible
  have hwrapped : t.Edits (if t.grid.cursor.shouldWrap then t.wrapline else t) := by
    split_ifs
    · exact edits_wrapline t
    · exact .refl t
  dsimp only
  generalize (if t.grid.cursor.shouldWrap then t.wrapline else t) = t₁ at hwrapped ⊢
  have hprepared := (hwrapped.trans (edits_shiftForInsert t₁ width)).trans
    (edits_markPlaceholder _ c)
  split_ifs
  · refine Edits.trans ?_ (edits_advance _)
    exact (hprepared.trans (edits_writeAtCursor _ c)).trans (.of_grid_eq rfl)
  · exact hprepared.trans (edits_inputWide _ c)

theorem edits_input (t : Crosswords) (u : Unicode) (c : Char) : t.Edits (t.input u c) := by
  unfold input
  rcases u.width c with _ | width
  · exact .refl t
  · show t.Edits (if width = 0 then t.inputZeroWidth u c else t.inputVisible c width)
    split_ifs
    · exact edits_inputZeroWidth t u c
    · exact edits_inputVisible t c width

/-! ### Editing and clearing -/

/-- The cell that a line is filled with. -/
theorem blankWithBg_edit (g : Grid Square) (hpos : 0 < g.styleSet.styles.length)
    (bg : AnsiColor) :
    Relation.ReflTransGen Grid.Edit g (g.blankWithBg bg).1 ∧
      (g.blankWithBg bg).1.Blank (g.blankWithBg bg).2 := by
  unfold Grid.blankWithBg
  rcases bg with named | ⟨r, g', b⟩ | idx
  · dsimp only
    split_ifs
    · exact ⟨.refl, rfl, .inr ⟨rfl, hpos⟩⟩
    · exact ⟨.refl, rfl, .inl rfl⟩
    · exact ⟨.single (.intern _), rfl, .inr ⟨rfl, StyleSet.intern_lt hpos _⟩⟩
  · exact ⟨.refl, rfl, .inl rfl⟩
  · exact ⟨.refl, rfl, .inl rfl⟩

theorem edits_withBlank (t : Crosswords) (hpos : 0 < t.grid.styleSet.styles.length)
    {f : Crosswords → Square → Crosswords}
    (hf : ∀ (t : Crosswords) blank, t.grid.Blank blank → t.Edits (f t blank)) :
    t.Edits (t.withBlank f) := by
  obtain ⟨hedits, hblank⟩ := blankWithBg_edit t.grid hpos (t.grid.styleOf t.grid.cursor.template).bg
  exact Relation.ReflTransGen.trans hedits (hf { t with grid := t.grid.templateBlank.1 } _ hblank)

theorem edits_fill (t : Crosswords) (line : ℤ) (start stop : ℕ) {blank : Square}
    (hblank : t.grid.Blank blank) :
    t.Edits (t.mapGrid (·.modifyRow line (·.fill start stop blank))) :=
  .edit (.fill line hblank fun _ _ hc r => Row.weight_fill_le hc r start stop)

theorem edits_eraseChars (t : Crosswords) (hpos : 0 < t.grid.styleSet.styles.length) (count : ℕ) :
    t.Edits (t.eraseChars count) :=
  edits_withBlank t hpos fun t _ hblank => edits_fill t _ _ _ hblank

theorem edits_deleteChars (t : Crosswords) (hpos : 0 < t.grid.styleSet.styles.length)
    (count : ℕ) : t.Edits (t.deleteChars count) :=
  edits_withBlank t hpos fun _ _ hblank => .edit (.fill _ hblank fun _ _ hc r =>
    (Row.weight_fillFrom_le hc _ _).trans (weight_swapCells _ _ _ r.inner).le)

theorem edits_insertBlank (t : Crosswords) (hpos : 0 < t.grid.styleSet.styles.length)
    (count : ℕ) : t.Edits (t.insertBlank count) :=
  edits_withBlank t hpos fun _ _ hblank => .edit (.fill _ hblank fun _ _ hc r =>
    (Row.weight_fill_le hc _ _ _).trans (weight_swapCellsBack _ _ _ r.inner).le)

theorem edits_clearLine (t : Crosswords) (hpos : 0 < t.grid.styleSet.styles.length)
    (mode : LineClearMode) : t.Edits (t.clearLine mode) := by
  unfold clearLine
  refine edits_withBlank t hpos fun t blank hblank => ?_
  cases mode with
  | right =>
    dsimp only
    split_ifs
    · exact .refl t
    · exact edits_fill t _ _ _ hblank
  | left => exact edits_fill t _ _ _ hblank
  | all => exact edits_fill t _ _ _ hblank

theorem edits_resetRegion (t : Crosswords) (r : Region) : t.Edits (t.mapGrid (·.resetRegion r)) :=
  .move (Grid.noNewIds_resetRegion t.grid r)

theorem edits_decaln (t : Crosswords) : t.Edits t.decaln := by
  have hstep (g : Grid Square) (line : ℤ) : g.NoNewIds (g.modifyRow line fun row =>
      row.fill 0 g.columns (Square.setC default 'E')) :=
    Grid.noNewIds_modifyRow g line fun w hw r =>
      Row.weight_fill_le ((hw.setC 'E' default).trans hw.blank) r _ _
  exact Edits.trans (.mapGrid_foldl (fun g line => .move (hstep g line)) _ t) (.of_grid_eq rfl)

theorem edits_clearScreen (t : Crosswords) (hpos : 0 < t.grid.styleSet.styles.length)
    (mode : ClearMode) : t.Edits (t.clearScreen mode) := by
  refine edits_withBlank t hpos fun t blank hblank => ?_
  cases mode with
  | above =>
    dsimp only
    refine Edits.trans ?_ (.damageLines _ _)
    split_ifs
    · exact (edits_resetRegion t _).trans (edits_fill _ _ _ _ (by exact hblank))
    · exact edits_fill t _ _ _ hblank
  | below =>
    dsimp only
    refine Edits.trans ?_ (.damageLines _ _)
    have hfilled : t.Edits (t.mapGrid (·.modifyRow t.pos.row (·.fillFrom t.pos.col blank))) :=
      .edit (.fill _ hblank fun _ _ hc r => Row.weight_fillFrom_le hc r _)
    split_ifs
    · exact hfilled.trans (edits_resetRegion _ _)
    · exact hfilled
  | all =>
    dsimp only
    split_ifs
    · exact (edits_resetRegion t _).trans (.of_grid_eq rfl)
    · exact Edits.trans (.move (Grid.noNewIds_clearViewport t.grid)) (.of_grid_eq rfl)
  | saved =>
    dsimp only
    split_ifs
    · exact .move ⟨rfl, rfl, rfl, rfl, fun w _ _ => Grid.weight_clearHistory_le t.grid⟩
    · exact .of_grid_eq rfl

theorem edits_putOneTab (t : Crosswords) : t.Edits t.putOneTab := by
  unfold putOneTab
  dsimp only
  generalize nextTab t.tabs t.grid.columns t.grid.columns t.pos.col = col
  generalize (t.grid.cursor.charsets.get t.activeCharset).map '\t' = c
  have hset : t.grid.NoNewIds (t.grid.modifyCursorCell fun cell =>
      if cell.c = '\x00' then cell.setC c else cell) :=
    Grid.noNewIds_modifyCell t.grid _ fun w hw cell => by
      split_ifs
      · exact (hw.setC c cell).le
      · exact le_rfl
  exact .move (hset.trans (.of_eq rfl rfl rfl rfl rfl))

theorem edits_putTab (t : Crosswords) (count : ℕ) : t.Edits (t.putTab count) := by
  have htabs := Edits.iterate edits_putOneTab count t
  unfold putTab
  dsimp only
  split_ifs
  · exact edits_wrapline t
  · exact htabs.trans (.of_grid_eq rfl)
  · exact htabs

/-! ### Attributes and graphics -/

theorem edits_terminalAttribute (t : Crosswords) (attr : Attr) :
    t.Edits (t.terminalAttribute attr) := by
  unfold terminalAttribute
  split
  · exact .edit (.setTemplateStyle _)
  · exact .refl t

theorem edits_setHyperlink (t : Crosswords) (hyperlink : Option Hyperlink) :
    t.Edits (t.setHyperlink hyperlink) := by
  cases hyperlink with
  | none => exact .edit .endHyperlink
  | some hl => exact .edit (.startHyperlink hl)

theorem edits_placeGraphicRow (g : Grid Square) (line : ℤ) (leftmost offsetY : ℕ)
    (texture : TextureRef) (offsets : List ℕ) :
    Relation.ReflTransGen Grid.Edit g
      (placeGraphicRow g line leftmost offsetY texture offsets) := by
  unfold placeGraphicRow
  induction offsets.zipIdx generalizing g with
  | nil => exact .refl
  | cons offset offsets ih =>
    obtain ⟨offsetX, i⟩ := offset
    rw [List.foldl_cons]
    refine Relation.ReflTransGen.trans ?_ (ih _)
    dsimp only
    split_ifs
    · exact .single (.placeGraphic _ _)
    · exact .refl

theorem edits_fillGraphicRow (scrolling : Bool) (leftmost : ℕ) (texture : TextureRef)
    (width height cellWidth cellHeight : ℕ) (t : Crosswords) (row : ℕ × ℕ) :
    t.Edits (fillGraphicRow scrolling leftmost texture width height cellWidth cellHeight t row) := by
  unfold fillGraphicRow
  dsimp only
  generalize (if scrolling then t.pos.row else (row.2 : ℤ)) = line
  have hplaced : t.Edits (t.mapGrid fun g =>
      placeGraphicRow g line leftmost row.1 texture (cellOffsets width cellWidth)) :=
    edits_placeGraphicRow t.grid line leftmost row.1 texture _
  split_ifs
  · exact .refl t
  · refine Edits.trans ?_ (edits_linefeed _)
    exact hplaced.trans (.of_grid_eq rfl)
  · exact hplaced.trans (.of_grid_eq rfl)

theorem edits_insertGraphic (t : Crosswords) (textureId graphicWidth displayW displayH : ℕ)
    (cursorMovement : Option UInt8) :
    t.Edits (t.insertGraphic textureId graphicWidth displayW displayH cursorMovement) := by
  have hfilled (texture : TextureRef) : t.Edits (t.fillGraphic texture displayW displayH) :=
    .foldl (edits_fillGraphicRow _ _ texture _ _ _ _) _ t
  unfold insertGraphic
  by_cases hlarge : maxGraphicDimension < displayW ∨ maxGraphicDimension < displayH
  · rw [if_pos hlarge]
    exact .refl t
  rw [if_neg hlarge]
  by_cases hempty : displayW = 0 ∨ displayH = 0
  · rw [if_pos hempty]
    exact .refl t
  rw [if_neg hempty]
  have hafter := hfilled ⟨textureId, displayW.toUInt16, displayH.toUInt16, t.cellHeight⟩
  dsimp only
  generalize t.fillGraphic _ displayW displayH = t₁ at hafter ⊢
  have hmoved (cols : ℕ) : t.Edits (t₁.moveForward cols) :=
    hafter.trans (.of_eq rfl rfl rfl rfl rfl)
  have hreturned : t.Edits t₁.carriageReturn := hafter.trans (.of_eq rfl rfl rfl rfl rfl)
  split
  · split_ifs
    · exact hmoved _
    · exact hreturned
    · exact hafter
  · split_ifs
    · exact hmoved _
    · exact hreturned
    · exact hafter
  · exact hafter
  · split_ifs
    · exact hreturned
    · exact hafter

theorem edits_placeKittyOverlay (t : Crosswords) (rows : ℕ) (cursorMovement : UInt8) :
    t.Edits (t.placeKittyOverlay rows cursorMovement) := by
  unfold placeKittyOverlay
  split_ifs
  · exact .refl t
  · exact (Edits.iterate edits_linefeed (rows - 1) t).trans (.of_eq rfl rfl rfl rfl rfl)

theorem edits_deleteGraphicAtPosition (t : Crosswords) (col : ℕ) (row : ℤ) :
    t.Edits (t.deleteGraphicAtPosition col row) := by
  have hcleared : t.Edits (t.mapGrid (·.clearGraphicAt ⟨row, col⟩)) := .edit (.clearGraphic _)
  unfold deleteGraphicAtPosition
  dsimp only
  split_ifs
  · exact hcleared.trans (.of_grid_eq rfl)
  · exact hcleared
  · exact .refl t

theorem edits_deleteGraphics (t : Crosswords) (action : Char) (x y : ℕ) :
    t.Edits (t.deleteGraphics action x y) := by
  have hrow (t : Crosswords) (row : ℤ) :
      t.Edits ((t.mapGrid fun g =>
        (List.range g.columns).foldl (fun g col => g.clearGraphicAt ⟨row, col⟩) g).damageLine
          row.toNat) :=
    Edits.trans (.mapGrid_foldl (fun _ _ => .clearGraphic _) (List.range t.grid.columns) t)
      (.of_grid_eq rfl)
  unfold deleteGraphics
  split_ifs
  · exact .foldl (fun t line => hrow t line) _ t
  · exact edits_deleteGraphicAtPosition t _ _
  · exact edits_deleteGraphicAtPosition t _ _
  · exact .refl t
  · unfold deleteGraphicsInColumn
    split_ifs
    · exact .foldl (fun t line => edits_deleteGraphicAtPosition t _ line) _ t
    · exact .refl t
  · exact .refl t
  · unfold deleteGraphicsInRow
    split_ifs
    · exact hrow t _
    · exact .refl t
  · exact .refl t
  · exact .refl t

theorem edits_setScrollingRegion (t : Crosswords) (top : ℕ) (bottom : Option ℕ) :
    t.Edits (t.setScrollingRegion top bottom) := by
  unfold setScrollingRegion
  dsimp only
  split_ifs
  · exact .refl t
  · refine Edits.trans ?_ (edits_goto _ 0 0)
    exact .of_grid_eq rfl

theorem edits_deccolm (t : Crosswords) : t.Edits t.deccolm := by
  unfold deccolm
  have hset := edits_setScrollingRegion t 1 none
  exact (hset.trans (edits_resetRegion _ _)).trans (.of_grid_eq rfl)

/-! ### What is not on the screen -/

theorem setColor_grid (t : Crosswords) (index : ℕ) (color : ColorRgb) :
    (t.setColor index color).grid = t.grid := by
  unfold setColor
  dsimp only
  split_ifs <;> rfl

theorem resetColor_grid (t : Crosswords) (index : ℕ) : (t.resetColor index).grid = t.grid := by
  unfold resetColor
  dsimp only
  split_ifs <;> rfl

theorem edits_scrollDisplay (t : Crosswords) (scroll : Scroll) :
    t.Edits (t.scrollDisplay scroll) := by
  unfold scrollDisplay
  dsimp only
  split_ifs <;> exact .of_eq rfl rfl rfl rfl rfl

theorem toggleViMode_grids (t : Crosswords) :
    t.toggleViMode.grid = t.grid ∧ t.toggleViMode.inactiveGrid = t.inactiveGrid := by
  unfold toggleViMode
  dsimp only
  split_ifs <;> exact ⟨rfl, rfl⟩

theorem popKeyboardModes_grids (t : Crosswords) (toPop : ℕ) :
    (t.popKeyboardModes toPop).grid = t.grid ∧
      (t.popKeyboardModes toPop).inactiveGrid = t.inactiveGrid := by
  obtain ⟨stack, idx, heq⟩ := popKeyboardMode_iterate t toPop
  unfold popKeyboardModes
  split_ifs
  · exact ⟨rfl, rfl⟩
  · rw [heq]
    exact ⟨rfl, rfl⟩

theorem setScrollingRegion_inactiveGrid (t : Crosswords) (top : ℕ) (bottom : Option ℕ) :
    (t.setScrollingRegion top bottom).inactiveGrid = t.inactiveGrid := by
  unfold setScrollingRegion
  dsimp only
  split_ifs
  · rfl
  · exact (frame_goto _ 0 0).inactiveGrid

/-! ### Steps -/

/-- The operations that exchange the screens or work on both. -/
def BothScreens : Op → Prop
  | .setPrivateMode (.named .swapScreenAndSetRestoreCursor)
  | .unsetPrivateMode (.named .swapScreenAndSetRestoreCursor) | .resetState | .resize _ _ _ _ =>
    True
  | _ => False

/-- Every other operation leaves the inactive screen alone. -/
theorem step_inactiveGrid (u : Unicode) (t : Crosswords) {op : Op} (hone : ¬ BothScreens op) :
    (t.step u op).inactiveGrid = t.inactiveGrid := by
  by_cases hedits : EditsScreen op
  · exact (step_frame u t hedits).inactiveGrid
  cases op with
  | setScrollingRegion top bottom => exact setScrollingRegion_inactiveGrid t top bottom
  | setMode mode => cases mode <;> rfl
  | unsetMode mode => cases mode <;> rfl
  | setPrivateMode mode =>
    rcases mode with mode | mode
    · cases mode with
      | swapScreenAndSetRestoreCursor => exact absurd trivial hone
      | columnMode => exact setScrollingRegion_inactiveGrid t 1 none
      | _ => rfl
    · rfl
  | unsetPrivateMode mode =>
    rcases mode with mode | mode
    · cases mode with
      | swapScreenAndSetRestoreCursor => exact absurd trivial hone
      | columnMode => exact setScrollingRegion_inactiveGrid t 1 none
      | _ => rfl
    · rfl
  | popKeyboardModes toPop => exact (popKeyboardModes_grids t toPop).2
  | toggleViMode => exact (toggleViMode_grids t).2
  | setKeypadApplicationMode | unsetKeypadApplicationMode | setKeyboardMode _ _
  | pushKeyboardMode _ => rfl
  | resetState | resize _ _ _ _ => exact absurd trivial hone
  | _ => exact absurd trivial hedits

/-- Every other operation edits the active screen and leaves the inactive one alone. -/
theorem step_edits (u : Unicode) (t : Crosswords) (hpos : 0 < t.grid.styleSet.styles.length)
    {op : Op} (hone : ¬ BothScreens op) :
    t.Edits (t.step u op) ∧ (t.step u op).inactiveGrid = t.inactiveGrid := by
  refine ⟨?_, step_inactiveGrid u t hone⟩
  cases op with
  | input c => exact edits_input t u c
  | goto line col => exact edits_goto t line col
  | gotoLine line => exact edits_goto t line _
  | gotoCol col => exact edits_goto t _ col
  | moveUp rows => exact edits_goto t _ _
  | moveDown rows => exact edits_goto t _ _
  | moveForward cols => exact .of_eq rfl rfl rfl rfl rfl
  | moveBackward cols => exact .of_eq rfl rfl rfl rfl rfl
  | moveDownAndCr rows => exact edits_goto t _ 0
  | moveUpAndCr lines => exact edits_goto t _ 0
  | moveForwardTabs count => exact .of_eq rfl rfl rfl rfl rfl
  | moveBackwardTabs count => exact .of_eq rfl rfl rfl rfl rfl
  | putTab count => exact edits_putTab t count
  | backspace => exact edits_backspace t
  | carriageReturn => exact .of_eq rfl rfl rfl rfl rfl
  | linefeed => exact edits_linefeed t
  | newline => exact edits_newline t
  | reverseIndex => exact edits_reverseIndex t
  | saveCursorPosition => exact .edit .save
  | restoreCursorPosition => exact .edit .restore
  | setScrollingRegion top bottom => exact edits_setScrollingRegion t top bottom
  | scrollUp lines => exact edits_scrollUpRelative t _ lines
  | scrollDown lines => exact edits_scrollDownRelative t _ lines
  | insertBlankLines lines => exact edits_insertBlankLines t lines
  | deleteLines lines => exact edits_deleteLines t lines
  | insertBlank count => exact edits_insertBlank t hpos count
  | deleteChars count => exact edits_deleteChars t hpos count
  | eraseChars count => exact edits_eraseChars t hpos count
  | clearLine mode => exact edits_clearLine t hpos mode
  | clearScreen mode => exact edits_clearScreen t hpos mode
  | decaln => exact edits_decaln t
  | clearTabs mode => cases mode <;> exact .refl t
  | setHorizontalTabstop => exact .refl t
  | terminalAttribute attr => exact edits_terminalAttribute t attr
  | setHyperlink hyperlink => exact edits_setHyperlink t hyperlink
  | configureCharset index charset => exact .of_eq rfl rfl rfl rfl rfl
  | setActiveCharset index => exact .refl t
  | setMode mode => cases mode <;> exact .refl t
  | unsetMode mode => cases mode <;> exact .refl t
  | setPrivateMode mode =>
    rcases mode with mode | mode
    · cases mode with
      | swapScreenAndSetRestoreCursor => exact absurd trivial hone
      | columnMode => exact edits_deccolm t
      | _ => exact .refl t
    · exact .refl t
  | unsetPrivateMode mode =>
    rcases mode with mode | mode
    · cases mode with
      | swapScreenAndSetRestoreCursor => exact absurd trivial hone
      | columnMode => exact edits_deccolm t
      | _ => exact .refl t
    · exact .refl t
  | setKeypadApplicationMode => exact .refl t
  | unsetKeypadApplicationMode => exact .refl t
  | setKeyboardMode mode apply => exact .refl t
  | pushKeyboardMode mode => exact .refl t
  | popKeyboardModes toPop => exact .of_grid_eq (popKeyboardModes_grids t toPop).1
  | setColor index color => exact .of_grid_eq (setColor_grid t index color)
  | resetColor index => exact .of_grid_eq (resetColor_grid t index)
  | insertGraphic textureId graphicWidth displayW displayH cursorMovement =>
    exact edits_insertGraphic t textureId graphicWidth displayW displayH cursorMovement
  | placeKittyOverlay rows cursorMovement => exact edits_placeKittyOverlay t rows cursorMovement
  | deleteGraphics action x y => exact edits_deleteGraphics t action x y
  | scrollDisplay scroll => exact edits_scrollDisplay t scroll
  | updateHistory historySize =>
    exact .move ⟨rfl, rfl, rfl, rfl, fun _ _ _ => Grid.weight_updateHistory_le t.grid _⟩
  | toggleViMode => exact .of_grid_eq (toggleViMode_grids t).1
  | resetState | resize _ _ _ _ => exact absurd trivial hone

end Crosswords
end Rio
