import Rio.Crosswords.Edits

/-! Which screen's tables the ids on a screen belong to, over runs. Each screen has tables of its
own, and the cursor of the primary screen goes over to the alternate one with the ids it holds. -/

set_option linter.dupNamespace false

namespace Rio

namespace Grid

variable {g g' : Grid Square}

/-- The hyperlink of a cell. -/
def hyperlinkOf (g : Grid Square) (square : Square) : Option Hyperlink :=
  if square.flags.hyperlink then
    (square.extrasId.bind g.extrasTable.get).bind (·.hyperlink)
  else none

/-- The style and the hyperlink that a template gives to a character printed with it. -/
def pen (g : Grid Square) (template : Square) : Style × Option Hyperlink :=
  (g.styleOf template, g.hyperlinkOf template)

theorem Owned.noNewIds (h : g.Owned) (hmove : g.NoNewIds g') : g'.Owned :=
  h.of_weight_le (hmove.weight_le _ h.ofIds h.clean) hmove.template hmove.savedTemplate
    hmove.styleSet hmove.extrasTable

theorem Owned.penCell (h : g.Owned) {c : Square} (hc : g.PenCell c) :
    c.Issued g.styleSet g.extrasTable := by
  obtain ⟨htag, hlo, hhi⟩ := hc
  have htext : c.tag = g.cursor.template.tag := by
    have := h.text
    unfold Square.isBgOnly at this
    rw [htag]
    exact (by simpa using this : g.cursor.template.tag = .codepoint).symm
  exact h.template.of_ids htext hlo hhi

theorem Blank.issued {c : Square} (hc : g.Blank c) : c.Issued g.styleSet g.extrasTable := by
  intro htext
  rcases hc.2 with hbg | ⟨hhi, hlo⟩
  · exact absurd (hbg.symm.trans htext) (by decide)
  · exact ⟨hlo, fun _ hid => absurd (hhi.symm.trans (Square.extrasId_eq_some.mp hid).1).symm
      (Square.extrasId_eq_some.mp hid).2⟩

theorem Owned.pushZeroWidth (h : g.Owned) (p : Pos) (ch : Char) :
    (Crosswords.pushZeroWidth g p ch).Owned := by
  unfold Crosswords.pushZeroWidth
  split
  · next id hid =>
    have hmodified := h.of_tables (s := g.styleSet) le_rfl
      (ExtrasTable.modify_length g.extrasTable id fun e =>
        { e with zerowidth := e.zerowidth ++ [ch] }).ge (h.extras.modify id _)
    exact hmodified.modifyCell p fun _ _ _ => le_rfl
  · next hid =>
    obtain ⟨hvalid, hlt⟩ := h.extras.alloc { zerowidth := [ch] }
    have halloc := h.of_tables (s := g.styleSet) le_rfl
      (g.extrasTable.alloc_length_le { zerowidth := [ch] }) hvalid
    refine halloc.of_weight_le (weight_modifyCell_le (fun c => foreignIds_le fun hc => ?_) _ p)
      rfl rfl rfl rfl
    exact (hc.setExtrasId fun i hi => (Option.some.inj hi) ▸ hlt).of_ids rfl rfl rfl

theorem Owned.placeGraphicCell (h : g.Owned) (p : Pos) (graphic : GraphicCell) :
    (Crosswords.placeGraphicCell g p graphic).Owned := by
  have hcell : (if (g.cell p).isBgOnly then (g.cell p).clear else g.cell p).Issued g.styleSet
      g.extrasTable := by
    split_ifs
    · exact Square.issued_blank h.styles
    · exact h.cell p
  unfold Crosswords.placeGraphicCell
  dsimp only
  generalize (if (g.cell p).isBgOnly then (g.cell p).clear else g.cell p) = cell at hcell ⊢
  rcases hid : cell.extrasId with _ | eid
  · obtain ⟨hvalid, hlt⟩ := h.extras.alloc { graphic := some [graphic] }
    have hle := g.extrasTable.alloc_length_le { graphic := some [graphic] }
    dsimp only
    generalize g.extrasTable.alloc { graphic := some [graphic] } = allocated at hvalid hlt hle ⊢
    have halloc := h.of_tables (s := g.styleSet) le_rfl hle hvalid
    refine halloc.setCell p ?_
    exact ((hcell.mono le_rfl hle).setExtrasId
      fun i hi => (Option.some.inj hi) ▸ hlt).of_ids rfl rfl rfl
  · have hle := ExtrasTable.modify_length g.extrasTable eid fun e =>
      { e with graphic := some [graphic] }
    have hvalid := h.extras.modify eid fun e => { e with graphic := some [graphic] }
    dsimp only
    generalize g.extrasTable.modify eid (fun e => { e with graphic := some [graphic] }) = e
      at hle hvalid ⊢
    have hmodified := h.of_tables (s := g.styleSet) le_rfl hle.ge hvalid
    exact hmodified.setCell p ((hcell.mono le_rfl hle.ge).of_ids rfl rfl rfl)

/-- Every edit keeps the ids of a screen its own. -/
theorem Owned.edit (h : g.Owned) (hedit : g.Edit g') : g'.Owned := by
  cases hedit with
  | move hmove => exact h.noNewIds hmove
  | fill line hc hf =>
    exact h.of_weight_le (weight_modifyRow_le
      (hf _ h.ofIds (foreignIds_eq_zero_iff.mpr hc.issued)) g line) rfl rfl rfl rfl
  | write p hc => exact h.setCell p (h.penCell hc)
  | relocate p q hc hmove hbase =>
    have hmoved := (h.setCell p (h.penCell hc)).noNewIds hmove
    refine hmoved.setCell q ?_
    rw [hmove.styleSet, hmove.extrasTable]
    exact (h.cell p).of_ids hbase.1 hbase.2.1 hbase.2.2.1
  | intern style => exact h.intern style
  | setTemplateStyle style => exact h.setTemplateStyle style
  | startHyperlink hl =>
    obtain ⟨hvalid, hlt⟩ := h.extras.alloc { hyperlink := some hl }
    have halloc := h.of_tables (s := g.styleSet) le_rfl
      (g.extrasTable.alloc_length_le { hyperlink := some hl }) hvalid
    refine halloc.setTemplate ?_ h.text
    exact (halloc.template.setExtrasId fun i hi => (Option.some.inj hi) ▸ hlt).of_ids rfl rfl rfl
  | endHyperlink =>
    refine h.setTemplate ?_ h.text
    have hunset : (g.cursor.template.setExtrasId none).Issued g.styleSet g.extrasTable :=
      h.template.setExtrasId fun i hi => absurd hi (by simp)
    exact hunset.of_ids rfl rfl rfl
  | save => exact ⟨⟨h.cells, h.template, h.template⟩, h.styles, h.extras, h.text, h.text⟩
  | restore =>
    exact ⟨⟨h.cells, h.savedTemplate, h.savedTemplate⟩, h.styles, h.extras, h.savedText,
      h.savedText⟩
  | zeroWidth p ch => exact h.pushZeroWidth p ch
  | placeGraphic p graphic => exact h.placeGraphicCell p graphic
  | clearGraphic p => exact h.clearGraphicAt p

theorem Owned.edits (h : g.Owned) (hedits : Relation.ReflTransGen Edit g g') : g'.Owned := by
  induction hedits with
  | refl => exact h
  | tail _ hedit ih => exact ih.edit hedit

theorem new_owned (lines columns maxScrollLimit : ℕ) :
    (new lines columns maxScrollLimit : Grid Square).Owned := by
  have hpos : 0 < StyleSet.new.styles.length := by decide
  have hblank : (default : Square).Issued StyleSet.new ExtrasTable.new := Square.issued_blank hpos
  refine ⟨⟨fun r hr c hc => ?_, hblank, hblank⟩, hpos, ⟨Nat.one_pos, ?_⟩, rfl, rfl⟩
  · have hrow := List.eq_of_mem_replicate hr
    rw [hrow] at hc
    rw [List.eq_of_mem_replicate hc]
    exact hblank
  · exact fun id hid => absurd hid List.not_mem_nil

end Grid

namespace Crosswords
open Rio.Runs

/-- Every id on either screen has been issued by the tables of that screen. -/
def HoldsOwnIds (t : Crosswords) : Prop := t.grid.HoldsOwnIds ∧ t.inactiveGrid.HoldsOwnIds

/-- The style and the hyperlink of the next printed character. -/
def pen (t : Crosswords) : Style × Option Hyperlink := t.grid.pen t.grid.cursor.template

/-- The operation leaves all ids on their own screens. Entering the alternate screen leaves the
pen as it was, and leaving it restores the pen saved with the cursor of the primary screen. -/
structure KeepsIdSpaces (u : Unicode) (t : Crosswords) (op : Op) : Prop where
  own : (t.step u op).HoldsOwnIds
  entering : op = .setPrivateMode (.named .swapScreenAndSetRestoreCursor) →
    (t.step u op).pen = t.pen
  leaving : op = .unsetPrivateMode (.named .swapScreenAndSetRestoreCursor) → t.mode.altScreen →
    (t.step u op).pen = t.inactiveGrid.pen t.inactiveGrid.savedCursor.template

/-- Where the alternate screen is entered, the ids of the pen have been issued there too, and
stand for the same style and hyperlink. -/
def PenMeansTheSame (t : Crosswords) (op : Op) : Prop :=
  op = .setPrivateMode (.named .swapScreenAndSetRestoreCursor) → t.mode.altScreen = false →
    t.grid.cursor.template.Issued t.inactiveGrid.styleSet t.inactiveGrid.extrasTable ∧
      t.inactiveGrid.pen t.grid.cursor.template = t.grid.pen t.grid.cursor.template

/-- What holds of the ids in every state of a run that keeps them apart. -/
structure IdsApart (t : Crosswords) : Prop where
  grid : t.grid.Owned
  inactive : t.inactiveGrid.Owned
  restorable : t.mode.altScreen →
    t.inactiveGrid.cursor.template = t.inactiveGrid.savedCursor.template

variable {t t' : Crosswords}

theorem IdsApart.holdsOwnIds (h : t.IdsApart) : t.HoldsOwnIds :=
  ⟨h.grid.toHoldsOwnIds, h.inactive.toHoldsOwnIds⟩

theorem IdsApart.of_edits (h : t.IdsApart) (hedits : t.Edits t')
    (hinactive : t'.inactiveGrid = t.inactiveGrid) (halt : t'.mode.altScreen = t.mode.altScreen) :
    t'.IdsApart := by
  refine ⟨h.grid.edits hedits, ?_, fun h' => ?_⟩
  · rw [hinactive]
    exact h.inactive
  · rw [hinactive]
    exact h.restorable (halt ▸ h')

theorem popKeyboardModes_altScreen (t : Crosswords) (toPop : ℕ) :
    (t.popKeyboardModes toPop).mode.altScreen = t.mode.altScreen := by
  obtain ⟨stack, idx, heq⟩ := popKeyboardMode_iterate t toPop
  unfold popKeyboardModes
  split_ifs
  · rfl
  · rw [heq]
    rfl

theorem setScrollingRegion_mode (t : Crosswords) (top : ℕ) (bottom : Option ℕ) :
    (t.setScrollingRegion top bottom).mode = t.mode := by
  unfold setScrollingRegion
  dsimp only
  split_ifs
  · rfl
  · exact (frame_goto _ 0 0).mode

/-- Only operations on both screens exchange them. -/
theorem step_altScreen (u : Unicode) (t : Crosswords) {op : Op} (hone : ¬ BothScreens op) :
    (t.step u op).mode.altScreen = t.mode.altScreen := by
  by_cases hedits : EditsScreen op
  · exact congrArg Mode.altScreen (step_frame u t hedits).mode
  cases op with
  | setScrollingRegion top bottom =>
    exact congrArg Mode.altScreen (setScrollingRegion_mode t top bottom)
  | setMode mode => cases mode <;> rfl
  | unsetMode mode => cases mode <;> rfl
  | setPrivateMode mode =>
    rcases mode with mode | mode
    · cases mode with
      | swapScreenAndSetRestoreCursor => exact absurd trivial hone
      | columnMode => exact congrArg Mode.altScreen (setScrollingRegion_mode t 1 none)
      | _ => rfl
    · exact withUnknownMode_altScreen t.mode true mode
  | unsetPrivateMode mode =>
    rcases mode with mode | mode
    · cases mode with
      | swapScreenAndSetRestoreCursor => exact absurd trivial hone
      | columnMode => exact congrArg Mode.altScreen (setScrollingRegion_mode t 1 none)
      | _ => rfl
    · exact withUnknownMode_altScreen t.mode false mode
  | popKeyboardModes toPop => exact popKeyboardModes_altScreen t toPop
  | toggleViMode =>
    show t.toggleViMode.mode.altScreen = t.mode.altScreen
    unfold toggleViMode
    dsimp only
    split_ifs <;> rfl
  | setKeypadApplicationMode | unsetKeypadApplicationMode | setKeyboardMode _ _
  | pushKeyboardMode _ => rfl
  | resetState | resize _ _ _ _ => exact absurd trivial hone
  | _ => exact absurd trivial hedits

/-! ### Both screens at once -/

theorem IdsApart.enter (h : t.IdsApart) (halt : t.mode.altScreen = false)
    (hissued : t.grid.cursor.template.Issued t.inactiveGrid.styleSet t.inactiveGrid.extrasTable) :
    t.swapAlt.IdsApart := by
  unfold swapAlt
  rw [if_neg (by simp [halt])]
  have hinactive := h.inactive
  have hentered : Grid.Owned { t.inactiveGrid with cursor := t.grid.cursor } :=
    ⟨⟨hinactive.cells, hissued, hinactive.savedTemplate⟩, hinactive.styles, hinactive.extras,
      h.grid.text, hinactive.savedText⟩
  have hsaved : Grid.Owned { t.grid with savedCursor := t.grid.cursor } :=
    h.grid.edit .save
  exact ⟨hentered.resetRegion _, hsaved, fun _ => rfl⟩

theorem IdsApart.leave (h : t.IdsApart) (halt : t.mode.altScreen = true) : t.swapAlt.IdsApart := by
  unfold swapAlt
  rw [if_pos halt]
  refine ⟨h.inactive, h.grid, fun h' => ?_⟩
  have hoff : (!t.mode.altScreen) = true := h'
  rw [halt] at hoff
  exact absurd hoff (by decide)

theorem IdsApart.resetState (h : t.IdsApart) : t.resetState.IdsApart := by
  unfold Crosswords.resetState
  dsimp only
  split_ifs
  · exact ⟨h.inactive.reset, h.grid.reset, fun h' => rfl⟩
  · exact ⟨h.grid.reset, h.inactive.reset, fun h' => rfl⟩

theorem IdsApart.resize (h : t.IdsApart) (numCols numLines cellWidth cellHeight : ℕ) :
    (t.resize numCols numLines cellWidth cellHeight).IdsApart := by
  unfold Crosswords.resize
  dsimp only
  by_cases hsame : t.grid.columns = numCols ∧ t.grid.lines = numLines
  · rwa [if_pos hsame]
  · rw [if_neg hsame]
    refine ⟨h.grid.resize _ _ _, h.inactive.resize _ _ _, fun halt => ?_⟩
    have hframe := Grid.resize_frame t.inactiveGrid t.mode.altScreen numLines numCols
    exact (hframe.1.trans (h.restorable halt)).trans hframe.2.1.symm

theorem IdsApart.step (h : t.IdsApart) (u : Unicode) {op : Op} (hpen : PenMeansTheSame t op) :
    (t.step u op).IdsApart := by
  by_cases hone : BothScreens op
  · cases op with
    | setPrivateMode mode =>
      rcases mode with mode | mode
      · cases mode with
        | swapScreenAndSetRestoreCursor =>
          show (if t.mode.altScreen then t else t.swapAlt).IdsApart
          split_ifs with halt
          · exact h
          · have halt' : t.mode.altScreen = false := by simpa using halt
            exact h.enter halt' (hpen rfl halt').1
        | _ => exact hone.elim
      · exact hone.elim
    | unsetPrivateMode mode =>
      rcases mode with mode | mode
      · cases mode with
        | swapScreenAndSetRestoreCursor =>
          show (if t.mode.altScreen then t.swapAlt else t).IdsApart
          split_ifs with halt
          · exact h.leave halt
          · exact h
        | _ => exact hone.elim
      · exact hone.elim
    | resetState => exact h.resetState
    | resize numCols numLines cellWidth cellHeight =>
      exact h.resize _ _ cellWidth cellHeight
    | _ => exact hone.elim
  · obtain ⟨hedits, hinactive⟩ := step_edits u t h.grid.styles hone
    exact h.of_edits hedits hinactive (step_altScreen u t hone)

/-- What a step does to the pen where it exchanges the screens. -/
theorem keepsIdSpaces_iff (h : t.IdsApart) (u : Unicode) (op : Op) :
    KeepsIdSpaces u t op ↔ PenMeansTheSame t op := by
  constructor
  · rintro hkeeps rfl halt
    have hstep : t.step u (.setPrivateMode (.named .swapScreenAndSetRestoreCursor)) =
        t.swapAlt := by
      show (if t.mode.altScreen then t else t.swapAlt) = t.swapAlt
      rw [if_neg (by simp [halt])]
    have hown := hkeeps.own.1.template
    have hpen := hkeeps.entering rfl
    rw [hstep] at hown hpen
    unfold swapAlt at hown hpen
    rw [if_neg (by simp [halt])] at hown hpen
    exact ⟨hown, hpen⟩
  · intro hpen
    refine ⟨(h.step u hpen).holdsOwnIds, ?_, ?_⟩
    · rintro rfl
      show (if t.mode.altScreen then t else t.swapAlt).pen = t.pen
      split_ifs with halt
      · rfl
      · have halt' : t.mode.altScreen = false := by simpa using halt
        unfold swapAlt
        rw [if_neg halt]
        exact (hpen rfl halt').2
    · rintro rfl halt
      show (if t.mode.altScreen then t.swapAlt else t).pen = _
      rw [if_pos halt]
      unfold swapAlt
      rw [if_pos halt]
      show t.inactiveGrid.pen t.inactiveGrid.cursor.template = _
      rw [h.restorable halt]

theorem new_idsApart (columns lines limit : ℕ) : (new columns lines limit).IdsApart :=
  ⟨Grid.new_owned lines columns limit, Grid.new_owned lines columns 0,
    fun halt => absurd (show false = true from halt) Bool.false_ne_true⟩

/-- The ids of a run stay on their screens, and the pen stays as it is when the screens are
exchanged, exactly when every pen taken over to the alternate screen means the same there. -/
theorem run_keepsIdSpaces_iff (u : Unicode) (columns lines limit : ℕ) {ops : List Op}
    (hsized : ∀ op ∈ ops, op.Sized) :
    (new columns lines limit).HoldsOwnIds ∧
      (Permitted (step u) (KeepsIdSpaces u) (new columns lines limit) ops ↔
        Permitted (step u) PenMeansTheSame (new columns lines limit) ops) := by
  refine ⟨(new_idsApart columns lines limit).holdsOwnIds,
    permitted_congr (p := Op.Sized) (I := IdsApart) ?_ ?_ ops _ hsized
      (new_idsApart columns lines limit)⟩
  · exact fun t op h _ hkeeps => h.step u ((keepsIdSpaces_iff h u op).mp hkeeps)
  · exact fun t op h _ => keepsIdSpaces_iff h u op

theorem run_keepsIdSpaces_plain_pen :
    (new 4 2 5).HoldsOwnIds ∧
      (Permitted (step .basic) (KeepsIdSpaces .basic) (new 4 2 5)
          [.setPrivateMode (.named .swapScreenAndSetRestoreCursor), .resize 3 2 0 0] ↔
        Permitted (step .basic) PenMeansTheSame (new 4 2 5)
          [.setPrivateMode (.named .swapScreenAndSetRestoreCursor), .resize 3 2 0 0]) :=
  run_keepsIdSpaces_iff .basic 4 2 5 (by simp [Op.Sized])

/-- A bold pen goes over to the alternate screen with a number that its table has not issued. -/
theorem enter_with_bold_pen :
    ¬ Permitted (step .basic) (KeepsIdSpaces .basic) (new 4 2 5)
      [.terminalAttribute .bold, .setPrivateMode (.named .swapScreenAndSetRestoreCursor)] := by
  intro h
  have hissued := (h.2.1.own.1.template rfl).1
  exact absurd hissued (by decide)

end Crosswords
end Rio
