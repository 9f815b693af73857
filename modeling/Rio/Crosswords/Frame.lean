import Rio.Crosswords.OpsSound

/-! What most operations leave alone: the modes, the scroll region, the keyboard mode stacks, the
inactive screen and the size of the active one. -/

set_option linter.dupNamespace false

namespace Rio.Crosswords

/-- The part of a terminal that is not the contents of the active screen or its cursor. -/
structure Control where
  mode : Mode
  scrollRegion : Region
  inactiveGrid : Grid Square
  lines : ℕ
  columns : ℕ
  keyboardModeStack : List UInt8
  keyboardModeIdx : ℕ
  inactiveKeyboardModeStack : List UInt8
  inactiveKeyboardModeIdx : ℕ

def control (t : Crosswords) : Control :=
  ⟨t.mode, t.scrollRegion, t.inactiveGrid, t.grid.lines, t.grid.columns, t.keyboardModeStack,
    t.keyboardModeIdx, t.inactiveKeyboardModeStack, t.inactiveKeyboardModeIdx⟩

/-- Only the contents of the active screen, the cursor on it and what is global to printing
change. -/
def Frame (t t' : Crosswords) : Prop := t'.control = t.control

variable {t t' t'' : Crosswords}

namespace Frame

theorem refl (t : Crosswords) : t.Frame t := rfl

theorem trans (h : t.Frame t') (h' : t'.Frame t'') : t.Frame t'' := Eq.trans h' h

theorem mode (h : t.Frame t') : t'.mode = t.mode := congrArg Control.mode h

theorem scrollRegion (h : t.Frame t') : t'.scrollRegion = t.scrollRegion :=
  congrArg Control.scrollRegion h

theorem inactiveGrid (h : t.Frame t') : t'.inactiveGrid = t.inactiveGrid :=
  congrArg Control.inactiveGrid h

theorem lines (h : t.Frame t') : t'.grid.lines = t.grid.lines := congrArg Control.lines h

theorem columns (h : t.Frame t') : t'.grid.columns = t.grid.columns := congrArg Control.columns h

/-- The grid changes and keeps its size. -/
theorem of_grid (hgrid : t'.control = (t.mapGrid fun _ => t'.grid).control)
    (hlines : t'.grid.lines = t.grid.lines) (hcolumns : t'.grid.columns = t.grid.columns) :
    t.Frame t' := by
  unfold Frame
  rw [hgrid]
  unfold control mapGrid
  rw [hlines, hcolumns]

theorem mapGrid (t : Crosswords) {f : Grid Square → Grid Square}
    (hlines : (f t.grid).lines = t.grid.lines) (hcolumns : (f t.grid).columns = t.grid.columns) :
    t.Frame (t.mapGrid f) :=
  of_grid rfl hlines hcolumns

theorem onlyCells (h : t.OnlyCells t') : t.Frame t' := by
  obtain ⟨raw, extrasTable, -, rfl⟩ := h
  exact mapGrid t rfl rfl

theorem damageLine (t : Crosswords) (line : ℕ) : t.Frame (t.damageLine line) := rfl

theorem damageCursor (t : Crosswords) : t.Frame t.damageCursor := rfl

theorem markFullyDamaged (t : Crosswords) : t.Frame t.markFullyDamaged := rfl

theorem damageLines (t : Crosswords) (lines : List ℤ) : t.Frame (t.damageLines lines) := by
  rw [damageLines_eq]
  exact rfl

theorem iterate {f : Crosswords → Crosswords} (hf : ∀ t : Crosswords, t.Frame (f t)) :
    ∀ (count : ℕ) (t : Crosswords), t.Frame (f^[count] t)
  | 0, t => refl t
  | count + 1, t => by
    rw [Function.iterate_succ_apply]
    exact (hf t).trans (iterate hf count (f t))

theorem foldl {β : Type} {f : Crosswords → β → Crosswords}
    (hf : ∀ (t : Crosswords) b, t.Frame (f t b)) :
    ∀ (bs : List β) (t : Crosswords), t.Frame (bs.foldl f t)
  | [], t => refl t
  | b :: bs, t => (hf t b).trans (foldl hf bs (f t b))

theorem mapGrid_foldl {β : Type} (t : Crosswords) {f : Grid Square → β → Grid Square}
    (hf : ∀ g b, (f g b).lines = g.lines ∧ (f g b).columns = g.columns) (bs : List β) :
    t.Frame (t.mapGrid fun g => bs.foldl f g) := by
  induction bs generalizing t with
  | nil => exact refl t
  | cons b bs ih =>
    obtain ⟨hlines, hcolumns⟩ := hf t.grid b
    exact (mapGrid t (f := (f · b)) hlines hcolumns).trans (ih (t.mapGrid (f · b)))

end Frame

/-! ### Cursor and scrolling -/

theorem frame_goto (t : Crosswords) (line : ℤ) (col : ℕ) : t.Frame (t.goto line col) := by
  unfold goto
  split
  exact rfl

theorem frame_backspace (t : Crosswords) : t.Frame t.backspace := by
  unfold backspace
  split_ifs
  · exact rfl
  · exact .refl t

theorem frame_scrollUpRelative (t : Crosswords) (origin : ℤ) (lines : ℕ) :
    t.Frame (t.scrollUpRelative origin lines) := by
  unfold scrollUpRelative
  refine Frame.trans ?_ (.damageLines _ _)
  exact .of_grid rfl (Grid.scrollUp_lines _ _ _) (Grid.scrollUp_columns _ _ _)

theorem frame_scrollDownRelative (t : Crosswords) (origin : ℤ) (lines : ℕ) :
    t.Frame (t.scrollDownRelative origin lines) :=
  .of_grid rfl (Grid.scrollDown_lines _ _ _) (Grid.scrollDown_columns _ _ _)

theorem frame_linefeed (t : Crosswords) : t.Frame t.linefeed := by
  unfold linefeed
  dsimp only
  split_ifs
  · exact frame_scrollUpRelative t _ _
  · exact rfl
  · exact .refl t

theorem frame_newline (t : Crosswords) : t.Frame t.newline := by
  have hfed := frame_linefeed t
  unfold newline
  dsimp only
  split_ifs
  · exact hfed.trans rfl
  · exact hfed

theorem frame_wrapline (t : Crosswords) : t.Frame t.wrapline := by
  by_cases hwrap : t.mode.lineWrap
  · have hmarked : t.Frame (t.mapGrid (·.modifyCursorCell (·.setWrapline true))) :=
      rfl
    obtain ⟨t₁, heq, rfl | ⟨-, rfl⟩⟩ := wrapline_eq hwrap
    · rw [heq]
      exact (hmarked.trans (frame_linefeed _)).trans rfl
    · rw [heq]
      generalize t.mapGrid (·.modifyCursorCell (·.setWrapline true)) = marked at hmarked ⊢
      exact hmarked.trans rfl
  · unfold wrapline
    rw [if_pos (by simpa using hwrap)]
    exact .refl t

theorem frame_deleteLines (t : Crosswords) (lines : ℕ) : t.Frame (t.deleteLines lines) := by
  unfold deleteLines
  dsimp only
  split_ifs
  · exact frame_scrollUpRelative t _ _
  · exact .refl t

theorem frame_insertBlankLines (t : Crosswords) (lines : ℕ) :
    t.Frame (t.insertBlankLines lines) := by
  unfold insertBlankLines
  dsimp only
  split_ifs
  · exact frame_scrollDownRelative t _ _
  · exact .refl t

theorem frame_reverseIndex (t : Crosswords) : t.Frame t.reverseIndex := by
  unfold reverseIndex
  split_ifs
  · exact frame_scrollDownRelative t _ _
  · exact rfl

/-! ### Printing -/

theorem frame_advance (t : Crosswords) : t.Frame t.advance := by
  unfold advance
  split_ifs <;> exact rfl

theorem frame_writeTagged (t : Crosswords) (c : Char) (tag : Wide) :
    t.Frame (t.writeTagged c tag) :=
  .onlyCells (onlyCells_writeTagged t c tag)

theorem frame_widenOnNextRow (t : Crosswords) (baseCol : ℕ) (base : Square) :
    t.Frame (t.widenOnNextRow baseCol base) := by
  unfold widenOnNextRow
  dsimp only
  have hmoved : t.Frame (t.mapGrid fun g => (g.setCol baseCol).setShouldWrap false) :=
    rfl
  have hwrapped := (hmoved.trans (frame_writeTagged _ ' ' .leadingSpacer)).trans (frame_wrapline _)
  generalize ((t.mapGrid fun g => (g.setCol baseCol).setShouldWrap false).writeTagged
    ' ' .leadingSpacer).wrapline = t₁ at hwrapped ⊢
  have hwritten := (hwrapped.trans (.mapGrid t₁ (f := fun g =>
    (g.modifyCell ⟨t₁.pos.row, 0⟩ fun _ => base.setWide .wide).setCol 1) rfl rfl)).trans
    (frame_writeTagged _ ' ' .spacer)
  generalize (t₁.mapGrid fun g => (g.modifyCell ⟨t₁.pos.row, 0⟩
    fun _ => base.setWide .wide).setCol 1).writeTagged ' ' .spacer = t₂ at hwritten ⊢
  refine Frame.trans ?_ (.damageLine _ _)
  refine Frame.trans ?_ (.damageLine _ _)
  split_ifs
  · exact hwritten.trans (.mapGrid t₂ rfl rfl)
  · exact hwritten.trans (.mapGrid t₂ rfl rfl)

theorem frame_widenInPlace (t : Crosswords) (baseCol : ℕ) : t.Frame (t.widenInPlace baseCol) := by
  unfold widenInPlace
  dsimp only
  refine Frame.trans ?_ (.damageLine _ _)
  refine Frame.trans ?_ (frame_advance _)
  refine Frame.trans ?_ (frame_writeTagged _ ' ' .spacer)
  exact rfl

theorem frame_applyEmojiVs16 (t : Crosswords) (u : Unicode) : t.Frame (t.applyEmojiVs16 u) := by
  unfold applyEmojiVs16
  dsimp only
  split_ifs
  · exact .refl t
  · exact .refl t
  · exact .refl t
  · exact frame_widenOnNextRow t _ _
  · exact frame_widenInPlace t _

theorem frame_applyEmojiVs15 (t : Crosswords) (u : Unicode) : t.Frame (t.applyEmojiVs15 u) := by
  unfold applyEmojiVs15
  dsimp only
  split_ifs
  · exact .refl t
  · exact .refl t
  · exact rfl

theorem frame_inputZeroWidth (t : Crosswords) (u : Unicode) (c : Char) :
    t.Frame (t.inputZeroWidth u c) := by
  unfold inputZeroWidth
  dsimp only
  have happlied : t.Frame (if c = '\ufe0f' then t.applyEmojiVs16 u
      else if c = '\ufe0e' then t.applyEmojiVs15 u else t) := by
    split_ifs
    · exact frame_applyEmojiVs16 t u
    · exact frame_applyEmojiVs15 t u
    · exact .refl t
  generalize (if c = '\ufe0f' then t.applyEmojiVs16 u
    else if c = '\ufe0e' then t.applyEmojiVs15 u else t) = t₁ at happlied ⊢
  refine (happlied.trans ?_).trans (.damageLine _ _)
  generalize (⟨t₁.pos.row, _⟩ : Pos) = p
  obtain ⟨f, extrasTable, heq⟩ := pushZeroWidth_eq t₁.grid p c
  refine .mapGrid t₁ ?_ ?_
  · rw [heq]
    rfl
  · rw [heq]
    rfl

theorem frame_fitWide (t : Crosswords) : t.Frame t.fitWide := by
  unfold fitWide
  split_ifs
  · exact (frame_writeTagged t ' ' .leadingSpacer).trans (frame_wrapline _)
  · exact .refl t

theorem frame_inputWide (t : Crosswords) (c : Char) : t.Frame (t.inputWide c) := by
  unfold inputWide
  split_ifs
  · exact rfl
  · refine Frame.trans ?_ (frame_advance _)
    refine Frame.trans ?_ (.damageCursor _)
    refine Frame.trans ?_ (frame_writeTagged _ ' ' .spacer)
    have hwritten := (frame_fitWide t).trans (frame_writeTagged _ c .wide)
    generalize t.fitWide.writeTagged c .wide = written at hwritten ⊢
    exact hwritten.trans (.mapGrid written rfl rfl)

theorem frame_inputVisible (t : Crosswords) (c : Char) (width : ℕ) :
    t.Frame (t.inputVisible c width) := by
  unfold inputVisible
  have hwrapped : t.Frame (if t.grid.cursor.shouldWrap then t.wrapline else t) := by
    split_ifs
    · exact frame_wrapline t
    · exact .refl t
  dsimp only
  generalize (if t.grid.cursor.shouldWrap then t.wrapline else t) = t₁ at hwrapped ⊢
  have hprepared := hwrapped.trans
    (.onlyCells ((onlyCells_shiftForInsert t₁ width).trans (onlyCells_markPlaceholder _ c)))
  split_ifs
  · refine Frame.trans ?_ (frame_advance _)
    refine Frame.trans ?_ (.damageCursor _)
    exact hprepared.trans (.onlyCells (onlyCells_writeAtCursor _ c))
  · exact hprepared.trans (frame_inputWide _ c)

theorem frame_input (t : Crosswords) (u : Unicode) (c : Char) : t.Frame (t.input u c) := by
  unfold input
  rcases u.width c with _ | width
  · exact .refl t
  · dsimp only
    split_ifs
    · exact frame_inputZeroWidth t u c
    · exact frame_inputVisible t c width

/-! ### Editing, attributes and graphics -/

theorem frame_withBlank (t : Crosswords) {f : Crosswords → Square → Crosswords}
    (hf : ∀ (t : Crosswords) blank, t.Frame (f t blank)) : t.Frame (t.withBlank f) := by
  have hgrid := Grid.templateBlank_eq t.grid
  refine Frame.trans (Frame.mapGrid t (f := fun g => g.templateBlank.1) ?_ ?_) (hf _ _)
  · rw [hgrid]
  · rw [hgrid]

theorem frame_clearLine (t : Crosswords) (mode : LineClearMode) : t.Frame (t.clearLine mode) := by
  unfold clearLine
  refine frame_withBlank t fun t blank => ?_
  cases mode with
  | right =>
    dsimp only
    split_ifs
    · exact .refl t
    · exact rfl
  | left => exact rfl
  | all => exact rfl

theorem frame_decaln (t : Crosswords) : t.Frame t.decaln := by
  have hfilled := Frame.mapGrid_foldl t (f := fun g line =>
    g.modifyRow line fun row => row.fill 0 g.columns (Square.setC default 'E'))
    (fun _ _ => ⟨rfl, rfl⟩) (lineRange 0 t.grid.lines)
  exact .of_grid rfl hfilled.lines hfilled.columns

theorem frame_clearScreen (t : Crosswords) (mode : ClearMode) : t.Frame (t.clearScreen mode) := by
  refine frame_withBlank t fun t blank => ?_
  cases mode with
  | above =>
    dsimp only
    refine Frame.trans ?_ (.damageLines _ _)
    split_ifs
    · exact rfl
    · exact rfl
  | below =>
    dsimp only
    refine Frame.trans ?_ (.damageLines _ _)
    split_ifs
    · exact rfl
    · exact rfl
  | all =>
    dsimp only
    refine Frame.trans ?_ (.markFullyDamaged _)
    split_ifs
    · exact rfl
    · exact .of_grid rfl (Grid.scrollUp_lines _ _ _) (Grid.scrollUp_columns _ _ _)
  | saved =>
    dsimp only
    refine Frame.trans ?_ (.markFullyDamaged _)
    split_ifs
    · exact rfl
    · exact .refl t

theorem frame_putOneTab (t : Crosswords) : t.Frame t.putOneTab := by
  unfold putOneTab
  dsimp only
  generalize nextTab t.tabs t.grid.columns t.grid.columns t.pos.col = col
  exact rfl

theorem frame_putTab (t : Crosswords) (count : ℕ) : t.Frame (t.putTab count) := by
  have htabs := Frame.iterate frame_putOneTab count t
  unfold putTab
  dsimp only
  split_ifs
  · exact frame_wrapline t
  · exact htabs.trans (.damageCursor _)
  · exact htabs

theorem frame_terminalAttribute (t : Crosswords) (attr : Attr) :
    t.Frame (t.terminalAttribute attr) := by
  unfold terminalAttribute
  split
  · exact rfl
  · exact .refl t

theorem frame_setHyperlink (t : Crosswords) (hyperlink : Option Hyperlink) :
    t.Frame (t.setHyperlink hyperlink) := by
  cases hyperlink with
  | none => exact rfl
  | some hl => exact rfl

theorem frame_fillGraphicRow (scrolling : Bool) (leftmost : ℕ) (texture : TextureRef)
    (width height cellWidth cellHeight : ℕ) (t : Crosswords) (row : ℕ × ℕ) :
    t.Frame (fillGraphicRow scrolling leftmost texture width height cellWidth cellHeight t row) := by
  unfold fillGraphicRow
  dsimp only
  generalize (if scrolling then t.pos.row else (row.2 : ℤ)) = line
  have hplaced := Frame.onlyCells (onlyCells_placeGraphicRow t line leftmost row.1 texture
    (cellOffsets width cellWidth))
  split_ifs
  · exact .refl t
  · exact (hplaced.trans (.damageLine _ _)).trans (frame_linefeed _)
  · exact hplaced.trans (.damageLine _ _)

theorem frame_insertGraphic (t : Crosswords) (textureId graphicWidth displayW displayH : ℕ)
    (cursorMovement : Option UInt8) :
    t.Frame (t.insertGraphic textureId graphicWidth displayW displayH cursorMovement) := by
  have hfilled (texture : TextureRef) : t.Frame (t.fillGraphic texture displayW displayH) :=
    .foldl (frame_fillGraphicRow _ _ texture _ _ _ _) _ t
  unfold insertGraphic
  by_cases hlarge : maxGraphicDimension < displayW ∨ maxGraphicDimension < displayH
  · rw [if_pos hlarge]
    exact .refl t
  rw [if_neg hlarge]
  by_cases hempty : displayW = 0 ∨ displayH = 0
  · rw [if_pos hempty]
    exact .refl t
  rw [if_neg hempty]
  have hafter := hfilled ⟨textureId, displayW.toUInt16, displayH.toUInt16, t.cellHeight⟩
  dsimp only
  generalize t.fillGraphic _ displayW displayH = t₁ at hafter ⊢
  split
  · split_ifs
    · exact hafter.trans rfl
    · exact hafter.trans rfl
    · exact hafter
  · split_ifs
    · exact hafter.trans rfl
    · exact hafter.trans rfl
    · exact hafter
  · exact hafter
  · split_ifs
    · exact hafter.trans rfl
    · exact hafter

theorem frame_placeKittyOverlay (t : Crosswords) (rows : ℕ) (cursorMovement : UInt8) :
    t.Frame (t.placeKittyOverlay rows cursorMovement) := by
  unfold placeKittyOverlay
  split_ifs
  · exact .refl t
  · exact (Frame.iterate frame_linefeed (rows - 1) t).trans (rfl)

theorem frame_clearGraphicAt (t : Crosswords) (p : Pos) :
    t.Frame (t.mapGrid (·.clearGraphicAt p)) := by
  obtain ⟨f, extrasTable, heq⟩ := Grid.clearGraphicAt_eq t.grid p
  refine .mapGrid t ?_ ?_
  · rw [heq]
    rfl
  · rw [heq]
    rfl

theorem frame_clearGraphicsInRow (t : Crosswords) (row : ℤ) (columns : List ℕ) :
    t.Frame (t.mapGrid fun g => columns.foldl (fun g col => g.clearGraphicAt ⟨row, col⟩) g) := by
  induction columns generalizing t with
  | nil => exact .refl t
  | cons col columns ih => exact (frame_clearGraphicAt t ⟨row, col⟩).trans (ih _)

theorem frame_deleteGraphicAtPosition (t : Crosswords) (col : ℕ) (row : ℤ) :
    t.Frame (t.deleteGraphicAtPosition col row) := by
  have hcleared := frame_clearGraphicAt t ⟨row, col⟩
  unfold deleteGraphicAtPosition
  dsimp only
  split_ifs
  · exact hcleared.trans (.damageLine _ _)
  · exact hcleared
  · exact .refl t

theorem frame_deleteGraphics (t : Crosswords) (action : Char) (x y : ℕ) :
    t.Frame (t.deleteGraphics action x y) := by
  have hrow (t : Crosswords) (row : ℤ) :
      t.Frame ((t.mapGrid fun g =>
        (List.range g.columns).foldl (fun g col => g.clearGraphicAt ⟨row, col⟩) g).damageLine
          row.toNat) :=
    (frame_clearGraphicsInRow t row (List.range t.grid.columns)).trans (.damageLine _ _)
  unfold deleteGraphics
  split_ifs
  · exact .foldl (fun t line => hrow t line) _ t
  · exact frame_deleteGraphicAtPosition t _ _
  · exact frame_deleteGraphicAtPosition t _ _
  · exact .refl t
  · unfold deleteGraphicsInColumn
    split_ifs
    · exact .foldl (fun t line => frame_deleteGraphicAtPosition t _ line) _ t
    · exact .refl t
  · exact .refl t
  · unfold deleteGraphicsInRow
    split_ifs
    · exact hrow t _
    · exact .refl t
  · exact .refl t
  · exact .refl t

theorem frame_setColor (t : Crosswords) (index : ℕ) (color : ColorRgb) :
    t.Frame (t.setColor index color) := by
  unfold setColor
  dsimp only
  split_ifs <;> exact rfl

theorem frame_resetColor (t : Crosswords) (index : ℕ) : t.Frame (t.resetColor index) := by
  unfold resetColor
  dsimp only
  split_ifs <;> exact rfl

theorem frame_scrollDisplay (t : Crosswords) (scroll : Scroll) :
    t.Frame (t.scrollDisplay scroll) := by
  unfold scrollDisplay
  dsimp only
  split_ifs <;> exact rfl

theorem popKeyboardMode_iterate (t : Crosswords) : ∀ count : ℕ, ∃ stack idx,
    popKeyboardMode^[count] t = { t with keyboardModeStack := stack, keyboardModeIdx := idx }
  | 0 => ⟨t.keyboardModeStack, t.keyboardModeIdx, rfl⟩
  | count + 1 => by
    obtain ⟨stack, idx, heq⟩ := popKeyboardMode_iterate t count
    rw [Function.iterate_succ_apply', heq]
    exact ⟨_, _, rfl⟩

theorem withPrivateMode_altScreen (m : Mode) (on : Bool) (mode : NamedPrivateMode) :
    (withPrivateMode m on mode).altScreen = m.altScreen := by
  cases mode <;> cases on <;> rfl

theorem withUnknownMode_altScreen (m : Mode) (on : Bool) (mode : UInt16) :
    (withUnknownMode m on mode).altScreen = m.altScreen := by
  unfold withUnknownMode
  split_ifs <;> rfl

/-! ### Steps -/

/-- The operations on the active screen, as opposed to those on the modes, the scroll region, the
keyboard mode stacks, and both screens at once. -/
def EditsScreen : Op → Prop
  | .setScrollingRegion _ _ | .resetState | .setMode _ | .unsetMode _ | .setPrivateMode _
  | .unsetPrivateMode _ | .setKeypadApplicationMode | .unsetKeypadApplicationMode
  | .setKeyboardMode _ _ | .pushKeyboardMode _ | .popKeyboardModes _ | .toggleViMode
  | .resize _ _ _ _ => False
  | _ => True

theorem step_frame (u : Unicode) (t : Crosswords) {op : Op} (hedits : EditsScreen op) :
    t.Frame (t.step u op) := by
  cases op with
  | input c => exact frame_input t u c
  | goto line col => exact frame_goto t line col
  | gotoLine line => exact frame_goto t line _
  | gotoCol col => exact frame_goto t _ col
  | moveUp rows => exact frame_goto t _ _
  | moveDown rows => exact frame_goto t _ _
  | moveForward cols => exact rfl
  | moveBackward cols => exact rfl
  | moveDownAndCr rows => exact frame_goto t _ 0
  | moveUpAndCr lines => exact frame_goto t _ 0
  | moveForwardTabs count => exact rfl
  | moveBackwardTabs count => exact rfl
  | putTab count => exact frame_putTab t count
  | backspace => exact frame_backspace t
  | carriageReturn => exact rfl
  | linefeed => exact frame_linefeed t
  | newline => exact frame_newline t
  | reverseIndex => exact frame_reverseIndex t
  | saveCursorPosition => exact rfl
  | restoreCursorPosition => exact rfl
  | scrollUp lines => exact frame_scrollUpRelative t _ lines
  | scrollDown lines => exact frame_scrollDownRelative t _ lines
  | insertBlankLines lines => exact frame_insertBlankLines t lines
  | deleteLines lines => exact frame_deleteLines t lines
  | insertBlank count => exact frame_withBlank t fun t _ => rfl
  | deleteChars count => exact frame_withBlank t fun t _ => rfl
  | eraseChars count => exact frame_withBlank t fun t _ => rfl
  | clearLine mode => exact frame_clearLine t mode
  | clearScreen mode => exact frame_clearScreen t mode
  | decaln => exact frame_decaln t
  | clearTabs mode => cases mode <;> rfl
  | setHorizontalTabstop => rfl
  | terminalAttribute attr => exact frame_terminalAttribute t attr
  | setHyperlink hyperlink => exact frame_setHyperlink t hyperlink
  | configureCharset index charset => exact rfl
  | setActiveCharset index => rfl
  | setColor index color => exact frame_setColor t index color
  | resetColor index => exact frame_resetColor t index
  | insertGraphic textureId graphicWidth displayW displayH cursorMovement =>
    exact frame_insertGraphic t textureId graphicWidth displayW displayH cursorMovement
  | placeKittyOverlay rows cursorMovement => exact frame_placeKittyOverlay t rows cursorMovement
  | deleteGraphics action x y => exact frame_deleteGraphics t action x y
  | scrollDisplay scroll => exact frame_scrollDisplay t scroll
  | updateHistory historySize => exact rfl
  | setScrollingRegion _ _ | resetState | setMode _ | unsetMode _ | setPrivateMode _
  | unsetPrivateMode _ | setKeypadApplicationMode | unsetKeypadApplicationMode
  | setKeyboardMode _ _ | pushKeyboardMode _ | popKeyboardModes _ | toggleViMode
  | resize _ _ _ _ => exact hedits.elim

end Rio.Crosswords
