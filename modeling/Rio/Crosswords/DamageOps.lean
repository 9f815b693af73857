import Rio.Crosswords.Damage
import Rio.Crosswords.ScrollRegion

/-! Every operation damages what it changes of the screen. -/

set_option linter.dupNamespace false

namespace Rio

/-- The operations that the program performs: a scroll region starts on line 1 or below, and the
size of the history is not updated. -/
def Op.Performed : Op → Prop
  | .setScrollingRegion top _ => 1 ≤ top
  | .updateHistory _ => False
  | _ => True

namespace Crosswords

variable {t t' : Crosswords}

/-! ### Cursor -/

theorem refreshes_goto (t : Crosswords) (line : ℤ) (col : ℕ) : t.Refreshes (t.goto line col) := by
  unfold goto
  split
  exact .still rfl rfl rfl rfl ((TermDamageState.grows_damageLine _ _).trans
    (TermDamageState.grows_damageLine _ _))

theorem refreshes_backspace (t : Crosswords) : t.Refreshes t.backspace := by
  unfold backspace
  split_ifs
  · exact .still rfl rfl rfl rfl (TermDamageState.grows_damageLine _ _)
  · exact .refl t

theorem refreshes_carriageReturn (t : Crosswords) : t.Refreshes t.carriageReturn :=
  .still rfl rfl rfl rfl (TermDamageState.grows_damageLine _ _)

theorem Live.refreshes_newline (h : t.Live) : t.Refreshes t.newline := by
  unfold newline
  dsimp only
  split_ifs
  · exact h.refreshes_linefeed.trans (refreshes_carriageReturn _)
  · exact h.refreshes_linefeed

theorem Live.refreshes_deleteLines (h : t.Live) (lines : ℕ) :
    t.Refreshes (t.deleteLines lines) := by
  unfold deleteLines
  dsimp only
  split_ifs with hinside
  · exact h.refreshes_scrollUpRelative hinside.2.1 _
  · exact .refl t

theorem refreshes_insertBlankLines (t : Crosswords) (lines : ℕ) :
    t.Refreshes (t.insertBlankLines lines) := by
  unfold insertBlankLines
  dsimp only
  split_ifs
  · exact refreshes_scrollDownRelative t _ _
  · exact .refl t

theorem refreshes_reverseIndex (t : Crosswords) : t.Refreshes t.reverseIndex := by
  unfold reverseIndex
  split_ifs
  · exact refreshes_scrollDownRelative t _ _
  · exact .still rfl rfl rfl rfl ((TermDamageState.grows_damageLine _ _).trans
      (TermDamageState.grows_damageLine _ _))

/-! ### Editing -/

/-- Entering a blank cell leaves everything but the styles as it is. -/
theorem Live.entered (h : t.Live) : t.Refreshes (t.mapGrid fun g => g.templateBlank.1) ∧
    (t.mapGrid fun g => g.templateBlank.1).Live := by
  have hgrid := Grid.templateBlank_eq t.grid
  have hentered : t.Refreshes (t.mapGrid fun g => g.templateBlank.1) := by
    unfold mapGrid
    dsimp only
    rw [hgrid]
    exact .still rfl rfl rfl rfl (.refl _)
  have hframe : t.Frame (t.mapGrid fun g => g.templateBlank.1) := by
    refine .mapGrid t ?_ ?_
    · rw [hgrid]
    · rw [hgrid]
  have hsound : (t.mapGrid fun g => g.templateBlank.1).Sound False :=
    h.sound.mapGrid h.sound.grid.templateBlank hframe.lines hframe.columns
  exact ⟨hentered, h.mk' hsound hframe hentered.alters⟩

theorem Live.refreshes_withBlank (h : t.Live) {f : Crosswords → Square → Crosswords}
    (hf : ∀ (t : Crosswords) (blank : Square), t.Live → t.Refreshes (f t blank)) :
    t.Refreshes (t.withBlank f) :=
  h.entered.1.trans (hf _ _ h.entered.2)

/-- The row of the cursor changes, and its line is damaged. -/
theorem Live.refreshes_modifyCursorRow (h : t.Live) {f : Row Square → Row Square}
    (hf : ∀ r : Row Square, r.Stamped (f r)) :
    t.Refreshes (t.damageCursor.mapGrid (·.modifyRow t.pos.row f)) := by
  have hmodified := alters_modifyRow t t.pos.row hf
  have hshown := hmodified.refreshes_damageCursor h.marks h.lines_pos h.row_lt
  exact ⟨(alters_damageCursor t).trans (alters_modifyRow _ t.pos.row hf), hshown.shown⟩

theorem Live.refreshes_eraseChars (h : t.Live) (count : ℕ) :
    t.Refreshes (t.eraseChars count) := by
  unfold eraseChars
  exact h.refreshes_withBlank fun t' blank h' =>
    h'.refreshes_modifyCursorRow fun r => r.stamped_fill _ _ blank

theorem Live.refreshes_deleteChars (h : t.Live) (count : ℕ) :
    t.Refreshes (t.deleteChars count) := by
  unfold deleteChars
  exact h.refreshes_withBlank fun t' blank h' =>
    h'.refreshes_modifyCursorRow fun _ => .of_dirty rfl

theorem Live.refreshes_insertBlank (h : t.Live) (count : ℕ) :
    t.Refreshes (t.insertBlank count) := by
  unfold insertBlank
  exact h.refreshes_withBlank fun t' blank h' =>
    h'.refreshes_modifyCursorRow fun _ => .of_dirty rfl

theorem Live.refreshes_clearLine (h : t.Live) (mode : LineClearMode) :
    t.Refreshes (t.clearLine mode) := by
  unfold clearLine
  refine h.refreshes_withBlank fun t' blank h' => ?_
  have hclear (left right : ℕ) :
      t'.Refreshes (t'.damageCursor.mapGrid (·.modifyRow t'.pos.row (·.fill left right blank))) :=
    h'.refreshes_modifyCursorRow fun r => r.stamped_fill left right blank
  cases mode with
  | right =>
    dsimp only
    split_ifs
    · exact .refl t'
    · exact hclear _ _
  | left => exact hclear _ _
  | all => exact hclear _ _

theorem alters_markFullyDamaged (t : Crosswords) : t.Alters t.markFullyDamaged :=
  .still rfl rfl rfl rfl ⟨rfl, fun _ => rfl, id⟩

theorem refreshes_decaln (t : Crosswords) : t.Refreshes t.decaln := by
  have hfill (t : Crosswords) (line : ℤ) : t.Alters (t.mapGrid fun g =>
      g.modifyRow line fun row => row.fill 0 g.columns (Square.setC default 'E')) :=
    alters_modify line (fun r => r.stamped_fill 0 t.grid.columns (Square.setC default 'E'))
      rfl rfl rfl rfl (.refl _)
  have hfilled := Alters.mapGrid_foldl hfill (lineRange 0 t.grid.lines) t
  unfold mapGrid at hfilled
  unfold decaln mapGrid
  exact .of_full (hfilled.trans (alters_markFullyDamaged _)) rfl

theorem refreshes_markFullyDamaged (t : Crosswords) : t.Refreshes t.markFullyDamaged :=
  .of_full (alters_markFullyDamaged t) rfl

theorem Live.refreshes_clearScreen (h : t.Live) {mode : ClearMode} (hmode : mode ≠ .saved) :
    t.Refreshes (t.clearScreen mode) := by
  unfold clearScreen
  refine h.refreshes_withBlank fun t' blank h' => ?_
  have hrow0 : 0 ≤ t'.pos.row := h'.sound.grid.cursor.1
  have hrow1 := h'.row_lt
  have hlines := h'.lines_pos
  have hline : t'.pos.row.toNat < t'.damage.lines.length := by
    rw [h'.marks]
    omega
  cases mode with
  | above =>
    have hreset : t'.Alters
        (if 1 < t'.pos.row then t'.mapGrid (·.resetRegion ⟨0, t'.pos.row⟩) else t') := by
      split_ifs
      · exact alters_resetRegion t' fun _ => ⟨0, t'.pos.row⟩
      · exact .refl t'
    dsimp only
    generalize (if 1 < t'.pos.row then t'.mapGrid (·.resetRegion ⟨0, t'.pos.row⟩) else t') = t₁
      at hreset ⊢
    have hfilled := hreset.trans (alters_modifyRow t₁ t'.pos.row fun r => r.stamped_fill 0
      (min (t'.pos.col + 1) t₁.grid.columns) blank)
    refine .of_hinted (hfilled.trans (alters_damageLines _ _)) ?_
    refine hinted_damageLines (mem_lineRange.mpr ⟨hrow0, lt_add_one _⟩) ?_
    rwa [hfilled.grows.length]
  | below =>
    have hfilled := alters_modifyRow t' t'.pos.row fun r => r.stamped_fillFrom t'.pos.col blank
    dsimp only
    generalize (t'.mapGrid (·.modifyRow t'.pos.row (·.fillFrom t'.pos.col blank))) = t₁
      at hfilled ⊢
    have hcleared : t'.Alters (if t'.pos.row.toNat < t₁.grid.lines - 1 then
        t₁.mapGrid fun g => g.resetRegion ⟨t'.pos.row + 1, g.lines⟩ else t₁) := by
      split_ifs
      · exact hfilled.trans (alters_resetRegion t₁ fun g => ⟨t'.pos.row + 1, g.lines⟩)
      · exact hfilled
    generalize (if t'.pos.row.toNat < t₁.grid.lines - 1 then
      t₁.mapGrid fun g => g.resetRegion ⟨t'.pos.row + 1, g.lines⟩ else t₁) = t₂ at hcleared ⊢
    refine .of_hinted (hcleared.trans (alters_damageLines _ _)) ?_
    refine hinted_damageLines (mem_lineRange.mpr ⟨le_rfl, ?_⟩) ?_
    · rwa [hcleared.lines]
    · rwa [hcleared.grows.length]
  | all =>
    dsimp only
    split_ifs
    · exact .of_full ((alters_resetRegion t' fun g => ⟨0, g.lines⟩).trans
        (alters_markFullyDamaged _)) rfl
    · refine .of_full ⟨?_, ?_, fun ht => ?_, ⟨rfl, fun _ => rfl, id⟩, .inl rfl⟩ rfl
      · exact Grid.scrollUp_lines _ _ _
      · exact Grid.scrollUp_maxScrollLimit _ _ _
      · exact displayOffset_scrollUp_eq_zero ht _ _
  | saved => exact absurd rfl hmode

theorem refreshes_setScrollingRegion (t : Crosswords) (top : ℕ) (bottom : Option ℕ) :
    t.Refreshes (t.setScrollingRegion top bottom) := by
  unfold setScrollingRegion
  dsimp only
  split_ifs
  · exact .refl t
  · refine Refreshes.trans ?_ (refreshes_goto _ 0 0)
    exact .still rfl rfl rfl rfl (.refl _)

theorem refreshes_deccolm (t : Crosswords) : t.Refreshes t.deccolm := by
  have hreset := (refreshes_setScrollingRegion t 1 none).alters.trans
    (alters_resetRegion _ fun g => ⟨0, g.lines⟩)
  exact .of_full (hreset.trans (alters_markFullyDamaged _)) rfl

/-! ### Tabs, attributes and colors -/

theorem alters_putOneTab (t : Crosswords) : t.Alters t.putOneTab := by
  unfold putOneTab
  exact (alters_modifyCursorCell t _).trans (.still rfl rfl rfl rfl (.refl _))

theorem Live.refreshes_putTab (h : t.Live) (count : ℕ) : t.Refreshes (t.putTab count) := by
  have htabs := Alters.iterate alters_putOneTab count t
  have hrow := (Sound.iterate (D := False) (fun _ => Sound.putOneTab) count h.sound).grid.cursor.2.1
  unfold putTab
  dsimp only
  split_ifs with hpending hcount
  · exact h.refreshes_wrapline
  · exact htabs.refreshes_damageCursor h.marks h.lines_pos (htabs.lines ▸ hrow)
  · rw [not_not.mp hcount]
    exact .refl t

theorem refreshes_terminalAttribute (t : Crosswords) (attr : Attr) :
    t.Refreshes (t.terminalAttribute attr) := by
  unfold terminalAttribute
  rcases attr.apply with _ | f
  · exact .refl t
  · exact .still rfl rfl rfl rfl (.refl _)

theorem refreshes_setHyperlink (t : Crosswords) (hyperlink : Option Hyperlink) :
    t.Refreshes (t.setHyperlink hyperlink) := by
  cases hyperlink with
  | none => exact .still rfl rfl rfl rfl (.refl _)
  | some hl => exact .still rfl rfl rfl rfl (.refl _)

theorem refreshes_setColor (t : Crosswords) (index : ℕ) (color : ColorRgb) :
    t.Refreshes (t.setColor index color) := by
  unfold setColor
  dsimp only
  split_ifs
  · exact (refreshes_markFullyDamaged t).trans (.still rfl rfl rfl rfl (.refl _))
  · exact .still rfl rfl rfl rfl (.refl _)

theorem refreshes_resetColor (t : Crosswords) (index : ℕ) : t.Refreshes (t.resetColor index) := by
  unfold resetColor
  dsimp only
  split_ifs
  · exact (refreshes_markFullyDamaged t).trans (.still rfl rfl rfl rfl (.refl _))
  · exact .still rfl rfl rfl rfl (.refl _)

/-! ### Graphics -/

theorem alters_placeGraphicRow (t : Crosswords) (line : ℤ) (leftmost offsetY : ℕ)
    (texture : TextureRef) (offsets : List ℕ) :
    t.Alters (t.mapGrid fun g => placeGraphicRow g line leftmost offsetY texture offsets) := by
  refine Alters.mapGrid_foldl (fun t offset => ?_) offsets.zipIdx t
  unfold mapGrid
  dsimp only
  split_ifs
  · exact (alters_modifyCell t _ _).trans (.still rfl rfl rfl rfl (.refl _))
  · exact .refl t

/-- One row of a graphic, which starts on a line of the screen. -/
theorem Live.refreshes_fillGraphicRow (h : t.Live) (scrolling : Bool) (leftmost : ℕ)
    (texture : TextureRef) (width height cellWidth cellHeight : ℕ) (row : ℕ × ℕ) :
    t.Refreshes
        (fillGraphicRow scrolling leftmost texture width height cellWidth cellHeight t row) ∧
      (fillGraphicRow scrolling leftmost texture width height cellWidth cellHeight t row).Live := by
  have hsound := Sound.fillGraphicRows (D := False) scrolling leftmost texture width height
    cellWidth cellHeight [row] h.sound False.elim
  have hframe := frame_fillGraphicRow scrolling leftmost texture width height cellWidth cellHeight
    t row
  have hrefreshes : t.Refreshes
      (fillGraphicRow scrolling leftmost texture width height cellWidth cellHeight t row) := by
    obtain ⟨offsetY, top⟩ := row
    unfold fillGraphicRow
    dsimp only
    by_cases hbelow : !scrolling ∧ t.grid.lines ≤ top
    · rw [if_pos hbelow]
      exact .refl t
    rw [if_neg hbelow]
    obtain ⟨line, hline, hlt⟩ : ∃ line : ℤ, line = (if scrolling then t.pos.row else (top : ℤ)) ∧
        line.toNat < t.grid.lines := by
      refine ⟨_, rfl, ?_⟩
      have hrow := h.row_lt
      have hpos := h.lines_pos
      split_ifs with hscrolling
      · omega
      · simp [hscrolling] at hbelow
        simpa using hbelow
    rw [← hline]
    have hplaced := alters_placeGraphicRow t line leftmost offsetY texture
      (cellOffsets width cellWidth)
    have hshown := hplaced.refreshes_damageLine h.marks hlt
    split_ifs
    · refine hshown.trans (Live.refreshes_linefeed ?_)
      refine h.mk' ((h.sound.placeGraphicRow _ _ _ _ _).damageLine _) ?_ hshown.alters
      exact (Frame.onlyCells (onlyCells_placeGraphicRow t line leftmost offsetY texture _)).trans
        (.damageLine _ _)
    · exact hshown
  exact ⟨hrefreshes, h.mk' hsound hframe hrefreshes.alters⟩

theorem Live.refreshes_fillGraphicRows (scrolling : Bool) (leftmost : ℕ) (texture : TextureRef)
    (width height cellWidth cellHeight : ℕ) : ∀ (rows : List (ℕ × ℕ)) {t : Crosswords}, t.Live →
      t.Refreshes (rows.foldl
        (fillGraphicRow scrolling leftmost texture width height cellWidth cellHeight) t)
  | [], t, _ => .refl t
  | row :: rows, t, h => by
    obtain ⟨hrow, hlive⟩ := h.refreshes_fillGraphicRow scrolling leftmost texture width height
      cellWidth cellHeight row
    exact hrow.trans (Live.refreshes_fillGraphicRows scrolling leftmost texture width height
      cellWidth cellHeight rows hlive)

theorem Live.refreshes_insertGraphic (h : t.Live) (textureId graphicWidth displayW displayH : ℕ)
    (cursorMovement : Option UInt8) :
    t.Refreshes (t.insertGraphic textureId graphicWidth displayW displayH cursorMovement) := by
  unfold insertGraphic
  by_cases hlarge : maxGraphicDimension < displayW ∨ maxGraphicDimension < displayH
  · rw [if_pos hlarge]
    exact .refl t
  rw [if_neg hlarge]
  by_cases hempty : displayW = 0 ∨ displayH = 0
  · rw [if_pos hempty]
    exact .refl t
  rw [if_neg hempty]
  dsimp only
  obtain ⟨texture, htexture⟩ : ∃ texture : TextureRef,
      texture = ⟨textureId, displayW.toUInt16, displayH.toUInt16, t.cellHeight⟩ := ⟨_, rfl⟩
  rw [← htexture]
  have hfilled : t.Refreshes (t.fillGraphic texture displayW displayH) :=
    Live.refreshes_fillGraphicRows _ _ _ _ _ _ _ _ h
  generalize t.fillGraphic texture displayW displayH = t₁ at hfilled ⊢
  have hright (cols : ℕ) : t₁.Refreshes (t₁.moveForward cols) :=
    .still rfl rfl rfl rfl (TermDamageState.grows_damageLine _ _)
  split
  · split_ifs
    · exact hfilled.trans (hright _)
    · exact hfilled.trans (refreshes_carriageReturn _)
    · exact hfilled
  · split_ifs
    · exact hfilled.trans (hright _)
    · exact hfilled.trans (refreshes_carriageReturn _)
    · exact hfilled
  · exact hfilled
  · split_ifs
    · exact hfilled.trans (refreshes_carriageReturn _)
    · exact hfilled

theorem Live.refreshes_placeKittyOverlay (h : t.Live) (rows : ℕ) (cursorMovement : UInt8) :
    t.Refreshes (t.placeKittyOverlay rows cursorMovement) := by
  unfold placeKittyOverlay
  split_ifs
  · exact .refl t
  · exact (h.refreshes_linefeeds (rows - 1)).1.trans (refreshes_carriageReturn _)

theorem alters_clearGraphicAt (t : Crosswords) (p : Pos) :
    t.Alters (t.mapGrid (·.clearGraphicAt p)) := by
  obtain ⟨f, extrasTable, heq⟩ := Grid.clearGraphicAt_eq t.grid p
  exact alters_cell heq rfl

theorem alters_clearGraphicsInRow (t : Crosswords) (row : ℤ) (columns : List ℕ) :
    t.Alters (t.mapGrid fun g => columns.foldl (fun g col => g.clearGraphicAt ⟨row, col⟩) g) :=
  Alters.mapGrid_foldl (f := fun g col => g.clearGraphicAt ⟨row, col⟩)
    (fun t col => alters_clearGraphicAt t ⟨row, col⟩) columns t

/-- Going over lines of the screen one by one. -/
theorem refreshes_foldl_lines {f : Crosswords → ℤ → Crosswords}
    (hf : ∀ (t : Crosswords) line, t.damage.lines.length = t.grid.lines →
      line.toNat < t.grid.lines → t.Refreshes (f t line)) :
    ∀ (lines : List ℤ) {t : Crosswords}, t.damage.lines.length = t.grid.lines →
      (∀ line ∈ lines, line.toNat < t.grid.lines) → t.Refreshes (lines.foldl f t)
  | [], t, _, _ => .refl t
  | line :: lines, t, hmarks, hlines => by
    have hline := hf t line hmarks (hlines line List.mem_cons_self)
    refine hline.trans (refreshes_foldl_lines hf lines ?_ fun l hl => ?_)
    · rw [hline.alters.grows.length, hline.alters.lines]
      exact hmarks
    · rw [hline.alters.lines]
      exact hlines l (List.mem_cons_of_mem line hl)

theorem refreshes_deleteGraphicAtPosition (hmarks : t.damage.lines.length = t.grid.lines) (col : ℕ)
    (row : ℤ) : t.Refreshes (t.deleteGraphicAtPosition col row) := by
  have hcleared := alters_clearGraphicAt t ⟨row, col⟩
  unfold deleteGraphicAtPosition
  dsimp only
  split_ifs with hinside hgraphics
  · exact hcleared.refreshes_damageLine hmarks hinside.2.1
  · -- the cell has no graphic and stays as it is
    have heq : t.grid.clearGraphicAt ⟨row, col⟩ = t.grid.modifyCell ⟨row, col⟩ id := by
      unfold Grid.clearGraphicAt
      rw [if_neg hgraphics]
    refine ⟨hcleared, .inr (.inr fun l _ _ => ?_)⟩
    show ((t.grid.clearGraphicAt ⟨row, col⟩).raw.row l).inner = (t.grid.raw.row l).inner
    rw [heq]
    have hrow := Storage.row_modify_cases t.grid.raw row l fun r => r.modify col id
    rcases hrow with h | h
    · exact congrArg Row.inner h
    · refine (congrArg Row.inner h).trans ?_
      show (t.grid.raw.row l).inner.modify col id = _
      rw [List.modify_id]
  · exact .refl t

theorem Live.refreshes_deleteGraphics (h : t.Live) (action : Char) (x y : ℕ) :
    t.Refreshes (t.deleteGraphics action x y) := by
  have hscreen : ∀ line ∈ lineRange 0 t.grid.lines, line.toNat < t.grid.lines := by
    intro line hline
    rw [mem_lineRange] at hline
    omega
  unfold deleteGraphics
  split_ifs
  · refine refreshes_foldl_lines (fun t line hmarks hline => ?_) _ h.marks hscreen
    exact (alters_clearGraphicsInRow t line _).refreshes_damageLine hmarks hline
  · exact refreshes_deleteGraphicAtPosition h.marks _ _
  · exact refreshes_deleteGraphicAtPosition h.marks _ _
  · exact .refl t
  · unfold deleteGraphicsInColumn
    split_ifs
    · exact refreshes_foldl_lines
        (fun t line hmarks _ => refreshes_deleteGraphicAtPosition hmarks _ line) _ h.marks hscreen
    · exact .refl t
  · exact .refl t
  · unfold deleteGraphicsInRow
    dsimp only
    split_ifs with hinside
    · exact (alters_clearGraphicsInRow t _ _).refreshes_damageLine h.marks hinside.2
    · exact .refl t
  · exact .refl t
  · exact .refl t

/-! ### The whole screen -/

theorem new_live {columns lines : ℕ} (hcolumns : 2 ≤ columns) (hlines : 1 ≤ lines) (limit : ℕ) :
    (new columns lines limit).Live := by
  refine ⟨new_sound False hcolumns hlines limit, le_rfl, Int.natCast_nonneg lines, ?_, fun _ => rfl,
    fun _ => rfl⟩
  exact List.length_replicate

theorem Live.of_eq (h : t.Live) (hgrid : t'.grid = t.grid)
    (hinactive : t'.inactiveGrid = t.inactiveGrid) (hregion : t'.scrollRegion = t.scrollRegion)
    (hlength : t'.damage.lines.length = t.damage.lines.length) : t'.Live := by
  refine ⟨h.sound.of_eq hgrid hinactive hregion, ?_, ?_, ?_, ?_, ?_⟩
  · rw [hregion]
    exact h.start
  · rw [hregion]
    exact h.stop
  · rw [hlength, hgrid]
    exact h.marks
  · rw [hgrid]
    exact h.anchored
  · rw [hinactive]
    exact h.inactive

/-- What an operation leaves: the terminal is ready for the next one, and what changed of the rows
is damaged. -/
structure Stepped (t t' : Crosswords) : Prop where
  live : t'.Live
  refreshes : t'.damage.full = true ∨ t.Refreshes t'

theorem Stepped.of_frame (h : t.Live) (hsound : t'.Sound False) (hframe : t.Frame t')
    (hrefreshes : t.Refreshes t') : t.Stepped t' :=
  ⟨h.mk' hsound hframe hrefreshes.alters, .inr hrefreshes⟩

/-- Neither the screens nor the damage change. -/
theorem Stepped.of_eq (h : t.Live) (hgrid : t'.grid = t.grid)
    (hinactive : t'.inactiveGrid = t.inactiveGrid) (hregion : t'.scrollRegion = t.scrollRegion)
    (hgrows : t.damage.Grows t'.damage) : t.Stepped t' :=
  ⟨h.of_eq hgrid hinactive hregion hgrows.length,
    .inr (.still (by rw [hgrid]) (by rw [hgrid]) (by rw [hgrid]) (by rw [hgrid]) hgrows)⟩

theorem Live.of_frame (h : t.Live) (hsound : t'.Sound False) (hframe : t.Frame t')
    (hlength : t'.damage.lines.length = t.damage.lines.length) (hanchored : t'.grid.Anchored) :
    t'.Live := by
  refine ⟨hsound, ?_, ?_, ?_, hanchored, ?_⟩
  · rw [hframe.scrollRegion]
    exact h.start
  · rw [hframe.scrollRegion]
    exact h.stop
  · rw [hlength, hframe.lines]
    exact h.marks
  · rw [hframe.inactiveGrid]
    exact h.inactive

theorem Live.stepped_scrollDisplay (h : t.Live) (scroll : Scroll) :
    t.Stepped (t.scrollDisplay scroll) := by
  have hgrid : (t.scrollDisplay scroll).grid = t.grid.scrollDisplay scroll := by
    unfold scrollDisplay
    dsimp only
    split_ifs <;> rfl
  have hlength : (t.scrollDisplay scroll).damage.lines.length = t.damage.lines.length := by
    unfold scrollDisplay
    dsimp only
    split_ifs <;> rfl
  constructor
  · refine h.of_frame (h.sound.scrollDisplay scroll) (frame_scrollDisplay t scroll) hlength ?_
    rw [hgrid]
    exact Grid.anchored_of_sound rfl ((h.anchored.sound h.sound.grid).scrollDisplay scroll)
  · unfold scrollDisplay
    dsimp only
    split_ifs with hoffset
    · exact .inl rfl
    · exact .inr (.still rfl rfl rfl (not_not.mp hoffset).symm (.refl _))

theorem Live.stepped_clearScreen (h : t.Live) (mode : ClearMode) :
    t.Stepped (t.clearScreen mode) := by
  by_cases hmode : mode = .saved
  · subst hmode
    obtain ⟨-, hentered⟩ := h.entered
    have hlength : (t.clearScreen .saved).damage.lines.length = t.damage.lines.length := by
      unfold clearScreen withBlank
      dsimp only
      split_ifs <;> rfl
    refine ⟨h.of_frame (h.sound.clearScreen _) (frame_clearScreen t _) hlength ?_, .inl rfl⟩
    unfold clearScreen withBlank
    dsimp only
    split_ifs
    · exact fun _ => rfl
    · exact hentered.anchored
  · exact .of_frame h (h.sound.clearScreen mode) (frame_clearScreen t mode)
      (h.refreshes_clearScreen hmode)

theorem Live.stepped_setScrollingRegion (h : t.Live) {top : ℕ} (htop : 1 ≤ top)
    (bottom : Option ℕ) : t.Stepped (t.setScrollingRegion top bottom) := by
  have hrefreshes := refreshes_setScrollingRegion t top bottom
  refine ⟨?_, .inr hrefreshes⟩
  by_cases hle : bottom.getD t.grid.lines ≤ top
  · rw [setScrollingRegion_of_le hle]
    exact h
  · have hregion := setScrollingRegion_region (t := t) (not_le.mp hle)
    have hinactive : (t.setScrollingRegion top bottom).inactiveGrid = t.inactiveGrid := by
      unfold setScrollingRegion
      dsimp only
      rw [if_neg hle]
      exact (frame_goto _ 0 0).inactiveGrid
    refine ⟨h.sound.setScrollingRegion top bottom, ?_, ?_, ?_,
      hrefreshes.alters.anchored h.anchored, hinactive ▸ h.inactive⟩
    · rw [hregion]
      dsimp only
      omega
    · rw [hregion]
      dsimp only
      omega
    · rw [hrefreshes.alters.grows.length, hrefreshes.alters.lines]
      exact h.marks

theorem Live.stepped_deccolm (h : t.Live) : t.Stepped t.deccolm := by
  have hset := (h.stepped_setScrollingRegion le_rfl none).live
  have hreset : (t.setScrollingRegion 1 none).Alters t.deccolm :=
    (alters_resetRegion _ fun g => ⟨0, g.lines⟩).trans (alters_markFullyDamaged _)
  have hframe : (t.setScrollingRegion 1 none).Frame t.deccolm :=
    Frame.mapGrid _ (f := fun g => g.resetRegion ⟨0, g.lines⟩) rfl rfl
  exact ⟨hset.mk' h.sound.deccolm hframe hreset, .inr (refreshes_deccolm t)⟩

theorem Live.stepped_swapAlt (h : t.Live) : t.Stepped t.swapAlt := by
  have hsound := h.sound.swapAlt
  have hlines := h.sound.lines_eq
  have hmarks := h.marks
  refine ⟨?_, .inl rfl⟩
  unfold swapAlt at hsound ⊢
  dsimp only at hsound ⊢
  split_ifs at hsound ⊢
  · exact ⟨hsound, h.start, h.stop, hmarks.trans hlines.symm, h.inactive, h.anchored⟩
  · exact ⟨hsound, h.start, h.stop, hmarks.trans hlines.symm, h.inactive, h.anchored⟩

theorem Live.stepped_resetState (h : t.Live) : t.Stepped t.resetState := by
  have hsound := h.sound.resetState
  have hlines := h.sound.lines_eq
  have hmarks := h.marks
  refine ⟨?_, .inl rfl⟩
  unfold resetState at hsound ⊢
  dsimp only at hsound ⊢
  refine ⟨hsound, le_rfl, Int.natCast_nonneg _, ?_, fun _ => rfl, fun _ => rfl⟩
  split_ifs
  · exact hmarks.trans hlines.symm
  · exact hmarks

theorem Live.stepped_resize (h : t.Live) {numCols numLines : ℕ} (hcols : 2 ≤ numCols)
    (hlines : 1 ≤ numLines) (cellWidth cellHeight : ℕ) :
    t.Stepped (t.resize numCols numLines cellWidth cellHeight) := by
  have hsound := h.sound.resize hcols hlines cellWidth cellHeight
  unfold resize at hsound ⊢
  dsimp only at hsound ⊢
  by_cases hsame : t.grid.columns = numCols ∧ t.grid.lines = numLines
  · rw [if_pos hsame]
    exact ⟨h, .inr (.refl t)⟩
  · rw [if_neg hsame] at hsound ⊢
    refine ⟨⟨hsound, le_rfl, Int.natCast_nonneg _, ?_, ?_, ?_⟩, .inl rfl⟩
    · rw [Grid.resize_lines]
      exact List.length_replicate
    · exact h.anchored.resize h.sound.grid _ hlines hcols
    · exact h.inactive.resize h.sound.inactive _ hlines hcols

/-- The operations that edit the active screen, the view apart. -/
theorem Live.refreshes_step (h : t.Live) (u : Unicode) {op : Op} (hedits : EditsScreen op)
    (hperformed : op.Performed) (hdisplay : ∀ scroll, op ≠ .scrollDisplay scroll)
    (hclear : ∀ mode, op ≠ .clearScreen mode) : t.Refreshes (t.step u op) := by
  have hgrows (line line' : ℕ) :
      t.damage.Grows ((t.damage.damageLine line).damageLine line') :=
    (TermDamageState.grows_damageLine _ _).trans (TermDamageState.grows_damageLine _ _)
  cases op with
  | input c => exact h.refreshes_input u c
  | goto line col => exact refreshes_goto t line col
  | gotoLine line => exact refreshes_goto t line _
  | gotoCol col => exact refreshes_goto t _ col
  | moveUp rows => exact refreshes_goto t _ _
  | moveDown rows => exact refreshes_goto t _ _
  | moveForward cols =>
    exact .still rfl rfl rfl rfl (TermDamageState.grows_damageLine _ _)
  | moveBackward cols =>
    exact .still rfl rfl rfl rfl (TermDamageState.grows_damageLine _ _)
  | moveDownAndCr rows => exact refreshes_goto t _ 0
  | moveUpAndCr lines => exact refreshes_goto t _ 0
  | moveForwardTabs count =>
    exact .still rfl rfl rfl rfl (TermDamageState.grows_damageLine _ _)
  | moveBackwardTabs count =>
    exact .still rfl rfl rfl rfl (TermDamageState.grows_damageLine _ _)
  | putTab count => exact h.refreshes_putTab count
  | backspace => exact refreshes_backspace t
  | carriageReturn => exact refreshes_carriageReturn t
  | linefeed => exact h.refreshes_linefeed
  | newline => exact h.refreshes_newline
  | reverseIndex => exact refreshes_reverseIndex t
  | saveCursorPosition => exact .still rfl rfl rfl rfl (.refl _)
  | restoreCursorPosition => exact .still rfl rfl rfl rfl (hgrows _ _)
  | scrollUp lines => exact h.refreshes_scrollUpRelative le_rfl lines
  | scrollDown lines => exact refreshes_scrollDownRelative t _ lines
  | insertBlankLines lines => exact refreshes_insertBlankLines t lines
  | deleteLines lines => exact h.refreshes_deleteLines lines
  | insertBlank count => exact h.refreshes_insertBlank count
  | deleteChars count => exact h.refreshes_deleteChars count
  | eraseChars count => exact h.refreshes_eraseChars count
  | clearLine mode => exact h.refreshes_clearLine mode
  | clearScreen mode => exact absurd rfl (hclear mode)
  | decaln => exact refreshes_decaln t
  | clearTabs mode => cases mode <;> exact .still rfl rfl rfl rfl (.refl _)
  | setHorizontalTabstop => exact .still rfl rfl rfl rfl (.refl _)
  | terminalAttribute attr => exact refreshes_terminalAttribute t attr
  | setHyperlink hyperlink => exact refreshes_setHyperlink t hyperlink
  | configureCharset index charset => exact .still rfl rfl rfl rfl (.refl _)
  | setActiveCharset index => exact .still rfl rfl rfl rfl (.refl _)
  | setColor index color => exact refreshes_setColor t index color
  | resetColor index => exact refreshes_resetColor t index
  | insertGraphic textureId graphicWidth displayW displayH cursorMovement =>
    exact h.refreshes_insertGraphic textureId graphicWidth displayW displayH cursorMovement
  | placeKittyOverlay rows cursorMovement =>
    exact h.refreshes_placeKittyOverlay rows cursorMovement
  | deleteGraphics action x y => exact h.refreshes_deleteGraphics action x y
  | scrollDisplay scroll => exact absurd rfl (hdisplay scroll)
  | updateHistory historySize => exact hperformed.elim
  | setScrollingRegion _ _ | resetState | setMode _ | unsetMode _ | setPrivateMode _
  | unsetPrivateMode _ | setKeypadApplicationMode | unsetKeypadApplicationMode
  | setKeyboardMode _ _ | pushKeyboardMode _ | popKeyboardModes _ | toggleViMode
  | resize _ _ _ _ => exact hedits.elim

theorem Live.stepped (h : t.Live) (u : Unicode) {op : Op} (hsized : op.Sized)
    (hperformed : op.Performed) : t.Stepped (t.step u op) := by
  have hsame (t' : Crosswords) (hgrid : t'.grid = t.grid)
      (hinactive : t'.inactiveGrid = t.inactiveGrid) (hregion : t'.scrollRegion = t.scrollRegion)
      (hdamage : t'.damage = t.damage) : t.Stepped t' :=
    .of_eq h hgrid hinactive hregion (hdamage ▸ .refl t.damage)
  by_cases hedits : EditsScreen op
  · by_cases hdisplay : ∃ scroll, op = .scrollDisplay scroll
    · obtain ⟨scroll, rfl⟩ := hdisplay
      exact h.stepped_scrollDisplay scroll
    · by_cases hclear : ∃ mode, op = .clearScreen mode
      · obtain ⟨mode, rfl⟩ := hclear
        exact h.stepped_clearScreen mode
      · exact .of_frame h (step_sound h.sound u hsized False.elim) (step_frame u t hedits)
          (h.refreshes_step u hedits hperformed (fun scroll heq => hdisplay ⟨scroll, heq⟩)
            fun mode heq => hclear ⟨mode, heq⟩)
  cases op with
  | setScrollingRegion top bottom => exact h.stepped_setScrollingRegion hperformed bottom
  | resetState => exact h.stepped_resetState
  | setMode mode => cases mode <;> exact hsame _ rfl rfl rfl rfl
  | unsetMode mode =>
    cases mode with
    | insert => exact .of_eq h rfl rfl rfl ⟨rfl, fun _ => rfl, id⟩
    | lineFeedNewLine => exact hsame _ rfl rfl rfl rfl
  | setPrivateMode mode =>
    rcases mode with mode | mode
    · cases mode with
      | swapScreenAndSetRestoreCursor =>
        show t.Stepped (if t.mode.altScreen then t else t.swapAlt)
        split_ifs
        · exact hsame t rfl rfl rfl rfl
        · exact h.stepped_swapAlt
      | columnMode => exact h.stepped_deccolm
      | _ => exact hsame _ rfl rfl rfl rfl
    · exact hsame _ rfl rfl rfl rfl
  | unsetPrivateMode mode =>
    rcases mode with mode | mode
    · cases mode with
      | swapScreenAndSetRestoreCursor =>
        show t.Stepped (if t.mode.altScreen then t.swapAlt else t)
        split_ifs
        · exact h.stepped_swapAlt
        · exact hsame t rfl rfl rfl rfl
      | columnMode => exact h.stepped_deccolm
      | _ => exact hsame _ rfl rfl rfl rfl
    · exact hsame _ rfl rfl rfl rfl
  | setKeypadApplicationMode => exact hsame _ rfl rfl rfl rfl
  | unsetKeypadApplicationMode => exact hsame _ rfl rfl rfl rfl
  | setKeyboardMode mode apply => exact hsame _ rfl rfl rfl rfl
  | pushKeyboardMode mode => exact hsame _ rfl rfl rfl rfl
  | popKeyboardModes toPop =>
    show t.Stepped (t.popKeyboardModes toPop)
    unfold popKeyboardModes
    split_ifs
    · exact hsame _ rfl rfl rfl rfl
    · obtain ⟨stack, idx, heq⟩ := popKeyboardMode_iterate t toPop
      rw [heq]
      exact hsame _ rfl rfl rfl rfl
  | toggleViMode =>
    show t.Stepped t.toggleViMode
    unfold toggleViMode
    dsimp only
    split_ifs <;> exact hsame _ rfl rfl rfl rfl
  | resize numCols numLines cellWidth cellHeight =>
    exact h.stepped_resize hsized.1 hsized.2 cellWidth cellHeight
  | _ => exact absurd trivial hedits

end Crosswords
end Rio
