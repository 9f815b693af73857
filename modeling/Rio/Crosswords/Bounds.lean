import Rio.Crosswords.OpsSound
import Rio.Grid.ReflowSafe

/-! Where the cursors are and what the display shows, over whole runs. -/

set_option linter.dupNamespace false

namespace Rio
open Rio.Checked Rio.Runs

namespace Grid

/-- The rows that the display shows exist. -/
def DisplayInHistory (g : Grid Square) : Prop :=
  g.displayOffset ≤ g.historySize ∧ g.historySize ≤ g.maxScrollLimit ∧
    ∀ y < g.lines, g.raw.InBounds ((y : ℤ) - g.displayOffset)

instance (g : Grid Square) : Decidable g.DisplayInHistory :=
  inferInstanceAs (Decidable (_ ∧ _ ∧ ∀ y < g.lines, _))

/-- The cursor and the saved cursor are on the screen. -/
def CursorsOnScreen (g : Grid Square) : Prop :=
  g.cursor.pos.OnScreen g.lines g.columns ∧ g.savedCursor.pos.OnScreen g.lines g.columns

variable {g : Grid Square} {D : Prop}

theorem Sound.cursorsOnScreen (h : g.Sound D) : g.CursorsOnScreen := ⟨h.cursor, h.savedCursor⟩

theorem Sound.displayInHistory (h : g.Sound D) (hD : D) : g.DisplayInHistory := by
  have hdisplay := h.display hD
  refine ⟨hdisplay, h.wellFormed.limit, fun y hy => ?_⟩
  exact h.wellFormed.inBounds (by omega) (by omega)

end Grid

namespace Crosswords

theorem new_sound (D : Prop) {columns lines : ℕ} (hcolumns : 2 ≤ columns) (hlines : 1 ≤ lines)
    (limit : ℕ) : (new columns lines limit).Sound D :=
  ⟨Grid.new_sound hlines hcolumns limit, Grid.new_sound hlines hcolumns 0, rfl, rfl, le_rfl⟩

theorem run_sound (u : Unicode) {columns lines : ℕ} (hcolumns : 2 ≤ columns) (hlines : 1 ≤ lines)
    (limit : ℕ) {ops : List Op} (hsized : ∀ op ∈ ops, op.Sized) :
    ((new columns lines limit).run u ops).Sound False := by
  have hok : Permitted (step u) (fun _ op => op.Sized) (new columns lines limit) ops :=
    .of_forall hsized
  exact invariant (I := Sound False) (fun _ _ h hop => step_sound h u hop False.elim) ops _
    (new_sound False hcolumns hlines limit) hok

/-- The cursors of both screens stay on the screen. -/
theorem run_cursorsOnScreen (u : Unicode) {columns lines : ℕ} (hcolumns : 2 ≤ columns)
    (hlines : 1 ≤ lines) (limit : ℕ) {ops : List Op} (hsized : ∀ op ∈ ops, op.Sized) :
    ((new columns lines limit).run u ops).grid.CursorsOnScreen ∧
      ((new columns lines limit).run u ops).inactiveGrid.CursorsOnScreen := by
  have hsound := run_sound u hcolumns hlines limit hsized
  exact ⟨hsound.grid.cursorsOnScreen, hsound.inactive.cursorsOnScreen⟩

theorem run_cursorsOnScreen_resized :
    ((new 4 2 10).run .basic
      [.goto 1 3, .saveCursorPosition, .resize 2 1 0 0, .restoreCursorPosition]
      ).grid.CursorsOnScreen ∧
    ((new 4 2 10).run .basic
      [.goto 1 3, .saveCursorPosition, .resize 2 1 0 0, .restoreCursorPosition]
      ).inactiveGrid.CursorsOnScreen :=
  run_cursorsOnScreen .basic (by decide) (by decide) 10 (by simp [Op.Sized])

/-- The display of both screens stays within the history as long as every operation holds it
there. -/
theorem run_displayInHistory (u : Unicode) {columns lines : ℕ} (hcolumns : 2 ≤ columns)
    (hlines : 1 ≤ lines) (limit : ℕ) {ops : List Op} (hsized : ∀ op ∈ ops, op.Sized)
    (hholds : Permitted (step u) (HoldsDisplay u) (new columns lines limit) ops) :
    ((new columns lines limit).run u ops).grid.DisplayInHistory ∧
      ((new columns lines limit).run u ops).inactiveGrid.DisplayInHistory := by
  have hok : Permitted (step u) (fun t op => op.Sized ∧ HoldsDisplay u t op)
      (new columns lines limit) ops :=
    (Permitted.of_forall hsized).and hholds
  have hsound : ((new columns lines limit).run u ops).Sound True :=
    invariant (I := Sound True) (fun _ _ h hop => step_sound h u hop.1 fun _ => hop.2) ops _
      (new_sound True hcolumns hlines limit) hok
  exact ⟨hsound.grid.displayInHistory trivial, hsound.inactive.displayInHistory trivial⟩

theorem run_displayInHistory_scrolledBack :
    ((new 2 3 10).run .basic [.scrollUp 2, .scrollDisplay (.delta 1), .scrollUp 1]
      ).grid.DisplayInHistory ∧
    ((new 2 3 10).run .basic [.scrollUp 2, .scrollDisplay (.delta 1), .scrollUp 1]
      ).inactiveGrid.DisplayInHistory :=
  run_displayInHistory .basic (by decide) (by decide) 10 (by simp [Op.Sized])
    ⟨.inl rfl, trivial, .inl rfl, trivial⟩

/-- A region below the top line scrolls under a display that is scrolled back to the oldest line:
the display moves on past the history. -/
theorem run_display_leaves_history :
    ¬((new 2 3 10).run .basic
      [.scrollUp 1, .scrollDisplay (.delta 1), .setScrollingRegion 2 (some 3), .scrollUp 1]
      ).grid.DisplayInHistory := by
  decide

/-- Both grids can be resized to any sizes that fit, one after another: every loop ends, no row,
cell or difference is out of range, and the rows have the width asked for. -/
theorem run_resizes_end (u : Unicode) {columns lines : ℕ} (hcolumns : 2 ≤ columns)
    (hlines : 1 ≤ lines) (limit : ℕ) {ops : List Op} (hsized : ∀ op ∈ ops, op.Sized)
    {g : Grid Square} (hg : g = ((new columns lines limit).run u ops).grid ∨
      g = ((new columns lines limit).run u ops).inactiveGrid)
    {sizes : List Reflow.Size} {size : Reflow.Size} (hsizes : ∀ s ∈ sizes ++ [size], s.Fits) :
    ∃ g', Ends (Reflow.resizes g (sizes ++ [size])) g' ∧ g'.lines = size.lines ∧
      g'.columns = size.columns ∧ g'.raw.AllRows fun r => r.len = size.columns := by
  have hsound := run_sound u hcolumns hlines limit hsized
  have hgrid : g.Sound False := by
    rcases hg with rfl | rfl
    · exact hsound.grid
    · exact hsound.inactive
  obtain ⟨hends, hresized⟩ := Reflow.resizes_end (sizes ++ [size]) hgrid hsizes
  obtain ⟨hlines', hcolumns'⟩ := Reflow.resizes_size sizes size g
  exact ⟨_, hends, hlines', hcolumns', hcolumns' ▸ hresized.wellFormed.width⟩

theorem run_resizes_end_wide :
    ∃ g', Ends (Reflow.resizes
        ((new 4 2 10).run .basic [.input 'a', .input '世', .goto 1 3, .input '世']).grid
        ([⟨true, 1, 2⟩] ++ [⟨true, 3, 5⟩])) g' ∧ g'.lines = 3 ∧ g'.columns = 5 ∧
      g'.raw.AllRows fun r => r.len = 5 :=
  run_resizes_end .basic (by decide) (by decide) 10 (by simp [Op.Sized]) (.inl rfl)
    (by simp [Reflow.Size.Fits])

end Crosswords
end Rio
