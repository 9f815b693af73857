import Rio.Grid.ResizeRows
import Rio.Kitty.Anchors

/-! Kitty placements when the terminal is resized: they go where the cursor of the active screen
goes, which is where the rows go as long as no text is reflown. -/

set_option linter.dupNamespace false

namespace Rio.Kitty
open Rio.Grid

/-- The text of a screen keeps its rows but for the oldest `dropped` ones, and its placements stay
on them. -/
structure MovesWith (g g' : Grid Square) (screen screen' : KittyScreenState) (dropped : ℕ) :
    Prop where
  text : g.KeepsText g' dropped
  placements : ∀ key p, screen.kittyPlacements.lookup key = some p →
    ∃ p', screen'.kittyPlacements.lookup key = some p' ∧ p'.destRow + dropped = p.destRow

namespace Terminal
variable {outside : Outside} {t : Terminal}

/-- The row of the cursor of the active screen, counted from the oldest row. -/
def cursorRow (t : Terminal) : ℤ := t.crosswords.grid.historySize + t.crosswords.pos.row

/-- What a resize does to the placements of both screens. -/
structure Resizes (t t' : Terminal) (numCols numLines : ℕ) : Prop where
  /-- The placements of the active screen follow its cursor. -/
  shifted : ∀ key p, t.graphics.screen.kittyPlacements.lookup key = some p →
    ∃ p', t'.graphics.screen.kittyPlacements.lookup key = some p' ∧
      p'.destRow - p.destRow = t'.cursorRow - t.cursorRow
  /-- Where no row of the active screen is joined or split, this is what its rows do. -/
  active : t.crosswords.grid.Still (!t.crosswords.mode.altScreen) numCols →
    MovesWith t.crosswords.grid t'.crosswords.grid t.graphics.screen t'.graphics.screen
      (t.crosswords.grid.overflow numLines)
  /-- And the rows of the inactive screen, if as many of them leave its history. -/
  inactive : t.crosswords.grid.Still (!t.crosswords.mode.altScreen) numCols →
    t.crosswords.inactiveGrid.Still t.crosswords.mode.altScreen numCols →
    t.crosswords.inactiveGrid.overflow numLines = t.crosswords.grid.overflow numLines →
    MovesWith t.crosswords.inactiveGrid t'.crosswords.inactiveGrid
      t.graphics.kittyInactiveScreen t'.graphics.kittyInactiveScreen
      (t.crosswords.inactiveGrid.overflow numLines)

theorem lookup_resize {screen : KittyScreenState} (cellWidth cellHeight : ℕ) (shift : ℤ)
    {key : ℕ × ℕ} {p : KittyPlacement} (hp : screen.kittyPlacements.lookup key = some p) :
    ∃ p', (screen.mapPlacements (·.resize cellWidth cellHeight shift)).kittyPlacements.lookup key =
      some p' ∧ p'.destRow = p.destRow + shift := by
  refine ⟨p.resize cellWidth cellHeight shift, ?_, rfl⟩
  show (screen.kittyPlacements.mapValues _).lookup key = _
  rw [Table.lookup_mapValues, hp]
  rfl

theorem operate_same {numCols numLines : ℕ} (cellWidth cellHeight : ℕ)
    (hsame : t.crosswords.grid.columns = numCols ∧ t.crosswords.grid.lines = numLines) :
    t.operate outside (.resize numCols numLines cellWidth cellHeight) = t := by
  have hcrosswords : t.crosswords.resize numCols numLines cellWidth cellHeight = t.crosswords :=
    if_pos hsame
  unfold operate
  dsimp only
  rw [if_pos (.inl hsame)]
  show Terminal.mk (t.crosswords.resize numCols numLines cellWidth cellHeight) t.graphics = t
  rw [hcrosswords]

theorem movesWith_refl {D : Prop} {g : Grid Square} (hg : g.Sound D) (screen : KittyScreenState) :
    MovesWith g g screen screen (g.overflow g.lines) := by
  obtain ⟨hrow0, hrow1, -⟩ := hg.cursor
  have hlimit := hg.wellFormed.limit
  have hnone : g.overflow g.lines = 0 := by
    unfold overflow
    omega
  rw [hnone]
  refine ⟨fun absRow _ _ _ col _ => ?_, fun key p hp => ⟨p, hp, ?_⟩⟩
  · rw [Nat.cast_zero, add_zero]
  · exact add_zero p.destRow

/-- A resize with a known cell size moves the placements with the cursor of the active screen, and
with the rows if none is joined or split. -/
theorem resize_moves (outside : Outside) {t : Terminal} (hsound : t.crosswords.Sound False)
    {numCols numLines cellWidth cellHeight : ℕ} (hlines : 1 ≤ numLines)
    (hcell : 0 < cellWidth ∧ 0 < cellHeight) :
    t.Resizes (t.operate outside (.resize numCols numLines cellWidth cellHeight)) numCols
      numLines := by
  by_cases hsame : t.crosswords.grid.columns = numCols ∧ t.crosswords.grid.lines = numLines
  · rw [operate_same cellWidth cellHeight hsame]
    obtain ⟨rfl, rfl⟩ := hsame
    refine ⟨fun key p hp => ⟨p, hp, ?_⟩, fun _ => ?_, fun _ _ _ => ?_⟩
    · rw [sub_self, sub_self]
    · exact movesWith_refl hsound.grid _
    · rw [← hsound.lines_eq]
      exact movesWith_refl hsound.inactive _
  generalize ht' : t.operate outside (.resize numCols numLines cellWidth cellHeight) = t'
  have hgrid : t'.crosswords.grid =
      t.crosswords.grid.resize (!t.crosswords.mode.altScreen) numLines numCols := by
    rw [← ht']
    show (t.crosswords.resize numCols numLines cellWidth cellHeight).grid = _
    unfold Crosswords.resize
    dsimp only
    rw [if_neg hsame]
  have hinactive : t'.crosswords.inactiveGrid =
      t.crosswords.inactiveGrid.resize t.crosswords.mode.altScreen numLines numCols := by
    rw [← ht']
    show (t.crosswords.resize numCols numLines cellWidth cellHeight).inactiveGrid = _
    unfold Crosswords.resize
    dsimp only
    rw [if_neg hsame]
  have hknown : ¬((t.crosswords.grid.columns = numCols ∧ t.crosswords.grid.lines = numLines) ∨
      cellWidth = 0 ∨ cellHeight = 0) := by omega
  have hscreens : t'.graphics.screen = t.graphics.screen.mapPlacements
        (·.resize cellWidth cellHeight (t'.cursorRow - t.cursorRow)) ∧
      t'.graphics.kittyInactiveScreen = t.graphics.kittyInactiveScreen.mapPlacements
        (·.resize cellWidth cellHeight (t'.cursorRow - t.cursorRow)) := by
    rw [← ht']
    unfold operate
    dsimp only
    rw [if_neg hknown]
    exact ⟨rfl, rfl⟩
  obtain ⟨hscreen, hother⟩ := hscreens
  have hcursor (hstill : t.crosswords.grid.Still (!t.crosswords.mode.altScreen) numCols) :
      t.crosswords.grid.KeepsText t'.crosswords.grid (t.crosswords.grid.overflow numLines) ∧
        t'.cursorRow + t.crosswords.grid.overflow numLines = t.cursorRow := by
    have htext := resize_text hsound.grid hlines hstill
    rw [← hgrid] at htext
    exact htext
  refine ⟨fun key p hp => ?_, fun hstill => ?_, fun hstill hstill' hsameOverflow => ?_⟩
  · rw [hscreen]
    obtain ⟨p', hp', hrow⟩ := lookup_resize cellWidth cellHeight
      (t'.cursorRow - t.cursorRow) hp
    exact ⟨p', hp', by omega⟩
  · obtain ⟨htext, hshift⟩ := hcursor hstill
    refine ⟨htext, fun key p hp => ?_⟩
    rw [hscreen]
    obtain ⟨p', hp', hrow⟩ := lookup_resize cellWidth cellHeight
      (t'.cursorRow - t.cursorRow) hp
    exact ⟨p', hp', by omega⟩
  · obtain ⟨-, hshift⟩ := hcursor hstill
    refine ⟨?_, fun key p hp => ?_⟩
    · rw [hinactive]
      exact (resize_text hsound.inactive hlines hstill').1
    · rw [hother]
      obtain ⟨p', hp', hrow⟩ := lookup_resize cellWidth cellHeight
        (t'.cursorRow - t.cursorRow) hp
      exact ⟨p', hp', by omega⟩

theorem resize_moves_larger : withPlacement.Resizes
    (withPlacement.operate plainOutside (.resize 3 3 1 1)) 3 3 :=
  resize_moves plainOutside (Crosswords.new_sound False (by decide) (by decide) 5) (by decide)
    (by decide)

/-- A placement of the active screen is on a row with the text of the row that it was on. -/
def KeepsRow (t t' : Terminal) (key : ℕ × ℕ) : Prop :=
  ∃ p p', t.graphics.screen.kittyPlacements.lookup key = some p ∧
    t'.graphics.screen.kittyPlacements.lookup key = some p' ∧
    (0 ≤ p'.destRow ∧ p'.destRow < t'.crosswords.grid.historySize + t'.crosswords.grid.lines) ∧
    ∀ col < min t.crosswords.grid.columns t'.crosswords.grid.columns,
      t'.crosswords.grid.textAt p'.destRow col = t.crosswords.grid.textAt p.destRow col

/-- A terminal with an image on its first row and a text below that wraps. -/
def aboveWrapped : Terminal :=
  run plainOutside (.new 2 4 10)
    [.op (.resize 2 3 1 1), .op (.input 'x'), .op (.goto 0 0),
      .ofText "Ga=T,i=1,p=1,f=24,s=1,v=1,C=1;/wAA", .op (.goto 1 0), .op (.input 'a'),
      .op (.input 'b'), .op (.input 'c')]

/-- The text below is joined, and the image leaves the first row, whose text stays. -/
theorem reflow_leaves_row :
    (∀ col < 2, (aboveWrapped.operate plainOutside (.resize 4 3 1 1)).crosswords.grid.textAt 0 col =
      aboveWrapped.crosswords.grid.textAt 0 col) ∧
    (aboveWrapped.graphics.screen.kittyPlacements.lookup (1, 1)).map (·.destRow) = some 0 ∧
    ¬aboveWrapped.KeepsRow (aboveWrapped.operate plainOutside (.resize 4 3 1 1)) (1, 1) := by
  have hafter : ((aboveWrapped.operate plainOutside (.resize 4 3 1 1)
      ).graphics.screen.kittyPlacements.lookup (1, 1)).map (·.destRow) = some (-1) := by
    decide +kernel
  refine ⟨by decide +kernel, by decide +kernel, ?_⟩
  rintro ⟨p, p', -, hp', ⟨hfirst, -⟩, -⟩
  rw [hp', Option.map_some, Option.some.injEq] at hafter
  omega

end Terminal
end Rio.Kitty
