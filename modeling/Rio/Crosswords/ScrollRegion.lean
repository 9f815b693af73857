import Rio.Crosswords.Bounds
import Rio.Crosswords.Frame

/-! The scroll region over runs: where it lies inside the screen, and which arguments of
`setScrollingRegion` take it out. -/

set_option linter.dupNamespace false

namespace Rio.Crosswords
open Rio.Runs

/-- The scroll region is a non-empty part of the screen. -/
def RegionInside (t : Crosswords) : Prop :=
  0 ≤ t.scrollRegion.start ∧ t.scrollRegion.start < t.scrollRegion.stop ∧
    t.scrollRegion.stop ≤ t.grid.lines

instance (t : Crosswords) : Decidable t.RegionInside :=
  inferInstanceAs (Decidable (_ ∧ _ ∧ _))

/-- The operation leaves a region inside the screen; setting the region leaves it as it was or
installs one of at least two lines. -/
def KeepsRegion (u : Unicode) (t : Crosswords) (op : Op) : Prop :=
  (t.step u op).RegionInside ∧
    ∀ top bottom, op = .setScrollingRegion top bottom →
      (t.step u op).scrollRegion = t.scrollRegion ∨
        (t.step u op).scrollRegion.start + 2 ≤ (t.step u op).scrollRegion.stop

/-- The arguments of `setScrollingRegion` are rejected, start above the last line, or name the
one-line region that is set already. -/
def RegionFits (t : Crosswords) : Op → Prop
  | .setScrollingRegion top bottom =>
    bottom.getD t.grid.lines ≤ top ∨ 1 ≤ top ∧ top < t.grid.lines ∨
      1 ≤ top ∧ top = t.grid.lines ∧ t.scrollRegion = ⟨(top : ℤ) - 1, top⟩
  | _ => True

variable {t t' : Crosswords}

theorem RegionInside.of_eq (h : t.RegionInside) (hregion : t'.scrollRegion = t.scrollRegion)
    (hlines : t'.grid.lines = t.grid.lines) : t'.RegionInside := by
  unfold RegionInside at h ⊢
  rwa [hregion, hlines]

theorem regionInside_full (hregion : t.scrollRegion = ⟨0, t.grid.lines⟩)
    (hlines : 1 ≤ t.grid.lines) : t.RegionInside := by
  unfold RegionInside
  rw [hregion]
  dsimp only
  omega

theorem setScrollingRegion_of_le {top : ℕ} {bottom : Option ℕ}
    (hle : bottom.getD t.grid.lines ≤ top) : t.setScrollingRegion top bottom = t := by
  unfold setScrollingRegion
  dsimp only
  rw [if_pos hle]

theorem setScrollingRegion_lines (t : Crosswords) (top : ℕ) (bottom : Option ℕ) :
    (t.setScrollingRegion top bottom).grid.lines = t.grid.lines := by
  unfold setScrollingRegion
  dsimp only
  split_ifs
  · rfl
  · exact (frame_goto _ 0 0).lines

/-- The region that arguments in the right order install. -/
theorem setScrollingRegion_region {top : ℕ} {bottom : Option ℕ}
    (hlt : top < bottom.getD t.grid.lines) :
    (t.setScrollingRegion top bottom).scrollRegion =
      ⟨min ((top : ℤ) - 1) t.grid.lines, min (bottom.getD t.grid.lines : ℤ) t.grid.lines⟩ := by
  unfold setScrollingRegion
  dsimp only
  rw [if_neg (by omega)]
  exact (frame_goto _ 0 0).scrollRegion

/-- Setting the region does what it should exactly when its arguments fit. -/
theorem keepsRegion_setScrollingRegion_iff (u : Unicode) (h : t.RegionInside) (top : ℕ)
    (bottom : Option ℕ) :
    KeepsRegion u t (.setScrollingRegion top bottom) ↔
      RegionFits t (.setScrollingRegion top bottom) := by
  obtain ⟨hstart, hlt, hstop⟩ := h
  unfold KeepsRegion RegionFits RegionInside
  show ((0 ≤ (t.setScrollingRegion top bottom).scrollRegion.start ∧
    (t.setScrollingRegion top bottom).scrollRegion.start <
      (t.setScrollingRegion top bottom).scrollRegion.stop ∧
    (t.setScrollingRegion top bottom).scrollRegion.stop ≤
      (t.setScrollingRegion top bottom).grid.lines) ∧ _) ↔ _
  rw [setScrollingRegion_lines]
  by_cases hle : bottom.getD t.grid.lines ≤ top
  · simp only [hle, true_or, iff_true, Op.setScrollingRegion.injEq]
    rw [setScrollingRegion_of_le hle]
    refine ⟨⟨hstart, hlt, hstop⟩, fun top' bottom' heq => .inl ?_⟩
    show (t.setScrollingRegion top bottom).scrollRegion = t.scrollRegion
    rw [setScrollingRegion_of_le hle]
  · have hregion := setScrollingRegion_region (t := t) (not_le.mp hle)
    constructor
    · rintro ⟨hinside, hcontract⟩
      have hcontract' := hcontract top bottom rfl
      change (t.setScrollingRegion top bottom).scrollRegion = t.scrollRegion ∨
        (t.setScrollingRegion top bottom).scrollRegion.start + 2 ≤
          (t.setScrollingRegion top bottom).scrollRegion.stop at hcontract'
      rw [hregion] at hinside hcontract'
      dsimp only at hinside hcontract'
      rcases hcontract' with hsame | htwo
      · by_cases hlast : top < t.grid.lines
        · exact .inr (.inl ⟨by omega, hlast⟩)
        · refine .inr (.inr ⟨by omega, by omega, ?_⟩)
          rw [← hsame]
          congr 1 <;> omega
      · exact .inr (.inl ⟨by omega, by omega⟩)
    · intro hfits
      have hargs : 1 ≤ top ∧ top ≤ t.grid.lines := by omega
      refine ⟨?_, fun top' bottom' _ => ?_⟩
      · rw [hregion]
        dsimp only
        omega
      · show (t.setScrollingRegion top bottom).scrollRegion = t.scrollRegion ∨
          (t.setScrollingRegion top bottom).scrollRegion.start + 2 ≤
            (t.setScrollingRegion top bottom).scrollRegion.stop
        rw [hregion]
        rcases hfits with hle' | hinside | ⟨-, hlast, hsame⟩
        · exact absurd hle' hle
        · right
          dsimp only
          omega
        · left
          rw [hsame]
          congr 1 <;> omega

theorem RegionInside.deccolm (h : t.RegionInside) : t.deccolm.RegionInside := by
  obtain ⟨hstart, hlt, hstop⟩ := h
  have hlines : t.deccolm.grid.lines = t.grid.lines := setScrollingRegion_lines t 1 none
  by_cases hle : t.grid.lines ≤ 1
  · have heq : t.setScrollingRegion 1 none = t := setScrollingRegion_of_le hle
    refine RegionInside.of_eq ⟨hstart, hlt, hstop⟩ ?_ hlines
    show (t.setScrollingRegion 1 none).scrollRegion = t.scrollRegion
    rw [heq]
  · refine regionInside_full ?_ (by omega)
    rw [hlines]
    have hregion : (t.setScrollingRegion 1 none).scrollRegion = _ :=
      setScrollingRegion_region (not_le.mp hle)
    exact hregion.trans (by simp)

theorem RegionInside.swapAlt (h : t.RegionInside) (hsound : t.Sound False) :
    t.swapAlt.RegionInside := by
  have hregion : t.swapAlt.scrollRegion = t.scrollRegion := by
    unfold Crosswords.swapAlt
    dsimp only
    split_ifs <;> rfl
  have hlines : t.swapAlt.grid.lines = t.inactiveGrid.lines := by
    unfold Crosswords.swapAlt
    dsimp only
    split_ifs <;> rfl
  exact h.of_eq hregion (hlines.trans hsound.lines_eq)

/-- Every operation but setting the region keeps it inside the screen. -/
theorem RegionInside.step (h : t.RegionInside) (hsound : t.Sound False) (u : Unicode) {op : Op}
    (hsized : op.Sized) (hset : ∀ top bottom, op ≠ .setScrollingRegion top bottom) :
    (t.step u op).RegionInside := by
  by_cases hedits : EditsScreen op
  · have hframe := step_frame u t hedits
    exact h.of_eq hframe.scrollRegion hframe.lines
  cases op with
  | setScrollingRegion top bottom => exact absurd rfl (hset top bottom)
  | resetState =>
    refine regionInside_full ?_ hsound.resetState.grid.lines_pos
    show (t.resetState).scrollRegion = ⟨0, t.resetState.grid.lines⟩
    unfold Crosswords.resetState
    rfl
  | setMode mode => cases mode <;> exact h.of_eq rfl rfl
  | unsetMode mode => cases mode <;> exact h.of_eq rfl rfl
  | setPrivateMode mode =>
    rcases mode with mode | mode
    · cases mode with
      | swapScreenAndSetRestoreCursor =>
        show (if t.mode.altScreen then t else t.swapAlt).RegionInside
        split_ifs
        · exact h
        · exact h.swapAlt hsound
      | columnMode => exact h.deccolm
      | _ => exact h.of_eq rfl rfl
    · exact h.of_eq rfl rfl
  | unsetPrivateMode mode =>
    rcases mode with mode | mode
    · cases mode with
      | swapScreenAndSetRestoreCursor =>
        show (if t.mode.altScreen then t.swapAlt else t).RegionInside
        split_ifs
        · exact h.swapAlt hsound
        · exact h
      | columnMode => exact h.deccolm
      | _ => exact h.of_eq rfl rfl
    · exact h.of_eq rfl rfl
  | setKeypadApplicationMode => exact h.of_eq rfl rfl
  | unsetKeypadApplicationMode => exact h.of_eq rfl rfl
  | setKeyboardMode mode apply => exact h.of_eq rfl rfl
  | pushKeyboardMode mode => exact h.of_eq rfl rfl
  | popKeyboardModes toPop =>
    show (t.popKeyboardModes toPop).RegionInside
    unfold Crosswords.popKeyboardModes
    split_ifs
    · exact h.of_eq rfl rfl
    · obtain ⟨stack, idx, heq⟩ := popKeyboardMode_iterate t toPop
      rw [heq]
      exact h.of_eq rfl rfl
  | toggleViMode =>
    show t.toggleViMode.RegionInside
    unfold Crosswords.toggleViMode
    dsimp only
    split_ifs <;> exact h.of_eq rfl rfl
  | resize numCols numLines cellWidth cellHeight =>
    show (t.resize numCols numLines cellWidth cellHeight).RegionInside
    unfold Crosswords.resize
    dsimp only
    by_cases hsame : t.grid.columns = numCols ∧ t.grid.lines = numLines
    · rwa [if_pos hsame]
    · rw [if_neg hsame]
      refine regionInside_full rfl ?_
      show 1 ≤ (t.grid.resize _ numLines numCols).lines
      rw [Grid.resize_lines]
      exact hsized.2
  | _ => exact absurd trivial hedits

/-- The region of a run is inside the screen after every step, and every `setScrollingRegion`
does what it should, exactly when all their arguments fit. -/
theorem run_keepsRegion_iff (u : Unicode) {columns lines : ℕ} (hcolumns : 2 ≤ columns)
    (hlines : 1 ≤ lines) (limit : ℕ) {ops : List Op} (hsized : ∀ op ∈ ops, op.Sized) :
    (new columns lines limit).RegionInside ∧
      (Permitted (step u) (KeepsRegion u) (new columns lines limit) ops ↔
        Permitted (step u) RegionFits (new columns lines limit) ops) := by
  have hfull : (new columns lines limit).RegionInside := regionInside_full rfl hlines
  refine ⟨hfull, permitted_congr (p := Op.Sized) (I := fun t => t.RegionInside ∧ t.Sound False)
    ?_ ?_ ops _ hsized ⟨hfull, new_sound False hcolumns hlines limit⟩⟩
  · exact fun t op h hop hkeeps => ⟨hkeeps.1, step_sound h.2 u hop False.elim⟩
  · rintro t op ⟨h, hsound⟩ hop
    by_cases hset : ∃ top bottom, op = .setScrollingRegion top bottom
    · obtain ⟨top, bottom, rfl⟩ := hset
      exact keepsRegion_setScrollingRegion_iff u h top bottom
    · have hne (top : ℕ) (bottom : Option ℕ) : op ≠ .setScrollingRegion top bottom :=
        fun heq => hset ⟨top, bottom, heq⟩
      have hfits : RegionFits t op := by
        cases op with
        | setScrollingRegion top bottom => exact absurd rfl (hne top bottom)
        | _ => exact trivial
      exact iff_of_true
        ⟨h.step hsound u hop hne, fun top bottom heq => absurd heq (hne top bottom)⟩ hfits

theorem run_keepsRegion_resized :
    (new 4 3 5).RegionInside ∧
      (Permitted (step .basic) (KeepsRegion .basic) (new 4 3 5)
          [.setScrollingRegion 2 (some 9), .resize 4 1 0 0] ↔
        Permitted (step .basic) RegionFits (new 4 3 5)
          [.setScrollingRegion 2 (some 9), .resize 4 1 0 0]) :=
  run_keepsRegion_iff .basic (by decide) (by decide) 5 (by simp [Op.Sized])

/-- Arguments below the last line install an empty region. -/
theorem setScrollingRegion_empty :
    ¬((new 2 2 0).run .basic [.setScrollingRegion 3 (some 4)]).RegionInside := by
  decide

end Rio.Crosswords
