import Rio.Grid.Sound

/-! Where the text of a line was before lines were scrolled. -/

set_option linter.dupNamespace false

namespace Rio

namespace Region

/-- The line that the text of a line was on before the lines of a region were scrolled up. -/
def originUp (r : Region) (n : ℕ) (line : ℤ) : Option ℤ :=
  if line < r.start ∧ r.start ≠ 0 ∨ r.stop ≤ line then some line
  else if line < r.stop - r.clamp n then some (line + r.clamp n)
  else none

/-- The line that the text of a line was on before the lines of a region were scrolled down. -/
def originDown (r : Region) (n : ℕ) (line : ℤ) : Option ℤ :=
  if line < r.start ∨ r.stop ≤ line then some line
  else if line < r.start + r.clamp n then none
  else some (line - r.clamp n)

end Region

/-- A line has the cells that it had at its origin; a line without one is blank. -/
def Grid.HasOrigin (g g' : Grid Square) (line : ℤ) (origin : Option ℤ) : Prop :=
  match origin with
  | some l => g.topmostLine ≤ l ∧ l < g.lines ∧ ∀ col, g'.cell ⟨line, col⟩ = g.cell ⟨l, col⟩
  | none => g'.row line = Row.blank g.columns g.cursor.template

namespace Grid

/-- A position of the screen or its history. -/
def HasCell (g : Grid Square) (p : Pos) : Prop :=
  g.topmostLine ≤ p.row ∧ p.row < g.lines ∧ p.col < g.columns

variable {g : Grid Square} {r : Region} {n : ℕ}

theorem topmostLine_eq (g : Grid Square) : g.topmostLine = -(g.historySize : ℤ) := rfl

theorem cell_eq {g' : Grid Square} {line l : ℤ}
    (h : g'.row line = g.row l ∨ g'.row line = (g.row l).markDirty) (col : ℕ) :
    g'.cell ⟨line, col⟩ = g.cell ⟨l, col⟩ := by
  unfold cell
  obtain h | h := h
  · rw [h]
  · rw [h]
    rfl

theorem hasOrigin_scrollUp (hg : g.WellFormed) (hstart : 0 ≤ r.start) (hregion : r.start ≤ r.stop)
    (hstop : r.stop ≤ g.lines) (hn : r.start = 0 → n ≤ r.stop) {line : ℤ}
    (htop : (g.scrollUp r n).topmostLine ≤ line) (hline : line < g.lines) :
    g.HasOrigin (g.scrollUp r n) line (r.originUp n line) := by
  have hclamp : r.clamp n = min n (r.stop - r.start).toNat := rfl
  rw [topmostLine_eq] at htop
  unfold Region.originUp HasOrigin
  rw [topmostLine_eq]
  by_cases hzero : r.start = 0
  · have hsize := historySize_scrollUp_top (r := r) hg hzero n
    have hrow := row_scrollUp_top hg hzero hstop (hn hzero) htop hline
    have hk : r.clamp n = n := by
      have := hn hzero
      omega
    rw [hk]
    rw [hsize] at htop
    split_ifs with hfixed hmoved
    · have hlast : r.stop ≤ line := by omega
      rw [if_pos hlast] at hrow
      exact ⟨by omega, hline, cell_eq (.inl hrow)⟩
    · rw [if_neg (by omega)] at hrow
      refine ⟨by omega, by omega, cell_eq ?_⟩
      by_cases hneg : line < 0
      · rw [if_pos hneg] at hrow
        exact .inl hrow
      · rw [if_neg hneg, if_pos hmoved] at hrow
        exact .inr hrow
    · rw [if_neg (by omega), if_neg (by omega), if_neg hmoved] at hrow
      exact hrow
  · have hsize := historySize_scrollUp_inner (g := g) (r := r) (by omega) n
    rw [hsize] at htop
    by_cases hempty : r.start = r.stop
    · have hrow : (g.scrollUp r n).row line = g.row line := by
        unfold row
        rw [scrollUp_raw_reset ⟨by omega, hzero⟩, lineRange_empty (by omega)]
        rfl
      rw [if_pos (by omega)]
      exact ⟨htop, hline, cell_eq (.inl hrow)⟩
    have hrow := row_scrollUp_inner hg (by omega) (by omega) hstop hclamp htop hline
    split_ifs with hfixed hmoved
    · rw [if_pos (by omega)] at hrow
      exact ⟨htop, hline, cell_eq (.inl hrow)⟩
    · rw [if_neg (by omega), if_pos hmoved] at hrow
      exact ⟨by omega, by omega, cell_eq (.inr hrow)⟩
    · rw [if_neg (by omega), if_neg hmoved] at hrow
      exact hrow

theorem hasOrigin_scrollDown (hg : g.WellFormed) (hstart : 0 ≤ r.start) (hstop : r.stop ≤ g.lines) {line : ℤ}
    (htop : (g.scrollDown r n).topmostLine ≤ line) (hline : line < g.lines) :
    g.HasOrigin (g.scrollDown r n) line (r.originDown n line) := by
  have hclamp : r.clamp n = min n (r.stop - r.start).toNat := rfl
  rw [topmostLine_eq, historySize_scrollDown] at htop
  have hrow := row_scrollDown hg hstart hstop hclamp htop hline
  unfold Region.originDown HasOrigin
  rw [topmostLine_eq]
  split_ifs with hfixed hblank
  · rw [if_pos hfixed] at hrow
    exact ⟨htop, hline, cell_eq (.inl hrow)⟩
  · rw [if_neg hfixed, if_pos hblank] at hrow
    exact hrow
  · rw [if_neg hfixed, if_neg hblank] at hrow
    exact ⟨by omega, by omega, cell_eq (.inr hrow)⟩

end Grid

end Rio
