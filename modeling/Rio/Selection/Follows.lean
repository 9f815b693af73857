import Rio.Grid.Origin
import Rio.Selection.Rotate

/-! Which cells a selection covers after lines are scrolled. -/

set_option linter.dupNamespace false

namespace Rio

namespace Selection

variable {s : Selection} {g g' : Grid Square} {r : Region} {n : ℕ} {a b a' b' : Anchor} {p : Pos}
  {origin : ℤ → Option ℤ} {edge : ℤ}

/-- The selection after a scroll, whose lines come from others, and between whose anchors blank
lines come in at an edge. -/
structure Follows (s : Selection) (g g' : Grid Square) (origin : ℤ → Option ℤ) (edge : ℤ)
    (rotated : Option Selection) : Prop where
  lines : ∀ line, g'.topmostLine ≤ line → line < g'.lines → g.HasOrigin g' line (origin line)
  cells : ∀ p : Pos, g'.topmostLine ≤ p.row → p.row < g'.lines → p.col < g'.columns →
    ((∃ s' ∈ rotated, s'.Covers g' p) ↔
      (∃ l, origin p.row = some l ∧ s.Covers g ⟨l, p.col⟩) ∨
        origin p.row = none ∧ s.lower.point.row < edge ∧ edge ≤ s.upper.point.row ∧
          (s.ty = .block → Columns s.lower s.upper p.col))

/-- Anchors that are spelled in a way that no scroll changes what is selected. -/
structure Kept (s : Selection) (g : Grid Square) (r : Region) : Prop where
  anchored : s.Anchored g
  edges : s.ty = .simple → AtEdges s.lower s.upper g.columns →
    s.lower.point.row + 1 ≠ s.upper.point.row ∧
      (inRange r s.lower.point.row ↔ inRange r s.upper.point.row)
  block : s.ty = .block → s.lower.point.col = s.upper.point.col → s.lower.side = .right →
    s.upper.side = .left → s.lower.point.row = s.upper.point.row

/-- Lines are scrolled up, and the upper anchor is not scrolled out from under the lower one. -/
structure KeptUp (s : Selection) (g : Grid Square) (r : Region) (n : ℕ) : Prop extends
    s.Kept g r where
  stays : r.start = 0 → s.lower.point.row < r.stop →
    (g.scrollUp r n).topmostLine ≤ s.lower.point.row - n ∨
      s.upper.point.row - n < (g.scrollUp r n).topmostLine ∨ Sided s.ty s.lower s.upper
  upper : 0 < r.start → s.lower.point.row < r.start → s.upper.point.row < r.start ∨
    r.stop ≤ s.upper.point.row ∨ r.start + n ≤ s.upper.point.row

/-- Lines are scrolled down, and no anchor is scrolled out at the end of the screen or towards the
upper one. -/
structure KeptDown (s : Selection) (g : Grid Square) (r : Region) (n : ℕ) : Prop extends
    s.Kept g r where
  history : r.start ≤ s.lower.point.row ∨ r.start ≠ 0
  lower : inRange r s.lower.point.row → s.lower.point.row + n < r.stop ∨
    s.upper.point.row < r.stop ∧ r.stop < g.lines
  upper : inRange r s.upper.point.row → s.upper.point.row + n < r.stop ∨ r.stop < g.lines ∨
    s.ty = .block ∨ s.ty = .lines

/-- Where the anchors are when the selection is kept. -/
structure Moved (s : Selection) (g g' : Grid Square) (origin : ℤ → Option ℤ) (edge : ℤ)
    (a' b' : Anchor) : Prop where
  le : s.ty = .simple ∨ s.ty = .semantic → a'.point = b'.point ∨ a'.point < b'.point
  row_le : a'.point.row ≤ b'.point.row
  lower : a'.point.row < g'.lines ∧ a'.point.col < g'.columns
  upper : b'.point.row < g'.lines ∧ b'.point.col < g'.columns
  anchored : g'.topmostLine ≤ a'.point.row ∨ b'.point.row < g'.topmostLine ∨ Sided s.ty a' b'
  edges : s.ty = .simple → AtEdges a' b' g'.columns → a'.point.row + 1 ≠ b'.point.row
  between : ∀ ty', (s.ty = .simple ∨ s.ty = .semantic) ∧ (ty' = s.ty ∨ ty' = .semantic) ∨
    ty' = .lines → ∀ p : Pos, p.col < g'.columns → (Between (lowerEnd ty' a') (upperEnd ty' g b') p ↔
      (∃ l, origin p.row = some l ∧
        Between (lowerEnd ty' s.lower) (upperEnd ty' g s.upper) ⟨l, p.col⟩) ∨
      origin p.row = none ∧ s.lower.point.row < edge ∧ edge ≤ s.upper.point.row)
  crossed : Crossed s.lower s.upper → Crossed a' b'
  of_crossed : s.ty = .simple → Crossed a' b' → Crossed s.lower s.upper
  columns : s.ty = .block → a'.point.col = s.lower.point.col ∧ a'.side = s.lower.side ∧
    b'.point.col = s.upper.point.col ∧ b'.side = s.upper.side

/-! ### The cells of the anchors that moved -/

theorem pos_eq {p q : Pos} (hrow : p.row = q.row) (hcol : p.col = q.col) : p = q := by
  cases p
  cases q
  exact (Pos.mk.injEq ..).symm ▸ ⟨hrow, hcol⟩

theorem withAnchors_cases (s : Selection) (hrow : a.point.row ≤ b.point.row) :
    (s.withAnchors a b).ty = s.ty ∧
      ((s.withAnchors a b).lower = a ∧ (s.withAnchors a b).upper = b ∨
        ¬ a.point < b.point ∧ a.point.row = b.point.row ∧ (s.withAnchors a b).lower = b ∧
          (s.withAnchors a b).upper = a) := by
  unfold withAnchors lower upper backwards
  by_cases hs : s.stop.point < s.start.point
  · rw [decide_eq_true hs, if_pos rfl]
    dsimp only
    by_cases hab : a.point < b.point
    · rw [decide_eq_true hab, if_pos rfl, if_pos rfl]
      exact ⟨rfl, .inl ⟨rfl, rfl⟩⟩
    · rw [decide_eq_false hab, if_neg Bool.false_ne_true, if_neg Bool.false_ne_true]
      refine ⟨rfl, .inr ⟨hab, ?_, rfl, rfl⟩⟩
      rw [Pos.lt_iff] at hab
      omega
  · rw [decide_eq_false hs, if_neg Bool.false_ne_true]
    dsimp only
    by_cases hba : b.point < a.point
    · rw [decide_eq_true hba, if_pos rfl, if_pos rfl]
      rw [Pos.lt_iff] at hba
      refine ⟨rfl, .inr ⟨?_, ?_, rfl, rfl⟩⟩
      · rw [Pos.lt_iff]
        omega
      · omega
    · rw [decide_eq_false hba, if_neg Bool.false_ne_true, if_neg Bool.false_ne_true]
      exact ⟨rfl, .inl ⟨rfl, rfl⟩⟩

theorem text_of_crossed_ends (g : Grid Square) (h : Crossed a b) : Text a b p ↔
    Between (lowerEnd .semantic a) (upperEnd .semantic g b) p := by
  rw [text_of_crossed h, ← text_of_not_crossed fun h => Side.noConfusion h.2.1]
  unfold Text lowerEnd upperEnd
  rw [if_pos h.1]
  exact (and_iff_left nofun).symm

theorem text_of_not_crossed_ends {ty : SelectionType} (g : Grid Square) (hty : ty ≠ .block)
    (h : ty = .simple → ¬ Crossed a b) : Text (lowerEnd ty a) (upperEnd ty g b) p ↔
      Between (lowerEnd ty a) (upperEnd ty g b) p := by
  refine text_of_not_crossed fun hcrossed => ?_
  cases ty with
  | simple => exact h rfl hcrossed
  | block => exact hty rfl
  | semantic => exact Side.noConfusion hcrossed.2.1
  | lines => exact Side.noConfusion hcrossed.2.1

theorem text_comm_ends {ty : SelectionType} (hty : ty ≠ .block)
    (h : ty = .simple ∨ ty = .semantic → a.point = b.point) (hrow : a.point.row = b.point.row) :
    Text (lowerEnd ty b) (upperEnd ty g a) p ↔ Text (lowerEnd ty a) (upperEnd ty g b) p := by
  cases ty with
  | simple => exact text_comm (h (.inl rfl)).symm
  | block => exact absurd rfl hty
  | semantic =>
    unfold lowerEnd upperEnd
    rw [h (.inr rfl)]
  | lines =>
    unfold lowerEnd upperEnd
    rw [hrow]

theorem upperEnd_congr (hcolumns : g'.columns = g.columns) (ty : SelectionType) (b : Anchor) :
    upperEnd ty g' b = upperEnd ty g b := by
  have hlast : g'.lastColumn = g.lastColumn := congrArg (· - 1) hcolumns
  unfold upperEnd
  rw [hlast]

/-- The text between the anchors is selected where they moved. -/
theorem Moved.covers_text (h : s.Moved g g' origin edge a' b') (hty : s.ty ≠ .block)
    (htop : g'.topmostLine ≤ p.row) (hp : p.col < g'.columns) :
    (s.withAnchors a' b').Covers g' p ↔ Text (lowerEnd s.ty a') (upperEnd s.ty g' b') p := by
  obtain ⟨htype, ⟨hlower, hupper⟩ | ⟨hlt, hrow, hlower, hupper⟩⟩ := s.withAnchors_cases h.row_le
  · have hcovers := Selection.covers_text (s := s.withAnchors a' b') (g := g') (p := p)
      (htype.symm ▸ hty) ⟨hlower.symm ▸ h.lower, hupper.symm ▸ h.upper⟩ ?_ ?_ htop hp
    · rwa [htype, hlower, hupper] at hcovers
    · unfold Anchored
      rw [htype, hlower, hupper]
      exact h.anchored
    · rw [htype, hlower, hupper]
      exact h.edges
  · have hcovers := Selection.covers_text (s := s.withAnchors a' b') (g := g') (p := p)
      (htype.symm ▸ hty) ⟨hlower.symm ▸ h.upper, hupper.symm ▸ h.lower⟩ ?_ ?_ htop hp
    · rw [htype, hlower, hupper] at hcovers
      exact hcovers.trans (text_comm_ends hty (fun htext => (h.le htext).resolve_right hlt) hrow)
    · unfold Anchored
      rw [hlower, hupper, hrow]
      exact (le_or_gt g'.topmostLine b'.point.row).imp_right .inl
    · rw [htype, hlower, hupper, hrow]
      exact fun _ _ => (Int.lt_succ_self _).ne'

/-- A column is selected in whatever order the anchors are. -/
theorem columns_comm {col : ℕ} (h : ¬ a.point < b.point) (hrow : a.point.row = b.point.row) :
    Columns b a col ↔ Columns a b col := by
  unfold Columns
  by_cases hpoint : a.point = b.point
  · rw [if_pos hpoint, if_pos hpoint.symm, hpoint, ne_comm]
  · have hcol : b.point.col < a.point.col := by
      rw [Pos.lt_iff] at h
      exact lt_of_le_of_ne (by omega) fun hcol => hpoint (pos_eq hrow hcol.symm)
    rw [if_neg hpoint, if_neg (Ne.symm hpoint), if_pos hcol, if_neg (not_lt.mpr hcol.le)]

theorem Moved.covers_block (h : s.Moved g g' origin edge a' b') (hty : s.ty = .block)
    (htop : g'.topmostLine ≤ p.row) : (s.withAnchors a' b').Covers g' p ↔
      a'.point.row ≤ p.row ∧ p.row ≤ b'.point.row ∧ Columns a' b' p.col := by
  have hanchored : g'.topmostLine ≤ a'.point.row ∨ b'.point.row < g'.topmostLine := by
    obtain hin | hout | ⟨hne, -⟩ := h.anchored
    · exact .inl hin
    · exact .inr hout
    · exact absurd hty hne
  obtain ⟨htype, ⟨hlower, hupper⟩ | ⟨hlt, hrow, hlower, hupper⟩⟩ := s.withAnchors_cases h.row_le
  · have hcovers := Selection.covers_block (s := s.withAnchors a' b') (g := g') (p := p)
      (htype.trans hty) ⟨hlower.symm ▸ h.lower, hupper.symm ▸ h.upper⟩ ?_ htop
    · rwa [hlower, hupper] at hcovers
    · unfold Anchored
      rw [hlower, hupper]
      exact hanchored.imp_right .inl
  · have hcovers := Selection.covers_block (s := s.withAnchors a' b') (g := g') (p := p)
      (htype.trans hty) ⟨hlower.symm ▸ h.upper, hupper.symm ▸ h.lower⟩ ?_ htop
    · rw [hlower, hupper, hrow, columns_comm hlt hrow] at hcovers
      rw [hrow]
      exact hcovers
    · unfold Anchored
      rw [hlower, hupper, hrow]
      exact (le_or_gt g'.topmostLine b'.point.row).imp_right .inl

theorem columns_of_same (hcol : a.point.col = b.point.col)
    (hside : ¬ (a.side = .right ∧ b.side = .left)) {col : ℕ} :
    Columns a b col ↔ a.gap ≤ col ∧ col < b.gap := by
  unfold Columns
  by_cases hpoint : a.point = b.point
  · rw [if_pos hpoint]
    obtain ⟨ha, hagap⟩ | ⟨ha, hagap⟩ := gap_cases a
    · obtain ⟨hb, hbgap⟩ | ⟨hb, hbgap⟩ := gap_cases b
      · rw [hagap, hbgap, ha, hb]
        exact iff_of_false (fun h => h.2 rfl) (by omega)
      · rw [hagap, hbgap, ha, hb, and_iff_left nofun]
        omega
    · obtain ⟨hb, hbgap⟩ | ⟨hb, hbgap⟩ := gap_cases b
      · exact absurd ⟨ha, hb⟩ hside
      · rw [hagap, hbgap, ha, hb]
        exact iff_of_false (fun h => h.2 rfl) (by omega)
  · rw [if_neg hpoint, if_neg hcol.symm.not_lt]

/-- The columns of a block do not depend on its lines. -/
theorem Moved.columns_iff (h : s.Moved g g' origin edge a' b') (hty : s.ty = .block)
    (hblock : s.lower.point.col = s.upper.point.col → s.lower.side = .right →
      s.upper.side = .left → s.lower.point.row = s.upper.point.row) {col : ℕ} :
    Columns a' b' col ↔ Columns s.lower s.upper col := by
  obtain ⟨hacol, haside, hbcol, hbside⟩ := h.columns hty
  have hagap : a'.gap = s.lower.gap := by
    unfold Anchor.gap
    rw [hacol, haside]
  have hbgap : b'.gap = s.upper.gap := by
    unfold Anchor.gap
    rw [hbcol, hbside]
  by_cases hcol : s.lower.point.col = s.upper.point.col
  · by_cases hside : s.lower.side = .right ∧ s.upper.side = .left
    · have hpoint : s.lower.point = s.upper.point :=
        pos_eq (hblock hcol hside.1 hside.2) hcol
      have hcrossed := h.crossed ⟨hpoint, hside⟩
      unfold Columns
      rw [if_pos hpoint, if_pos hcrossed.1, hacol, haside, hbside]
    · rw [columns_of_same hcol hside, columns_of_same ((hacol.trans hcol).trans hbcol.symm)
        (by rwa [haside, hbside]), hagap, hbgap]
  · have hpoint : s.lower.point ≠ s.upper.point := fun heq => hcol (congrArg Pos.col heq)
    have hpoint' : a'.point ≠ b'.point := fun heq =>
      hcol ((hacol.symm.trans (congrArg Pos.col heq)).trans hbcol)
    unfold Columns
    rw [if_neg hpoint, if_neg hpoint', hacol, hbcol, hagap, hbgap]

theorem between_lines (g : Grid Square) (hp : p.col < g.columns)
    (hle : a.point.row ≤ b.point.row) :
    Between (lowerEnd .lines a) (upperEnd .lines g b) p ↔
      a.point.row ≤ p.row ∧ p.row ≤ b.point.row := by
  have hlast : p.col < (upperEnd .lines g b).gap := Nat.lt_succ_of_le (Nat.le_sub_one_of_lt hp)
  have hfirst : (lowerEnd .lines a).gap = 0 := rfl
  unfold Between
  rw [row_lowerEnd, row_upperEnd, hfirst]
  omega

/-- Where the anchors moved the images of the selected cells are selected, and what comes in between
the anchors. -/
theorem Moved.cells (h : s.Moved g g' origin edge a' b') (hwithin : s.Within g) (hkept : s.Kept g r)
    (hcolumns : g'.columns = g.columns)
    (hlines : ∀ line, g'.topmostLine ≤ line → line < g'.lines →
      g.HasOrigin g' line (origin line))
    (htop : g'.topmostLine ≤ p.row) (hrow : p.row < g'.lines) (hp : p.col < g'.columns) :
    (s.withAnchors a' b').Covers g' p ↔
      (∃ l, origin p.row = some l ∧ s.Covers g ⟨l, p.col⟩) ∨
        origin p.row = none ∧ s.lower.point.row < edge ∧ edge ≤ s.upper.point.row ∧
          (s.ty = .block → Columns s.lower s.upper p.col) := by
  have hp' : p.col < g.columns := hcolumns ▸ hp
  have hin (l : ℤ) (hl : origin p.row = some l) : g.topmostLine ≤ l := by
    have horigin := hlines p.row htop hrow
    rw [hl] at horigin
    exact horigin.1
  by_cases hty : s.ty = .block
  · have hbetween := h.between .lines (.inr rfl) p hp
    rw [between_lines g hp' h.row_le] at hbetween
    rw [h.covers_block hty htop, h.columns_iff hty (hkept.block hty), ← and_assoc, hbetween]
    cases ho : origin p.row with
    | none =>
      simp only [reduceCtorEq, false_and, exists_false, false_or, true_and, hty, forall_const,
        and_assoc]
    | some l =>
      have hcovers := Selection.covers_block (p := ⟨l, p.col⟩) hty hwithin hkept.anchored (hin l ho)
      simp only [Option.some.injEq, exists_eq_left', reduceCtorEq, false_and, or_false]
      have hrows := between_lines (p := ⟨l, p.col⟩) g hp' s.row_le
      rw [hrows, hcovers, and_assoc]
  · have hblank : (s.ty = .block → Columns s.lower s.upper p.col) ↔ True :=
      iff_true_intro fun h => absurd h hty
    have hcovers (l : ℤ) (hl : origin p.row = some l) : s.Covers g ⟨l, p.col⟩ ↔
        Text (lowerEnd s.ty s.lower) (upperEnd s.ty g s.upper) ⟨l, p.col⟩ :=
      Selection.covers_text hty hwithin hkept.anchored (fun hsimple hedges =>
        (hkept.edges hsimple hedges).1) (hin l hl) hp'
    rw [h.covers_text hty htop hp, upperEnd_congr hcolumns, hblank, and_true]
    by_cases hcrossed : s.ty = .simple ∧ Crossed s.lower s.upper
    · have hbetween := h.between .semantic (.inl ⟨.inl hcrossed.1, .inr rfl⟩) p hp
      have htext : Text (lowerEnd s.ty a') (upperEnd s.ty g b') p ↔
          Between (lowerEnd .semantic a') (upperEnd .semantic g b') p := by
        rw [hcrossed.1]
        exact text_of_crossed_ends g (h.crossed hcrossed.2)
      rw [htext, hbetween]
      refine or_congr_left (exists_congr fun l => and_congr_right fun hl => ?_)
      rw [hcovers l hl, hcrossed.1]
      exact (text_of_crossed_ends g hcrossed.2).symm
    · have hends : (s.ty = .simple ∨ s.ty = .semantic) ∧ (s.ty = s.ty ∨ s.ty = .semantic) ∨
          s.ty = .lines := by
        cases h : s.ty with
        | simple => exact .inl ⟨.inl rfl, .inl rfl⟩
        | block => exact absurd h hty
        | semantic => exact .inl ⟨.inr rfl, .inl rfl⟩
        | lines => exact .inr rfl
      have hbetween := h.between s.ty hends p hp
      have hcrossed' (hsimple : s.ty = .simple) : ¬ Crossed a' b' :=
        fun h' => hcrossed ⟨hsimple, h.of_crossed hsimple h'⟩
      rw [text_of_not_crossed_ends g hty hcrossed', hbetween]
      refine or_congr_left (exists_congr fun l => and_congr_right fun hl => ?_)
      rw [hcovers l hl]
      exact (text_of_not_crossed_ends g hty fun hsimple h' => hcrossed ⟨hsimple, h'⟩).symm

/-! ### Scrolling up -/

theorem le_of_row_lt {q : Pos} (h : p.row < q.row) : p = q ∨ p < q := .inr (.inl h)

theorem le_of_col_zero {q : Pos} (hcol : p.col = 0) (hrow : p.row ≤ q.row) : p = q ∨ p < q := by
  obtain ⟨prow, pcol⟩ := p
  obtain ⟨qrow, qcol⟩ := q
  rw [Pos.mk.injEq, Pos.lt_iff]
  dsimp only at *
  omega

theorem le_shift {q : Pos} (h : p = q ∨ p < q) (d : ℤ) :
    (⟨p.row + d, p.col⟩ : Pos) = ⟨q.row + d, q.col⟩ ∨
      (⟨p.row + d, p.col⟩ : Pos) < ⟨q.row + d, q.col⟩ := by
  obtain rfl | hlt := h
  · exact .inl rfl
  · rw [Pos.lt_iff] at hlt ⊢
    dsimp only
    omega

theorem eq_of_shift {q : Pos} (d : ℤ) (h : (⟨p.row + d, p.col⟩ : Pos) = ⟨q.row + d, q.col⟩) :
    p = q := by
  have hrows := congrArg Pos.row h
  have hcols := congrArg Pos.col h
  dsimp only at hrows hcols
  exact pos_eq (by omega) hcols

theorem StartUp.col (h : StartUp s.ty r n a a') :
    a'.point.col = a.point.col ∨ a'.point.col = 0 := by
  by_cases hin : inRange r a.point.row
  · by_cases hstays : r.start ≤ a.point.row - n ∨ r.start = 0
    · rw [h.moved hin hstays]
      exact .inl rfl
    · rw [h.clamped hin hstays]
      split
      · exact .inl rfl
      · exact .inr rfl
  · rw [h.fixed hin]
    exact .inl rfl

theorem StartUp.block (h : StartUp .block r n a a') :
    a'.point.col = a.point.col ∧ a'.side = a.side := by
  by_cases hin : inRange r a.point.row
  · by_cases hstays : r.start ≤ a.point.row - n ∨ r.start = 0
    · rw [h.moved hin hstays]
      exact ⟨rfl, rfl⟩
    · rw [h.clamped hin hstays, if_pos rfl]
      exact ⟨rfl, rfl⟩
  · rw [h.fixed hin]
    exact ⟨rfl, rfl⟩

/-- An anchor on the right of its cell was not clamped. -/
theorem StartUp.of_right (h : StartUp .simple r n a a') (hside : a'.side = .right) :
    a.side = .right ∧ a'.point.col = a.point.col ∧
      (¬ inRange r a.point.row ∧ a'.point = a.point ∨
        inRange r a.point.row ∧ a'.point = ⟨a.point.row - n, a.point.col⟩) := by
  by_cases hin : inRange r a.point.row
  · by_cases hstays : r.start ≤ a.point.row - n ∨ r.start = 0
    · rw [h.moved hin hstays] at hside ⊢
      exact ⟨hside, rfl, .inr ⟨hin, rfl⟩⟩
    · rw [h.clamped hin hstays] at hside
      exact absurd hside Side.noConfusion
  · rw [h.fixed hin] at hside ⊢
    exact ⟨hside, rfl, .inl ⟨hin, rfl⟩⟩

theorem UpperUp.same (h : UpperUp r n b b') :
    b'.side = b.side ∧ b'.point.col = b.point.col := by
  by_cases hin : inRange r b.point.row
  · obtain ⟨hpoint, hside⟩ := h.moved hin
    exact ⟨hside, by rw [hpoint]⟩
  · rw [h.fixed hin]
    exact ⟨rfl, rfl⟩

/-- A text selection goes on from the first line of the grid after its anchors moved. -/
theorem Sided.up (hsided : Sided s.ty a b) (ha : StartUp s.ty r n a a') (hb : UpperUp r n b b') :
    Sided s.ty a' b' := by
  refine ⟨hsided.1, fun hsimple => ?_⟩
  obtain ⟨hleft, hedge⟩ := hsided.2 hsimple
  rw [hsimple] at ha
  rw [hb.same.1, hb.same.2]
  refine ⟨?_, hedge⟩
  cases hside : a'.side with
  | left => rfl
  | right => exact absurd (hleft.symm.trans (ha.of_right hside).1) Side.noConfusion

/-- The anchors stay in the order of the text. -/
theorem KeptUp.le (hkept : s.KeptUp g r n) (hstart : 0 ≤ r.start) (hregion : r.start < r.stop)
    (hty : s.ty = .simple ∨ s.ty = .semantic) (ha : StartUp s.ty r n s.lower a')
    (hb : UpperUp r n s.upper b') (hrow' : a'.point.row ≤ b'.point.row) :
    a'.point = b'.point ∨ a'.point < b'.point := by
  have hrow := s.row_le
  have hkeeps := hkept.upper
  have harow := ha.rows
  have hbrow := hb.cases
  by_cases hain : inRange r s.lower.point.row
  · by_cases hbin : inRange r s.upper.point.row
    · by_cases hgone : r.start ≤ s.lower.point.row - n ∨ r.start = 0
      · rw [ha.moved hain hgone, (hb.moved hbin).1]
        exact le_shift s.lower_le (-n)
      · refine le_of_col_zero ?_ hrow'
        rw [ha.clamped hain hgone, if_neg]
        obtain hty | hty := hty <;> rw [hty] <;> decide
    · refine le_of_row_lt ?_
      unfold inRange at *
      omega
  · by_cases hbin : inRange r s.upper.point.row
    · refine le_of_row_lt ?_
      unfold inRange at *
      omega
    · rw [ha.fixed hain, hb.fixed hbin]
      exact s.lower_le

/-- The first line of the grid does not cut the selection off its lower anchor. -/
theorem KeptUp.anchored_up (hkept : s.KeptUp g r n) (hstart : 0 ≤ r.start)
    (hn : r.start = 0 → n ≤ r.stop) (ha : StartUp s.ty r n s.lower a')
    (hb : UpperUp r n s.upper b') :
    (g.scrollUp r n).topmostLine ≤ a'.point.row ∨ b'.point.row < (g.scrollUp r n).topmostLine ∨
      Sided s.ty a' b' := by
  have hrow := s.row_le
  have harow := ha.rows
  have hbrow := hb.cases
  have htop : (g.scrollUp r n).topmostLine ≤ 0 := by
    rw [Grid.topmostLine_eq]
    omega
  by_cases hzero : r.start = 0
  · by_cases hain : s.lower.point.row < r.stop
    · have hinside : inRange r s.lower.point.row := ⟨.inr hzero, hain⟩
      obtain hin | hgone | hsided := hkept.stays hzero hain
      · refine .inl (hin.trans_eq ?_)
        rw [ha.moved hinside (.inr hzero)]
      · refine .inr (.inl ?_)
        have hn := hn hzero
        unfold inRange at *
        omega
      · exact .inr (.inr (hsided.up ha hb))
    · refine .inl ?_
      unfold inRange at *
      omega
  · have hsize : (g.scrollUp r n).topmostLine = g.topmostLine := by
      rw [Grid.topmostLine_eq, Grid.topmostLine_eq,
        Grid.historySize_scrollUp_inner (by omega)]
    rw [hsize] at htop ⊢
    obtain hin | hgone | hsided := hkept.anchored
    · refine .inl ?_
      unfold inRange at *
      omega
    · refine .inr (.inl ?_)
      unfold inRange at *
      omega
    · exact .inr (.inr (hsided.up ha hb))

/-- Only anchors that were in one cell are in one cell afterwards with nothing between them. -/
theorem KeptUp.of_crossed_up (hkept : s.KeptUp g r n) (hstart : 0 ≤ r.start)
    (hregion : r.start < r.stop) (hty : s.ty = .simple) (ha : StartUp s.ty r n s.lower a')
    (hb : UpperUp r n s.upper b') (hcrossed : Crossed a' b') : Crossed s.lower s.upper := by
  have hrow := s.row_le
  have hkeeps := hkept.upper
  have harow := ha.rows
  have hbrow := hb.cases
  obtain ⟨hpoint, hright, hleft⟩ := hcrossed
  rw [hty] at ha
  have hsame : a'.point.row = b'.point.row := congrArg Pos.row hpoint
  obtain ⟨hside, -, ⟨hain, hapoint⟩ | ⟨hain, hapoint⟩⟩ := ha.of_right hright
  · by_cases hbin : inRange r s.upper.point.row
    · unfold inRange at *
      omega
    · rw [hb.fixed hbin] at hpoint hleft
      exact ⟨hapoint.symm.trans hpoint, hside, hleft⟩
  · by_cases hbin : inRange r s.upper.point.row
    · obtain ⟨hbpoint, hbside⟩ := hb.moved hbin
      exact ⟨eq_of_shift (-n) ((hapoint.symm.trans hpoint).trans hbpoint), hside,
        hbside.symm.trans hleft⟩
    · unfold inRange at *
      omega

theorem moved_up (hstart : 0 ≤ r.start) (hregion : r.start < r.stop)
    (hn : r.start = 0 → n ≤ r.stop) (hwithin : s.Within g)
    (hkept : s.KeptUp g r n) (ha : StartUp s.ty r n s.lower a') (hb : UpperUp r n s.upper b')
    (hle : inRange r s.upper.point.row → a'.point.row ≤ b'.point.row) :
    s.Moved g (g.scrollUp r n) (r.originUp n) r.stop a' b' := by
  have hrow := s.row_le
  have hlower := hwithin.lower
  have hupper := hwithin.upper
  have harow := ha.rows
  have hbrow := hb.cases
  have hrow' : a'.point.row ≤ b'.point.row := by
    unfold inRange at *
    omega
  have hstays (hpoint : s.lower.point.row = s.upper.point.row) (hin : inRange r s.lower.point.row) :
      r.start ≤ s.lower.point.row - n ∨ r.start = 0 := by
    unfold inRange at *
    omega
  have hlines : (g.scrollUp r n).lines = g.lines := Grid.scrollUp_lines g r n
  have hcolumns : (g.scrollUp r n).columns = g.columns := Grid.scrollUp_columns g r n
  refine ⟨fun hty => hkept.le hstart hregion hty ha hb hrow', hrow', ⟨?_, ?_⟩, ⟨?_, ?_⟩,
    hkept.anchored_up hstart hn ha hb, fun hty hedges => ?_, fun ty' hty p hp => ?_,
    fun hcrossed => ?_, fun hty => hkept.of_crossed_up hstart hregion hty ha hb, fun hty => ?_⟩
  · rw [hlines]
    unfold inRange at *
    omega
  · rw [hcolumns]
    obtain hcol | hcol := ha.col <;> rw [hcol]
    · exact hlower.2
    · exact Nat.zero_lt_of_lt hlower.2
  · rw [hlines]
    omega
  · rw [hcolumns, hb.same.2]
    exact hupper.2
  · rw [hty] at ha
    obtain ⟨hright, hcol, hleft, hcol'⟩ := hedges
    obtain ⟨hside, hacol, hmoved⟩ := ha.of_right hright
    rw [hacol] at hcol
    rw [hb.same.1] at hleft
    rw [hb.same.2] at hcol'
    obtain ⟨hne, hiff⟩ := hkept.edges hty ⟨hside, hcolumns ▸ hcol, hleft, hcol'⟩
    obtain ⟨hain, hapoint⟩ | ⟨hain, hapoint⟩ := hmoved
    · rw [hapoint, hb.fixed (mt hiff.mpr hain)]
      exact hne
    · rw [hapoint, (hb.moved (hiff.mp hain)).1]
      dsimp only
      omega
  · have hblock : s.ty ≠ .block ∨ ty' = .lines := by
      refine hty.imp_left fun h => ?_
      obtain h | h := h.1 <;> rw [h] <;> decide
    have hbetween := between_up (p := p) hstart hn (ha.lowerUp hblock) (hb.end (g := g) ty')
    rw [row_lowerEnd, row_upperEnd] at hbetween
    exact hbetween hkept.upper
  · -- anchors in one cell
    obtain ⟨hpoint, hsides⟩ := hcrossed
    by_cases hain : inRange r s.lower.point.row
    · have hmoved := ha.moved hain (hstays (congrArg Pos.row hpoint) hain)
      obtain ⟨hbpoint, hbside⟩ := hb.moved (hpoint ▸ hain)
      refine ⟨?_, ?_, hbside.trans hsides.2⟩
      · rw [hmoved, hbpoint, hpoint]
      · rw [hmoved]
        exact hsides.1
    · rw [ha.fixed hain, hb.fixed (hpoint ▸ hain)]
      exact ⟨hpoint, hsides⟩
  · rw [hty] at ha
    exact ⟨ha.block.1, ha.block.2, hb.same.2, hb.same.1⟩

/-! ### Scrolling down -/

theorem LowerDown.same (h : LowerDown r n a a') :
    a'.side = a.side ∧ a'.point.col = a.point.col := by
  by_cases hin : inRange r a.point.row
  · obtain ⟨-, hpoint, hside⟩ := h.moved hin
    exact ⟨hside, by rw [hpoint]⟩
  · rw [h.fixed hin]
    exact ⟨rfl, rfl⟩

theorem EndDown.col (h : EndDown s.ty g r n b b') :
    b'.point.col = b.point.col ∨ b'.point.col = g.lastColumn := by
  by_cases hin : inRange r b.point.row
  · by_cases hstays : b.point.row + n < r.stop
    · rw [h.moved hin hstays]
      exact .inl rfl
    · exact (h.clamped hin (not_lt.mp hstays)).2.1
  · rw [h.fixed hin]
    exact .inl rfl

theorem EndDown.block (h : EndDown .block g r n b b') :
    b'.point.col = b.point.col ∧ b'.side = b.side := by
  by_cases hin : inRange r b.point.row
  · by_cases hstays : b.point.row + n < r.stop
    · rw [h.moved hin hstays]
      exact ⟨rfl, rfl⟩
    · exact (h.clamped hin (not_lt.mp hstays)).2.2.1 rfl
  · rw [h.fixed hin]
    exact ⟨rfl, rfl⟩

/-- An anchor on the left of its cell was not clamped. -/
theorem EndDown.of_left (h : EndDown .simple g r n b b') (hside : b'.side = .left) :
    b.side = .left ∧ b'.point.col = b.point.col ∧
      (¬ inRange r b.point.row ∧ b'.point = b.point ∨
        inRange r b.point.row ∧ b'.point = ⟨b.point.row + n, b.point.col⟩) := by
  by_cases hin : inRange r b.point.row
  · by_cases hstays : b.point.row + n < r.stop
    · rw [h.moved hin hstays] at hside ⊢
      exact ⟨hside, rfl, .inr ⟨hin, rfl⟩⟩
    · obtain ⟨-, -, -, hclamped⟩ := h.clamped hin (not_lt.mp hstays)
      rw [hclamped (.inl rfl)] at hside
      exact absurd hside Side.noConfusion
  · rw [h.fixed hin] at hside ⊢
    exact ⟨hside, rfl, .inl ⟨hin, rfl⟩⟩

theorem Sided.down (hsided : Sided s.ty a b) (ha : LowerDown r n a a')
    (hb : EndDown s.ty g r n b b') : Sided s.ty a' b' := by
  refine ⟨hsided.1, fun hsimple => ?_⟩
  obtain ⟨hleft, hedge⟩ := hsided.2 hsimple
  rw [hsimple] at hb
  refine ⟨ha.same.1.trans hleft, fun ⟨hleft', hcol⟩ => hedge ?_⟩
  obtain ⟨hbside, hbcol, -⟩ := hb.of_left hleft'
  exact ⟨hbside, hbcol.symm.trans hcol⟩

/-- The anchors stay in the order of the text. -/
theorem LowerDown.le (ha : LowerDown r n s.lower a') (hb : EndDown s.ty g r n s.upper b')
    (hwithin : s.Within g) (hty : s.ty = .simple ∨ s.ty = .semantic)
    (hrow' : a'.point.row ≤ b'.point.row) : a'.point = b'.point ∨ a'.point < b'.point := by
  have hrow := s.row_le
  have harow := ha.cases
  have hbrow := hb.rows
  by_cases hain : inRange r s.lower.point.row
  · by_cases hbin : inRange r s.upper.point.row
    · obtain ⟨-, hapoint, -⟩ := ha.moved hain
      by_cases hstays : s.upper.point.row + n < r.stop
      · rw [hapoint, hb.moved hbin hstays]
        exact le_shift s.lower_le n
      · obtain ⟨-, -, -, hclamped⟩ := hb.clamped hbin (not_lt.mp hstays)
        have hlast : s.lower.point.col ≤ g.lastColumn := Nat.le_sub_one_of_lt hwithin.lower.2
        have hbpoint := hclamped hty
        rw [hapoint, hbpoint] at hrow' ⊢
        rw [Pos.mk.injEq, Pos.lt_iff]
        dsimp only at hrow' ⊢
        omega
    · refine le_of_row_lt ?_
      unfold inRange at *
      omega
  · by_cases hbin : inRange r s.upper.point.row
    · refine le_of_row_lt ?_
      unfold inRange at *
      omega
    · rw [ha.fixed hain, hb.fixed hbin]
      exact s.lower_le

/-- Only anchors that were in one cell are in one cell afterwards with nothing between them. -/
theorem KeptDown.of_crossed_down (hkept : s.KeptDown g r n) (hty : s.ty = .simple)
    (ha : LowerDown r n s.lower a') (hb : EndDown s.ty g r n s.upper b')
    (hcrossed : Crossed a' b') : Crossed s.lower s.upper := by
  have hrow := s.row_le
  have hhistory := hkept.history
  have harow := ha.cases
  have hbrow := hb.rows
  obtain ⟨hpoint, hright, hleft⟩ := hcrossed
  rw [hty] at hb
  have hrows := congrArg Pos.row hpoint
  rw [ha.same.1] at hright
  obtain ⟨hside, -, ⟨hbin, hbpoint⟩ | ⟨hbin, hbpoint⟩⟩ := hb.of_left hleft
  · by_cases hain : inRange r s.lower.point.row
    · unfold inRange at *
      omega
    · rw [ha.fixed hain] at hpoint
      exact ⟨hpoint.trans hbpoint, hright, hside⟩
  · by_cases hain : inRange r s.lower.point.row
    · obtain ⟨-, hapoint, -⟩ := ha.moved hain
      exact ⟨eq_of_shift n ((hapoint.symm.trans hpoint).trans hbpoint), hright, hside⟩
    · unfold inRange at *
      omega

theorem moved_down (hstart : 0 ≤ r.start) (hstop : r.stop ≤ g.lines) (hwithin : s.Within g)
    (hkept : s.KeptDown g r n) (ha : LowerDown r n s.lower a')
    (hb : EndDown s.ty g r n s.upper b') :
    s.Moved g (g.scrollDown r n) (r.originDown n) r.start a' b' := by
  have hrow := s.row_le
  have hlower := hwithin.lower
  have hupper := hwithin.upper
  have hhistory := hkept.history
  have hcolumns₀ : 0 < g.columns := Nat.zero_lt_of_lt hlower.2
  have harow := ha.cases
  have hbrow := hb.rows
  have hrow' : a'.point.row ≤ b'.point.row := by
    unfold inRange at *
    omega
  have hlines : (g.scrollDown r n).lines = g.lines := Grid.scrollDown_lines g r n
  have hcolumns : (g.scrollDown r n).columns = g.columns := Grid.scrollDown_columns g r n
  have htop : (g.scrollDown r n).topmostLine = g.topmostLine := by
    rw [Grid.topmostLine_eq, Grid.topmostLine_eq, Grid.historySize_scrollDown]
  have hzero : g.topmostLine ≤ 0 := by
    rw [Grid.topmostLine_eq]
    omega
  refine ⟨fun hty => ha.le hb hwithin hty hrow', hrow', ⟨?_, ?_⟩, ⟨?_, ?_⟩, ?_,
    fun hty hedges => ?_, fun ty' hty p hp => ?_, fun hcrossed => ?_,
    fun hty => hkept.of_crossed_down hty ha hb, fun hty => ?_⟩
  · rw [hlines]
    unfold inRange at *
    omega
  · rw [hcolumns, ha.same.2]
    exact hlower.2
  · rw [hlines]
    unfold inRange at *
    omega
  · rw [hcolumns]
    obtain hcol | hcol := hb.col <;> rw [hcol]
    · exact hupper.2
    · exact Nat.sub_lt hcolumns₀ Nat.one_pos
  · rw [htop]
    obtain hin | hgone | hsided := hkept.anchored
    · refine .inl ?_
      omega
    · refine .inr (.inl ?_)
      unfold inRange at *
      omega
    · exact .inr (.inr (hsided.down ha hb))
  · rw [hty] at hb
    obtain ⟨hright, hcol, hleft, hcol'⟩ := hedges
    obtain ⟨hside, hbcol, hmoved⟩ := hb.of_left hleft
    rw [ha.same.1] at hright
    rw [ha.same.2] at hcol
    rw [hbcol] at hcol'
    obtain ⟨hne, hiff⟩ := hkept.edges hty ⟨hright, hcolumns ▸ hcol, hside, hcol'⟩
    obtain ⟨hbin, hbpoint⟩ | ⟨hbin, hbpoint⟩ := hmoved
    · rw [hbpoint, ha.fixed (mt hiff.mp hbin)]
      exact hne
    · rw [hbpoint, (ha.moved (hiff.mpr hbin)).2.1]
      dsimp only
      omega
  · have hbetween := between_down (ha.end ty')
      (hb.upperDown hcolumns₀ hty) (by rwa [row_lowerEnd, row_upperEnd])
      (by rwa [row_lowerEnd]) (hcolumns ▸ hp)
    rwa [row_lowerEnd, row_upperEnd] at hbetween
  · -- anchors in one cell
    obtain ⟨hpoint, hsides⟩ := hcrossed
    by_cases hain : inRange r s.lower.point.row
    · obtain ⟨hstays, hapoint, haside⟩ := ha.moved hain
      rw [hpoint] at hain hstays
      rw [hb.moved hain hstays]
      refine ⟨?_, haside.trans hsides.1, hsides.2⟩
      rw [hapoint, hpoint]
    · rw [ha.fixed hain, hb.fixed (hpoint ▸ hain)]
      exact ⟨hpoint, hsides⟩
  · rw [hty] at hb
    exact ⟨ha.same.2, ha.same.1, hb.block⟩

/-! ### The selection after a scroll -/

theorem row_of_text (h : Text a b p) : a.point.row ≤ p.row ∧ p.row ≤ b.point.row := by
  unfold Text at h
  split at h
  · next hpoint =>
    rw [h.1]
    exact ⟨le_rfl, (congrArg Pos.row hpoint).le⟩
  · omega

/-- The selected cells are on the lines of the anchors and between them. -/
theorem Kept.row_of_covers (hkept : s.Kept g r) (hwithin : s.Within g)
    (htop : g.topmostLine ≤ p.row) (hp : p.col < g.columns) (h : s.Covers g p) :
    s.lower.point.row ≤ p.row ∧ p.row ≤ s.upper.point.row := by
  by_cases hty : s.ty = .block
  · obtain ⟨hfirst, hlast, -⟩ := (covers_block hty hwithin hkept.anchored htop).mp h
    exact ⟨hfirst, hlast⟩
  · have htext := (covers_text hty hwithin hkept.anchored (fun hsimple hedges =>
      (hkept.edges hsimple hedges).1) htop hp).mp h
    have hrows := row_of_text htext
    rwa [row_lowerEnd, row_upperEnd] at hrows

theorem follows_up (hg : g.WellFormed) (hstart : 0 ≤ r.start) (hregion : r.start < r.stop)
    (hstop : r.stop ≤ g.lines) (hn : r.start = 0 → n ≤ r.stop) (hwithin : s.Within g)
    (hkept : s.KeptUp g r n) : s.Follows g (g.scrollUp r n) (r.originUp n) r.stop
      (s.rotate g.dimensions r n) := by
  have hlines : ∀ line, (g.scrollUp r n).topmostLine ≤ line → line < (g.scrollUp r n).lines →
      g.HasOrigin (g.scrollUp r n) line (r.originUp n line) := by
    intro line htop hline
    rw [Grid.scrollUp_lines] at hline
    exact Grid.hasOrigin_scrollUp hg hstart hregion.le hstop hn htop hline
  have hcolumns : (g.scrollUp r n).columns = g.columns := Grid.scrollUp_columns g r n
  refine ⟨hlines, fun p htop hrow hp => ?_⟩
  obtain ⟨a', hlower, ha⟩ : ∃ a', rotateStart s.ty g.dimensions r n s.lower s.upper = some a' ∧
    StartUp s.ty r n s.lower a' := rotateStart_up hwithin.lower.1
  unfold rotate
  rw [hlower, Option.bind_some]
  have hendUp : (rotateEnd s.ty g.dimensions r n a' s.upper = none ∧ _ ∧ _) ∨
    ∃ b', rotateEnd s.ty g.dimensions r n a' s.upper = some b' ∧ _ := rotateEnd_up hwithin.upper.1
  obtain ⟨hupper, hin, hgone⟩ | ⟨b', hupper, hb, hle⟩ := hendUp
  · rw [hupper]
    refine iff_of_false (fun ⟨_, hs', _⟩ => absurd hs' nofun) ?_
    rintro (⟨l, hl, hcovers⟩ | ⟨-, -, hedge, -⟩)
    · have horigin := hlines p.row htop hrow
      rw [hl] at horigin
      obtain ⟨hfirst, hlast⟩ := hkept.row_of_covers hwithin horigin.1 (hcolumns ▸ hp) hcovers
      have harow := ha.rows
      have hkeeps := hkept.upper
      have hle := s.row_le
      dsimp only at hfirst hlast
      have hl' : inRange r l ∧ l - n < r.start ∧ r.start ≠ 0 := by
        unfold inRange at *
        omega
      exact origin_of_gone_up hregion hl'.1 hl'.2.1 hl'.2.2 hl
    · exact absurd hin.2 (not_lt.mpr hedge)
  · have hmoved := moved_up hstart hregion hn hwithin hkept ha hb hle
    rw [hupper, Option.map_some]
    simp only [Option.mem_def, Option.some.injEq, exists_eq_left']
    exact hmoved.cells hwithin hkept.toKept hcolumns hlines htop hrow hp

theorem follows_down (hg : g.WellFormed) (hstart : 0 ≤ r.start) (hregion : r.start < r.stop)
    (hstop : r.stop ≤ g.lines) (hwithin : s.Within g) (hkept : s.KeptDown g r n) :
    s.Follows g (g.scrollDown r n) (r.originDown n) r.start (s.rotate g.dimensions r (-n)) := by
  have hlines : ∀ line, (g.scrollDown r n).topmostLine ≤ line → line < (g.scrollDown r n).lines →
      g.HasOrigin (g.scrollDown r n) line (r.originDown n line) := by
    intro line htop hline
    rw [Grid.scrollDown_lines] at hline
    exact Grid.hasOrigin_scrollDown hg hstart hstop htop hline
  have hcolumns : (g.scrollDown r n).columns = g.columns := Grid.scrollDown_columns g r n
  refine ⟨hlines, fun p htop hrow hp => ?_⟩
  have hstartDown : (rotateStart s.ty g.dimensions r (-n) s.lower s.upper = none ∧ _) ∨
    ∃ a', rotateStart s.ty g.dimensions r (-n) s.lower s.upper = some a' ∧ _ :=
      rotateStart_down hstop hkept.lower
  unfold rotate
  obtain ⟨hlower, hin, hgone, hout⟩ | ⟨a', hlower, ha⟩ := hstartDown
  · rw [hlower]
    refine iff_of_false (fun ⟨_, hs', _⟩ => absurd hs' nofun) ?_
    have hhistory := hkept.history
    have hinside := hin.1
    rintro (⟨l, hl, hcovers⟩ | ⟨-, hedge, -⟩)
    · have horigin := hlines p.row htop hrow
      rw [hl] at horigin
      obtain ⟨hfirst, hlast⟩ := hkept.row_of_covers hwithin horigin.1 (hcolumns ▸ hp) hcovers
      dsimp only at hfirst hlast
      exact origin_of_gone_down hregion (l := l) ⟨by omega, by omega⟩ (by omega) hl
    · omega
  · rw [hlower, Option.bind_some]
    obtain ⟨b', hupper, hb⟩ : ∃ b', rotateEnd s.ty g.dimensions r (-n) a' s.upper = some b' ∧
      EndDown s.ty g r n s.upper b' :=
        rotateEnd_down hstop s.row_le hwithin.lower.1 ha hkept.upper
    have hmoved := moved_down hstart hstop hwithin hkept ha hb
    rw [hupper, Option.map_some]
    simp only [Option.mem_def, Option.some.injEq, exists_eq_left']
    exact hmoved.cells hwithin hkept.toKept hcolumns hlines htop hrow hp

/-- A selection follows its text, and takes in the blank lines that come in between its anchors. -/
theorem rotate_follows (g : Grid Square) (hg : g.WellFormed) (r : Region) (hstart : 0 ≤ r.start)
    (hregion : r.start < r.stop) (hstop : r.stop ≤ g.lines) (n : ℕ) (s : Selection)
    (hwithin : s.Within g) :
    ((r.start = 0 → n ≤ r.stop) → s.KeptUp g r n → s.Follows g (g.scrollUp r n) (r.originUp n)
      r.stop (s.rotate g.dimensions r n)) ∧
    (s.KeptDown g r n → s.Follows g (g.scrollDown r n) (r.originDown n) r.start
      (s.rotate g.dimensions r (-n))) ∧
    (s.ty = .simple ∨ s.ty = .block → s.between g = s.toRange g) ∧
    (s.ty = .lines → ∀ p, s.Covers g p →
      ∃ range, s.toRange g = some range ∧ range.contains p = true) := by
  refine ⟨fun hn => follows_up hg hstart hregion hstop hn hwithin,
    follows_down hg hstart hregion hstop hwithin, fun hty => ?_,
    fun hty p => covers_subset_lines hty hwithin⟩
  unfold between
  obtain hty | hty := hty <;> rw [hty]

theorem rotate_follows_new :
    let g : Grid Square := Grid.new 3 2 10
    let s : Selection := ⟨.simple, ⟨⟨0, 1⟩, .left⟩, ⟨⟨1, 0⟩, .right⟩⟩
    s.Follows g (g.scrollUp ⟨0, 3⟩ 1) (Region.originUp ⟨0, 3⟩ 1) 3 (s.rotate g.dimensions ⟨0, 3⟩ 1) ∧
      s.Follows g (g.scrollDown ⟨0, 3⟩ 1) (Region.originDown ⟨0, 3⟩ 1) 0
        (s.rotate g.dimensions ⟨0, 3⟩ (-1)) := by
  intro g s
  have hg : g.WellFormed := Grid.new_wellFormed (by decide) 2 10
  have hkept : s.Kept g ⟨0, 3⟩ :=
    ⟨.inl (by decide), fun _ h => absurd h.1 (by decide), fun h => absurd h (by decide)⟩
  have hfollows := rotate_follows g hg ⟨0, 3⟩ (by decide) (by decide) (by decide) 1 s
    ⟨by decide, by decide⟩
  refine ⟨hfollows.1 (fun _ => by decide) ⟨hkept, fun _ _ => .inl ?_, fun h => absurd h ?_⟩,
    hfollows.2.1 ⟨hkept, .inl (by decide), fun _ => .inl (by decide), fun _ => .inl (by decide)⟩⟩
  · decide +kernel
  · decide

/-- A blank line is selected that comes in between the anchors; a selection is given up though its
first line stays; and one that is scrolled out at the end of the screen stays there. -/
theorem rotate_loses_text :
    let g : Grid Square := Grid.new 4 3 10
    let s : Selection := ⟨.simple, ⟨⟨0, 0⟩, .left⟩, ⟨⟨3, 2⟩, .right⟩⟩
    let t : Selection := ⟨.simple, ⟨⟨0, 0⟩, .left⟩, ⟨⟨1, 2⟩, .right⟩⟩
    let u : Selection := ⟨.simple, ⟨⟨2, 0⟩, .left⟩, ⟨⟨3, 2⟩, .right⟩⟩
    (∃ s' ∈ s.rotate g.dimensions ⟨1, 3⟩ 1, s'.Covers (g.scrollUp ⟨1, 3⟩ 1) ⟨2, 0⟩) ∧
      Region.originUp ⟨1, 3⟩ 1 2 = none ∧
      t.rotate g.dimensions ⟨1, 4⟩ 2 = none ∧ Region.originUp ⟨1, 4⟩ 2 0 = some 0 ∧
      t.Covers g ⟨0, 0⟩ ∧
      (∃ u' ∈ u.rotate g.dimensions ⟨0, 4⟩ (-2), u'.Covers (g.scrollDown ⟨0, 4⟩ 2) ⟨3, 0⟩) ∧
      Region.originDown ⟨0, 4⟩ 2 3 = some 1 ∧ ¬ u.Covers g ⟨1, 0⟩ := by
  refine ⟨⟨_, rfl, ?_⟩, ?_, ?_, ?_, ?_, ⟨_, rfl, ?_⟩, ?_, ?_⟩ <;> decide +kernel

end Selection

end Rio
