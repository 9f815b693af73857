import Rio.Selection.Rotate

/-! Which pairs of anchors give the range between them. -/

set_option linter.dupNamespace false

namespace Rio

namespace Selection

/-- A cell is between the edges of two anchors in the text, in whatever order they are. -/
def InText (a b : Anchor) (p : Pos) : Prop := Between a b p ∨ Between b a p

/-- A cell is in the rectangle between the edges of two anchors. -/
def InBlock (a b : Anchor) (p : Pos) : Prop :=
  min a.point.row b.point.row ≤ p.row ∧ p.row ≤ max a.point.row b.point.row ∧
    min a.gap b.gap ≤ p.col ∧ p.col < max a.gap b.gap

/-- The cells that a simple or a block selection is meant to have. -/
def Names (s : Selection) (p : Pos) : Prop :=
  if s.ty = .block then InBlock s.start s.stop p else InText s.start s.stop p

/-- The selection made the other way round. -/
def swap (s : Selection) : Selection := ⟨s.ty, s.stop, s.start⟩

/-- The range of a selection has the cells that the selection is meant to have, goes forward in
the grid, and does not depend on the order of the anchors. -/
structure Exact (s : Selection) (g : Grid Square) : Prop where
  none_iff : s.toRange g = none ↔ ∀ p, g.HasCell p → ¬ s.Names p
  cells : ∀ range, s.toRange g = some range → ∀ p, g.HasCell p →
    (range.contains p = true ↔ s.Names p)
  ordered : ∀ range, s.toRange g = some range →
    range.start = range.stop ∨ range.start < range.stop
  columns : ∀ range, s.toRange g = some range → s.ty = .block →
    range.start.col ≤ range.stop.col
  inside : ∀ range, s.toRange g = some range → g.HasCell range.start ∧ g.HasCell range.stop
  swap : s.swap.toRange g = s.toRange g

/-- The history has lost the first anchor of a selection of text, and the last one is at the very
start of the grid, or the side of the first anchor takes a cell away. -/
def MissesLostText (a b : Anchor) (top : ℤ) : Prop :=
  b.point.row = top ∧ b.gap = 0 ∨ a.side = .right ∧ ¬(b.point.row = top ∧ b.gap ≤ 1)

/-- The history has lost the first anchor of a block, and with it the column, which counts. -/
def MissesLostBlock (a b : Anchor) (top : ℤ) : Prop :=
  a.gap ≠ b.gap ∧ ¬(a.point.col = 0 ∧ 0 < b.gap) ∧
    ¬(b.gap = 0 ∧ a.gap = 1 ∧ (a.side = .left ∨ b.point.row = top))

/-- The pairs of anchors that the code gets wrong: from the right edge of one line to the left
edge of the next one, and from the right of a column to its left further down; with the first
anchor lost, those that depend on where it was. -/
def Misses (s : Selection) (g : Grid Square) : Prop :=
  if g.topmostLine ≤ s.lower.point.row then
    if s.ty = .block then
      s.lower.point.col = s.upper.point.col ∧ s.lower.point.row ≠ s.upper.point.row ∧
        s.lower.side = .right ∧ s.upper.side = .left
    else AtEdges s.lower s.upper g.columns ∧ s.lower.point.row + 1 = s.upper.point.row
  else g.topmostLine ≤ s.upper.point.row ∧
    if s.ty = .block then MissesLostBlock s.lower s.upper g.topmostLine
    else MissesLostText s.lower s.upper g.topmostLine

variable {s : Selection} {g : Grid Square} {a b : Anchor} {p : Pos}

/-! ### The cells that are meant -/

theorem inText_comm : InText a b p ↔ InText b a p := Or.comm

theorem inBlock_comm : InBlock a b p ↔ InBlock b a p := by
  unfold InBlock
  rw [min_comm a.point.row, max_comm a.point.row, min_comm a.gap, max_comm a.gap]

theorem names_lower (s : Selection) (p : Pos) : s.Names p ↔
    if s.ty = .block then InBlock s.lower s.upper p else InText s.lower s.upper p := by
  unfold Names lower upper
  split_ifs
  · exact inBlock_comm
  · rfl
  · exact inText_comm
  · rfl

theorem inText_iff_text (hle : a.point = b.point ∨ a.point < b.point) :
    InText a b p ↔ Text a b p := by
  unfold InText
  have hagap := gap_cases a
  have hbgap := gap_cases b
  by_cases hsame : a.point = b.point
  · by_cases hcrossed : Crossed a b
    · have hback : ¬ Crossed b a := by
        intro h
        exact absurd (hcrossed.2.1.symm.trans h.2.2) (by decide)
      rw [text_comm hsame, text_of_not_crossed hback, or_iff_right]
      unfold Between
      rw [gap_of_right hcrossed.2.1, gap_of_left hcrossed.2.2, hsame]
      omega
    · rw [text_of_not_crossed hcrossed]
      refine or_iff_left_of_imp fun h => ?_
      unfold Between at h ⊢
      unfold Crossed at hcrossed
      rw [hsame] at h hagap ⊢
      obtain ⟨hside, hgap⟩ | ⟨hside, hgap⟩ := hagap
      · obtain ⟨hside', hgap'⟩ | ⟨hside', hgap'⟩ := hbgap
        · omega
        · omega
      · obtain ⟨hside', hgap'⟩ | ⟨hside', hgap'⟩ := hbgap
        · exact absurd ⟨hsame, hside, hside'⟩ hcrossed
        · omega
  · have hlt := hle.resolve_left hsame
    rw [Pos.lt_iff] at hlt
    unfold Text Between
    rw [if_neg hsame]
    omega

/-- The columns of a block, unless it goes from the right of a column to its left. -/
theorem columns_iff (hrow : ¬ (a.point.col = b.point.col ∧ a.point.row ≠ b.point.row ∧
    a.side = .right ∧ b.side = .left)) {col : ℕ} :
    Columns a b col ↔ min a.gap b.gap ≤ col ∧ col < max a.gap b.gap := by
  unfold Columns
  have hagap := gap_cases a
  have hbgap := gap_cases b
  by_cases hsame : a.point = b.point
  · rw [if_pos hsame]
    rw [hsame] at hagap ⊢
    obtain ⟨hside, hgap⟩ | ⟨hside, hgap⟩ := hagap
    · obtain ⟨hside', hgap'⟩ | ⟨hside', hgap'⟩ := hbgap
      · rw [hside, hside']
        refine iff_of_false (fun h => h.2 rfl) ?_
        omega
      · rw [hside, hside', and_iff_left (by decide)]
        omega
    · obtain ⟨hside', hgap'⟩ | ⟨hside', hgap'⟩ := hbgap
      · rw [hside, hside', and_iff_left (by decide)]
        omega
      · rw [hside, hside']
        refine iff_of_false (fun h => h.2 rfl) ?_
        omega
  · rw [if_neg hsame]
    by_cases hcol : b.point.col < a.point.col
    · rw [if_pos hcol]
      omega
    · rw [if_neg hcol]
      have hle : a.gap ≤ b.gap := by
        by_contra hgt
        refine hrow ⟨?_, ?_, ?_, ?_⟩
        · omega
        · intro hrows
          refine hsame ?_
          obtain ⟨⟨arow, acol⟩, aside⟩ := a
          obtain ⟨⟨brow, bcol⟩, bside⟩ := b
          rw [Pos.mk.injEq]
          dsimp only at *
          omega
        · obtain ⟨-, hgap⟩ | ⟨hside, -⟩ := hagap
          · omega
          · exact hside
        · obtain ⟨hside, -⟩ | ⟨-, hgap⟩ := hbgap
          · exact hside
          · omega
      omega

theorem gap_eq_iff : NoColumns a b ↔ a.gap = b.gap := by
  unfold NoColumns
  obtain ⟨hside, hgap⟩ | ⟨hside, hgap⟩ := gap_cases a
  · obtain ⟨hside', hgap'⟩ | ⟨hside', hgap'⟩ := gap_cases b
    · rw [hgap, hgap', hside, hside']
      simp
    · rw [hgap, hgap', hside, hside']
      simp
      omega
  · obtain ⟨hside', hgap'⟩ | ⟨hside', hgap'⟩ := gap_cases b
    · rw [hgap, hgap', hside, hside']
      simp
    · rw [hgap, hgap', hside, hside']
      simp

/-! ### Ranges -/

theorem rangeCorners_eq (hcol : a.point.col ≤ b.point.col) (hgap : a.gap ≠ b.gap)
    (hslip : ¬(a.point.col = b.point.col ∧ a.point.row ≠ b.point.row ∧ a.side = .right ∧
      b.side = .left)) :
    rangeCorners a b =
      ⟨⟨a.point.row, min a.gap b.gap⟩, ⟨b.point.row, max a.gap b.gap - 1⟩, true⟩ := by
  obtain ⟨⟨arow, acol⟩, aside⟩ := a
  obtain ⟨⟨brow, bcol⟩, bside⟩ := b
  unfold rangeCorners
  simp only [Anchor.gap] at *
  cases aside <;> cases bside <;> grind

theorem rangeBlock_eq (hgap : a.gap ≠ b.gap)
    (hslip : ¬(a.point.col = b.point.col ∧ a.point.row ≠ b.point.row ∧ a.side = .right ∧
      b.side = .left)) :
    rangeBlock a b =
      ⟨⟨a.point.row, min a.gap b.gap⟩, ⟨b.point.row, max a.gap b.gap - 1⟩, true⟩ := by
  unfold rangeBlock
  by_cases hcol : b.point.col < a.point.col
  · have hswapped := rangeCorners_eq (a := ⟨{ a.point with col := b.point.col }, b.side⟩)
      (b := ⟨{ b.point with col := a.point.col }, a.side⟩) hcol.le hgap.symm fun h =>
        absurd h.1 hcol.ne
    rw [if_pos hcol, hswapped, min_comm, max_comm]
    rfl
  · rw [if_neg hcol]
    exact rangeCorners_eq (not_lt.mp hcol) hgap hslip

/-- The range of text that starts where the grid does. -/
theorem rangeSimple_first {top : ℤ} {side : Side} {columns : ℕ} (hcolumns : 2 ≤ columns)
    (hb : top ≤ b.point.row) :
    rangeSimple ⟨⟨top, 0⟩, side⟩ b columns =
      if b.point.row = top ∧ b.gap ≤ 1 then ⟨⟨top, 0⟩, ⟨top, 0⟩, false⟩
      else ⟨⟨top, if side = .right then 1 else 0⟩,
        if b.gap = 0 then ⟨b.point.row - 1, columns - 1⟩ else ⟨b.point.row, b.gap - 1⟩, false⟩ := by
  obtain ⟨⟨brow, bcol⟩, bside⟩ := b
  unfold rangeSimple
  simp only [Anchor.gap] at *
  cases side <;> cases bside <;> grind

/-- The corners of a block whose first anchor was taken to the start of the grid. -/
theorem rangeBlock_first {top : ℤ} {side : Side} :
    rangeBlock ⟨⟨top, 0⟩, side⟩ b =
      ⟨⟨top, if side = .right ∧ ¬(b.point.row = top ∧ b.gap ≤ 1) then 1 else 0⟩,
        ⟨b.point.row, b.gap - 1⟩, true⟩ := by
  obtain ⟨⟨brow, bcol⟩, bside⟩ := b
  unfold rangeBlock rangeCorners
  simp only [Anchor.gap] at *
  cases side <;> cases bside <;> grind

theorem contains_start {range : SelectionRange}
    (hordered : range.start = range.stop ∨ range.start < range.stop)
    (hcolumns : range.isBlock = true → range.start.col ≤ range.stop.col) :
    range.contains range.start = true := by
  rw [SelectionRange.contains_iff]
  have hrows : range.start.row ≤ range.stop.row ∧
      (range.stop.row ≠ range.start.row ∨ range.start.col ≤ range.stop.col) := by
    obtain heq | hlt := hordered
    · rw [heq]
      exact ⟨le_rfl, .inr le_rfl⟩
    · rw [Pos.lt_iff] at hlt
      omega
  refine ⟨le_rfl, hrows.1, .inl le_rfl, ?_⟩
  cases hblock : range.isBlock with
  | true => exact .inl (hcolumns hblock)
  | false => exact hrows.2.symm.imp id fun hne => ⟨hne, rfl⟩

theorem not_lt_self (q : Pos) : ¬ q < q := by
  rw [Pos.lt_iff]
  omega

/-- The anchors change their places only if they are in one cell. -/
theorem swap_cases (s : Selection) :
    s.swap.lower = s.lower ∧ s.swap.upper = s.upper ∨
      s.lower.point = s.upper.point ∧ s.swap.lower = s.upper ∧ s.swap.upper = s.lower := by
  unfold lower upper backwards swap
  dsimp only
  by_cases hsame : s.start.point = s.stop.point
  · have hnot := not_lt_self s.stop.point
    rw [hsame, decide_eq_false hnot]
    exact .inr ⟨hsame, rfl, rfl⟩
  · refine .inl ?_
    by_cases hback : s.stop.point < s.start.point
    · have hnot : ¬ s.start.point < s.stop.point := by
        rw [Pos.lt_iff] at *
        omega
      rw [decide_eq_true hback, decide_eq_false hnot]
      exact ⟨rfl, rfl⟩
    · have hlt : s.start.point < s.stop.point := by
        generalize s.start.point = q at hsame hback ⊢
        generalize s.stop.point = r at hsame hback ⊢
        obtain ⟨qrow, qcol⟩ := q
        obtain ⟨rrow, rcol⟩ := r
        rw [Pos.lt_iff] at *
        rw [Pos.mk.injEq] at hsame
        dsimp only at *
        omega
      rw [decide_eq_false hback, decide_eq_true hlt]
      exact ⟨rfl, rfl⟩

theorem isEmpty_swap (s : Selection) : s.swap.isEmpty = s.isEmpty := by
  rw [Bool.eq_iff_iff]
  cases hty : s.ty with
  | simple =>
    rw [isEmpty_simple hty, isEmpty_simple (s := s.swap) hty]
    obtain ⟨hlower, hupper⟩ | ⟨hsame, hlower, hupper⟩ := swap_cases s
    · rw [hlower, hupper]
    · rw [hlower, hupper, or_iff_left, or_iff_left, eq_comm]
      · rintro ⟨-, -, -, hcol⟩
        rw [hsame] at hcol
        omega
      · rintro ⟨-, -, -, hcol⟩
        rw [hsame] at hcol
        omega
  | block =>
    rw [isEmpty_block hty, isEmpty_block (s := s.swap) hty, gap_eq_iff, gap_eq_iff]
    obtain ⟨hlower, hupper⟩ | ⟨-, hlower, hupper⟩ := swap_cases s
    · rw [hlower, hupper]
    · rw [hlower, hupper, eq_comm]
  | semantic =>
    unfold isEmpty swap
    rw [hty]
  | lines =>
    unfold isEmpty swap
    rw [hty]

/-- The order of the anchors does not matter. -/
theorem swap_toRange (hwithin : s.Within g) : s.swap.toRange g = s.toRange g := by
  have hempty := isEmpty_swap s
  have hty : s.swap.ty = s.ty := rfl
  obtain ⟨hlower, hupper⟩ | ⟨hsame, hlower, hupper⟩ := swap_cases s
  · unfold toRange
    rw [hlower, hupper, hempty, hty]
  · have hsimple (side side' : Side) : rangeSimple ⟨s.lower.point, side⟩ ⟨s.lower.point, side'⟩
        g.columns = ⟨s.lower.point, s.lower.point, false⟩ := by
      unfold rangeSimple
      simp
    have hblock (side side' : Side) : rangeBlock ⟨s.lower.point, side⟩ ⟨s.lower.point, side'⟩ =
        ⟨s.lower.point, s.lower.point, true⟩ := by
      unfold rangeBlock rangeCorners
      simp
    have hlast : s.upper = ⟨s.lower.point, s.upper.side⟩ := by
      rw [hsame]
    unfold toRange
    rw [hlower, hupper, hempty, hty, ← hsame]
    by_cases hgone : s.lower.point.row < g.topmostLine
    · rw [if_pos hgone, if_pos hgone]
    · have hclamp : s.lower.point.gridClamp g.dimensions .grid = s.lower.point :=
        gridClamp_of_le hwithin.lower.2 (not_lt.mp hgone) hwithin.lower.1
      rw [if_neg hgone, if_neg hgone, hclamp, hlast]
      cases s.ty with
      | simple =>
        dsimp only
        rw [hsimple, show s.lower = ⟨s.lower.point, s.lower.side⟩ from rfl, hsimple]
      | block =>
        dsimp only
        rw [hblock, show s.lower = ⟨s.lower.point, s.lower.side⟩ from rfl, hblock]
      | semantic => rfl
      | lines => rfl

theorem Exact.of_none (hwithin : s.Within g) (h : s.toRange g = none)
    (hempty : ∀ p, g.HasCell p → ¬ s.Names p) : s.Exact g := by
  have hnot (range : SelectionRange) : s.toRange g ≠ some range := by
    rw [h]
    exact nofun
  exact ⟨iff_of_true h hempty, fun range hrange => absurd hrange (hnot range),
    fun range hrange => absurd hrange (hnot range), fun range hrange => absurd hrange (hnot range),
    fun range hrange => absurd hrange (hnot range), swap_toRange hwithin⟩

theorem Exact.of_some (hwithin : s.Within g) {range : SelectionRange} (h : s.toRange g = some range)
    (hcells : ∀ p, g.HasCell p → (range.contains p = true ↔ s.Names p))
    (hordered : range.start = range.stop ∨ range.start < range.stop)
    (hcolumns : range.isBlock = true ∨ s.ty = .block → range.start.col ≤ range.stop.col)
    (hinside : g.HasCell range.start ∧ g.HasCell range.stop) : s.Exact g := by
  have honly (range' : SelectionRange) (h' : s.toRange g = some range') : range' = range :=
    Option.some.inj (h'.symm.trans h)
  refine ⟨iff_of_false ?_ ?_, ?_, ?_, ?_, ?_, swap_toRange hwithin⟩
  · rw [h]
    exact nofun
  · intro hempty
    refine hempty range.start hinside.1 ((hcells _ hinside.1).mp ?_)
    exact contains_start hordered fun hblock => hcolumns (.inl hblock)
  · intro range' h'
    rw [honly range' h']
    exact hcells
  · intro range' h'
    rw [honly range' h']
    exact hordered
  · intro range' h' hblock
    rw [honly range' h']
    exact hcolumns (.inr hblock)
  · intro range' h'
    rw [honly range' h']
    exact hinside

/-- The range of a selection that is not empty and not lost. -/
theorem toRange_eq (hty : s.ty = .simple ∨ s.ty = .block)
    (hin : g.topmostLine ≤ s.upper.point.row) (hsome : s.isEmpty = false) : s.toRange g = some
      (if s.ty = .block then
        rangeBlock ⟨s.lower.point.gridClamp g.dimensions .grid, s.lower.side⟩ s.upper
      else rangeSimple ⟨s.lower.point.gridClamp g.dimensions .grid, s.lower.side⟩ s.upper
        g.columns) := by
  unfold toRange
  rw [if_neg (not_lt.mpr hin), hsome]
  obtain hty | hty := hty
  · rw [hty]
    rfl
  · rw [hty]
    rfl

/-- What is meant when the history has lost both anchors, or the anchors are at one edge. -/
theorem not_names (hgap : s.upper.point.row < g.topmostLine ∨ s.isEmpty = true)
    (hty : s.ty = .simple ∨ s.ty = .block) (hp : g.HasCell p) : ¬ s.Names p := by
  have hrow := s.row_le
  have htop := hp.1
  rw [names_lower]
  obtain hgone | hempty := hgap
  · unfold InBlock InText Between
    split_ifs
    · omega
    · omega
  · obtain hty | hty := hty
    · rw [if_neg (by rw [hty]; decide), inText_iff_text s.lower_le]
      rw [isEmpty_simple hty] at hempty
      unfold Text
      obtain heq | ⟨ha, hb, hrow, hcol⟩ := hempty
      · rw [heq, if_pos rfl]
        exact fun h => h.2 rfl
      · have hne : s.lower.point ≠ s.upper.point := by
          intro heq
          rw [heq] at hcol
          omega
        rw [if_neg hne, gap_of_right ha, gap_of_left hb]
        omega
    · rw [isEmpty_block hty, gap_eq_iff] at hempty
      rw [if_pos hty]
      unfold InBlock
      omega

theorem rangeSimple_same (heq : a.point = b.point) {columns : ℕ} :
    rangeSimple a b columns = ⟨a.point, a.point, false⟩ := by
  obtain ⟨apoint, aside⟩ := a
  obtain ⟨bpoint, bside⟩ := b
  unfold rangeSimple
  grind

theorem rangeSimple_edges {columns : ℕ} (hedges : AtEdges a b columns)
    (hnext : a.point.row + 1 = b.point.row) :
    rangeSimple a b columns = ⟨a.point, a.point, false⟩ := by
  obtain ⟨⟨arow, acol⟩, aside⟩ := a
  obtain ⟨⟨brow, bcol⟩, bside⟩ := b
  unfold AtEdges at hedges
  unfold rangeSimple
  grind

/-- The range between two edges goes forward in the grid. -/
theorem shape_of_lt (hlt : a.point < b.point) (ha : g.topmostLine ≤ a.point.row)
    (hb : b.point.row < g.lines ∧ b.point.col < g.columns) (hcol : a.point.col < g.columns)
    (hempty : ¬ (a.side = .right ∧ b.side = .left ∧ a.point.row = b.point.row ∧
      a.point.col + 1 = b.point.col))
    (hedges : AtEdges a b g.columns → a.point.row + 1 ≠ b.point.row) {start stop : Pos}
    (hstart : start = if a.gap = g.columns then ⟨a.point.row + 1, 0⟩ else ⟨a.point.row, a.gap⟩)
    (hstop : stop = if b.gap = 0 then ⟨b.point.row - 1, g.columns - 1⟩
      else ⟨b.point.row, b.gap - 1⟩) :
    (start = stop ∨ start < stop) ∧ g.HasCell start ∧ g.HasCell stop := by
  rw [Pos.lt_iff] at hlt
  unfold Grid.HasCell
  obtain ⟨srow, scol⟩ := start
  obtain ⟨erow, ecol⟩ := stop
  unfold AtEdges at hedges
  rw [Pos.lt_iff, Pos.mk.injEq]
  have hagap := gap_cases a
  have hbgap := gap_cases b
  split_ifs at hstart hstop with h1 h2 h2
  all_goals
    rw [Pos.mk.injEq] at hstart hstop
    dsimp only
    grind

/-- Two anchors of the grid, of a selection of text. -/
theorem exact_simple (hwithin : s.Within g) (hty : s.ty = .simple)
    (hin : g.topmostLine ≤ s.lower.point.row) (hsome : s.isEmpty = false) :
    s.Exact g ↔ ¬(AtEdges s.lower s.upper g.columns ∧
      s.lower.point.row + 1 = s.upper.point.row) := by
  have hrow := s.row_le
  have hrange := toRange_eq (.inl hty) (hin.trans hrow) hsome
  have hclamp := gridClamp_of_le hwithin.lower.2 hin hwithin.lower.1
  rw [hty, if_neg (by decide), hclamp] at hrange
  have hempty : ¬ s.isEmpty = true := by
    rw [hsome]
    exact Bool.false_ne_true
  rw [isEmpty_simple hty, not_or] at hempty
  have hle := s.lower_le
  have hnames (p : Pos) : s.Names p ↔ Text s.lower s.upper p := by
    rw [names_lower, if_neg (by rw [hty]; decide), inText_iff_text hle]
  obtain ⟨⟨hlrow, hlcol⟩, ⟨hurow, hucol⟩⟩ := hwithin
  have hcell : g.HasCell s.lower.point := ⟨hin, hlrow, hlcol⟩
  constructor
  · intro hexact ⟨hedges, hnext⟩
    rw [rangeSimple_edges hedges hnext] at hrange
    have hcontains : SelectionRange.contains ⟨s.lower.point, s.lower.point, false⟩
        s.lower.point = true := contains_start (.inl rfl) fun _ => le_rfl
    have hname := (hexact.cells _ hrange _ hcell).mp hcontains
    have hne : s.lower.point ≠ s.upper.point := fun heq => by
      rw [heq] at hnext
      omega
    rw [hnames, Text, if_neg hne, gap_of_right hedges.1] at hname
    omega
  · intro hfine
    have hcells (p : Pos) (hp : g.HasCell p) :
        (rangeSimple s.lower s.upper g.columns).contains p = true ↔ s.Names p := by
      rw [hnames]
      exact contains_rangeSimple_of_le hle hlcol hempty.1 hempty.2
        (fun hedges hnext => hfine ⟨hedges, hnext⟩) hp.2.2
    have hshape : let range := rangeSimple s.lower s.upper g.columns
        (range.start = range.stop ∨ range.start < range.stop) ∧
          g.HasCell range.start ∧ g.HasCell range.stop := by
      obtain heq | hlt := hle
      · rw [rangeSimple_same heq]
        exact ⟨.inl rfl, hcell, hcell⟩
      · rw [rangeSimple_eq hlt hlcol hempty.2 fun hedges hnext => hfine ⟨hedges, hnext⟩]
        exact shape_of_lt hlt hin ⟨hurow, hucol⟩ hlcol hempty.2
          (fun hedges hnext => hfine ⟨hedges, hnext⟩) rfl rfl
    exact .of_some ⟨⟨hlrow, hlcol⟩, hurow, hucol⟩ hrange hcells hshape.1
      (fun hblock => hblock.elim (fun h => Bool.noConfusion h) fun h => by
        rw [hty] at h
        exact SelectionType.noConfusion h) hshape.2

theorem rangeBlock_crossed (hcrossed : a.point.col = b.point.col ∧ a.point.row ≠ b.point.row ∧
    a.side = .right ∧ b.side = .left) : rangeBlock a b =
      ⟨⟨a.point.row, a.point.col + 1⟩, ⟨b.point.row, b.point.col - 1⟩, true⟩ := by
  obtain ⟨⟨arow, acol⟩, aside⟩ := a
  obtain ⟨⟨brow, bcol⟩, bside⟩ := b
  unfold rangeBlock rangeCorners
  grind

/-- Two anchors of the grid, of a block. -/
theorem exact_block (hwithin : s.Within g) (hty : s.ty = .block)
    (hin : g.topmostLine ≤ s.lower.point.row) (hsome : s.isEmpty = false) :
    s.Exact g ↔ ¬(s.lower.point.col = s.upper.point.col ∧
      s.lower.point.row ≠ s.upper.point.row ∧ s.lower.side = .right ∧ s.upper.side = .left) := by
  have hrow := s.row_le
  have hrange := toRange_eq (.inr hty) (hin.trans hrow) hsome
  have hclamp := gridClamp_of_le hwithin.lower.2 hin hwithin.lower.1
  rw [hty, if_pos rfl, hclamp] at hrange
  have hgap : s.lower.gap ≠ s.upper.gap := by
    intro heq
    rw [(isEmpty_block hty).mpr (gap_eq_iff.mpr heq)] at hsome
    exact Bool.noConfusion hsome
  have hagap := gap_cases s.lower
  have hbgap := gap_cases s.upper
  obtain ⟨⟨hlrow, hlcol⟩, ⟨hurow, hucol⟩⟩ := hwithin
  constructor
  · intro hexact hcrossed
    have hcols := hexact.columns _ hrange hty
    rw [rangeBlock_crossed hcrossed] at hcols
    dsimp only at hcols
    omega
  · intro hfine
    have heq := rangeBlock_eq hgap hfine
    rw [show (⟨s.lower.point, s.lower.side⟩ : Anchor) = s.lower from rfl, heq] at hrange
    refine .of_some ⟨⟨hlrow, hlcol⟩, hurow, hucol⟩ hrange (fun p hp => ?_) ?_ (fun _ => ?_) ?_
    · rw [names_lower, if_pos hty, SelectionRange.contains_iff]
      unfold InBlock
      simp only [Bool.true_eq_false, and_false, or_false]
      omega
    · rw [Pos.mk.injEq, Pos.lt_iff]
      dsimp only
      omega
    · dsimp only
      omega
    · unfold Grid.HasCell
      dsimp only
      omega

/-- Text from a line that the history has lost. -/
theorem exact_lost_simple (hwithin : s.Within g) (hcolumns : 2 ≤ g.columns) (hty : s.ty = .simple)
    (hlost : s.lower.point.row < g.topmostLine) (hin : g.topmostLine ≤ s.upper.point.row)
    (hsome : s.isEmpty = false) :
    s.Exact g ↔ ¬ MissesLostText s.lower s.upper g.topmostLine := by
  have hrange := toRange_eq (.inl hty) hin hsome
  have hclamp : s.lower.point.gridClamp g.dimensions .grid = ⟨g.topmostLine, 0⟩ :=
    gridClamp_of_lt hlost
  rw [hty, if_neg (by decide), hclamp] at hrange
  have hfirst := @rangeSimple_first s.upper g.topmostLine s.lower.side g.columns hcolumns hin
  have hbgap := gap_cases s.upper
  have hnames (p : Pos) (hp : g.HasCell p) : s.Names p ↔
      p.row < s.upper.point.row ∨ p.row = s.upper.point.row ∧ p.col < s.upper.gap := by
    have htop := hp.1
    rw [names_lower, if_neg (by rw [hty]; decide)]
    unfold InText Between
    omega
  have hfirstCell : g.HasCell ⟨g.topmostLine, 0⟩ := by
    refine ⟨le_rfl, ?_, ?_⟩
    · exact hin.trans_lt hwithin.upper.1
    · exact Nat.zero_lt_of_lt hwithin.upper.2
  rw [hfirst] at hrange
  have hblock (range : SelectionRange) (h : range.isBlock = false) :
      range.isBlock = true ∨ s.ty = .block → range.start.col ≤ range.stop.col := by
    rw [h, hty]
    exact fun h => h.elim Bool.false_ne_true.elim fun h => SelectionType.noConfusion h
  unfold MissesLostText
  by_cases hnear : s.upper.point.row = g.topmostLine ∧ s.upper.gap ≤ 1
  · rw [if_pos hnear] at hrange
    by_cases hzero : s.upper.gap = 0
    · refine iff_of_false (fun hexact => ?_) (not_not.mpr (.inl ⟨hnear.1, hzero⟩))
      have hcontains : SelectionRange.contains ⟨⟨g.topmostLine, 0⟩, ⟨g.topmostLine, 0⟩, false⟩
          ⟨g.topmostLine, 0⟩ = true := contains_start (.inl rfl) fun _ => le_rfl
      have hname := (hexact.cells _ hrange _ hfirstCell).mp hcontains
      rw [hnames _ hfirstCell] at hname
      dsimp only at hname
      omega
    · refine iff_of_true ?_ (by omega)
      refine .of_some hwithin hrange (fun p hp => ?_) (.inl rfl) (hblock _ rfl)
        ⟨hfirstCell, hfirstCell⟩
      rw [hnames p hp, SelectionRange.contains_text]
      have htop := hp.1
      dsimp only
      omega
  · rw [if_neg hnear] at hrange
    by_cases hside : s.lower.side = .right
    · refine iff_of_false (fun hexact => ?_) (not_not.mpr (.inr ⟨hside, hnear⟩))
      rw [if_pos hside] at hrange
      have hname := (hnames _ hfirstCell).mpr (by dsimp only; omega)
      have hcontains := (hexact.cells _ hrange _ hfirstCell).mpr hname
      rw [SelectionRange.contains_text] at hcontains
      dsimp only at hcontains
      omega
    · rw [if_neg hside] at hrange
      refine iff_of_true ?_ (by
        rintro (⟨hrow, hzero⟩ | ⟨hright, -⟩)
        · omega
        · exact hside hright)
      have hlines := hwithin.upper.1
      have hlast := hwithin.upper.2
      refine .of_some hwithin hrange (fun p hp => ?_) ?_ (hblock _ rfl) ⟨hfirstCell, ?_⟩
      · rw [hnames p hp, SelectionRange.contains_text]
        have htop := hp.1
        have hcol := hp.2.2
        dsimp only
        split_ifs
        · dsimp only
          omega
        · dsimp only
          omega
      · dsimp only
        split_ifs
        · rw [Pos.mk.injEq, Pos.lt_iff]
          dsimp only
          omega
        · rw [Pos.mk.injEq, Pos.lt_iff]
          dsimp only
          omega
      · unfold Grid.HasCell
        dsimp only
        split_ifs
        · dsimp only
          omega
        · dsimp only
          omega

/-- A block from a line that the history has lost. -/
theorem exact_lost_block (hwithin : s.Within g) (hcolumns : 2 ≤ g.columns) (hty : s.ty = .block)
    (hlost : s.lower.point.row < g.topmostLine) (hin : g.topmostLine ≤ s.upper.point.row)
    (hsome : s.isEmpty = false) :
    s.Exact g ↔ ¬ MissesLostBlock s.lower s.upper g.topmostLine := by
  have hrange := toRange_eq (.inr hty) hin hsome
  have hclamp : s.lower.point.gridClamp g.dimensions .grid = ⟨g.topmostLine, 0⟩ :=
    gridClamp_of_lt hlost
  rw [if_pos hty, hclamp, rangeBlock_first] at hrange
  have hgap : s.lower.gap ≠ s.upper.gap := by
    intro heq
    rw [(isEmpty_block hty).mpr (gap_eq_iff.mpr heq)] at hsome
    exact Bool.noConfusion hsome
  have hagap := gap_cases s.lower
  have hbgap := gap_cases s.upper
  obtain ⟨⟨hlrow, hlcol⟩, ⟨hurow, hucol⟩⟩ := hwithin
  have hnames (p : Pos) (hp : g.HasCell p) : s.Names p ↔ p.row ≤ s.upper.point.row ∧
      min s.lower.gap s.upper.gap ≤ p.col ∧ p.col < max s.lower.gap s.upper.gap := by
    have htop := hp.1
    rw [names_lower, if_pos hty]
    unfold InBlock
    omega
  unfold MissesLostBlock
  constructor
  · intro hexact hmisses
    have hcells (col : ℕ) (hcol : col < g.columns) :
        (if s.lower.side = .right ∧ ¬(s.upper.point.row = g.topmostLine ∧ s.upper.gap ≤ 1) then 1
          else 0) ≤ col ∧ col ≤ s.upper.gap - 1 ↔
        min s.lower.gap s.upper.gap ≤ col ∧ col < max s.lower.gap s.upper.gap := by
      have hcell := hexact.cells _ hrange ⟨s.upper.point.row, col⟩ ⟨hin, hurow, hcol⟩
      rw [hnames ⟨s.upper.point.row, col⟩ ⟨hin, hurow, hcol⟩, SelectionRange.contains_iff] at hcell
      simp only [Bool.true_eq_false, and_false, or_false, le_refl, true_and] at hcell
      exact (and_iff_right hin).symm.trans hcell
    obtain ⟨first, hfirst⟩ : ∃ first, first = if s.lower.side = .right ∧
        ¬(s.upper.point.row = g.topmostLine ∧ s.upper.gap ≤ 1) then 1 else 0 := ⟨_, rfl⟩
    have hside : s.lower.side = .left → first = 0 := by
      intro hleft
      rw [hfirst, if_neg fun h => absurd (hleft.symm.trans h.1) (by decide)]
    have hmoved : s.lower.side = .right → s.upper.point.row ≠ g.topmostLine → first = 1 := by
      intro hright hrow
      rw [hfirst, if_pos ⟨hright, fun h => hrow h.1⟩]
    have hle : first ≤ 1 := by
      rw [hfirst]
      split_ifs
      · exact le_rfl
      · exact Nat.zero_le 1
    rw [← hfirst] at hcells
    have hzero := hcells 0 (by omega)
    have hone := hcells 1 (by omega)
    have hlast := fun hover : s.upper.gap < s.lower.gap => hcells s.upper.gap (by omega)
    obtain ⟨hleft, hgapl⟩ | ⟨hright, hgapr⟩ := hagap
    · have hstart := hside hleft
      grind
    · grind
  · intro hfine
    have hstart : (if s.lower.side = .right ∧
        ¬(s.upper.point.row = g.topmostLine ∧ s.upper.gap ≤ 1) then 1 else 0) =
          min s.lower.gap s.upper.gap ∧ s.upper.gap - 1 + 1 = max s.lower.gap s.upper.gap := by
      grind
    obtain ⟨hstart, hstop⟩ := hstart
    rw [hstart] at hrange
    refine .of_some ⟨⟨hlrow, hlcol⟩, hurow, hucol⟩ hrange (fun p hp => ?_) ?_ (fun _ => ?_) ?_
    · rw [hnames p hp, SelectionRange.contains_iff]
      have htop := hp.1
      simp only [Bool.true_eq_false, and_false, or_false]
      omega
    · rw [Pos.mk.injEq, Pos.lt_iff]
      dsimp only
      omega
    · dsimp only
      omega
    · unfold Grid.HasCell
      dsimp only
      omega

/-- A simple or a block selection has the range between its anchors, and in any order, exactly when
the code does not miss it. -/
theorem exact_iff (hwithin : s.Within g) (hcolumns : 2 ≤ g.columns)
    (hty : s.ty = .simple ∨ s.ty = .block) : s.Exact g ↔ ¬ s.Misses g := by
  have hrow := s.row_le
  unfold Misses
  by_cases hgone : s.upper.point.row < g.topmostLine
  · rw [if_neg (by omega)]
    refine iff_of_true ?_ fun h => absurd h.1 (not_le.mpr hgone)
    exact .of_none hwithin (if_pos hgone) fun p hp => not_names (.inl hgone) hty hp
  rw [not_lt] at hgone
  cases hempty : s.isEmpty with
  | true =>
    have hnone : s.toRange g = none := by
      unfold toRange
      rw [if_neg (not_lt.mpr hgone), hempty]
      obtain hty | hty := hty
      · rw [hty]
        rfl
      · rw [hty]
        rfl
    refine iff_of_true (.of_none hwithin hnone fun p hp => not_names (.inr hempty) hty hp) ?_
    obtain hty | hty := hty
    · have hnot : s.ty ≠ .block := by
        rw [hty]
        decide
      rw [isEmpty_simple hty] at hempty
      have hrows : s.lower.point.row = s.upper.point.row := by
        obtain heq | h := hempty
        · rw [heq]
        · exact h.2.2.1
      rw [if_neg hnot, if_neg hnot]
      split_ifs
      · omega
      · omega
    · rw [isEmpty_block hty, gap_eq_iff] at hempty
      rw [if_pos hty, if_pos hty]
      split_ifs
      · rintro ⟨hcol, -, hright, hleft⟩
        rw [gap_of_right hright, gap_of_left hleft] at hempty
        omega
      · exact fun h => h.2.1 hempty
  | false =>
    by_cases hin : g.topmostLine ≤ s.lower.point.row
    · rw [if_pos hin]
      obtain hty | hty := hty
      · rw [if_neg (by rw [hty]; decide)]
        exact exact_simple hwithin hty hin hempty
      · rw [if_pos hty]
        exact exact_block hwithin hty hin hempty
    · rw [if_neg hin, and_iff_right hgone]
      rw [not_le] at hin
      obtain hty | hty := hty
      · rw [if_neg (by rw [hty]; decide)]
        exact exact_lost_simple hwithin hcolumns hty hin hgone hempty
      · rw [if_pos hty]
        exact exact_lost_block hwithin hcolumns hty hin hgone hempty

theorem exact_new :
    (⟨.simple, ⟨⟨0, 1⟩, .left⟩, ⟨⟨1, 0⟩, .right⟩⟩ : Selection).Exact (Grid.new 2 3 0) ↔
      ¬ (⟨.simple, ⟨⟨0, 1⟩, .left⟩, ⟨⟨1, 0⟩, .right⟩⟩ : Selection).Misses (Grid.new 2 3 0) :=
  exact_iff ⟨⟨by decide, by decide⟩, by decide, by decide⟩ (by decide) (.inl rfl)

/-- From the right edge of a line to the left edge of the next one, the last cell of the line is
selected. -/
theorem edges_select_cell :
    ¬ (⟨.simple, ⟨⟨0, 2⟩, .right⟩, ⟨⟨1, 0⟩, .left⟩⟩ : Selection).Exact (Grid.new 2 3 0) := by
  intro hexact
  have hrange : (⟨.simple, ⟨⟨0, 2⟩, .right⟩, ⟨⟨1, 0⟩, .left⟩⟩ : Selection).toRange
      (Grid.new 2 3 0) = some ⟨⟨0, 2⟩, ⟨0, 2⟩, false⟩ := by decide
  have hcell : (Grid.new 2 3 0 : Grid Square).HasCell ⟨0, 2⟩ :=
    ⟨by decide, by decide, by decide⟩
  have hname := (hexact.cells _ hrange ⟨0, 2⟩ hcell).mp (by decide)
  rw [Names, if_neg (by decide)] at hname
  revert hname
  unfold InText Between
  decide

end Selection
end Rio
