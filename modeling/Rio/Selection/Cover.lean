import Rio.Grid.Scroll
import Rio.Selection.Selection

/-! The cells between the anchors of a selection, line by line. -/

set_option linter.dupNamespace false

namespace Rio

/-- The number of cells of the line that are before the anchor. -/
def Anchor.gap (a : Anchor) : ℕ := a.point.col + if a.side = .right then 1 else 0

namespace SelectionRange

theorem contains_iff {range : SelectionRange} {p : Pos} :
    range.contains p = true ↔ range.start.row ≤ p.row ∧ p.row ≤ range.stop.row ∧
      (range.start.col ≤ p.col ∨ range.start.row ≠ p.row ∧ range.isBlock = false) ∧
      (p.col ≤ range.stop.col ∨ range.stop.row ≠ p.row ∧ range.isBlock = false) := by
  unfold contains
  simp only [Bool.and_eq_true, Bool.or_eq_true, decide_eq_true_eq, Bool.not_eq_true', and_assoc]

theorem contains_text {start stop p : Pos} : (⟨start, stop, false⟩ : SelectionRange).contains p = true ↔
    (start.row < p.row ∨ start.row = p.row ∧ start.col ≤ p.col) ∧
      (p.row < stop.row ∨ p.row = stop.row ∧ p.col ≤ stop.col) := by
  rw [contains_iff]
  simp only [and_true]
  omega

end SelectionRange

namespace Selection

/-- The cells between the anchors; words and whole logical lines are found from there. -/
def between (s : Selection) (g : Grid Square) : Option SelectionRange :=
  match s.ty with
  | .simple | .block => s.toRange g
  | .lines =>
    if s.upper.point.row < g.topmostLine then none
    else some ⟨⟨max s.lower.point.row g.topmostLine, 0⟩, ⟨s.upper.point.row, g.lastColumn⟩, false⟩
  | .semantic =>
    if s.upper.point.row < g.topmostLine then none
    else some ⟨s.lower.point.gridClamp g.dimensions .grid, s.upper.point, false⟩

/-- A cell is selected. -/
def Covers (s : Selection) (g : Grid Square) (p : Pos) : Prop :=
  ∃ range, s.between g = some range ∧ range.contains p = true

instance (s : Selection) (g : Grid Square) (p : Pos) : Decidable (s.Covers g p) :=
  decidable_of_iff ((s.between g).any (·.contains p) = true) (Option.any_eq_true ..)

/-- A cell is between two anchors in the text. An anchor on either side of one cell selects it. -/
def Text (a b : Anchor) (p : Pos) : Prop :=
  if a.point = b.point then p = a.point ∧ a.side ≠ b.side
  else (a.point.row < p.row ∨ a.point.row = p.row ∧ a.gap ≤ p.col) ∧
    (p.row < b.point.row ∨ p.row = b.point.row ∧ p.col < b.gap)

/-- A column is between two anchors, in whatever order they are. -/
def Columns (a b : Anchor) (col : ℕ) : Prop :=
  if a.point = b.point then col = a.point.col ∧ a.side ≠ b.side
  else if b.point.col < a.point.col then b.gap ≤ col ∧ col < a.gap
  else a.gap ≤ col ∧ col < b.gap

/-! ### Ranges -/

/-- The selection goes from the right edge of a line to the left edge of another one. -/
def AtEdges (a b : Anchor) (columns : ℕ) : Prop :=
  a.side = .right ∧ a.point.col + 1 = columns ∧ b.side = .left ∧ b.point.col = 0

variable {a b : Anchor} {p : Pos} {columns : ℕ}

theorem gap_of_left (h : a.side = .left) : a.gap = a.point.col := by
  unfold Anchor.gap
  rw [h]
  rfl

theorem gap_of_right (h : a.side = .right) : a.gap = a.point.col + 1 := by
  unfold Anchor.gap
  rw [h]
  rfl

theorem gap_cases (a : Anchor) :
    a.side = .left ∧ a.gap = a.point.col ∨ a.side = .right ∧ a.gap = a.point.col + 1 := by
  cases h : a.side with
  | left => exact .inl ⟨rfl, gap_of_left h⟩
  | right => exact .inr ⟨rfl, gap_of_right h⟩

theorem ne_of_lt (h : a.point < b.point) : a.point ≠ b.point := by
  intro heq
  rw [heq, Pos.lt_iff] at h
  omega

theorem stop_rangeSimple (hne : a.point ≠ b.point) : (rangeSimple a b columns).stop =
    if b.side = .left then
      if b.point.col = 0 then ⟨b.point.row - 1, columns - 1⟩
      else { b.point with col := b.point.col - 1 }
    else b.point := by
  unfold rangeSimple
  by_cases hside : b.side = .left
  · rw [if_pos hside, if_pos ⟨hside, hne⟩]
  · rw [if_neg hside, if_neg fun h => hside h.1]

/-- The first cell is left out when the selection starts on its right, even if the last one has been
left out before. -/
theorem start_rangeSimple (hne : a.point ≠ b.point)
    (hempty : ¬ (a.side = .right ∧ b.side = .left ∧ a.point.row = b.point.row ∧
      a.point.col + 1 = b.point.col))
    (hedges : AtEdges a b columns → a.point.row + 1 ≠ b.point.row)
    (ha : a.point.col < columns) : (rangeSimple a b columns).start =
    if a.side = .right then
      if a.point.col + 1 = columns then ⟨a.point.row + 1, 0⟩
      else { a.point with col := a.point.col + 1 }
    else a.point := by
  have hstop : (rangeSimple a b columns).stop = _ := stop_rangeSimple hne
  unfold rangeSimple at hstop ⊢
  dsimp only at hstop ⊢
  rw [hstop]
  by_cases hside : a.side = .right
  · have hfirst : a.point ≠ if b.side = .left then
        if b.point.col = 0 then ⟨b.point.row - 1, columns - 1⟩
        else { b.point with col := b.point.col - 1 }
      else b.point := by
      split_ifs with hleft hcol
      · intro heq
        rw [heq] at ha hedges
        dsimp only at ha hedges
        refine hedges ⟨hside, ?_, hleft, hcol⟩ (Int.sub_add_cancel ..)
        rw [heq]
        dsimp only
        omega
      · intro heq
        refine hempty ⟨hside, hleft, ?_, ?_⟩
        · rw [heq]
        · rw [heq]
          dsimp only
          omega
      · exact hne
    rw [if_pos hside, if_pos ⟨hside, hfirst⟩]
  · rw [if_neg hside, if_neg fun h => hside h.1]

/-- The range from one edge to another one after it. -/
theorem rangeSimple_eq (hlt : a.point < b.point) (ha : a.point.col < columns)
    (hempty : ¬ (a.side = .right ∧ b.side = .left ∧ a.point.row = b.point.row ∧
      a.point.col + 1 = b.point.col))
    (hedges : AtEdges a b columns → a.point.row + 1 ≠ b.point.row) :
    rangeSimple a b columns =
      ⟨if a.gap = columns then ⟨a.point.row + 1, 0⟩ else ⟨a.point.row, a.gap⟩,
        if b.gap = 0 then ⟨b.point.row - 1, columns - 1⟩ else ⟨b.point.row, b.gap - 1⟩, false⟩ := by
  have hne := ne_of_lt hlt
  have hstart : (rangeSimple a b columns).start =
      if a.gap = columns then ⟨a.point.row + 1, 0⟩ else ⟨a.point.row, a.gap⟩ := by
    rw [start_rangeSimple hne hempty hedges ha]
    obtain ⟨hside, hgap⟩ | ⟨hside, hgap⟩ := gap_cases a
    · rw [hside, hgap, if_neg (by decide), if_neg (by omega)]
    · rw [hside, hgap, if_pos rfl]
  have hstop : (rangeSimple a b columns).stop =
      if b.gap = 0 then ⟨b.point.row - 1, columns - 1⟩ else ⟨b.point.row, b.gap - 1⟩ := by
    rw [stop_rangeSimple hne]
    obtain ⟨hside, hgap⟩ | ⟨hside, hgap⟩ := gap_cases b
    · rw [hside, hgap, if_pos rfl]
    · rw [hside, hgap, if_neg (by decide), if_neg (by omega)]
      rfl
  rw [← hstart, ← hstop]
  rfl

theorem contains_rangeSimple (hlt : a.point < b.point) (ha : a.point.col < columns)
    (hempty : ¬ (a.side = .right ∧ b.side = .left ∧ a.point.row = b.point.row ∧
      a.point.col + 1 = b.point.col))
    (hedges : AtEdges a b columns → a.point.row + 1 ≠ b.point.row) (hp : p.col < columns) :
    (rangeSimple a b columns).contains p = true ↔ Text a b p := by
  rw [rangeSimple_eq hlt ha hempty hedges, SelectionRange.contains_text]
  unfold Text
  rw [if_neg (ne_of_lt hlt)]
  have hagap := gap_cases a
  have hbgap := gap_cases b
  rw [Pos.lt_iff] at hlt
  split_ifs <;> dsimp only <;> omega

/-- A block selection between two anchors has no columns. -/
def NoColumns (a b : Anchor) : Prop :=
  a.point.col = b.point.col ∧ a.side = b.side ∨
    a.point.col + 1 = b.point.col ∧ a.side = .right ∧ b.side = .left ∨
    b.point.col + 1 = a.point.col ∧ a.side = .left ∧ b.side = .right

theorem not_columns (h : NoColumns a b) (col : ℕ) : ¬ Columns a b col := by
  unfold Columns
  have hagap := gap_cases a
  have hbgap := gap_cases b
  obtain ⟨hcol, hside⟩ | ⟨hcol, ha, hb⟩ | ⟨hcol, ha, hb⟩ := h
  · split_ifs
    · exact fun hsides => hsides.2 hside
    · omega
    · rw [hside] at hagap
      obtain ⟨ha, hagap⟩ | ⟨ha, hagap⟩ := hagap
      · rw [hagap, gap_of_left ha]
        omega
      · rw [hagap, gap_of_right ha]
        omega
  · rw [gap_of_right ha, gap_of_left hb, if_neg, if_neg]
    · omega
    · omega
    · intro heq
      rw [heq] at hcol
      omega
  · rw [gap_of_left ha, gap_of_right hb, if_neg, if_pos]
    · omega
    · omega
    · intro heq
      rw [heq] at hcol
      omega

theorem contains_rangeCorners (hcol : a.point.col ≤ b.point.col) (hsome : ¬ NoColumns a b) :
    (rangeCorners a b).contains p = true ↔ a.point.row ≤ p.row ∧ p.row ≤ b.point.row ∧
      if a.point = b.point then p.col = a.point.col ∧ a.side ≠ b.side
      else a.gap ≤ p.col ∧ p.col < b.gap := by
  have hstop : (rangeCorners a b).stop = if b.side = .left ∧ a.point ≠ b.point ∧ 0 < b.point.col then
      { b.point with col := b.point.col - 1 } else b.point := rfl
  have hstart : (rangeCorners a b).start = if a.side = .right ∧ a.point ≠ (rangeCorners a b).stop
      then { a.point with col := a.point.col + 1 } else a.point := rfl
  have hblock : (rangeCorners a b).isBlock = true := rfl
  rw [SelectionRange.contains_iff, hblock]
  simp only [Bool.true_eq_false, and_false, or_false]
  by_cases hsame : a.point = b.point
  · have hside : a.side ≠ b.side := fun h => hsome (.inl ⟨congrArg Pos.col hsame, h⟩)
    rw [if_neg fun h => h.2.1 hsame] at hstop
    rw [hstop, if_neg fun h => h.2 hsame] at hstart
    rw [hstart, hstop, if_pos hsame, ← hsame]
    constructor
    · exact fun ⟨hfirst, hlast, hleft, hright⟩ => ⟨hfirst, hlast, le_antisymm hright hleft, hside⟩
    · exact fun ⟨hfirst, hlast, hcol, _⟩ => ⟨hfirst, hlast, hcol.ge, hcol.le⟩
  · have hstop : (rangeCorners a b).stop = ⟨b.point.row,
        if b.side = .left ∧ 0 < b.point.col then b.point.col - 1 else b.point.col⟩ := by
      rw [hstop]
      split_ifs with h1 h2 h2
      · rfl
      · exact absurd ⟨h1.1, h1.2.2⟩ h2
      · exact absurd ⟨h2.1, hsame, h2.2⟩ h1
      · rfl
    have hstart : (rangeCorners a b).start = ⟨a.point.row, a.gap⟩ := by
      rw [hstart]
      obtain ⟨hside, hgap⟩ | ⟨hside, hgap⟩ := gap_cases a
      · rw [hside, hgap, if_neg fun h => absurd h.1 (by decide)]
      · have hfirst : a.point ≠ (rangeCorners a b).stop := by
          intro heq
          rw [hstop] at heq
          by_cases hleft : b.side = .left ∧ 0 < b.point.col
          · rw [if_pos hleft] at heq
            have hacol := congrArg Pos.col heq
            dsimp only at hacol
            exact hsome (.inr (.inl ⟨by omega, hside, hleft.1⟩))
          · rw [if_neg hleft] at heq
            exact hsame heq
        rw [hgap, if_pos ⟨hside, hfirst⟩]
    rw [hstart, hstop, if_neg hsame]
    unfold NoColumns at hsome
    obtain ⟨hside, hgap⟩ | ⟨hside, hgap⟩ := gap_cases a
    · obtain ⟨hside', hgap'⟩ | ⟨hside', hgap'⟩ := gap_cases b
      · have hpos : 0 < b.point.col := by
          refine Nat.pos_of_ne_zero fun hzero => hsome (.inl ⟨by omega, hside.trans hside'.symm⟩)
        rw [if_pos ⟨hside', hpos⟩]
        dsimp only
        omega
      · rw [if_neg fun h => absurd (h.1.symm.trans hside') (by decide)]
        dsimp only
        omega
    · obtain ⟨hside', hgap'⟩ | ⟨hside', hgap'⟩ := gap_cases b
      · by_cases hpos : 0 < b.point.col
        · rw [if_pos ⟨hside', hpos⟩]
          dsimp only
          omega
        · rw [if_neg fun h => hpos h.2]
          dsimp only
          omega
      · rw [if_neg fun h => absurd (h.1.symm.trans hside') (by decide)]
        dsimp only
        omega

/-- The corners of a block. -/
theorem contains_rangeBlock (hsome : ¬ NoColumns a b) :
    (rangeBlock a b).contains p = true ↔
      a.point.row ≤ p.row ∧ p.row ≤ b.point.row ∧ Columns a b p.col := by
  unfold rangeBlock Columns
  by_cases hcol : b.point.col < a.point.col
  · have hne : a.point ≠ b.point := fun heq => absurd (congrArg Pos.col heq) hcol.ne'
    have hswapped : ¬ NoColumns ⟨⟨a.point.row, b.point.col⟩, b.side⟩
        ⟨⟨b.point.row, a.point.col⟩, a.side⟩ := by
      rintro (⟨hcol', -⟩ | ⟨hcol', hb, ha⟩ | ⟨hcol', -⟩)
      · exact hcol.ne hcol'
      · exact hsome (.inr (.inr ⟨hcol', ha, hb⟩))
      · dsimp only at hcol'
        omega
    have hcorners := contains_rangeCorners (p := p) (show
      (⟨⟨a.point.row, b.point.col⟩, b.side⟩ : Anchor).point.col ≤
        (⟨⟨b.point.row, a.point.col⟩, a.side⟩ : Anchor).point.col from hcol.le) hswapped
    have hcorner : (⟨a.point.row, b.point.col⟩ : Pos) ≠ ⟨b.point.row, a.point.col⟩ :=
      fun heq => hcol.ne (Pos.mk.inj heq).2
    rw [if_pos hcol, if_neg hne, if_pos hcol]
    rw [if_neg hcorner] at hcorners
    exact hcorners
  · rw [if_neg hcol, contains_rangeCorners (not_lt.mp hcol) hsome]
    split_ifs <;> rfl

/-! ### Selections -/

variable {s : Selection} {g : Grid Square}

/-- Both anchors are on cells of the grid, or on lines that the history has lost. -/
structure Within (s : Selection) (g : Grid Square) : Prop where
  lower : s.lower.point.row < g.lines ∧ s.lower.point.col < g.columns
  upper : s.upper.point.row < g.lines ∧ s.upper.point.col < g.columns

/-- Where the text begins, whatever side words and lines were selected on. -/
def lowerEnd (ty : SelectionType) (a : Anchor) : Anchor :=
  match ty with
  | .semantic => ⟨a.point, .left⟩
  | .lines => ⟨⟨a.point.row, 0⟩, .left⟩
  | _ => a

def upperEnd (ty : SelectionType) (g : Grid Square) (b : Anchor) : Anchor :=
  match ty with
  | .semantic => ⟨b.point, .right⟩
  | .lines => ⟨⟨b.point.row, g.lastColumn⟩, .right⟩
  | _ => b

/-- The text goes on to the first line of the grid where the history lost the first anchor. -/
def Sided (ty : SelectionType) (a b : Anchor) : Prop :=
  ty ≠ .block ∧ (ty = .simple → a.side = .left ∧ ¬ (b.side = .left ∧ b.point.col = 0))

/-- The line of the first anchor is there, or that of no anchor, or it does not matter. -/
def Anchored (s : Selection) (g : Grid Square) : Prop :=
  g.topmostLine ≤ s.lower.point.row ∨ s.upper.point.row < g.topmostLine ∨
    Sided s.ty s.lower s.upper

theorem lower_le (s : Selection) : s.lower.point = s.upper.point ∨ s.lower.point < s.upper.point := by
  have hle : ¬ s.upper.point < s.lower.point := by
    unfold upper lower backwards
    by_cases h : s.stop.point < s.start.point
    · rw [decide_eq_true h, if_pos rfl, if_pos rfl]
      rw [Pos.lt_iff] at h ⊢
      omega
    · rw [decide_eq_false h, if_neg Bool.false_ne_true, if_neg Bool.false_ne_true]
      exact h
  generalize s.lower.point = p at hle
  generalize s.upper.point = q at hle
  obtain ⟨prow, pcol⟩ := p
  obtain ⟨qrow, qcol⟩ := q
  rw [Pos.lt_iff] at hle ⊢
  rw [Pos.mk.injEq]
  dsimp only at *
  omega

theorem row_le (s : Selection) : s.lower.point.row ≤ s.upper.point.row := by
  obtain heq | hlt := s.lower_le
  · rw [heq]
  · rw [Pos.lt_iff] at hlt
    omega

theorem gridClamp_of_le {d : Dimensions} (hcol : p.col < d.columns) (htop : d.topmostLine ≤ p.row)
    (hrow : p.row < d.screenLines) : p.gridClamp d .grid = p := by
  have hmin : min p.col d.lastColumn = p.col := by
    unfold Dimensions.lastColumn
    omega
  unfold Pos.gridClamp
  dsimp only
  rw [hmin, if_neg (not_lt.mpr htop), if_neg]
  unfold Dimensions.bottommostLine
  omega

theorem gridClamp_of_lt {d : Dimensions} (htop : p.row < d.topmostLine) :
    p.gridClamp d .grid = ⟨d.topmostLine, 0⟩ := if_pos htop

/-- The selection has no cell though its anchors may differ. -/
theorem isEmpty_simple (hty : s.ty = .simple) : s.isEmpty = true ↔ s.lower = s.upper ∨
    s.lower.side = .right ∧ s.upper.side = .left ∧ s.lower.point.row = s.upper.point.row ∧
      s.lower.point.col + 1 = s.upper.point.col := by
  unfold isEmpty
  rw [hty]
  simp only [Bool.or_eq_true, Bool.and_eq_true, decide_eq_true_eq, and_assoc]

theorem isEmpty_block (hty : s.ty = .block) :
    s.isEmpty = true ↔ NoColumns s.lower s.upper := by
  have hempty : s.isEmpty = true ↔ NoColumns s.start s.stop := by
    unfold isEmpty NoColumns
    rw [hty]
    simp only [Bool.or_eq_true, Bool.and_eq_true, decide_eq_true_eq, and_assoc, or_assoc]
  rw [hempty]
  unfold lower upper
  split
  · unfold NoColumns
    constructor
    · rintro (⟨hcol, hside⟩ | ⟨hcol, ha, hb⟩ | ⟨hcol, ha, hb⟩)
      · exact .inl ⟨hcol.symm, hside.symm⟩
      · exact .inr (.inr ⟨hcol, hb, ha⟩)
      · exact .inr (.inl ⟨hcol, hb, ha⟩)
    · rintro (⟨hcol, hside⟩ | ⟨hcol, ha, hb⟩ | ⟨hcol, ha, hb⟩)
      · exact .inl ⟨hcol.symm, hside.symm⟩
      · exact .inr (.inr ⟨hcol, hb, ha⟩)
      · exact .inr (.inl ⟨hcol, hb, ha⟩)
  · rfl

/-- The range of a simple selection that is not empty. -/
theorem contains_rangeSimple_of_le (hle : a.point = b.point ∨ a.point < b.point)
    (ha : a.point.col < columns) (hne : a ≠ b)
    (hempty : ¬ (a.side = .right ∧ b.side = .left ∧ a.point.row = b.point.row ∧
      a.point.col + 1 = b.point.col))
    (hedges : AtEdges a b columns → a.point.row + 1 ≠ b.point.row) (hp : p.col < columns) :
    (rangeSimple a b columns).contains p = true ↔ Text a b p := by
  obtain heq | hlt := hle
  · have hside : a.side ≠ b.side := fun h => hne (by
      cases a
      cases b
      exact Anchor.mk.injEq .. ▸ ⟨heq, h⟩)
    have hrange : rangeSimple a b columns = ⟨a.point, b.point, false⟩ := by
      unfold rangeSimple
      rw [if_neg (not_and_not_right.mpr fun _ => heq)]
      dsimp only
      rw [if_neg (not_and_not_right.mpr fun _ => heq)]
    rw [hrange, SelectionRange.contains_text, Text, if_pos heq, ← heq]
    constructor
    · rintro ⟨hfirst, hlast⟩
      refine ⟨?_, hside⟩
      obtain ⟨prow, pcol⟩ := p
      generalize a.point = q at hfirst hlast
      obtain ⟨qrow, qcol⟩ := q
      rw [Pos.mk.injEq]
      dsimp only at hfirst hlast
      omega
    · rintro ⟨rfl, -⟩
      exact ⟨.inr ⟨rfl, le_rfl⟩, .inr ⟨rfl, le_rfl⟩⟩
  · exact contains_rangeSimple hlt ha hempty hedges hp

theorem contains_inclusive {q r : Pos} (hle : p = q ∨ p < q) :
    (⟨p, q, false⟩ : SelectionRange).contains r = true ↔ Text ⟨p, .left⟩ ⟨q, .right⟩ r := by
  rw [SelectionRange.contains_text, Text]
  obtain rfl | hlt := hle
  · rw [if_pos rfl]
    obtain ⟨prow, pcol⟩ := p
    obtain ⟨rrow, rcol⟩ := r
    rw [Pos.mk.injEq, and_iff_left (show Side.left ≠ Side.right by decide)]
    dsimp only
    omega
  · have hne : p ≠ q := ne_of_lt (a := ⟨p, .left⟩) (b := ⟨q, .right⟩) hlt
    rw [if_neg hne, gap_of_left rfl, gap_of_right rfl]
    dsimp only
    omega

/-- Lines that the history has lost are before every cell of the grid. -/
theorem text_of_lost {top : ℤ} (ha : a.point.row < top) (hb : top ≤ b.point.row)
    (hedge : ¬ (b.side = .left ∧ b.point.col = 0)) (hp : top ≤ p.row) :
    Text ⟨⟨top, 0⟩, .left⟩ b p ↔ Text a b p := by
  have hne : a.point ≠ b.point := by
    intro heq
    rw [heq] at ha
    omega
  unfold Text
  rw [if_neg hne, gap_of_left rfl]
  dsimp only
  by_cases heq : (⟨top, 0⟩ : Pos) = b.point
  · have hside : b.side = .right := by
      cases hside : b.side with
      | left => exact absurd ⟨hside, (congrArg Pos.col heq).symm⟩ hedge
      | right => rfl
    rw [if_pos heq, gap_of_right hside, ← heq, hside]
    obtain ⟨prow, pcol⟩ := p
    rw [Pos.mk.injEq, and_iff_left (show Side.left ≠ Side.right by decide)]
    dsimp only at *
    omega
  · rw [if_neg heq]
    omega

theorem le_of_top {top : ℤ} {q : Pos} (h : top ≤ q.row) :
    (⟨top, 0⟩ : Pos) = q ∨ (⟨top, 0⟩ : Pos) < q := by
  obtain ⟨qrow, qcol⟩ := q
  rw [Pos.mk.injEq, Pos.lt_iff]
  dsimp only at *
  omega

theorem not_text_of_gone {top : ℤ} (hle : a.point.row ≤ b.point.row) (hb : b.point.row < top)
    (hp : top ≤ p.row) : ¬ Text a b p := by
  unfold Text
  split
  · rintro ⟨rfl, -⟩
    omega
  · omega

theorem covers_of_none (h : s.between g = none) : ¬ s.Covers g p := by
  rintro ⟨range, hrange, -⟩
  exact absurd (h.symm.trans hrange) nofun

theorem covers_of_some {range : SelectionRange} (h : s.between g = some range) :
    s.Covers g p ↔ range.contains p = true := by
  constructor
  · rintro ⟨range', hrange, hp⟩
    exact Option.some_inj.mp (hrange.symm.trans h) ▸ hp
  · exact fun hp => ⟨range, h, hp⟩

/-- The first anchor after it is clamped to the grid. -/
theorem clamp_cases (hwithin : s.Within g) :
    (g.topmostLine ≤ s.lower.point.row ∧
        s.lower.point.gridClamp g.dimensions .grid = s.lower.point) ∨
      s.lower.point.row < g.topmostLine ∧
        s.lower.point.gridClamp g.dimensions .grid = ⟨g.topmostLine, 0⟩ := by
  by_cases htop : g.topmostLine ≤ s.lower.point.row
  · exact .inl ⟨htop, gridClamp_of_le hwithin.lower.2 htop hwithin.lower.1⟩
  · exact .inr ⟨not_le.mp htop, gridClamp_of_lt (not_le.mp htop)⟩

theorem covers_simple (hty : s.ty = .simple) (hwithin : s.Within g) (hanchored : s.Anchored g)
    (hedges : AtEdges s.lower s.upper g.columns → s.lower.point.row + 1 ≠ s.upper.point.row)
    (htop : g.topmostLine ≤ p.row) (hp : p.col < g.columns) :
    s.Covers g p ↔ Text s.lower s.upper p := by
  have hbetween : s.between g = if s.upper.point.row < g.topmostLine then none
      else if s.isEmpty then none
      else some (rangeSimple ⟨s.lower.point.gridClamp g.dimensions .grid, s.lower.side⟩ s.upper
        g.columns) := by
    unfold between toRange
    rw [hty]
  by_cases hgone : s.upper.point.row < g.topmostLine
  · rw [if_pos hgone] at hbetween
    exact iff_of_false (covers_of_none hbetween) (not_text_of_gone s.row_le hgone htop)
  rw [if_neg hgone] at hbetween
  by_cases hempty : s.isEmpty = true
  · rw [if_pos hempty] at hbetween
    refine iff_of_false (covers_of_none hbetween) ?_
    unfold Text
    obtain heq | ⟨ha, hb, hrow, hcol⟩ := (isEmpty_simple hty).mp hempty
    · rw [heq, if_pos rfl]
      exact fun h => h.2 rfl
    · have hne : s.lower.point ≠ s.upper.point := by
        intro heq
        rw [heq] at hcol
        omega
      rw [if_neg hne, gap_of_right ha, gap_of_left hb]
      omega
  rw [if_neg hempty] at hbetween
  rw [isEmpty_simple hty, not_or] at hempty
  rw [covers_of_some hbetween]
  obtain ⟨-, hclamp⟩ | ⟨hlost, hclamp⟩ := clamp_cases hwithin
  · rw [hclamp]
    exact contains_rangeSimple_of_le s.lower_le hwithin.lower.2 hempty.1 hempty.2 hedges hp
  · obtain hin | hout | ⟨-, hsides⟩ := hanchored
    · exact absurd hlost (not_lt.mpr hin)
    · exact absurd hout hgone
    · obtain ⟨hside, hedge⟩ := hsides hty
      have hne : (⟨⟨g.topmostLine, 0⟩, .left⟩ : Anchor) ≠ s.upper := by
        intro heq
        rw [← heq] at hedge
        exact hedge ⟨rfl, rfl⟩
      have hcontains : (rangeSimple ⟨⟨g.topmostLine, 0⟩, .left⟩ s.upper g.columns).contains p = true ↔
          Text ⟨⟨g.topmostLine, 0⟩, .left⟩ s.upper p :=
        contains_rangeSimple_of_le (le_of_top (not_lt.mp hgone)) (Nat.zero_lt_of_lt hp) hne
          (fun h => Side.noConfusion h.1) (fun h => Side.noConfusion h.1) hp
      rw [hclamp, hside, hcontains]
      exact text_of_lost hlost (not_lt.mp hgone) hedge htop

theorem covers_block (hty : s.ty = .block) (hwithin : s.Within g) (hanchored : s.Anchored g)
    (htop : g.topmostLine ≤ p.row) : s.Covers g p ↔ s.lower.point.row ≤ p.row ∧
      p.row ≤ s.upper.point.row ∧ Columns s.lower s.upper p.col := by
  have hbetween : s.between g = if s.upper.point.row < g.topmostLine then none
      else if s.isEmpty then none
      else some (rangeBlock ⟨s.lower.point.gridClamp g.dimensions .grid, s.lower.side⟩ s.upper) := by
    unfold between toRange
    rw [hty]
  by_cases hgone : s.upper.point.row < g.topmostLine
  · rw [if_pos hgone] at hbetween
    exact iff_of_false (covers_of_none hbetween) fun h => absurd (htop.trans h.2.1) (not_le.mpr hgone)
  rw [if_neg hgone] at hbetween
  by_cases hempty : s.isEmpty = true
  · rw [if_pos hempty] at hbetween
    exact iff_of_false (covers_of_none hbetween) fun h =>
      not_columns ((isEmpty_block hty).mp hempty) p.col h.2.2
  rw [if_neg hempty] at hbetween
  rw [isEmpty_block hty] at hempty
  rw [covers_of_some hbetween]
  have hin : g.topmostLine ≤ s.lower.point.row := by
    obtain hin | hout | ⟨hne, -⟩ := hanchored
    · exact hin
    · exact absurd hout hgone
    · exact absurd hty hne
  rw [gridClamp_of_le hwithin.lower.2 hin hwithin.lower.1]
  exact contains_rangeBlock hempty

theorem covers_semantic (hty : s.ty = .semantic) (hwithin : s.Within g)
    (htop : g.topmostLine ≤ p.row) :
    s.Covers g p ↔ Text ⟨s.lower.point, .left⟩ ⟨s.upper.point, .right⟩ p := by
  have hbetween : s.between g = if s.upper.point.row < g.topmostLine then none
      else some ⟨s.lower.point.gridClamp g.dimensions .grid, s.upper.point, false⟩ := by
    unfold between
    rw [hty]
  by_cases hgone : s.upper.point.row < g.topmostLine
  · rw [if_pos hgone] at hbetween
    exact iff_of_false (covers_of_none hbetween) (not_text_of_gone s.row_le hgone htop)
  rw [if_neg hgone] at hbetween
  rw [covers_of_some hbetween]
  obtain ⟨-, hclamp⟩ | ⟨hlost, hclamp⟩ := clamp_cases hwithin
  · rw [hclamp]
    exact contains_inclusive s.lower_le
  · rw [hclamp, contains_inclusive (le_of_top (not_lt.mp hgone))]
    exact text_of_lost hlost (not_lt.mp hgone) (fun h => Side.noConfusion h.1) htop

theorem covers_lines (hty : s.ty = .lines) (htop : g.topmostLine ≤ p.row)
    (hp : p.col < g.columns) : s.Covers g p ↔ Text ⟨⟨s.lower.point.row, 0⟩, .left⟩
      ⟨⟨s.upper.point.row, g.lastColumn⟩, .right⟩ p := by
  have hbetween : s.between g = if s.upper.point.row < g.topmostLine then none
      else some ⟨⟨max s.lower.point.row g.topmostLine, 0⟩, ⟨s.upper.point.row, g.lastColumn⟩,
        false⟩ := by
    unfold between
    rw [hty]
  have hrow := s.row_le
  by_cases hgone : s.upper.point.row < g.topmostLine
  · rw [if_pos hgone] at hbetween
    exact iff_of_false (covers_of_none hbetween) (not_text_of_gone hrow hgone htop)
  rw [if_neg hgone] at hbetween
  have hlast : p.col ≤ g.lastColumn := Nat.le_sub_one_of_lt hp
  have hle : (⟨s.lower.point.row, 0⟩ : Pos) = ⟨s.upper.point.row, g.lastColumn⟩ ∨
      (⟨s.lower.point.row, 0⟩ : Pos) < ⟨s.upper.point.row, g.lastColumn⟩ := by
    rw [Pos.mk.injEq, Pos.lt_iff]
    dsimp only
    omega
  rw [covers_of_some hbetween, ← contains_inclusive hle, SelectionRange.contains_text,
    SelectionRange.contains_text]
  dsimp only
  omega

/-- All text selections are alike. -/
theorem covers_text (hty : s.ty ≠ .block) (hwithin : s.Within g) (hanchored : s.Anchored g)
    (hedges : s.ty = .simple → AtEdges s.lower s.upper g.columns →
      s.lower.point.row + 1 ≠ s.upper.point.row)
    (htop : g.topmostLine ≤ p.row) (hp : p.col < g.columns) :
    s.Covers g p ↔ Text (lowerEnd s.ty s.lower) (upperEnd s.ty g s.upper) p := by
  unfold lowerEnd upperEnd
  cases h : s.ty with
  | simple => exact covers_simple h hwithin hanchored (hedges h) htop hp
  | block => exact absurd h hty
  | semantic => exact covers_semantic h hwithin htop
  | lines => exact covers_lines h htop hp

/-! ### Logical lines -/

theorem rowSearchLeft_le (g : Grid Square) :
    ∀ (fuel : ℕ) (row : ℤ), g.rowSearchLeft fuel row ≤ row
  | 0, _ => le_rfl
  | fuel + 1, row => by
    unfold Grid.rowSearchLeft
    split
    · exact (rowSearchLeft_le g fuel (row - 1)).trans (Int.sub_le_self row Int.one_nonneg)
    · exact le_rfl

theorem le_rowSearchRight (g : Grid Square) :
    ∀ (fuel : ℕ) (row : ℤ), row ≤ g.rowSearchRight fuel row
  | 0, _ => le_rfl
  | fuel + 1, row => by
    unfold Grid.rowSearchRight
    split
    · exact (Int.le_add_one le_rfl).trans (le_rowSearchRight g fuel (row + 1))
    · exact le_rfl

/-- A selection of lines takes in the whole logical lines around its anchors. -/
theorem covers_subset_lines (hty : s.ty = .lines) (hwithin : s.Within g) (hp : s.Covers g p) :
    ∃ range, s.toRange g = some range ∧ range.contains p = true := by
  have hbetween : s.between g = if s.upper.point.row < g.topmostLine then none
      else some ⟨⟨max s.lower.point.row g.topmostLine, 0⟩, ⟨s.upper.point.row, g.lastColumn⟩,
        false⟩ := by
    unfold between
    rw [hty]
  by_cases hgone : s.upper.point.row < g.topmostLine
  · rw [if_pos hgone] at hbetween
    exact absurd hp (covers_of_none hbetween)
  rw [if_neg hgone] at hbetween
  have hrange : s.toRange g = some (rangeLines g (s.lower.point.gridClamp g.dimensions .grid)
      s.upper.point) := by
    unfold toRange
    rw [if_neg hgone, hty]
  have hclamp : (s.lower.point.gridClamp g.dimensions .grid).row =
      max s.lower.point.row g.topmostLine := by
    obtain ⟨htop, hclamp⟩ | ⟨htop, hclamp⟩ := clamp_cases hwithin
    · rw [hclamp, max_eq_left htop]
    · rw [hclamp, max_eq_right htop.le]
  have hleft := rowSearchLeft_le g g.raw.len (max s.lower.point.row g.topmostLine)
  have hright := le_rowSearchRight g g.raw.len s.upper.point.row
  refine ⟨_, hrange, ?_⟩
  rw [covers_of_some hbetween, SelectionRange.contains_text] at hp
  unfold rangeLines
  rw [hclamp, SelectionRange.contains_text]
  dsimp only at hp ⊢
  omega

end Selection

end Rio
