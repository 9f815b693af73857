import Rio.Grid.Origin
import Rio.Selection.Cover

/-! A selection follows its text when lines are scrolled. -/

set_option linter.dupNamespace false

namespace Rio

namespace Selection

variable {a b : Anchor} {p : Pos}

/-- The text between two anchors; it is empty where the first one is beyond the second. -/
def Between (a b : Anchor) (p : Pos) : Prop :=
  (a.point.row < p.row ∨ a.point.row = p.row ∧ a.gap ≤ p.col) ∧
    (p.row < b.point.row ∨ p.row = b.point.row ∧ p.col < b.gap)

/-- The gap of the anchor is at the cell or before it. -/
def AtOrBefore (a : Anchor) (p : Pos) : Prop :=
  a.point.row < p.row ∨ a.point.row = p.row ∧ a.gap ≤ p.col

/-- The gap of the anchor is after the cell. -/
def Beyond (b : Anchor) (p : Pos) : Prop :=
  p.row < b.point.row ∨ p.row = b.point.row ∧ p.col < b.gap

theorem between_iff : Between a b p ↔ AtOrBefore a p ∧ Beyond b p := Iff.rfl

/-- Both anchors are in one cell, and the first one is on the right. -/
def Crossed (a b : Anchor) : Prop := a.point = b.point ∧ a.side = .right ∧ b.side = .left

theorem text_of_not_crossed (h : ¬ Crossed a b) : Text a b p ↔ Between a b p := by
  unfold Text Between
  by_cases hsame : a.point = b.point
  · rw [if_pos hsame]
    obtain ⟨hside, hgap⟩ | ⟨hside, hgap⟩ := gap_cases a
    · obtain ⟨hside', hgap'⟩ | ⟨hside', hgap'⟩ := gap_cases b
      · rw [hgap, hgap', ← hsame, hside, hside']
        refine iff_of_false (fun h => h.2 rfl) ?_
        omega
      · rw [hgap, hgap', ← hsame, hside, hside', and_iff_left (by decide)]
        obtain ⟨prow, pcol⟩ := p
        generalize a.point = q
        obtain ⟨qrow, qcol⟩ := q
        rw [Pos.mk.injEq]
        dsimp only
        omega
    · obtain ⟨hside', hgap'⟩ | ⟨hside', hgap'⟩ := gap_cases b
      · exact absurd ⟨hsame, hside, hside'⟩ h
      · rw [hgap, hgap', ← hsame, hside, hside']
        refine iff_of_false (fun h => h.2 rfl) ?_
        omega
  · rw [if_neg hsame]

theorem text_of_crossed (h : Crossed a b) : Text a b p ↔ p = a.point := by
  unfold Text
  rw [if_pos h.1, h.2.1, h.2.2]
  exact and_iff_left (by decide)

theorem text_comm (h : a.point = b.point) : Text a b p ↔ Text b a p := by
  unfold Text
  rw [if_pos h, if_pos h.symm, h, ne_comm]

/-! ### Anchors that move -/

/-- Where an anchor goes when lines are scrolled up; clamped to where a region starts. -/
structure LowerUp (r : Region) (n : ℕ) (a a' : Anchor) : Prop where
  fixed : ¬ inRange r a.point.row → a' = a
  moved : inRange r a.point.row → r.start ≤ a.point.row - n ∨ r.start = 0 →
    a'.point = ⟨a.point.row - n, a.point.col⟩ ∧ a'.side = a.side
  clamped : inRange r a.point.row → ¬ (r.start ≤ a.point.row - n ∨ r.start = 0) →
    a'.point.row = r.start ∧ a'.gap = 0

variable {a' b' : Anchor} {r : Region} {n : ℕ}

theorem LowerUp.cases (h : LowerUp r n a a') :
    ¬ inRange r a.point.row ∧ a'.point.row = a.point.row ∧ a'.gap = a.gap ∨
      inRange r a.point.row ∧ (r.start ≤ a.point.row - n ∨ r.start = 0) ∧
        a'.point.row = a.point.row - n ∧ a'.gap = a.gap ∨
      inRange r a.point.row ∧ ¬ (r.start ≤ a.point.row - n ∨ r.start = 0) ∧
        a'.point.row = r.start ∧ a'.gap = 0 := by
  by_cases hin : inRange r a.point.row
  · by_cases hstays : r.start ≤ a.point.row - n ∨ r.start = 0
    · obtain ⟨hpoint, hside⟩ := h.moved hin hstays
      refine .inr (.inl ⟨hin, hstays, ?_, ?_⟩)
      · rw [hpoint]
      · unfold Anchor.gap
        rw [hpoint, hside]
    · exact .inr (.inr ⟨hin, hstays, h.clamped hin hstays⟩)
  · rw [h.fixed hin]
    exact .inl ⟨hin, rfl, rfl⟩

/-- The upper anchor moves up with its line. -/
structure UpperUp (r : Region) (n : ℕ) (b b' : Anchor) : Prop where
  fixed : ¬ inRange r b.point.row → b' = b
  moved : inRange r b.point.row → b'.point = ⟨b.point.row - n, b.point.col⟩ ∧ b'.side = b.side

theorem UpperUp.cases (h : UpperUp r n b b') :
    ¬ inRange r b.point.row ∧ b'.point.row = b.point.row ∧ b'.gap = b.gap ∨
      inRange r b.point.row ∧ b'.point.row = b.point.row - n ∧ b'.gap = b.gap := by
  by_cases hin : inRange r b.point.row
  · obtain ⟨hpoint, hside⟩ := h.moved hin
    refine .inr ⟨hin, ?_, ?_⟩
    · rw [hpoint]
    · unfold Anchor.gap
      rw [hpoint, hside]
  · rw [h.fixed hin]
    exact .inl ⟨hin, rfl, rfl⟩

/-- What a line below the lower anchor comes from is below it too. -/
theorem LowerUp.atOrBefore (h : LowerUp r n a a') (hregion : 0 ≤ r.start)
    (hn : r.start = 0 → n ≤ r.stop) {l : ℤ} (hl : r.originUp n p.row = some l) :
    AtOrBefore a' p ↔ AtOrBefore a ⟨l, p.col⟩ := by
  have hclamp : r.clamp n = min n (r.stop - r.start).toNat := rfl
  have ha := h.cases
  unfold inRange at ha
  unfold Region.originUp at hl
  unfold AtOrBefore
  dsimp only
  split_ifs at hl with hfixed hmoved
  · obtain rfl := Option.some.inj hl
    obtain ⟨hout, hrow, hgap⟩ | ⟨hin, hstays, hrow, hgap⟩ | ⟨hin, hgone, hrow, hgap⟩ := ha
    · rw [hrow, hgap]
    · rw [hrow, hgap]
      omega
    · rw [hrow, hgap]
      omega
  · obtain rfl := Option.some.inj hl
    obtain ⟨hout, hrow, hgap⟩ | ⟨hin, hstays, hrow, hgap⟩ | ⟨hin, hgone, hrow, hgap⟩ := ha
    · rw [hrow, hgap]
      omega
    · have hwhole : r.clamp n = n := by omega
      rw [hrow, hgap, hwhole]
      clear hclamp hmoved
      omega
    · rw [hrow, hgap]
      omega

theorem LowerUp.atOrBefore_blank (h : LowerUp r n a a') (hl : r.originUp n p.row = none) :
    AtOrBefore a' p ↔ a.point.row < r.stop := by
  have hclamp : r.clamp n = min n (r.stop - r.start).toNat := rfl
  have ha := h.cases
  unfold inRange at ha
  unfold Region.originUp at hl
  unfold AtOrBefore
  split_ifs at hl with hfixed hmoved
  omega

/-- What a line above the upper anchor comes from is above it too. -/
theorem UpperUp.beyond (h : UpperUp r n b b') (hregion : 0 ≤ r.start)
    (hn : r.start = 0 → n ≤ r.stop)
    (hkept : p.row < r.start → r.start ≠ 0 → b.point.row < r.start ∨ r.stop ≤ b.point.row ∨
      r.start + n ≤ b.point.row) {l : ℤ} (hl : r.originUp n p.row = some l) :
    Beyond b' p ↔ Beyond b ⟨l, p.col⟩ := by
  have hclamp : r.clamp n = min n (r.stop - r.start).toNat := rfl
  have hb := h.cases
  unfold inRange at hb
  unfold Region.originUp at hl
  unfold Beyond
  dsimp only
  split_ifs at hl with hfixed hmoved
  · obtain rfl := Option.some.inj hl
    obtain ⟨hout, hrow, hgap⟩ | ⟨hin, hrow, hgap⟩ := hb
    · rw [hrow, hgap]
    · rw [hrow, hgap]
      omega
  · obtain rfl := Option.some.inj hl
    obtain ⟨hout, hrow, hgap⟩ | ⟨hin, hrow, hgap⟩ := hb
    · rw [hrow, hgap]
      omega
    · rw [hrow, hgap]
      omega

theorem UpperUp.beyond_blank (h : UpperUp r n b b') (hl : r.originUp n p.row = none) :
    Beyond b' p ↔ r.stop ≤ b.point.row := by
  have hclamp : r.clamp n = min n (r.stop - r.start).toNat := rfl
  have hb := h.cases
  unfold inRange at hb
  unfold Region.originUp at hl
  unfold Beyond
  split_ifs at hl with hfixed hmoved
  omega

/-- The text between two anchors moves up with them. Blank lines are in it where they come in
between the anchors. -/
theorem between_up (hregion : 0 ≤ r.start)
    (hn : r.start = 0 → n ≤ r.stop) (ha : LowerUp r n a a') (hb : UpperUp r n b b')
    (hkept : 0 < r.start → a.point.row < r.start → b.point.row < r.start ∨
      r.stop ≤ b.point.row ∨ r.start + n ≤ b.point.row) :
    Between a' b' p ↔ (∃ l, r.originUp n p.row = some l ∧ Between a b ⟨l, p.col⟩) ∨
      r.originUp n p.row = none ∧ a.point.row < r.stop ∧ r.stop ≤ b.point.row := by
  cases hl : r.originUp n p.row with
  | none =>
    simp only [reduceCtorEq, false_and, exists_false, false_or, true_and]
    exact and_congr (ha.atOrBefore_blank hl) (hb.beyond_blank hl)
  | some l =>
    simp only [Option.some.injEq, exists_eq_left', reduceCtorEq, false_and, or_false]
    rw [between_iff, between_iff, ha.atOrBefore hregion hn hl]
    refine and_congr_right fun hbelow => hb.beyond hregion hn (fun habove hzero => ?_) hl
    -- a line above the region stays, so the lower anchor is above the region too
    have hsame : l = p.row := by
      unfold Region.originUp at hl
      rw [if_pos (.inl ⟨habove, hzero⟩)] at hl
      exact (Option.some.inj hl).symm
    unfold AtOrBefore at hbelow
    dsimp only at hbelow
    exact hkept (by omega) (by omega)

/-- The lower anchor moves down with its line. -/
structure LowerDown (r : Region) (n : ℕ) (a a' : Anchor) : Prop where
  fixed : ¬ inRange r a.point.row → a' = a
  moved : inRange r a.point.row → a.point.row + n < r.stop ∧
    a'.point = ⟨a.point.row + n, a.point.col⟩ ∧ a'.side = a.side

theorem LowerDown.cases (h : LowerDown r n a a') :
    ¬ inRange r a.point.row ∧ a'.point.row = a.point.row ∧ a'.gap = a.gap ∨
      inRange r a.point.row ∧ a.point.row + n < r.stop ∧ a'.point.row = a.point.row + n ∧
        a'.gap = a.gap := by
  by_cases hin : inRange r a.point.row
  · obtain ⟨hstays, hpoint, hside⟩ := h.moved hin
    refine .inr ⟨hin, hstays, ?_, ?_⟩
    · rw [hpoint]
    · unfold Anchor.gap
      rw [hpoint, hside]
  · rw [h.fixed hin]
    exact .inl ⟨hin, rfl, rfl⟩

/-- Where an anchor goes when lines are scrolled down; clamped to where a region ends. -/
structure UpperDown (r : Region) (n columns : ℕ) (b b' : Anchor) : Prop where
  fixed : ¬ inRange r b.point.row → b' = b
  moved : inRange r b.point.row → b.point.row + n < r.stop →
    b'.point = ⟨b.point.row + n, b.point.col⟩ ∧ b'.side = b.side
  clamped : inRange r b.point.row → r.stop ≤ b.point.row + n →
    b'.point.row = r.stop - 1 ∧ columns ≤ b'.gap

theorem UpperDown.cases {columns : ℕ} (h : UpperDown r n columns b b') :
    ¬ inRange r b.point.row ∧ b'.point.row = b.point.row ∧ b'.gap = b.gap ∨
      inRange r b.point.row ∧ b.point.row + n < r.stop ∧ b'.point.row = b.point.row + n ∧
        b'.gap = b.gap ∨
      inRange r b.point.row ∧ r.stop ≤ b.point.row + n ∧ b'.point.row = r.stop - 1 ∧
        columns ≤ b'.gap := by
  by_cases hin : inRange r b.point.row
  · by_cases hstays : b.point.row + n < r.stop
    · obtain ⟨hpoint, hside⟩ := h.moved hin hstays
      refine .inr (.inl ⟨hin, hstays, ?_, ?_⟩)
      · rw [hpoint]
      · unfold Anchor.gap
        rw [hpoint, hside]
    · exact .inr (.inr ⟨hin, not_lt.mp hstays, h.clamped hin (not_lt.mp hstays)⟩)
  · rw [h.fixed hin]
    exact .inl ⟨hin, rfl, rfl⟩

theorem LowerDown.atOrBefore (h : LowerDown r n a a')
    (hhistory : r.start ≤ a.point.row ∨ r.start ≠ 0) {l : ℤ} (hl : r.originDown n p.row = some l) :
    AtOrBefore a' p ↔ AtOrBefore a ⟨l, p.col⟩ := by
  have hclamp : r.clamp n = min n (r.stop - r.start).toNat := rfl
  have ha := h.cases
  unfold inRange at ha
  unfold Region.originDown at hl
  unfold AtOrBefore
  dsimp only
  split_ifs at hl with hfixed hblank
  · obtain rfl := Option.some.inj hl
    obtain ⟨hout, hrow, hgap⟩ | ⟨hin, hstays, hrow, hgap⟩ := ha
    · rw [hrow, hgap]
    · rw [hrow, hgap]
      omega
  · obtain rfl := Option.some.inj hl
    obtain ⟨hout, hrow, hgap⟩ | ⟨hin, hstays, hrow, hgap⟩ := ha
    · rw [hrow, hgap]
      omega
    · have hwhole : r.clamp n = n := by omega
      rw [hrow, hgap, hwhole]
      clear hclamp hblank
      omega

theorem LowerDown.atOrBefore_blank (h : LowerDown r n a a')
    (hhistory : r.start ≤ a.point.row ∨ r.start ≠ 0) (hl : r.originDown n p.row = none) :
    AtOrBefore a' p ↔ a.point.row < r.start := by
  have hclamp : r.clamp n = min n (r.stop - r.start).toNat := rfl
  have ha := h.cases
  unfold inRange at ha
  unfold Region.originDown at hl
  unfold AtOrBefore
  split_ifs at hl with hfixed hblank
  omega

theorem UpperDown.beyond {columns : ℕ} (h : UpperDown r n columns b b')
    (hhistory : r.start ≤ b.point.row ∨ r.start ≠ 0) (hp : p.col < columns) {l : ℤ}
    (hl : r.originDown n p.row = some l) : Beyond b' p ↔ Beyond b ⟨l, p.col⟩ := by
  have hclamp : r.clamp n = min n (r.stop - r.start).toNat := rfl
  have hb := h.cases
  unfold inRange at hb
  unfold Region.originDown at hl
  unfold Beyond
  dsimp only
  split_ifs at hl with hfixed hblank
  · obtain rfl := Option.some.inj hl
    obtain ⟨hout, hrow, hgap⟩ | ⟨hin, hstays, hrow, hgap⟩ | ⟨hin, hgone, hrow, hgap⟩ := hb
    · rw [hrow, hgap]
    · rw [hrow, hgap]
      omega
    · rw [hrow]
      omega
  · obtain rfl := Option.some.inj hl
    obtain ⟨hout, hrow, hgap⟩ | ⟨hin, hstays, hrow, hgap⟩ | ⟨hin, hgone, hrow, hgap⟩ := hb
    · rw [hrow, hgap]
      omega
    · have hwhole : r.clamp n = n := by omega
      rw [hrow, hgap, hwhole]
      clear hclamp hblank
      omega
    · rw [hrow]
      omega

theorem UpperDown.beyond_blank {columns : ℕ} (h : UpperDown r n columns b b')
    (hhistory : r.start ≤ b.point.row ∨ r.start ≠ 0) (hp : p.col < columns)
    (hl : r.originDown n p.row = none) : Beyond b' p ↔ r.start ≤ b.point.row := by
  have hclamp : r.clamp n = min n (r.stop - r.start).toNat := rfl
  have hb := h.cases
  unfold inRange at hb
  unfold Region.originDown at hl
  unfold Beyond
  split_ifs at hl with hfixed hblank
  omega

/-- The text between two anchors moves down with them, and blank lines come in as above. -/
theorem between_down {columns : ℕ} (ha : LowerDown r n a a') (hb : UpperDown r n columns b b')
    (hle : a.point.row ≤ b.point.row) (hhistory : r.start ≤ a.point.row ∨ r.start ≠ 0)
    (hp : p.col < columns) :
    Between a' b' p ↔ (∃ l, r.originDown n p.row = some l ∧ Between a b ⟨l, p.col⟩) ∨
      r.originDown n p.row = none ∧ a.point.row < r.start ∧ r.start ≤ b.point.row := by
  have hhistory' : r.start ≤ b.point.row ∨ r.start ≠ 0 := hhistory.imp_left fun h => h.trans hle
  cases hl : r.originDown n p.row with
  | none =>
    simp only [reduceCtorEq, false_and, exists_false, false_or, true_and]
    exact and_congr (ha.atOrBefore_blank hhistory hl) (hb.beyond_blank hhistory' hp hl)
  | some l =>
    simp only [Option.some.injEq, exists_eq_left', reduceCtorEq, false_and, or_false]
    exact and_congr (ha.atOrBefore hhistory hl) (hb.beyond hhistory' hp hl)

/-- Nothing is left of a selection within the lines that are scrolled out at the top. -/
theorem origin_of_gone_up (hlt : r.start < r.stop) {line l : ℤ}
    (hin : inRange r l) (hgone : l - n < r.start) (hstart : r.start ≠ 0) :
    r.originUp n line ≠ some l := by
  have hclamp : r.clamp n = min n (r.stop - r.start).toNat := rfl
  unfold inRange at hin
  unfold Region.originUp
  split_ifs
  · rw [Ne, Option.some_inj]
    omega
  · rw [Ne, Option.some_inj]
    omega
  · exact nofun

theorem origin_of_gone_down (hlt : r.start < r.stop) {line l : ℤ}
    (hin : r.start ≤ l ∧ l < r.stop) (hgone : r.stop ≤ l + n) : r.originDown n line ≠ some l := by
  have hclamp : r.clamp n = min n (r.stop - r.start).toNat := rfl
  unfold Region.originDown
  split_ifs
  · rw [Ne, Option.some_inj]
    omega
  · exact nofun
  · rw [Ne, Option.some_inj]
    omega

/-! ### What rotating does to the anchors -/

variable {s : Selection} {g : Grid Square} {ty ty' : SelectionType}

theorem row_lowerEnd (ty : SelectionType) (a : Anchor) :
    (lowerEnd ty a).point.row = a.point.row := by
  cases ty <;> rfl

theorem row_upperEnd (ty : SelectionType) (g : Grid Square) (b : Anchor) :
    (upperEnd ty g b).point.row = b.point.row := by
  cases ty <;> rfl

/-- The start of a selection when lines are scrolled up. -/
structure StartUp (ty : SelectionType) (r : Region) (n : ℕ) (a a' : Anchor) : Prop where
  fixed : ¬ inRange r a.point.row → a' = a
  moved : inRange r a.point.row → r.start ≤ a.point.row - n ∨ r.start = 0 →
    a' = ⟨⟨a.point.row - n, a.point.col⟩, a.side⟩
  clamped : inRange r a.point.row → ¬ (r.start ≤ a.point.row - n ∨ r.start = 0) →
    a' = if ty = .block then ⟨⟨r.start, a.point.col⟩, a.side⟩ else ⟨⟨r.start, 0⟩, .left⟩

theorem StartUp.lowerUp (h : StartUp ty r n a a') (hty : ty ≠ .block ∨ ty' = .lines) :
    LowerUp r n (lowerEnd ty' a) (lowerEnd ty' a') := by
  refine ⟨fun hout => ?_, fun hin hstays => ?_, fun hin hgone => ?_⟩
  · rw [row_lowerEnd] at hout
    rw [h.fixed hout]
  · rw [row_lowerEnd] at hin hstays
    rw [h.moved hin hstays]
    cases ty' <;> exact ⟨rfl, rfl⟩
  · rw [row_lowerEnd] at hin hgone
    rw [h.clamped hin hgone, row_lowerEnd]
    by_cases hblock : ty = .block
    · rw [if_pos hblock, hty.resolve_left (not_not.mpr hblock)]
      exact ⟨rfl, rfl⟩
    · rw [if_neg hblock]
      cases ty' <;> exact ⟨rfl, rfl⟩

/-- The lines of the anchor before and after. -/
theorem StartUp.rows (h : StartUp ty r n a a') :
    ¬ inRange r a.point.row ∧ a'.point.row = a.point.row ∨
      inRange r a.point.row ∧ (r.start ≤ a.point.row - n ∨ r.start = 0) ∧
        a'.point.row = a.point.row - n ∨
      inRange r a.point.row ∧ ¬ (r.start ≤ a.point.row - n ∨ r.start = 0) ∧
        a'.point.row = r.start := by
  have hend : LowerUp r n (lowerEnd .lines a) (lowerEnd .lines a') := h.lowerUp (.inr rfl)
  obtain ⟨hout, hrow, -⟩ | ⟨hin, hstays, hrow, -⟩ | ⟨hin, hgone, hrow, -⟩ := hend.cases
  · exact .inl ⟨hout, hrow⟩
  · exact .inr (.inl ⟨hin, hstays, hrow⟩)
  · exact .inr (.inr ⟨hin, hgone, hrow⟩)

theorem UpperUp.end (h : UpperUp r n b b') (ty' : SelectionType) :
    UpperUp r n (upperEnd ty' g b) (upperEnd ty' g b') := by
  refine ⟨fun hout => ?_, fun hin => ?_⟩
  · rw [row_upperEnd] at hout
    rw [h.fixed hout]
  · rw [row_upperEnd] at hin
    obtain ⟨hpoint, hside⟩ := h.moved hin
    cases ty' <;> unfold upperEnd <;> dsimp only <;> rw [hpoint]
    · exact ⟨rfl, hside⟩
    · exact ⟨rfl, hside⟩
    · exact ⟨rfl, rfl⟩
    · exact ⟨rfl, rfl⟩

theorem bottommost_eq (g : Grid Square) : g.dimensions.bottommostLine = g.lines - 1 := rfl

theorem rotateStart_up (ha : a.point.row < g.lines) :
    ∃ a', rotateStart ty g.dimensions r n a b = some a' ∧ StartUp ty r n a a' := by
  have hmin : min (a.point.row - n) g.dimensions.bottommostLine = a.point.row - n :=
    min_eq_left (by rw [bottommost_eq]; omega)
  unfold rotateStart
  by_cases hin : inRange r a.point.row
  · rw [if_pos hin, hmin]
    dsimp only
    rw [if_neg fun h => absurd hin.2 (by omega)]
    by_cases hstays : r.start ≤ a.point.row - n ∨ r.start = 0
    · rw [if_neg (by omega)]
      exact ⟨_, rfl, fun h => absurd hin h, fun _ _ => rfl, fun _ h => absurd hstays h⟩
    · rw [if_pos (by omega)]
      exact ⟨_, rfl, fun h => absurd hin h, fun _ h => absurd h hstays, fun _ _ => rfl⟩
  · rw [if_neg hin]
    exact ⟨a, rfl, fun _ => rfl, fun h => absurd h hin, fun h => absurd h hin⟩

theorem rotateEnd_up (hb : b.point.row < g.lines) :
    (rotateEnd ty g.dimensions r n a' b = none ∧ inRange r b.point.row ∧
      b.point.row - n < a'.point.row) ∨
    ∃ b', rotateEnd ty g.dimensions r n a' b = some b' ∧ UpperUp r n b b' ∧
      (inRange r b.point.row → a'.point.row ≤ b'.point.row) := by
  have hmin : min (b.point.row - n) g.dimensions.bottommostLine = b.point.row - n :=
    min_eq_left (by rw [bottommost_eq]; omega)
  unfold rotateEnd
  by_cases hin : inRange r b.point.row
  · rw [if_pos hin, hmin]
    dsimp only
    by_cases hgone : b.point.row - n < a'.point.row
    · rw [if_pos hgone]
      exact .inl ⟨rfl, hin, hgone⟩
    · rw [if_neg hgone, if_neg (by have := hin.2; omega)]
      exact .inr ⟨_, rfl, ⟨fun h => absurd hin h, fun _ => ⟨rfl, rfl⟩⟩, fun _ => not_lt.mp hgone⟩
  · rw [if_neg hin]
    exact .inr ⟨b, rfl, ⟨fun _ => rfl, fun h => absurd h hin⟩, fun h => absurd h hin⟩

/-- The end of a selection when lines are scrolled down. -/
structure EndDown (ty : SelectionType) (g : Grid Square) (r : Region) (n : ℕ) (b b' : Anchor) :
    Prop where
  fixed : ¬ inRange r b.point.row → b' = b
  moved : inRange r b.point.row → b.point.row + n < r.stop →
    b' = ⟨⟨b.point.row + n, b.point.col⟩, b.side⟩
  clamped : inRange r b.point.row → r.stop ≤ b.point.row + n →
    b'.point.row = r.stop - 1 ∧ (b'.point.col = b.point.col ∨ b'.point.col = g.lastColumn) ∧
      (ty = .block → b'.point.col = b.point.col ∧ b'.side = b.side) ∧
      (ty = .simple ∨ ty = .semantic → b' = ⟨⟨r.stop - 1, g.lastColumn⟩, .right⟩)

theorem LowerDown.end (h : LowerDown r n a a') (ty' : SelectionType) :
    LowerDown r n (lowerEnd ty' a) (lowerEnd ty' a') := by
  refine ⟨fun hout => ?_, fun hin => ?_⟩
  · rw [row_lowerEnd] at hout
    rw [h.fixed hout]
  · rw [row_lowerEnd] at hin
    obtain ⟨hstays, hpoint, hside⟩ := h.moved hin
    refine ⟨(row_lowerEnd ty' a).symm ▸ hstays, ?_⟩
    cases ty' <;> unfold lowerEnd <;> dsimp only <;> rw [hpoint]
    · exact ⟨rfl, hside⟩
    · exact ⟨rfl, hside⟩
    · exact ⟨rfl, rfl⟩
    · exact ⟨rfl, rfl⟩

theorem EndDown.upperDown (h : EndDown ty g r n b b') (hcolumns : 0 < g.columns)
    (hty : (ty = .simple ∨ ty = .semantic) ∧ (ty' = ty ∨ ty' = .semantic) ∨ ty' = .lines) :
    UpperDown r n g.columns (upperEnd ty' g b) (upperEnd ty' g b') := by
  have hlast : g.columns ≤ g.lastColumn + 1 := by
    unfold Grid.lastColumn Dimensions.lastColumn Grid.dimensions
    dsimp only
    omega
  refine ⟨fun hout => ?_, fun hin hstays => ?_, fun hin hgone => ?_⟩
  · rw [row_upperEnd] at hout
    rw [h.fixed hout]
  · rw [row_upperEnd] at hin hstays
    rw [h.moved hin hstays]
    cases ty' <;> exact ⟨rfl, rfl⟩
  · rw [row_upperEnd] at hin hgone
    obtain ⟨hrow, -, -, htext⟩ := h.clamped hin hgone
    refine ⟨(row_upperEnd ty' g b').trans hrow, ?_⟩
    obtain ⟨hty, -⟩ | rfl := hty
    · rw [htext hty]
      cases ty' <;> exact hlast
    · exact hlast

/-- The lines of the anchor before and after. -/
theorem EndDown.rows (h : EndDown ty g r n b b') :
    ¬ inRange r b.point.row ∧ b'.point.row = b.point.row ∨
      inRange r b.point.row ∧ b.point.row + n < r.stop ∧ b'.point.row = b.point.row + n ∨
      inRange r b.point.row ∧ r.stop ≤ b.point.row + n ∧ b'.point.row = r.stop - 1 := by
  by_cases hin : inRange r b.point.row
  · by_cases hstays : b.point.row + n < r.stop
    · refine .inr (.inl ⟨hin, hstays, ?_⟩)
      rw [h.moved hin hstays]
    · exact .inr (.inr ⟨hin, not_lt.mp hstays, (h.clamped hin (not_lt.mp hstays)).1⟩)
  · rw [h.fixed hin]
    exact .inl ⟨hin, rfl⟩

theorem rotateStart_down (hstop : r.stop ≤ g.lines)
    (hkept : inRange r a.point.row → a.point.row + n < r.stop ∨
      b.point.row < r.stop ∧ r.stop < g.lines) :
    (rotateStart ty g.dimensions r (-n) a b = none ∧ inRange r a.point.row ∧
      r.stop ≤ a.point.row + n ∧ b.point.row < r.stop) ∨
    ∃ a', rotateStart ty g.dimensions r (-n) a b = some a' ∧ LowerDown r n a a' := by
  unfold rotateStart
  by_cases hin : inRange r a.point.row
  · rw [if_pos hin, sub_neg_eq_add, bottommost_eq]
    dsimp only
    by_cases hstays : a.point.row + n < r.stop
    · have hmin : min (a.point.row + n) ((g.lines : ℤ) - 1) = a.point.row + n :=
        min_eq_left (by omega)
      have hinside := hin.1
      rw [hmin, if_neg (by omega), if_neg (by omega)]
      exact .inr ⟨_, rfl, fun h => absurd hin h, fun _ => ⟨hstays, rfl, rfl⟩⟩
    · obtain hmoved | ⟨hb, hlines⟩ := hkept hin
      · exact absurd hmoved hstays
      · rw [if_pos ⟨le_min (not_lt.mp hstays) (by omega), hb⟩]
        exact .inl ⟨rfl, hin, not_lt.mp hstays, hb⟩
  · rw [if_neg hin]
    exact .inr ⟨a, rfl, fun _ => rfl, fun h => absurd h hin⟩

theorem rotateEnd_down (hstop : r.stop ≤ g.lines)
    (hle : a.point.row ≤ b.point.row) (ha : a.point.row < g.lines) (hmove : LowerDown r n a a')
    (hkept : inRange r b.point.row → b.point.row + n < r.stop ∨ r.stop < g.lines ∨
      ty = .block ∨ ty = .lines) :
    ∃ b', rotateEnd ty g.dimensions r (-n) a' b = some b' ∧ EndDown ty g r n b b' := by
  have hcases := hmove.cases
  unfold rotateEnd
  by_cases hin : inRange r b.point.row
  · rw [if_pos hin, sub_neg_eq_add, bottommost_eq]
    dsimp only
    rw [if_neg (by rw [not_lt, le_min_iff]; omega)]
    by_cases hstays : b.point.row + n < r.stop
    · have hmin : min (b.point.row + n) ((g.lines : ℤ) - 1) = b.point.row + n :=
        min_eq_left (by omega)
      rw [hmin, if_neg (not_le.mpr hstays)]
      exact ⟨_, rfl, fun h => absurd hin h, fun _ _ => rfl, fun _ h => absurd hstays (not_lt.mpr h)⟩
    · by_cases hlines : r.stop < g.lines
      · rw [if_pos (le_min (not_lt.mp hstays) (by omega))]
        refine ⟨_, rfl, fun h => absurd hin h, fun _ h => absurd h hstays, fun _ _ => ?_⟩
        by_cases hblock : ty = .block
        · rw [if_pos hblock]
          refine ⟨rfl, .inl rfl, fun _ => ⟨rfl, rfl⟩, fun h => ?_⟩
          rw [hblock] at h
          exact absurd h (by decide)
        · rw [if_neg hblock]
          exact ⟨rfl, .inr rfl, fun h => absurd h hblock, fun _ => rfl⟩
      · have hmin : min (b.point.row + n) ((g.lines : ℤ) - 1) = r.stop - 1 := by
          rw [min_eq_right (by omega)]
          omega
        rw [hmin, if_neg (by omega)]
        refine ⟨_, rfl, fun h => absurd hin h, fun _ h => absurd h hstays, fun _ _ => ?_⟩
        refine ⟨rfl, .inl rfl, fun _ => ⟨rfl, rfl⟩, fun h => ?_⟩
        obtain hmoved | hmoved | hty | hty := hkept hin
        · exact absurd hmoved hstays
        · exact absurd hmoved hlines
        · rw [hty] at h
          exact absurd h (by decide)
        · rw [hty] at h
          exact absurd h (by decide)
  · rw [if_neg hin]
    exact ⟨b, rfl, fun _ => rfl, fun h => absurd h hin, fun h => absurd h hin⟩

end Selection

end Rio
