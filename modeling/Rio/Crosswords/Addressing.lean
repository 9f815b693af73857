import Rio.Crosswords.Bounds

/-! Cursor addresses. With origin mode, `goto` counts lines from the top margin, and so does
everything that is implemented through it. -/

set_option linter.dupNamespace false

namespace Rio.Crosswords
open Rio.Runs

/-- The position that is reported: line and column, both counted from one. -/
def positionReport (t : Crosswords) : ℤ × ℕ := (t.pos.row + 1, t.pos.col + 1)

/-- What is written back for a device status query. -/
def deviceStatus (t : Crosswords) (arg : ℕ) : Option String :=
  match arg with
  | 5 => some "\x1b[0n"
  | 6 =>
    let (row, col) := t.positionReport
    some ("\x1b[" ++ toString row ++ ";" ++ toString col ++ "R")
  | _ => none

/-- Go to a line and a column counted from one. -/
def cursorPosition (t : Crosswords) (y : ℤ) (x : ℕ) : Crosswords := t.goto (y - 1) (x - 1)

/-- What the cursor can be asked to do. -/
inductive Request
  | goto (line : ℤ) (col : ℕ)
  | gotoLine (line : ℤ)
  | gotoCol (col : ℕ)
  | carriageReturn
  | moveUp (rows : ℕ)
  | moveDown (rows : ℕ)
  | moveUpAndCr (lines : ℕ)
  | moveDownAndCr (rows : ℕ)
  /-- Go to the position that was reported. -/
  | positionReport
  deriving DecidableEq, Repr

def request (t : Crosswords) : Request → Crosswords
  | .goto line col => t.goto line col
  | .gotoLine line => t.gotoLine line
  | .gotoCol col => t.gotoCol col
  | .carriageReturn => t.carriageReturn
  | .moveUp rows => t.moveUp rows
  | .moveDown rows => t.moveDown rows
  | .moveUpAndCr lines => t.moveUpAndCr lines
  | .moveDownAndCr rows => t.moveDownAndCr rows
  | .positionReport => t.cursorPosition t.positionReport.1 t.positionReport.2

/-- A line counted from the top margin or from the top of the screen, within the margins or the
screen. -/
def addressedLine (t : Crosswords) (line : ℤ) : ℤ :=
  if t.mode.origin then
    max t.scrollRegion.start (min (t.scrollRegion.stop - 1) (t.scrollRegion.start + line))
  else max 0 (min t.grid.bottommostLine line)

/-- Where a request should leave the cursor. -/
def PlacedAsAsked (t : Crosswords) : Request → Pos → Prop
  | .goto line col, p => p = ⟨t.addressedLine line, min col t.grid.lastColumn⟩
  | .gotoLine _, p => p.col = t.pos.col
  | .gotoCol _, p | .carriageReturn, p => p.row = t.pos.row
  | .moveUp rows, p | .moveUpAndCr rows, p =>
    t.pos.row - rows ≤ p.row ∧ p.row ≤ t.pos.row ∧ 0 ≤ p.row ∧ p.row < t.grid.lines
  | .moveDown rows, p | .moveDownAndCr rows, p =>
    t.pos.row ≤ p.row ∧ p.row ≤ t.pos.row + rows ∧ 0 ≤ p.row ∧ p.row < t.grid.lines
  | .positionReport, p => p = t.pos

/-- Origin mode is off, or counting from the top margin makes no difference. -/
def Unshifted (t : Crosswords) : Request → Prop
  | .goto line _ => t.mode.origin = true → t.scrollRegion.start = 0 ∨
      0 ≤ line ∧ 0 ≤ t.scrollRegion.start + line ∧ t.scrollRegion.start < t.scrollRegion.stop ∧
        0 < t.scrollRegion.stop
  | .gotoLine _ | .carriageReturn => True
  | .gotoCol _ | .positionReport => t.mode.origin = true →
      (t.scrollRegion.start ≤ 0 ∨ t.scrollRegion.stop ≤ t.pos.row + 1) ∧
        (t.pos.row = 0 ∨ 0 ≤ t.scrollRegion.start ∧ t.pos.row < t.scrollRegion.stop)
  | .moveUp rows | .moveUpAndCr rows => t.mode.origin = true →
      (t.scrollRegion.start ≤ rows ∨ t.scrollRegion.stop ≤ t.pos.row + 1) ∧
        (t.pos.row ≤ rows ∨ 0 ≤ t.scrollRegion.start ∧ t.pos.row - rows < t.scrollRegion.stop)
  | .moveDown rows | .moveDownAndCr rows => t.mode.origin = true →
      (t.scrollRegion.start ≤ 0 ∨ t.scrollRegion.stop ≤ t.pos.row + rows + 1) ∧
        (t.pos.row = 0 ∨ 0 ≤ rows + t.scrollRegion.start ∧ t.pos.row < t.scrollRegion.stop)

variable {t : Crosswords} {D : Prop}

/-! ### Where `goto` goes -/

/-- The line that `goto` goes to. -/
def gotoRow (t : Crosswords) (line : ℤ) : ℤ :=
  max (min (line + if t.mode.origin then t.scrollRegion.start else 0)
    (if t.mode.origin then t.scrollRegion.stop - 1 else t.grid.bottommostLine)) 0

theorem pos_goto (t : Crosswords) (line : ℤ) (col : ℕ) :
    (t.goto line col).pos = ⟨t.gotoRow line, min col t.grid.lastColumn⟩ := by
  unfold goto gotoRow
  cases t.mode.origin <;> rfl

theorem gotoRow_screen (horigin : t.mode.origin = false) (line : ℤ) :
    t.gotoRow line = max (min line (t.grid.lines - 1)) 0 := by
  unfold gotoRow
  rw [horigin, if_neg Bool.false_ne_true, if_neg Bool.false_ne_true, add_zero]
  rfl

theorem gotoRow_margins (horigin : t.mode.origin = true) (line : ℤ) :
    t.gotoRow line = max (min (line + t.scrollRegion.start) (t.scrollRegion.stop - 1)) 0 := by
  unfold gotoRow
  rw [if_pos horigin, if_pos horigin]

theorem gotoRow_eq_addressedLine_iff (line : ℤ) :
    t.gotoRow line = t.addressedLine line ↔ (t.mode.origin = true → t.scrollRegion.start = 0 ∨
      0 ≤ line ∧ 0 ≤ t.scrollRegion.start + line ∧ t.scrollRegion.start < t.scrollRegion.stop ∧
        0 < t.scrollRegion.stop) := by
  unfold addressedLine
  cases horigin : t.mode.origin with
  | false =>
    rw [gotoRow_screen horigin]
    simp only [Bool.false_eq_true, if_false, false_implies, iff_true]
    show max (min line ((t.grid.lines : ℤ) - 1)) 0 = max 0 (min ((t.grid.lines : ℤ) - 1) line)
    rw [max_comm, min_comm]
  | true =>
    rw [gotoRow_margins horigin]
    simp only [if_true, true_implies]
    omega

/-- A line that is `up` above and `down` below the cursor is left between them. -/
theorem gotoRow_between_iff (h : t.Sound D) (line : ℤ) (up down : ℕ)
    (hup : t.pos.row - up ≤ line) (hdown : line ≤ t.pos.row + down) :
    (t.pos.row - up ≤ t.gotoRow line ∧ t.gotoRow line ≤ t.pos.row + down) ↔
      (t.mode.origin = true →
        (line + t.scrollRegion.start ≤ t.pos.row + down ∨
          t.scrollRegion.stop ≤ t.pos.row + down + 1) ∧
        (t.pos.row ≤ up ∨ t.pos.row - up ≤ line + t.scrollRegion.start ∧
          t.pos.row - up < t.scrollRegion.stop)) := by
  obtain ⟨hrow0, hrow1, -⟩ := h.grid.cursor
  change 0 ≤ t.pos.row at hrow0
  change t.pos.row < t.grid.lines at hrow1
  cases horigin : t.mode.origin with
  | false =>
    rw [gotoRow_screen horigin]
    simp only [Bool.false_eq_true, false_implies, iff_true]
    omega
  | true =>
    rw [gotoRow_margins horigin]
    simp only [true_implies]
    omega

theorem gotoRow_onScreen (h : t.Sound D) (line : ℤ) :
    0 ≤ t.gotoRow line ∧ t.gotoRow line < t.grid.lines := by
  obtain ⟨hrow0, hrow1, -⟩ := (h.goto line 0).grid.cursor
  have hpos : (t.goto line 0).grid.cursor.pos = _ := pos_goto t line 0
  rw [hpos] at hrow0 hrow1
  exact ⟨hrow0, hrow1⟩

/-! ### Requests -/

theorem gotoRow_moveUp_iff (h : t.Sound D) (rows : ℕ) :
    (t.pos.row - rows ≤ t.gotoRow (t.pos.row - rows) ∧
        t.gotoRow (t.pos.row - rows) ≤ t.pos.row) ↔ t.Unshifted (.moveUp rows) := by
  have hbetween := gotoRow_between_iff h (t.pos.row - rows) rows 0 le_rfl (by omega)
  unfold Unshifted
  rw [Nat.cast_zero, add_zero] at hbetween
  rw [hbetween]
  refine imp_congr_right fun _ => ?_
  omega

theorem gotoRow_moveDown_iff (h : t.Sound D) (rows : ℕ) :
    (t.pos.row ≤ t.gotoRow (t.pos.row + rows) ∧
        t.gotoRow (t.pos.row + rows) ≤ t.pos.row + rows) ↔ t.Unshifted (.moveDown rows) := by
  obtain ⟨hrow0, -, -⟩ := h.grid.cursor
  change 0 ≤ t.pos.row at hrow0
  have hbetween := gotoRow_between_iff h (t.pos.row + rows) 0 rows (by omega) le_rfl
  unfold Unshifted
  rw [Nat.cast_zero, sub_zero] at hbetween
  rw [hbetween]
  refine imp_congr_right fun _ => ?_
  omega

/-- The row of the cursor is sent to itself. -/
theorem gotoRow_stay_iff (h : t.Sound D) (col : ℕ) :
    t.gotoRow t.pos.row = t.pos.row ↔ t.Unshifted (.gotoCol col) := by
  obtain ⟨hrow0, -, -⟩ := h.grid.cursor
  change 0 ≤ t.pos.row at hrow0
  have hmove := gotoRow_moveUp_iff h 0
  rw [Nat.cast_zero, sub_zero, and_comm, ← le_antisymm_iff] at hmove
  rw [hmove]
  unfold Unshifted
  refine imp_congr_right fun _ => ?_
  omega

/-- A request is met exactly where the top margin makes no difference. -/
theorem placed_iff (h : t.Sound D) (r : Request) :
    t.PlacedAsAsked r (t.request r).pos ↔ t.Unshifted r := by
  have hcol : min t.pos.col t.grid.lastColumn = t.pos.col := by
    have hcursor : t.pos.col < t.grid.columns := h.grid.cursor.2.2
    refine min_eq_left ?_
    show t.pos.col ≤ t.grid.columns - 1
    omega
  have hscreen := gotoRow_onScreen h
  cases r with
  | goto line col =>
    show (t.goto line col).pos = _ ↔ _
    rw [pos_goto, Pos.mk.injEq, and_iff_left rfl]
    exact gotoRow_eq_addressedLine_iff line
  | gotoLine line =>
    refine iff_of_true ?_ trivial
    show (t.goto line t.pos.col).pos.col = t.pos.col
    rw [pos_goto]
    exact hcol
  | gotoCol col =>
    show (t.goto t.pos.row col).pos.row = t.pos.row ↔ _
    rw [pos_goto]
    exact gotoRow_stay_iff h col
  | carriageReturn => exact iff_of_true rfl trivial
  | moveUp rows =>
    show (_ ≤ (t.goto _ _).pos.row ∧ (t.goto _ _).pos.row ≤ _ ∧ 0 ≤ (t.goto _ _).pos.row ∧
      (t.goto _ _).pos.row < _) ↔ _
    rw [pos_goto, ← gotoRow_moveUp_iff h]
    have := hscreen (t.pos.row - rows)
    tauto
  | moveUpAndCr rows =>
    show (_ ≤ (t.goto _ _).pos.row ∧ (t.goto _ _).pos.row ≤ _ ∧ 0 ≤ (t.goto _ _).pos.row ∧
      (t.goto _ _).pos.row < _) ↔ t.Unshifted (.moveUp rows)
    rw [pos_goto, ← gotoRow_moveUp_iff h]
    have := hscreen (t.pos.row - rows)
    tauto
  | moveDown rows =>
    show (_ ≤ (t.goto _ _).pos.row ∧ (t.goto _ _).pos.row ≤ _ ∧ 0 ≤ (t.goto _ _).pos.row ∧
      (t.goto _ _).pos.row < _) ↔ _
    rw [pos_goto, ← gotoRow_moveDown_iff h]
    have := hscreen (t.pos.row + rows)
    tauto
  | moveDownAndCr rows =>
    show (_ ≤ (t.goto _ _).pos.row ∧ (t.goto _ _).pos.row ≤ _ ∧ 0 ≤ (t.goto _ _).pos.row ∧
      (t.goto _ _).pos.row < _) ↔ t.Unshifted (.moveDown rows)
    rw [pos_goto, ← gotoRow_moveDown_iff h]
    have := hscreen (t.pos.row + rows)
    tauto
  | positionReport =>
    show (t.goto (t.pos.row + 1 - 1) (t.pos.col + 1 - 1)).pos = t.pos ↔
      t.Unshifted (.gotoCol t.pos.col)
    rw [pos_goto, add_sub_cancel_right, Nat.add_sub_cancel, hcol, ← gotoRow_stay_iff h]
    show (⟨_, t.pos.col⟩ : Pos) = ⟨t.pos.row, t.pos.col⟩ ↔ _
    rw [Pos.mk.injEq, and_iff_left rfl]

/-- In every state, a request is met exactly where the top margin makes no difference. -/
theorem run_placed_iff (u : Unicode) {columns lines : ℕ} (hcolumns : 2 ≤ columns)
    (hlines : 1 ≤ lines) (limit : ℕ) {ops : List Op} (hsized : ∀ op ∈ ops, op.Sized)
    (r : Request) :
    ((new columns lines limit).run u ops).PlacedAsAsked r
        (((new columns lines limit).run u ops).request r).pos ↔
      ((new columns lines limit).run u ops).Unshifted r := by
  exact placed_iff (run_sound u hcolumns hlines limit hsized) r

theorem run_placed_iff_below :
    ((new 4 6 10).run .basic [.setScrollingRegion 3 (some 5), .goto 3 1]).PlacedAsAsked (.gotoCol 2)
        (((new 4 6 10).run .basic [.setScrollingRegion 3 (some 5), .goto 3 1]).request
          (.gotoCol 2)).pos ↔
      ((new 4 6 10).run .basic [.setScrollingRegion 3 (some 5), .goto 3 1]).Unshifted
        (.gotoCol 2) :=
  run_placed_iff .basic (by decide) (by decide) 10 (by simp [Op.Sized]) (.gotoCol 2)

/-- With the top margin at the third line, going to a column goes down by two lines. -/
theorem gotoCol_moves_down :
    ¬ ∀ (ops : List Op) (r : Request), (∀ op ∈ ops, op.Sized) →
        ((new 4 6 10).run .basic ops).PlacedAsAsked r
          (((new 4 6 10).run .basic ops).request r).pos := by
  intro h
  have hcol := h [.setScrollingRegion 3 (some 6), .setPrivateMode (.named .origin), .goto 0 1]
    (.gotoCol 0) (by simp [Op.Sized])
  exact absurd (show _ = _ from hcol) (by decide)

end Rio.Crosswords
