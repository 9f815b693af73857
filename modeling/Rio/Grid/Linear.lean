import Rio.Grid.Pos
import Rio.Lib.Checked

/-! Positions as the numbers of cells, counted from the first line of the history: adding to a
position and subtracting from it is arithmetic on these numbers. -/

set_option linter.dupNamespace false

namespace Rio
open Checked

namespace Dimensions

/-- A grid has lines and columns. -/
structure Nonempty (d : Dimensions) : Prop where
  columns : 1 ≤ d.columns
  lines : 1 ≤ d.screenLines
  total : d.screenLines ≤ d.totalLines

/-- The number of cells, those of the history included. -/
def cells (d : Dimensions) : ℤ := (d.totalLines : ℤ) * d.columns

/-- The number of the first cell of the viewport. -/
def viewport (d : Dimensions) : ℤ := (d.historySize : ℤ) * d.columns

end Dimensions

namespace Pos

variable {d : Dimensions} {p : Pos} {boundary : Boundary} {n : ℕ} {i : ℤ}

def InGrid (d : Dimensions) (p : Pos) : Prop :=
  d.topmostLine ≤ p.row ∧ p.row ≤ d.bottommostLine ∧ p.col < d.columns

instance (d : Dimensions) (p : Pos) : Decidable (InGrid d p) :=
  inferInstanceAs (Decidable (_ ∧ _ ∧ _))

/-- The number of a cell. -/
def index (d : Dimensions) (p : Pos) : ℤ := (p.row - d.topmostLine) * d.columns + p.col

/-- The cell with a number, also before the first and behind the last one of the grid. -/
def ofIndex (d : Dimensions) (i : ℤ) : Pos := ⟨d.topmostLine + i / d.columns, (i % d.columns).toNat⟩

/-- A number of a cell in the grid that stands for any number: saturated, or modulo all cells. -/
def bounded (d : Dimensions) (i : ℤ) : Boundary → ℤ
  | .cursor => max d.viewport (min (d.cells - 1) i)
  | .grid => max 0 (min (d.cells - 1) i)
  | .none => i % d.cells

theorem ofIndex_index (hcol : p.col < d.columns) : ofIndex d (index d p) = p := by
  have hcolumns : (0 : ℤ) < d.columns := by omega
  have hrow : index d p / d.columns = p.row - d.topmostLine := by
    unfold index
    rw [Int.add_comm, Int.add_mul_ediv_right _ _ hcolumns.ne', Int.ediv_eq_zero_of_lt (by omega)
      (by omega), zero_add]
  have hrest : index d p % d.columns = p.col := by
    unfold index
    rw [Int.add_comm, Int.add_mul_emod_self_right, Int.emod_eq_of_lt (by omega) (by omega)]
  unfold ofIndex
  rw [hrow, hrest, Int.toNat_natCast, add_sub_cancel]

theorem index_ofIndex (h : d.Nonempty) (i : ℤ) : index d (ofIndex d i) = i := by
  have hcolumns : (0 : ℤ) < d.columns := by have := h.columns; omega
  have hrest := Int.emod_nonneg i hcolumns.ne'
  have hdiv := Int.mul_ediv_add_emod i d.columns
  unfold index ofIndex
  dsimp only
  rw [Int.toNat_of_nonneg hrest, add_sub_cancel_left, mul_comm]
  exact hdiv

theorem ofIndex_inGrid (h : d.Nonempty) (hlow : 0 ≤ i) (hhigh : i < d.cells) :
    InGrid d (ofIndex d i) := by
  have hcolumns : (0 : ℤ) < d.columns := by have := h.columns; omega
  have htotal := h.total
  have hrow : i / d.columns < d.totalLines := Int.ediv_lt_of_lt_mul hcolumns hhigh
  have hpos : 0 ≤ i / d.columns := Int.ediv_nonneg hlow hcolumns.le
  have hrest := Int.emod_lt_of_pos i hcolumns
  have hrest' := Int.emod_nonneg i hcolumns.ne'
  unfold InGrid ofIndex Dimensions.topmostLine Dimensions.bottommostLine Dimensions.historySize
  dsimp only
  omega

/-- The row and the column of a number modulo all cells. -/
theorem emod_mul_ediv {m c : ℤ} (hm : 0 < m) (hc : 0 < c) (i : ℤ) :
    i % (c * m) / m = i / m % c := by
  have hcm : 0 < c * m := mul_pos hc hm
  have hlow := Int.emod_nonneg i hcm.ne'
  have hrow : i % (c * m) / m < c := Int.ediv_lt_of_lt_mul hm (Int.emod_lt_of_pos i hcm)
  have hdiv : i / m = i % (c * m) / m + c * (i / (c * m)) := by
    have hsplit : i % (c * m) + c * (i / (c * m)) * m = i := by
      have := Int.emod_add_mul_ediv i (c * m)
      linarith
    conv_lhs => rw [← hsplit]
    rw [Int.add_mul_ediv_right _ _ hm.ne']
  rw [hdiv, Int.add_mul_emod_self_left, Int.emod_eq_of_lt (Int.ediv_nonneg hlow hm.le) hrow]

theorem gridClampLine_none (h : d.Nonempty) (q : ℤ) :
    gridClampLine (d.topmostLine + q) d .none = d.topmostLine + q % d.totalLines := by
  have hlines := h.lines
  have htotal := h.total
  have htop : d.topmostLine = d.screenLines - d.totalLines := by
    unfold Dimensions.topmostLine Dimensions.historySize
    omega
  have hpos : (0 : ℤ) < d.totalLines := by omega
  unfold gridClampLine
  dsimp only
  by_cases hbelow : (d.screenLines : ℤ) ≤ d.topmostLine + q
  · rw [if_pos hbelow, Int.tmod_eq_emod_of_nonneg (by omega)]
    have hq : d.topmostLine + q - d.screenLines = q + d.totalLines * (-1) := by omega
    rw [hq, Int.add_mul_emod_self_left]
  · rw [if_neg hbelow]
    -- The remainder of a negative number is that of its opposite.
    have hq : d.topmostLine + q - d.screenLines + 1 = -(d.totalLines - 1 - q) := by omega
    rw [hq, Int.neg_tmod, Int.tmod_eq_emod_of_nonneg (by omega)]
    have hsum : (d.totalLines - 1 - q) % (d.totalLines : ℤ) =
        d.totalLines - 1 - q % d.totalLines := by
      have hdiv := Int.emod_add_mul_ediv q d.totalLines
      have hlow := Int.emod_nonneg q hpos.ne'
      have hhigh := Int.emod_lt_of_pos q hpos
      have hsplit : (d.totalLines : ℤ) - 1 - q =
          (d.totalLines - 1 - q % d.totalLines) + d.totalLines * (-(q / d.totalLines)) := by
        linarith
      rw [hsplit, Int.add_mul_emod_self_left, Int.emod_eq_of_lt (by omega) (by omega)]
    rw [hsum]
    unfold Dimensions.bottommostLine
    omega

theorem ofIndex_mul (h : d.Nonempty) (q : ℤ) :
    ofIndex d (q * d.columns) = ⟨d.topmostLine + q, 0⟩ := by
  have hcolumns : (d.columns : ℤ) ≠ 0 := by have := h.columns; omega
  unfold ofIndex
  rw [Int.mul_ediv_cancel _ hcolumns, Int.mul_emod_left]
  rfl

/-- The last cell of the grid. -/
theorem ofIndex_last (h : d.Nonempty) :
    ofIndex d (d.cells - 1) = ⟨d.bottommostLine, d.lastColumn⟩ := by
  have hcolumns := h.columns
  have htotal := h.total
  have hsplit : d.cells - 1 = (d.columns - 1) + (d.totalLines - 1 : ℤ) * d.columns := by
    unfold Dimensions.cells
    ring
  unfold ofIndex
  rw [hsplit, Int.add_mul_ediv_right _ _ (by omega), Int.add_mul_emod_self_right,
    Int.ediv_eq_zero_of_lt (by omega) (by omega), Int.emod_eq_of_lt (by omega) (by omega)]
  unfold Dimensions.topmostLine Dimensions.bottommostLine Dimensions.historySize
    Dimensions.lastColumn
  have hlines := h.lines
  congr 1 <;> omega

theorem viewport_lt_cells (h : d.Nonempty) : 0 ≤ d.viewport ∧ d.viewport < d.cells := by
  have hcolumns : (0 : ℤ) < d.columns := by have := h.columns; omega
  have hlines := h.lines
  have htotal := h.total
  unfold Dimensions.viewport Dimensions.cells Dimensions.historySize
  refine ⟨mul_nonneg (by omega) hcolumns.le, mul_lt_mul_of_pos_right ?_ hcolumns⟩
  omega

/-- A cell of any number is clamped to the one of the bounded number. -/
theorem gridClamp_ofIndex (h : d.Nonempty) (i : ℤ) (boundary : Boundary) :
    gridClamp (ofIndex d i) d boundary = ofIndex d (bounded d i boundary) := by
  have hcolumns : (0 : ℤ) < d.columns := by have := h.columns; omega
  have hlines := h.lines
  have htotal := h.total
  have hrest := Int.emod_lt_of_pos i hcolumns
  have hrest' := Int.emod_nonneg i hcolumns.ne'
  obtain ⟨hviewport, hcells⟩ := viewport_lt_cells h
  have hcol : min (ofIndex d i).col d.lastColumn = (ofIndex d i).col := by
    unfold ofIndex Dimensions.lastColumn
    dsimp only
    omega
  have hrow : (ofIndex d i).row = d.topmostLine + i / d.columns := rfl
  have htop : d.topmostLine = -(d.historySize : ℤ) := rfl
  have hbottom : d.bottommostLine = d.topmostLine + (d.totalLines - 1) := by
    unfold Dimensions.bottommostLine Dimensions.topmostLine Dimensions.historySize
    omega
  have hend : d.cells - 1 < i ↔ d.bottommostLine < (ofIndex d i).row := by
    have hdiv := Int.le_ediv_iff_mul_le (a := d.totalLines) (b := i) hcolumns
    rw [hrow, hbottom]
    unfold Dimensions.cells
    omega
  unfold gridClamp
  rw [hcol]
  cases boundary with
  | none =>
    unfold ofIndex bounded
    dsimp only
    rw [gridClampLine_none h]
    unfold Dimensions.cells
    rw [emod_mul_ediv hcolumns (by omega), Int.emod_emod_of_dvd _ (dvd_mul_left _ _)]
  | grid =>
    unfold bounded
    dsimp only
    have hstart : i < 0 ↔ (ofIndex d i).row < d.topmostLine := by
      have hdiv := Int.ediv_lt_iff_lt_mul (a := i) (b := 0) hcolumns
      rw [hrow]
      omega
    by_cases hlow : (ofIndex d i).row < d.topmostLine
    · rw [if_pos hlow, max_eq_left (by have := hstart.mpr hlow; omega)]
      have hzero := ofIndex_mul h 0
      rw [zero_mul, add_zero] at hzero
      exact hzero.symm
    rw [if_neg hlow]
    by_cases hhigh : d.bottommostLine < (ofIndex d i).row
    · have hi := hend.mpr hhigh
      rw [if_pos hhigh, min_eq_left hi.le, max_eq_right (by omega), ofIndex_last h]
    · rw [if_neg hhigh, min_eq_right (by omega), max_eq_right (by omega)]
  | cursor =>
    unfold bounded
    dsimp only
    have hstart : i < d.viewport ↔ (ofIndex d i).row < 0 := by
      have hdiv := Int.ediv_lt_iff_lt_mul (a := i) (b := d.historySize) hcolumns
      unfold Dimensions.viewport
      rw [hrow, htop]
      omega
    by_cases hlow : (ofIndex d i).row < 0
    · rw [if_pos hlow, max_eq_left (by have := hstart.mpr hlow; omega)]
      unfold Dimensions.viewport
      rw [ofIndex_mul h, htop, neg_add_cancel]
    rw [if_neg hlow]
    by_cases hhigh : d.bottommostLine < (ofIndex d i).row
    · have hi := hend.mpr hhigh
      rw [if_pos hhigh, min_eq_left hi.le, max_eq_right (by omega), ofIndex_last h]
    · rw [if_neg hhigh, min_eq_right (by omega), max_eq_right (by omega)]

theorem bounded_inGrid (h : d.Nonempty) (i : ℤ) (boundary : Boundary) :
    0 ≤ bounded d i boundary ∧ bounded d i boundary < d.cells := by
  obtain ⟨hviewport, hcells⟩ := viewport_lt_cells h
  cases boundary with
  | cursor =>
    unfold bounded
    dsimp only
    omega
  | grid =>
    unfold bounded
    dsimp only
    omega
  | none => exact ⟨Int.emod_nonneg _ (by omega), Int.emod_lt_of_pos _ (by omega)⟩

/-! ### Adding and subtracting -/

/-- A cell that is given by its row and column. -/
theorem ofIndex_add_mul {c : ℕ} (hc : c < d.columns) (q : ℤ) :
    ofIndex d (c + q * d.columns) = ⟨d.topmostLine + q, c⟩ := by
  have hcolumns : (0 : ℤ) < d.columns := by omega
  unfold ofIndex
  rw [Int.add_mul_ediv_right _ _ hcolumns.ne', Int.add_mul_emod_self_right,
    Int.ediv_eq_zero_of_lt (by omega) (by omega), Int.emod_eq_of_lt (by omega) (by omega),
    Int.toNat_natCast, zero_add]

theorem add_eq_ofIndex (h : d.Nonempty) (p : Pos) (n : ℕ) :
    (⟨p.row + ((n + p.col) / d.columns : ℕ), (p.col + n) % d.columns⟩ : Pos) =
      ofIndex d (index d p + n) := by
  have hsplit : index d p + n = ((p.col + n) % d.columns : ℕ) +
      (p.row - d.topmostLine + ((n + p.col) / d.columns : ℕ)) * d.columns := by
    have hdiv : (((p.col + n) % d.columns + (p.col + n) / d.columns * d.columns : ℕ) : ℤ) =
        ((p.col + n : ℕ) : ℤ) := congrArg _ (Nat.mod_add_div' _ _)
    unfold index
    rw [Nat.add_comm n]
    push_cast at hdiv ⊢
    linarith
  rw [hsplit, ofIndex_add_mul (Nat.mod_lt _ h.columns)]
  congr 1
  omega

theorem sub_eq_ofIndex (hp : InGrid d p) (n : ℕ) :
    (⟨p.row - ((n + d.columns - 1 - p.col) / d.columns : ℕ),
      (d.columns + p.col - n % d.columns) % d.columns⟩ : Pos) = ofIndex d (index d p - n) := by
  obtain ⟨-, -, hcol⟩ := hp
  have hcolumns : 0 < d.columns := by omega
  have hrest := Nat.mod_lt n hcolumns
  have hn := Nat.mod_add_div n d.columns
  have hn' : ((n % d.columns : ℕ) : ℤ) + d.columns * (n / d.columns : ℕ) = n := by
    exact_mod_cast hn
  by_cases hborrow : n % d.columns ≤ p.col
  · have hlines : (n + d.columns - 1 - p.col) / d.columns = n / d.columns := by
      have hsum : n + d.columns - 1 - p.col =
          n % d.columns + d.columns - 1 - p.col + d.columns * (n / d.columns) := by omega
      rw [hsum, Nat.add_mul_div_left _ _ hcolumns, Nat.div_eq_of_lt (by omega), zero_add]
    have hrow : (d.columns + p.col - n % d.columns) % d.columns = p.col - n % d.columns := by
      rw [show d.columns + p.col - n % d.columns = p.col - n % d.columns + d.columns by omega,
        Nat.add_mod_right, Nat.mod_eq_of_lt (by omega)]
    have hsplit : index d p - n = ((p.col - n % d.columns : ℕ) : ℤ) +
        (p.row - d.topmostLine - (n / d.columns : ℕ)) * d.columns := by
      unfold index
      rw [Nat.cast_sub hborrow]
      linear_combination hn'
    rw [hlines, hrow, hsplit, ofIndex_add_mul (by omega)]
    congr 1
    omega
  · have hlines : (n + d.columns - 1 - p.col) / d.columns = n / d.columns + 1 := by
      have hsum : n + d.columns - 1 - p.col =
          n % d.columns - 1 - p.col + d.columns * (n / d.columns + 1) := by
        rw [Nat.mul_add]
        omega
      rw [hsum, Nat.add_mul_div_left _ _ hcolumns, Nat.div_eq_of_lt (by omega), zero_add]
    have hrow : (d.columns + p.col - n % d.columns) % d.columns =
        d.columns + p.col - n % d.columns :=
      Nat.mod_eq_of_lt (by omega)
    have hsplit : index d p - n = ((d.columns + p.col - n % d.columns : ℕ) : ℤ) +
        (p.row - d.topmostLine - (n / d.columns + 1 : ℕ)) * d.columns := by
      unfold index
      rw [Nat.cast_sub (by omega), Nat.cast_add, Nat.cast_add, Nat.cast_one]
      linear_combination hn'
    rw [hlines, hrow, hsplit, ofIndex_add_mul (by omega)]
    congr 1
    omega

/-- Adding to a position is adding to its number. -/
theorem add_eq (h : d.Nonempty) (p : Pos) (boundary : Boundary) (n : ℕ) :
    add p d boundary n = ofIndex d (bounded d (index d p + n) boundary) := by
  rw [← gridClamp_ofIndex h, ← add_eq_ofIndex h]
  rfl

theorem sub_eq (h : d.Nonempty) (hp : InGrid d p) (boundary : Boundary) (n : ℕ) :
    sub p d boundary n = ofIndex d (bounded d (index d p - n) boundary) := by
  rw [← gridClamp_ofIndex h, ← sub_eq_ofIndex hp]
  rfl

/-! ### Words -/

/-- The conversion of a word to 32 bits. -/
def asI32 (n : ℕ) : ℤ := (n : ℤ).bmod (2 ^ 32)

def fitI32 (x : ℤ) : Outcome ℤ := if -2 ^ 31 ≤ x ∧ x < 2 ^ 31 then .ok x else .error .overflow

def gridClampWord (p : Pos) (d : Dimensions) (boundary : Boundary) : Outcome Pos :=
  match boundary with
  | .none => do
    let _ ← fitI32 (p.row - d.screenLines)
    return p.gridClamp d .none
  | .cursor | .grid => return p.gridClamp d boundary

/-- `sub` on rows of 32 and columns of 64 bits. -/
def subWord (p : Pos) (d : Dimensions) (boundary : Boundary) (rhs : ℕ) : Outcome Pos := do
  let cols := d.columns
  let sum ← fit 64 (rhs + cols)
  let lineChanges := (sum - 1 - p.col) / cols
  let row ← fitI32 (p.row - asI32 lineChanges)
  gridClampWord ⟨row, (cols + p.col - rhs % cols) % cols⟩ d boundary

/-- `add` on rows of 32 and columns of 64 bits. -/
def addWord (p : Pos) (d : Dimensions) (boundary : Boundary) (rhs : ℕ) : Outcome Pos := do
  let cols := d.columns
  let sum ← fit 64 (rhs + p.col)
  let row ← fitI32 (p.row + asI32 (sum / cols))
  gridClampWord ⟨row, (p.col + rhs) % cols⟩ d boundary

/-- Two numbers between ends that are equal, or both at or beyond the same end. -/
def Together (low high i j : ℤ) : Prop :=
  i = j ∨ (i ≤ low ∧ j ≤ low) ∨ (high ≤ i ∧ high ≤ j) ∨ low = high

theorem saturate_eq_iff {low high i j : ℤ} (h : low ≤ high) :
    max low (min high i) = max low (min high j) ↔ Together low high i j := by
  unfold Together
  omega

/-- Two numbers that stand for the same cell. -/
def SameCell (d : Dimensions) (i j : ℤ) : Boundary → Prop
  | .cursor => Together d.viewport (d.cells - 1) i j
  | .grid => Together 0 (d.cells - 1) i j
  | .none => i ≡ j [ZMOD d.cells]

theorem bounded_eq_iff (h : d.Nonempty) {j : ℤ} (boundary : Boundary) :
    bounded d i boundary = bounded d j boundary ↔ SameCell d i j boundary := by
  obtain ⟨hviewport, hcells⟩ := viewport_lt_cells h
  cases boundary with
  | cursor => exact saturate_eq_iff (by omega)
  | grid => exact saturate_eq_iff (by omega)
  | none => exact Iff.rfl

/-- A row that is reached by lines converted to 32 bits has 32 bits, and stands for the same cell
as the one that is reached by all lines. -/
structure Carried (d : Dimensions) (boundary : Boundary) (row whole : ℤ) (col : ℕ) : Prop where
  low : -2 ^ 31 ≤ row
  high : row < 2 ^ 31
  below : boundary = .none → -2 ^ 31 ≤ row - d.screenLines
  same : SameCell d (index d ⟨row, col⟩) (index d ⟨whole, col⟩) boundary

theorem gridClamp_eq_iff (h : d.Nonempty) {row whole : ℤ} {col : ℕ} (hcol : col < d.columns)
    (boundary : Boundary) :
    gridClamp ⟨row, col⟩ d boundary = gridClamp ⟨whole, col⟩ d boundary ↔
      SameCell d (index d ⟨row, col⟩) (index d ⟨whole, col⟩) boundary := by
  rw [← bounded_eq_iff h]
  have hindex (q : ℤ) : gridClamp ⟨q, col⟩ d boundary =
      ofIndex d (bounded d (index d ⟨q, col⟩) boundary) := by
    rw [← gridClamp_ofIndex h, ofIndex_index hcol]
  rw [hindex, hindex]
  refine ⟨fun hcell => ?_, congrArg _⟩
  have hnumber := congrArg (index d) hcell
  rwa [index_ofIndex h, index_ofIndex h] at hnumber

/-- Adding and subtracting carry lines from a position that an `i32` can carry. -/
structure Carries (d : Dimensions) (boundary : Boundary) (n : ℕ) (p : Pos) : Prop where
  words : n + d.columns < 2 ^ 64
  add : Carried d boundary (p.row + asI32 ((n + p.col) / d.columns))
    (p.row + ((n + p.col) / d.columns : ℕ)) ((p.col + n) % d.columns)
  sub : Carried d boundary (p.row - asI32 ((n + d.columns - 1 - p.col) / d.columns))
    (p.row - ((n + d.columns - 1 - p.col) / d.columns : ℕ))
    ((d.columns + p.col - n % d.columns) % d.columns)

theorem bind_fitI32_eq_ok {x : ℤ} {α : Type} {f : ℤ → Outcome α} {a : α} :
    (fitI32 x >>= f) = .ok a ↔ (-2 ^ 31 ≤ x ∧ x < 2 ^ 31) ∧ f x = .ok a := by
  unfold fitI32
  by_cases hx : -2 ^ 31 ≤ x ∧ x < 2 ^ 31
  · rw [if_pos hx]
    exact (and_iff_right hx).symm
  · rw [if_neg hx]
    exact iff_of_false nofun fun h => hx h.1

theorem bind_fit_eq_ok {m : ℕ} {α : Type} {f : ℕ → Outcome α} {a : α} :
    (fit 64 m >>= f) = .ok a ↔ m < 2 ^ 64 ∧ f m = .ok a := by
  unfold fit
  by_cases hm : m < 2 ^ 64
  · rw [if_pos hm]
    exact (and_iff_right hm).symm
  · rw [if_neg hm]
    exact iff_of_false nofun fun h => hm h.1

theorem gridClampWord_eq_ok {q : Pos} : gridClampWord p d boundary = .ok q ↔
    (boundary = .none → -2 ^ 31 ≤ p.row - d.screenLines ∧ p.row - d.screenLines < 2 ^ 31) ∧
      gridClamp p d boundary = q := by
  cases boundary with
  | none =>
    refine bind_fitI32_eq_ok.trans (and_congr ⟨fun h _ => h, fun h => h rfl⟩ ?_)
    exact ⟨Except.ok.inj, congrArg _⟩
  | cursor => exact ⟨fun h => ⟨nofun, Except.ok.inj h⟩, fun h => congrArg _ h.2⟩
  | grid => exact ⟨fun h => ⟨nofun, Except.ok.inj h⟩, fun h => congrArg _ h.2⟩

theorem bind_gridClampWord_iff (h : d.Nonempty) {row whole : ℤ} {col : ℕ}
    (hcol : col < d.columns) (boundary : Boundary) :
    (fitI32 row >>= fun row => gridClampWord ⟨row, col⟩ d boundary) =
      .ok (gridClamp ⟨whole, col⟩ d boundary) ↔ Carried d boundary row whole col := by
  rw [bind_fitI32_eq_ok, gridClampWord_eq_ok, gridClamp_eq_iff h hcol]
  have hlines := h.lines
  refine ⟨fun ⟨hrow, hbelow, hsame⟩ => ⟨hrow.1, hrow.2, fun hnone => (hbelow hnone).1, hsame⟩,
    fun hc => ⟨⟨hc.low, hc.high⟩, fun hnone => ⟨hc.below hnone, ?_⟩, hc.same⟩⟩
  have hhigh := hc.high
  dsimp only
  omega

theorem addWord_eq_iff (h : d.Nonempty) (p : Pos) (boundary : Boundary) (n : ℕ) :
    addWord p d boundary n = .ok (ofIndex d (bounded d (index d p + n) boundary)) ↔
      n + p.col < 2 ^ 64 ∧ Carried d boundary (p.row + asI32 ((n + p.col) / d.columns))
        (p.row + ((n + p.col) / d.columns : ℕ)) ((p.col + n) % d.columns) := by
  unfold addWord
  dsimp only
  rw [bind_fit_eq_ok, ← gridClamp_ofIndex h, ← add_eq_ofIndex h]
  exact and_congr_right fun _ => bind_gridClampWord_iff h (Nat.mod_lt _ h.columns) boundary

theorem subWord_eq_iff (h : d.Nonempty) (hp : InGrid d p) (boundary : Boundary) (n : ℕ) :
    subWord p d boundary n = .ok (ofIndex d (bounded d (index d p - n) boundary)) ↔
      n + d.columns < 2 ^ 64 ∧
        Carried d boundary (p.row - asI32 ((n + d.columns - 1 - p.col) / d.columns))
          (p.row - ((n + d.columns - 1 - p.col) / d.columns : ℕ))
          ((d.columns + p.col - n % d.columns) % d.columns) := by
  unfold subWord
  dsimp only
  rw [bind_fit_eq_ok, ← gridClamp_ofIndex h, ← sub_eq_ofIndex hp]
  exact and_congr_right fun _ => bind_gridClampWord_iff h (Nat.mod_lt _ h.columns) boundary

/-- Adding and subtracting are arithmetic on the numbers of cells, end in the grid, and undo each
other where they wrap around. -/
structure Linear (d : Dimensions) (boundary : Boundary) (n : ℕ) (p : Pos) : Prop where
  add : addWord p d boundary n = .ok (ofIndex d (bounded d (index d p + n) boundary))
  sub : subWord p d boundary n = .ok (ofIndex d (bounded d (index d p - n) boundary))
  inGrid : InGrid d (ofIndex d (bounded d (index d p + n) boundary)) ∧
    InGrid d (ofIndex d (bounded d (index d p - n) boundary))
  sub_add : boundary = .none → (addWord p d boundary n >>= (subWord · d boundary n)) = .ok p
  add_sub : boundary = .none → (subWord p d boundary n >>= (addWord · d boundary n)) = .ok p

theorem index_inGrid (h : d.Nonempty) (hp : InGrid d p) :
    0 ≤ index d p ∧ index d p < d.cells := by
  have htotal := h.total
  obtain ⟨htop, hbottom, hcol⟩ := hp
  unfold Dimensions.topmostLine Dimensions.historySize at htop
  unfold Dimensions.bottommostLine at hbottom
  have hrow : p.row - d.topmostLine + 1 ≤ d.totalLines := by
    unfold Dimensions.topmostLine Dimensions.historySize
    omega
  have hrows := mul_le_mul_of_nonneg_right hrow (Int.natCast_nonneg d.columns)
  unfold index Dimensions.cells
  refine ⟨Int.add_nonneg (mul_nonneg ?_ (Int.natCast_nonneg _)) (Int.natCast_nonneg _), ?_⟩
  · unfold Dimensions.topmostLine Dimensions.historySize
    omega
  rw [add_mul, one_mul] at hrows
  omega

theorem Carries.linear (h : d.Nonempty) (hcarries : ∀ p, InGrid d p → Carries d boundary n p)
    (hp : InGrid d p) : Linear d boundary n p := by
  obtain ⟨hlow, hhigh⟩ := index_inGrid h hp
  have hcells : 0 < d.cells := by omega
  have hadds {q : Pos} (hq : InGrid d q) :
      addWord q d boundary n = .ok (ofIndex d (bounded d (index d q + n) boundary)) :=
    have hc := hcarries q hq
    (addWord_eq_iff h q boundary n).mpr ⟨by have := hq.2.2; have := hc.words; omega, hc.add⟩
  have hsubs {q : Pos} (hq : InGrid d q) :
      subWord q d boundary n = .ok (ofIndex d (bounded d (index d q - n) boundary)) :=
    have hc := hcarries q hq
    (subWord_eq_iff h hq boundary n).mpr ⟨hc.words, hc.sub⟩
  have hreached (i : ℤ) : InGrid d (ofIndex d (bounded d i boundary)) :=
    have hbounded := bounded_inGrid h i boundary
    ofIndex_inGrid h hbounded.1 hbounded.2
  refine ⟨hadds hp, hsubs hp, ⟨hreached _, hreached _⟩, ?_, ?_⟩
  · rintro rfl
    rw [hadds hp]
    refine (hsubs (hreached _)).trans (congrArg _ ?_)
    rw [index_ofIndex h]
    change ofIndex d (((index d p + n) % d.cells - n) % d.cells) = p
    rw [Int.emod_sub_emod, add_sub_cancel_right, Int.emod_eq_of_lt hlow hhigh,
      ofIndex_index hp.2.2]
  · rintro rfl
    rw [hsubs hp]
    refine (hadds (hreached _)).trans (congrArg _ ?_)
    rw [index_ofIndex h]
    change ofIndex d (((index d p - n) % d.cells + n) % d.cells) = p
    rw [Int.emod_add_emod, sub_add_cancel, Int.emod_eq_of_lt hlow hhigh, ofIndex_index hp.2.2]

/-- Positions are added to and subtracted from as the numbers of their cells if and only if the
lines that are carried from any position may be converted to 32 bits. -/
theorem linear_iff (h : d.Nonempty) (boundary : Boundary) (n : ℕ) :
    (∀ p, InGrid d p → Linear d boundary n p) ↔ ∀ p, InGrid d p → Carries d boundary n p := by
  constructor
  · intro hlinear p hp
    have hl := hlinear p hp
    have hadd := (addWord_eq_iff h p boundary n).mp hl.add
    have hsub := (subWord_eq_iff h hp boundary n).mp hl.sub
    exact ⟨hsub.1, hadd.2, hsub.2⟩
  · intro hcarries p hp
    exact Carries.linear h hcarries hp

/-- One line of one column, without a history. -/
theorem linear_iff_single : (∀ p, InGrid ⟨1, 1, 1⟩ p → Linear ⟨1, 1, 1⟩ .none 5 p) ↔
    ∀ p, InGrid ⟨1, 1, 1⟩ p → Carries ⟨1, 1, 1⟩ .none 5 p :=
  linear_iff ⟨by decide, by decide, by decide⟩ .none 5

theorem asI32_of_lt {k : ℕ} (hk : k < 2 ^ 31) : asI32 k = k :=
  Int.bmod_eq_of_le (by omega) (by omega)

theorem Carried.of_lines {row : ℤ} {col : ℕ} (hlow : -2 ^ 31 ≤ row - d.screenLines)
    (hhigh : row < 2 ^ 31) : Carried d boundary row row col := by
  refine ⟨by omega, hhigh, fun _ => hlow, ?_⟩
  cases boundary with
  | none => exact Int.ModEq.refl _
  | cursor => exact .inl rfl
  | grid => exact .inl rfl

/-- Numbers up to those of some 2^31 lines are carried from everywhere. -/
theorem Carries.of_lines (h : d.Nonempty) (hwords : n + d.columns < 2 ^ 64)
    (hlines : 2 * d.totalLines + n / d.columns + 1 < 2 ^ 31) (hp : InGrid d p) :
    Carries d boundary n p := by
  have hcolumns := h.columns
  have htotal := h.total
  obtain ⟨htop, hbottom, hcol⟩ := hp
  unfold Dimensions.topmostLine Dimensions.historySize at htop
  unfold Dimensions.bottommostLine at hbottom
  have hnext : (n + d.columns) / d.columns = n / d.columns + 1 := Nat.add_div_right n hcolumns
  have hadd : (n + p.col) / d.columns ≤ n / d.columns + 1 :=
    hnext ▸ Nat.div_le_div_right (by omega)
  have hsub : (n + d.columns - 1 - p.col) / d.columns ≤ n / d.columns + 1 :=
    hnext ▸ Nat.div_le_div_right (by omega)
  refine ⟨hwords, ?_, ?_⟩
  · generalize (n + p.col) / d.columns = carry at hadd ⊢
    rw [asI32_of_lt (by omega)]
    exact Carried.of_lines (by omega) (by omega)
  · generalize (n + d.columns - 1 - p.col) / d.columns = borrow at hsub ⊢
    rw [asI32_of_lt (by omega)]
    exact Carried.of_lines (by omega) (by omega)

/-- Behind 2^31 lines the last cell of the grid ought to be reached, but the first one is. -/
theorem add_starts_over : InGrid ⟨24, 24, 80⟩ ⟨0, 0⟩ ∧
    addWord ⟨0, 0⟩ ⟨24, 24, 80⟩ .grid (80 * 2 ^ 31) = .ok ⟨0, 0⟩ ∧
      ¬Linear ⟨24, 24, 80⟩ .grid (80 * 2 ^ 31) ⟨0, 0⟩ := by
  have hfirst : addWord ⟨0, 0⟩ ⟨24, 24, 80⟩ .grid (80 * 2 ^ 31) = .ok ⟨0, 0⟩ := by decide +kernel
  refine ⟨by decide, hfirst, fun hlinear => ?_⟩
  have hlast := hlinear.add.symm.trans hfirst
  exact absurd hlast (by decide +kernel)

end Pos
end Rio
