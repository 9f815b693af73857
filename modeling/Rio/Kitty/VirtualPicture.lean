import Rio.Kitty.RunGeometry

/-! The picture of a row of placeholders does not depend on how its cells are grouped into runs. -/

set_option linter.dupNamespace false

namespace Rio.Kitty
open Rio.Fitted
open Rio.Crosswords (kittyPlaceholder)

/-! ### What cells decode to -/

/-- What is read of a placeholder cell: its colors, and the characters attached to it. -/
structure VirtualCell where
  fg : AnsiColor
  underline : Option AnsiColor
  combining : List Char
  deriving DecidableEq, Repr

def VirtualCell.placement (c : VirtualCell) : IncompletePlacement :=
  .fromCell c.fg c.underline c.combining

/-- A cell with the row and column it shows, and the high byte of its image if one is known. -/
structure Decoded where
  cell : VirtualCell
  imageIdHigh : Option ℕ
  row : ℕ
  col : ℕ
  deriving DecidableEq, Repr

namespace Decoded

def imageId (d : Decoded) : ℕ :=
  (d.imageIdHigh.getD 0 <<< 24) ||| (d.cell.placement.imageIdLow &&& 0xffffff)

def placementId (d : Decoded) : ℕ := d.cell.placement.placementId

/-- A cell that inherits nothing: what it does not give is 0. -/
def alone (c : VirtualCell) : Decoded :=
  ⟨c, c.placement.imageIdHigh, c.placement.row.getD 0, c.placement.col.getD 0⟩

/-- A cell that shows the column after its left neighbour's. -/
def next (left : Decoded) (c : VirtualCell) : Decoded :=
  { left with cell := c, col := left.col + 1 }

/-- The row and column that a cell gives are those it would inherit. -/
def agrees (left : Decoded) (c : VirtualCell) : Bool :=
  (c.placement.row.isNone || c.placement.row == some left.row) &&
    (c.placement.col.isNone || c.placement.col == some (left.col + 1))

/-- A cell inherits from its left neighbour if their colors encode the same ids and what it gives
agrees; a high byte agrees if the neighbour has been given the same one. -/
def inheritsIds (left : Decoded) (c : VirtualCell) : Bool :=
  left.cell.placement.imageIdLow == c.placement.imageIdLow &&
    left.cell.placement.placementId == c.placement.placementId && left.agrees c &&
    (c.placement.imageIdHigh.isNone || c.placement.imageIdHigh == left.imageIdHigh)

/-- A cell inherits from its left neighbour if it has the same colors, and what it gives agrees
with what the neighbour decodes to. -/
def inheritsColors (left : Decoded) (c : VirtualCell) : Bool :=
  left.cell.fg == c.fg && left.cell.underline == c.underline && left.agrees c &&
    (c.placement.imageIdHigh.isNone ||
      c.placement.imageIdHigh == some (left.imageIdHigh.getD 0))

/-- What a cell decodes to, right of a placeholder or not. -/
def decode (inherits : Decoded → VirtualCell → Bool) (left : Option Decoded) (c : VirtualCell) :
    Decoded :=
  match left with
  | some left => if inherits left c then left.next c else alone c
  | none => alone c

theorem ids_of_inherits {left : Decoded} {c : VirtualCell} (h : left.inheritsIds c = true) :
    left.cell.placement.imageIdLow = c.placement.imageIdLow ∧
      left.cell.placement.placementId = c.placement.placementId := by
  simp only [inheritsIds, Bool.and_eq_true, beq_iff_eq] at h
  exact h.1.1

theorem decode_of_inherits {inherits : Decoded → VirtualCell → Bool} {left : Decoded}
    {c : VirtualCell} (h : inherits left c = true) : decode inherits (some left) c = left.next c :=
  if_pos h

theorem decode_of_not_inherits {inherits : Decoded → VirtualCell → Bool} {left : Decoded}
    {c : VirtualCell} (h : ¬ inherits left c = true) : decode inherits (some left) c = alone c :=
  if_neg h

end Decoded

/-- What the cells of a row decode to, from left to right. -/
def decodeCells (inherits : Decoded → VirtualCell → Bool) :
    Option Decoded → List (Option VirtualCell) → List (Option Decoded)
  | _, [] => []
  | _, none :: cells => none :: decodeCells inherits none cells
  | left, some c :: cells =>
    let d := Decoded.decode inherits left c
    some d :: decodeCells inherits (some d) cells

/-- What is read of a cell in a line and column of the snapshot. -/
def readCell (s : Snapshot) (columns line col : ℕ) (square : Square) : VirtualCell :=
  let style := s.cellStyles.getD (line * columns + col) {}
  ⟨style.fg, style.underlineColor,
    ((square.extrasId.bind fun id => s.extras.lookup id).map Extras.zerowidth).getD []⟩

theorem cellPlacement_eq (s : Snapshot) (columns line col : ℕ) (square : Square) :
    cellPlacement s columns line col square = (readCell s columns line col square).placement := rfl

/-- What a cell of a row says, if it is a placeholder. -/
def virtualCell (s : Snapshot) (columns line col : ℕ) (square : Square) : Option VirtualCell :=
  if square.c ≠ kittyPlaceholder then none else some (readCell s columns line col square)

/-- What the cells of a row show. -/
def decodedRow (inherits : Decoded → VirtualCell → Bool) (s : Snapshot) (columns : ℕ)
    (x : Row Square × ℕ) : List (Option Decoded) :=
  decodeCells inherits none (x.1.inner.zipIdx.map fun y => virtualCell s columns x.2 y.2 y.1)

/-- A cell as a run of its own. -/
def Decoded.run (d : Decoded) : PlaceholderRun := ⟨d.imageId, d.placementId, d.row, d.col, 1⟩

/-- The overlays of cells that are each placed on their own, from a column on. -/
def cellOverlays (flush : PlaceholderRun → ℕ → ℕ → Option GraphicOverlay) (line : ℕ) :
    ℕ → List (Option Decoded) → List GraphicOverlay
  | _, [] => []
  | col, d :: cells =>
    (d.bind fun d => flush d.run line col).toList ++ cellOverlays flush line (col + 1) cells

/-! ### Runs in flight -/

/-- The run in flight ends with the cell before a column; no run is in flight after a cell that is
no placeholder. -/
inductive InFlight : Option (IncompletePlacement × ℕ) → Option Decoded → ℕ → Prop
  | idle (col : ℕ) : InFlight none none col
  | running (p : IncompletePlacement) (d : Decoded) (start first : ℕ)
      (hlow : p.imageIdLow = d.cell.placement.imageIdLow)
      (hhigh : p.imageIdHigh = d.imageIdHigh)
      (hid : p.placementId = d.cell.placement.placementId)
      (hrow : p.row = some d.row) (hfirst : p.col = some first)
      (hlast : first + p.width = d.col + 1) :
      InFlight (some (p, start)) (some d) (start + p.width)

variable {p : IncompletePlacement} {d : Decoded} {c : VirtualCell} {start col : ℕ}

theorem InFlight.canAppend_eq (h : InFlight (some (p, start)) (some d) col) :
    p.canAppend c.placement = d.inheritsIds c := by
  cases h with
  | running _ _ _ first hlow hhigh hid hrow hfirst hlast =>
    unfold IncompletePlacement.canAppend Decoded.inheritsIds Decoded.agrees
    rw [hlow, hhigh, hid, hrow, hfirst]
    cases c.placement.col with
    | none => simp [Bool.and_assoc]
    | some given => simp [Bool.and_assoc, hlast]

theorem InFlight.complete_eq (h : InFlight (some (p, start)) (some d) col) :
    ∃ first, p.complete = ⟨d.imageId, d.placementId, d.row, first, p.width⟩ ∧
      first + p.width = d.col + 1 := by
  cases h with
  | running _ _ _ first hlow hhigh hid hrow hfirst hlast =>
    refine ⟨first, ?_, hlast⟩
    unfold IncompletePlacement.complete Decoded.imageId Decoded.placementId
    rw [hlow, hhigh, hid, hrow, hfirst]
    rfl

/-- A cell that inherits makes the run in flight one cell longer. -/
theorem InFlight.append (h : InFlight (some (p, start)) (some d) col)
    (hinherits : d.inheritsIds c = true) :
    InFlight (some (p.append, start)) (some (d.next c)) (col + 1) := by
  obtain ⟨hsame, hsameId⟩ := Decoded.ids_of_inherits hinherits
  cases h with
  | running _ _ _ first hlow hhigh hid hrow hfirst hlast =>
    refine .running p.append (d.next c) start first (hlow.trans hsame) hhigh
      (hid.trans hsameId) hrow hfirst ?_
    show first + (p.width + 1) = d.col + 1 + 1
    omega

/-- A cell that does not inherit starts a run. -/
theorem InFlight.begin_ (c : VirtualCell) (col : ℕ) :
    InFlight (some (c.placement.begin_, col)) (some (.alone c)) (col + 1) :=
  .running c.placement.begin_ (.alone c) col (c.placement.col.getD 0) rfl rfl rfl rfl rfl rfl

theorem InFlight.col_eq (h : InFlight (some (p, start)) (some d) col) :
    col = start + p.width := by
  cases h with
  | running => rfl

theorem begin_complete (c : VirtualCell) :
    c.placement.begin_.complete = (Decoded.alone c).run := rfl

theorem append_complete (h : InFlight (some (p, start)) (some d) col)
    (hinherits : d.inheritsIds c = true) :
    p.append.complete = { p.complete with width := p.complete.width + 1 } ∧
      { p.complete with col := p.complete.col + p.complete.width, width := 1 } =
        (d.next c).run := by
  refine ⟨rfl, ?_⟩
  obtain ⟨first, hcomplete, hlast⟩ := h.complete_eq
  obtain ⟨hsame, hsameId⟩ := Decoded.ids_of_inherits hinherits
  unfold Decoded.run Decoded.imageId Decoded.placementId Decoded.next
  rw [hcomplete]
  unfold Decoded.imageId Decoded.placementId
  rw [hsame, hsameId, hlast]

/-! ### The scan of a row -/

section Flush

variable {Overlay : Type} {flush : PlaceholderRun → ℕ → ℕ → Option Overlay} {line : ℕ}
  {scan : RowScan Overlay}

theorem flush_idle (h : scan.run = none) : scan.flush flush line = scan := by
  unfold RowScan.flush
  rw [h]

theorem flush_running (h : scan.run = some (p, start)) :
    scan.flush flush line = ⟨scan.overlays ++ (flush p.complete line start).toList, none⟩ := by
  unfold RowScan.flush
  rw [h]

theorem flush_run (scan : RowScan Overlay) : (scan.flush flush line).run = none := by
  cases hrun : scan.run with
  | none => rwa [flush_idle hrun]
  | some run => rw [flush_running hrun]

end Flush

theorem picture_append (a b : List GraphicOverlay) (q : ℚ × ℚ) :
    picture (a ++ b) q = picture a q ++ picture b q := List.filterMap_append

section Scan

variable {images : VirtualImages} {m : CellMetrics} {s : Snapshot} {columns line : ℕ}
  {scan : RowScan GraphicOverlay} {left : Option Decoded}

/-- One more cell adds to the picture what the cell shows on its own. -/
theorem scanCell_picture (hm : 0 < m.cellWidth) (himages : images.Positive)
    (h : InFlight scan.run left col) (s : Snapshot) (columns line : ℕ) (square : Square)
    (q : ℚ × ℚ) :
    InFlight (scanCell (images.flushRun m) s columns line scan (square, col)).run
        ((virtualCell s columns line col square).map (Decoded.decode Decoded.inheritsIds left))
        (col + 1) ∧
      picture ((scanCell (images.flushRun m) s columns line scan (square, col)).flush
          (images.flushRun m) line).overlays q =
        picture (scan.flush (images.flushRun m) line).overlays q ++
          picture (((virtualCell s columns line col square).map
            (Decoded.decode Decoded.inheritsIds left)).bind fun d =>
              images.flushRun m d.run line col).toList q := by
  unfold virtualCell scanCell
  dsimp only
  by_cases hplaceholder : square.c ≠ kittyPlaceholder
  · rw [if_pos hplaceholder, if_pos hplaceholder, flush_idle (flush_run scan), flush_run]
    exact ⟨.idle _, (List.append_nil _).symm⟩
  · rw [if_neg hplaceholder, if_neg hplaceholder, cellPlacement_eq]
    generalize readCell s columns line col square = c
    rw [Option.map_some, Option.bind_some]
    cases hrun : scan.run with
    | none =>
      rw [hrun] at h
      cases h
      dsimp only
      refine ⟨InFlight.begin_ c col, ?_⟩
      rw [flush_running rfl, flush_idle hrun, begin_complete, picture_append]
      rfl
    | some run =>
      obtain ⟨p, start⟩ := run
      rw [hrun] at h
      cases hleft : left with
      | none =>
        rw [hleft] at h
        cases h
      | some d =>
        rw [hleft] at h
        dsimp only
        rw [h.canAppend_eq, flush_running hrun]
        by_cases hinherits : d.inheritsIds c = true
        · obtain ⟨hlong, hcell⟩ := append_complete h hinherits
          rw [if_pos hinherits, Decoded.decode_of_inherits hinherits, flush_running rfl, hlong]
          refine ⟨h.append hinherits, ?_⟩
          rw [picture_append, picture_append, List.append_assoc, ← hcell, h.col_eq]
          exact congrArg _ (runPicture_append hm himages q)
        · rw [if_neg hinherits, Decoded.decode_of_not_inherits hinherits, flush_running rfl,
            begin_complete]
          refine ⟨InFlight.begin_ c col, ?_⟩
          rw [picture_append]

/-- The picture of a row is put together from what its cells show on their own. -/
theorem foldl_scanCell_picture (hm : 0 < m.cellWidth) (himages : images.Positive)
    (cells : List Square) (h : InFlight scan.run left col) (q : ℚ × ℚ) :
    picture (((cells.zipIdx col).foldl (scanCell (images.flushRun m) s columns line) scan).flush
        (images.flushRun m) line).overlays q =
      picture (scan.flush (images.flushRun m) line).overlays q ++
        picture (cellOverlays (images.flushRun m) line col (decodeCells Decoded.inheritsIds left
          ((cells.zipIdx col).map fun y => virtualCell s columns line y.2 y.1))) q := by
  induction cells generalizing scan left col with
  | nil => exact (List.append_nil _).symm
  | cons square cells ih =>
    obtain ⟨hnext, hpicture⟩ := scanCell_picture hm himages h s columns line square q
    rw [List.zipIdx_cons, List.foldl_cons, ih hnext, hpicture, List.map_cons]
    dsimp only
    rw [List.append_assoc, ← picture_append]
    cases hcell : virtualCell s columns line col square with
    | none => rfl
    | some c => rfl

/-- The overlays of a row draw the same picture as each of its cells placed on its own. -/
theorem rowOverlays_picture (hm : 0 < m.cellWidth) (himages : images.Positive) (s : Snapshot)
    (columns : ℕ) (x : Row Square × ℕ) (q : ℚ × ℚ) :
    picture (rowOverlays (images.flushRun m) s columns x) q =
      picture (cellOverlays (images.flushRun m) x.2 0
        (decodedRow Decoded.inheritsIds s columns x)) q :=
  foldl_scanCell_picture hm himages x.1.inner (.idle 0) q

/-! ### Cells on the screen -/

/-- A point of the screen, by the cell it is in. -/
def CellMetrics.point (m : CellMetrics) (line col : ℕ) (dx dy : ℚ) : ℚ × ℚ :=
  (m.originX + col * m.cellWidth + dx, m.originY + line * m.cellHeight + dy)

/-- What a cell shows at one of its points. -/
def VirtualImages.cellPoint (images : VirtualImages) (m : CellMetrics) (d : Decoded) (dx dy : ℚ) :
    Option ShownPoint :=
  images.boxPoint m d.imageId d.placementId
    (d.col * m.cellWidth + dx, d.row * m.cellHeight + dy)

/-- Where a point of the screen is in the box of a cell. -/
theorem point_sub_shift (m : CellMetrics) (d : Decoded) (line col k : ℕ) (dx dy : ℚ) :
    m.point line col dx dy - d.run.shift m line k =
      (d.col * m.cellWidth + ((col : ℚ) - k) * m.cellWidth + dx,
        d.row * m.cellHeight + dy) := by
  unfold CellMetrics.point PlaceholderRun.shift Decoded.run
  ext
  · show m.originX + col * m.cellWidth + dx -
        (m.originX + k * m.cellWidth - d.col * m.cellWidth) = _
    ring
  · show m.originY + line * m.cellHeight + dy -
        (m.originY + line * m.cellHeight - d.row * m.cellHeight) = _
    ring

/-- A cell covers the points in it, and no others. -/
theorem box_contains_iff {dx dy : ℚ} (hdx : 0 ≤ dx ∧ dx < m.cellWidth)
    (hdy : 0 ≤ dy ∧ dy < m.cellHeight) (d : Decoded) (line col k : ℕ) :
    (d.run.box m).Contains (m.point line col dx dy - d.run.shift m line k) ↔ k = col := by
  have hm : 0 < m.cellWidth := hdx.1.trans_lt hdx.2
  rw [point_sub_shift]
  show (d.col * m.cellWidth ≤ d.col * m.cellWidth + ((col : ℚ) - k) * m.cellWidth + dx ∧
      d.col * m.cellWidth + ((col : ℚ) - k) * m.cellWidth + dx <
        d.col * m.cellWidth + (1 : ℕ) * m.cellWidth) ∧
    d.row * m.cellHeight ≤ d.row * m.cellHeight + dy ∧
      d.row * m.cellHeight + dy < d.row * m.cellHeight + m.cellHeight ↔ k = col
  rw [Nat.cast_one, one_mul]
  constructor
  · intro hin
    obtain ⟨⟨hlow, hhigh⟩, -⟩ := hin
    obtain hlt | heq | hgt := lt_trichotomy k col
    · -- the point is in a cell further right
      have hfar : (k : ℚ) + 1 ≤ col := by exact_mod_cast hlt
      have hcells : m.cellWidth ≤ ((col : ℚ) - k) * m.cellWidth :=
        le_mul_of_one_le_left hm.le (by linarith)
      linarith [hdx.1]
    · exact heq
    · have hfar : (col : ℚ) + 1 ≤ k := by exact_mod_cast hgt
      have hcells : m.cellWidth ≤ ((k : ℚ) - col) * m.cellWidth :=
        le_mul_of_one_le_left hm.le (by linarith)
      linarith [hdx.2]
  · intro heq
    rw [heq, sub_self, zero_mul, add_zero]
    exact ⟨⟨by linarith [hdx.1], by linarith [hdx.2]⟩, by linarith [hdy.1], by linarith [hdy.2]⟩

/-- Of the cells of a row, the one that a point is in shows something there. -/
theorem cell_picture (himages : images.Positive) {dx dy : ℚ}
    (hdx : 0 ≤ dx ∧ dx < m.cellWidth) (hdy : 0 ≤ dy ∧ dy < m.cellHeight) (d : Decoded) (k : ℕ) :
    images.runPicture m d.run line k (m.point line col dx dy) =
      if k = col then (images.cellPoint m d dx dy).toList else [] := by
  rw [runPicture_eq himages, if_congr (box_contains_iff hdx hdy d line col k) rfl rfl,
    point_sub_shift]
  by_cases hk : k = col
  · rw [if_pos hk, if_pos hk, hk, sub_self, zero_mul, add_zero]
    rfl
  · rw [if_neg hk, if_neg hk]

theorem optional_picture (himages : images.Positive) {dx dy : ℚ}
    (hdx : 0 ≤ dx ∧ dx < m.cellWidth) (hdy : 0 ≤ dy ∧ dy < m.cellHeight) (d : Option Decoded)
    (k : ℕ) :
    picture (d.bind fun d => images.flushRun m d.run line k).toList (m.point line col dx dy) =
      if k = col then (d.bind fun d => images.cellPoint m d dx dy).toList else [] := by
  cases d with
  | none => exact (ite_self _).symm
  | some d => exact cell_picture himages hdx hdy d k

theorem cellOverlays_picture_left (himages : images.Positive) {dx dy : ℚ}
    (hdx : 0 ≤ dx ∧ dx < m.cellWidth) (hdy : 0 ≤ dy ∧ dy < m.cellHeight)
    (cells : List (Option Decoded)) {k : ℕ} (hk : col < k) :
    picture (cellOverlays (images.flushRun m) line k cells) (m.point line col dx dy) = [] := by
  induction cells generalizing k with
  | nil => rfl
  | cons d cells ih =>
    rw [cellOverlays, picture_append, optional_picture himages hdx hdy, if_neg hk.ne',
      ih (Nat.lt_succ_of_lt hk)]
    rfl

/-- The cells of a row show at a point what the cell there shows. -/
theorem cellOverlays_picture (himages : images.Positive) {dx dy : ℚ}
    (hdx : 0 ≤ dx ∧ dx < m.cellWidth) (hdy : 0 ≤ dy ∧ dy < m.cellHeight)
    (cells : List (Option Decoded)) (line k col : ℕ) :
    picture (cellOverlays (images.flushRun m) line k cells) (m.point line (k + col) dx dy) =
      (cells[col]?.join.bind fun d => images.cellPoint m d dx dy).toList := by
  induction cells generalizing k col with
  | nil => rfl
  | cons d cells ih =>
    rw [cellOverlays, picture_append, optional_picture himages hdx hdy]
    cases col with
    | zero =>
      rw [Nat.add_zero, if_pos rfl,
        cellOverlays_picture_left himages hdx hdy cells (Nat.lt_succ_self k), List.append_nil]
      rfl
    | succ col =>
      rw [if_neg (by omega), List.nil_append, ← Nat.add_assoc, Nat.add_right_comm, ih (k + 1) col]
      rfl

end Scan

/-! ### Runs lie side by side -/

section Runs

variable {Overlay : Type} {flush : PlaceholderRun → ℕ → ℕ → Option Overlay} {s : Snapshot}
  {columns line : ℕ}

/-- The runs of a row, with the columns they start in. -/
def rowRuns (s : Snapshot) (columns : ℕ) (x : Row Square × ℕ) : List (PlaceholderRun × ℕ) :=
  rowOverlays (fun run _ startCol => some (run, startCol)) s columns x

/-- A scan for overlays goes along with the one for runs. -/
structure Along (flush : PlaceholderRun → ℕ → ℕ → Option Overlay) (line : ℕ)
    (scan : RowScan Overlay) (runs : RowScan (PlaceholderRun × ℕ)) : Prop where
  run : scan.run = runs.run
  overlays : scan.overlays = runs.overlays.filterMap fun r => flush r.1 line r.2

variable {scan : RowScan Overlay} {runs : RowScan (PlaceholderRun × ℕ)}

theorem Along.flushed (h : Along flush line scan runs) :
    Along flush line (scan.flush flush line)
      (runs.flush (fun run _ startCol => some (run, startCol)) line) := by
  cases hrun : runs.run with
  | none => rwa [flush_idle hrun, flush_idle (h.run.trans hrun)]
  | some run =>
    rw [flush_running hrun, flush_running (h.run.trans hrun)]
    refine ⟨rfl, ?_⟩
    dsimp only
    rw [Option.toList_some, List.filterMap_append, ← h.overlays]
    cases hflush : flush run.1.complete line run.2 with
    | none => simp [hflush]
    | some o => simp [hflush]

theorem Along.scanCell (h : Along flush line scan runs) (x : Square × ℕ) :
    Along flush line (scanCell flush s columns line scan x)
      (scanCell (fun run _ startCol => some (run, startCol)) s columns line runs x) := by
  unfold Kitty.scanCell
  dsimp only
  rw [h.run]
  split_ifs with hplaceholder
  · exact h.flushed
  · cases runs.run with
    | none => exact ⟨rfl, h.overlays⟩
    | some run =>
      dsimp only
      split_ifs
      · exact ⟨rfl, h.overlays⟩
      · exact ⟨rfl, h.flushed.overlays⟩

/-- The overlays of a row are those of its runs. -/
theorem rowOverlays_eq (flush : PlaceholderRun → ℕ → ℕ → Option Overlay) (s : Snapshot)
    (columns : ℕ) (x : Row Square × ℕ) :
    rowOverlays flush s columns x =
      (rowRuns s columns x).filterMap fun r => flush r.1 x.2 r.2 := by
  have hfold (cells : List (Square × ℕ)) {scan : RowScan Overlay}
      {runs : RowScan (PlaceholderRun × ℕ)} (h : Along flush x.2 scan runs) :
      Along flush x.2 (cells.foldl (Kitty.scanCell flush s columns x.2) scan)
        (cells.foldl (Kitty.scanCell (fun run _ startCol => some (run, startCol)) s columns x.2)
          runs) := by
    induction cells generalizing scan runs with
    | nil => exact h
    | cons y cells ih => exact ih (h.scanCell y)
  exact (hfold x.1.inner.zipIdx ⟨rfl, rfl⟩).flushed.overlays

/-- Runs that end where the next one starts, or before. -/
def Apart (a b : PlaceholderRun × ℕ) : Prop := a.2 + a.1.width ≤ b.2

/-- Before a column, the runs that are done lie apart, and so does the one in flight. -/
structure SideBySide (runs : RowScan (PlaceholderRun × ℕ)) (col : ℕ) : Prop where
  apart : runs.overlays.Pairwise Apart
  before : ∀ a ∈ runs.overlays, a.2 + a.1.width ≤ (runs.run.map Prod.snd).getD col
  inFlight : ∀ p start, runs.run = some (p, start) → start + p.width = col

theorem SideBySide.flushed {col : ℕ} (h : SideBySide runs col) :
    SideBySide (runs.flush (fun run _ startCol => some (run, startCol)) line) col := by
  cases hrun : runs.run with
  | none => rwa [flush_idle hrun]
  | some run =>
    obtain ⟨p, start⟩ := run
    have hbefore := h.before
    have hend := h.inFlight p start hrun
    rw [hrun] at hbefore
    rw [flush_running hrun]
    refine ⟨?_, ?_, nofun⟩
    · refine List.pairwise_append.mpr ⟨h.apart, List.pairwise_singleton _ _, ?_⟩
      intro a ha b hb
      rw [Option.toList_some, List.mem_singleton] at hb
      rw [hb]
      exact hbefore a ha
    · intro a ha
      rw [Option.toList_some, List.mem_append, List.mem_singleton] at ha
      obtain ha | rfl := ha
      · have hle := hbefore a ha
        show a.2 + a.1.width ≤ col
        have hstart : a.2 + a.1.width ≤ start := hle
        omega
      · exact hend.le

theorem SideBySide.pass {col : ℕ} (h : SideBySide runs col) (hrun : runs.run = none) :
    SideBySide runs (col + 1) := by
  have hbefore := h.before
  rw [hrun] at hbefore
  refine ⟨h.apart, ?_, ?_⟩
  · rw [hrun]
    intro a ha
    exact (hbefore a ha).trans (Nat.le_succ col)
  · rw [hrun]
    exact nofun

theorem SideBySide.starts {col : ℕ} (h : SideBySide runs col) (hrun : runs.run = none)
    (c : VirtualCell) :
    SideBySide { runs with run := some (c.placement.begin_, col) } (col + 1) := by
  have hbefore := h.before
  rw [hrun] at hbefore
  refine ⟨h.apart, hbefore, ?_⟩
  intro p start heq
  obtain ⟨rfl, rfl⟩ := Prod.mk.inj (Option.some.inj heq)
  rfl

theorem SideBySide.scanCell {col : ℕ} (h : SideBySide runs col) (square : Square) :
    SideBySide (Kitty.scanCell (fun run _ startCol => some (run, startCol)) s columns line runs
      (square, col)) (col + 1) := by
  unfold Kitty.scanCell
  dsimp only
  rw [cellPlacement_eq]
  generalize readCell s columns line col square = c
  split_ifs with hplaceholder
  · exact h.flushed.pass (flush_run runs)
  · cases hrun : runs.run with
    | none => exact h.starts hrun c
    | some run =>
      obtain ⟨p, start⟩ := run
      have hbefore := h.before
      have hend := h.inFlight p start hrun
      rw [hrun] at hbefore
      dsimp only
      split_ifs with happend
      · refine ⟨h.apart, hbefore, ?_⟩
        intro q start' heq
        obtain ⟨rfl, rfl⟩ := Prod.mk.inj (Option.some.inj heq)
        show start + (p.width + 1) = col + 1
        omega
      · exact h.flushed.starts (flush_run runs) c

/-- No cell is in two runs. -/
theorem rowRuns_apart (s : Snapshot) (columns : ℕ) (x : Row Square × ℕ) :
    (rowRuns s columns x).Pairwise Apart := by
  have hfold (cells : List Square) {runs : RowScan (PlaceholderRun × ℕ)} {col : ℕ}
      (h : SideBySide runs col) :
      SideBySide ((cells.zipIdx col).foldl
        (Kitty.scanCell (fun run _ startCol => some (run, startCol)) s columns x.2) runs)
        (col + cells.length) := by
    induction cells generalizing runs col with
    | nil => exact h
    | cons square cells ih =>
      rw [List.zipIdx_cons, List.foldl_cons, List.length_cons, ← Nat.add_assoc, Nat.add_right_comm]
      exact ih (h.scanCell square)
  have hempty : SideBySide ⟨[], none⟩ 0 := ⟨.nil, nofun, nofun⟩
  exact (hfold x.1.inner hempty).flushed.apart

end Runs

/-! ### The picture of a row -/

/-- The picture of a row of placeholders does not depend on how its cells are grouped into runs. It
is the one of each cell placed on its own, with the image, row and column it decodes to: a point of
the cell shows the point at the same place in that cell of the placement's box, which holds the
fitted image in its middle. The overlays are those of runs that lie side by side. -/
theorem rowOverlays_ungrouped (images : VirtualImages) (m : CellMetrics) (s : Snapshot)
    (columns : ℕ) (x : Row Square × ℕ) (hcell : 0 < m.cellWidth ∧ 0 < m.cellHeight)
    (himages : images.Positive) :
    let decoded := decodedRow Decoded.inheritsIds s columns x
    let overlays := rowOverlays (images.flushRun m) s columns x
    (∀ q, picture overlays q = picture (cellOverlays (images.flushRun m) x.2 0 decoded) q) ∧
      (∀ col dx dy, 0 ≤ dx ∧ dx < m.cellWidth → 0 ≤ dy ∧ dy < m.cellHeight →
        picture overlays (m.point x.2 col dx dy) =
          (decoded[col]?.join.bind fun d => images.cellPoint m d dx dy).toList) ∧
      (∀ id img vp, images.kittyImages id = some img →
        FitsInto (placementBox m vp) img (fit (placementBox m vp) img)) ∧
      ∃ runs : List (PlaceholderRun × ℕ),
        overlays = runs.filterMap (fun r => images.flushRun m r.1 x.2 r.2) ∧
          runs.Pairwise Apart := by
  intro decoded overlays
  have hpicture := rowOverlays_picture hcell.1 himages s columns x
  refine ⟨hpicture, ?_, ?_, ?_⟩
  · intro col dx dy hdx hdy
    have hcells := cellOverlays_picture himages hdx hdy decoded x.2 0 col
    rw [Nat.zero_add] at hcells
    exact (hpicture _).trans hcells
  · intro id img vp himg
    exact fit_fitsInto (himages id img himg)
  · exact ⟨rowRuns s columns x, rowOverlays_eq _ s columns x, rowRuns_apart s columns x⟩

/-- A row of placeholders, and a snapshot that holds it. -/
def placeholderRow (cells : List VirtualCell) : Row Square :=
  ⟨cells.zipIdx.map fun y => { c := kittyPlaceholder, hi := (y.2 + 1).toUInt16 }, cells.length,
    true, false⟩

def placeholderSnapshot (cells : List VirtualCell) : Snapshot :=
  ⟨[placeholderRow cells], cells.map fun c => { fg := c.fg, underlineColor := c.underline },
    cells.zipIdx.map fun y => ((y.2 + 1).toUInt16, { zerowidth := y.1.combining })⟩

/-- Two cells of an image, where the second inherits from the first. -/
theorem rowOverlays_ungrouped_pair :
    let cells := [⟨.indexed 5, none, ['\u0305', '\u0305']⟩, ⟨.indexed 5, none, []⟩]
    let images : VirtualImages := ⟨fun _ => some ⟨4, 2⟩, fun _ => some ⟨40, 20⟩⟩
    let m : CellMetrics := ⟨8, 16, 0, 0⟩
    let x := (placeholderRow cells, 0)
    let decoded := decodedRow Decoded.inheritsIds (placeholderSnapshot cells) 2 x
    let overlays := rowOverlays (images.flushRun m) (placeholderSnapshot cells) 2 x
    (∀ q, picture overlays q = picture (cellOverlays (images.flushRun m) 0 0 decoded) q) ∧
      (∀ col dx dy, 0 ≤ dx ∧ dx < m.cellWidth → 0 ≤ dy ∧ dy < m.cellHeight →
        picture overlays (m.point 0 col dx dy) =
          (decoded[col]?.join.bind fun d => images.cellPoint m d dx dy).toList) ∧
      (∀ id img vp, images.kittyImages id = some img →
        FitsInto (placementBox m vp) img (fit (placementBox m vp) img)) ∧
      ∃ runs : List (PlaceholderRun × ℕ),
        overlays = runs.filterMap (fun r => images.flushRun m r.1 0 r.2) ∧
          runs.Pairwise Apart := by
  intro cells images m x
  refine rowOverlays_ungrouped images m (placeholderSnapshot cells) 2 x ?_ ?_
  · decide +kernel
  · intro id img himg
    obtain rfl := Option.some.inj himg
    decide +kernel

/-- Cells whose colors differ but encode the same id make one run, and a cell that gives the high
byte 0 does not go on with a run that gives none. -/
theorem grouping_by_colors_differs :
    let images : VirtualImages := ⟨fun _ => some ⟨4, 2⟩, fun _ => some ⟨4, 2⟩⟩
    let m : CellMetrics := ⟨1, 1, 0, 0⟩
    let colors := [⟨.indexed 5, none, ['\u0305', '\u0305']⟩, ⟨.spec 0 0 5, none, []⟩]
    let bytes := [⟨.indexed 5, none, ['\u030d', '\u030e']⟩,
      ⟨.indexed 5, none, ['\u200d', '\u200d', '\u0305']⟩]
    ∀ cells ∈ [colors, bytes],
      ¬ ∀ q, picture (rowOverlays (images.flushRun m) (placeholderSnapshot cells) 2
            (placeholderRow cells, 0)) q =
          picture (cellOverlays (images.flushRun m) 0 0 (decodedRow Decoded.inheritsColors
            (placeholderSnapshot cells) 2 (placeholderRow cells, 0))) q := by
  intro images m colors bytes cells hcells h
  have hpoint := h (3 / 2, 1 / 2)
  rw [List.mem_cons, List.mem_singleton] at hcells
  obtain rfl | rfl := hcells
  · exact absurd hpoint (by decide +kernel)
  · exact absurd hpoint (by decide +kernel)

end Rio.Kitty
