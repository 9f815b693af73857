import Rio.Crosswords.Snapshot

/-! Images shown where kitty placeholders are printed. The cells of a row that show consecutive
columns of one row of an image make a run, which is drawn as one overlay. -/

set_option linter.dupNamespace false

namespace Rio.Kitty
open Rio.Crosswords (kittyPlaceholder)

/-- The code points that stand for the numbers from `0` on. -/
def diacritics : List ℕ :=
  [
    0x305, 0x30d, 0x30e, 0x310, 0x312, 0x33d, 0x33e, 0x33f, 0x346, 0x34a, 0x34b, 0x34c, 0x350,
    0x351, 0x352, 0x357, 0x35b, 0x363, 0x364, 0x365, 0x366, 0x367, 0x368, 0x369, 0x36a, 0x36b,
    0x36c, 0x36d, 0x36e, 0x36f, 0x483, 0x484, 0x485, 0x486, 0x487, 0x592, 0x593, 0x594, 0x595,
    0x597, 0x598, 0x599, 0x59c, 0x59d, 0x59e, 0x59f, 0x5a0, 0x5a1, 0x5a8, 0x5a9, 0x5ab, 0x5ac,
    0x5af, 0x5c4, 0x610, 0x611, 0x612, 0x613, 0x614, 0x615, 0x616, 0x617, 0x657, 0x658, 0x659,
    0x65a, 0x65b, 0x65d, 0x65e, 0x6d6, 0x6d7, 0x6d8, 0x6d9, 0x6da, 0x6db, 0x6dc, 0x6df, 0x6e0,
    0x6e1, 0x6e2, 0x6e4, 0x6e7, 0x6e8, 0x6eb, 0x6ec, 0x730, 0x732, 0x733, 0x735, 0x736, 0x73a,
    0x73d, 0x73f, 0x740, 0x741, 0x743, 0x745, 0x747, 0x749, 0x74a, 0x7eb, 0x7ec, 0x7ed, 0x7ee,
    0x7ef, 0x7f0, 0x7f1, 0x7f3, 0x816, 0x817, 0x818, 0x819, 0x81b, 0x81c, 0x81d, 0x81e, 0x81f,
    0x820, 0x821, 0x822, 0x823, 0x825, 0x826, 0x827, 0x829, 0x82a, 0x82b, 0x82c, 0x82d, 0x951,
    0x953, 0x954, 0xf82, 0xf83, 0xf86, 0xf87, 0x135d, 0x135e, 0x135f, 0x17dd, 0x193a, 0x1a17,
    0x1a75, 0x1a76, 0x1a77, 0x1a78, 0x1a79, 0x1a7a, 0x1a7b, 0x1a7c, 0x1b6b, 0x1b6d, 0x1b6e, 0x1b6f,
    0x1b70, 0x1b71, 0x1b72, 0x1b73, 0x1cd0, 0x1cd1, 0x1cd2, 0x1cda, 0x1cdb, 0x1ce0, 0x1dc0, 0x1dc1,
    0x1dc3, 0x1dc4, 0x1dc5, 0x1dc6, 0x1dc7, 0x1dc8, 0x1dc9, 0x1dcb, 0x1dcc, 0x1dd1, 0x1dd2, 0x1dd3,
    0x1dd4, 0x1dd5, 0x1dd6, 0x1dd7, 0x1dd8, 0x1dd9, 0x1dda, 0x1ddb, 0x1ddc, 0x1ddd, 0x1dde, 0x1ddf,
    0x1de0, 0x1de1, 0x1de2, 0x1de3, 0x1de4, 0x1de5, 0x1de6, 0x1dfe, 0x20d0, 0x20d1, 0x20d4, 0x20d5,
    0x20d6, 0x20d7, 0x20db, 0x20dc, 0x20e1, 0x20e7, 0x20e9, 0x20f0, 0x2cef, 0x2cf0, 0x2cf1, 0x2de0,
    0x2de1, 0x2de2, 0x2de3, 0x2de4, 0x2de5, 0x2de6, 0x2de7, 0x2de8, 0x2de9, 0x2dea, 0x2deb, 0x2dec,
    0x2ded, 0x2dee, 0x2def, 0x2df0, 0x2df1, 0x2df2, 0x2df3, 0x2df4, 0x2df5, 0x2df6, 0x2df7, 0x2df8,
    0x2df9, 0x2dfa, 0x2dfb, 0x2dfc, 0x2dfd, 0x2dfe, 0x2dff, 0xa66f, 0xa67c, 0xa67d, 0xa6f0, 0xa6f1,
    0xa8e0, 0xa8e1, 0xa8e2, 0xa8e3, 0xa8e4, 0xa8e5, 0xa8e6, 0xa8e7, 0xa8e8, 0xa8e9, 0xa8ea, 0xa8eb,
    0xa8ec, 0xa8ed, 0xa8ee, 0xa8ef, 0xa8f0, 0xa8f1, 0xaab0, 0xaab2, 0xaab3, 0xaab7, 0xaab8, 0xaabe,
    0xaabf, 0xaac1, 0xfe20, 0xfe21, 0xfe22, 0xfe23, 0xfe24, 0xfe25, 0xfe26, 0x10a0f, 0x10a38,
    0x1d185, 0x1d186, 0x1d187, 0x1d188, 0x1d189, 0x1d1aa, 0x1d1ab, 0x1d1ac, 0x1d1ad, 0x1d242,
    0x1d243, 0x1d244
  ]

def diacriticToIndex (c : Char) : Option ℕ := diacritics.findIdx? (· == c.toNat)

/-- The number that a color encodes. -/
def colorToId : AnsiColor → ℕ
  | .indexed n => n.toNat
  | .spec r g b => (r.toNat <<< 16) ||| (g.toNat <<< 8) ||| b.toNat
  | .named _ => 0

/-- What a cell says about the image it shows; what is missing is inherited from the cell before
it. -/
structure IncompletePlacement where
  imageIdLow : ℕ
  imageIdHigh : Option ℕ
  placementId : ℕ
  row : Option ℕ
  col : Option ℕ
  /-- Width of the run in cells. -/
  width : ℕ
  deriving DecidableEq, Repr

/-- Cells that show consecutive columns of one row of an image. -/
structure PlaceholderRun where
  imageId : ℕ
  placementId : ℕ
  row : ℕ
  col : ℕ
  width : ℕ
  deriving DecidableEq, Repr

namespace IncompletePlacement

/-- Decode a single cell; `combining` are the characters attached to it. -/
def fromCell (fg : AnsiColor) (underline : Option AnsiColor) (combining : List Char) :
    IncompletePlacement :=
  { imageIdLow := colorToId fg
    imageIdHigh := (combining[2]?.bind diacriticToIndex).filter (· ≤ 255)
    placementId := (underline.map colorToId).getD 0
    row := combining[0]?.bind diacriticToIndex
    col := combining[1]?.bind diacriticToIndex
    width := 1 }

/-- Whether the next cell of the row extends the run. -/
def canAppend (p other : IncompletePlacement) : Bool :=
  p.imageIdLow == other.imageIdLow && p.placementId == other.placementId &&
    (other.row.isNone || other.row == p.row) &&
    (match other.col with
      | none => true
      | some c => (p.col.map fun start => c == start + p.width).getD false) &&
    (other.imageIdHigh.isNone || other.imageIdHigh == p.imageIdHigh)

def append (p : IncompletePlacement) : IncompletePlacement := { p with width := p.width + 1 }

def complete (p : IncompletePlacement) : PlaceholderRun :=
  { imageId := (p.imageIdHigh.getD 0 <<< 24) ||| (p.imageIdLow &&& 0xffffff)
    placementId := p.placementId
    row := p.row.getD 0
    col := p.col.getD 0
    width := p.width }

/-- The first cell of a run starts at row and column `0` if it names none. -/
def begin_ (p : IncompletePlacement) : IncompletePlacement :=
  { p with row := some (p.row.getD 0), col := some (p.col.getD 0) }

end IncompletePlacement

section Overlays

variable {Overlay : Type}

/-- The scan of a row: the overlays so far, and the run in flight with its first column. -/
structure RowScan (Overlay : Type) where
  overlays : List Overlay
  run : Option (IncompletePlacement × ℕ)

/-- Draw the run in flight. `flush` gives the overlay of a run that starts in some line and
column, if there is an image to draw. -/
def RowScan.flush (flush : PlaceholderRun → ℕ → ℕ → Option Overlay) (line : ℕ)
    (scan : RowScan Overlay) : RowScan Overlay :=
  match scan.run with
  | none => scan
  | some (p, startCol) => ⟨scan.overlays ++ (flush p.complete line startCol).toList, none⟩

/-- The placement that a cell of the snapshot encodes. -/
def cellPlacement (s : Snapshot) (columns line col : ℕ) (square : Square) : IncompletePlacement :=
  let style := s.cellStyles.getD (line * columns + col) {}
  let combining := ((square.extrasId.bind fun id => s.extras.lookup id).map Extras.zerowidth).getD []
  .fromCell style.fg style.underlineColor combining

def scanCell (flush : PlaceholderRun → ℕ → ℕ → Option Overlay) (s : Snapshot)
    (columns line : ℕ) (scan : RowScan Overlay) (x : Square × ℕ) : RowScan Overlay :=
  let (square, col) := x
  if square.c ≠ kittyPlaceholder then scan.flush flush line
  else
    let cell := cellPlacement s columns line col square
    match scan.run with
    | some (current, startCol) =>
      if current.canAppend cell then { scan with run := some (current.append, startCol) }
      else { scan.flush flush line with run := some (cell.begin_, col) }
    | none => { scan with run := some (cell.begin_, col) }

/-- The overlays of a row. -/
def rowOverlays (flush : PlaceholderRun → ℕ → ℕ → Option Overlay) (s : Snapshot) (columns : ℕ)
    (x : Row Square × ℕ) : List Overlay :=
  let scan := x.1.inner.zipIdx.foldl (scanCell flush s columns x.2) ⟨[], none⟩
  (scan.flush flush x.2).overlays

/-- The overlays of the visible rows. Rows without the flag are skipped. -/
def virtualPlaceholderOverlays (flush : PlaceholderRun → ℕ → ℕ → Option Overlay) (s : Snapshot)
    (columns : ℕ) : List Overlay :=
  s.visibleRows.zipIdx.flatMap fun x =>
    if !x.1.kittyVirtualPlaceholder then [] else rowOverlays flush s columns x

/-- A row without placeholders has no overlays. -/
theorem rowOverlays_eq_nil (flush : PlaceholderRun → ℕ → ℕ → Option Overlay) (s : Snapshot)
    (columns : ℕ) {x : Row Square × ℕ} (h : ∀ c ∈ x.1.inner, c.c ≠ kittyPlaceholder) :
    rowOverlays flush s columns x = [] := by
  have hscan (cells : List (Square × ℕ)) (hcells : ∀ y ∈ cells, y.1.c ≠ kittyPlaceholder) :
      cells.foldl (scanCell flush s columns x.2) ⟨[], none⟩ = ⟨[], none⟩ := by
    induction cells with
    | nil => rfl
    | cons y cells ih =>
      obtain ⟨hy, hrest⟩ := List.forall_mem_cons.mp hcells
      have hturn : scanCell flush s columns x.2 ⟨[], none⟩ y = ⟨[], none⟩ := by
        unfold scanCell
        dsimp only
        rw [if_pos hy]
        rfl
      rw [List.foldl_cons, hturn]
      exact ih hrest
  have hcells : ∀ y ∈ x.1.inner.zipIdx, y.1.c ≠ kittyPlaceholder := by
    intro y hy
    obtain ⟨hlt, heq⟩ := List.mem_zipIdx' hy
    rw [heq]
    exact h _ (List.getElem_mem hlt)
  unfold rowOverlays
  rw [hscan _ hcells]
  rfl

end Overlays
end Rio.Kitty
