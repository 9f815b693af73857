import Rio.GridEmit.Runs

/-! The runs of a row cover its text from left to right, and every shaped glyph is drawn at the
column of the cell that it stands for. -/

set_option linter.dupNamespace false

namespace Rio.GridEmit

/-! ### Places in a text -/

/-- Where a character of a text begins. -/
def textOffset (platform : Platform) (text : List Char) (i : ℕ) : ℕ :=
  ((text.take i).map platform.charLen).sum

section Offsets
variable {platform : Platform} {text : List Char} {i j : ℕ}

theorem charLen_pos (platform : Platform) (ch : Char) : 0 < platform.charLen ch := by
  cases platform with
  | macos =>
    show 0 < utf16Len ch
    unfold utf16Len
    split_ifs <;> decide
  | other => exact ch.utf8Size_pos

theorem textOffset_succ (hi : i < text.length) :
    textOffset platform text (i + 1) = textOffset platform text i + platform.charLen text[i] := by
  unfold textOffset
  rw [List.take_succ_eq_append_getElem hi, List.map_append, List.sum_append]
  rfl

theorem textOffset_lt (hij : i < j) (hj : j ≤ text.length) :
    textOffset platform text i < textOffset platform text j := by
  induction j, hij using Nat.le_induction with
  | base =>
    rw [textOffset_succ hj]
    exact Nat.lt_add_of_pos_right (charLen_pos platform _)
  | succ j _ ih =>
    rw [textOffset_succ hj]
    exact (ih (Nat.le_of_succ_le hj)).trans_le (Nat.le_add_right _ _)

theorem textOffset_le_iff (hi : i ≤ text.length) (hj : j ≤ text.length) :
    textOffset platform text i ≤ textOffset platform text j ↔ i ≤ j := by
  constructor
  · intro hle
    by_contra hlt
    exact (textOffset_lt (Nat.lt_of_not_le hlt) hi).not_ge hle
  · intro hle
    obtain rfl | hlt := hle.eq_or_lt
    · exact le_rfl
    · exact (textOffset_lt hlt hj).le

end Offsets

/-! ### The cells of glyphs -/

section Cells
variable {text : List Char} {i j : ℕ}

theorem advanceCell_eq {platform : Platform} {cellStarts : List ℕ}
    (hstarts : cellStarts = (List.range text.length).map (textOffset platform text))
    (hlength : text.length ≤ 2 ^ 16) (hj : j < text.length) :
    ∀ fuel, i ≤ j → j ≤ i + fuel →
      advanceCell cellStarts (textOffset platform text j) fuel i = j := by
  intro fuel
  induction fuel generalizing i with
  | zero =>
    intro hij hfuel
    exact le_antisymm hij hfuel
  | succ fuel ih =>
    intro hij hfuel
    have hlen : cellStarts.length = text.length := by
      rw [hstarts, List.length_map, List.length_range]
    unfold advanceCell
    by_cases hmore : i < j
    · have hstart : cellStarts.getD (i + 1) 0 = textOffset platform text (i + 1) := by
        rw [hstarts, List.getD_eq_getElem?_getD, List.getElem?_map,
          List.getElem?_range (by omega)]
        rfl
      rw [if_pos ⟨by omega, by rw [hstart]; exact (textOffset_le_iff (by omega) hj.le).mpr hmore⟩,
        min_eq_left (by omega)]
      exact ih (by omega) (by omega)
    · have hsame : i = j := by omega
      subst hsame
      rw [if_neg]
      rintro ⟨hnext, hbefore⟩
      rw [hlen] at hnext
      rw [hstarts, List.getD_eq_getElem?_getD, List.getElem?_map,
        List.getElem?_range hnext] at hbefore
      have := (textOffset_le_iff (i := i + 1) (by omega) hj.le).mp hbefore
      omega

theorem skipChars_eq (hlength : text.length ≤ 2 ^ 16) (hj : j < text.length) (hij : i ≤ j) :
    skipChars (textOffset .other text j) (textOffset .other text i) (text.drop i) i =
      (textOffset .other text j, text.drop j, j) := by
  induction hk : j - i generalizing i with
  | zero =>
    have hsame : i = j := by omega
    subst hsame
    rw [List.drop_eq_getElem_cons hj]
    exact if_pos le_rfl
  | succ k ih =>
    have hlt : i < j := by omega
    have hnext : textOffset .other text (i + 1) = textOffset .other text i + text[i].utf8Size :=
      textOffset_succ (hlt.trans hj)
    rw [List.drop_eq_getElem_cons (hlt.trans hj)]
    unfold skipChars
    rw [if_neg (textOffset_lt hlt hj.le).not_ge, min_eq_left (by omega), ← hnext]
    exact ih (by omega) (by omega)

/-- The characters that clusters start at go from left to right. -/
def Starts (platform : Platform) (text : List Char) (glyphs : List ShapedGlyph)
    (cells : List ℕ) : Prop :=
  List.Forall₂ (fun g i => i < text.length ∧ g.cluster = textOffset platform text i) glyphs cells ∧
    cells.Pairwise (· ≤ ·)

/-- Every cell is where the cluster of a glyph starts. -/
theorem Starts.mem {platform : Platform} {glyphs : List ShapedGlyph} {cells : List ℕ}
    (h : Starts platform text glyphs cells) (hj : j ∈ cells) :
    j < text.length ∧ textOffset platform text j ∈ glyphs.map ShapedGlyph.cluster := by
  obtain ⟨hcells, -⟩ := h
  induction hcells with
  | nil => exact (List.not_mem_nil hj).elim
  | @cons g i glyphs cells hi _ ih =>
    rw [List.map_cons]
    obtain rfl | hj := List.mem_cons.mp hj
    · rw [← hi.2]
      exact ⟨hi.1, List.mem_cons_self⟩
    · exact ⟨(ih hj).1, List.mem_cons_of_mem _ (ih hj).2⟩

theorem cellsByTable_eq {platform : Platform} {cellStarts : List ℕ}
    (hstarts : cellStarts = (List.range text.length).map (textOffset platform text))
    (hlength : text.length ≤ 2 ^ 16) {glyphs : List ShapedGlyph} {cells : List ℕ}
    (h : Starts platform text glyphs cells) (hfirst : ∀ j ∈ cells, i ≤ j) :
    cellsByTable cellStarts i glyphs = (glyphs.zip cells).map fun e => (e.1.id, e.2) := by
  obtain ⟨hcells, hsorted⟩ := h
  induction hcells generalizing i with
  | nil => rfl
  | @cons g j glyphs cells hj _ ih =>
    obtain ⟨hlater, hsorted⟩ := List.pairwise_cons.mp hsorted
    have hlen : cellStarts.length = text.length := by
      rw [hstarts, List.length_map, List.length_range]
    have hcell := advanceCell_eq hstarts hlength hj.1 cellStarts.length
      (hfirst j List.mem_cons_self) (by omega)
    unfold cellsByTable
    dsimp only
    rw [hj.2, hcell, ih hlater hsorted]
    rfl

theorem cellsByChars_eq (hlength : text.length ≤ 2 ^ 16) {glyphs : List ShapedGlyph}
    {cells : List ℕ} (h : Starts .other text glyphs cells) (hfirst : ∀ j ∈ cells, i ≤ j) :
    cellsByChars (textOffset .other text i) (text.drop i) i glyphs =
      (glyphs.zip cells).map fun e => (e.1.id, e.2) := by
  obtain ⟨hcells, hsorted⟩ := h
  induction hcells generalizing i with
  | nil => rfl
  | @cons g j glyphs cells hj _ ih =>
    obtain ⟨hlater, hsorted⟩ := List.pairwise_cons.mp hsorted
    have hcell := skipChars_eq hlength hj.1 (hfirst j List.mem_cons_self)
    unfold cellsByChars
    rw [hj.2, hcell]
    dsimp only
    rw [ih hlater hsorted]
    rfl

end Cells

/-! ### Runs -/

namespace RowText
variable {platform : Platform} {t : RowText} {r : Run}

/-- A run of cells of a row: what its cells share, and its text. -/
structure Shaped (platform : Platform) (t : RowText) (r : Run) : Prop where
  start_lt : r.start < r.stop
  stop_le : r.stop ≤ t.cols
  unbroken : ∀ x, r.start ≤ x → x < r.stop → isRunBreaker (t.row.cell x) = false
  shares : ∀ x, r.start ≤ x → x < r.stop → t.styleFlags x = r.styleFlags ∧
    (resolveFont t.fontLibrary (t.row.cell x).c r.styleFlags).1 = r.fontId
  text : r.text = (List.range' r.start (r.stop - r.start)).map fun x => shapeChar (t.row.cell x).c
  cellStarts : r.cellStarts = (List.range r.text.length).map (textOffset platform r.text)

theorem openRun_shaped (platform : Platform) {x : ℕ} (hx : x < t.cols)
    (hopen : isRunBreaker (t.row.cell x) = false) : Shaped platform t (t.openRun x) := by
  have honly {y : ℕ} (hle : x ≤ y) (hlt : y < x + 1) : y = x := by omega
  refine ⟨Nat.lt_succ_self x, hx, fun y hle hlt => ?_, fun y hle hlt => ?_, ?_, rfl⟩
  · rw [honly hle hlt]
    exact hopen
  · rw [honly hle hlt]
    exact ⟨rfl, rfl⟩
  · show _ = (List.range' x (x + 1 - x)).map _
    rw [Nat.add_sub_cancel_left]
    rfl

theorem push_shaped (h : Shaped platform t r) (hjoins : t.joins r = true) :
    Shaped platform t (r.push platform (t.row.cell r.stop).c) := by
  obtain ⟨hstart, hstop, hunbroken, hshares, htext, hstarts⟩ := h
  unfold joins at hjoins
  simp only [Bool.and_eq_true, decide_eq_true_eq, Bool.not_eq_true', beq_iff_eq] at hjoins
  obtain ⟨⟨⟨⟨hcols, hopen⟩, -⟩, hstyle⟩, hfont⟩ := hjoins
  have hlast {y : ℕ} (hlt : y < r.stop + 1) : y < r.stop ∨ y = r.stop := by omega
  refine ⟨?_, hcols, fun y hle hlt => ?_, fun y hle hlt => ?_, ?_, ?_⟩
  · exact hstart.trans (Nat.lt_succ_self _)
  · obtain hlt | rfl := hlast hlt
    · exact hunbroken y hle hlt
    · exact hopen
  · obtain hlt | rfl := hlast hlt
    · exact hshares y hle hlt
    · exact ⟨hstyle, hfont⟩
  · show r.text ++ [shapeChar (t.row.cell r.stop).c] =
      (List.range' r.start (r.stop + 1 - r.start)).map _
    have hsplit : r.stop + 1 - r.start = (r.stop - r.start) + 1 := by omega
    have hend : r.start + (r.stop - r.start) = r.stop := by omega
    rw [hsplit, List.range'_concat, List.map_append, ← htext, Nat.one_mul, hend]
    rfl
  · show r.cellStarts ++ [(r.text.map platform.charLen).sum] =
      (List.range (r.text ++ [shapeChar (t.row.cell r.stop).c]).length).map
        (textOffset platform (r.text ++ [shapeChar (t.row.cell r.stop).c]))
    rw [List.length_append, List.length_singleton, List.range_succ, List.map_append, hstarts]
    congr 1
    · refine List.map_congr_left fun i hi => ?_
      unfold textOffset
      rw [List.take_append_of_le_length (List.mem_range.mp hi).le]
    · show [_] = [textOffset _ _ _]
      unfold textOffset
      rw [List.take_left']
      rfl

theorem extendRun_shaped (h : Shaped platform t r) (fuel : ℕ) :
    Shaped platform t (t.extendRun platform fuel r) ∧
      (t.extendRun platform fuel r).start = r.start := by
  induction fuel generalizing r with
  | zero => exact ⟨h, rfl⟩
  | succ fuel ih =>
    unfold extendRun
    split_ifs with hjoins
    · exact ih (push_shaped h hjoins)
    · exact ⟨h, rfl⟩

/-- The cells of a run. -/
def columns (r : Run) : List ℕ := List.range' r.start (r.stop - r.start)

theorem runsFrom_cover (platform : Platform) (t : RowText) :
    ∀ fuel x, t.cols - x ≤ fuel → x ≤ t.cols →
      (∀ r ∈ t.runsFrom platform fuel x, Shaped platform t r) ∧
        (t.runsFrom platform fuel x).flatMap columns =
          (List.range' x (t.cols - x)).filter fun y => !isRunBreaker (t.row.cell y) := by
  intro fuel
  induction fuel with
  | zero =>
    intro x hfuel _
    rw [Nat.le_zero.mp hfuel]
    exact ⟨List.forall_mem_nil _, rfl⟩
  | succ fuel ih =>
    intro x hfuel hx
    unfold runsFrom
    by_cases hin : x < t.cols
    · rw [if_pos hin]
      by_cases hbreaks : isRunBreaker (t.row.cell x) = true
      · rw [if_pos hbreaks]
        obtain ⟨hshaped, hcover⟩ := ih (x + 1) (by omega) hin
        refine ⟨hshaped, ?_⟩
        have hsplit : t.cols - x = (t.cols - (x + 1)) + 1 := by omega
        rw [hcover, hsplit, List.range'_succ, List.filter_cons_of_neg (by rw [hbreaks]; decide)]
      · rw [if_neg hbreaks]
        dsimp only
        obtain ⟨hrun, hstart⟩ := extendRun_shaped
          (openRun_shaped platform hin (Bool.eq_false_iff.mpr hbreaks))
          (t.cols - (x + 1))
        generalize t.extendRun platform (t.cols - (x + 1)) (t.openRun x) = r at hrun hstart ⊢
        change r.start = x at hstart
        obtain ⟨hshaped, hcover⟩ := ih r.stop (by have := hrun.start_lt; omega) hrun.stop_le
        refine ⟨List.forall_mem_cons.mpr ⟨hrun, hshaped⟩, ?_⟩
        have hlt := hrun.start_lt
        have hle := hrun.stop_le
        have hsplit := List.range'_append_1 (s := x) (m := r.stop - x) (n := t.cols - r.stop)
        rw [show x + (r.stop - x) = r.stop by omega,
          show r.stop - x + (t.cols - r.stop) = t.cols - x by omega] at hsplit
        have hcolumns : (List.range' x (r.stop - x)).filter
            (fun y => !isRunBreaker (t.row.cell y)) = columns r := by
          unfold columns
          rw [hstart, List.filter_eq_self]
          intro y hy
          obtain ⟨hyx, hystop⟩ := List.mem_range'_1.mp hy
          rw [hrun.unbroken y (by omega) (by omega)]
          rfl
        rw [List.flatMap_cons, hcover, ← hsplit, List.filter_append, hcolumns]
    · rw [if_neg hin]
      have hend : t.cols - x = 0 := by omega
      rw [hend]
      exact ⟨List.forall_mem_nil _, rfl⟩

end RowText

/-! ### Drawing -/

/-- The cell of a run whose text a cluster falls in. -/
def InCell (platform : Platform) (text : List Char) (cell cluster : ℕ) : Prop :=
  cell < text.length ∧ textOffset platform text cell ≤ cluster ∧
    cluster < textOffset platform text (cell + 1)

namespace Drawing
variable {K : Type} {platform : Platform}

/-- The shaper returns clusters from left to right, which start characters of its text. -/
def ShapesInOrder (d : Drawing K) (platform : Platform) : Prop :=
  ∀ fontId styleFlags text glyphs, d.shape fontId styleFlags text = some glyphs →
    (glyphs.map ShapedGlyph.cluster).Pairwise (· ≤ ·) ∧
      ∀ g ∈ glyphs, ∃ i < text.length, g.cluster = textOffset platform text i

/-- The runs of a row and what is drawn of them. -/
structure DrawsRow (d : Drawing K) (platform : Platform) (t : RowText) : Prop where
  /-- The runs have the cells between the breaks, from left to right. -/
  cover : (t.runs platform).flatMap RowText.columns =
    (List.range t.cols).filter fun x => !isRunBreaker (t.row.cell x)
  nonempty : ∀ r ∈ t.runs platform, r.start < r.stop ∧ r.stop ≤ t.cols
  shares : ∀ r ∈ t.runs platform, ∀ x ∈ RowText.columns r, t.styleFlags x = r.styleFlags ∧
    (resolveFont t.fontLibrary (t.row.cell x).c r.styleFlags).1 = r.fontId
  text : ∀ r ∈ t.runs platform,
    r.text = (RowText.columns r).map fun x => shapeChar (t.row.cell x).c
  /-- A glyph is drawn at the column of the cell that its cluster falls in. -/
  drawn : ∀ r ∈ t.runs platform, r.stop ≤ 2 ^ 16 → ∀ glyphs,
    d.shape r.fontId r.styleFlags r.text = some glyphs →
      ∃ cells, List.Forall₂ (fun g i => InCell platform r.text i g.cluster) glyphs cells ∧
        d.drawRun platform t r glyphs = (glyphs.zip cells).filterMap fun e =>
          d.glyphAt t r e.1.id (.ofNat (r.start + e.2)) (r.start + e.2)

theorem exists_starts {text : List Char} {glyphs : List ShapedGlyph}
    (hsorted : (glyphs.map ShapedGlyph.cluster).Pairwise (· ≤ ·))
    (hstarts : ∀ g ∈ glyphs, ∃ i < text.length, g.cluster = textOffset platform text i) :
    ∃ cells, Starts platform text glyphs cells := by
  induction glyphs with
  | nil => exact ⟨[], .nil, .nil⟩
  | cons g glyphs ih =>
    rw [List.map_cons, List.pairwise_cons] at hsorted
    obtain ⟨hlater, hsorted⟩ := hsorted
    obtain ⟨cells, hcells⟩ := ih hsorted fun g' hg' => hstarts g' (List.mem_cons_of_mem g hg')
    obtain ⟨i, hi, hcluster⟩ := hstarts g List.mem_cons_self
    refine ⟨i :: cells, .cons ⟨hi, hcluster⟩ hcells.1,
      List.pairwise_cons.mpr ⟨fun j hj => ?_, hcells.2⟩⟩
    obtain ⟨hjlt, hmem⟩ := hcells.mem hj
    have hle := hlater _ hmem
    rw [hcluster] at hle
    exact (textOffset_le_iff hi.le hjlt.le).mp hle

theorem drawGlyph_eq (d : Drawing K) {t : RowText} {r : Run} (id : UInt16) {i : ℕ}
    (hcols : r.start + i < t.cols) (hfits : r.start + i < 2 ^ 16) :
    d.drawGlyph t r (id, i) = d.glyphAt t r id (.ofNat (r.start + i)) (r.start + i) := by
  have hcol : min (r.start % 2 ^ 16 + i) (2 ^ 16 - 1) = r.start + i := by
    rw [Nat.mod_eq_of_lt (by omega), min_eq_left (by omega)]
  unfold drawGlyph
  dsimp only
  rw [hcol, if_neg hcols.not_ge, min_eq_left (by omega)]

/-- One glyph for each character, without colors. -/
def plainDrawing : Drawing Unit where
  shape _ _ text :=
    some ((List.range text.length).map fun i => ⟨.ofNat i, textOffset .other text i⟩)
  ensureGlyph _ _ := some (⟨0, 0, 1, 1, 0, 0⟩, false)
  white := ()
  fg _ := ()

/-- A row with the given cells, in one style and one font. -/
def plainRow (cells : List Square) : RowText where
  row := .fromVec cells cells.length
  cols := cells.length
  y := 0
  rowStyles := []
  fontLibrary _ _ := (fontIdRegular, false)
  cursorCol := none

/-- A character with the combining characters after it. -/
def graphemeOf (extras : ExtrasTable) (sq : Square) : List Char :=
  sq.c :: ((sq.extrasId.bind extras.get).map Extras.zerowidth).getD []

/-- A letter with a combining accent in the first slot of the extras. -/
def accented : Square := { c := 'e', flags := { grapheme := true }, hi := 1 }

end Drawing
end Rio.GridEmit
