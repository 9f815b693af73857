import Rio.Hints.Matches
import Rio.Crosswords.ViSearch

/-! Which columns the matches in label mode are recorded with. The library counts bytes, and the
grid has a column for each character of a line. -/

set_option linter.dupNamespace false

namespace Rio.Hints
open Rio.Checked

/-! ### Bytes and characters -/

/-- Each character is a single byte. -/
def Ascii (text : List Char) : Prop := ∀ c ∈ text, c.utf8Size = 1

instance (text : List Char) : Decidable (Ascii text) := List.decidableBAll _ _

variable {text text' : List Char}

theorem utf8Len_append (text text' : List Char) :
    utf8Len (text ++ text') = utf8Len text + utf8Len text' := by
  simp [utf8Len]

theorem length_le_utf8Len (text : List Char) : text.length ≤ utf8Len text := by
  induction text with
  | nil => exact le_rfl
  | cons c text ih =>
    have hpos := c.utf8Size_pos
    simp only [utf8Len, List.map_cons, List.sum_cons, List.length_cons] at ih ⊢
    omega

theorem utf8Len_eq_length_iff : utf8Len text = text.length ↔ Ascii text := by
  induction text with
  | nil => simp [utf8Len, Ascii]
  | cons c text ih =>
    have hpos := c.utf8Size_pos
    have hle := length_le_utf8Len text
    unfold Ascii at ih ⊢
    rw [List.forall_mem_cons, ← ih]
    simp only [utf8Len, List.map_cons, List.sum_cons, List.length_cons] at hle ⊢
    omega

theorem ascii_append : Ascii (text ++ text') ↔ Ascii text ∧ Ascii text' :=
  List.forall_mem_append

/-! ### The text of a line -/

variable {g : Grid Square} {line : ℤ}

/-- The characters of some columns of a line. -/
def columnsText (g : Grid Square) (line : ℤ) (start n : ℕ) : List Char :=
  (List.range' start n).map fun col => (g.cell ⟨line, col⟩).c

theorem columnsText_append (g : Grid Square) (line : ℤ) (start m n : ℕ) :
    columnsText g line start (m + n) =
      columnsText g line start m ++ columnsText g line (start + m) n := by
  unfold columnsText
  rw [← List.map_append, List.range'_append_1]

theorem extractLineText_front (g : Grid Square) (line : ℤ) :
    extractLineText g line <+: columnsText g line 0 g.columns := by
  unfold extractLineText trimEnd columnsText
  rw [← List.range_eq_range']
  exact List.rdropWhile_prefix _ _

/-- A part of the text of a line is what the columns at its place hold. -/
theorem columnsText_eq {before part after : List Char}
    (h : before ++ part ++ after = extractLineText g line) :
    columnsText g line before.length part.length = part ∧
      before.length + part.length ≤ g.columns := by
  obtain ⟨rest, hrest⟩ := extractLineText_front g line
  rw [← h] at hrest
  have hlength := congrArg List.length hrest
  simp only [columnsText, List.length_append, List.length_map, List.length_range'] at hlength
  refine ⟨?_, by omega⟩
  rw [show g.columns = before.length + (part.length +
      (g.columns - (before.length + part.length))) by omega, columnsText_append,
    columnsText_append, List.append_assoc, List.append_assoc, Nat.zero_add] at hrest
  have hbefore := List.append_inj hrest (by simp [columnsText])
  exact (List.append_inj hbefore.2 (by simp [columnsText])).1.symm

/-! ### The columns of a match -/

theorem postProcessHyperlinkUri_front (text : List Char) :
    postProcessHyperlinkUri text <+: text := by
  unfold postProcessHyperlinkUri
  split_ifs with hnil
  · exact List.nil_prefix
  · exact List.take_prefix _ _

/-- What is left of the text of a range. -/
def shortened (hint : Hint) (matched : List Char) : List Char :=
  if hint.postProcessing then postProcessHyperlinkUri matched else matched

theorem shortened_front (hint : Hint) (matched : List Char) :
    shortened hint matched <+: matched := by
  unfold shortened
  split_ifs
  · exact postProcessHyperlinkUri_front matched
  · exact List.prefix_rfl

/-- A match has text from the front of a range, and the columns of the first and the last cell of
that text; the cells from the one to the other, all of which exist, hold the text. -/
structure Recorded (g : Grid Square) (line : ℤ) (r : ByteRange (extractLineText g line))
    (m : HintMatch) : Prop where
  nonempty : m.text ≠ []
  text : m.text <+: r.matched
  start : m.start = ⟨line, r.before.length⟩
  stop : m.stop = ⟨line, r.before.length + (m.text.length - 1)⟩
  inside : m.stop.col < g.columns
  reads : columnsText g line m.start.col (m.stop.col + 1 - m.start.col) = m.text

/-- Text from the front of a range is recorded if its columns are right. -/
theorem recorded_of_columns {r : ByteRange (extractLineText g line)} {m : HintMatch}
    (hnonempty : m.text ≠ []) (htext : m.text <+: r.matched)
    (hstart : m.start = ⟨line, r.before.length⟩)
    (hstop : m.stop = ⟨line, r.before.length + (m.text.length - 1)⟩) : Recorded g line r m := by
  obtain ⟨rest, hrest⟩ := htext
  have hsplit : r.before ++ m.text ++ (rest ++ r.after) = extractLineText g line := by
    refine Eq.trans ?_ r.split
    rw [← hrest, List.append_assoc, List.append_assoc, List.append_assoc]
  obtain ⟨hreads, hle⟩ := columnsText_eq hsplit
  have hpos := List.length_pos_of_ne_nil hnonempty
  refine ⟨hnonempty, ⟨rest, hrest⟩, hstart, hstop, ?_, ?_⟩
  · rw [hstop]
    dsimp only
    omega
  · rw [hstart, hstop]
    dsimp only
    rw [show r.before.length + (m.text.length - 1) + 1 - r.before.length = m.text.length by omega]
    exact hreads

theorem start_eq_iff (r : ByteRange text) : r.start = r.before.length ↔ Ascii r.before :=
  utf8Len_eq_length_iff

theorem recorded_regexMatch_iff (hint : Hint) (r : ByteRange (extractLineText g line)) :
    Recorded g line r (regexMatch hint line r) ↔
      shortened hint r.matched ≠ [] ∧ Ascii (r.before ++ shortened hint r.matched) := by
  rw [ascii_append]
  constructor
  · intro h
    have hnonempty : shortened hint r.matched ≠ [] := h.nonempty
    have hbefore : r.start = r.before.length := congrArg Pos.col h.start
    have hlast : r.start + (utf8Len (shortened hint r.matched) - 1) =
        r.before.length + ((shortened hint r.matched).length - 1) := congrArg Pos.col h.stop
    have hpos := List.length_pos_of_ne_nil hnonempty
    have hle := length_le_utf8Len (shortened hint r.matched)
    exact ⟨hnonempty, (start_eq_iff r).mp hbefore, utf8Len_eq_length_iff.mp (by omega)⟩
  · rintro ⟨hnonempty, hbefore, htext⟩
    have hstart := (start_eq_iff r).mpr hbefore
    refine recorded_of_columns hnonempty (shortened_front hint r.matched) ?_ ?_
    · exact congrArg (Pos.mk line) hstart
    · show (⟨line, r.start + (utf8Len (shortened hint r.matched) - 1)⟩ : Pos) = _
      rw [hstart, utf8Len_eq_length_iff.mpr htext]
      rfl

/-! ### Label mode -/

/-- The ranges that a regular expression finds in some lines. -/
def lineRanges (g : Grid Square) (regex : Regex) (lines : List ℤ) :
    List ((line : ℤ) × ByteRange (extractLineText g line)) :=
  lines.flatMap fun line => (regex (extractLineText g line)).map (Sigma.mk line)

/-- The matches in label mode are those on the visible lines, all of them, with their columns. -/
def LabelsRecorded (g : Grid Square) (regex : Regex) (hint : Hint) : Prop :=
  List.Forall₂ (fun x m => Recorded g x.1 x.2 m) (lineRanges g regex (visibleLines g))
    (findRegexMatches g regex hint)

theorem findRegexMatches_eq (g : Grid Square) (regex : Regex) (hint : Hint) :
    findRegexMatches g regex hint =
      ((lineRanges g regex (visibleLines g)).filter fun x => scanned g x.1).map
        fun x => regexMatch hint x.1 x.2 := by
  unfold findRegexMatches scannedLines
  induction visibleLines g with
  | nil => rfl
  | cons line lines ih =>
    unfold lineRanges at ih ⊢
    have hfirst : ((regex (extractLineText g line)).map (Sigma.mk line)).filter
        (fun x : (line : ℤ) × ByteRange (extractLineText g line) => scanned g x.1) =
          if scanned g line then (regex (extractLineText g line)).map (Sigma.mk line) else [] := by
      split_ifs with hscanned
      · exact List.filter_eq_self.mpr (List.forall_mem_map.mpr fun _ _ => hscanned)
      · exact List.filter_eq_nil_iff.mpr (List.forall_mem_map.mpr fun _ _ => hscanned)
    rw [List.flatMap_cons, List.filter_append, List.map_append, ← ih, hfirst, List.filter_cons]
    split_ifs
    · rw [List.flatMap_cons, List.map_map]
      rfl
    · rfl

theorem scanned_of_mem {x : ℤ} (h : g.Sound False) (hx : x ∈ visibleLines g) :
    scanned g x = true ↔ 0 ≤ x := by
  obtain ⟨k, hk, rfl⟩ := List.mem_map.mp hx
  have hlt := List.mem_range.mp hk
  have hfilled := h.wellFormed.filled
  unfold scanned
  rw [Bool.not_eq_true', Bool.or_eq_false_iff, decide_eq_false_iff_not, decide_eq_false_iff_not]
  omega

/-- Label mode records the matches of the visible lines if and only if those are lines of the
screen, with single bytes up to the end of what is recorded, which is not empty. -/
theorem labelsRecorded_iff (h : g.Sound False) (regex : Regex) (hint : Hint) :
    LabelsRecorded g regex hint ↔ ∀ line ∈ visibleLines g, ∀ r ∈ regex (extractLineText g line),
      0 ≤ line ∧ shortened hint r.matched ≠ [] ∧
        Ascii (r.before ++ shortened hint r.matched) := by
  have hranges : LabelsRecorded g regex hint ↔ ∀ x ∈ lineRanges g regex (visibleLines g),
      scanned g x.1 = true ∧ Recorded g x.1 x.2 (regexMatch hint x.1 x.2) := by
    unfold LabelsRecorded
    rw [findRegexMatches_eq]
    constructor
    · intro hall
      have hlength := hall.length_eq
      rw [List.length_map] at hlength
      have hscanned := List.length_filter_eq_length_iff.mp hlength.symm
      rw [List.filter_eq_self.mpr hscanned, List.forall₂_map_right_iff, List.forall₂_same] at hall
      exact fun x hx => ⟨hscanned x hx, hall x hx⟩
    · intro hall
      rw [List.filter_eq_self.mpr fun x hx => (hall x hx).1, List.forall₂_map_right_iff,
        List.forall₂_same]
      exact fun x hx => (hall x hx).2
  rw [hranges]
  constructor
  · intro hall line hline r hr
    have hmem : (⟨line, r⟩ : (line : ℤ) × ByteRange (extractLineText g line)) ∈
        lineRanges g regex (visibleLines g) :=
      List.mem_flatMap.mpr ⟨line, hline, List.mem_map_of_mem hr⟩
    obtain ⟨hscanned, hrecorded⟩ := hall _ hmem
    exact ⟨(scanned_of_mem h hline).mp hscanned, (recorded_regexMatch_iff hint r).mp hrecorded⟩
  · intro hall x hx
    obtain ⟨line, hline, hmem⟩ := List.mem_flatMap.mp hx
    obtain ⟨r, hr, rfl⟩ := List.mem_map.mp hmem
    obtain ⟨hnonneg, hrecorded⟩ := hall line hline r hr
    exact ⟨(scanned_of_mem h hline).mpr hnonneg, (recorded_regexMatch_iff hint r).mpr hrecorded⟩

end Rio.Hints
