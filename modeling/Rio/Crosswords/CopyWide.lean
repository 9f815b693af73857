import Rio.Crosswords.Copy
import Rio.Crosswords.LineEdits
import Rio.Selection.Cover

/-! Copying a wide character that was pushed to the next row. -/

set_option linter.dupNamespace false

namespace Rio
open Rio.Checked

namespace Row

variable {r : Row Square}

theorem lineLength_le : r.lineLength ≤ r.len := by
  unfold lineLength
  split_ifs
  · exact le_rfl
  · split
    · exact Nat.sub_le _ _
    · exact Nat.zero_le _

/-- All cells of a line are occupied if the last one is. -/
theorem lineLength_eq_len_iff (hlen : 0 < r.len) : r.lineLength = r.len ↔
    (r.cell (r.len - 1)).wrapline = true ∨ (r.cell (r.len - 1)).c ≠ '\x00' ∨
      (r.cell (r.len - 1)).hasExtras = true := by
  obtain ⟨cells, last, hcells⟩ : ∃ cells last, r.inner = cells ++ [last] := by
    have hne : r.inner ≠ [] := List.ne_nil_of_length_pos hlen
    exact ⟨r.inner.dropLast, r.inner.getLast hne, (List.dropLast_append_getLast hne).symm⟩
  have hcell : r.cell (r.len - 1) = last := by
    unfold cell len
    rw [hcells, List.length_append, List.length_singleton, Nat.add_sub_cancel]
    simp
  unfold lineLength
  rw [hcell]
  by_cases hwrap : last.wrapline = true
  · rw [if_pos hwrap]
    exact iff_of_true rfl (.inl hwrap)
  · rw [if_neg hwrap, or_iff_right hwrap, hcells, List.reverse_append, List.reverse_singleton,
      List.singleton_append, List.findIdx?_cons]
    by_cases hoccupied : last.c ≠ '\x00' ∨ last.hasExtras = true
    · have htrue : (decide (last.c ≠ '\x00') || last.hasExtras) = true := by simpa using hoccupied
      rw [htrue]
      exact iff_of_true rfl hoccupied
    · have hfalse : (decide (last.c ≠ '\x00') || last.hasExtras) = false := by
        simpa using hoccupied
      rw [hfalse]
      refine iff_of_false ?_ hoccupied
      cases hrest : cells.reverse.findIdx? fun cell => cell.c ≠ '\x00' || cell.hasExtras with
      | none =>
        simp only [Bool.false_eq_true, if_false, Option.map_none]
        exact hlen.ne
      | some index =>
        simp only [Bool.false_eq_true, if_false, Option.map_some]
        omega

end Row

namespace Crosswords

variable {t : Crosswords} {ty : SelectionType} {range : SelectionRange} {line : ℤ}

/-- The first character of the row after a line. -/
def wideAfter (t : Crosswords) (line : ℤ) : Outcome Char := do
  let row ← t.grid.readRow (line + 1)
  return (row.cell 0).c

/-- A line ends with a leading spacer, which is written as a space and wraps the line. -/
def EndsOnSpacer (t : Crosswords) (line : ℤ) : Prop :=
  let cell := t.grid.cell ⟨line, t.grid.lastColumn⟩
  cell.wide = .leadingSpacer ∧
    (cell.wrapline = true ∨ cell.c ≠ '\x00' ∨ cell.hasExtras = true)

instance (t : Crosswords) (line : ℤ) : Decidable (t.EndsOnSpacer line) :=
  inferInstanceAs (Decidable (_ ∧ _))

/-- A leading spacer is the last cell of a line of a range that the range covers, and the wide
character is not covered. -/
def Owes (t : Crosswords) (ty : SelectionType) (range : SelectionRange) (line : ℤ) : Prop :=
  range.stop.col = t.grid.lastColumn ∧ t.EndsOnSpacer line ∧
    (line = range.stop.row ∨ ty = .block ∧ range.start.col ≠ 0 ∧ range.start.row ≤ line ∧
      line < range.stop.row)

/-- The first column that a range covers of a line. -/
def firstColumn (ty : SelectionType) (range : SelectionRange) (line : ℤ) : ℕ :=
  if ty = .block ∨ line = range.start.row then range.start.col else 0

/-- No covered line starts in its first column with the second half of a wide character. -/
def Whole (t : Crosswords) (ty : SelectionType) (range : SelectionRange) : Prop :=
  ∀ line, range.start.row ≤ line → line ≤ range.stop.row → firstColumn ty range line = 0 →
    (t.grid.cell ⟨line, 0⟩).wide ≠ .spacer

/-- The text of a range has the wide characters of the rows that follow its leading spacers, none
of which the range covers itself. -/
structure CopiesWide (t : Crosswords) (ty : SelectionType) (range : SelectionRange) : Prop where
  safe : Safe (copyRangeWith t.wideAfter t ty range)
  text : t.copyRange ty range = copyRangeWith t.wideAfter t ty range
  once : ∀ line, t.Owes ty range line → range.contains ⟨line + 1, 0⟩ = false

/-- What the cells of a line that a range covers add. -/
def ownCells (t : Crosswords) (line : ℤ) (start stop blankCells : ℕ) : Appended :=
  let row := t.grid.row line
  let start := if (row.cell start).wide = .spacer then start - 1 else start
  (List.range' start (min row.lineLength (stop + 1) - start)).foldl (t.appendCell row)
    { blankCells := blankCells }

theorem readRow_of (htop : t.grid.topmostLine ≤ line) (hline : line < t.grid.lines) :
    t.grid.readRow line = .ok (t.grid.row line) := if_pos ⟨htop, hline⟩

/-- A leading spacer is reached where the columns go to the last one. -/
theorem full_iff (h : t.Sound False) (htop : t.grid.topmostLine ≤ line)
    (hline : line < t.grid.lines) {stop : ℕ} (hstop : stop < t.grid.columns) :
    min (t.grid.row line).lineLength (stop + 1) = t.grid.columns ∧
        2 ≤ min (t.grid.row line).lineLength (stop + 1) ∧
        ((t.grid.row line).cell (min (t.grid.row line).lineLength (stop + 1) - 1)).wide =
          .leadingSpacer ↔
      stop = t.grid.lastColumn ∧ t.EndsOnSpacer line := by
  have hlen : (t.grid.row line).len = t.grid.columns :=
    Grid.row_len h.grid.wellFormed htop hline
  have hcolumns := h.grid.columns_ge
  have hlast : t.grid.lastColumn = t.grid.columns - 1 := rfl
  have hfull := Row.lineLength_eq_len_iff (r := t.grid.row line) (by omega)
  have hle : (t.grid.row line).lineLength ≤ (t.grid.row line).len := Row.lineLength_le
  rw [hlen] at hfull hle
  unfold EndsOnSpacer
  dsimp only
  rw [hlast]
  have hcell : t.grid.cell ⟨line, t.grid.columns - 1⟩ =
      (t.grid.row line).cell (t.grid.columns - 1) := rfl
  rw [hcell, ← hfull]
  constructor
  · rintro ⟨hmin, -, hwide⟩
    rw [hmin] at hwide
    exact ⟨by omega, hwide, by omega⟩
  · rintro ⟨hstop', hwide, hfull'⟩
    have hmin : min (t.grid.row line).lineLength (stop + 1) = t.grid.columns := by omega
    rw [hmin]
    exact ⟨rfl, hcolumns, hwide⟩

/-- One line of a range. -/
theorem appendCellsWith_eq (h : t.Sound False) (next : ℤ → Outcome Char)
    (htop : t.grid.topmostLine ≤ line) (hline : line < t.grid.lines) {start stop : ℕ}
    (hstart : start < t.grid.columns) (hstop : stop < t.grid.columns) (wrapped : Bool)
    (blankCells : ℕ) : appendCellsWith next t line start stop wrapped blankCells =
      if start = 0 ∧ (t.grid.cell ⟨line, 0⟩).wide = .spacer then .error .overflow
      else if (stop = t.grid.lastColumn ∧ t.EndsOnSpacer line) ∧ wrapped = true then do
        let c ← next line
        return (t.ownCells line start stop blankCells).push [c]
      else .ok (t.ownCells line start stop blankCells) := by
  have hfirst : t.withWide (t.grid.row line) start =
      if start = 0 ∧ (t.grid.cell ⟨line, 0⟩).wide = .spacer then .error .overflow
      else .ok (if ((t.grid.row line).cell start).wide = .spacer then start - 1 else start) := by
    have hcell : t.grid.cell ⟨line, 0⟩ = (t.grid.row line).cell 0 := rfl
    unfold withWide
    rw [hcell]
    by_cases hspacer : ((t.grid.row line).cell start).wide = .spacer
    · rw [if_pos ⟨hstart, hspacer⟩, if_pos hspacer]
      by_cases hzero : start = 0
      · rw [hzero] at hspacer ⊢
        rw [if_pos ⟨rfl, hspacer⟩]
        rfl
      · rw [if_neg fun h => hzero h.1, sub_of_le (Nat.one_le_iff_ne_zero.mpr hzero)]
    · rw [if_neg fun h => hspacer h.2, if_neg hspacer, if_neg]
      rintro ⟨hzero, h⟩
      rw [hzero] at hspacer
      exact hspacer h
  unfold appendCellsWith
  rw [readRow_of htop hline, ok_bind]
  dsimp only
  rw [hfirst]
  by_cases hzero : start = 0 ∧ (t.grid.cell ⟨line, 0⟩).wide = .spacer
  · rw [if_pos hzero, if_pos hzero]
    rfl
  · rw [if_neg hzero, if_neg hzero, ok_bind]
    have hfull := full_iff h htop hline hstop
    refine if_congr ?_ rfl rfl
    rw [← hfull, and_assoc, and_assoc]

/-! ### Text -/

theorem stripNewline_inj {text : List Char} {c c' : Char} {rest : List Char}
    (hrest : rest = [] ∨ rest = ['\n'])
    (heq : stripNewline (text ++ [c] ++ rest) = stripNewline (text ++ [c'] ++ rest)) : c = c' := by
  unfold stripNewline at heq
  obtain rfl | rfl := hrest
  · simp only [List.append_nil, List.getLast?_append, List.getLast?_singleton, Option.some_or,
      Option.some.injEq, List.dropLast_concat] at heq
    by_cases hc : c = '\n'
    · by_cases hc' : c' = '\n'
      · rw [hc, hc']
      · rw [if_pos hc, if_neg hc'] at heq
        exact absurd (congrArg List.length heq) (by simp)
    · by_cases hc' : c' = '\n'
      · rw [if_neg hc, if_pos hc'] at heq
        exact absurd (congrArg List.length heq) (by simp)
      · rw [if_neg hc, if_neg hc'] at heq
        simpa using heq
  · simpa using heq

/-- The wide character at the end of a text can be told from the text. -/
theorem add_push_inj {s : Copied} {row : Appended} {endsLine : Bool} {c c' : Char}
    (heq : stripNewline (s.add (row.push [c]) endsLine).text =
      stripNewline (s.add (row.push [c']) endsLine).text) : c = c' := by
  have htext (c : Char) : (s.add (row.push [c]) endsLine).text =
      s.text ++ List.replicate s.blankRows '\n' ++ (row.text ++ List.replicate row.blankCells ' ') ++
        [c] ++ if endsLine then ['\n'] else [] := by
    unfold Copied.add Appended.push
    simp only [Bool.not_true, Bool.false_eq_true, if_false, List.append_assoc]
  rw [htext, htext] at heq
  refine stripNewline_inj ?_ heq
  split_ifs
  · exact .inr rfl
  · exact .inl rfl

theorem wraps_of (htop : t.grid.topmostLine ≤ line) (hline : line < t.grid.lines) :
    t.wraps line = .ok ((t.grid.row line).cell t.grid.lastColumn).wrapline := by
  unfold wraps
  rw [readRow_of htop hline]
  rfl

/-- The line before is in the range and goes on in this line. -/
def continues (t : Crosswords) (start : Pos) (line : ℤ) : Bool :=
  start.row < line && (t.grid.cell ⟨line - 1, t.grid.lastColumn⟩).wrapline

/-- What a line of a range adds, whatever comes before. -/
theorem boundsStep_eq {start stop : Pos} (next : ℤ → Outcome Char) (s : Copied)
    (htop : t.grid.topmostLine ≤ start.row) (hstart : start.row ≤ line)
    (hline : line < t.grid.lines) :
    boundsStep next t start stop s line = (appendCellsWith next t line
      (if line = start.row then start.col else 0)
      (if line = stop.row then stop.col else t.grid.lastColumn) (line = stop.row)
      (if t.continues start line then s.blankCells else 0)) >>= fun row =>
        .ok (s.add row (t.grid.lastColumn ≤ (if line = stop.row then stop.col else
          t.grid.lastColumn) && !(t.grid.cell ⟨line, t.grid.lastColumn⟩).wrapline)) := by
  have hwraps := wraps_of (htop.trans hstart) hline
  have hcontinued : t.isWrapContinuation start line = .ok (t.continues start line) := by
    unfold isWrapContinuation continues
    by_cases hfirst : start.row < line
    · have hbefore : t.wraps (line - 1) = _ := wraps_of (by omega) (by omega)
      rw [if_pos hfirst, hbefore, decide_eq_true hfirst, Bool.true_and]
      rfl
    · rw [if_neg hfirst, decide_eq_false hfirst]
      rfl
  unfold boundsStep
  rw [hcontinued, ok_bind]
  refine bind_congr fun row => ?_
  rw [hwraps, ok_bind]
  rfl

/-- A line of a range that is not its last one. -/
theorem boundsStep_inner (h : t.Sound False) {start stop : Pos} (hstart : t.grid.HasCell start)
    (hfirst : start.row ≤ line) (hlast : line < stop.row) (hstop : t.grid.HasCell stop)
    (next next' : ℤ → Outcome Char) (s : Copied) :
    boundsStep next t start stop s line = boundsStep next' t start stop s line ∧
      (Safe (boundsStep next t start stop s line) ↔
        ((if line = start.row then start.col else 0) = 0 →
          (t.grid.cell ⟨line, 0⟩).wide ≠ .spacer)) := by
  have hcolumns := h.grid.columns_ge
  have hline : line < t.grid.lines := hlast.trans hstop.2.1
  have hstep (next : ℤ → Outcome Char) := @boundsStep_eq t line start stop next s hstart.1 hfirst hline
  have hfrom : (if line = start.row then start.col else 0) < t.grid.columns := by
    have hcol := hstart.2.2
    split_ifs
    · exact hcol
    · omega
  have hto : t.grid.lastColumn < t.grid.columns := h.lastColumn_lt
  have hnot : decide (line = stop.row) = false := decide_eq_false hlast.ne
  have hcells (next : ℤ → Outcome Char) := appendCellsWith_eq h next (hstart.1.trans hfirst) hline
    hfrom hto false (if t.continues start line then s.blankCells else 0)
  simp only [Bool.false_eq_true, and_false, if_false] at hcells
  rw [hstep, hstep, if_neg hlast.ne, hnot, hcells, hcells]
  refine ⟨rfl, ?_⟩
  generalize (if line = start.row then start.col else 0) = col
  generalize (if t.continues start line then s.blankCells else 0) = blankCells
  split_ifs with hspacer
  · refine iff_of_false ?_ fun hwhole => hwhole hspacer.1 hspacer.2
    exact not_safe_error _
  · rw [ok_bind]
    refine iff_of_true (safe_ok _) fun hzero hwide => hspacer ⟨hzero, hwide⟩

/-- The last line of a range, with the wide character that it owes. -/
theorem boundsStep_last (h : t.Sound False) {start stop : Pos} (hstart : t.grid.HasCell start)
    (hle : start.row ≤ stop.row) (hstop : t.grid.HasCell stop) :
    ∃ (blankCells : Copied → ℕ) (endsLine : Bool), ∀ next s,
      boundsStep next t start stop s stop.row =
        if (if stop.row = start.row then start.col else 0) = 0 ∧
            (t.grid.cell ⟨stop.row, 0⟩).wide = .spacer then .error .overflow
        else if stop.col = t.grid.lastColumn ∧ t.EndsOnSpacer stop.row then
          next stop.row >>= fun c => .ok (s.add ((t.ownCells stop.row
            (if stop.row = start.row then start.col else 0) stop.col (blankCells s)).push [c])
            endsLine)
        else .ok (s.add (t.ownCells stop.row (if stop.row = start.row then start.col else 0)
          stop.col (blankCells s)) endsLine) := by
  have hcolumns := h.grid.columns_ge
  have hstep (next : ℤ → Outcome Char) (s : Copied) :=
    @boundsStep_eq t stop.row start stop next s hstart.1 hle hstop.2.1
  have hfrom : (if stop.row = start.row then start.col else 0) < t.grid.columns := by
    have hcol := hstart.2.2
    split_ifs
    · exact hcol
    · omega
  refine ⟨fun s => if t.continues start stop.row then s.blankCells else 0,
    t.grid.lastColumn ≤ stop.col && !(t.grid.cell ⟨stop.row, t.grid.lastColumn⟩).wrapline,
    fun next s => ?_⟩
  have hcells := appendCellsWith_eq h next hstop.1 hstop.2.1 hfrom hstop.2.2 true
    (if t.continues start stop.row then s.blankCells else 0)
  simp only [and_true] at hcells
  rw [hstep, if_pos rfl, decide_eq_true rfl, hcells]
  dsimp only
  generalize (if stop.row = start.row then start.col else 0) = col
  generalize (if t.continues start stop.row then s.blankCells else 0) = blankCells
  split_ifs
  · rfl
  · cases next stop.row with
    | error e => rfl
    | ok c => rfl
  · rfl

/-- The text of a range that is not a block goes wrong only in its last line. -/
theorem bounds_iff (h : t.Sound False) {start stop : Pos} (hstart : t.grid.HasCell start)
    (hle : start.row ≤ stop.row) (hstop : t.grid.HasCell stop) (next next' : ℤ → Outcome Char) :
    (Safe (boundsToStringWith next t start stop) ∧
      boundsToStringWith next' t start stop = boundsToStringWith next t start stop) ↔
      (∀ line, start.row ≤ line → line ≤ stop.row →
        (if line = start.row then start.col else 0) = 0 →
          (t.grid.cell ⟨line, 0⟩).wide ≠ .spacer) ∧
        (stop.col = t.grid.lastColumn → t.EndsOnSpacer stop.row →
          Safe (next stop.row) ∧ next' stop.row = next stop.row) := by
  obtain ⟨blankCells, endsLine, hlast⟩ := boundsStep_last h hstart hle hstop
  have hinner (next next' : ℤ → Outcome Char) (s : Copied) (line : ℤ)
      (hline : line ∈ lineRange start.row stop.row) :=
    boundsStep_inner h hstart (mem_lineRange.mp hline).1 (mem_lineRange.mp hline).2 hstop next
      next' s
  have hfirst : Safe ((lineRange start.row stop.row).foldlM (boundsStep next t start stop) {}) ↔
      ∀ line ∈ lineRange start.row stop.row, (if line = start.row then start.col else 0) = 0 →
        (t.grid.cell ⟨line, 0⟩).wide ≠ .spacer :=
    safe_foldlM_iff fun s line hline => (hinner next next s line hline).2
  have hsame : (lineRange start.row stop.row).foldlM (boundsStep next' t start stop) {} =
      (lineRange start.row stop.row).foldlM (boundsStep next t start stop) {} :=
    foldlM_congr fun s line hline => (hinner next' next s line hline).1
  have hsplit (next : ℤ → Outcome Char) : boundsToStringWith next t start stop =
      ((lineRange start.row stop.row).foldlM (boundsStep next t start stop) {}) >>= fun s =>
        boundsStep next t start stop s stop.row >>= fun s => .ok (stripNewline s.text) := by
    unfold boundsToStringWith
    rw [lineRange_concat hle, List.foldlM_append, bind_assoc]
    refine bind_congr fun s => ?_
    rw [List.foldlM_cons, bind_assoc]
    refine bind_congr fun s' => ?_
    rfl
  rw [hsplit, hsplit, hsame]
  generalize (lineRange start.row stop.row).foldlM (boundsStep next t start stop) {} = first
    at hfirst
  constructor
  · rintro ⟨⟨text, htext⟩, heq⟩
    obtain ⟨s, hs, htext⟩ := ok_of_bind htext
    have hclean := hfirst.mp ⟨s, hs⟩
    rw [hs, ok_bind, ok_bind, hlast, hlast] at heq
    rw [hlast] at htext
    by_cases hspacer : (if stop.row = start.row then start.col else 0) = 0 ∧
        (t.grid.cell ⟨stop.row, 0⟩).wide = .spacer
    · rw [if_pos hspacer] at htext
      cases htext
    rw [if_neg hspacer] at htext
    rw [if_neg hspacer, if_neg hspacer] at heq
    refine ⟨fun line hline hline' hcol hwide => ?_, fun hcol hends => ?_⟩
    · obtain hlt | rfl := lt_or_eq_of_le hline'
      · exact hclean line (mem_lineRange.mpr ⟨hline, hlt⟩) hcol hwide
      · exact hspacer ⟨hcol, hwide⟩
    · have howes : stop.col = t.grid.lastColumn ∧ t.EndsOnSpacer stop.row := ⟨hcol, hends⟩
      rw [if_pos howes] at htext
      rw [if_pos howes, if_pos howes] at heq
      obtain ⟨s', hs', -⟩ := ok_of_bind htext
      obtain ⟨c, hc, -⟩ := ok_of_bind hs'
      rw [hc, ok_bind, ok_bind] at heq
      obtain ⟨s'', hs'', hstrip⟩ := ok_of_bind heq
      obtain ⟨c', hc', hadd⟩ := ok_of_bind hs''
      rw [hc, hc']
      refine ⟨safe_ok c, congrArg Except.ok ?_⟩
      rw [← Except.ok.inj hadd] at hstrip
      exact add_push_inj (Except.ok.inj hstrip)
  · rintro ⟨hclean, howes⟩
    obtain ⟨s, hs⟩ := hfirst.mpr fun line hline => by
      obtain ⟨hle, hlt⟩ := mem_lineRange.mp hline
      exact hclean line hle hlt.le
    have hspacer : ¬((if stop.row = start.row then start.col else 0) = 0 ∧
        (t.grid.cell ⟨stop.row, 0⟩).wide = .spacer) :=
      fun hspacer => hclean stop.row hle le_rfl hspacer.1 hspacer.2
    rw [hs, ok_bind, ok_bind, hlast, hlast, if_neg hspacer, if_neg hspacer]
    by_cases hends : stop.col = t.grid.lastColumn ∧ t.EndsOnSpacer stop.row
    · obtain ⟨⟨c, hc⟩, heq⟩ := howes hends.1 hends.2
      rw [if_pos hends, if_pos hends, heq, hc]
      exact ⟨safe_ok _, rfl⟩
    · rw [if_neg hends, if_neg hends]
      exact ⟨safe_ok _, rfl⟩

/-! ### Blocks -/

/-- A line of a block; all but the last one end with a newline. -/
theorem blockLine_iff (h : t.Sound False) {start stop : Pos} (hstart : start.col < t.grid.columns)
    (hstop : stop.col < t.grid.columns) (htop : t.grid.topmostLine ≤ line)
    (hline : line < t.grid.lines) (wrapped : Bool) (newline : List Char)
    (next next' : ℤ → Outcome Char) :
    let text (next : ℤ → Outcome Char) : Outcome (List Char) :=
      lineToString next t line start.col stop.col wrapped >>= fun row => .ok (row ++ newline)
    (∀ a b, text next = .ok a → text next' = .ok b → a.length = b.length) ∧
      ((Safe (text next) ∧ text next' = text next) ↔
        (start.col = 0 → (t.grid.cell ⟨line, 0⟩).wide ≠ .spacer) ∧
          (stop.col = t.grid.lastColumn → t.EndsOnSpacer line → wrapped = true →
            Safe (next line) ∧ next' line = next line)) := by
  intro text
  have htext (next : ℤ → Outcome Char) : text next =
      if start.col = 0 ∧ (t.grid.cell ⟨line, 0⟩).wide = .spacer then .error .overflow
      else if (stop.col = t.grid.lastColumn ∧ t.EndsOnSpacer line) ∧ wrapped = true then
        next line >>= fun c =>
          .ok (((t.ownCells line start.col stop.col 0).push [c]).text ++ newline)
      else .ok ((t.ownCells line start.col stop.col 0).text ++ newline) := by
    have hcells := appendCellsWith_eq h next htop hline hstart hstop wrapped 0
    show lineToString next t line start.col stop.col wrapped >>= (fun row => .ok (row ++ newline)) = _
    unfold lineToString
    rw [hcells]
    split_ifs
    · rfl
    · cases next line with
      | error e => rfl
      | ok c => rfl
    · rfl
  rw [htext, htext]
  by_cases hspacer : start.col = 0 ∧ (t.grid.cell ⟨line, 0⟩).wide = .spacer
  · rw [if_pos hspacer, if_pos hspacer]
    refine ⟨?_, iff_of_false ?_ ?_⟩
    · intro a b ha
      cases ha
    · exact fun hboth => not_safe_error _ hboth.1
    · exact fun hboth => hboth.1 hspacer.1 hspacer.2
  rw [if_neg hspacer, if_neg hspacer]
  have hwhole : start.col = 0 → (t.grid.cell ⟨line, 0⟩).wide ≠ .spacer :=
    fun hzero hwide => hspacer ⟨hzero, hwide⟩
  by_cases howes : (stop.col = t.grid.lastColumn ∧ t.EndsOnSpacer line) ∧ wrapped = true
  · rw [if_pos howes, if_pos howes]
    refine ⟨fun a b ha hb => ?_, ?_⟩
    · obtain ⟨c, -, ha⟩ := ok_of_bind ha
      obtain ⟨c', -, hb⟩ := ok_of_bind hb
      rw [← Except.ok.inj ha, ← Except.ok.inj hb]
      unfold Appended.push
      simp only [List.length_append, List.length_singleton]
    · constructor
      · rintro ⟨⟨text, htext⟩, heq⟩
        refine ⟨hwhole, fun _ _ _ => ?_⟩
        obtain ⟨c, hc, -⟩ := ok_of_bind htext
        rw [hc, ok_bind] at heq
        obtain ⟨c', hc', htext'⟩ := ok_of_bind heq
        rw [hc, hc']
        refine ⟨safe_ok c, congrArg Except.ok ?_⟩
        unfold Appended.push at htext'
        simpa using htext'
      · rintro ⟨-, hnext⟩
        obtain ⟨⟨c, hc⟩, heq⟩ := hnext howes.1.1 howes.1.2 howes.2
        rw [heq, hc]
        exact ⟨safe_ok _, rfl⟩
  · rw [if_neg howes, if_neg howes]
    refine ⟨fun a b ha hb => ?_, iff_of_true ⟨safe_ok _, rfl⟩ ⟨hwhole, ?_⟩⟩
    · rw [← Except.ok.inj ha, ← Except.ok.inj hb]
    · exact fun hcol hends hwrapped => absurd ⟨⟨hcol, hends⟩, hwrapped⟩ howes

/-- The lines of a block, all but the last of which end with a newline. -/
theorem blockToString_eq {start stop : Pos} (hle : start.row ≤ stop.row)
    (next : ℤ → Outcome Char) : blockToString next t start stop =
      collect (fun line => lineToString next t line start.col stop.col
      (decide (line = stop.row ∨ start.col ≠ 0)) >>= fun row =>
        .ok (row ++ if line = stop.row then [] else ['\n']))
      (lineRange start.row (stop.row + 1)) := by
  rw [lineRange_concat hle, collect_concat]
  unfold blockToString
  have hrows : collect (fun line => lineToString next t line start.col stop.col
      (decide (line = stop.row ∨ start.col ≠ 0)) >>= fun row =>
        .ok (row ++ if line = stop.row then [] else ['\n'])) (lineRange start.row stop.row) =
      collect (fun line => lineToString next t line start.col stop.col
        (decide (start.col ≠ 0)) >>= fun row => .ok (row ++ ['\n']))
          (lineRange start.row stop.row) := by
    refine collect_congr fun line hline => ?_
    have hne : line ≠ stop.row := (mem_lineRange.mp hline).2.ne
    rw [decide_eq_decide.mpr (or_iff_right hne), if_neg hne]
  rw [hrows]
  refine bind_congr fun text => ?_
  rw [decide_eq_true (.inl rfl), bind_assoc]
  refine bind_congr fun last => ?_
  rw [ok_bind, if_pos rfl, List.append_nil]
  rfl

theorem block_iff (h : t.Sound False) {start stop : Pos} (hstart : t.grid.HasCell start)
    (hle : start.row ≤ stop.row) (hstop : t.grid.HasCell stop) (next next' : ℤ → Outcome Char) :
    (Safe (blockToString next t start stop) ∧
      blockToString next' t start stop = blockToString next t start stop) ↔
      ∀ line, start.row ≤ line → line ≤ stop.row →
        (start.col = 0 → (t.grid.cell ⟨line, 0⟩).wide ≠ .spacer) ∧
          (stop.col = t.grid.lastColumn → t.EndsOnSpacer line →
            line = stop.row ∨ start.col ≠ 0 → Safe (next line) ∧ next' line = next line) := by
  have hline (line : ℤ) (hline : line ∈ lineRange start.row (stop.row + 1)) :
      t.grid.topmostLine ≤ line ∧ line < t.grid.lines := by
    have hrange := mem_lineRange.mp hline
    have htop := hstart.1
    have hbottom := hstop.2.1
    omega
  have hrow (line : ℤ) (hmem : line ∈ lineRange start.row (stop.row + 1)) :=
    blockLine_iff h hstart.2.2 hstop.2.2 (hline line hmem).1 (hline line hmem).2
      (decide (line = stop.row ∨ start.col ≠ 0)) (if line = stop.row then [] else ['\n']) next next'
  rw [blockToString_eq hle, blockToString_eq hle,
    collect_agrees_iff fun line hmem => (hrow line hmem).1]
  constructor
  · intro hall line hfirst hlast
    have hmem : line ∈ lineRange start.row (stop.row + 1) :=
      mem_lineRange.mpr ⟨hfirst, by omega⟩
    obtain ⟨hwhole, hnext⟩ := (hrow line hmem).2.mp (hall line hmem)
    exact ⟨hwhole, fun hcol hends howes => hnext hcol hends (decide_eq_true howes)⟩
  · intro hall line hmem
    obtain ⟨hfirst, hlast⟩ := mem_lineRange.mp hmem
    obtain ⟨hwhole, hnext⟩ := hall line hfirst (by omega)
    exact (hrow line hmem).2.mpr
      ⟨hwhole, fun hcol hends howes => hnext hcol hends (of_decide_eq_true howes)⟩

/-! ### The wide characters of a range -/

/-- The two rows next to a line hold the same character. -/
theorem wideBefore_iff (htop : t.grid.topmostLine ≤ line) :
    Safe (t.wideAfter line) ∧ t.wideBefore line = t.wideAfter line ↔
      t.grid.topmostLine < line ∧ line + 1 < t.grid.lines ∧
        (t.grid.cell ⟨line - 1, 0⟩).c = (t.grid.cell ⟨line + 1, 0⟩).c := by
  unfold wideBefore wideAfter
  by_cases hafter : line + 1 < t.grid.lines
  · rw [readRow_of (by omega) hafter, ok_bind]
    by_cases hbefore : t.grid.topmostLine < line
    · rw [readRow_of (by omega) (by omega), ok_bind]
      refine ⟨fun heq => ⟨hbefore, hafter, Except.ok.inj heq.2⟩, fun hsame => ⟨safe_ok _, ?_⟩⟩
      exact congrArg Except.ok hsame.2.2
    · refine iff_of_false (fun heq => ?_) fun hsame => hbefore hsame.1
      have hread : t.grid.readRow (line - 1) = .error .index := if_neg fun hin => by omega
      rw [hread] at heq
      cases heq.2
  · refine iff_of_false (fun hsafe => ?_) fun hsame => hafter hsame.2.1
    have hread : t.grid.readRow (line + 1) = .error .index := if_neg fun hin => hafter hin.2
    rw [hread] at hsafe
    exact not_safe_error _ hsafe.1

/-- The row after a line that owes its wide character is not covered in its first column. -/
theorem owes_once (hblock : range.isBlock = true ↔ ty = .block) (howes : t.Owes ty range line) :
    range.contains ⟨line + 1, 0⟩ = false := by
  rw [← Bool.not_eq_true, SelectionRange.contains_iff]
  obtain ⟨-, -, rfl | ⟨hty, hcol, -, -⟩⟩ := howes
  · rintro ⟨-, hlast, -, -⟩
    dsimp only at hlast
    omega
  · rintro ⟨-, -, hfirst, -⟩
    dsimp only at hfirst
    rw [hblock.mpr hty] at hfirst
    simp only [Bool.true_eq_false, and_false, or_false, Nat.le_zero] at hfirst
    exact hcol hfirst

/-- A range that is copied as such has the wide characters of its leading spacers exactly when it
starts with no half of a character, and a leading spacer that it owes a character for stands
between two rows that begin with the same character. -/
theorem copiesWide_iff (h : t.Sound False) (hstart : t.grid.HasCell range.start)
    (hstop : t.grid.HasCell range.stop) (hle : range.start.row ≤ range.stop.row)
    (hblock : range.isBlock = true ↔ ty = .block) :
    t.CopiesWide ty range ↔ t.Whole ty range ∧ ∀ line, t.Owes ty range line →
      t.grid.topmostLine < line ∧ line + 1 < t.grid.lines ∧
        (t.grid.cell ⟨line - 1, 0⟩).c = (t.grid.cell ⟨line + 1, 0⟩).c := by
  have hin (line : ℤ) (hfirst : range.start.row ≤ line) (hlast : line ≤ range.stop.row) :
      t.grid.topmostLine ≤ line ∧ line < t.grid.lines :=
    ⟨hstart.1.trans hfirst, hlast.trans_lt hstop.2.1⟩
  have hwide (line : ℤ) (hfirst : range.start.row ≤ line) (hlast : line ≤ range.stop.row) :=
    wideBefore_iff (hin line hfirst hlast).1
  have honce : ∀ line, t.Owes ty range line → range.contains ⟨line + 1, 0⟩ = false :=
    fun line howes => owes_once hblock howes
  have hcopies : t.CopiesWide ty range ↔ Safe (copyRangeWith t.wideAfter t ty range) ∧
      copyRangeWith t.wideBefore t ty range = copyRangeWith t.wideAfter t ty range :=
    ⟨fun hcopies => ⟨hcopies.safe, hcopies.text⟩, fun hcopies => ⟨hcopies.1, hcopies.2, honce⟩⟩
  rw [hcopies]
  have hbounds (hty : ty ≠ .block) :
      (Safe (boundsToStringWith t.wideAfter t range.start range.stop) ∧
        boundsToStringWith t.wideBefore t range.start range.stop =
          boundsToStringWith t.wideAfter t range.start range.stop) ↔
      t.Whole ty range ∧ ∀ line, t.Owes ty range line →
        t.grid.topmostLine < line ∧ line + 1 < t.grid.lines ∧
          (t.grid.cell ⟨line - 1, 0⟩).c = (t.grid.cell ⟨line + 1, 0⟩).c := by
    rw [bounds_iff h hstart hle hstop]
    unfold Whole Owes firstColumn
    simp only [hty, false_or, false_and, or_false]
    refine and_congr_right fun _ => ?_
    constructor
    · rintro hlast line ⟨hcol, hends, rfl⟩
      exact (hwide _ hle le_rfl).mp (hlast hcol hends)
    · exact fun hall hcol hends => (hwide _ hle le_rfl).mpr (hall _ ⟨hcol, hends, rfl⟩)
  cases ty with
  | simple => exact hbounds (by decide)
  | semantic => exact hbounds (by decide)
  | lines =>
    rw [← hbounds (by decide)]
    unfold copyRangeWith
    dsimp only
    cases boundsToStringWith t.wideAfter t range.start range.stop with
    | error e =>
      exact iff_of_false (fun hsafe => not_safe_error _ hsafe.1) fun hsafe =>
        not_safe_error _ hsafe.1
    | ok text =>
      refine and_congr (iff_of_true (safe_ok _) (safe_ok _)) ?_
      cases boundsToStringWith t.wideBefore t range.start range.stop with
      | error e => exact iff_of_false (fun heq => by cases heq) fun heq => by cases heq
      | ok text' =>
        rw [ok_bind, ok_bind]
        constructor
        · intro heq
          rw [List.append_cancel_right (Except.ok.inj heq)]
        · intro heq
          rw [Except.ok.inj heq]
  | block =>
    unfold copyRangeWith
    dsimp only
    rw [block_iff h hstart hle hstop]
    unfold Whole Owes firstColumn
    simp only [true_or, if_true, true_and]
    constructor
    · intro hall
      refine ⟨fun line hfirst hlast hcol => (hall line hfirst hlast).1 hcol, ?_⟩
      rintro line ⟨hcol, hends, hline⟩
      obtain ⟨hfirst, hlast⟩ : range.start.row ≤ line ∧ line ≤ range.stop.row := by
        obtain rfl | ⟨-, hfirst, hlast⟩ := hline
        · exact ⟨hle, le_rfl⟩
        · exact ⟨hfirst, hlast.le⟩
      refine (hwide line hfirst hlast).mp ((hall line hfirst hlast).2 hcol hends ?_)
      exact hline.imp id fun hline => hline.1
    · rintro ⟨hwhole, hall⟩ line hfirst hlast
      refine ⟨hwhole line hfirst hlast, fun hcol hends hline => ?_⟩
      refine (hwide line hfirst hlast).mpr (hall line ⟨hcol, hends, ?_⟩)
      obtain hlt | heq := lt_or_eq_of_le hlast
      · obtain heq | hne := hline
        · exact .inl heq
        · exact .inr ⟨hne, hfirst, hlt⟩
      · exact .inl heq

theorem copiesWide_new : (new 3 2 0).CopiesWide .block ⟨⟨0, 1⟩, ⟨1, 2⟩, true⟩ ↔
    (new 3 2 0).Whole .block ⟨⟨0, 1⟩, ⟨1, 2⟩, true⟩ ∧
      ∀ line, (new 3 2 0).Owes .block ⟨⟨0, 1⟩, ⟨1, 2⟩, true⟩ line →
        (new 3 2 0).grid.topmostLine < line ∧ line + 1 < (new 3 2 0).grid.lines ∧
          ((new 3 2 0).grid.cell ⟨line - 1, 0⟩).c = ((new 3 2 0).grid.cell ⟨line + 1, 0⟩).c :=
  copiesWide_iff (new_sound False (by decide) (by decide) 0) ⟨by decide, by decide, by decide⟩
    ⟨by decide, by decide, by decide⟩ (by decide) (by decide)

/-- The wide character after the first line is looked for above the grid. -/
theorem copy_reads_above :
    ((new 3 3 0).run .basic [.input 'a', .input 'b', .input '\u3042']).EndsOnSpacer 0 ∧
      ¬ ((new 3 3 0).run .basic [.input 'a', .input 'b', .input '\u3042']).CopiesWide .simple
        ⟨⟨0, 0⟩, ⟨0, 2⟩, false⟩ := by
  refine ⟨by decide, fun hcopies => ?_⟩
  have hread : ((new 3 3 0).run .basic [.input 'a', .input 'b', .input '\u3042']).copyRange .simple
      ⟨⟨0, 0⟩, ⟨0, 2⟩, false⟩ = .error .index := by decide
  have hsafe := hcopies.safe
  rw [← hcopies.text, hread] at hsafe
  exact not_safe_error _ hsafe

end Crosswords
end Rio
