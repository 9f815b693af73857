import Rio.Crosswords.Bounds
import Rio.Hints.Columns

/-! Which columns the match under the mouse pointer is recorded with. -/

set_option linter.dupNamespace false

namespace Rio.Hints
open Rio.Checked

variable {g : Grid Square} {row : ℤ} {startCol stopCol : ℕ} {p q : Pos}

/-! ### The iterator -/

theorem prevPos_of_nextPos (hp : g.HasCell p) (h : g.nextPos p = some q) :
    g.prevPos q = some p := by
  obtain ⟨htop, -, -⟩ := hp
  unfold Grid.nextPos at h
  unfold Grid.prevPos
  split_ifs at h with hbefore hlast
  · obtain rfl := Option.some.inj h
    rw [if_neg (by simp only [Pos.mk.injEq]; omega), if_pos rfl, ← hlast]
    simp
  · obtain rfl := Option.some.inj h
    rw [if_neg (by simp), if_neg (by simp)]
    simp

/-- The cell before one that is not the first of its line. -/
theorem prevPos_row (hcol : 0 < p.col) : g.prevPos p = some ⟨p.row, p.col - 1⟩ := by
  unfold Grid.prevPos
  have hfirst : p ≠ ⟨g.topmostLine, 0⟩ := by
    rintro rfl
    exact Nat.lt_irrefl 0 hcol
  rw [if_neg hfirst, if_neg (by omega)]

theorem nextPos_row (hp : g.HasCell p) (hcol : p.col + 1 < g.columns) :
    g.nextPos p = some ⟨p.row, p.col + 1⟩ := by
  obtain ⟨-, hline, -⟩ := hp
  unfold Grid.nextPos
  have hbefore : p < ⟨g.bottommostLine, g.lastColumn⟩ := by
    rw [Pos.lt_iff, Grid.bottommostLine_eq, Grid.lastColumn_eq]
    dsimp only
    omega
  rw [if_pos hbefore, if_neg (by rw [Grid.lastColumn_eq]; omega)]

/-- The iterator does not go back. -/
theorem lt_of_nextPos (h : g.nextPos p = some q) :
    q = ⟨p.row, p.col + 1⟩ ∨ q = ⟨p.row + 1, 0⟩ := by
  unfold Grid.nextPos at h
  split_ifs at h
  · exact .inr (Option.some.inj h).symm
  · exact .inl (Option.some.inj h).symm

/-! ### Shortening -/

/-- The loop over the brackets ends within the match. -/
theorem bracketLoop_ends (h : g.Sound False) (hstop : g.HasCell ⟨row, stopCol⟩)
    (hle : startCol ≤ stopCol) :
    ∃ cut, Ends (fun fuel => loop (bracketTurn g ⟨row, stopCol⟩) fuel ⟨⟨row, startCol⟩, 0, 0⟩) cut ∧
      ∀ col, cut = some col → startCol ≤ col ∧ col ≤ stopCol := by
  refine exists_ends_loop
    (fun s => (⟨row, stopCol⟩ : Pos) < s.current ∨
      s.current.row = row ∧ startCol ≤ s.current.col ∧ s.current.col ≤ stopCol)
    _ (fun s => if (⟨row, stopCol⟩ : Pos) < s.current then 0 else stopCol + 1 - s.current.col)
    (fun s hs => ?_) _ (.inr ⟨rfl, le_rfl, hle⟩)
  obtain ⟨current, parents, brackets⟩ := s
  dsimp only at hs ⊢
  unfold bracketTurn
  by_cases hbeyond : (⟨row, stopCol⟩ : Pos) < current
  · rw [if_pos hbeyond]
    exact .inr ⟨none, rfl, nofun⟩
  obtain ⟨hrow, hlow, hhigh⟩ := hs.resolve_left hbeyond
  obtain ⟨htop, hline, hcol⟩ := hstop
  have hcell : g.HasCell current := by
    refine ⟨?_, ?_, ?_⟩
    · rw [hrow]
      exact htop
    · rw [hrow]
      exact hline
    · exact hhigh.trans_lt hcol
  rw [if_neg hbeyond, Vi.next_eq h hcell, if_neg hbeyond]
  cases hnext : g.nextPos current with
  | none => exact .inr ⟨none, rfl, nofun⟩
  | some next =>
    have hnextCell := (Grid.nextPos_spec h hcell hnext).1
    cases hcount : countBracket parents brackets (g.cell next).c with
    | none =>
      refine .inr ⟨some current.col, ?_, fun col hcol => ?_⟩
      · simp only [ok_bind, hcount, Vi.prev_eq h hnextCell, prevPos_of_nextPos hcell hnext]
        rfl
      · obtain rfl := Option.some.inj hcol
        exact ⟨hlow, hhigh⟩
    | some count =>
      simp only [ok_bind, hcount]
      by_cases hend : next = ⟨row, stopCol⟩
      · rw [if_pos hend]
        exact .inr ⟨none, rfl, nofun⟩
      · rw [if_neg hend]
        refine .inl ⟨_, rfl, ?_⟩
        obtain rfl | rfl := lt_of_nextPos hnext
        · by_cases hlast : current.col = stopCol
          · have hpast : (⟨row, stopCol⟩ : Pos) < ⟨current.row, current.col + 1⟩ :=
              .inr ⟨hrow.symm, by dsimp only; omega⟩
            refine ⟨.inl hpast, ?_⟩
            rw [if_pos hpast]
            omega
          · have hnot : ¬ (⟨row, stopCol⟩ : Pos) < ⟨current.row, current.col + 1⟩ := by
              rw [Pos.lt_iff]
              dsimp only
              omega
            refine ⟨.inr ⟨hrow, by dsimp only; omega, by dsimp only; omega⟩, ?_⟩
            rw [if_neg hnot]
            dsimp only
            omega
        · have hpast : (⟨row, stopCol⟩ : Pos) < ⟨current.row + 1, 0⟩ := by
            left
            dsimp only
            omega
          refine ⟨.inl hpast, ?_⟩
          rw [if_pos hpast]
          omega

/-- The loop over the delimiters ends within the match. -/
theorem delimiterLoop_ends (h : g.Sound False) (hstop : g.HasCell ⟨row, stopCol⟩)
    (hle : startCol ≤ stopCol) :
    ∃ last, Ends (fun fuel => loop (delimiterTurn g ⟨row, startCol⟩) fuel
        (⟨row, stopCol⟩, ⟨row, stopCol⟩)) last ∧
      last.row = row ∧ startCol ≤ last.col ∧ last.col ≤ stopCol := by
  -- The iterator stands on the end, or on the cell before it once a delimiter was dropped.
  refine exists_ends_loop
    (fun s => (s.1.row = row ∧ startCol ≤ s.1.col ∧ s.1.col ≤ stopCol) ∧
      (s.2 = s.1 ∨ 0 < s.1.col ∧ s.2 = ⟨s.1.row, s.1.col - 1⟩ ∨ s.1.col = startCol))
    _ (fun s => 2 * s.1.col + if s.2 = s.1 then 1 else 0)
    (fun s hs => ?_) _ ⟨⟨rfl, hle, le_rfl⟩, .inl rfl⟩
  obtain ⟨finalEnd, current⟩ := s
  obtain ⟨⟨hrow, hlow, hhigh⟩, hcurrent⟩ := hs
  dsimp only at hrow hlow hhigh hcurrent ⊢
  unfold delimiterTurn
  dsimp only
  by_cases hlong : (⟨row, startCol⟩ : Pos) < finalEnd
  swap
  · rw [if_pos hlong]
    exact .inr ⟨finalEnd, rfl, hrow, hlow, hhigh⟩
  have hcol : startCol < finalEnd.col := by
    rw [Pos.lt_iff] at hlong
    dsimp only at hlong
    omega
  have hend : g.HasCell finalEnd := by
    obtain ⟨htop, hline, hcol⟩ := hstop
    refine ⟨?_, ?_, hhigh.trans_lt hcol⟩
    · rw [hrow]
      exact htop
    · rw [hrow]
      exact hline
  have hprev : g.prevPos finalEnd = some ⟨finalEnd.row, finalEnd.col - 1⟩ := prevPos_row (by omega)
  have hprevCell := (Grid.prevPos_spec h hend hprev).1
  rw [if_neg (not_not.mpr hlong)]
  obtain rfl | ⟨hpos, rfl⟩ : current = finalEnd ∨
      0 < finalEnd.col ∧ current = ⟨finalEnd.row, finalEnd.col - 1⟩ :=
    hcurrent.imp_right fun hcurrent => hcurrent.resolve_right (by omega)
  · rw [Vi.next_eq h hend]
    cases hnext : g.nextPos current with
    | none => exact .inr ⟨current, rfl, hrow, hlow, hhigh⟩
    | some next =>
      have hnextCell := (Grid.nextPos_spec h hend hnext).1
      simp only [ok_bind]
      by_cases hdelimiter : isDelimiter (g.cell next).c = true
      · rw [if_neg (by simp [hdelimiter]), Vi.prev_eq h hnextCell, prevPos_of_nextPos hend hnext]
        simp only [ok_bind, Vi.prev_eq h hend, hprev]
        refine .inl ⟨_, rfl, ⟨⟨hrow, hlow, hhigh⟩, .inr (.inl ⟨Nat.zero_lt_of_lt hcol, rfl⟩)⟩, ?_⟩
        have hmoved : (⟨current.row, current.col - 1⟩ : Pos) ≠ current := by
          intro heq
          have := congrArg Pos.col heq
          dsimp only at this
          omega
        rw [Option.getD_some, if_neg hmoved, if_true]
        exact Nat.lt_succ_self _
      · rw [if_pos (by simpa using hdelimiter)]
        exact .inr ⟨current, rfl, hrow, hlow, hhigh⟩
  · have hnext : g.nextPos ⟨finalEnd.row, finalEnd.col - 1⟩ = some finalEnd := by
      obtain ⟨-, -, hcolumns⟩ := hend
      rw [nextPos_row hprevCell (by dsimp only; omega)]
      refine congrArg some (congrArg (Pos.mk finalEnd.row) ?_)
      dsimp only
      omega
    rw [Vi.next_eq h hprevCell, hnext]
    simp only [ok_bind]
    by_cases hdelimiter : isDelimiter (g.cell finalEnd).c = true
    · rw [if_neg (by simp [hdelimiter]), Vi.prev_eq h hend, hprev]
      simp only [ok_bind, Vi.prev_eq h hprevCell]
      refine .inl ⟨_, rfl, ⟨⟨hrow, by dsimp only; omega, by dsimp only; omega⟩, ?_⟩, ?_⟩
      · dsimp only
        rcases Nat.eq_zero_or_pos (finalEnd.col - 1) with hzero | hpos
        · exact .inr (.inr (by omega))
        · rw [prevPos_row (p := ⟨finalEnd.row, finalEnd.col - 1⟩) hpos]
          exact .inr (.inl ⟨hpos, rfl⟩)
      · split_ifs <;> dsimp only <;> omega
    · rw [if_pos (by simpa using hdelimiter)]
      exact .inr ⟨finalEnd, rfl, hrow, hlow, hhigh⟩

/-- Shortening a match of the grid ends, and leaves its columns from the first one on. -/
theorem hintPostProcessing_ends (h : g.Sound False) (hstop : g.HasCell ⟨row, stopCol⟩)
    (hle : startCol ≤ stopCol) :
    ∃ last, Ends (hintPostProcessing g startCol stopCol row) (startCol, last) ∧
      startCol ≤ last ∧ last ≤ stopCol := by
  obtain ⟨cut, hcut, hbetween⟩ := bracketLoop_ends h hstop hle
  cases cut with
  | some col => exact ⟨col, hcut.bind (.const rfl), hbetween col rfl⟩
  | none =>
    obtain ⟨last, hlast, -, hlow, hhigh⟩ := delimiterLoop_ends h hstop hle
    exact ⟨last.col, hcut.bind (hlast.bind (.const rfl)), hlow, hhigh⟩

theorem settles_hintPostProcessing (g : Grid Square) (startCol stopCol : ℕ) (row : ℤ) :
    Settles (hintPostProcessing g startCol stopCol row) := by
  refine (settles_loop _ _).bind fun cut => ?_
  cases cut with
  | some col => exact .const _
  | none => exact (settles_loop _ _).bind fun _ => .const _

theorem hintPostProcessing_start {last : ℕ × ℕ}
    (h : Ends (hintPostProcessing g startCol stopCol row) last) : last.1 = startCol := by
  obtain ⟨cut, -, hrest⟩ := Ends.of_bind (settles_loop _ _) h
  cases cut with
  | some col =>
    obtain ⟨fuel, heq⟩ := hrest.exists
    exact congrArg Prod.fst (Except.ok.inj heq).symm
  | none =>
    obtain ⟨finalEnd, -, hend⟩ := Ends.of_bind (settles_loop _ _) hrest
    obtain ⟨fuel, heq⟩ := hend.exists
    exact congrArg Prod.fst (Except.ok.inj heq).symm

/-! ### The match -/

theorem readColumns_ok_iff {text : List Char} :
    readColumns g row startCol stopCol = .ok text ↔
      (∀ col, startCol ≤ col → col ≤ stopCol → g.HasCell ⟨row, col⟩) ∧
        text = columnsText g row startCol (stopCol + 1 - startCol) := by
  have hread : ∀ {cols : List ℕ}, (∀ col ∈ cols, g.HasCell ⟨row, col⟩) →
      collect (fun col => do return [(← Vi.readCell g ⟨row, col⟩).c]) cols =
        .ok (cols.map fun col => (g.cell ⟨row, col⟩).c) := by
    intro cols hcols
    rw [List.map_eq_flatMap]
    exact collect_ok fun col hcol => by
      rw [Vi.readCell_of_hasCell (hcols col hcol)]
      rfl
  have hmem : ∀ col, col ∈ List.range' startCol (stopCol + 1 - startCol) ↔
      startCol ≤ col ∧ col ≤ stopCol := by
    intro col
    rw [List.mem_range'_1]
    omega
  unfold readColumns columnsText
  constructor
  · intro hok
    have hcells : ∀ col ∈ List.range' startCol (stopCol + 1 - startCol),
        g.HasCell ⟨row, col⟩ := by
      intro col hcol
      obtain ⟨c, hc, -⟩ := safe_bind_iff.mp (safe_collect_iff.mp ⟨text, hok⟩ col hcol)
      exact Vi.safe_readCell_iff.mp ⟨c, hc⟩
    rw [hread hcells] at hok
    exact ⟨fun col hlow hhigh => hcells col ((hmem col).mpr ⟨hlow, hhigh⟩),
      (Except.ok.inj hok).symm⟩
  · rintro ⟨hcells, rfl⟩
    exact hread fun col hcol => hcells col ((hmem col).mp hcol).1 ((hmem col).mp hcol).2

/-- A text is not trimmed if it does not end with a whitespace character. -/
theorem trimEnd_eq_self_iff (g : Grid Square) (row : ℤ) {n : ℕ} (start : ℕ) :
    trimEnd (columnsText g row start (n + 1)) = columnsText g row start (n + 1) ↔
      Window.isWhitespace (g.cell ⟨row, start + n⟩).c = false := by
  unfold trimEnd
  have hlast : columnsText g row start (n + 1) =
      columnsText g row start n ++ [(g.cell ⟨row, start + n⟩).c] := by
    rw [columnsText_append]
    rfl
  rw [List.rdropWhile_eq_self_iff, hlast]
  simp

/-- The recorded columns are right: the match begins after single bytes, and ends within its text.
A match that is shortened does not end with a whitespace character, which would be trimmed; one
that is not has single bytes only. -/
structure ColumnsRight (g : Grid Square) (point : Pos) (hint : Hint) {text : List Char}
    (r : ByteRange text) : Prop where
  before : Ascii r.before
  under : point.col < r.before.length + r.matched.length
  plain : hint.postProcessing = false → Ascii r.matched
  processed : hint.postProcessing = true →
    ∃ last, Ends (hintPostProcessing g r.start (r.stop - 1) point.row) (r.start, last) ∧
      r.start ≤ last ∧ last < r.before.length + r.matched.length ∧
        Window.isWhitespace (g.cell ⟨point.row, last⟩).c = false

/-- What the lookup finds is recorded with its columns, and the pointer is on the text of its
range. -/
def PointRecorded (g : Grid Square) (point : Pos) (regex : Regex) (hint : Hint) : Prop :=
  ∃ found, Ends (findRegexMatchAtPoint g point regex hint) found ∧ ∀ m, found = some m →
    ∃ r, rangeAtColumn (regex (extractLineText g point.row)) point.col = some r ∧
      r.before.length ≤ point.col ∧ point.col < r.before.length + r.matched.length ∧
        Recorded g point.row r m

theorem stop_eq {text : List Char} (r : ByteRange text) :
    r.stop = r.start + utf8Len r.matched := utf8Len_append _ _

section Range

variable {point : Pos} {hint : Hint} {r : ByteRange (extractLineText g point.row)}

theorem length_columnsText (g : Grid Square) (line : ℤ) (start n : ℕ) :
    (columnsText g line start n).length = n := by
  simp [columnsText]

theorem matched_columns (r : ByteRange (extractLineText g row)) :
    columnsText g row r.before.length r.matched.length = r.matched ∧
      r.before.length + r.matched.length ≤ g.columns :=
  columnsText_eq r.split

theorem recorded_plain_iff (hlow : r.before.length ≤ point.col)
    (hunder : point.col < r.before.length + r.matched.length) :
    Recorded g point.row r ⟨r.matched, ⟨point.row, r.start⟩, ⟨point.row, r.stop - 1⟩, hint⟩ ↔
      Ascii r.before ∧ Ascii r.matched := by
  have hpos : 0 < r.matched.length := by omega
  have hle := length_le_utf8Len r.matched
  constructor
  · intro h
    have hbefore : r.start = r.before.length := congrArg Pos.col h.start
    have hstop : r.stop - 1 = r.before.length + (r.matched.length - 1) := congrArg Pos.col h.stop
    rw [stop_eq] at hstop
    exact ⟨(start_eq_iff r).mp hbefore, utf8Len_eq_length_iff.mp (by omega)⟩
  · rintro ⟨hbefore, hmatched⟩
    have hstart := (start_eq_iff r).mpr hbefore
    refine recorded_of_columns (List.ne_nil_of_length_pos hpos) List.prefix_rfl ?_ ?_
    · exact congrArg (Pos.mk point.row) hstart
    · refine congrArg (Pos.mk point.row) ?_
      rw [stop_eq, hstart, utf8Len_eq_length_iff.mpr hmatched]
      dsimp only
      omega

/-- The text of the columns of a shortened match is recorded as it is. -/
theorem recorded_processed_iff (hint : Hint) (hbefore : r.start = r.before.length) {last : ℕ} :
    Recorded g point.row r ⟨trimEnd (columnsText g point.row r.start (last + 1 - r.start)),
        ⟨point.row, r.start⟩, ⟨point.row, last⟩, hint⟩ ↔
      r.start ≤ last ∧ last < r.before.length + r.matched.length ∧
        Window.isWhitespace (g.cell ⟨point.row, last⟩).c = false := by
  constructor
  · intro h
    have hreads : columnsText g point.row r.start (last + 1 - r.start) =
        trimEnd (columnsText g point.row r.start (last + 1 - r.start)) := h.reads
    have hnonempty := h.nonempty
    have htext := h.text.length_le
    dsimp only at hnonempty htext
    rw [← hreads] at hnonempty htext
    have hpos := List.length_pos_of_ne_nil hnonempty
    rw [length_columnsText] at hpos htext
    obtain ⟨n, hn⟩ : ∃ n, last + 1 - r.start = n + 1 := ⟨last - r.start, by omega⟩
    rw [hn] at hreads
    have hlast := (trimEnd_eq_self_iff g point.row r.start).mp hreads.symm
    rw [show r.start + n = last by omega] at hlast
    exact ⟨by omega, by omega, hlast⟩
  · rintro ⟨hlow, hhigh, hlast⟩
    obtain ⟨hmatched, hcolumns⟩ := matched_columns r
    obtain ⟨n, hn⟩ : ∃ n, last = r.start + n := ⟨last - r.start, by omega⟩
    have hcount : last + 1 - r.start = n + 1 := by omega
    rw [hn] at hlast
    rw [hcount, (trimEnd_eq_self_iff g point.row r.start).mpr hlast]
    have hpart : columnsText g point.row r.start (n + 1) <+: r.matched := by
      rw [← hmatched, ← hbefore, show r.matched.length = n + 1 + (r.matched.length - (n + 1)) by
        omega, columnsText_append g point.row r.start (n + 1)]
      exact List.prefix_append _ _
    refine recorded_of_columns ?_ hpart (congrArg (Pos.mk point.row) hbefore) ?_
    · exact List.ne_nil_of_length_pos (by rw [length_columnsText]; exact Nat.succ_pos n)
    · refine congrArg (Pos.mk point.row) ?_
      rw [length_columnsText]
      omega

/-- A match that is shortened has the text of the columns that are left. -/
theorem pointMatch_processed (g : Grid Square) (row : ℤ) {hint : Hint} {text : List Char}
    (r : ByteRange text) (h : hint.postProcessing = true) :
    pointMatch g row hint r = fun fuel =>
      hintPostProcessing g r.start (r.stop - 1) row fuel >>= fun kept =>
        readColumns g row kept.1 kept.2 >>= fun processedText =>
          .ok ⟨trimEnd processedText, ⟨row, kept.1⟩, ⟨row, kept.2⟩, hint⟩ := by
  funext fuel
  unfold pointMatch
  rw [if_pos h]
  rfl

theorem pointMatch_plain (g : Grid Square) (row : ℤ) {hint : Hint} {text : List Char}
    (r : ByteRange text) (h : ¬ hint.postProcessing = true) :
    pointMatch g row hint r = fun _ =>
      .ok ⟨r.matched, ⟨row, r.start⟩, ⟨row, r.stop - 1⟩, hint⟩ := by
  funext fuel
  unfold pointMatch
  rw [if_neg h]

theorem settles_pointMatch (g : Grid Square) (row : ℤ) (hint : Hint) {text : List Char}
    (r : ByteRange text) : Settles (pointMatch g row hint r) := by
  by_cases h : hint.postProcessing = true
  · rw [pointMatch_processed g row r h]
    exact (settles_hintPostProcessing g _ _ _).bind fun _ => .const _
  · rw [pointMatch_plain g row r h]
    exact .const _

theorem pointMatch_recorded_iff (h : g.HasCell point) (hlow : r.before.length ≤ point.col) :
    (point.col < r.before.length + r.matched.length ∧
        ∃ m, Ends (pointMatch g point.row hint r) m ∧ Recorded g point.row r m) ↔
      ColumnsRight g point hint r := by
  by_cases hprocess : hint.postProcessing = true
  · rw [pointMatch_processed g point.row r hprocess]
    constructor
    · rintro ⟨hunder, m, hends, hrecorded⟩
      obtain ⟨⟨first, last⟩, hkept, hrest⟩ :=
        Ends.of_bind (settles_hintPostProcessing g _ _ _) hends
      obtain rfl : first = r.start := hintPostProcessing_start hkept
      obtain ⟨fuel, heq⟩ := hrest.exists
      obtain ⟨processedText, hread, hm⟩ := ok_of_bind heq
      obtain rfl := Except.ok.inj hm
      obtain ⟨-, rfl⟩ := readColumns_ok_iff.mp hread
      have hbefore : r.start = r.before.length := congrArg Pos.col hrecorded.start
      exact ⟨(start_eq_iff r).mp hbefore, hunder, fun hplain => absurd hprocess (by simp [hplain]),
        fun _ => ⟨last, hkept, (recorded_processed_iff hint hbefore).mp hrecorded⟩⟩
    · rintro ⟨hbefore, hunder, -, hprocessed⟩
      have hstart := (start_eq_iff r).mpr hbefore
      obtain ⟨last, hkept, hright⟩ := hprocessed hprocess
      obtain ⟨-, hcolumns⟩ := matched_columns r
      have hread : readColumns g point.row r.start last =
          .ok (columnsText g point.row r.start (last + 1 - r.start)) :=
        readColumns_ok_iff.mpr ⟨fun col _ hcol => ⟨h.1, h.2.1, by dsimp only; omega⟩, rfl⟩
      refine ⟨hunder, _, hkept.bind (.const ?_), (recorded_processed_iff hint hstart).mpr hright⟩
      show (readColumns g point.row r.start last >>= _) = _
      rw [hread]
      rfl
  · rw [pointMatch_plain g point.row r hprocess]
    constructor
    · rintro ⟨hunder, m, hends, hrecorded⟩
      obtain rfl := Ends.unique (.const rfl) hends
      obtain ⟨hbefore, hmatched⟩ := (recorded_plain_iff hlow hunder).mp hrecorded
      exact ⟨hbefore, hunder, fun _ => hmatched, fun hyes => absurd hyes hprocess⟩
    · rintro ⟨hbefore, hunder, hplain, -⟩
      exact ⟨hunder, _, .const rfl, (recorded_plain_iff hlow hunder).mpr
        ⟨hbefore, hplain (Bool.eq_false_iff.mpr hprocess)⟩⟩

end Range

theorem findRegexMatchAtPoint_of_none {point : Pos} (h : g.Sound False) (hpoint : g.HasCell point)
    {regex : Regex} (hint : Hint) (fuel : ℕ)
    (hrange : rangeAtColumn (regex (extractLineText g point.row)) point.col = none) :
    findRegexMatchAtPoint g point regex hint fuel = .ok none := by
  have hfilled := h.wellFormed.filled
  obtain ⟨htop, hline, hcol⟩ := hpoint
  unfold findRegexMatchAtPoint Grid.readRow
  rw [if_neg (by omega), if_pos ⟨htop, hline⟩, hrange]
  rfl

theorem findRegexMatchAtPoint_of_some {point : Pos} (h : g.Sound False) (hpoint : g.HasCell point)
    {regex : Regex} (hint : Hint) {r : ByteRange (extractLineText g point.row)} (fuel : ℕ)
    (hrange : rangeAtColumn (regex (extractLineText g point.row)) point.col = some r) :
    findRegexMatchAtPoint g point regex hint fuel =
      pointMatch g point.row hint r fuel >>= fun m => .ok (some m) := by
  have hfilled := h.wellFormed.filled
  obtain ⟨htop, hline, hcol⟩ := hpoint
  unfold findRegexMatchAtPoint Grid.readRow
  rw [if_neg (by omega), if_pos ⟨htop, hline⟩, hrange]
  rfl

/-- The lookup is right if and only if the columns of the range that it finds are. -/
theorem pointRecorded_iff {point : Pos} (h : g.Sound False) (hpoint : g.HasCell point)
    (regex : Regex) (hint : Hint) :
    PointRecorded g point regex hint ↔
      ∀ r, rangeAtColumn (regex (extractLineText g point.row)) point.col = some r →
        ColumnsRight g point hint r := by
  unfold PointRecorded
  cases hrange : rangeAtColumn (regex (extractLineText g point.row)) point.col with
  | none =>
    have hlookup : findRegexMatchAtPoint g point regex hint = _ :=
      funext fun fuel => findRegexMatchAtPoint_of_none h hpoint hint fuel hrange
    rw [hlookup]
    exact iff_of_true ⟨none, .const rfl, nofun⟩ nofun
  | some r =>
    have hlookup : findRegexMatchAtPoint g point regex hint = _ :=
      funext fun fuel => findRegexMatchAtPoint_of_some h hpoint hint fuel hrange
    rw [hlookup]
    have hfirst := List.find?_some hrange
    rw [Bool.and_eq_true, decide_eq_true_iff, decide_eq_true_iff] at hfirst
    have hlow : r.before.length ≤ point.col := (length_le_utf8Len r.before).trans hfirst.1
    constructor
    · rintro ⟨found, hends, hright⟩ r' hr'
      obtain rfl := Option.some.inj hr'
      obtain ⟨m, hm, hrest⟩ := Ends.of_bind (settles_pointMatch g point.row hint r) hends
      obtain rfl := Ends.unique (.const rfl) hrest
      obtain ⟨r', hr', -, hunder, hrecorded⟩ := hright m rfl
      obtain rfl := Option.some.inj hr'
      exact (pointMatch_recorded_iff hpoint hlow).mp ⟨hunder, m, hm, hrecorded⟩
    · intro hright
      obtain ⟨hunder, m, hm, hrecorded⟩ :=
        (pointMatch_recorded_iff hpoint hlow).mpr (hright r rfl)
      refine ⟨some m, hm.bind (.const rfl), fun m' hm' => ?_⟩
      obtain rfl := Option.some.inj hm'
      exact ⟨r, rfl, hlow, hunder, hrecorded⟩

/-- The columns of a match of single bytes are right, shortened or not, if it has no whitespace. -/
theorem columnsRight_of_ascii {point : Pos} (h : g.Sound False) (hpoint : g.HasCell point)
    {regex : Regex} (hint : Hint) {r : ByteRange (extractLineText g point.row)}
    (hrange : rangeAtColumn (regex (extractLineText g point.row)) point.col = some r)
    (hascii : Ascii (r.before ++ r.matched)) (hnonempty : r.matched ≠ [])
    (hblank : ∀ c ∈ r.matched, Window.isWhitespace c = false) : ColumnsRight g point hint r := by
  obtain ⟨hbefore, hmatched⟩ := ascii_append.mp hascii
  have hstart := (start_eq_iff r).mpr hbefore
  have hstop : r.stop = r.before.length + r.matched.length := by
    rw [stop_eq, hstart, utf8Len_eq_length_iff.mpr hmatched]
  have hpos := List.length_pos_of_ne_nil hnonempty
  have hfirst := List.find?_some hrange
  rw [Bool.and_eq_true, decide_eq_true_iff, decide_eq_true_iff] at hfirst
  obtain ⟨htext, hcolumns⟩ := matched_columns r
  refine ⟨hbefore, by omega, fun _ => hmatched, fun _ => ?_⟩
  have hcell : g.HasCell ⟨point.row, r.stop - 1⟩ :=
    ⟨hpoint.1, hpoint.2.1, by dsimp only; omega⟩
  obtain ⟨last, hends, hlow, hhigh⟩ :=
    hintPostProcessing_ends h hcell (show r.start ≤ r.stop - 1 by omega)
  refine ⟨last, hends, hlow, by omega, hblank _ ?_⟩
  rw [← htext]
  exact List.mem_map_of_mem (List.mem_range'_1.mpr (by omega))

/-- Hints are recorded with the columns of their text if and only if label mode finds no match on a
line of the history, there are single bytes up to the end of what is recorded, which is not empty,
and the columns of the ranges under the pointer are right. -/
theorem run_hintColumns_iff (u : Unicode) {columns lines : ℕ} (hcolumns : 2 ≤ columns)
    (hlines : 1 ≤ lines) (limit : ℕ) {ops : List Op} (hsized : ∀ op ∈ ops, op.Sized)
    (regex : Regex) (hint : Hint) :
    let g := ((Crosswords.new columns lines limit).run u ops).grid
    LabelsRecorded g regex hint ∧ (∀ point, g.HasCell point → PointRecorded g point regex hint) ↔
      (∀ line ∈ visibleLines g, ∀ r ∈ regex (extractLineText g line),
        0 ≤ line ∧ shortened hint r.matched ≠ [] ∧
          Ascii (r.before ++ shortened hint r.matched)) ∧
      ∀ point, g.HasCell point → ∀ r,
        rangeAtColumn (regex (extractLineText g point.row)) point.col = some r →
          ColumnsRight g point hint r := by
  have hsound := (Crosswords.run_sound u hcolumns hlines limit hsized).grid
  exact and_congr (labelsRecorded_iff hsound regex hint)
    (forall₂_congr fun _ hpoint => pointRecorded_iff hsound hpoint regex hint)

/-- The ranges of a character in the rest of a text. -/
def charRanges (c : Char) {text : List Char} :
    (before rest : List Char) → before ++ rest = text → List (ByteRange text)
  | _, [], _ => []
  | before, d :: rest, h =>
    (if d = c then [⟨before, [d], rest, by simpa using h⟩] else []) ++
      charRanges c (before ++ [d]) rest (by simpa using h)

/-- The regular expression of a character. -/
def character (c : Char) : Regex := fun text => charRanges c [] text rfl

theorem run_hintColumns_plain :
    let g := ((Crosswords.new 2 1 0).run .basic [.input 'a', .input 'x']).grid
    LabelsRecorded g (character 'x') ⟨none, false, true, false⟩ ∧
      (∀ point, g.HasCell point →
        PointRecorded g point (character 'x') ⟨none, false, true, false⟩) := by
  refine (run_hintColumns_iff .basic (by decide) (by decide) 0 (by simp [Op.Sized]) _ _).mpr
    ⟨by decide, ?_⟩
  rintro ⟨row, col⟩ hpoint r hrange
  have hsized : ∀ op ∈ [Op.input 'a', .input 'x'], op.Sized := by simp [Op.Sized]
  have hsound := (Crosswords.run_sound .basic (le_refl 2) (le_refl 1) 0 hsized).grid
  obtain rfl : row = 0 := by
    obtain ⟨htop, hline, -⟩ := hpoint
    exact le_antisymm (Int.lt_add_one_iff.mp hline) htop
  have hplain : ∀ r ∈ character 'x' (extractLineText
      ((Crosswords.new 2 1 0).run .basic [.input 'a', .input 'x']).grid 0),
      Ascii (r.before ++ r.matched) ∧ r.matched ≠ [] ∧
        r.matched.all (fun c => !Window.isWhitespace c) = true := by
    decide
  obtain ⟨hascii, hnonempty, hblank⟩ := hplain r (List.mem_of_find?_eq_some hrange)
  refine columnsRight_of_ascii hsound hpoint _ hrange hascii hnonempty fun c hc => ?_
  exact (Bool.not_eq_true' _).mp (List.all_eq_true.mp hblank c hc)

/-- A character of two bytes moves what is found behind it a column to the right. -/
theorem two_bytes_move_match :
    let g := ((Crosswords.new 3 1 0).run .basic [.input 'é', .input 'x']).grid
    let hint : Hint := ⟨none, false, false, false⟩
    (g.cell ⟨0, 1⟩).c = 'x' ∧ (findRegexMatches g (character 'x') hint).map (·.start) = [⟨0, 2⟩] ∧
      ¬ (LabelsRecorded g (character 'x') hint ∧
        ∀ point, g.HasCell point → PointRecorded g point (character 'x') hint) := by
  refine ⟨by decide, by decide, fun h => ?_⟩
  have hsized : ∀ op ∈ [Op.input 'é', .input 'x'], op.Sized := by simp [Op.Sized]
  have hsound := (Crosswords.run_sound .basic (show 2 ≤ 3 by decide) (le_refl 1) 0 hsized).grid
  exact absurd ((labelsRecorded_iff hsound _ _).mp h.1) (by decide)

end Rio.Hints
