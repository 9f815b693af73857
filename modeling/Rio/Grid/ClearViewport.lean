import Rio.Grid.Sound

/-! Clearing the viewport: the search for the last line in use, and what moves into the
history. -/

set_option linter.dupNamespace false

namespace Rio.Grid

variable {g : Grid Square}

/-- Order of reading. -/
def Before (p q : Pos) : Prop := p.row < q.row ∨ p.row = q.row ∧ p.col < q.col

/-- The last cell in use before `p`, or what is left to stop at where there is none. -/
inductive Stops (g : Grid Square) (p : Pos) : Pos → Prop
  | used {q : Pos} (hrow : 0 ≤ q.row) (hcol : q.col < g.columns) (hbefore : Before q p)
      (hused : GridSquare.isEmpty (g.cell q) = false)
      (hlast : ∀ r : Pos, r.col < g.columns → Before q r → Before r p →
        GridSquare.isEmpty (g.cell r) = true) : Stops g p q
  | none {q : Pos}
      (hempty : ∀ r : Pos, 0 ≤ r.row → r.col < g.columns → Before r p →
        GridSquare.isEmpty (g.cell r) = true)
      (hrow : q.row = if g.historySize = 0 then 0 else -1) : Stops g p q

theorem prevPos_history {p : Pos} (hrow : p.row = 0) (hcol : p.col = 0) :
    g.prevPos p = if g.historySize = 0 then Option.none else some ⟨-1, g.lastColumn⟩ := by
  have hp : p = ⟨0, 0⟩ := by
    rw [← hrow, ← hcol]
  have htop : g.topmostLine = -(g.historySize : ℤ) := rfl
  unfold prevPos
  subst hp
  by_cases hsize : g.historySize = 0
  · rw [if_pos hsize, if_pos]
    rw [htop, hsize]
    rfl
  · rw [if_neg hsize, if_neg, if_pos rfl]
    · rfl
    · rw [Pos.mk.injEq]
      omega

theorem prevPos_col {p : Pos} (hcol : 0 < p.col) :
    g.prevPos p = some ⟨p.row, p.col - 1⟩ := by
  unfold prevPos
  rw [if_neg, if_neg hcol.ne']
  rintro rfl
  exact absurd hcol (lt_irrefl 0)

theorem prevPos_row {p : Pos} (hrow : 0 < p.row) (hcol : p.col = 0) :
    g.prevPos p = some ⟨p.row - 1, g.lastColumn⟩ := by
  have htop : g.topmostLine = -(g.historySize : ℤ) := rfl
  unfold prevPos
  rw [if_neg, if_pos hcol]
  rintro rfl
  dsimp only at hrow
  omega

/-- The cell before another one on the screen, and the cells before that. -/
theorem before_prev {p q : Pos} (hcolumns : 1 ≤ g.columns)
    (hq : 0 < p.col ∧ q = ⟨p.row, p.col - 1⟩ ∨
      p.col = 0 ∧ q = ⟨p.row - 1, g.lastColumn⟩) {r : Pos} (hcol : r.col < g.columns) :
    Before r p ↔ Before r q ∨ r = q := by
  obtain ⟨row, col⟩ := r
  have hlast : g.lastColumn = g.columns - 1 := rfl
  unfold Before
  dsimp only at hcol ⊢
  rcases hq with ⟨hpos, rfl⟩ | ⟨hzero, rfl⟩
  · rw [Pos.mk.injEq]
    dsimp only
    omega
  · rw [Pos.mk.injEq]
    dsimp only
    omega

/-- The search goes on over a cell that is not in use. -/
theorem Stops.over {p q s : Pos} (hbefore : ∀ r : Pos, r.col < g.columns →
      (Before r p ↔ Before r q ∨ r = q))
    (hempty : GridSquare.isEmpty (g.cell q) = true) (h : Stops g q s) : Stops g p s := by
  cases h with
  | used hrow hcol hsq hused hlast =>
    refine .used hrow hcol ((hbefore s hcol).mpr (.inl hsq)) hused fun r hr hsr hrp => ?_
    rcases (hbefore r hr).mp hrp with hrq | rfl
    · exact hlast r hr hsr hrq
    · exact hempty
  | none hall hrow =>
    refine .none (fun r hr0 hr hrp => ?_) hrow
    rcases (hbefore r hr).mp hrp with hrq | rfl
    · exact hall r hr0 hr hrq
    · exact hempty

/-- A cell in use ends the search. -/
theorem Stops.here {p q : Pos} (hbefore : ∀ r : Pos, r.col < g.columns →
      (Before r p ↔ Before r q ∨ r = q))
    (hrow : 0 ≤ q.row) (hcol : q.col < g.columns)
    (hused : GridSquare.isEmpty (g.cell q) = false) : Stops g p q := by
  refine .used hrow hcol ((hbefore q hcol).mpr (.inr rfl)) hused fun r hr hqr hrp => ?_
  rcases (hbefore r hr).mp hrp with hrq | rfl
  · unfold Before at hqr hrq
    omega
  · unfold Before at hqr
    omega

/-- The search from a cell of the screen; each round goes one cell back. -/
theorem stops_clearViewportStop (hcolumns : 1 ≤ g.columns) :
    ∀ (fuel : ℕ) (p : Pos), 0 ≤ p.row → p.col ≤ g.columns →
      p.row.toNat * g.columns + p.col < fuel → Stops g p (g.clearViewportStop fuel p)
  | 0, _, _, _, hfuel => absurd hfuel (Nat.not_lt_zero _)
  | fuel + 1, p, hrow, hcol, hfuel => by
    unfold clearViewportStop
    have hround {q : Pos} (hq : 0 < p.col ∧ q = ⟨p.row, p.col - 1⟩ ∨
          p.col = 0 ∧ q = ⟨p.row - 1, g.lastColumn⟩) (hrow' : 0 ≤ q.row)
        (hcol' : q.col < g.columns) (hfuel' : q.row.toNat * g.columns + q.col < fuel) :
        Stops g p (if (!GridSquare.isEmpty (g.cell q) || decide (q.row < 0)) = true then q
          else g.clearViewportStop fuel q) := by
      have hbefore (r : Pos) (hr : r.col < g.columns) := before_prev hcolumns hq hr
      cases hused : GridSquare.isEmpty (g.cell q) with
      | false => exact Stops.here hbefore hrow' hcol' hused
      | true =>
        rw [if_neg (by simpa using hrow')]
        exact (stops_clearViewportStop hcolumns fuel q hrow' hcol'.le hfuel').over hbefore hused
    rcases Nat.eq_zero_or_pos p.col with hzero | hpos
    · have hlast : g.lastColumn = g.columns - 1 := rfl
      rcases hrow.eq_or_lt with htop | hbelow
      · -- nothing on the screen is left
        have hnone : ∀ r : Pos, 0 ≤ r.row → r.col < g.columns → Before r p →
            GridSquare.isEmpty (g.cell r) = true := by
          intro r hr0 _ hrp
          unfold Before at hrp
          omega
        rw [prevPos_history htop.symm hzero]
        split_ifs with hsize
        · exact .none hnone (by rw [if_pos hsize, htop])
        · dsimp only
          rw [if_pos (by simp)]
          exact .none hnone (if_neg hsize).symm
      · rw [prevPos_row hbelow hzero]
        refine hround (.inr ⟨hzero, rfl⟩) ?_ ?_ ?_
        · show 0 ≤ p.row - 1
          omega
        · show g.columns - 1 < g.columns
          omega
        · obtain ⟨n, hn⟩ : ∃ n : ℕ, p.row = n + 1 := ⟨(p.row - 1).toNat, by omega⟩
          show (p.row - 1).toNat * g.columns + (g.columns - 1) < fuel
          rw [hn, hzero] at hfuel
          rw [hn, add_sub_cancel_right, Int.toNat_natCast]
          rw [← Nat.cast_succ, Int.toNat_natCast, Nat.succ_mul] at hfuel
          omega
    · rw [prevPos_col hpos]
      refine hround (.inl ⟨hpos, rfl⟩) hrow ?_ ?_
      · show p.col - 1 < g.columns
        omega
      · show p.row.toNat * g.columns + (p.col - 1) < fuel
        omega

/-! ### The lines in use -/

/-- The rows of the screen from the top through the last one that is not blank. -/
def usedRows (g : Grid Square) : List (Row Square) := g.viewport.rdropWhile Row.isClear

theorem isClear_iff {r : Row Square} :
    r.isClear = true ↔ ∀ col < r.len, GridSquare.isEmpty (r.cell col) = true := by
  have hcell {col : ℕ} (hcol : col < r.inner.length) : r.cell col = r.inner[col] := by
    rw [Row.cell, List.getD_eq_getElem?_getD, List.getElem?_eq_getElem hcol]
    rfl
  unfold Row.isClear Row.len
  rw [List.all_eq_true]
  constructor
  · intro h col hcol
    rw [hcell hcol]
    exact h _ (List.getElem_mem hcol)
  · intro h c hc
    obtain ⟨col, hcol, rfl⟩ := List.getElem_of_mem hc
    rw [← hcell hcol]
    exact h col hcol

/-- Blank rows at the bottom do not count. -/
theorem rdropWhile_lines {k n : ℕ} (hk : k ≤ n)
    (hclear : ∀ l : ℤ, k ≤ l → l < n → (g.row l).isClear = true) :
    ((lineRange 0 n).map g.row).rdropWhile Row.isClear =
      ((lineRange 0 k).map g.row).rdropWhile Row.isClear := by
  induction n, hk using Nat.le_induction with
  | base => rfl
  | succ n hle ih =>
    rw [Nat.cast_succ, lineRange_concat (by omega), List.map_append, List.map_singleton,
      List.rdropWhile_concat_pos _ _ _ (hclear n (by omega) (by omega))]
    exact ih fun l h1 h2 => hclear l h1 (by omega)

theorem usedRows_eq_take {k : ℕ} (hk : k ≤ g.lines)
    (hclear : ∀ l : ℤ, k ≤ l → l < g.lines → (g.row l).isClear = true)
    (hused : k ≠ 0 → (g.row (k - 1)).isClear = false) : g.usedRows = g.viewport.take k := by
  unfold usedRows viewport
  rw [rdropWhile_lines hk hclear, ← List.map_take, take_lineRange (by omega), zero_add]
  rcases Nat.eq_zero_or_pos k with rfl | hpos
  · rfl
  · obtain ⟨m, rfl⟩ : ∃ m, k = m + 1 := ⟨k - 1, by omega⟩
    have hlast := hused hpos.ne'
    rw [Nat.cast_succ, add_sub_cancel_right] at hlast
    rw [Nat.cast_succ, lineRange_concat (by omega), List.map_append, List.map_singleton,
      List.rdropWhile_concat_neg _ _ _ (by rw [hlast]; exact Bool.false_ne_true)]

/-- How many lines clearing the viewport scrolls up by. -/
def clearedLines (g : Grid Square) : ℕ :=
  ((g.clearViewportStop (g.lines * g.columns + 1) ⟨(g.lines : ℤ) - 1, g.columns⟩).row + 1).toNat

theorem stops_bottom (hlines : 1 ≤ g.lines) (hcolumns : 1 ≤ g.columns) :
    Stops g ⟨(g.lines : ℤ) - 1, g.columns⟩
      (g.clearViewportStop (g.lines * g.columns + 1) ⟨(g.lines : ℤ) - 1, g.columns⟩) := by
  apply stops_clearViewportStop hcolumns
  · show 0 ≤ (g.lines : ℤ) - 1
    omega
  · exact le_rfl
  · obtain ⟨n, hn⟩ : ∃ n, g.lines = n + 1 := ⟨g.lines - 1, by omega⟩
    show ((g.lines : ℤ) - 1).toNat * g.columns + g.columns < g.lines * g.columns + 1
    rw [hn, Nat.cast_succ, add_sub_cancel_right, Int.toNat_natCast, Nat.succ_mul]
    exact Nat.lt_succ_self _

theorem isClear_of_empty (hg : g.WellFormed) {l : ℤ} (hl : 0 ≤ l) (hl' : l < g.lines)
    (hempty : ∀ col < g.columns, GridSquare.isEmpty (g.cell ⟨l, col⟩) = true) :
    (g.row l).isClear = true := by
  have hlen : (g.row l).len = g.columns :=
    hg.width _ (Storage.row_mem hg.storage (hg.inBounds (by omega) hl'))
  rw [isClear_iff, hlen]
  exact hempty

/-- The rows through the last one in use move; without a history, a blank screen moves its first
row. -/
theorem take_clearedLines (hg : g.WellFormed) (hlines : 1 ≤ g.lines) (hcolumns : 1 ≤ g.columns) :
    g.clearedLines ≤ g.lines ∧
      (g.usedRows = g.viewport.take g.clearedLines ∧ (g.historySize = 0 → g.usedRows ≠ []) ∨
        g.usedRows = [] ∧ g.historySize = 0 ∧ g.clearedLines = 1) := by
  have hlength : g.viewport.length = g.lines := by simp [viewport]
  have hstops := stops_bottom hlines hcolumns
  unfold clearedLines
  generalize g.clearViewportStop (g.lines * g.columns + 1) ⟨(g.lines : ℤ) - 1, g.columns⟩ = stop
    at hstops ⊢
  cases hstops with
  | used hrow hcol hbefore hused hlast =>
    have hline : stop.row < g.lines := by
      unfold Before at hbefore
      dsimp only at hbefore
      omega
    have hbelow : ∀ l : ℤ, ((stop.row + 1).toNat : ℕ) ≤ l → l < g.lines →
        (g.row l).isClear = true := by
      intro l h1 h2
      refine isClear_of_empty hg (by omega) h2 fun col hcol => hlast ⟨l, col⟩ hcol ?_ ?_
      · unfold Before
        dsimp only
        omega
      · unfold Before
        dsimp only
        omega
    have hstop : (g.row (((stop.row + 1).toNat : ℕ) - 1)).isClear = false := by
      have hlen : (g.row stop.row).len = g.columns :=
        hg.width _ (Storage.row_mem hg.storage (hg.inBounds (by omega) hline))
      rw [show (((stop.row + 1).toNat : ℕ) : ℤ) - 1 = stop.row by omega, Bool.eq_false_iff]
      intro hclear
      have hcell := isClear_iff.mp hclear stop.col (by omega)
      exact Bool.false_ne_true (hused.symm.trans hcell)
    have hrows := usedRows_eq_take (by omega) hbelow fun _ => hstop
    refine ⟨by omega, .inl ⟨hrows, fun _ hnil => ?_⟩⟩
    have hcount := congrArg List.length (hrows.symm.trans hnil)
    rw [List.length_take, hlength, List.length_nil] at hcount
    omega
  | none hempty hrow =>
    have hclear : ∀ l : ℤ, 0 ≤ l → l < g.lines → (g.row l).isClear = true := by
      intro l h1 h2
      refine isClear_of_empty hg h1 h2 fun col hcol => hempty ⟨l, col⟩ h1 hcol ?_
      unfold Before
      dsimp only
      omega
    have hused : g.usedRows = g.viewport.take 0 :=
      usedRows_eq_take (Nat.zero_le _) (by simpa using hclear) fun h => absurd rfl h
    by_cases hsize : g.historySize = 0
    · rw [if_pos hsize] at hrow
      rw [hrow]
      exact ⟨hlines, .inr ⟨hused, hsize, rfl⟩⟩
    · rw [if_neg hsize] at hrow
      rw [hrow]
      exact ⟨Nat.zero_le _, .inl ⟨hused, fun h => absurd h hsize⟩⟩

/-! ### What is left on the screen and in the history -/

theorem clearViewport_eq (g : Grid Square) :
    g.clearViewport = { g.scrollUp ⟨0, g.lines⟩ g.clearedLines with
      raw := (g.scrollUp ⟨0, g.lines⟩ g.clearedLines).raw.resetLines g.cursor.template
        (lineRange 0 ((g.lines - g.clearedLines : ℕ) : ℤ)) } := by
  show { g.scrollUp ⟨0, g.lines⟩ g.clearedLines with
    raw := (g.scrollUp ⟨0, g.lines⟩ g.clearedLines).raw.resetLines
      (g.scrollUp ⟨0, g.lines⟩ g.clearedLines).cursor.template
      (lineRange 0 (((g.scrollUp ⟨0, g.lines⟩ g.clearedLines).lines - g.clearedLines : ℕ) : ℤ)) } = _
  rw [scrollUp_cursor, scrollUp_lines]

theorem historySize_clearViewport (g : Grid Square) :
    g.clearViewport.historySize = (g.scrollUp ⟨0, g.lines⟩ g.clearedLines).historySize := by
  rw [clearViewport_eq, historySize_eq, historySize_eq, Storage.resetLines_len]

theorem row_clearViewport (hg : g.WellFormed) (hlines : 1 ≤ g.lines) {l : ℤ}
    (hl : -((g.scrollUp ⟨0, g.lines⟩ g.clearedLines).historySize : ℤ) ≤ l) (hl' : l < g.lines) :
    g.clearViewport.row l =
      if l ∈ lineRange 0 ((g.lines - g.clearedLines : ℕ) : ℤ) then
        ((g.scrollUp ⟨0, g.lines⟩ g.clearedLines).row l).reset g.cursor.template
      else (g.scrollUp ⟨0, g.lines⟩ g.clearedLines).row l := by
  have hscrolled := scrollUp_wellFormed hg hlines ⟨0, g.lines⟩ g.clearedLines
  have hbounds {i : ℤ} (h : -((g.scrollUp ⟨0, g.lines⟩ g.clearedLines).historySize : ℤ) ≤ i)
      (h' : i < g.lines) : (g.scrollUp ⟨0, g.lines⟩ g.clearedLines).raw.InBounds i :=
    hscrolled.inBounds h (by rwa [scrollUp_lines])
  rw [clearViewport_eq]
  unfold row
  refine Storage.row_resetLines hscrolled.storage _ (nodup_lineRange _ _) (fun i hi => ?_)
    (hbounds hl hl')
  have := mem_lineRange.mp hi
  exact hbounds (by omega) (by omega)

theorem row_clearViewport_blank (hg : g.WellFormed) (hlines : 1 ≤ g.lines)
    (hcolumns : 1 ≤ g.columns) {l : ℤ} (hl : 0 ≤ l) (hl' : l < g.lines) :
    g.clearViewport.row l = Row.blank g.columns g.cursor.template := by
  obtain ⟨hle, -⟩ := take_clearedLines hg hlines hcolumns
  have hscrolled := scrollUp_wellFormed hg hlines ⟨0, g.lines⟩ g.clearedLines
  rw [row_clearViewport hg hlines (by omega) hl', if_congr mem_lineRange rfl rfl]
  split_ifs with hmoved
  · refine Row.reset_eq_blank ?_ _
    have hbounds := hscrolled.inBounds (by omega) (hl'.trans_eq (by rw [scrollUp_lines]))
    have hlen := hscrolled.width _ (Storage.row_mem hscrolled.storage hbounds)
    rwa [scrollUp_columns] at hlen
  · have hblank := row_scrollUp_top hg (r := ⟨0, g.lines⟩) (n := g.clearedLines) (l := l) rfl le_rfl
      (Int.ofNat_le.mpr hle) (by omega) hl'
    rw [if_neg (by show ¬ (g.lines : ℤ) ≤ l; omega), if_neg (by omega),
      if_neg (by show ¬ l < (g.lines : ℤ) - g.clearedLines; omega)] at hblank
    exact hblank

/-- Every row of the screen is blank afterwards. -/
theorem viewport_clearViewport (hg : g.WellFormed) (hlines : 1 ≤ g.lines)
    (hcolumns : 1 ≤ g.columns) :
    g.clearViewport.viewport =
      List.replicate g.lines (Row.blank g.columns g.cursor.template) := by
  have hlines' : g.clearViewport.lines = g.lines := by
    rw [clearViewport_eq]
    exact scrollUp_lines _ _ _
  unfold viewport
  rw [hlines', List.eq_replicate_iff]
  refine ⟨by simp, fun r hr => ?_⟩
  obtain ⟨l, hl, rfl⟩ := List.mem_map.mp hr
  exact row_clearViewport_blank hg hlines hcolumns (mem_lineRange.mp hl).1 (mem_lineRange.mp hl).2

/-- The history takes the lines that the screen is scrolled up by. -/
theorem history_clearViewport (hg : g.WellFormed) (hlines : 1 ≤ g.lines)
    (hcolumns : 1 ≤ g.columns) :
    g.clearViewport.history =
      (g.history ++ g.viewport.take g.clearedLines).drop
        (g.historySize + g.clearedLines - g.maxScrollLimit) := by
  obtain ⟨hle, -⟩ := take_clearedLines hg hlines hcolumns
  have hscrolled := history_scrollUp_top hg (r := ⟨0, g.lines⟩) (n := g.clearedLines) rfl le_rfl
    (Int.ofNat_le.mpr hle)
  rw [← hscrolled]
  unfold history
  rw [historySize_clearViewport]
  apply map_lineRange_congr
  intro l h1 h2
  rw [row_clearViewport hg hlines h1 (by omega), if_neg]
  intro hmem
  have := mem_lineRange.mp hmem
  omega

/-- Exactly the rows in use have moved into the history, whose oldest rows go once its limit is
reached, and the screen is blank. -/
def Cleared (g g' : Grid Square) : Prop :=
  g'.history =
      (g.history ++ g.usedRows).drop (g.historySize + g.usedRows.length - g.maxScrollLimit) ∧
    g'.viewport = List.replicate g.lines (Row.blank g.columns g.cursor.template)

/-- The viewport is cleared as it should be, unless it is blank and there is room for a history
but none yet. -/
theorem clearViewport_cleared_iff (g : Grid Square) (hg : g.WellFormed) (hlines : 1 ≤ g.lines)
    (hcolumns : 1 ≤ g.columns) :
    g.Cleared g.clearViewport ↔
      ¬ ((∀ r ∈ g.viewport, r.isClear = true) ∧ g.historySize = 0 ∧ 0 < g.maxScrollLimit) := by
  obtain ⟨hle, hmoved⟩ := take_clearedLines hg hlines hcolumns
  have hhistory := history_clearViewport hg hlines hcolumns
  have hlength : g.viewport.length = g.lines := by simp [viewport]
  have hblank : g.usedRows = [] ↔ ∀ r ∈ g.viewport, r.isClear = true :=
    List.rdropWhile_eq_nil_iff
  have hiff : g.Cleared g.clearViewport ↔ g.clearViewport.history =
      (g.history ++ g.usedRows).drop
        (g.historySize + g.usedRows.length - g.maxScrollLimit) :=
    and_iff_left (viewport_clearViewport hg hlines hcolumns)
  rw [hiff, hhistory, ← hblank]
  rcases hmoved with ⟨htake, hfirst⟩ | ⟨hnone, hsize, hone⟩
  · have hcount : g.usedRows.length = g.clearedLines := by
      rw [htake, List.length_take, hlength, min_eq_left hle]
    refine iff_of_true ?_ fun h => hfirst h.2.1 h.1
    rw [hcount, htake]
  · have hold : g.history = [] := by
      unfold history
      rw [hsize, lineRange_empty (by omega)]
      rfl
    rw [hone, hnone, hsize, hold, List.nil_append, List.nil_append, List.length_nil, zero_add,
      List.drop_nil, List.drop_eq_nil_iff, List.length_take, hlength, min_eq_left hlines]
    constructor
    · rintro hdropped ⟨-, -, hlimit⟩
      omega
    · intro h
      have hlimit : ¬ 0 < g.maxScrollLimit := fun hlimit => h ⟨rfl, rfl, hlimit⟩
      omega

theorem clearViewport_cleared_iff_new :
    (new 3 2 10 : Grid Square).Cleared (new 3 2 10).clearViewport ↔
      ¬ ((∀ r ∈ (new 3 2 10 : Grid Square).viewport, r.isClear = true) ∧
        (new 3 2 10 : Grid Square).historySize = 0 ∧ 0 < (new 3 2 10 : Grid Square).maxScrollLimit) :=
  clearViewport_cleared_iff (new 3 2 10) (new_wellFormed (by decide) 2 10) (by decide) (by decide)

/-- A blank row of a new terminal moves into the history. -/
theorem clearViewport_moves_blank_row :
    ¬ ∀ g : Grid Square, g.WellFormed → 1 ≤ g.lines → 1 ≤ g.columns →
        g.Cleared g.clearViewport := by
  intro h
  have hcleared := h (new 3 2 10) (new_wellFormed (by decide) 2 10) (by decide) (by decide)
  exact absurd (congrArg List.length hcleared.1) (by decide)

end Rio.Grid
