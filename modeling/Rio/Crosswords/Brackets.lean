import Rio.Crosswords.Ops
import Rio.Crosswords.ViSearch
import Rio.Lib.Brackets

/-! The search for a matching bracket finds the one that closes it, or opens it, in reading
order. -/

set_option linter.dupNamespace false

namespace Rio
open Rio.Checked

namespace Grid

variable {g : Grid Square} {p q : Pos} {i : ℕ}

/-! ### Reading order -/

/-- The position of a cell, counted from the oldest line of the history on. -/
def position (g : Grid Square) (i : ℕ) : Pos := ⟨g.topmostLine + (i / g.columns : ℕ), i % g.columns⟩

/-- All positions in reading order. -/
def positions (g : Grid Square) : List Pos :=
  (List.range ((g.historySize + g.lines) * g.columns)).map g.position

theorem position_hasCell (hi : i < (g.historySize + g.lines) * g.columns) :
    g.HasCell (g.position i) := by
  have hpos : 0 < g.columns := Nat.pos_of_ne_zero fun hzero => by simp [hzero] at hi
  have hrow : i / g.columns < g.historySize + g.lines :=
    Nat.div_lt_of_lt_mul (by rwa [mul_comm] at hi)
  refine ⟨?_, ?_, Nat.mod_lt i hpos⟩
  · exact le_add_of_nonneg_right (Int.natCast_nonneg _)
  · show g.topmostLine + (i / g.columns : ℕ) < g.lines
    rw [topmostLine_eq]
    omega

theorem hasCell_of_mem (h : p ∈ g.positions) : g.HasCell p := by
  obtain ⟨i, hi, rfl⟩ := List.mem_map.mp h
  exact position_hasCell (List.mem_range.mp hi)

theorem mem_positions (hp : g.HasCell p) : p ∈ g.positions := by
  obtain ⟨htop, hline, hcol⟩ := hp
  rw [topmostLine_eq] at htop
  have hpos : 0 < g.columns := by omega
  have hrow : (p.row + g.historySize).toNat + 1 ≤ g.historySize + g.lines := by omega
  refine List.mem_map.mpr ⟨(p.row + g.historySize).toNat * g.columns + p.col, ?_, ?_⟩
  · rw [List.mem_range]
    calc (p.row + g.historySize).toNat * g.columns + p.col
        < (p.row + g.historySize).toNat * g.columns + g.columns := by omega
      _ = ((p.row + g.historySize).toNat + 1) * g.columns := by rw [Nat.succ_mul]
      _ ≤ (g.historySize + g.lines) * g.columns := Nat.mul_le_mul_right _ hrow
  · unfold position
    rw [Nat.mul_comm, Nat.mul_add_div hpos, Nat.div_eq_of_lt hcol, Nat.mul_add_mod,
      Nat.mod_eq_of_lt hcol, topmostLine_eq, Pos.mk.injEq]
    exact ⟨by omega, rfl⟩

/-- Each position comes once. -/
theorem positions_nodup (g : Grid Square) : g.positions.Nodup := by
  refine List.Nodup.map_on ?_ List.nodup_range
  intro i _ j _ hsame
  have hcol : i % g.columns = j % g.columns := congrArg Pos.col hsame
  have hrow : g.topmostLine + (i / g.columns : ℕ) = g.topmostLine + (j / g.columns : ℕ) :=
    congrArg Pos.row hsame
  have hdiv : i / g.columns = j / g.columns := by omega
  rw [← Nat.div_add_mod i g.columns, ← Nat.div_add_mod j g.columns, hdiv, hcol]

theorem position_succ (hpos : 0 < g.columns) (i : ℕ) :
    g.position (i + 1) = if (g.position i).col = g.lastColumn then ⟨(g.position i).row + 1, 0⟩
      else ⟨(g.position i).row, (g.position i).col + 1⟩ := by
  have hlt := Nat.mod_lt i hpos
  have hi := Nat.div_add_mod i g.columns
  unfold position
  dsimp only
  rw [lastColumn_eq]
  split_ifs with hlast
  · have hnext : i + 1 = g.columns * (i / g.columns + 1) := by
      rw [Nat.mul_add_one]
      omega
    rw [hnext, Nat.mul_div_cancel_left _ hpos, Nat.mul_mod_right]
    push_cast
    rw [add_assoc]
  · have hnext : i + 1 = g.columns * (i / g.columns) + (i % g.columns + 1) := by omega
    have hcol : i % g.columns + 1 < g.columns := by omega
    rw [hnext, Nat.mul_add_div hpos, Nat.div_eq_of_lt hcol, Nat.mul_add_mod, Nat.mod_eq_of_lt hcol,
      Nat.add_zero]

/-- The positions before a position are counted by its number. -/
theorem position_of_split {before after : List Pos} (h : g.positions = before ++ p :: after) :
    p = g.position before.length := by
  have hget : g.positions[before.length]? = some p := by simp [h]
  have hlt : before.length < (g.historySize + g.lines) * g.columns := by
    have hlen := congrArg List.length h
    simp [positions] at hlen
    omega
  rw [positions, List.getElem?_map, List.getElem?_range hlt] at hget
  exact (Option.some.inj hget).symm

theorem columns_pos_of_split {before after : List Pos} (h : g.positions = before ++ p :: after) :
    0 < g.columns := by
  have hcell : g.HasCell p := hasCell_of_mem (by simp [h])
  exact (Nat.zero_le _).trans_lt hcell.2.2

theorem nextPos_of_split {before after : List Pos} (h : g.positions = before ++ p :: q :: after) :
    g.nextPos p = some q := by
  have hp := position_of_split h
  have hsplit : g.positions = (before ++ [p]) ++ q :: after := by simpa using h
  have hq : q = g.position (before.length + 1) := by simpa using position_of_split hsplit
  have hcell : g.HasCell q := hasCell_of_mem (by simp [h])
  rw [position_succ (columns_pos_of_split h), ← hp] at hq
  obtain ⟨-, hline, hcol⟩ := hcell
  have hbefore : p < ⟨g.bottommostLine, g.lastColumn⟩ := by
    rw [Pos.lt_iff, bottommostLine_eq, lastColumn_eq]
    dsimp only
    rw [lastColumn_eq] at hq
    split_ifs at hq with hlast
    · rw [hq] at hline
      dsimp only at hline
      omega
    · rw [hq] at hline hcol
      dsimp only at hline hcol
      omega
  unfold nextPos
  rw [if_pos hbefore, hq]

theorem nextPos_of_last {before : List Pos} (h : g.positions = before ++ [p]) :
    g.nextPos p = none := by
  have hpos := columns_pos_of_split h
  have hp := position_of_split h
  have hlen : (g.historySize + g.lines) * g.columns = before.length + 1 := by
    simpa [positions] using congrArg List.length h
  -- the position after the last one starts the line below the screen
  have hend : g.position (before.length + 1) = ⟨g.lines, 0⟩ := by
    unfold position
    rw [← hlen, Nat.mul_div_left _ hpos, Nat.mul_mod_left, topmostLine_eq]
    push_cast
    rw [neg_add_cancel_left]
  rw [position_succ hpos, ← hp] at hend
  have hnot : ¬ p < ⟨g.bottommostLine, g.lastColumn⟩ := by
    rw [Pos.lt_iff, bottommostLine_eq]
    split_ifs at hend with hlast
    · have hrow : p.row + 1 = g.lines := congrArg Pos.row hend
      dsimp only
      omega
    · have hcol : p.col + 1 = 0 := congrArg Pos.col hend
      omega
  exact if_neg hnot

theorem prevPos_of_split {before after : List Pos} (h : g.positions = before ++ p :: q :: after) :
    g.prevPos q = some p := by
  have hp := position_of_split h
  have hsplit : g.positions = (before ++ [p]) ++ q :: after := by simpa using h
  have hq : q = g.position (before.length + 1) := by simpa using position_of_split hsplit
  have htop : g.topmostLine ≤ p.row := (hasCell_of_mem (by simp [h])).1
  rw [position_succ (columns_pos_of_split h), ← hp] at hq
  unfold prevPos
  split_ifs at hq with hlast
  · have hne : q ≠ ⟨g.topmostLine, 0⟩ := by
      rw [hq, Ne, Pos.mk.injEq]
      omega
    rw [if_neg hne, hq, if_pos rfl, ← hlast]
    simp
  · have hne : q ≠ ⟨g.topmostLine, 0⟩ := by
      rw [hq, Ne, Pos.mk.injEq]
      omega
    rw [if_neg hne, hq, if_neg (Nat.succ_ne_zero _)]
    simp

theorem prevPos_of_first {after : List Pos} (h : g.positions = p :: after) :
    g.prevPos p = none := by
  have hsplit : g.positions = [] ++ p :: after := h
  have hp : p = g.position 0 := position_of_split hsplit
  have hfirst : p = ⟨g.topmostLine, 0⟩ := by simp [hp, position]
  exact if_pos hfirst

end Grid

namespace Vi

variable {g : Grid Square} {p q : Pos}

/-- The positions that the iterator comes to, one after the other. -/
def Walks (g : Grid Square) (forward : Bool) : Pos → List Pos → Prop
  | p, [] => nextOrPrev g forward p = .ok none
  | p, q :: path => nextOrPrev g forward p = .ok (some q) ∧ Walks g forward q path

theorem walks_forward {before after : List Pos} (h : g.positions = before ++ p :: after) :
    Walks g true p after := by
  induction after generalizing before p with
  | nil =>
    show next g p = .ok none
    rw [next, Grid.nextPos_of_last h]
  | cons q after ih =>
    constructor
    · have hq : g.HasCell q := Grid.hasCell_of_mem (by simp [h])
      show next g p = .ok (some q)
      rw [next, Grid.nextPos_of_split h]
      dsimp only
      rw [readCell_of_hasCell hq]
      rfl
    · have hsplit : g.positions = (before ++ [p]) ++ q :: after := by simpa using h
      exact ih hsplit

theorem walks_backward {before after : List Pos} (h : g.positions = before.reverse ++ p :: after) :
    Walks g false p before := by
  induction before generalizing p after with
  | nil =>
    show prev g p = .ok none
    rw [prev, Grid.prevPos_of_first h]
  | cons q before ih =>
    have hsplit : g.positions = before.reverse ++ q :: p :: after := by simpa using h
    constructor
    · have hq : g.HasCell q := Grid.hasCell_of_mem (by simp [hsplit])
      show prev g p = .ok (some q)
      rw [prev, Grid.prevPos_of_split hsplit]
      dsimp only
      rw [readCell_of_hasCell hq]
      rfl
    · exact ih hsplit

/-- The character of a cell. -/
def charAt (g : Grid Square) (p : Pos) : Char := (g.cell p).c

/-- The loop searches the positions that the iterator comes to. -/
theorem findBracket_search {forward : Bool} {startChar endChar : Char} {path : List Pos}
    (h : Walks g forward p path) (skipPairs : ℕ) :
    Ends (fun fuel => findBracket g forward startChar endChar fuel (skipPairs, p))
      (Brackets.search (charAt g) startChar endChar skipPairs path) := by
  induction path generalizing p skipPairs with
  | nil =>
    apply ends_loop_of_done
    dsimp only
    rw [show nextOrPrev g forward p = .ok none from h]
    rfl
  | cons q path ih =>
    obtain ⟨hstep, hrest⟩ := h
    rw [Brackets.search]
    unfold charAt
    by_cases hhere : (g.cell q).c = endChar ∧ skipPairs = 0
    · rw [if_pos hhere]
      apply ends_loop_of_done
      dsimp only
      rw [hstep, ok_bind]
      simp only [Bool.and_eq_true, decide_eq_true_eq]
      rw [if_pos hhere]
      rfl
    · rw [if_neg hhere]
      by_cases hstart : (g.cell q).c = startChar
      · rw [if_pos hstart]
        refine ends_loop_of_again ?_ (ih hrest (skipPairs + 1))
        dsimp only
        rw [hstep, ok_bind]
        simp only [Bool.and_eq_true, decide_eq_true_eq]
        rw [if_neg hhere, if_pos hstart]
        rfl
      · rw [if_neg hstart]
        by_cases hend : (g.cell q).c = endChar
        · have hpos : 1 ≤ skipPairs := Nat.pos_of_ne_zero fun hzero => hhere ⟨hend, hzero⟩
          rw [if_pos hend]
          refine ends_loop_of_again ?_ (ih hrest (skipPairs - 1))
          dsimp only
          rw [hstep, ok_bind]
          simp only [Bool.and_eq_true, decide_eq_true_eq]
          rw [if_neg hhere, if_neg hstart, if_pos hend, sub_of_le hpos]
          rfl
        · rw [if_neg hend]
          refine ends_loop_of_again ?_ (ih hrest skipPairs)
          dsimp only
          rw [hstep, ok_bind]
          simp only [Bool.and_eq_true, decide_eq_true_eq]
          rw [if_neg hhere, if_neg hstart, if_neg hend]
          rfl

/-! ### The partner of a bracket -/

/-- The bracket at `p` is closed by the one at `q`: in reading order, the brackets of their kind
that come between them are balanced. -/
def Encloses (g : Grid Square) (p q : Pos) : Prop :=
  ∃ before between after, g.positions = before ++ p :: (between ++ q :: after) ∧
    (charAt g p, charAt g q) ∈ Grid.bracketPairs ∧
    Brackets.Balanced (charAt g p) (charAt g q) (between.map (charAt g))

theorem mem_bracketPairs {c d : Char} : (c, d) ∈ Grid.bracketPairs ↔
    c = '(' ∧ d = ')' ∨ c = '[' ∧ d = ']' ∨ c = '\x7b' ∧ d = '\x7d' ∨ c = '<' ∧ d = '>' := by
  simp [Grid.bracketPairs]

section Pairs

variable {c d e : Char}

theorem bracketPairs_ne (h : (c, d) ∈ Grid.bracketPairs) : c ≠ d := by
  obtain ⟨rfl, rfl⟩ | ⟨rfl, rfl⟩ | ⟨rfl, rfl⟩ | ⟨rfl, rfl⟩ := mem_bracketPairs.mp h
  all_goals decide

theorem closing_unique (h : (c, d) ∈ Grid.bracketPairs) (h' : (c, e) ∈ Grid.bracketPairs) :
    e = d := by
  obtain ⟨rfl, rfl⟩ | ⟨rfl, rfl⟩ | ⟨rfl, rfl⟩ | ⟨rfl, rfl⟩ := mem_bracketPairs.mp h
  all_goals simpa [mem_bracketPairs] using h'

theorem opening_unique (h : (d, c) ∈ Grid.bracketPairs) (h' : (e, c) ∈ Grid.bracketPairs) :
    e = d := by
  obtain ⟨rfl, rfl⟩ | ⟨rfl, rfl⟩ | ⟨rfl, rfl⟩ | ⟨rfl, rfl⟩ := mem_bracketPairs.mp h
  all_goals simpa [mem_bracketPairs] using h'

/-- A bracket that opens does not close. -/
theorem not_closing (h : (c, d) ∈ Grid.bracketPairs) : (e, c) ∉ Grid.bracketPairs := by
  obtain ⟨rfl, rfl⟩ | ⟨rfl, rfl⟩ | ⟨rfl, rfl⟩ | ⟨rfl, rfl⟩ := mem_bracketPairs.mp h
  all_goals simp [mem_bracketPairs]

end Pairs

theorem bracketSearch_opening (hp : g.HasCell p) {closing : Char}
    (hpair : (charAt g p, closing) ∈ Grid.bracketPairs) (fuel : ℕ) :
    bracketSearch g fuel p = findBracket g true (charAt g p) closing fuel (0, p) := by
  unfold bracketSearch
  rw [readCell_of_hasCell hp, ok_bind]
  unfold charAt at hpair ⊢
  obtain ⟨hc, rfl⟩ | ⟨hc, rfl⟩ | ⟨hc, rfl⟩ | ⟨hc, rfl⟩ := mem_bracketPairs.mp hpair
  all_goals
    rw [hc]
    rfl

theorem bracketSearch_closing (hp : g.HasCell p) {opening : Char}
    (hpair : (opening, charAt g p) ∈ Grid.bracketPairs) (fuel : ℕ) :
    bracketSearch g fuel p = findBracket g false (charAt g p) opening fuel (0, p) := by
  unfold bracketSearch
  rw [readCell_of_hasCell hp, ok_bind]
  unfold charAt at hpair ⊢
  obtain ⟨rfl, hc⟩ | ⟨rfl, hc⟩ | ⟨rfl, hc⟩ | ⟨rfl, hc⟩ := mem_bracketPairs.mp hpair
  all_goals
    rw [hc]
    rfl

theorem bracketSearch_other (hp : g.HasCell p)
    (hopening : ∀ c, (charAt g p, c) ∉ Grid.bracketPairs)
    (hclosing : ∀ c, (c, charAt g p) ∉ Grid.bracketPairs) (fuel : ℕ) :
    bracketSearch g fuel p = .ok none := by
  unfold bracketSearch
  rw [readCell_of_hasCell hp, ok_bind]
  unfold charAt at hopening hclosing
  rw [List.findSome?_eq_none_iff.mpr]
  · rfl
  · intro pair hpair
    have hfirst : pair.1 ≠ (g.cell p).c := fun heq => hopening pair.2 (heq ▸ hpair)
    have hsecond : pair.2 ≠ (g.cell p).c := fun heq => hclosing pair.1 (heq ▸ hpair)
    simp [hfirst, hsecond]

theorem split_unique {before after before' after' : List Pos}
    (h : g.positions = before ++ p :: after) (h' : g.positions = before' ++ p :: after') :
    before = before' ∧ after = after' := by
  have hnodup := g.positions_nodup
  rw [h, List.nodup_middle, List.nodup_cons, List.mem_append, not_or] at hnodup
  obtain ⟨hbefore, -, hafter⟩ :=
    (List.append_cons_inj_of_notMem hnodup.1.1 hnodup.1.2).mp (h.symm.trans h')
  exact ⟨hbefore, hafter⟩

/-- Going forward, the position that closes an opening bracket. -/
theorem closes_after_iff {before after : List Pos} (h : g.positions = before ++ p :: after)
    {closing : Char} (hpair : (charAt g p, closing) ∈ Grid.bracketPairs) :
    Brackets.Closes (charAt g) (charAt g p) closing 0 after q ↔ Encloses g p q := by
  constructor
  · intro hcloses
    obtain ⟨between, rest, hafter, hchar, hbalanced⟩ := hcloses
    refine ⟨before, between, rest, ?_, ?_, ?_⟩
    · rw [h, hafter]
    · rwa [hchar]
    · rwa [hchar]
  · intro hencloses
    obtain ⟨before', between, rest, hsplit, hpair', hbalanced⟩ := hencloses
    obtain ⟨-, rfl⟩ := split_unique hsplit h
    have hchar : charAt g q = closing := closing_unique hpair hpair'
    rw [hchar] at hbalanced
    exact ⟨between, rest, rfl, hchar, hbalanced⟩

/-- Going backward, the position that opens a closing bracket. -/
theorem closes_before_iff {before after : List Pos} (h : g.positions = before.reverse ++ p :: after)
    {opening : Char} (hpair : (opening, charAt g p) ∈ Grid.bracketPairs) :
    Brackets.Closes (charAt g) (charAt g p) opening 0 before q ↔ Encloses g q p := by
  constructor
  · intro hcloses
    obtain ⟨between, rest, hbefore, hchar, hbalanced⟩ := hcloses
    refine ⟨rest.reverse, between.reverse, after, ?_, ?_, ?_⟩
    · simp [h, hbefore]
    · rwa [hchar]
    · rw [hchar, List.map_reverse]
      exact Brackets.Balanced.reverse hbalanced
  · intro hencloses
    obtain ⟨before', between, rest, hsplit, hpair', hbalanced⟩ := hencloses
    have hsplit' : g.positions = (before' ++ q :: between) ++ p :: rest := by simp [hsplit]
    obtain ⟨hbefore, -⟩ := split_unique h hsplit'
    have hchar : charAt g q = opening := opening_unique hpair hpair'
    refine ⟨between.reverse, before'.reverse, ?_, hchar, ?_⟩
    · rw [← before.reverse_reverse, hbefore]
      simp
    · rw [hchar] at hbalanced
      rw [List.map_reverse]
      exact hbalanced.reverse

/-- For every text of a grid and every position on it, the search ends. It returns the position of
the bracket that closes the one it starts at, or that opens it, and nothing if there is none. -/
theorem bracketSearch_partner (g : Grid Square) (p : Pos) (hp : g.HasCell p) :
    ∃ found, Ends (fun fuel => bracketSearch g fuel p) found ∧
      ∀ q, found = some q ↔ Encloses g p q ∨ Encloses g q p := by
  obtain ⟨before, after, h⟩ := List.append_of_mem (Grid.mem_positions hp)
  by_cases hopening : ∃ closing, (charAt g p, closing) ∈ Grid.bracketPairs
  · obtain ⟨closing, hpair⟩ := hopening
    have hends : Ends (fun fuel => bracketSearch g fuel p)
        (Brackets.search (charAt g) (charAt g p) closing 0 after) := by
      simp only [bracketSearch_opening hp hpair]
      exact findBracket_search (walks_forward h) 0
    refine ⟨_, hends, fun q => ?_⟩
    have hno : ¬ Encloses g q p := by
      intro hencloses
      obtain ⟨-, -, -, -, hpair', -⟩ := hencloses
      exact not_closing hpair hpair'
    rw [Brackets.search_eq_some_iff (bracketPairs_ne hpair), closes_after_iff h hpair,
      or_iff_left hno]
  · by_cases hclosing : ∃ opening, (opening, charAt g p) ∈ Grid.bracketPairs
    · obtain ⟨opening, hpair⟩ := hclosing
      have hback : g.positions = before.reverse.reverse ++ p :: after := by simpa using h
      have hends : Ends (fun fuel => bracketSearch g fuel p)
          (Brackets.search (charAt g) (charAt g p) opening 0 before.reverse) := by
        simp only [bracketSearch_closing hp hpair]
        exact findBracket_search (walks_backward hback) 0
      refine ⟨_, hends, fun q => ?_⟩
      have hno : ¬ Encloses g p q := by
        intro hencloses
        obtain ⟨-, -, -, -, hpair', -⟩ := hencloses
        exact hopening ⟨_, hpair'⟩
      rw [Brackets.search_eq_some_iff (bracketPairs_ne hpair).symm,
        closes_before_iff hback hpair, or_iff_right hno]
    · refine ⟨none, Ends.of_ok (bracketSearch_other hp (fun c hc => hopening ⟨c, hc⟩)
        fun c hc => hclosing ⟨c, hc⟩), fun q => ?_⟩
      constructor
      · intro hnone
        cases hnone
      · intro hpartner
        obtain ⟨-, -, -, -, hpair, -⟩ | ⟨-, -, -, -, hpair, -⟩ := hpartner
        · exact absurd ⟨_, hpair⟩ hopening
        · exact absurd ⟨_, hpair⟩ hclosing

/-- The text `((x))` over two rows of three columns, from its first bracket on. -/
theorem bracketSearch_partner_wrapped :
    ∃ found, Ends (fun fuel => bracketSearch
        ((Crosswords.new 3 2 0).run .basic ("((x))".toList.map .input)).grid fuel ⟨0, 0⟩) found ∧
      ∀ q, found = some q ↔
        Encloses ((Crosswords.new 3 2 0).run .basic ("((x))".toList.map .input)).grid ⟨0, 0⟩ q ∨
        Encloses ((Crosswords.new 3 2 0).run .basic ("((x))".toList.map .input)).grid q ⟨0, 0⟩ :=
  bracketSearch_partner _ ⟨0, 0⟩ (by decide +kernel)

end Vi
end Rio
