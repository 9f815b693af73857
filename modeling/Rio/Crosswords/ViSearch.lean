import Rio.Crosswords.ViMode
import Rio.Grid.ResizeSound

/-! Searches over the grid end, and stay on it. -/

set_option linter.dupNamespace false

namespace Rio
open Rio.Checked

namespace Grid

variable {g : Grid Square} {p q : Pos}

theorem bottommostLine_eq (g : Grid Square) : g.bottommostLine = (g.lines : ℤ) - 1 := rfl

theorem lastColumn_eq (g : Grid Square) : g.lastColumn = g.columns - 1 := rfl

/-- The cells of the grid before a position. -/
def index (g : Grid Square) (p : Pos) : ℕ := (p.row - g.topmostLine).toNat * g.columns + p.col

theorem index_lt (h : g.Sound False) (hp : g.HasCell p) : g.index p < g.cells := by
  obtain ⟨htop, hline, hcol⟩ := hp
  have hlen : g.raw.len = g.historySize + g.lines := by
    have hfilled := h.wellFormed.filled
    rw [historySize_eq]
    omega
  have hrow : (p.row - g.topmostLine).toNat + 1 ≤ g.raw.len := by
    rw [topmostLine_eq] at htop ⊢
    omega
  calc g.index p < (p.row - g.topmostLine).toNat * g.columns + g.columns :=
        Nat.add_lt_add_left hcol _
    _ = ((p.row - g.topmostLine).toNat + 1) * g.columns := (Nat.succ_mul _ _).symm
    _ ≤ g.raw.len * g.columns := Nat.mul_le_mul_right _ hrow

theorem index_next_row (h : g.Sound False) (htop : g.topmostLine ≤ p.row) :
    g.index ⟨p.row + 1, 0⟩ = g.index ⟨p.row, g.lastColumn⟩ + 1 := by
  have hcolumns := h.columns_ge
  have hrow : (p.row + 1 - g.topmostLine).toNat = (p.row - g.topmostLine).toNat + 1 := by omega
  unfold index
  rw [hrow, Nat.succ_mul, lastColumn_eq]
  dsimp only
  omega

theorem nextPos_spec (h : g.Sound False) (hp : g.HasCell p) (hq : g.nextPos p = some q) :
    g.HasCell q ∧ g.index q = g.index p + 1 := by
  obtain ⟨htop, hline, hcol⟩ := hp
  have hcolumns := h.columns_ge
  unfold nextPos at hq
  by_cases hlast : p < ⟨g.bottommostLine, g.lastColumn⟩
  · rw [if_pos hlast] at hq
    rw [Pos.lt_iff, bottommostLine_eq, lastColumn_eq] at hlast
    dsimp only at hlast
    by_cases hend : p.col = g.lastColumn
    · rw [if_pos hend] at hq
      cases hq
      refine ⟨⟨?_, ?_, ?_⟩, ?_⟩
      · show g.topmostLine ≤ p.row + 1
        omega
      · show p.row + 1 < g.lines
        rw [lastColumn_eq] at hend
        omega
      · show 0 < g.columns
        omega
      · rw [index_next_row h htop, ← hend]
    · rw [if_neg hend] at hq
      cases hq
      rw [lastColumn_eq] at hend
      refine ⟨⟨htop, hline, ?_⟩, rfl⟩
      show p.col + 1 < g.columns
      omega
  · rw [if_neg hlast] at hq
    cases hq

theorem prevPos_spec (h : g.Sound False) (hp : g.HasCell p) (hq : g.prevPos p = some q) :
    g.HasCell q ∧ g.index q + 1 = g.index p := by
  obtain ⟨htop, hline, hcol⟩ := hp
  have hcolumns := h.columns_ge
  unfold prevPos at hq
  by_cases hfirst : p = ⟨g.topmostLine, 0⟩
  · rw [if_pos hfirst] at hq
    cases hq
  · rw [if_neg hfirst] at hq
    by_cases hstart : p.col = 0
    · rw [if_pos hstart] at hq
      cases hq
      have hrow : p.row ≠ g.topmostLine := fun heq => hfirst (by
        rw [← heq, ← hstart])
      refine ⟨⟨?_, ?_, ?_⟩, ?_⟩
      · show g.topmostLine ≤ p.row - 1
        omega
      · show p.row - 1 < g.lines
        omega
      · show g.columns - 1 < g.columns
        omega
      · have hnext := index_next_row (p := ⟨p.row - 1, 0⟩) h (by
          show g.topmostLine ≤ p.row - 1
          omega)
        have hback : p.row - 1 + 1 = p.row := by omega
        rw [← hnext]
        show g.index ⟨p.row - 1 + 1, 0⟩ = _
        rw [hback, ← hstart]
    · rw [if_neg hstart] at hq
      cases hq
      refine ⟨⟨htop, hline, ?_⟩, ?_⟩
      · show p.col - 1 < g.columns
        omega
      · unfold index
        dsimp only
        omega

/-! ### Searches stay on the grid -/

theorem inlineSearchLeft_hasCell (h : g.Sound False) (needles : List Char) :
    ∀ (n : ℕ) {p : Pos}, g.HasCell p → g.HasCell (g.inlineSearchLeft needles n p).2
  | 0, _, hp => hp
  | n + 1, p, hp => by
    unfold inlineSearchLeft
    cases hprev : g.prevPos p with
    | none => exact hp
    | some q =>
      have hq := (prevPos_spec h hp hprev).1
      dsimp only
      split_ifs
      · exact hp
      · exact hq
      · exact inlineSearchLeft_hasCell h needles n hq

theorem inlineSearchRight_hasCell (h : g.Sound False) (needles : List Char) :
    ∀ (n : ℕ) {p : Pos}, g.HasCell p → g.HasCell (g.inlineSearchRight needles n p).2
  | 0, _, hp => hp
  | n + 1, p, hp => by
    unfold inlineSearchRight
    cases hnext : g.nextPos p with
    | none => exact hp
    | some q =>
      have hq := (nextPos_spec h hp hnext).1
      dsimp only
      split_ifs
      · exact hq
      · exact hq
      · exact inlineSearchRight_hasCell h needles n hq

theorem skipSpacers_hasCell (h : g.Sound False) :
    ∀ (n : ℕ) {p q : Pos}, g.HasCell p → g.skipSpacers n p = some q → g.HasCell q
  | 0, _, _, _, hq => by cases hq
  | n + 1, p, q, hp, hq => by
    unfold skipSpacers at hq
    cases hnext : g.nextPos p with
    | none =>
      rw [hnext] at hq
      cases hq
    | some next =>
      have hspec := (nextPos_spec h hp hnext).1
      rw [hnext] at hq
      dsimp only at hq
      by_cases hspacer : g.isSpacer next = true
      · rw [if_pos hspacer] at hq
        exact skipSpacers_hasCell h n hspec hq
      · rw [if_neg hspacer] at hq
        cases hq
        exact hspec

theorem findBracket_hasCell (h : g.Sound False) (forward : Bool) (startChar endChar : Char) :
    ∀ (n skipPairs : ℕ) {p q : Pos}, g.HasCell p →
      g.findBracket forward startChar endChar n skipPairs p = some q → g.HasCell q
  | 0, _, _, _, _, hq => by cases hq
  | n + 1, skipPairs, p, q, hp, hq => by
    unfold findBracket at hq
    cases hnext : (if forward then g.nextPos p else g.prevPos p) with
    | none =>
      rw [hnext] at hq
      cases hq
    | some next =>
      have hspec : g.HasCell next := by
        split_ifs at hnext
        · exact (nextPos_spec h hp hnext).1
        · exact (prevPos_spec h hp hnext).1
      rw [hnext] at hq
      dsimp only at hq
      split_ifs at hq
      · cases hq
        exact hspec
      · exact findBracket_hasCell h forward startChar endChar n _ hspec hq
      · exact findBracket_hasCell h forward startChar endChar n _ hspec hq
      · exact findBracket_hasCell h forward startChar endChar n _ hspec hq

theorem fromTop (htop : g.topmostLine ≤ p.row) : { p with row := max p.row g.topmostLine } = p := by
  rw [max_eq_left htop]

theorem semanticSearchLeft_hasCell (h : g.Sound False) (hp : g.HasCell p) :
    g.HasCell (g.semanticSearchLeft p) := by
  unfold semanticSearchLeft
  rw [fromTop hp.1]
  have hfound := inlineSearchLeft_hasCell h semanticEscapeChars g.cells hp
  generalize g.inlineSearchLeft semanticEscapeChars g.cells p = result at hfound ⊢
  obtain ⟨found, point⟩ := result
  cases found with
  | false => exact hfound
  | true =>
    cases hskip : g.skipSpacers g.cells point with
    | none =>
      dsimp only
      rw [hskip]
      exact hfound
    | some start =>
      dsimp only
      rw [hskip]
      exact skipSpacers_hasCell h _ hfound hskip

theorem semanticSearchRight_hasCell (h : g.Sound False) (hp : g.HasCell p) :
    g.HasCell (g.semanticSearchRight p) := by
  unfold semanticSearchRight
  simp only [fromTop hp.1]
  split_ifs
  · exact hp
  · have hfound := inlineSearchRight_hasCell h semanticEscapeChars g.cells hp
    generalize g.inlineSearchRight semanticEscapeChars g.cells p = result at hfound ⊢
    obtain ⟨found, point⟩ := result
    cases found with
    | false => exact hfound
    | true =>
      cases hprev : g.prevPos point with
      | none =>
        dsimp only
        rw [hprev]
        exact hfound
      | some before =>
        dsimp only
        rw [hprev]
        exact (prevPos_spec h hfound hprev).1

theorem bracketSearch_hasCell (h : g.Sound False) (hp : g.HasCell p)
    (hq : g.bracketSearch p = some q) : g.HasCell q := by
  unfold bracketSearch at hq
  obtain ⟨⟨forward, endChar⟩, -, hfind⟩ := Option.bind_eq_some_iff.mp hq
  exact findBracket_hasCell h forward _ endChar _ _ hp hfind

end Grid

namespace Vi

variable {g : Grid Square} {p q : Pos}

theorem readCell_of_hasCell (hp : g.HasCell p) : readCell g p = .ok (g.cell p) := if_pos hp

theorem safe_readCell_iff : Safe (readCell g p) ↔ g.HasCell p := by
  constructor
  · intro hsafe
    by_contra hp
    obtain ⟨cell, hcell⟩ := hsafe
    unfold readCell at hcell
    rw [if_neg hp] at hcell
    cases hcell
  · exact fun hp => ⟨_, readCell_of_hasCell hp⟩

theorem next_eq (h : g.Sound False) (hp : g.HasCell p) : next g p = .ok (g.nextPos p) := by
  unfold next
  cases hnext : g.nextPos p with
  | none => rfl
  | some q =>
    dsimp only
    rw [readCell_of_hasCell (Grid.nextPos_spec h hp hnext).1]
    rfl

theorem prev_eq (h : g.Sound False) (hp : g.HasCell p) : prev g p = .ok (g.prevPos p) := by
  unfold prev
  cases hprev : g.prevPos p with
  | none => rfl
  | some q =>
    dsimp only
    rw [readCell_of_hasCell (Grid.prevPos_spec h hp hprev).1]
    rfl

/-! ### Searches end -/

theorem inlineSearchLeft_ends (h : g.Sound False) (needles : List Char) :
    ∀ (n : ℕ) {p : Pos}, g.HasCell p → g.index p < n →
      Ends (fun fuel => inlineSearchLeft g needles fuel p) (g.inlineSearchLeft needles n p)
  | 0, _, _, hn => absurd hn (Nat.not_lt_zero _)
  | n + 1, p, hp, hn => by
    unfold inlineSearchLeft Grid.inlineSearchLeft
    cases hprev : g.prevPos p with
    | none =>
      refine ends_loop_of_done ?_
      rw [prev_eq h hp, hprev]
      rfl
    | some q =>
      obtain ⟨hq, hindex⟩ := Grid.prevPos_spec h hp hprev
      have hturn : prev g p = .ok (some q) := hprev ▸ prev_eq h hp
      dsimp only
      split_ifs with hbreak hfound
      · refine ends_loop_of_done ?_
        rw [hturn]
        exact if_pos hbreak
      · refine ends_loop_of_done ?_
        rw [hturn]
        exact (if_neg hbreak).trans (if_pos hfound)
      · refine ends_loop_of_again ?_ (inlineSearchLeft_ends h needles n hq (by omega))
        rw [hturn]
        exact (if_neg hbreak).trans (if_neg hfound)

theorem inlineSearchRight_ends (h : g.Sound False) (needles : List Char) :
    ∀ (n : ℕ) {p : Pos}, g.HasCell p → g.cells ≤ g.index p + n →
      Ends (fun fuel => inlineSearchRight g needles fuel p) (g.inlineSearchRight needles n p)
  | 0, _, hp, hn => absurd hn (not_le.mpr (Grid.index_lt h hp))
  | n + 1, p, hp, hn => by
    unfold inlineSearchRight Grid.inlineSearchRight
    cases hnext : g.nextPos p with
    | none =>
      refine ends_loop_of_done ?_
      rw [next_eq h hp, hnext]
      rfl
    | some q =>
      obtain ⟨hq, hindex⟩ := Grid.nextPos_spec h hp hnext
      have hturn : next g p = .ok (some q) := hnext ▸ next_eq h hp
      dsimp only
      split_ifs with hfound hbreak
      · refine ends_loop_of_done ?_
        rw [hturn]
        exact if_pos hfound
      · refine ends_loop_of_done ?_
        rw [hturn]
        exact (if_neg hfound).trans (if_pos hbreak)
      · refine ends_loop_of_again ?_ (inlineSearchRight_ends h needles n hq (by omega))
        rw [hturn]
        exact (if_neg hfound).trans (if_neg hbreak)

theorem skipSpacers_ends (h : g.Sound False) :
    ∀ (n : ℕ) {p : Pos}, g.HasCell p → g.cells ≤ g.index p + n →
      Ends (fun fuel => skipSpacers g fuel p) (g.skipSpacers n p)
  | 0, _, hp, hn => absurd hn (not_le.mpr (Grid.index_lt h hp))
  | n + 1, p, hp, hn => by
    unfold skipSpacers Grid.skipSpacers
    cases hnext : g.nextPos p with
    | none =>
      refine ends_loop_of_done ?_
      rw [next_eq h hp, hnext]
      rfl
    | some q =>
      obtain ⟨hq, hindex⟩ := Grid.nextPos_spec h hp hnext
      have hturn : next g p = .ok (some q) := hnext ▸ next_eq h hp
      dsimp only
      split_ifs with hspacer
      · refine ends_loop_of_again ?_ (skipSpacers_ends h n hq (by omega))
        rw [hturn]
        exact if_pos hspacer
      · refine ends_loop_of_done ?_
        rw [hturn]
        exact if_neg hspacer

/-- The cells that a search for a bracket has not seen yet. -/
def ahead (g : Grid Square) (forward : Bool) (p : Pos) : ℕ :=
  if forward then g.cells - g.index p else g.index p + 1

theorem findBracket_ends (h : g.Sound False) (forward : Bool) (startChar endChar : Char) :
    ∀ (n skipPairs : ℕ) {p : Pos}, g.HasCell p → ahead g forward p ≤ n →
      Ends (fun fuel => findBracket g forward startChar endChar fuel (skipPairs, p))
        (g.findBracket forward startChar endChar n skipPairs p)
  | 0, _, p, hp, hn => by
    have hlt := Grid.index_lt h hp
    unfold ahead at hn
    split_ifs at hn
    · omega
    · omega
  | n + 1, skipPairs, p, hp, hn => by
    have hturn : nextOrPrev g forward p = .ok (if forward then g.nextPos p else g.prevPos p) := by
      unfold nextOrPrev
      split_ifs
      · exact next_eq h hp
      · exact prev_eq h hp
    unfold findBracket Grid.findBracket
    cases hnext : (if forward then g.nextPos p else g.prevPos p) with
    | none =>
      refine ends_loop_of_done ?_
      dsimp only
      rw [hturn, hnext]
      rfl
    | some q =>
      have hq : g.HasCell q ∧ ahead g forward q ≤ n := by
        unfold ahead at hn ⊢
        split_ifs at hnext hn ⊢
        · obtain ⟨hq, hindex⟩ := Grid.nextPos_spec h hp hnext
          have hlt := Grid.index_lt h hq
          exact ⟨hq, by omega⟩
        · obtain ⟨hq, hindex⟩ := Grid.prevPos_spec h hp hnext
          exact ⟨hq, by omega⟩
      have hagain (skipPairs : ℕ) := findBracket_ends h forward startChar endChar n skipPairs hq.1 hq.2
      rw [hnext] at hturn
      dsimp only
      split_ifs with hend hstart hclose
      · refine ends_loop_of_done ?_
        dsimp only
        rw [hturn]
        exact if_pos hend
      · refine ends_loop_of_again ?_ (hagain _)
        dsimp only
        rw [hturn]
        exact (if_neg hend).trans (if_pos hstart)
      · refine ends_loop_of_again ?_ (hagain _)
        have hopen : 1 ≤ skipPairs := by
          rcases Nat.eq_zero_or_pos skipPairs with hzero | hpos
          · exact absurd (by rw [hzero]; simp [hclose]) hend
          · exact hpos
        dsimp only
        rw [hturn]
        refine ((if_neg hend).trans (if_neg hstart)).trans ((if_pos hclose).trans ?_)
        rw [sub_of_le hopen]
        rfl
      · refine ends_loop_of_again ?_ (hagain _)
        dsimp only
        rw [hturn]
        exact ((if_neg hend).trans (if_neg hstart)).trans (if_neg hclose)

theorem semanticSearchLeft_ends (h : g.Sound False) (hp : g.HasCell p) :
    Ends (fun fuel => semanticSearchLeft g fuel p) (g.semanticSearchLeft p) := by
  have hsearch := inlineSearchLeft_ends h Grid.semanticEscapeChars g.cells hp (Grid.index_lt h hp)
  have hfound := Grid.inlineSearchLeft_hasCell h Grid.semanticEscapeChars g.cells hp
  unfold semanticSearchLeft Grid.semanticSearchLeft
  rw [Grid.fromTop hp.1]
  refine hsearch.bind ?_
  generalize g.inlineSearchLeft Grid.semanticEscapeChars g.cells p = result at hfound ⊢
  obtain ⟨found, point⟩ := result
  cases found with
  | false => exact .const rfl
  | true => exact (skipSpacers_ends h g.cells hfound (Nat.le_add_left _ _)).bind (.const rfl)

theorem endsRow_eq (hp : g.HasCell p) :
    endsRow g p = .ok (p.col = g.lastColumn && !(g.cell p).wrapline) := by
  unfold endsRow
  by_cases hlast : p.col = g.lastColumn
  · rw [if_pos hlast, readCell_of_hasCell hp]
    exact congrArg Except.ok (by rw [decide_eq_true hlast, Bool.true_and])
  · rw [if_neg hlast]
    exact congrArg Except.ok (by rw [decide_eq_false hlast, Bool.false_and])

theorem semanticSearchRight_ends (h : g.Sound False) (hp : g.HasCell p) :
    Ends (fun fuel => semanticSearchRight g fuel p) (g.semanticSearchRight p) := by
  have hsearch := inlineSearchRight_ends h Grid.semanticEscapeChars g.cells hp (Nat.le_add_left _ _)
  have hfound := Grid.inlineSearchRight_hasCell h Grid.semanticEscapeChars g.cells hp
  unfold semanticSearchRight Grid.semanticSearchRight
  simp only [Grid.fromTop hp.1]
  refine (Ends.const (endsRow_eq hp)).bind ?_
  generalize (decide (p.col = g.lastColumn) && !(g.cell p).wrapline) = atBreak
  cases atBreak with
  | true => exact .const rfl
  | false =>
    refine hsearch.bind ?_
    simp only [Bool.false_eq_true, if_false]
    generalize g.inlineSearchRight Grid.semanticEscapeChars g.cells p = result at hfound ⊢
    obtain ⟨found, point⟩ := result
    cases found with
    | false => exact .const rfl
    | true =>
      refine .const ?_
      dsimp only
      rw [prev_eq h hfound]
      rfl

theorem bracketSearch_ends (h : g.Sound False) (hp : g.HasCell p) :
    Ends (fun fuel => bracketSearch g fuel p) (g.bracketSearch p) := by
  have hlt := Grid.index_lt h hp
  unfold bracketSearch Grid.bracketSearch
  refine (Ends.const (readCell_of_hasCell hp)).bind ?_
  dsimp only
  generalize (Grid.bracketPairs.findSome? fun x => _) = bracket
  cases bracket with
  | none => exact .const rfl
  | some bracket =>
    refine findBracket_ends h bracket.1 _ bracket.2 g.cells 0 hp ?_
    unfold ahead
    split_ifs
    · omega
    · omega

end Vi
end Rio
