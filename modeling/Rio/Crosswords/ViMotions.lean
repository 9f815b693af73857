import Rio.Crosswords.Bounds
import Rio.Crosswords.ViSearch
import Rio.Selection.Cover

/-! Where motions of the vi mode cursor end. -/

set_option linter.dupNamespace false

namespace Rio
open Rio.Checked

namespace Grid

variable {g : Grid Square} {p q : Pos}

theorem gridClamp_hasCell (h : g.Sound False) (p : Pos) :
    g.HasCell (p.gridClamp g.dimensions .grid) := by
  have hlines := h.lines_pos
  have hcolumns := h.columns_ge
  have htop : g.dimensions.topmostLine = -(g.historySize : ℤ) := rfl
  have hbottom : g.dimensions.bottommostLine = (g.lines : ℤ) - 1 := rfl
  have hlast : g.dimensions.lastColumn = g.columns - 1 := rfl
  unfold Pos.gridClamp HasCell
  rw [topmostLine_eq, htop, hbottom, hlast]
  dsimp only
  split_ifs
  · exact ⟨le_rfl, by dsimp only; omega, by dsimp only; omega⟩
  · exact ⟨by dsimp only; omega, by dsimp only; omega, by dsimp only; omega⟩
  · exact ⟨by dsimp only; omega, by dsimp only; omega, by dsimp only; omega⟩

theorem gridClamp_of_hasCell (hp : g.HasCell p) : p.gridClamp g.dimensions .grid = p :=
  Selection.gridClamp_of_le hp.2.2 hp.1 hp.2.1

theorem advance_hasCell (h : g.Sound False) (p : Pos) (d : Side) : g.HasCell (Vi.advance g p d) := by
  cases d with
  | left => exact gridClamp_hasCell h _
  | right => exact gridClamp_hasCell h _

/-- Going back from a cell that is not the first one ends at the cell before it. -/
theorem advance_left (h : g.Sound False) (hp : g.HasCell p) (hq : g.prevPos p = some q) :
    Vi.advance g p .left = q := by
  have hspec := (prevPos_spec h hp hq).1
  have hcolumns := h.columns_ge
  have hcol := hp.2.2
  have hone : 1 % g.columns = 1 := Nat.mod_eq_of_lt hcolumns
  unfold prevPos at hq
  split_ifs at hq with hfirst hstart
  · have hchange : (1 + g.columns - 1 - p.col) / g.columns = 1 := by
      rw [hstart, Nat.add_sub_cancel_left, Nat.sub_zero]
      exact Nat.div_self (by omega)
    have hcolumn : (g.columns + p.col - 1 % g.columns) % g.columns = g.lastColumn := by
      rw [hstart, hone]
      exact Nat.mod_eq_of_lt (by omega)
    have hsub : Vi.advance g p .left = Pos.gridClamp ⟨p.row - 1, g.lastColumn⟩ g.dimensions .grid := by
      show Pos.gridClamp ⟨p.row - ((1 + g.columns - 1 - p.col) / g.columns : ℕ),
        (g.columns + p.col - 1 % g.columns) % g.columns⟩ g.dimensions .grid = _
      rw [hchange, hcolumn]
      rfl
    cases hq
    rw [hsub, gridClamp_of_hasCell hspec]
  · have hchange : (1 + g.columns - 1 - p.col) / g.columns = 0 := Nat.div_eq_of_lt (by omega)
    have hcolumn : (g.columns + p.col - 1 % g.columns) % g.columns = p.col - 1 := by
      rw [hone, Nat.add_sub_assoc (Nat.pos_of_ne_zero hstart), Nat.add_mod_left]
      exact Nat.mod_eq_of_lt (by omega)
    have hsub : Vi.advance g p .left = Pos.gridClamp ⟨p.row, p.col - 1⟩ g.dimensions .grid := by
      show Pos.gridClamp ⟨p.row - ((1 + g.columns - 1 - p.col) / g.columns : ℕ),
        (g.columns + p.col - 1 % g.columns) % g.columns⟩ g.dimensions .grid = _
      rw [hchange, hcolumn, Nat.cast_zero, sub_zero]
    cases hq
    rw [hsub, gridClamp_of_hasCell hspec]

theorem advance_right (h : g.Sound False) (hp : g.HasCell p) (hq : g.nextPos p = some q) :
    Vi.advance g p .right = q := by
  have hspec := (nextPos_spec h hp hq).1
  have hcolumns := h.columns_ge
  have hcol := hp.2.2
  unfold nextPos at hq
  split_ifs at hq with hbefore hend
  · rw [lastColumn_eq] at hend
    have hsum : 1 + p.col = g.columns := by omega
    have hsub : Vi.advance g p .right = Pos.gridClamp ⟨p.row + 1, 0⟩ g.dimensions .grid := by
      show Pos.gridClamp ⟨p.row + ((1 + p.col) / g.columns : ℕ), (p.col + 1) % g.columns⟩
        g.dimensions .grid = _
      rw [Nat.add_comm p.col, hsum, Nat.mod_self, Nat.div_self (by omega)]
      rfl
    cases hq
    rw [hsub, gridClamp_of_hasCell hspec]
  · rw [lastColumn_eq] at hend
    have hsub : Vi.advance g p .right = Pos.gridClamp ⟨p.row, p.col + 1⟩ g.dimensions .grid := by
      show Pos.gridClamp ⟨p.row + ((1 + p.col) / g.columns : ℕ), (p.col + 1) % g.columns⟩
        g.dimensions .grid = _
      rw [Nat.div_eq_of_lt (by omega), Nat.mod_eq_of_lt (by omega), Nat.cast_zero, add_zero]
    cases hq
    rw [hsub, gridClamp_of_hasCell hspec]

/-- The cells that are left in a direction. -/
def remaining (g : Grid Square) (p : Pos) : Side → ℕ
  | .left => g.index p
  | .right => g.cells - g.index p

theorem remaining_advance (h : g.Sound False) (hp : g.HasCell p) {d : Side}
    (hinside : Vi.isBoundary g p d = false) : g.remaining (Vi.advance g p d) d < g.remaining p d := by
  have hlt := index_lt h hp
  obtain ⟨htop, hline, hcol⟩ := hp
  have hcolumns := h.columns_ge
  unfold Vi.isBoundary at hinside
  cases d with
  | left =>
    cases hprev : g.prevPos p with
    | none =>
      unfold prevPos at hprev
      split_ifs at hprev with hfirst
      rw [hfirst] at hinside
      simp at hinside
    | some q =>
      rw [advance_left h ⟨htop, hline, hcol⟩ hprev]
      have hindex := (prevPos_spec h ⟨htop, hline, hcol⟩ hprev).2
      show g.index q < g.index p
      omega
  | right =>
    cases hnext : g.nextPos p with
    | none =>
      unfold nextPos at hnext
      have hbottom := bottommostLine_eq g
      have hlast := lastColumn_eq g
      have hat : ¬ p < ⟨g.bottommostLine, g.lastColumn⟩ := by
        intro hbefore
        rw [if_pos hbefore] at hnext
        cases hnext
      rw [Pos.lt_iff] at hat
      dsimp only at hat
      have hrow : p.row = g.bottommostLine := by omega
      have hend : g.columns ≤ p.col + 1 := by omega
      simp [hrow, hend] at hinside
    | some q =>
      rw [advance_right h ⟨htop, hline, hcol⟩ hnext]
      obtain ⟨hq, hindex⟩ := nextPos_spec h ⟨htop, hline, hcol⟩ hnext
      have hlt' := index_lt h hq
      show g.cells - g.index q < g.cells - g.index p
      omega

end Grid

/-- The cell contains whitespace. -/
def Square.isSpace (c : Square) : Bool :=
  !(c.wide = .spacer || c.wide = .leadingSpacer) && (c.c = '\x00' || c.c = ' ' || c.c = '\t')

namespace Vi

variable {g : Grid Square} {p q : Pos} {d : Side}

theorem isSpace_eq (hp : g.HasCell p) : isSpace g p = .ok (g.cell p).isSpace := by
  unfold isSpace
  rw [readCell_of_hasCell hp]
  rfl

theorem occupied_eq (hp : g.HasCell p) : occupied g p = .ok !(g.cell p).isSpace := by
  unfold occupied
  rw [isSpace_eq hp]
  rfl

theorem isWrap_eq (hp : g.HasCell p) : isWrap g p = .ok (g.cell p).wrapline := by
  unfold isWrap
  rw [readCell_of_hasCell hp]
  rfl

theorem not_safe_isWrap (hp : ¬ g.HasCell p) : ¬ Safe (isWrap g p) := by
  intro hsafe
  obtain ⟨cell, hcell, -⟩ := safe_bind_iff.mp hsafe
  exact hp (safe_readCell_iff.mp ⟨cell, hcell⟩)

theorem not_safe_occupied (hp : ¬ g.HasCell p) : ¬ Safe (occupied g p) := by
  intro hsafe
  obtain ⟨space, hspace, -⟩ := safe_bind_iff.mp hsafe
  obtain ⟨cell, hcell, -⟩ := safe_bind_iff.mp ⟨space, hspace⟩
  exact hp (safe_readCell_iff.mp ⟨cell, hcell⟩)

/-! ### Words -/

/-- The computation ends on the grid. -/
def EndsOn (g : Grid Square) (x : ℕ → Outcome Pos) : Prop := ∃ q, Ends x q ∧ g.HasCell q

theorem EndsOn.const (hp : g.HasCell p) : EndsOn g fun _ => .ok p := ⟨p, .const rfl, hp⟩

theorem EndsOn.bind {x : ℕ → Outcome Pos} {f : ℕ → Pos → Outcome Pos} (hx : EndsOn g x)
    (hf : ∀ q, g.HasCell q → EndsOn g fun fuel => f fuel q) :
    EndsOn g fun fuel => x fuel >>= f fuel := by
  obtain ⟨q, hends, hq⟩ := hx
  obtain ⟨r, hrest, hr⟩ := hf q hq
  exact ⟨r, hends.bind hrest, hr⟩

theorem EndsOn.of_ok {α : Type} {y : Outcome α} {a : α} {f : ℕ → α → Outcome Pos} (hy : y = .ok a)
    (hf : EndsOn g fun fuel => f fuel a) : EndsOn g fun fuel => y >>= f fuel := by
  rw [hy]
  exact hf

theorem advanceTurn_eq {go : Pos → Outcome Bool} {b : Bool} (hgo : go p = .ok b) :
    advanceTurn g d go p = .ok (if isBoundary g p d || !b then .inr p else .inl (advance g p d)) := by
  unfold advanceTurn
  rw [hgo]
  cases isBoundary g p d with
  | true => rfl
  | false =>
    cases b with
    | true => rfl
    | false => rfl

theorem advanceWhile_ends (h : g.Sound False) {go : Pos → Outcome Bool}
    (hgo : ∀ q, g.HasCell q → Safe (go q)) (hp : g.HasCell p) :
    EndsOn g fun fuel => advanceWhile g d go fuel p := by
  refine exists_ends_loop g.HasCell g.HasCell (g.remaining · d) (fun q hq => ?_) p hp
  obtain ⟨b, hb⟩ := hgo q hq
  rw [advanceTurn_eq hb]
  cases hboundary : isBoundary g q d with
  | true => exact .inr ⟨q, rfl, hq⟩
  | false =>
    cases b with
    | true => exact .inl ⟨_, rfl, Grid.advance_hasCell h q d, Grid.remaining_advance h hq hboundary⟩
    | false => exact .inr ⟨q, rfl, hq⟩

theorem safe_isSpace_advance (h : g.Sound False) (q : Pos) :
    Safe (isSpace g (advance g q d)) := ⟨_, isSpace_eq (Grid.advance_hasCell h q d)⟩

theorem safe_occupied_advance (h : g.Sound False) (q : Pos) :
    Safe (occupied g (advance g q d)) := ⟨_, occupied_eq (Grid.advance_hasCell h q d)⟩

theorem expandSemantic_ends (h : g.Sound False) (hp : g.HasCell p) :
    EndsOn g fun fuel => expandSemantic g fuel p d := by
  unfold expandSemantic
  refine EndsOn.of_ok (readCell_of_hasCell hp) ?_
  split_ifs
  · exact .const hp
  · cases d with
    | left => exact ⟨_, semanticSearchLeft_ends h hp, Grid.semanticSearchLeft_hasCell h hp⟩
    | right => exact ⟨_, semanticSearchRight_ends h hp, Grid.semanticSearchRight_hasCell h hp⟩

theorem toWordBoundary_ends (h : g.Sound False) (hp : g.HasCell p) (move : Bool) :
    EndsOn g fun fuel => toWordBoundary g fuel p d move := by
  unfold toWordBoundary
  split_ifs
  · exact expandSemantic_ends h hp
  · exact .const hp

/-- A motion by a word ends on the grid if the cell it starts from has its end there. -/
theorem semantic_ends (h : g.Sound False) (hexpand : expandWide g p d = .ok q) (hq : g.HasCell q)
    (side : Side) : EndsOn g fun fuel => semantic g fuel p d side := by
  unfold semantic
  refine EndsOn.of_ok hexpand (.bind (toWordBoundary_ends h hq _) fun q₁ hq₁ => ?_)
  refine .bind (advanceWhile_ends h (fun q _ => safe_isSpace_advance h q) hq₁) fun q₂ hq₂ => ?_
  refine toWordBoundary_ends h ?_ _
  split_ifs
  · exact hq₂
  · exact Grid.advance_hasCell h q₂ d

theorem word_ends (h : g.Sound False) (hexpand : expandWide g p d = .ok q) (hq : g.HasCell q)
    (side : Side) : EndsOn g fun fuel => word g fuel p d side := by
  unfold word
  refine EndsOn.of_ok hexpand ?_
  split_ifs
  · exact .bind (advanceWhile_ends h (fun q _ => safe_isSpace_advance h q) hq) fun q₁ hq₁ =>
      advanceWhile_ends h (fun q _ => safe_occupied_advance h q) hq₁
  · exact .bind (advanceWhile_ends h (fun q hq => ⟨_, occupied_eq hq⟩) hq) fun q₁ hq₁ =>
      advanceWhile_ends h (fun q hq => ⟨_, isSpace_eq hq⟩) hq₁

/-! ### Wide characters -/

/-- The leading spacer before a wide character, or else its first cell. -/
def leadingOr (g : Grid Square) (p : Pos) : Pos :=
  if (g.cell (advance g p .left)).wide = .leadingSpacer then advance g p .left else p

/-- The first cell of a wide character, or the leading spacer before it. -/
def wideStart (g : Grid Square) (p : Pos) : Pos :=
  match (g.cell p).wide with
  | .wide => leadingOr g p
  | .spacer => leadingOr g { p with col := p.col - 1 }
  | _ => p

/-- The last cell of a wide character. -/
def wideEnd (g : Grid Square) (p : Pos) : Pos :=
  match (g.cell p).wide with
  | .leadingSpacer => ⟨p.row + 1, 1⟩
  | .wide => { p with col := min (p.col + 1) g.lastColumn }
  | _ => p

/-- No wide character ends in the first column. -/
def StartsInside (g : Grid Square) (p : Pos) : Prop := (g.cell p).wide = .spacer → 0 < p.col

/-- No wide character at a position goes on below the last line. -/
def EndsInside (g : Grid Square) (p : Pos) : Prop :=
  (g.cell p).wide = .leadingSpacer → p.row + 1 < g.lines

theorem withLeading_eq (h : g.Sound False) (p : Pos) : withLeading g p = .ok (leadingOr g p) := by
  have hbefore := readCell_of_hasCell (Grid.advance_hasCell h p .left)
  unfold withLeading
  change (readCell g (advance g p .left) >>= _) = _
  rw [hbefore]
  rfl

theorem expandWide_left (h : g.Sound False) (hp : g.HasCell p) (hstarts : StartsInside g p) :
    expandWide g p .left = .ok (wideStart g p) := by
  unfold expandWide wideStart
  rw [readCell_of_hasCell hp, ok_bind]
  cases hwide : (g.cell p).wide with
  | wide => exact withLeading_eq h p
  | spacer =>
    dsimp only
    rw [sub_of_le (hstarts hwide)]
    exact withLeading_eq h _
  | narrow => rfl
  | leadingSpacer => rfl

theorem expandWide_right (hp : g.HasCell p) : expandWide g p .right = .ok (wideEnd g p) := by
  unfold expandWide wideEnd
  rw [readCell_of_hasCell hp, ok_bind]
  cases hwide : (g.cell p).wide with
  | wide => rfl
  | spacer => rfl
  | narrow => rfl
  | leadingSpacer => rfl

theorem not_safe_expandWide_left (hp : g.HasCell p) (hstarts : ¬ StartsInside g p) :
    ¬ Safe (expandWide g p .left) := by
  unfold StartsInside at hstarts
  rw [Classical.not_imp] at hstarts
  obtain ⟨hspacer, hcol⟩ := hstarts
  have hsub : sub p.col 1 = .error .overflow := if_neg hcol
  unfold expandWide
  rw [readCell_of_hasCell hp, ok_bind, hspacer, hsub]
  exact not_safe_error _

theorem leadingOr_hasCell (h : g.Sound False) (hp : g.HasCell p) : g.HasCell (leadingOr g p) := by
  unfold leadingOr
  split_ifs
  · exact Grid.advance_hasCell h _ _
  · exact hp

theorem wideStart_hasCell (h : g.Sound False) (hp : g.HasCell p) : g.HasCell (wideStart g p) := by
  unfold wideStart
  cases (g.cell p).wide with
  | wide => exact leadingOr_hasCell h hp
  | spacer => exact leadingOr_hasCell h ⟨hp.1, hp.2.1, Nat.lt_of_le_of_lt (Nat.sub_le _ _) hp.2.2⟩
  | narrow => exact hp
  | leadingSpacer => exact hp

theorem wideEnd_hasCell_iff (h : g.Sound False) (hp : g.HasCell p) :
    g.HasCell (wideEnd g p) ↔ EndsInside g p := by
  obtain ⟨htop, hline, hcol⟩ := hp
  have hcolumns := h.columns_ge
  unfold wideEnd EndsInside
  cases hwide : (g.cell p).wide with
  | leadingSpacer =>
    refine ⟨fun hend _ => hend.2.1, fun hend => ⟨?_, hend rfl, hcolumns⟩⟩
    show g.topmostLine ≤ p.row + 1
    omega
  | wide =>
    refine ⟨fun _ hlead => (by cases hlead), fun _ => ⟨htop, hline, ?_⟩⟩
    show min (p.col + 1) (g.columns - 1) < g.columns
    omega
  | narrow => exact ⟨fun _ hlead => (by cases hlead), fun _ => ⟨htop, hline, hcol⟩⟩
  | spacer => exact ⟨fun _ hlead => (by cases hlead), fun _ => ⟨htop, hline, hcol⟩⟩

/-! ### Lines -/

/-- The line is one of the grid. -/
def HasLine (g : Grid Square) (line : ℤ) : Prop := g.topmostLine ≤ line ∧ line < g.lines

/-- All cells of a line are whitespace. -/
def BlankLine (g : Grid Square) (line : ℤ) : Prop :=
  ∀ col < g.columns, (g.cell ⟨line, col⟩).isSpace = true

/-- A line goes on in the next one. -/
def WrappedLine (g : Grid Square) (line : ℤ) : Prop :=
  (g.cell ⟨line, g.lastColumn⟩).wrapline = true

variable {line : ℤ}

theorem mem_lineCells : p ∈ lineCells g line ↔ p.row = line ∧ p.col < g.columns := by
  unfold lineCells
  rw [List.mem_map]
  constructor
  · rintro ⟨col, hcol, rfl⟩
    exact ⟨rfl, List.mem_range.mp hcol⟩
  · rintro ⟨rfl, hcol⟩
    exact ⟨p.col, List.mem_range.mpr hcol, rfl⟩

theorem occupied_lineCells (hline : HasLine g line) (hp : p ∈ lineCells g line) :
    occupied g p = .ok !(g.cell p).isSpace := by
  obtain ⟨rfl, hcol⟩ := mem_lineCells.mp hp
  exact occupied_eq ⟨hline.1, hline.2, hcol⟩

theorem firstOccupiedInLine_eq (hline : HasLine g line) : firstOccupiedInLine g line =
    .ok ((lineCells g line).find? fun p => !(g.cell p).isSpace) :=
  findM_ok fun _ hp => occupied_lineCells hline hp

theorem lastOccupiedInLine_eq (hline : HasLine g line) : lastOccupiedInLine g line =
    .ok ((lineCells g line).reverse.find? fun p => !(g.cell p).isSpace) :=
  findM_ok fun _ hp => occupied_lineCells hline (List.mem_reverse.mp hp)

theorem lineCells_ne_nil (h : g.Sound False) (line : ℤ) : lineCells g line ≠ [] := by
  have hcolumns := h.columns_ge
  have hfirst : (⟨line, 0⟩ : Pos) ∈ lineCells g line := mem_lineCells.mpr ⟨rfl, by
    show 0 < g.columns
    omega⟩
  exact List.ne_nil_of_mem hfirst

theorem not_safe_lineCells (hline : ¬ HasLine g line) (hp : p ∈ lineCells g line) :
    ¬ Safe (occupied g p) := by
  refine not_safe_occupied fun hcell => hline ?_
  rw [← (mem_lineCells.mp hp).1]
  exact ⟨hcell.1, hcell.2.1⟩

theorem not_safe_firstOccupiedInLine (h : g.Sound False) (hline : ¬ HasLine g line) :
    ¬ Safe (firstOccupiedInLine g line) :=
  not_safe_findM (lineCells_ne_nil h line) fun _ hp => not_safe_lineCells hline hp

theorem not_safe_lastOccupiedInLine (h : g.Sound False) (hline : ¬ HasLine g line) :
    ¬ Safe (lastOccupiedInLine g line) :=
  not_safe_findM (List.reverse_ne_nil_iff.mpr (lineCells_ne_nil h line)) fun _ hp =>
    not_safe_lineCells hline (List.mem_reverse.mp hp)

theorem find_none_iff (g : Grid Square) (line : ℤ) : (lineCells g line).find? (fun p => !(g.cell p).isSpace) = none ↔
    BlankLine g line := by
  rw [List.find?_eq_none]
  constructor
  · intro hnone col hcol
    have hspace := hnone ⟨line, col⟩ (mem_lineCells.mpr ⟨rfl, hcol⟩)
    simpa using hspace
  · intro hblank p hp
    obtain ⟨rfl, hcol⟩ := mem_lineCells.mp hp
    have hspace := hblank p.col hcol
    change (g.cell p).isSpace = true at hspace
    rw [hspace]
    decide

theorem find_hasCell (hline : HasLine g line) {cells : List Pos}
    (hcells : ∀ p ∈ cells, p ∈ lineCells g line) {pred : Pos → Bool}
    (hp : cells.find? pred = some p) : g.HasCell p := by
  obtain ⟨rfl, hcol⟩ := mem_lineCells.mp (hcells p (List.mem_of_find?_eq_some hp))
  exact ⟨hline.1, hline.2, hcol⟩

/-- The last occupied cell of a line is right of a column exactly when some occupied cell is. -/
theorem lt_lastOccupied_iff (line : ℤ) (k : ℕ) :
    k < (((lineCells g line).reverse.find? fun p => !(g.cell p).isSpace).getD default).col ↔
      ∃ col < g.columns, k < col ∧ (g.cell ⟨line, col⟩).isSpace = false := by
  constructor
  · intro hlt
    cases hlast : (lineCells g line).reverse.find? fun p => !(g.cell p).isSpace with
    | none =>
      rw [hlast] at hlt
      exact absurd hlt (Nat.not_lt_zero _)
    | some q =>
      rw [hlast] at hlt
      obtain ⟨rfl, hcol⟩ :=
        mem_lineCells.mp (List.mem_reverse.mp (List.mem_of_find?_eq_some hlast))
      exact ⟨q.col, hcol, hlt, by simpa using List.find?_some hlast⟩
  · rintro ⟨col, hcol, hlt, hoccupied⟩
    obtain ⟨m, hm, hle⟩ := @exists_find_reverse_range (fun col => !(g.cell ⟨line, col⟩).isSpace) col
      (by simp [hoccupied]) g.columns hcol
    have hlast : (lineCells g line).reverse.find? (fun p => !(g.cell p).isSpace) =
        some ⟨line, m⟩ := by
      unfold lineCells
      rw [← List.map_reverse, List.find?_map]
      exact congrArg (Option.map _) hm
    rw [hlast]
    exact Nat.lt_of_lt_of_le hlt hle

/-! ### The end of a line -/

theorem EndsOn.not_of_fault {x : ℕ → Outcome Pos} (h : ∀ fuel, ¬ Safe (x fuel)) : ¬ EndsOn g x := by
  rintro ⟨q, hends, -⟩
  exact not_ends h hends

/-- A line below, or the one itself, is not wrapped at a column. -/
def Unwrapped (g : Grid Square) (p : Pos) : Prop :=
  ∃ line, p.row ≤ line ∧ line < g.lines ∧ (g.cell ⟨line, p.col⟩).wrapline = false

theorem wrapTurn_eq (hp : g.HasCell p) : wrapTurn g p =
    .ok (if (g.cell p).wrapline then .inl { p with row := p.row + 1 } else .inr p) := by
  unfold wrapTurn
  rw [isWrap_eq hp, ok_bind]
  cases (g.cell p).wrapline with
  | true => rfl
  | false => rfl

theorem followWrap_ends (hp : g.HasCell p) (hunwrapped : Unwrapped g p) :
    EndsOn g fun fuel => loop (wrapTurn g) fuel p := by
  refine exists_ends_loop (fun q => g.HasCell q ∧ Unwrapped g q) g.HasCell
    (fun q => ((g.lines : ℤ) - q.row).toNat) (fun q hq => ?_) p ⟨hp, hunwrapped⟩
  obtain ⟨⟨htop, hline, hcol⟩, l, hle, hlt, hfree⟩ := hq
  rw [wrapTurn_eq ⟨htop, hline, hcol⟩]
  cases hwrap : (g.cell q).wrapline with
  | false => exact .inr ⟨q, rfl, htop, hline, hcol⟩
  | true =>
    have hne : q.row ≠ l := by
      rintro rfl
      rw [hwrap] at hfree
      cases hfree
    refine .inl ⟨_, rfl, ⟨⟨?_, ?_, hcol⟩, l, ?_, hlt, hfree⟩, ?_⟩
    · show g.topmostLine ≤ q.row + 1
      omega
    · show q.row + 1 < g.lines
      omega
    · show q.row + 1 ≤ l
      omega
    · show ((g.lines : ℤ) - (q.row + 1)).toNat < ((g.lines : ℤ) - q.row).toNat
      omega

theorem not_safe_followWrap (hwrapped : ¬ Unwrapped g p) (fuel : ℕ) :
    ¬ Safe (loop (wrapTurn g) fuel p) := by
  refine not_safe_loop (fun q => ¬ Unwrapped g q) (fun q hq => ?_) fuel p hwrapped
  by_cases hcell : g.HasCell q
  · have hwrap : (g.cell q).wrapline = true := by
      cases hwrap : (g.cell q).wrapline with
      | true => rfl
      | false => exact absurd ⟨q.row, le_rfl, hcell.2.1, hwrap⟩ hq
    rw [wrapTurn_eq hcell, hwrap]
    refine .inr ⟨_, rfl, fun ⟨l, hle, hlt, hfree⟩ => hq ⟨l, ?_, hlt, hfree⟩⟩
    change q.row + 1 ≤ l at hle
    omega
  · refine .inl fun hsafe => ?_
    obtain ⟨wrap, hwrap, -⟩ := safe_bind_iff.mp hsafe
    exact not_safe_isWrap hcell ⟨wrap, hwrap⟩

/-- The last motion stays on the grid: an occupied cell comes after in the line, or the lines that
it is wrapped to end on the grid. -/
def LastInside (g : Grid Square) (p : Pos) : Prop :=
  EndsInside g p ∧
    ((∃ col < g.columns, (wideEnd g p).col < col ∧
      (g.cell ⟨(wideEnd g p).row, col⟩).isSpace = false) ∨ Unwrapped g (wideEnd g p))

theorem lastOccupied_hasCell (hline : HasLine g line)
    (hp : (lineCells g line).reverse.find? (fun p => !(g.cell p).isSpace) = some p) : g.HasCell p :=
  find_hasCell hline (fun _ hp => List.mem_reverse.mp hp) hp

theorem last_endsOn_iff (h : g.Sound False) (hp : g.HasCell p) :
    (EndsOn g fun fuel => last g fuel p) ↔ LastInside g p := by
  have hexpand := expandWide_right hp
  by_cases hends : EndsInside g p
  · have hq := (wideEnd_hasCell_iff h hp).mpr hends
    obtain ⟨q, hqeq⟩ : ∃ q, q = wideEnd g p := ⟨_, rfl⟩
    have hinside : LastInside g p ↔ (∃ col < g.columns, q.col < col ∧
        (g.cell ⟨q.row, col⟩).isSpace = false) ∨ Unwrapped g q := by
      rw [hqeq]
      exact and_iff_right hends
    rw [← hqeq] at hexpand hq
    have hrow : HasLine g q.row := ⟨hq.1, hq.2.1⟩
    obtain ⟨found, hfound⟩ : ∃ found, found =
        (lineCells g q.row).reverse.find? fun p => !(g.cell p).isSpace := ⟨_, rfl⟩
    have hlast := hfound ▸ lastOccupiedInLine_eq hrow
    have hlt := hfound ▸ lt_lastOccupied_iff (g := g) q.row q.col
    have heq (fuel : ℕ) : last g fuel p =
        if q.col < (found.getD default).col then .ok (found.getD default)
        else if (g.cell q).wrapline then
          loop (wrapTurn g) fuel q >>= fun pos => do
            return (← lastOccupiedInLine g pos.row).getD pos
        else .ok { q with col := g.lastColumn } := by
      unfold last
      rw [hexpand, ok_bind, hlast, ok_bind, isWrap_eq hq, ok_bind]
      rfl
    simp only [heq]
    rw [hinside, ← hlt]
    by_cases hbefore : q.col < (found.getD default).col
    · refine iff_of_true ?_ (.inl hbefore)
      simp only [if_pos hbefore]
      refine .const ?_
      cases hf : found with
      | none =>
        rw [hf] at hbefore
        exact absurd hbefore (Nat.not_lt_zero _)
      | some r => exact lastOccupied_hasCell hrow (hfound.symm.trans hf)
    · simp only [if_neg hbefore]
      rw [or_iff_right hbefore]
      by_cases hwrap : (g.cell q).wrapline = true
      · simp only [if_pos hwrap]
        constructor
        · intro hon
          by_contra hwrapped
          refine EndsOn.not_of_fault (fun fuel hsafe => ?_) hon
          obtain ⟨pos, hpos, -⟩ := safe_bind_iff.mp hsafe
          exact not_safe_followWrap hwrapped fuel ⟨pos, hpos⟩
        · intro hunwrapped
          refine (followWrap_ends hq hunwrapped).bind fun r hr => ?_
          refine EndsOn.of_ok (lastOccupiedInLine_eq ⟨hr.1, hr.2.1⟩) (.const ?_)
          cases hlast : (lineCells g r.row).reverse.find? fun p => !(g.cell p).isSpace with
          | none => exact hr
          | some s => exact lastOccupied_hasCell ⟨hr.1, hr.2.1⟩ hlast
      · have hfree : (g.cell q).wrapline = false := Bool.eq_false_iff.mpr hwrap
        simp only [if_neg hwrap]
        refine iff_of_true (.const ⟨hq.1, hq.2.1, ?_⟩) ⟨q.row, le_rfl, hq.2.1, hfree⟩
        have hcolumns := h.columns_ge
        show g.columns - 1 < g.columns
        omega
  · refine iff_of_false (EndsOn.not_of_fault fun fuel hsafe => ?_) fun hinside => hends hinside.1
    unfold last at hsafe
    rw [hexpand, ok_bind] at hsafe
    obtain ⟨found, hfound, -⟩ := safe_bind_iff.mp hsafe
    refine not_safe_lastOccupiedInLine h (fun hline => hends ?_) ⟨found, hfound⟩
    unfold EndsInside
    intro hlead
    have hend : wideEnd g p = ⟨p.row + 1, 1⟩ := by
      unfold wideEnd
      rw [hlead]
    rw [hend] at hline
    exact hline.2

/-! ### The start of a line -/

/-- The lines from one up to the line above another are wrapped. -/
def WrappedDown (g : Grid Square) (above line : ℤ) : Prop :=
  ∀ l, above ≤ l → l < line → WrappedLine g l

/-- A line above, from which all are wrapped down to this one, has an occupied cell. -/
def OccupiedAbove (g : Grid Square) (line : ℤ) : Prop :=
  ∃ above, g.topmostLine ≤ above ∧ above < line ∧ WrappedDown g above line ∧ ¬ BlankLine g above

/-- A line below, or the line itself, has an occupied cell or is not wrapped. -/
def StopsBelow (g : Grid Square) (line : ℤ) : Prop :=
  ∃ below, line ≤ below ∧ below < g.lines ∧ ¬ (BlankLine g below ∧ WrappedLine g below)

/-- The search above goes on in the line before if that is wrapped. -/
theorem occupiedAbove_iff (htop : g.topmostLine ≤ line - 1) (hwrapped : WrappedLine g (line - 1)) :
    OccupiedAbove g line ↔ ¬ BlankLine g (line - 1) ∨ OccupiedAbove g (line - 1) := by
  constructor
  · rintro ⟨above, htop, hlt, hdown, hblank⟩
    by_cases hnext : above = line - 1
    · exact .inl (hnext ▸ hblank)
    · exact .inr ⟨above, htop, by omega, fun l hle hlt => hdown l hle (by omega), hblank⟩
  · rintro (hblank | ⟨above, htop, hlt, hdown, hblank⟩)
    · refine ⟨line - 1, htop, by omega, fun l hle hlt => ?_, hblank⟩
      have heq : l = line - 1 := by omega
      exact heq ▸ hwrapped
    · refine ⟨above, htop, by omega, fun l hle hlt => ?_, hblank⟩
      by_cases hlast : l = line - 1
      · exact hlast ▸ hwrapped
      · exact hdown l hle (by omega)

theorem occupiedAbove_eq (h : g.Sound False) :
    ∀ (n : ℕ) (line : ℤ) (found : Option Pos), line - g.topmostLine = n → line ≤ g.lines →
      (∀ p, found = some p → g.HasCell p) →
      ∃ result, occupiedAbove g found (lineRange g.topmostLine line).reverse = .ok result ∧
        (∀ p, result = some p → g.HasCell p) ∧
        (result = none ↔ found = none ∧ ¬ OccupiedAbove g line)
  | 0, line, found, hn, _, hfound => by
    rw [lineRange_empty (by omega)]
    refine ⟨found, rfl, hfound, ?_⟩
    refine (and_iff_left ?_).symm
    rintro ⟨above, htop, hlt, -⟩
    omega
  | n + 1, line, found, hn, hline, hfound => by
    have hrange : (lineRange g.topmostLine line).reverse =
        (line - 1) :: (lineRange g.topmostLine (line - 1)).reverse := by
      have hconcat := lineRange_concat (show g.topmostLine ≤ line - 1 by omega)
      rw [sub_add_cancel] at hconcat
      rw [hconcat, List.reverse_concat]
    have hon : HasLine g (line - 1) := ⟨by omega, by omega⟩
    have hcolumns := h.columns_ge
    have hlastCell : g.HasCell ⟨line - 1, g.lastColumn⟩ := ⟨hon.1, hon.2, by
      show g.columns - 1 < g.columns
      omega⟩
    have hwrap := isWrap_eq hlastCell
    rw [hrange]
    unfold occupiedAbove
    rw [hwrap, ok_bind]
    cases hwrapped : (g.cell ⟨line - 1, g.lastColumn⟩).wrapline with
    | false =>
      refine ⟨found, rfl, hfound, ?_⟩
      refine (and_iff_left ?_).symm
      rintro ⟨above, -, hlt, hdown, -⟩
      have hlast := hdown (line - 1) (by omega) (by omega)
      unfold WrappedLine at hlast
      rw [hwrapped] at hlast
      cases hlast
    | true =>
      rw [if_pos rfl, firstOccupiedInLine_eq hon, ok_bind]
      obtain ⟨first, hfirst⟩ : ∃ first, first =
          (lineCells g (line - 1)).find? fun p => !(g.cell p).isSpace := ⟨_, rfl⟩
      rw [← hfirst]
      have hnone := hfirst ▸ find_none_iff g (line - 1)
      obtain ⟨result, heq, hcell, hiff⟩ := occupiedAbove_eq h n (line - 1) (first <|> found)
        (by omega) (by omega) fun p hp => by
          cases hf : first with
          | none =>
            rw [hf] at hp
            exact hfound p hp
          | some q =>
            rw [hf] at hp
            cases hp
            exact find_hasCell hon (fun _ hp => hp) (hfirst.symm.trans hf)
      refine ⟨result, heq, hcell, hiff.trans ?_⟩
      rw [occupiedAbove_iff hon.1 hwrapped, ← hnone, not_or, not_not, ← and_assoc]
      refine and_congr_left fun _ => ?_
      cases first with
      | none => exact (and_iff_left rfl).symm
      | some q => exact iff_of_false (fun heq => by cases heq) fun hand => by cases hand.2

theorem occupiedTurn_eq (h : g.Sound False) (hline : HasLine g line) : occupiedTurn g line =
    .ok (match (lineCells g line).find? fun p => !(g.cell p).isSpace with
      | some occupied => .inr occupied
      | none =>
        if (g.cell ⟨line, g.lastColumn⟩).wrapline then .inl (line + 1)
        else .inr ⟨line, g.lastColumn⟩) := by
  have hcolumns := h.columns_ge
  have hlastCell : g.HasCell ⟨line, g.lastColumn⟩ := ⟨hline.1, hline.2, by
    show g.columns - 1 < g.columns
    omega⟩
  unfold occupiedTurn
  rw [firstOccupiedInLine_eq hline, ok_bind]
  cases (lineCells g line).find? fun p => !(g.cell p).isSpace with
  | some occupied => rfl
  | none =>
    dsimp only
    rw [isWrap_eq hlastCell, ok_bind]
    cases (g.cell ⟨line, g.lastColumn⟩).wrapline with
    | true => rfl
    | false => rfl

theorem occupiedBelow_ends (h : g.Sound False) (hline : HasLine g line) (hstops : StopsBelow g line) :
    EndsOn g fun fuel => loop (occupiedTurn g) fuel line := by
  refine exists_ends_loop (fun l => HasLine g l ∧ StopsBelow g l) g.HasCell
    (fun l => ((g.lines : ℤ) - l).toNat) (fun l hl => ?_) line ⟨hline, hstops⟩
  obtain ⟨hl, below, hle, hlt, hnot⟩ := hl
  have hcolumns := h.columns_ge
  rw [occupiedTurn_eq h hl]
  cases hfirst : (lineCells g l).find? fun p => !(g.cell p).isSpace with
  | some occupied => exact .inr ⟨occupied, rfl, find_hasCell hl (fun _ hp => hp) hfirst⟩
  | none =>
    cases hwrap : (g.cell ⟨l, g.lastColumn⟩).wrapline with
    | false =>
      refine .inr ⟨_, rfl, hl.1, hl.2, ?_⟩
      show g.columns - 1 < g.columns
      omega
    | true =>
      have hne : l ≠ below := by
        rintro rfl
        exact hnot ⟨(find_none_iff g l).mp hfirst, hwrap⟩
      obtain ⟨htop, hbottom⟩ := hl
      refine .inl ⟨l + 1, rfl, ⟨⟨by omega, by omega⟩, below, by omega, hlt, hnot⟩, ?_⟩
      show ((g.lines : ℤ) - (l + 1)).toNat < ((g.lines : ℤ) - l).toNat
      omega

theorem not_safe_occupiedBelow (h : g.Sound False) (hstops : ¬ StopsBelow g line) (fuel : ℕ) :
    ¬ Safe (loop (occupiedTurn g) fuel line) := by
  refine not_safe_loop (fun l => ¬ StopsBelow g l) (fun l hl => ?_) fuel line hstops
  by_cases hline : HasLine g l
  · have hboth : BlankLine g l ∧ WrappedLine g l := by
      by_contra hnot
      exact hl ⟨l, le_rfl, hline.2, hnot⟩
    rw [occupiedTurn_eq h hline, (find_none_iff g l).mpr hboth.1]
    refine .inr ⟨l + 1, congrArg Except.ok (if_pos hboth.2), ?_⟩
    rintro ⟨below, hle, hlt, hnot⟩
    exact hl ⟨below, by omega, hlt, hnot⟩
  · refine .inl fun hsafe => ?_
    obtain ⟨found, hfound, -⟩ := safe_bind_iff.mp hsafe
    exact not_safe_firstOccupiedInLine h hline ⟨found, hfound⟩

/-- The motion to the first occupied cell stays on the grid: in the last column, the search above
finds a cell, or the search below ends. -/
def FirstInside (g : Grid Square) (p : Pos) : Prop :=
  StartsInside g p ∧ ((wideStart g p).col = g.lastColumn →
    OccupiedAbove g (wideStart g p).row ∨ StopsBelow g (wideStart g p).row)

theorem firstOccupied_endsOn_iff (h : g.Sound False) (hp : g.HasCell p) :
    (EndsOn g fun fuel => firstOccupied g fuel p) ↔ FirstInside g p := by
  by_cases hstarts : StartsInside g p
  · have hexpand := expandWide_left h hp hstarts
    have hq := wideStart_hasCell h hp
    obtain ⟨q, hqeq⟩ : ∃ q, q = wideStart g p := ⟨_, rfl⟩
    have hinside : FirstInside g p ↔
        (q.col = g.lastColumn → OccupiedAbove g q.row ∨ StopsBelow g q.row) := by
      rw [hqeq]
      exact and_iff_right hstarts
    rw [← hqeq] at hexpand hq
    have hcolumns := h.columns_ge
    have hrow : HasLine g q.row := ⟨hq.1, hq.2.1⟩
    have hlastCell : g.HasCell ⟨q.row, g.lastColumn⟩ := ⟨hq.1, hq.2.1, by
      show g.columns - 1 < g.columns
      omega⟩
    obtain ⟨found, hfound⟩ : ∃ found, found =
        (lineCells g q.row).find? fun p => !(g.cell p).isSpace := ⟨_, rfl⟩
    have hfirst := hfound ▸ firstOccupiedInLine_eq hrow
    have hnone := hfound ▸ find_none_iff g q.row
    obtain ⟨above, habove, hcell, hiff⟩ := occupiedAbove_eq h (q.row - g.topmostLine).toNat q.row none
      (by have := hq.1; omega) hq.2.1.le fun p hp => by cases hp
    rw [hinside]
    have heq (fuel : ℕ) : firstOccupied g fuel p =
        if q = found.getD ⟨q.row, g.lastColumn⟩ then
          above.elim (loop (occupiedTurn g) fuel q.row) .ok
        else .ok (found.getD ⟨q.row, g.lastColumn⟩) := by
      unfold firstOccupied
      rw [hexpand, ok_bind, hfirst, ok_bind, habove]
      cases above with
      | some occupied => rfl
      | none => rfl
    simp only [heq]
    have hfoundCell : g.HasCell (found.getD ⟨q.row, g.lastColumn⟩) := by
      cases hf : found with
      | none => exact hlastCell
      | some r => exact find_hasCell hrow (fun _ hp => hp) (hfound.symm.trans hf)
    by_cases hat : q = found.getD ⟨q.row, g.lastColumn⟩
    · simp only [if_pos hat]
      cases above with
      | some occupied =>
        refine iff_of_true (.const (hcell occupied rfl)) fun _ => .inl ?_
        by_contra hnot
        have habsurd := hiff.mpr ⟨rfl, hnot⟩
        cases habsurd
      | none =>
        have hnot := (hiff.mp rfl).2
        constructor
        · intro hon _
          by_contra hneither
          exact EndsOn.not_of_fault
            (not_safe_occupiedBelow h fun hstops => hneither (.inr hstops)) hon
        · intro hcond
          refine occupiedBelow_ends h hrow ?_
          cases hf : found with
          | none =>
            rw [hf] at hat
            exact (hcond (congrArg Pos.col hat)).resolve_left hnot
          | some r =>
            refine ⟨q.row, le_rfl, hq.2.1, fun hboth => ?_⟩
            rw [hnone.mpr hboth.1] at hf
            cases hf
    · simp only [if_neg hat]
      refine iff_of_true (.const hfoundCell) fun hlast => .inr ⟨q.row, le_rfl, hq.2.1, fun hboth => ?_⟩
      rw [hnone.mpr hboth.1] at hat
      refine hat ?_
      obtain ⟨row, col⟩ := q
      exact congrArg (Pos.mk row) hlast
  · refine iff_of_false (EndsOn.not_of_fault fun fuel hsafe => ?_) fun hinside => hstarts hinside.1
    obtain ⟨q, hq, -⟩ := safe_bind_iff.mp hsafe
    exact not_safe_expandWide_left hp hstarts ⟨q, hq⟩

/-! ### Motions -/

theorem EndsOn.const_iff : (EndsOn g fun _ => .ok p) ↔ g.HasCell p := by
  refine ⟨fun ⟨q, hends, hq⟩ => ?_, .const⟩
  have heq : p = q := Ends.unique (.const rfl) hends
  exact heq ▸ hq

theorem wrapsFrom_eq (h : g.Sound False) (hp : g.HasCell p) : wrapsFrom g p =
    .ok (decide (p.col = 0 ∧ g.topmostLine < p.row) &&
      (g.cell ⟨p.row - 1, g.lastColumn⟩).wrapline) := by
  obtain ⟨htop, hline, hcol⟩ := hp
  have hcolumns := h.columns_ge
  unfold wrapsFrom
  by_cases hstart : p.col = 0 ∧ g.topmostLine < p.row
  · have habove : g.HasCell ⟨p.row - 1, g.lastColumn⟩ := by
      refine ⟨?_, ?_, ?_⟩
      · show g.topmostLine ≤ p.row - 1
        omega
      · show p.row - 1 < g.lines
        omega
      · show g.columns - 1 < g.columns
        omega
    rw [if_pos hstart, isWrap_eq habove, decide_eq_true hstart, Bool.true_and]
  · rw [if_neg hstart, decide_eq_false hstart, Bool.false_and]

theorem left_ends (h : g.Sound False) (hp : g.HasCell p) (hstarts : StartsInside g p) :
    EndsOn g fun fuel => target g fuel p .left := by
  have hq := wideStart_hasCell h hp
  unfold target
  refine EndsOn.of_ok (expandWide_left h hp hstarts) (EndsOn.of_ok (wrapsFrom_eq h hq) ?_)
  refine .const ?_
  obtain ⟨htop, hline, hcol⟩ := hq
  have hcolumns := h.columns_ge
  split_ifs with hwraps
  · rw [Bool.and_eq_true, decide_eq_true_eq] at hwraps
    have habove := hwraps.1.2
    refine ⟨?_, ?_, ?_⟩
    · show g.topmostLine ≤ (wideStart g p).row - 1
      omega
    · show (wideStart g p).row - 1 < g.lines
      omega
    · show g.columns - 1 < g.columns
      omega
  · exact ⟨htop, hline, Nat.lt_of_le_of_lt (Nat.sub_le _ _) hcol⟩

theorem unwrap_ends (h : g.Sound False) (hp : g.HasCell p) :
    EndsOn g fun fuel => loop (unwrapTurn g) fuel p := by
  refine exists_ends_loop g.HasCell g.HasCell (fun q => (q.row - g.topmostLine).toNat)
    (fun q hq => ?_) p hp
  unfold unwrapTurn
  rw [wrapsFrom_eq h hq, ok_bind]
  cases hwraps : (decide (q.col = 0 ∧ g.topmostLine < q.row) &&
      (g.cell ⟨q.row - 1, g.lastColumn⟩).wrapline) with
  | false => exact .inr ⟨q, rfl, hq⟩
  | true =>
    rw [Bool.and_eq_true, decide_eq_true_eq] at hwraps
    obtain ⟨htop, hline, hcol⟩ := hq
    have habove := hwraps.1.2
    refine .inl ⟨_, rfl, ⟨?_, ?_, hcol⟩, ?_⟩
    · show g.topmostLine ≤ q.row - 1
      omega
    · show q.row - 1 < g.lines
      omega
    · show (q.row - 1 - g.topmostLine).toNat < (q.row - g.topmostLine).toNat
      omega

theorem first_ends (h : g.Sound False) (hp : g.HasCell p) (hstarts : StartsInside g p) :
    EndsOn g fun fuel => target g fuel p .first := by
  have hcolumns := h.columns_ge
  unfold target
  refine EndsOn.of_ok (expandWide_left h hp hstarts) ?_
  refine (unwrap_ends h (wideStart_hasCell h hp)).bind fun q hq => .const ⟨hq.1, hq.2.1, ?_⟩
  show 0 < g.columns
  omega

/-- The right motion stays on the grid: what is to the right is not a line below the last one. -/
def RightInside (g : Grid Square) (p : Pos) : Prop :=
  EndsInside g p ∧ ((g.cell (wideEnd g p)).wrapline = true → (wideEnd g p).row + 1 < g.lines)

theorem right_endsOn_iff (h : g.Sound False) (hp : g.HasCell p) :
    (EndsOn g fun fuel => target g fuel p .right) ↔ RightInside g p := by
  have hexpand := expandWide_right hp
  have hcolumns := h.columns_ge
  unfold target
  by_cases hends : EndsInside g p
  · have hq := (wideEnd_hasCell_iff h hp).mpr hends
    have hinside : RightInside g p ↔
        ((g.cell (wideEnd g p)).wrapline = true → (wideEnd g p).row + 1 < g.lines) :=
      and_iff_right hends
    rw [hexpand, ok_bind, isWrap_eq hq, ok_bind, hinside]
    refine EndsOn.const_iff.trans ?_
    obtain ⟨htop, hline, hcol⟩ := hq
    cases (g.cell (wideEnd g p)).wrapline with
    | true =>
      refine ⟨fun hcell _ => hcell.2.1, fun hnext => ⟨?_, hnext rfl, ?_⟩⟩
      · show g.topmostLine ≤ (wideEnd g p).row + 1
        omega
      · show 0 < g.columns
        omega
    | false =>
      refine iff_of_true ⟨htop, hline, ?_⟩ fun hwrap => by cases hwrap
      show min ((wideEnd g p).col + 1) (g.columns - 1) < g.columns
      omega
  · have hq : ¬ g.HasCell (wideEnd g p) := fun hq => hends ((wideEnd_hasCell_iff h hp).mp hq)
    refine iff_of_false (EndsOn.not_of_fault fun fuel hsafe => ?_) fun hinside => hends hinside.1
    rw [hexpand, ok_bind] at hsafe
    obtain ⟨wrap, hwrap, -⟩ := safe_bind_iff.mp hsafe
    exact not_safe_isWrap hq ⟨wrap, hwrap⟩

theorem inViewport_endsOn_iff (h : g.Sound False) (line : ℤ) :
    (EndsOn g fun _ => inViewport g line) ↔ HasLine g line := by
  have hcolumns := h.columns_ge
  unfold inViewport
  by_cases hline : HasLine g line
  · refine iff_of_true (EndsOn.of_ok (firstOccupiedInLine_eq hline) (.const ⟨hline.1, hline.2, ?_⟩))
      hline
    cases hfirst : (lineCells g line).find? fun p => !(g.cell p).isSpace with
    | none =>
      show 0 < g.columns
      omega
    | some q => exact (find_hasCell hline (fun _ hp => hp) hfirst).2.2
  · refine iff_of_false (EndsOn.not_of_fault fun _ hsafe => ?_) hline
    obtain ⟨found, hfound, -⟩ := safe_bind_iff.mp hsafe
    exact not_safe_firstOccupiedInLine h hline ⟨found, hfound⟩

theorem bracket_ends (h : g.Sound False) (hp : g.HasCell p) :
    EndsOn g fun fuel => target g fuel p .bracket := by
  refine ⟨(g.bracketSearch p).getD p, (bracketSearch_ends h hp).bind (.const rfl), ?_⟩
  cases hbracket : g.bracketSearch p with
  | none => exact hp
  | some q => exact Grid.bracketSearch_hasCell h hp hbracket

/-! ### Words from a leading spacer in the last line -/

theorem wideEnd_off (hp : g.HasCell p) (hoff : ¬ EndsInside g p) :
    wideEnd g p = ⟨g.lines, 1⟩ := by
  unfold EndsInside at hoff
  rw [Classical.not_imp] at hoff
  have hrow : p.row + 1 = g.lines := by
    have := hp.2.1
    omega
  unfold wideEnd
  rw [hoff.1, hrow]

theorem not_boundary_off : isBoundary g ⟨g.lines, 1⟩ .right = false := by
  have hne : (g.lines : ℤ) ≠ g.bottommostLine := by
    rw [Grid.bottommostLine_eq]
    omega
  unfold isBoundary
  simp [hne]

theorem not_hasCell_off : ¬ g.HasCell ⟨g.lines, 1⟩ := fun hcell => lt_irrefl _ hcell.2.1

theorem advance_off (h : g.Sound False) :
    advance g ⟨g.lines, 1⟩ .right = ⟨g.bottommostLine, g.lastColumn⟩ := by
  have hlines := h.lines_pos
  have hclamp (k col : ℕ) : Pos.gridClamp ⟨(g.lines : ℤ) + k, col⟩ g.dimensions .grid =
      ⟨g.bottommostLine, g.lastColumn⟩ := by
    have htop : ¬ (g.lines : ℤ) + k < g.dimensions.topmostLine := by
      have heq : g.dimensions.topmostLine = -(g.historySize : ℤ) := rfl
      omega
    have hbottom : g.dimensions.bottommostLine < (g.lines : ℤ) + k := by
      have heq : g.dimensions.bottommostLine = (g.lines : ℤ) - 1 := rfl
      omega
    exact (if_neg htop).trans (if_pos hbottom)
  exact hclamp _ _

theorem boundary_last : isBoundary g ⟨g.bottommostLine, g.lastColumn⟩ .right = true := by
  have hend : g.columns ≤ g.lastColumn + 1 := by
    rw [Grid.lastColumn_eq]
    omega
  unfold isBoundary
  simp [hend]

/-- The last cell of the grid. -/
def lastCell (g : Grid Square) : Pos := ⟨g.bottommostLine, g.lastColumn⟩

theorem lastCell_hasCell (h : g.Sound False) : g.HasCell (lastCell g) := by
  rw [lastCell, ← advance_off h]
  exact Grid.advance_hasCell h _ _

theorem advanceWhile_lastCell (go : Pos → Outcome Bool) :
    Ends (fun fuel => advanceWhile g .right go fuel (lastCell g)) (lastCell g) := by
  refine ends_loop_of_done ?_
  exact if_pos boundary_last

/-- From below the grid, words go on at its last cell at once. -/
theorem advanceWhile_off (h : g.Sound False) {go : Pos → Outcome Bool} {b : Bool}
    (hgo : go ⟨g.lines, 1⟩ = .ok b) :
    Ends (fun fuel => advanceWhile g .right go fuel ⟨g.lines, 1⟩)
      (if b then lastCell g else ⟨g.lines, 1⟩) := by
  have hturn := advanceTurn_eq (g := g) (d := .right) hgo
  rw [not_boundary_off, Bool.false_or, advance_off h] at hturn
  cases b with
  | true => exact ends_loop_of_again hturn (advanceWhile_lastCell go)
  | false => exact ends_loop_of_done hturn

theorem semantic_off (h : g.Sound False) (hexpand : expandWide g p .right = .ok ⟨g.lines, 1⟩) :
    EndsOn g fun fuel => semantic g fuel p .right .right := by
  have hwalk := @advanceWhile_off g h (fun pos => isSpace g (advance g pos .right)) _
    (isSpace_eq (Grid.advance_hasCell h ⟨g.lines, 1⟩ .right))
  have hmoved : (if isBoundary g (if (g.cell (advance g ⟨g.lines, 1⟩ .right)).isSpace
      then lastCell g else ⟨g.lines, 1⟩) .right then
        if (g.cell (advance g ⟨g.lines, 1⟩ .right)).isSpace then lastCell g else ⟨g.lines, 1⟩
      else advance g (if (g.cell (advance g ⟨g.lines, 1⟩ .right)).isSpace
        then lastCell g else ⟨g.lines, 1⟩) .right) = lastCell g := by
    cases (g.cell (advance g ⟨g.lines, 1⟩ .right)).isSpace with
    | true => exact if_pos boundary_last
    | false =>
      refine (if_neg ?_).trans (advance_off h)
      exact Bool.eq_false_iff.mp not_boundary_off
  have hstay (fuel : ℕ) : toWordBoundary g fuel (lastCell g) .right true = .ok (lastCell g) := by
    unfold toWordBoundary
    rw [lastCell, boundary_last]
    rfl
  unfold semantic
  refine EndsOn.of_ok hexpand ⟨lastCell g, (Ends.of_ok fun _ => rfl).bind (hwalk.bind ?_),
    lastCell_hasCell h⟩
  dsimp only
  rw [hmoved]
  exact .of_ok hstay

theorem word_off (h : g.Sound False) (hexpand : expandWide g p .right = .ok ⟨g.lines, 1⟩) :
    EndsOn g fun fuel => word g fuel p .right .right := by
  have hcell := Grid.advance_hasCell h ⟨g.lines, 1⟩ .right
  have hspace := @advanceWhile_off g h (fun pos => isSpace g (advance g pos .right)) _
    (isSpace_eq hcell)
  have hword := @advanceWhile_off g h (fun pos => occupied g (advance g pos .right)) _
    (occupied_eq hcell)
  unfold word
  refine EndsOn.of_ok hexpand ?_
  simp only [if_true]
  refine ⟨lastCell g, hspace.bind ?_, lastCell_hasCell h⟩
  cases hblank : (g.cell (advance g ⟨g.lines, 1⟩ .right)).isSpace with
  | true => exact advanceWhile_lastCell _
  | false =>
    rw [hblank] at hword
    exact hword

theorem semantic_faults_off (hexpand : expandWide g p .right = .ok ⟨g.lines, 1⟩) (fuel : ℕ) :
    ¬ Safe (semantic g fuel p .right .left) := by
  intro hsafe
  unfold semantic at hsafe
  rw [hexpand, ok_bind] at hsafe
  obtain ⟨q, hq, -⟩ := safe_bind_iff.mp hsafe
  unfold toWordBoundary at hq
  rw [not_boundary_off, if_pos (by decide)] at hq
  obtain ⟨cell, hcell, -⟩ := safe_bind_iff.mp ⟨q, hq⟩
  exact not_hasCell_off (safe_readCell_iff.mp ⟨cell, hcell⟩)

theorem word_faults_off (hexpand : expandWide g p .right = .ok ⟨g.lines, 1⟩) (fuel : ℕ) :
    ¬ Safe (word g fuel p .right .left) := by
  intro hsafe
  unfold word at hsafe
  rw [hexpand, ok_bind, if_neg (by decide)] at hsafe
  obtain ⟨q, hq, -⟩ := safe_bind_iff.mp hsafe
  refine not_safe_loop (fun s => s = ⟨g.lines, 1⟩) (fun s hs => .inl fun hturn => ?_) fuel _ rfl ⟨q, hq⟩
  rw [hs] at hturn
  unfold advanceTurn at hturn
  rw [not_boundary_off, if_neg (by decide)] at hturn
  obtain ⟨b, hb, -⟩ := safe_bind_iff.mp hturn
  exact not_safe_occupied not_hasCell_off ⟨b, hb⟩

/-! ### All motions -/

/-- When a motion from a position stays on the grid. -/
def MotionInside (g : Grid Square) (p : Pos) : ViMotion → Prop
  | .up | .down | .semanticRightEnd | .wordRightEnd | .bracket => True
  | .left | .first | .semanticLeft | .semanticLeftEnd | .wordLeft | .wordLeftEnd => StartsInside g p
  | .right => RightInside g p
  | .semanticRight | .wordRight => EndsInside g p
  | .last => LastInside g p
  | .firstOccupied => FirstInside g p
  | .high => g.displayOffset ≤ g.historySize
  | .middle => g.displayOffset + 1 ≤ g.historySize + g.lines / 2
  | .low => g.displayOffset + 1 ≤ g.historySize + g.lines

/-- A motion that starts at the left end of a character fails if that is not on the grid. -/
theorem endsOn_left_iff {f : ℕ → Pos → Outcome Pos} (hp : g.HasCell p)
    (hends : StartsInside g p → EndsOn g fun fuel => expandWide g p .left >>= f fuel) :
    (EndsOn g fun fuel => expandWide g p .left >>= f fuel) ↔ StartsInside g p := by
  refine ⟨fun hon => ?_, hends⟩
  by_contra hstarts
  refine EndsOn.not_of_fault (fun fuel hsafe => ?_) hon
  obtain ⟨q, hq, -⟩ := safe_bind_iff.mp hsafe
  exact not_safe_expandWide_left hp hstarts ⟨q, hq⟩

theorem semantic_left_endsOn_iff (h : g.Sound False) (hp : g.HasCell p) (side : Side) :
    (EndsOn g fun fuel => semantic g fuel p .left side) ↔ StartsInside g p :=
  endsOn_left_iff hp fun hstarts =>
    semantic_ends h (expandWide_left h hp hstarts) (wideStart_hasCell h hp) side

theorem word_left_endsOn_iff (h : g.Sound False) (hp : g.HasCell p) (side : Side) :
    (EndsOn g fun fuel => word g fuel p .left side) ↔ StartsInside g p :=
  endsOn_left_iff hp fun hstarts =>
    word_ends h (expandWide_left h hp hstarts) (wideStart_hasCell h hp) side

theorem expandWide_off (hp : g.HasCell p) (hoff : ¬ EndsInside g p) :
    expandWide g p .right = .ok ⟨g.lines, 1⟩ := by
  rw [expandWide_right hp, wideEnd_off hp hoff]

theorem target_endsOn_iff (h : g.Sound False) (hp : g.HasCell p) (m : ViMotion) :
    (EndsOn g fun fuel => target g fuel p m) ↔ MotionInside g p m := by
  have htopmost := Grid.topmostLine_eq g
  have hlines := h.lines_pos
  obtain ⟨htop, hline, hcol⟩ := id hp
  cases m with
  | up =>
    refine iff_of_true (.const ?_) trivial
    split_ifs
    · exact ⟨by dsimp only; omega, by dsimp only; omega, hcol⟩
    · exact hp
  | down =>
    refine iff_of_true (.const ?_) trivial
    split_ifs
    · exact ⟨by dsimp only; omega, by dsimp only; omega, hcol⟩
    · exact hp
  | left => exact endsOn_left_iff hp (left_ends h hp)
  | right => exact right_endsOn_iff h hp
  | first => exact endsOn_left_iff hp (first_ends h hp)
  | last => exact last_endsOn_iff h hp
  | firstOccupied => exact firstOccupied_endsOn_iff h hp
  | high =>
    refine (inViewport_endsOn_iff h _).trans ?_
    unfold HasLine MotionInside
    omega
  | middle =>
    refine (inViewport_endsOn_iff h _).trans ?_
    unfold HasLine MotionInside
    omega
  | low =>
    refine (inViewport_endsOn_iff h _).trans ?_
    unfold HasLine MotionInside
    omega
  | semanticLeft => exact semantic_left_endsOn_iff h hp .left
  | semanticLeftEnd => exact semantic_left_endsOn_iff h hp .right
  | wordLeft => exact word_left_endsOn_iff h hp .left
  | wordLeftEnd => exact word_left_endsOn_iff h hp .right
  | semanticRight =>
    by_cases hends : EndsInside g p
    · exact iff_of_true (semantic_ends h (expandWide_right hp) ((wideEnd_hasCell_iff h hp).mpr hends)
        .left) hends
    · exact iff_of_false (EndsOn.not_of_fault (semantic_faults_off (expandWide_off hp hends))) hends
  | wordRight =>
    by_cases hends : EndsInside g p
    · exact iff_of_true (word_ends h (expandWide_right hp) ((wideEnd_hasCell_iff h hp).mpr hends)
        .left) hends
    · exact iff_of_false (EndsOn.not_of_fault (word_faults_off (expandWide_off hp hends))) hends
  | semanticRightEnd =>
    refine iff_of_true ?_ trivial
    by_cases hends : EndsInside g p
    · exact semantic_ends h (expandWide_right hp) ((wideEnd_hasCell_iff h hp).mpr hends) .right
    · exact semantic_off h (expandWide_off hp hends)
  | wordRightEnd =>
    refine iff_of_true ?_ trivial
    by_cases hends : EndsInside g p
    · exact word_ends h (expandWide_right hp) ((wideEnd_hasCell_iff h hp).mpr hends) .right
    · exact word_off h (expandWide_off hp hends)
  | bracket => exact iff_of_true (bracket_ends h hp) trivial

end Vi

namespace Crosswords

variable {t : Crosswords} {p : Pos}

/-- A motion ends, reads only cells of the grid, and leaves the cursor on it. -/
def MotionStays (t : Crosswords) (p : Pos) (m : ViMotion) : Prop :=
  ∃ q t', Ends (fun fuel => t.motion fuel p m) (q, t') ∧ t.grid.HasCell q

theorem motionStays_iff_target (t : Crosswords) (p : Pos) (m : ViMotion) :
    t.MotionStays p m ↔ Vi.EndsOn t.grid fun fuel => Vi.target t.grid fuel p m := by
  constructor
  · rintro ⟨q, t', hends, hq⟩
    refine ⟨q, hends.mono fun fuel hmotion => ?_, hq⟩
    obtain ⟨r, hr, hpair⟩ := ok_of_bind hmotion
    cases hpair
    exact hr
  · rintro ⟨q, hends, hq⟩
    exact ⟨q, t.scrollToPos q, hends.bind (.const rfl), hq⟩

/-- Motions from a position on the grid end there as long as no character or wrapped line goes
beyond the first or the last line, and the display shows lines of the grid. -/
theorem motion_stays_iff (h : t.Sound False) (hp : t.grid.HasCell p) (m : ViMotion) :
    t.MotionStays p m ↔ Vi.MotionInside t.grid p m :=
  (motionStays_iff_target t p m).trans (Vi.target_endsOn_iff h.grid hp m)

theorem motion_stays_new :
    ((new 3 2 0).MotionStays ⟨1, 2⟩ .right ↔ Vi.MotionInside (new 3 2 0).grid ⟨1, 2⟩ .right) :=
  motion_stays_iff (new_sound False (by decide) (by decide) 0) (by decide) .right

/-- The right motion follows a wrapped line that was moved to the end of the screen beyond it. -/
theorem motion_leaves :
    ((new 2 2 0).run .basic [.input 'a', .input 'b', .input 'c', .goto 0 0,
        .insertBlankLines 1]).grid.HasCell ⟨1, 1⟩ ∧
      ¬ ((new 2 2 0).run .basic [.input 'a', .input 'b', .input 'c', .goto 0 0,
        .insertBlankLines 1]).MotionStays ⟨1, 1⟩ .right := by
  refine ⟨by decide, fun hstays => ?_⟩
  have hon := (motionStays_iff_target _ _ _).mp hstays
  have htarget : Vi.target ((new 2 2 0).run .basic [.input 'a', .input 'b', .input 'c', .goto 0 0,
      .insertBlankLines 1]).grid 0 ⟨1, 1⟩ .right = .ok ⟨2, 0⟩ := by decide
  change Vi.EndsOn _ fun _ => Vi.target ((new 2 2 0).run .basic [.input 'a', .input 'b', .input 'c',
    .goto 0 0, .insertBlankLines 1]).grid 0 ⟨1, 1⟩ .right at hon
  rw [htarget] at hon
  exact absurd (Vi.EndsOn.const_iff.mp hon) (by decide)

end Crosswords
end Rio
