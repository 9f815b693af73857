import Rio.Grid.ResizeSound
import Rio.Grid.RowEdits
import Rio.Lib.Runs

/-! What the reflow does to the rows one by one: which cells move into which row when the number
of columns changes, and what all rows keep. -/

set_option linter.dupNamespace false

namespace Rio.Grid
open Rio.Runs

/-! ### More columns -/

/-- A turn of the loop of `growColumns`. -/
def growTurn (reflow : Bool) (lines columns : ℕ) (st : GrowState) (x : Row Square × ℕ) :
    GrowState := growStep reflow lines columns st x.2 x.1

/-- `C row cells lastRow rest` holds if this turn moves `cells` up from `row`, of which `rest`
remains, to `lastRow`. -/
def PullsOnly (C : Row Square → List Square → Row Square → Row Square → Prop) (reflow : Bool)
    (columns : ℕ) (st : GrowState) (x : Row Square × ℕ) : Prop :=
  match st.reversed with
  | [] => True
  | lastRow :: _ =>
    shouldReflow reflow columns lastRow = true →
      C x.1 (pullCells x.1 (columns - (openLastRow lastRow).len)).2.2 (openLastRow lastRow)
        (pullCells x.1 (columns - (openLastRow lastRow).len)).2.1

instance {C : Row Square → List Square → Row Square → Row Square → Prop}
    [∀ row cells lastRow rest, Decidable (C row cells lastRow rest)] (reflow : Bool)
    (columns : ℕ) (st : GrowState) (x : Row Square × ℕ) :
    Decidable (PullsOnly C reflow columns st x) := by
  unfold PullsOnly
  split <;> exact inferInstance

/-- The state that the loop of `growColumns` starts in. -/
def growStart (g : Grid Square) (reflow : Bool) : GrowState :=
  { cursor := unwrapCursor reflow g.cursor
    displayOffset := g.displayOffset
    cursorLineDelta := 0
    reversed := [] }

/-- All turns of the loop of `growColumns` only move cells so that `C` holds. -/
def GrowsBy (C : Row Square → List Square → Row Square → Row Square → Prop) (g : Grid Square)
    (reflow : Bool) (columns : ℕ) : Prop :=
  Permitted (growTurn reflow g.lines columns) (PullsOnly C reflow columns) (g.growStart reflow)
    (oldestFirst g.raw.takeAll.2)

instance {C : Row Square → List Square → Row Square → Row Square → Prop}
    [∀ row cells lastRow rest, Decidable (C row cells lastRow rest)] (g : Grid Square)
    (reflow : Bool) (columns : ℕ) : Decidable (g.GrowsBy C reflow columns) :=
  inferInstanceAs (Decidable (Permitted _ _ _ _))

/-- The rows after the reflow, before the short ones are filled up with cells. -/
def reflownRows (g : Grid Square) (reflow : Bool) (columns : ℕ) : List (Row Square) :=
  (pullDown (fillViewport ((oldestFirst g.raw.takeAll.2).foldl (growTurn reflow g.lines columns)
    (g.growStart reflow)) g.lines columns) g.lines).reversed

theorem growColumns_inner (g : Grid Square) (reflow : Bool) (columns : ℕ) :
    (g.growColumns reflow columns).raw.inner =
      (g.reflownRows reflow columns).map (Row.grow · columns) := rfl

variable {marked : Char → Prop} {P : Row Square → Prop} {g : Grid Square}
  {C : Row Square → List Square → Row Square → Row Square → Prop}

theorem edited_modifyLast (r : Row Square) {f : Square → Square} (hf : ∀ c, (f c).c = c.c) :
    r.Edited marked (r.modifyLast f) := by
  refine Row.edited_of_full (Row.modifyLast_len r f) rfl rfl fun c hc hmarked => ?_
  obtain ⟨i, hi, rfl⟩ := List.mem_iff_getElem.mp (show c ∈ r.inner.modify _ f from hc)
  have hi' : i < r.inner.length := by simpa using hi
  rw [List.getElem_modify] at hmarked
  refine ⟨_, List.getElem_mem hi', ?_⟩
  split_ifs at hmarked
  · rwa [hf] at hmarked
  · exact hmarked

theorem allRows_takeAll (h : g.raw.AllRows P) : ∀ x ∈ oldestFirst g.raw.takeAll.2, P x.1 :=
  fun _ hx => h.truncate _ (mem_oldestFirst hx)

/-- What a law needs to survive a reflow: rows may be cut, and cells moved where `C` holds. -/
structure GrowLaw (marked : Char → Prop) (P : Row Square → Prop)
    (C : Row Square → List Square → Row Square → Row Square → Prop) : Prop
    extends RowLaw marked P where
  shrink : ∀ (r : Row Square) (columns : ℕ), P r → P (r.shrink columns).1
  pull : ∀ row cells lastRow rest numWrapped, (pullCells row numWrapped).2 = (rest, cells) →
    C row cells lastRow rest → P row → P lastRow → P (lastRow.append cells) ∧ P rest

namespace GrowLaw

theorem modifyLast (law : GrowLaw marked P C) {r : Row Square} (h : P r) (on : Bool) :
    P (r.modifyLast (·.setWrapline on)) :=
  law.edited _ _ (edited_modifyLast r fun _ => rfl) h

theorem openLastRow (law : GrowLaw marked P C) {r : Row Square} (h : P r) :
    P (openLastRow r) := by
  unfold Grid.openLastRow
  dsimp only
  split_ifs
  · exact law.shrink _ _ (law.modifyLast h false)
  · exact law.modifyLast h false

theorem growTurn (law : GrowLaw marked P C) (reflow : Bool) (lines columns : ℕ) {st : GrowState}
    {x : Row Square × ℕ} (hst : ∀ r ∈ st.reversed, P r) (hx : P x.1)
    (hpulls : PullsOnly C reflow columns st x) :
    ∀ r ∈ (growTurn reflow lines columns st x).reversed, P r := by
  obtain ⟨row, i⟩ := x
  unfold Grid.growTurn
  rcases hreversed : st.reversed with _ | ⟨lastRow, rest⟩
  · rw [growStep_first hreversed]
    simpa using hx
  rw [hreversed] at hst
  obtain ⟨hlast, hrest⟩ := List.forall_mem_cons.mp hst
  rcases hreflow : shouldReflow reflow columns lastRow with _ | _
  · rw [growStep_push hreversed hreflow]
    exact List.forall_mem_cons.mpr ⟨hx, hst⟩
  · have hpulled := growStep_pulled hreversed hreflow lines i row
    unfold PullsOnly at hpulls
    rw [hreversed] at hpulls
    have hboth := law.pull row _ _ _ (columns - (Grid.openLastRow lastRow).len) rfl
      (hpulls hreflow) hx (law.openLastRow hlast)
    generalize (growStep reflow lines columns st i row).reversed = rows at hpulled
    cases hpulled with
    | keep hpull =>
      rw [hpull] at hboth
      exact List.forall_mem_cons.mpr
        ⟨hboth.2, List.forall_mem_cons.mpr ⟨law.modifyLast hboth.1 true, hrest⟩⟩
    | drop hpull hclear =>
      rw [hpull] at hboth
      exact List.forall_mem_cons.mpr ⟨hboth.1, hrest⟩

/-- What all rows keep in the reflow. -/
theorem reflownRows (law : GrowLaw marked P C) (h : g.raw.AllRows P) {reflow : Bool} {columns : ℕ}
    (hgrows : g.GrowsBy C reflow columns) : ∀ r ∈ g.reflownRows reflow columns, P r := by
  have hrows := invariant (I := fun st : GrowState => ∀ r ∈ st.reversed, P r)
    (fun st x hst hx => law.growTurn reflow g.lines columns hst hx.2 hx.1) _ (g.growStart reflow)
    (by simp [growStart]) (hgrows.and (.of_forall (allRows_takeAll h)))
  unfold Grid.reflownRows
  generalize List.foldl _ _ _ = st at hrows
  have hfilled : ∀ r ∈ (fillViewport st g.lines columns).reversed, P r := by
    unfold fillViewport
    split_ifs
    · intro r hr
      rcases List.mem_append.mp hr with hr | hr
      · exact law.cleared _ (List.eq_of_mem_replicate hr ▸ Row.new_cleared columns)
      · exact hrows r hr
    · exact hrows
  unfold pullDown
  split_ifs
  · exact fun r hr => hfilled r (List.mem_of_mem_drop hr)
  · exact hfilled

theorem growColumns (law : GrowLaw marked P C) (h : g.raw.AllRows P) {reflow : Bool}
    {columns : ℕ} (hgrows : g.GrowsBy C reflow columns)
    (hfills : ∀ r ∈ g.reflownRows reflow columns, P r → P (r.grow columns)) :
    (g.growColumns reflow columns).raw.AllRows P := by
  intro r hr
  rw [growColumns_inner] at hr
  obtain ⟨r', hr', rfl⟩ := List.mem_map.mp hr
  exact hfills r' hr' (law.reflownRows h hgrows r' hr')

end GrowLaw

/-! ### Fewer columns -/

/-- A turn of the loop of `shrinkColumns` over the cells of a row: the state and the row for the
next turn, or the state after the last turn. -/
def wrapTurn (reflow : Bool) (lines columns i : ℕ) (st : ShrinkState) (row : Row Square) :
    ShrinkState × Row Square ⊕ ShrinkState :=
  let (row, cut) := row.shrink columns
  let cut := if reflow then cut else none
  let whitespace :=
    reflow ∧ i = cursorBufferLine lines st.cursor ∧ columns < st.cursor.pos.col
  if cut = none ∧ ¬ whitespace then .inr { st with newRaw := row :: st.newRaw }
  else
    match splitRow columns row (cut.getD []) with
    | (row, none) => .inr { st with newRaw := row :: st.newRaw }
    | (row, some wrapped) =>
      let st := { st with newRaw := row :: st.newRaw }
      if (wrapped.getLast?.any Square.wrapline) ∧ 1 ≤ i ∧ wrapped.length < columns then
        .inr { st with
          buffered := some (wrapped.modify (wrapped.length - 1) (·.setWrapline false)) }
      else
        .inl
          ({ st with
              cursor := cursorAfterSplit lines columns i st.cursor
              displayOffset :=
                if i < st.displayOffset then st.displayOffset + 1 else st.displayOffset },
            Row.fromVec (wrapped ++ List.replicate (columns - wrapped.length) default)
              wrapped.length)

theorem shrinkRow_succ (reflow : Bool) (lines columns i fuel : ℕ) (st : ShrinkState)
    (row : Row Square) :
    shrinkRow reflow lines columns i (fuel + 1) st row =
      match wrapTurn reflow lines columns i st row with
      | .inl (st, row) => shrinkRow reflow lines columns i fuel st row
      | .inr st => st := by
  rw [shrinkRow, wrapTurn]
  dsimp only
  generalize (if reflow = true then (row.shrink columns).2 else none) = cut
  by_cases hfits : cut = none ∧
      ¬ (reflow = true ∧ i = cursorBufferLine lines st.cursor ∧ columns < st.cursor.pos.col)
  · rw [if_pos hfits, if_pos hfits]
  · rw [if_neg hfits, if_neg hfits]
    rcases splitRow columns (row.shrink columns).1 (cut.getD []) with ⟨pushed, _ | wrapped⟩
    · rfl
    · dsimp only
      by_cases hbuffers : wrapped.getLast?.any Square.wrapline = true ∧ 1 ≤ i ∧
          wrapped.length < columns
      · rw [if_pos hbuffers, if_pos hbuffers]
      · rw [if_neg hbuffers, if_neg hbuffers]

/-- The rows that the reflow of one row begins. -/
def begunRows (reflow : Bool) (lines columns i : ℕ) :
    ℕ → ShrinkState → Row Square → List (Row Square)
  | 0, _, _ => []
  | fuel + 1, st, row =>
    match wrapTurn reflow lines columns i st row with
    | .inl (st, row) => row :: begunRows reflow lines columns i fuel st row
    | .inr _ => []

/-- The cells left over from the row before go to the front of a row. -/
def takeBuffered (lines i : ℕ) (st : ShrinkState) (row : Row Square) : ShrinkState × Row Square :=
  match st.buffered with
  | none => (st, row)
  | some buffered =>
    let col :=
      if i = cursorBufferLine lines st.cursor then st.cursor.pos.col + buffered.length
      else st.cursor.pos.col
    ({ st with
        buffered := none
        cursor := { st.cursor with pos := { st.cursor.pos with col := col } } },
      row.appendFront buffered)

theorem shrinkStep_eq (reflow : Bool) (lines columns : ℕ) (st : ShrinkState) (i : ℕ)
    (row : Row Square) :
    shrinkStep reflow lines columns st i row =
      shrinkRow reflow lines columns i
        ((takeBuffered lines i st row).2.len + (takeBuffered lines i st row).1.cursor.pos.col + 1)
        (takeBuffered lines i st row).1 (takeBuffered lines i st row).2 := by
  unfold shrinkStep takeBuffered
  rcases st.buffered with _ | buffered <;> rfl

/-- A turn of the loop of `shrinkColumns`. -/
def shrinkTurn (reflow : Bool) (lines columns : ℕ) (st : ShrinkState) (x : Row Square × ℕ) :
    ShrinkState := shrinkStep reflow lines columns st x.2 x.1

/-- `B cells row` holds if this turn puts `cells` to the front of `row`, and `C` holds of every
row that it begins. -/
def WrapsOnly (B : List Square → Row Square → Prop) (C : Row Square → Prop) (reflow : Bool)
    (lines columns : ℕ) (st : ShrinkState) (x : Row Square × ℕ) : Prop :=
  (∀ cells ∈ st.buffered, B cells x.1) ∧
    ∀ row ∈ begunRows reflow lines columns x.2
      ((takeBuffered lines x.2 st x.1).2.len +
        (takeBuffered lines x.2 st x.1).1.cursor.pos.col + 1)
      (takeBuffered lines x.2 st x.1).1 (takeBuffered lines x.2 st x.1).2, C row

instance {B : List Square → Row Square → Prop} {C : Row Square → Prop}
    [∀ cells row, Decidable (B cells row)] [DecidablePred C] (reflow : Bool) (lines columns : ℕ)
    (st : ShrinkState) (x : Row Square × ℕ) :
    Decidable (WrapsOnly B C reflow lines columns st x) :=
  inferInstanceAs (Decidable (_ ∧ _))

/-- The state that the loop of `shrinkColumns` starts in. -/
def shrinkStart (g : Grid Square) (reflow : Bool) : ShrinkState :=
  { cursor := unwrapCursor reflow g.cursor
    displayOffset := g.displayOffset
    newRaw := []
    buffered := none }

/-- All turns of the loop of `shrinkColumns` only move cells so that `B` and `C` hold. -/
def ShrinksBy (B : List Square → Row Square → Prop) (C : Row Square → Prop) (g : Grid Square)
    (reflow : Bool) (columns : ℕ) : Prop :=
  Permitted (shrinkTurn reflow g.lines columns) (WrapsOnly B C reflow g.lines columns)
    (g.shrinkStart reflow) (oldestFirst g.raw.takeAll.2)

instance {B : List Square → Row Square → Prop} {C : Row Square → Prop}
    [∀ cells row, Decidable (B cells row)] [DecidablePred C] (g : Grid Square) (reflow : Bool)
    (columns : ℕ) : Decidable (g.ShrinksBy B C reflow columns) :=
  inferInstanceAs (Decidable (Permitted _ _ _ _))

theorem shrinkColumns_inner (g : Grid Square) (reflow : Bool) (columns : ℕ) :
    (g.shrinkColumns reflow columns).raw.inner =
      ((oldestFirst g.raw.takeAll.2).foldl (shrinkTurn reflow g.lines columns)
        (g.shrinkStart reflow)).newRaw.take (g.maxScrollLimit + g.lines) := rfl

/-- What a law needs to survive a reflow: rows may be cut, and cells may be put to the front of a
row or into a row of their own where `B` and `C` hold. -/
structure ShrinkLaw (marked : Char → Prop) (P : Row Square → Prop) (columns : ℕ)
    (B : List Square → Row Square → Prop) (C : Row Square → Prop) : Prop
    extends RowLaw marked P where
  shrink : ∀ r : Row Square, P r → P (r.shrink columns).1
  front : ∀ cells row, B cells row → P row → P (row.appendFront cells)
  begin_ : ∀ wrapped : List Square,
    C (Row.fromVec (wrapped ++ List.replicate (columns - wrapped.length) default)
      wrapped.length) →
    P ((Row.fromVec (wrapped ++ List.replicate (columns - wrapped.length) default)
      wrapped.length).shrink columns).1
  blank : ¬ marked (default : Square).c

namespace ShrinkLaw

variable {columns : ℕ} {B : List Square → Row Square → Prop} {C : Row Square → Prop}

theorem splitRow (law : ShrinkLaw marked P columns B C) {row : Row Square} (h : P row)
    (wrapped : List Square) : P (splitRow columns row wrapped).1 := by
  have hspaced : P (if columns ≤ row.len ∧ (row.cell (columns - 1)).wide = .wide then
      row.set (columns - 1) Square.newLeadingSpacer else row) := by
    split_ifs
    · exact law.edited _ _ (row.edited_modify _ fun hc => absurd hc law.blank) h
    · exact h
  unfold Grid.splitRow
  dsimp only
  generalize (if columns ≤ row.len ∧ (row.cell (columns - 1)).wide = .wide then
    row.set (columns - 1) Square.newLeadingSpacer else row) = spaced at hspaced ⊢
  split_ifs
  all_goals
    first
    | exact law.edited _ _ (spaced.edited_modify _ .inl) hspaced
    | exact law.edited _ _ (edited_modifyLast spaced fun _ => rfl) hspaced

/-- The rows pushed by one turn, and the row for the next turn. -/
theorem wrapTurn (law : ShrinkLaw marked P columns B C) (reflow : Bool) (lines i : ℕ)
    {st : ShrinkState} {row : Row Square} (hst : ∀ r ∈ st.newRaw, P r)
    (hrow : P (row.shrink columns).1) :
    match Grid.wrapTurn reflow lines columns i st row with
    | .inl (st', row') =>
      (∀ r ∈ st'.newRaw, P r) ∧ ∃ wrapped : List Square, row' =
        Row.fromVec (wrapped ++ List.replicate (columns - wrapped.length) default) wrapped.length
    | .inr st' => ∀ r ∈ st'.newRaw, P r := by
  unfold Grid.wrapTurn
  dsimp only
  generalize (if reflow = true then (row.shrink columns).2 else none) = cut
  have hsplit := law.splitRow hrow (cut.getD [])
  generalize hturned : Grid.splitRow columns (row.shrink columns).1 (cut.getD []) = turned at hsplit
  obtain ⟨pushed, wrapped⟩ := turned
  have hpushed := List.forall_mem_cons.mpr ⟨hsplit, hst⟩
  by_cases hfits : cut = none ∧
      ¬ (reflow = true ∧ i = cursorBufferLine lines st.cursor ∧ columns < st.cursor.pos.col)
  · rw [if_pos hfits]
    exact List.forall_mem_cons.mpr ⟨hrow, hst⟩
  · rw [if_neg hfits]
    rcases wrapped with _ | wrapped
    · exact hpushed
    · dsimp only
      by_cases hbuffers : wrapped.getLast?.any Square.wrapline = true ∧ 1 ≤ i ∧
          wrapped.length < columns
      · rw [if_pos hbuffers]
        exact hpushed
      · rw [if_neg hbuffers]
        exact ⟨hpushed, wrapped, rfl⟩

theorem shrinkRow (law : ShrinkLaw marked P columns B C) (reflow : Bool) (lines i : ℕ) :
    ∀ (fuel : ℕ) {st : ShrinkState} {row : Row Square}, (∀ r ∈ st.newRaw, P r) →
      P (row.shrink columns).1 → (∀ r ∈ begunRows reflow lines columns i fuel st row, C r) →
      ∀ r ∈ (shrinkRow reflow lines columns i fuel st row).newRaw, P r
  | 0, _, _, hst, _, _ => hst
  | fuel + 1, st, row, hst, hrow, hbegun => by
    have hturn := law.wrapTurn reflow lines i hst hrow
    rw [shrinkRow_succ]
    unfold begunRows at hbegun
    generalize Grid.wrapTurn reflow lines columns i st row = turned at hturn hbegun
    rcases turned with ⟨st', row'⟩ | st'
    · obtain ⟨hst', wrapped, rfl⟩ := hturn
      obtain ⟨hfirst, hrest⟩ := List.forall_mem_cons.mp hbegun
      exact law.shrinkRow reflow lines i fuel hst' (law.begin_ wrapped hfirst) hrest
    · exact hturn

theorem shrinkTurn (law : ShrinkLaw marked P columns B C) (reflow : Bool) (lines : ℕ)
    {st : ShrinkState} {x : Row Square × ℕ} (hst : ∀ r ∈ st.newRaw, P r) (hx : P x.1)
    (hwraps : WrapsOnly B C reflow lines columns st x) :
    ∀ r ∈ (shrinkTurn reflow lines columns st x).newRaw, P r := by
  obtain ⟨row, i⟩ := x
  obtain ⟨hfront, hbegun⟩ := hwraps
  have htaken : (∀ r ∈ (takeBuffered lines i st row).1.newRaw, P r) ∧
      P (takeBuffered lines i st row).2 := by
    unfold takeBuffered
    rcases hbuffered : st.buffered with _ | cells
    · exact ⟨hst, hx⟩
    · exact ⟨hst, law.front cells row (hfront cells hbuffered) hx⟩
  unfold Grid.shrinkTurn
  rw [shrinkStep_eq]
  exact law.shrinkRow reflow lines i _ htaken.1 (law.shrink _ htaken.2) hbegun

theorem shrinkColumns (law : ShrinkLaw marked P columns B C) (h : g.raw.AllRows P) {reflow : Bool}
    (hshrinks : g.ShrinksBy B C reflow columns) :
    (g.shrinkColumns reflow columns).raw.AllRows P := by
  have hrows := invariant (I := fun st : ShrinkState => ∀ r ∈ st.newRaw, P r)
    (fun st x hst hx => law.shrinkTurn reflow g.lines hst hx.2 hx.1) _ (g.shrinkStart reflow)
    (by simp [shrinkStart]) (hshrinks.and (.of_forall (allRows_takeAll h)))
  intro r hr
  rw [shrinkColumns_inner] at hr
  exact hrows r (List.mem_of_mem_take hr)

end ShrinkLaw
end Rio.Grid
