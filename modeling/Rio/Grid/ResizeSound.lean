import Rio.Grid.Sound

/-! Resizing keeps a grid sound, whatever is in its cells. -/

set_option linter.dupNamespace false

namespace Rio

theorem Pos.gridClamp_onScreen {d : Dimensions} (hlines : 1 ≤ d.screenLines)
    (hcolumns : 1 ≤ d.columns) (p : Pos) :
    (p.gridClamp d .cursor).OnScreen d.screenLines d.columns := by
  unfold gridClamp OnScreen Dimensions.bottommostLine Dimensions.lastColumn
  dsimp only
  split_ifs <;> dsimp only <;> omega

theorem Pos.sub_col_lt {d : Dimensions} (hlines : 1 ≤ d.screenLines) (hcolumns : 1 ≤ d.columns)
    (p : Pos) (n : ℕ) : (p.sub d .cursor n).col < d.columns :=
  (gridClamp_onScreen hlines hcolumns _).2.2

theorem Row.shrink_len_le (r : Row Square) (columns : ℕ) :
    (r.shrink columns).1.len ≤ r.len := by
  unfold shrink
  split_ifs
  · exact le_rfl
  · simp [len]

theorem Row.shrink_len {r : Row Square} {columns : ℕ} (hr : columns ≤ r.len) :
    (r.shrink columns).1.len = columns := by
  unfold shrink
  unfold len at *
  split_ifs with h
  · exact le_antisymm h hr
  · simpa using hr

theorem Row.modifyLast_len (r : Row Square) (f : Square → Square) :
    (r.modifyLast f).len = r.len := by
  simp [modifyLast, len]

theorem Row.append_len (r : Row Square) (cells : List Square) :
    (r.append cells).len = r.len + cells.length := by
  simp [append, len]

theorem Row.grow_len {r : Row Square} {columns : ℕ} (hr : r.len ≤ columns) :
    (r.grow columns).len = columns := by
  unfold grow len at *
  simp only [List.length_append, List.length_replicate]
  omega

namespace Grid

/-! ### More columns -/

theorem openLastRow_len_le (row : Row Square) : (openLastRow row).len ≤ row.len := by
  unfold openLastRow
  dsimp only
  split_ifs
  · exact (Row.shrink_len_le _ _).trans (Row.modifyLast_len _ _).le
  · exact (Row.modifyLast_len _ _).le

theorem pullCells_len (row : Row Square) {numWrapped : ℕ} (hpos : 1 ≤ numWrapped) :
    (pullCells row numWrapped).2.1.len ≤ row.len ∧
      (pullCells row numWrapped).2.2.length ≤ numWrapped := by
  unfold pullCells Row.frontSplitOff Row.len
  dsimp only
  split_ifs with h
  · simp only [List.length_drop, List.length_append, List.length_take, List.length_singleton]
    omega
  · simp only [List.length_drop, List.length_take]
    omega

/-- The last two rows after cells of `row` have moved up to `lastRow`: either the rest of `row`
stays as a row of its own, or it is clear and dropped. -/
inductive Pulled (columns : ℕ) (row lastRow : Row Square) (rest : List (Row Square)) :
    List (Row Square) → Prop
  | keep {numWrapped : ℕ} {row' : Row Square} {cells : List Square}
      (hpull : pullCells row (columns - (openLastRow lastRow).len) = (numWrapped, row', cells)) :
      Pulled columns row lastRow rest
        (row' :: ((openLastRow lastRow).append cells).modifyLast (·.setWrapline true) :: rest)
  | drop {numWrapped : ℕ} {row' : Row Square} {cells : List Square}
      (hpull : pullCells row (columns - (openLastRow lastRow).len) = (numWrapped, row', cells))
      (hclear : row'.isClear = true) :
      Pulled columns row lastRow rest ((openLastRow lastRow).append cells :: rest)

/-- Where the loop of `growColumns` may put the cursor. -/
def GrowCursor (lines columns : ℕ) (old new : Cursor Square) : Prop :=
  new.template = old.template ∧
    (new.pos = old.pos ∨ (new.pos.row = old.pos.row ∧ new.pos.col < columns) ∨
      (old.pos.row + 1 < lines ∧ new.pos = { old.pos with row := old.pos.row + 1 }))

theorem growStep_first {reflow : Bool} {lines columns : ℕ} {st : GrowState}
    (hreversed : st.reversed = []) (i : ℕ) (row : Row Square) :
    growStep reflow lines columns st i row = { st with reversed := [row] } := by
  unfold growStep
  rw [hreversed]

theorem growStep_push {reflow : Bool} {lines columns : ℕ} {st : GrowState} {lastRow : Row Square}
    {rest : List (Row Square)} (hreversed : st.reversed = lastRow :: rest)
    (hreflow : shouldReflow reflow columns lastRow = false) (i : ℕ) (row : Row Square) :
    growStep reflow lines columns st i row = { st with reversed := row :: lastRow :: rest } := by
  unfold growStep
  rw [hreversed]
  simp only [hreflow, Bool.not_false, if_true]

theorem growStep_pulled {reflow : Bool} {columns : ℕ} {st : GrowState} {lastRow : Row Square}
    {rest : List (Row Square)} (hreversed : st.reversed = lastRow :: rest)
    (hreflow : shouldReflow reflow columns lastRow = true) (lines i : ℕ) (row : Row Square) :
    Pulled columns row lastRow rest (growStep reflow lines columns st i row).reversed := by
  unfold growStep
  rw [hreversed]
  simp only [hreflow, Bool.not_true, Bool.false_eq_true, if_false]
  obtain ⟨⟨numWrapped, row', cells⟩, hpull⟩ :
      ∃ pulled, pullCells row (columns - (openLastRow lastRow).len) = pulled := ⟨_, rfl⟩
  rw [hpull]
  dsimp only
  by_cases hi : i = cursorBufferLine lines st.cursor ∧ reflow = true
  · rw [if_pos hi]
    split_ifs with hclamped hdrop hdrop
    · exact .drop hpull hdrop.2
    · exact .keep hpull
    · exact .drop hpull hdrop.2
    · exact .keep hpull
  · rw [if_neg hi]
    by_cases hclear : row'.isClear = true
    · rw [if_pos hclear]
      split_ifs <;> exact .drop hpull hclear
    · rw [if_neg hclear]
      exact .keep hpull

theorem growStep_cursor {reflow : Bool} {lines columns : ℕ} (hlines : 1 ≤ lines)
    (hcolumns : 1 ≤ columns) {st : GrowState} {lastRow : Row Square} {rest : List (Row Square)}
    (hreversed : st.reversed = lastRow :: rest)
    (hreflow : shouldReflow reflow columns lastRow = true) (i : ℕ) (row : Row Square) :
    GrowCursor lines columns st.cursor (growStep reflow lines columns st i row).cursor := by
  have hcol (p : Pos) (n : ℕ) : (p.sub ⟨0, lines, columns⟩ .cursor n).col < columns :=
    Pos.sub_col_lt (d := ⟨0, lines, columns⟩) hlines hcolumns p n
  unfold growStep
  rw [hreversed]
  simp only [hreflow, Bool.not_true, Bool.false_eq_true, if_false]
  by_cases hi : i = cursorBufferLine lines st.cursor ∧ reflow = true
  · rw [if_pos hi]
    split_ifs <;> exact ⟨rfl, .inr (.inl ⟨rfl, hcol _ _⟩)⟩
  · rw [if_neg hi]
    have hdown (h : i < cursorBufferLine lines st.cursor) : st.cursor.pos.row + 1 < lines := by
      unfold cursorBufferLine at h
      omega
    by_cases hcursor : i < cursorBufferLine lines st.cursor
    · split_ifs
      · exact ⟨rfl, .inr (.inr ⟨hdown hcursor, rfl⟩)⟩
      · exact ⟨rfl, .inr (.inr ⟨hdown hcursor, rfl⟩)⟩
      · exact ⟨rfl, .inl rfl⟩
    · split_ifs
      · exact ⟨rfl, .inl rfl⟩
      · exact ⟨rfl, .inl rfl⟩
      · exact ⟨rfl, .inl rfl⟩

/-- What the loop of `growColumns` keeps, given that the rows are no wider than `columns`. -/
structure GrowBounds (lines columns : ℕ) (st : GrowState) : Prop where
  cursor : st.cursor.pos.OnScreen lines columns
  narrow : ∀ r ∈ st.reversed, r.len ≤ columns

theorem GrowCursor.onScreen {lines columns : ℕ} {old new : Cursor Square}
    (h : GrowCursor lines columns old new) (hold : old.pos.OnScreen lines columns) :
    new.pos.OnScreen lines columns := by
  obtain ⟨hrow0, hrow1, hcol⟩ := hold
  obtain ⟨-, h | ⟨hrow, hcol'⟩ | ⟨hrow, h⟩⟩ := h
  · rw [h]
    exact ⟨hrow0, hrow1, hcol⟩
  · exact ⟨hrow ▸ hrow0, hrow ▸ hrow1, hcol'⟩
  · rw [h]
    refine ⟨?_, hrow, hcol⟩
    show 0 ≤ old.pos.row + 1
    omega

theorem Pulled.narrow {columns : ℕ} {row lastRow : Row Square} {rest rows : List (Row Square)}
    (h : Pulled columns row lastRow rest rows) (hrow : row.len ≤ columns)
    (hlast : lastRow.len < columns) (hrest : ∀ r ∈ rest, r.len ≤ columns) :
    ∀ r ∈ rows, r.len ≤ columns := by
  have hopen := openLastRow_len_le lastRow
  have hpulled := pullCells_len row (show 1 ≤ columns - (openLastRow lastRow).len by omega)
  cases h with
  | keep hpull =>
    rw [hpull] at hpulled
    intro r hr
    rcases List.mem_cons.mp hr with rfl | hr
    · exact hpulled.1.trans hrow
    rcases List.mem_cons.mp hr with rfl | hr
    · rw [Row.modifyLast_len, Row.append_len]
      have := hpulled.2
      dsimp only at this
      omega
    · exact hrest r hr
  | drop hpull hclear =>
    rw [hpull] at hpulled
    intro r hr
    rcases List.mem_cons.mp hr with rfl | hr
    · rw [Row.append_len]
      have := hpulled.2
      dsimp only at this
      omega
    · exact hrest r hr

theorem Pulled.length_le {columns : ℕ} {row lastRow : Row Square} {rest rows : List (Row Square)}
    (h : Pulled columns row lastRow rest rows) : rows.length ≤ rest.length + 2 := by
  cases h <;> simp

theorem growStep_bounds (reflow : Bool) {lines columns : ℕ} (hlines : 1 ≤ lines)
    (hcolumns : 1 ≤ columns) {st : GrowState} (hst : GrowBounds lines columns st) (i : ℕ)
    {row : Row Square} (hrow : row.len ≤ columns) :
    GrowBounds lines columns (growStep reflow lines columns st i row) ∧
      (growStep reflow lines columns st i row).reversed.length ≤ st.reversed.length + 1 := by
  have hnarrow := hst.narrow
  rcases hreversed : st.reversed with _ | ⟨lastRow, rest⟩
  · rw [growStep_first hreversed]
    exact ⟨⟨hst.cursor, by simpa using hrow⟩, by simp⟩
  rw [hreversed] at hnarrow
  rcases hreflow : shouldReflow reflow columns lastRow with _ | _
  · rw [growStep_push hreversed hreflow]
    refine ⟨⟨hst.cursor, ?_⟩, by simp⟩
    intro r hr
    rcases List.mem_cons.mp hr with rfl | hr
    · exact hrow
    · exact hnarrow r hr
  · have hpulled := growStep_pulled hreversed hreflow lines i row
    have hcursor := growStep_cursor hlines hcolumns hreversed hreflow i row
    have hlast : lastRow.len < columns := by
      simp only [shouldReflow, Bool.and_eq_true, decide_eq_true_eq] at hreflow
      exact hreflow.1.2
    refine ⟨⟨hcursor.onScreen hst.cursor, ?_⟩, ?_⟩
    · exact hpulled.narrow hrow hlast fun r hr => hnarrow r (List.mem_cons_of_mem _ hr)
    · simpa using hpulled.length_le

theorem growLoop_bounds (reflow : Bool) {lines columns : ℕ} (hlines : 1 ≤ lines)
    (hcolumns : 1 ≤ columns) :
    ∀ (rows : List (Row Square × ℕ)) (st : GrowState), GrowBounds lines columns st →
      (∀ r ∈ rows, r.1.len ≤ columns) →
      GrowBounds lines columns (growLoop reflow lines columns rows st) ∧
        (growLoop reflow lines columns rows st).reversed.length ≤
          st.reversed.length + rows.length
  | [], _, hst, _ => ⟨hst, le_rfl⟩
  | (row, i) :: rows, st, hst, hrows => by
    obtain ⟨hstep, hlen⟩ := growStep_bounds reflow hlines hcolumns hst i
      (hrows _ List.mem_cons_self)
    obtain ⟨hloop, hlen'⟩ := growLoop_bounds reflow hlines hcolumns rows _ hstep
      (fun r hr => hrows r (List.mem_cons_of_mem _ hr))
    refine ⟨hloop, hlen'.trans ?_⟩
    rw [List.length_cons]
    omega

theorem fillViewport_bounds {lines columns : ℕ} {st : GrowState}
    (hst : GrowBounds lines columns st) :
    GrowBounds lines columns (fillViewport st lines columns) ∧
      (fillViewport st lines columns).reversed.length = max st.reversed.length lines := by
  obtain ⟨hrow0, hrow1, hcol⟩ := hst.cursor
  unfold fillViewport
  split_ifs with h
  · refine ⟨⟨⟨?_, ?_, hcol⟩, ?_⟩, ?_⟩
    · exact le_max_right _ _
    · dsimp only
      omega
    · intro r hr
      rcases List.mem_append.mp hr with hr | hr
      · rw [List.eq_of_mem_replicate hr, Row.new_len]
      · exact hst.narrow r hr
    · rw [List.length_append, List.length_replicate]
      omega
  · exact ⟨hst, by omega⟩

theorem pullDown_bounds {lines columns : ℕ} {st : GrowState} (hst : GrowBounds lines columns st)
    (hlines : 1 ≤ lines) (hfilled : lines ≤ st.reversed.length) :
    GrowBounds lines columns (pullDown st lines) ∧
      lines ≤ (pullDown st lines).reversed.length ∧
        (pullDown st lines).reversed.length ≤ st.reversed.length := by
  obtain ⟨hrow0, hrow1, hcol⟩ := hst.cursor
  unfold pullDown
  split_ifs with h
  · refine ⟨⟨⟨?_, ?_, hcol⟩, ?_⟩, ?_, ?_⟩
    · exact le_max_right _ _
    · dsimp only
      omega
    · exact fun r hr => hst.narrow r (List.mem_of_mem_drop hr)
    · rw [List.length_drop]
      omega
    · rw [List.length_drop]
      omega
  · exact ⟨hst, hfilled, le_rfl⟩

/-! ### Fewer columns -/

/-- What the loop of `shrinkColumns` keeps, given that the rows have at least `columns` cells. -/
structure ShrinkBounds (lines columns : ℕ) (st : ShrinkState) : Prop where
  row_nonneg : 0 ≤ st.cursor.pos.row
  row_lt : st.cursor.pos.row < lines
  width : ∀ r ∈ st.newRaw, r.len = columns

theorem splitRow_len {columns : ℕ} {row : Row Square} (hrow : row.len = columns)
    (wrapped : List Square) : (splitRow columns row wrapped).1.len = columns := by
  unfold splitRow
  dsimp only
  split_ifs <;> simp only [Row.modify_len, Row.modifyLast_len, Row.set, hrow]

theorem cursorAfterSplit_row {lines : ℕ} {cursor : Cursor Square} (columns i : ℕ)
    (hrow0 : 0 ≤ cursor.pos.row) (hrow1 : cursor.pos.row < lines) :
    0 ≤ (cursorAfterSplit lines columns i cursor).pos.row ∧
      (cursorAfterSplit lines columns i cursor).pos.row < lines := by
  unfold cursorAfterSplit
  dsimp only
  split_ifs <;> omega

theorem shrinkRow_bounds {reflow : Bool} {lines columns : ℕ} (i : ℕ) :
    ∀ (fuel : ℕ) {st : ShrinkState} {row : Row Square}, ShrinkBounds lines columns st →
      columns ≤ row.len → ShrinkBounds lines columns (shrinkRow reflow lines columns i fuel st row)
  | 0, _, _, hst, _ => hst
  | fuel + 1, st, row, hst, hrow => by
    have hcut := Row.shrink_len hrow
    have hpush {r : Row Square} (hr : r.len = columns) :
        ∀ r' ∈ r :: st.newRaw, r'.len = columns := by
      intro r' hr'
      rcases List.mem_cons.mp hr' with rfl | hr'
      · exact hr
      · exact hst.width r' hr'
    unfold shrinkRow
    dsimp only
    generalize (if reflow = true then (row.shrink columns).2 else none) = cut
    split
    · exact ⟨hst.row_nonneg, hst.row_lt, hpush hcut⟩
    · have hlen := splitRow_len hcut (cut.getD [])
      split
      next row' heq =>
        rw [heq] at hlen
        exact ⟨hst.row_nonneg, hst.row_lt, hpush hlen⟩
      next row' wrapped heq =>
        rw [heq] at hlen
        split
        · exact ⟨hst.row_nonneg, hst.row_lt, hpush hlen⟩
        · obtain ⟨hrow0, hrow1⟩ := cursorAfterSplit_row columns i hst.row_nonneg hst.row_lt
          refine shrinkRow_bounds i fuel ?_ ?_
          · exact ⟨hrow0, hrow1, hpush hlen⟩
          · unfold Row.fromVec Row.len
            rw [List.length_append, List.length_replicate]
            omega

theorem shrinkRow_length {reflow : Bool} {lines columns i : ℕ} :
    ∀ (fuel : ℕ) (st : ShrinkState) (row : Row Square),
      st.newRaw.length + min fuel 1 ≤ (shrinkRow reflow lines columns i fuel st row).newRaw.length
  | 0, _, _ => le_rfl
  | fuel + 1, st, row => by
    unfold shrinkRow
    dsimp only
    generalize (if reflow = true then (row.shrink columns).2 else none) = cut
    split
    · simp
    · split
      · simp
      · split
        · simp
        · refine le_trans ?_ (shrinkRow_length fuel _ _)
          simp only [List.length_cons]
          omega

/-- The cells left over come before the next row. -/
theorem shrinkStep_bounds (reflow : Bool) {lines columns : ℕ} {st : ShrinkState}
    (hst : ShrinkBounds lines columns st) (i : ℕ) {row : Row Square} (hrow : columns ≤ row.len) :
    ShrinkBounds lines columns (shrinkStep reflow lines columns st i row) ∧
      st.newRaw.length + 1 ≤ (shrinkStep reflow lines columns st i row).newRaw.length := by
  unfold shrinkStep
  rcases hbuffered : st.buffered with _ | buffered
  · dsimp only
    exact ⟨shrinkRow_bounds i _ hst hrow,
      le_trans (by omega) (shrinkRow_length (row.len + st.cursor.pos.col + 1) st row)⟩
  · dsimp only
    refine ⟨shrinkRow_bounds i _ ⟨hst.row_nonneg, hst.row_lt, hst.width⟩ ?_,
      le_trans ?_ (shrinkRow_length _ _ _)⟩
    · unfold Row.appendFront Row.len at *
      rw [List.length_append]
      omega
    · dsimp only
      omega

theorem shrinkLoop_bounds (reflow : Bool) {lines columns : ℕ} :
    ∀ (rows : List (Row Square × ℕ)) (st : ShrinkState), ShrinkBounds lines columns st →
      (∀ r ∈ rows, columns ≤ r.1.len) →
      ShrinkBounds lines columns (shrinkLoop reflow lines columns rows st) ∧
        st.newRaw.length + rows.length ≤
          (shrinkLoop reflow lines columns rows st).newRaw.length
  | [], _, hst, _ => ⟨hst, le_rfl⟩
  | (row, i) :: rows, st, hst, hrows => by
    obtain ⟨hstep, hlen⟩ := shrinkStep_bounds reflow hst i
      (hrows _ List.mem_cons_self)
    obtain ⟨hloop, hlen'⟩ := shrinkLoop_bounds reflow rows _ hstep
      (fun r hr => hrows r (List.mem_cons_of_mem _ hr))
    refine ⟨hloop, le_trans ?_ hlen'⟩
    rw [List.length_cons]
    omega

/-! ### Grids -/

variable {D : Prop} {g : Grid Square}

theorem mem_takeAll (hg : g.WellFormed) {r : Row Square} (hr : r ∈ g.raw.takeAll.2) :
    r.len = g.columns := by
  rw [Storage.takeAll_snd] at hr
  exact hg.width r (List.mem_rotate.mp (List.mem_of_mem_take hr))

theorem length_takeAll (hg : g.WellFormed) : g.raw.takeAll.2.length = g.raw.len := by
  rw [Storage.takeAll_snd]
  show (g.raw.ring.take g.raw.len).length = _
  rw [List.length_take, Storage.length_ring, min_eq_left hg.storage.len_le]

theorem mem_oldestFirst {rows : List (Row Square)} {r : Row Square × ℕ}
    (hr : r ∈ oldestFirst rows) : r.1 ∈ rows := by
  rw [oldestFirst, List.mem_reverse] at hr
  exact (List.mem_zipIdx' hr).2 ▸ List.getElem_mem _

@[simp] theorem length_oldestFirst (rows : List (Row Square)) :
    (oldestFirst rows).length = rows.length := by
  simp [oldestFirst]

/-- New rows for the whole grid. -/
theorem replaceInner_wellFormed {columns : ℕ} {rows : List (Row Square)} {raw : Storage Square}
    (hvisible : raw.visibleLines = g.lines) (hfilled : g.lines ≤ rows.length)
    (hlimit : rows.length ≤ g.maxScrollLimit + g.lines) (hwidth : ∀ r ∈ rows, r.len = columns)
    (hlines : 1 ≤ g.lines) :
    WellFormed { g with columns := columns, raw := raw.replaceInner rows } := by
  constructor
  · exact ⟨.inl (show 0 < rows.length by omega), le_rfl⟩
  · exact hvisible
  · exact hfilled
  · rw [historySize_eq]
    show rows.length - g.lines ≤ g.maxScrollLimit
    omega
  · exact hwidth

theorem unwrapCursor_onScreen {lines columns : ℕ} {cursor : Cursor Square} (reflow : Bool)
    (hcursor : cursor.pos.OnScreen lines columns) :
    (unwrapCursor reflow cursor).pos.OnScreen lines (columns + 1) := by
  obtain ⟨hrow0, hrow1, hcol⟩ := hcursor
  unfold unwrapCursor
  split_ifs
  · refine ⟨hrow0, hrow1, ?_⟩
    show cursor.pos.col + 1 < columns + 1
    omega
  · exact ⟨hrow0, hrow1, by omega⟩

theorem Pos.OnScreen.mono {lines columns columns' : ℕ} {p : Pos} (hp : p.OnScreen lines columns)
    (h : columns ≤ columns') : p.OnScreen lines columns' :=
  ⟨hp.1, hp.2.1, hp.2.2.trans_le h⟩

theorem growColumns_sound (hg : g.Sound D) (reflow : Bool) {columns : ℕ}
    (hcolumns : g.columns < columns) : (g.growColumns reflow columns).Sound D := by
  have hwf := hg.wellFormed
  have hlines := hg.lines_pos
  have hloop := growLoop_bounds reflow hlines (show 1 ≤ columns by omega)
    (oldestFirst g.raw.takeAll.2) ⟨unwrapCursor reflow g.cursor, g.displayOffset, 0, []⟩
    ⟨Pos.OnScreen.mono (unwrapCursor_onScreen reflow hg.cursor) hcolumns, by simp⟩
    (fun r hr => (mem_takeAll hwf (mem_oldestFirst hr)).le.trans hcolumns.le)
  rw [length_oldestFirst, length_takeAll hwf, List.length_nil, zero_add] at hloop
  unfold growColumns
  dsimp only
  generalize growLoop reflow g.lines columns (oldestFirst g.raw.takeAll.2)
    ⟨unwrapCursor reflow g.cursor, g.displayOffset, 0, []⟩ = st at hloop ⊢
  obtain ⟨hfill, hfilled⟩ := fillViewport_bounds hloop.1
  obtain ⟨hpull, hge, hle⟩ := pullDown_bounds hfill hlines (by omega)
  generalize pullDown (fillViewport st g.lines columns) g.lines = st' at hpull hge hle ⊢
  have hlimit := hwf.limit
  have hlen := hwf.filled
  rw [historySize_eq] at hlimit
  have hwf' : WellFormed { g with
      columns := columns
      raw := g.raw.takeAll.1.replaceInner (st'.reversed.map (Row.grow · columns)) } := by
    apply replaceInner_wellFormed
    · rw [Storage.takeAll_fst]
      exact hwf.visible
    · rw [List.length_map]
      exact hge
    · rw [List.length_map]
      omega
    · intro r hr
      obtain ⟨r', hr', rfl⟩ := List.mem_map.mp hr
      exact Row.grow_len (hpull.narrow r' hr')
    · exact hlines
  constructor
  · exact ⟨hwf'.storage, hwf'.visible, hwf'.filled, hwf'.limit, hwf'.width⟩
  · exact hlines
  · have := hg.columns_ge
    show 2 ≤ columns
    omega
  · exact hpull.cursor
  · exact Pos.OnScreen.mono hg.savedCursor hcolumns.le
  · exact fun _ => min_le_right _ _

theorem placeCursor_onScreen (hlines : 1 ≤ g.lines) (hcolumns : 1 ≤ g.columns)
    (hrow0 : 0 ≤ g.cursor.pos.row) (hrow1 : g.cursor.pos.row < g.lines) (reflow : Bool) :
    (g.placeCursor reflow).pos.OnScreen g.lines g.columns := by
  unfold placeCursor
  dsimp only
  split_ifs with h1 h2
  · refine ⟨hrow0, hrow1, ?_⟩
    dsimp only
    omega
  · refine ⟨hrow0, hrow1, ?_⟩
    dsimp only
    omega
  · exact Pos.gridClamp_onScreen (d := g.dimensions) hlines hcolumns _

/-- The loop of `shrinkColumns` leaves rows of the new width for the whole screen. -/
theorem shrinkLoop_wellFormed (hg : g.Sound D) (reflow : Bool) {columns : ℕ}
    (hcolumns : columns < g.columns) :
    ∀ st, shrinkLoop reflow g.lines columns (oldestFirst g.raw.takeAll.2)
        ⟨unwrapCursor reflow g.cursor, g.displayOffset, [], none⟩ = st →
      ShrinkBounds g.lines columns st ∧
        WellFormed { g with
          columns := columns
          raw := g.raw.takeAll.1.replaceInner
            (st.newRaw.take (g.maxScrollLimit + g.lines)) } := by
  have hwf := hg.wellFormed
  have hunwrap := unwrapCursor_onScreen reflow hg.cursor
  obtain ⟨hloop, hlen⟩ := shrinkLoop_bounds reflow (oldestFirst g.raw.takeAll.2)
    ⟨unwrapCursor reflow g.cursor, g.displayOffset, [], none⟩
    (⟨hunwrap.1, hunwrap.2.1, by simp⟩ : ShrinkBounds g.lines columns _)
    (fun r hr => hcolumns.le.trans (mem_takeAll hwf (mem_oldestFirst hr)).ge)
  rw [length_oldestFirst, length_takeAll hwf, List.length_nil, zero_add] at hlen
  rintro st rfl
  have hfilled := hwf.filled
  refine ⟨hloop, ?_⟩
  apply replaceInner_wellFormed
  · rw [Storage.takeAll_fst]
    exact hwf.visible
  · rw [List.length_take]
    omega
  · rw [List.length_take]
    omega
  · exact fun r hr => hloop.width r (List.mem_of_mem_take hr)
  · exact hg.lines_pos

theorem shrinkColumns_sound (hg : g.Sound D) (reflow : Bool) {columns : ℕ}
    (hcolumns : columns < g.columns) (hcolumns2 : 2 ≤ columns) :
    (g.shrinkColumns reflow columns).Sound D := by
  have hlines := hg.lines_pos
  obtain ⟨hloop, hwf'⟩ := shrinkLoop_wellFormed hg reflow hcolumns _ rfl
  unfold shrinkColumns
  dsimp only
  generalize shrinkLoop reflow g.lines columns (oldestFirst g.raw.takeAll.2)
    ⟨unwrapCursor reflow g.cursor, g.displayOffset, [], none⟩ = st at hloop hwf' ⊢
  constructor
  · exact ⟨hwf'.storage, hwf'.visible, hwf'.filled, hwf'.limit, hwf'.width⟩
  · exact hlines
  · exact hcolumns2
  · exact placeCursor_onScreen (g := { g with
      cursor := st.cursor
      columns := columns
      raw := _
      displayOffset := _ }) hlines (show 1 ≤ columns by omega) hloop.row_nonneg hloop.row_lt reflow
  · obtain ⟨hrow0, hrow1, hcol⟩ := hg.savedCursor
    refine ⟨hrow0, hrow1, ?_⟩
    dsimp only
    omega
  · exact fun _ => min_le_right _ _

/-! ### More or fewer lines -/

theorem growVisibleLines_wellFormed (hg : g.WellFormed) (hlines : 1 ≤ g.lines) {target : ℕ}
    (htarget : g.lines < target) :
    WellFormed { g with raw := g.raw.growVisibleLines target, lines := target } := by
  have hvisible := hg.visible
  have hfilled := hg.filled
  have hlimit := hg.limit
  rw [historySize_eq] at hlimit
  have hinitialized := Storage.initializeRows_wellFormed hg.storage
    (target - g.raw.visibleLines) (g.raw.row 0).len
  have hrow : (g.raw.row 0).len = g.columns :=
    hg.width _ (Storage.row_mem hg.storage (hg.inBounds (by omega) (by omega)))
  constructor
  · exact ⟨hinitialized.zero_lt, hinitialized.len_le⟩
  · rfl
  · show target ≤ (g.raw.initializeRows _ _).len
    rw [Storage.initializeRows_len]
    omega
  · show (g.raw.initializeRows _ _).len - target ≤ g.maxScrollLimit
    rw [Storage.initializeRows_len]
    omega
  · show (g.raw.initializeRows _ _).AllRows fun r => r.len = g.columns
    rw [hrow]
    exact hg.width.initializeRows _ _ (Row.new_len _)

theorem historySize_growVisibleLines (hg : g.WellFormed) {target : ℕ} (htarget : g.lines < target) :
    historySize { g with raw := g.raw.growVisibleLines target, lines := target } =
      g.historySize := by
  have hvisible := hg.visible
  have hfilled := hg.filled
  rw [historySize_eq, historySize_eq]
  show (g.raw.initializeRows _ _).len - target = g.raw.len - g.lines
  rw [Storage.initializeRows_len]
  omega

@[simp] theorem decreaseScrollLimit_lines (g : Grid Square) (n : ℕ) :
    (g.decreaseScrollLimit n).lines = g.lines := by
  rw [decreaseScrollLimit_eq]
  split_ifs <;> rfl

theorem historySize_decreaseScrollLimit (g : Grid Square) (n : ℕ) :
    (g.decreaseScrollLimit n).historySize = g.historySize - n := by
  have hshrink := historySize_shrinkRaw g (min n g.historySize)
  rw [decreaseScrollLimit_eq]
  split_ifs with h
  · omega
  · rw [historySize_eq] at hshrink ⊢
    simp only at hshrink ⊢
    omega

theorem Sound.decreaseScrollLimit (hg : g.Sound D) (n : ℕ) : (g.decreaseScrollLimit n).Sound D := by
  have hwf := decreaseScrollLimit_wellFormed hg.wellFormed n
  have hsize := historySize_decreaseScrollLimit g n
  rw [decreaseScrollLimit_eq] at hwf hsize ⊢
  split_ifs at hwf hsize ⊢ with h
  · exact hg
  · refine ⟨hwf, hg.lines_pos, hg.columns_ge, hg.cursor, hg.savedCursor, fun hD => ?_⟩
    rw [hsize]
    dsimp only
    omega

/-- The cursors move with the lines that come back from the history. -/
theorem Sound.moveDown {s : Grid Square} (hs : s.Sound D) {n : ℕ} (k : ℕ)
    (hcursor : s.cursor.pos.row + n < s.lines) (hsaved : s.savedCursor.pos.row + n < s.lines) :
    Sound D
      { s with
        savedCursor :=
          { s.savedCursor with
            pos := { s.savedCursor.pos with row := s.savedCursor.pos.row + n } }
        cursor := { s.cursor with pos := { s.cursor.pos with row := s.cursor.pos.row + n } }
        displayOffset := s.displayOffset - k } := by
  obtain ⟨hwf, hlines, hcolumns, ⟨hrow0, -, hcol⟩, ⟨hrow0', -, hcol'⟩, hdisplay⟩ := hs
  refine ⟨⟨hwf.storage, hwf.visible, hwf.filled, hwf.limit, hwf.width⟩, hlines, hcolumns,
    ⟨?_, hcursor, hcol⟩, ⟨?_, hsaved, hcol'⟩, fun hD => ?_⟩
  · show 0 ≤ s.cursor.pos.row + n
    omega
  · show 0 ≤ s.savedCursor.pos.row + n
    omega
  · exact (Nat.sub_le _ _).trans (hdisplay hD)

theorem growLines_sound (hg : g.Sound D) {target : ℕ} (htarget : g.lines < target) :
    (g.growLines target).Sound D := by
  have hsize := historySize_growVisibleLines hg.wellFormed htarget
  have hwf := growVisibleLines_wellFormed hg.wellFormed hg.lines_pos htarget
  obtain ⟨hrow0, hrow1, hcol⟩ := hg.cursor
  obtain ⟨hrow0', hrow1', hcol'⟩ := hg.savedCursor
  have hlines := hg.lines_pos
  unfold growLines
  dsimp only
  have hgrown : Sound D { g with raw := g.raw.growVisibleLines target, lines := target } := by
    refine ⟨hwf, ?_, hg.columns_ge, ⟨hrow0, ?_, hcol⟩, ⟨hrow0', ?_, hcol'⟩, fun hD => ?_⟩
    · show 1 ≤ target
      omega
    · show g.cursor.pos.row < target
      omega
    · show g.savedCursor.pos.row < target
      omega
    · rw [hsize]
      exact hg.display hD
  rw [hsize]
  generalize hh : ({ g with raw := g.raw.growVisibleLines target, lines := target } :
    Grid Square) = h at hgrown ⊢
  have hfield : h.lines = target ∧ h.cursor = g.cursor ∧ h.savedCursor = g.savedCursor := by
    subst hh
    exact ⟨rfl, rfl, rfl⟩
  obtain ⟨hl, hc, hc'⟩ := hfield
  apply Sound.decreaseScrollLimit
  split_ifs with hscroll
  · have hs := hgrown.scrollUp ⟨0, target⟩
      (n := target - g.lines - min g.historySize (target - g.lines)) (fun _ => .inl rfl)
    apply hs.moveDown
    · rw [scrollUp_eq]
      simp only [hl, hc]
      omega
    · rw [scrollUp_eq]
      simp only [hl, hc']
      omega
  · apply hgrown.moveDown
    · simp only [hl, hc]
      omega
    · simp only [hl, hc']
      omega

/-- The lines at the bottom go to the end of the ring and out of use. -/
theorem shrinkVisibleLines_wellFormed (hg : g.WellFormed) (hlines : 1 ≤ g.lines) {target : ℕ}
    (htarget : target < g.lines) :
    WellFormed { g with
      raw := (g.raw.rotate ((g.lines - target : ℕ) : ℤ)).shrinkVisibleLines target
      lines := target } := by
  have hrotated := hg.of_layout
    (Storage.sameLayout_rotate hg.storage (hg.len_pos hlines) ((g.lines - target : ℕ) : ℤ))
    hg.width
  have hvisible : (g.raw.rotate ((g.lines - target : ℕ) : ℤ)).visibleLines = g.lines :=
    hrotated.visible
  have hfilled := hg.filled
  have hlimit := hg.limit
  rw [historySize_eq] at hlimit
  have hshrunk := Storage.shrinkLines_wellFormed hrotated.storage (g.lines - target)
  unfold Storage.shrinkVisibleLines
  dsimp only
  rw [hvisible]
  constructor
  · exact ⟨hshrunk.zero_lt, hshrunk.len_le⟩
  · rfl
  · show target ≤ (Storage.shrinkLines _ _).len
    rw [Storage.shrinkLines_len, Storage.rotate_len]
    omega
  · show (Storage.shrinkLines _ _).len - target ≤ g.maxScrollLimit
    rw [Storage.shrinkLines_len, Storage.rotate_len]
    omega
  · exact hrotated.width.shrinkLines _

theorem historySize_shrinkVisibleLines (hg : g.WellFormed) {target : ℕ}
    (htarget : target < g.lines) :
    historySize { g with
      raw := (g.raw.rotate ((g.lines - target : ℕ) : ℤ)).shrinkVisibleLines target
      lines := target } = g.historySize := by
  have hvisible := hg.visible
  have hfilled := hg.filled
  rw [historySize_eq, historySize_eq]
  show (Storage.shrinkLines (g.raw.rotate ((g.lines - target : ℕ) : ℤ))
    (g.raw.visibleLines - target)).len - target = _
  rw [Storage.shrinkLines_len, Storage.rotate_len]
  omega

theorem shrinkLines_sound (hg : g.Sound D) {target : ℕ} (htarget : target < g.lines)
    (hpos : 1 ≤ target) : (g.shrinkLines target).Sound D := by
  have hlines := hg.lines_pos
  unfold shrinkLines
  dsimp only
  -- the cursor is scrolled into the new viewport
  obtain ⟨s, hs, hsound, hsl, hrow⟩ : ∃ s : Grid Square,
      (if 0 < g.cursor.pos.row.toNat + 1 - target then
        { g.scrollUp ⟨0, g.lines⟩ (g.cursor.pos.row.toNat + 1 - target) with
          cursor :=
            { (g.scrollUp ⟨0, g.lines⟩ (g.cursor.pos.row.toNat + 1 - target)).cursor with
              pos :=
                { (g.scrollUp ⟨0, g.lines⟩ (g.cursor.pos.row.toNat + 1 - target)).cursor.pos with
                  row := min (g.scrollUp ⟨0, g.lines⟩
                    (g.cursor.pos.row.toNat + 1 - target)).cursor.pos.row (target - 1) } } }
      else g) = s ∧ s.Sound D ∧ s.lines = g.lines ∧ s.cursor.pos.row < target := by
    refine ⟨_, rfl, ?_⟩
    obtain ⟨hrow0, hrow1, hcol⟩ := hg.cursor
    split_ifs with h
    · have hscrolled := hg.scrollUp ⟨0, g.lines⟩ (n := g.cursor.pos.row.toNat + 1 - target)
        (fun _ => .inl rfl)
      refine ⟨hscrolled.setLine ?_ ?_, scrollUp_lines _ _ _, ?_⟩
      · rw [scrollUp_eq]
        show 0 ≤ min g.cursor.pos.row (target - 1)
        omega
      · rw [scrollUp_eq]
        show min g.cursor.pos.row (target - 1) < (g.lines : ℤ)
        omega
      · show min _ ((target : ℤ) - 1) < target
        omega
    · exact ⟨hg, rfl, by omega⟩
  rw [hs]
  clear hs
  have htarget' : target < s.lines := by omega
  have hwf := shrinkVisibleLines_wellFormed hsound.wellFormed hsound.lines_pos htarget'
  have hsize := historySize_shrinkVisibleLines hsound.wellFormed htarget'
  obtain ⟨hrow0, -, hcol⟩ := hsound.cursor
  obtain ⟨hrow0', -, hcol'⟩ := hsound.savedCursor
  refine ⟨⟨hwf.storage, hwf.visible, hwf.filled, hwf.limit, hwf.width⟩, hpos, hsound.columns_ge,
    ⟨hrow0, hrow, hcol⟩, ⟨?_, ?_, hcol'⟩, fun hD => ?_⟩
  · show 0 ≤ min s.savedCursor.pos.row ((target : ℤ) - 1)
    omega
  · show min s.savedCursor.pos.row ((target : ℤ) - 1) < target
    omega
  · have := hsound.display hD
    rw [historySize_eq] at hsize ⊢
    simp only at hsize ⊢
    omega

@[simp] theorem growLines_columns (g : Grid Square) (target : ℕ) :
    (g.growLines target).columns = g.columns := by
  unfold growLines
  dsimp only
  rw [decreaseScrollLimit_eq]
  split_ifs <;> simp only [scrollUp_columns]

@[simp] theorem growLines_lines (g : Grid Square) (target : ℕ) :
    (g.growLines target).lines = target := by
  unfold growLines
  dsimp only
  rw [decreaseScrollLimit_eq]
  split_ifs <;> simp only [scrollUp_lines]

@[simp] theorem shrinkLines_columns (g : Grid Square) (target : ℕ) :
    (g.shrinkLines target).columns = g.columns := by
  unfold shrinkLines
  dsimp only
  split_ifs <;> simp only [scrollUp_columns]

@[simp] theorem shrinkLines_lines (g : Grid Square) (target : ℕ) :
    (g.shrinkLines target).lines = target := rfl

@[simp] theorem growColumns_lines (g : Grid Square) (reflow : Bool) (columns : ℕ) :
    (g.growColumns reflow columns).lines = g.lines := rfl

@[simp] theorem growColumns_columns (g : Grid Square) (reflow : Bool) (columns : ℕ) :
    (g.growColumns reflow columns).columns = columns := rfl

@[simp] theorem shrinkColumns_lines (g : Grid Square) (reflow : Bool) (columns : ℕ) :
    (g.shrinkColumns reflow columns).lines = g.lines := rfl

@[simp] theorem shrinkColumns_columns (g : Grid Square) (reflow : Bool) (columns : ℕ) :
    (g.shrinkColumns reflow columns).columns = columns := rfl

/-- The grid with as many lines as asked for. -/
theorem resizeLines_sound (hg : g.Sound D) {lines : ℕ} (hlines : 1 ≤ lines) :
    Sound D (if g.lines < lines then g.growLines lines
      else if lines < g.lines then g.shrinkLines lines else g) := by
  split_ifs with h1 h2
  · exact growLines_sound hg h1
  · exact shrinkLines_sound hg h2 hlines
  · exact hg

theorem resizeColumns_sound (hg : g.Sound D) (reflow : Bool) {columns : ℕ}
    (hcolumns : 2 ≤ columns) :
    Sound D (if g.columns < columns then g.growColumns reflow columns
      else if columns < g.columns then g.shrinkColumns reflow columns else g) := by
  split_ifs with h1 h2
  · exact growColumns_sound hg reflow h1
  · exact shrinkColumns_sound hg reflow h2 hcolumns
  · exact hg

theorem Sound.resize (hg : g.Sound D) (reflow : Bool) {lines columns : ℕ} (hlines : 1 ≤ lines)
    (hcolumns : 2 ≤ columns) : (g.resize reflow lines columns).Sound D := by
  have htemplate : Sound D { g with cursor := { g.cursor with template := default } } :=
    hg.of_eq rfl rfl rfl rfl rfl rfl rfl
  have h := resizeColumns_sound (resizeLines_sound htemplate hlines) reflow hcolumns
  exact h.of_eq rfl rfl rfl rfl rfl rfl rfl

theorem resize_lines (g : Grid Square) (reflow : Bool) (lines columns : ℕ) :
    (g.resize reflow lines columns).lines = lines := by
  unfold resize
  dsimp only
  split_ifs <;> simp <;> omega

theorem resize_columns (g : Grid Square) (reflow : Bool) (lines columns : ℕ) :
    (g.resize reflow lines columns).columns = columns := by
  unfold resize
  dsimp only
  split_ifs <;> simp at * <;> omega

end Grid
end Rio
