import Rio.Grid.ResizeSound
import Rio.Lib.Total

/-! The total weight of the cells that a grid stores, for a weight of cells without weight for a
blank cell. No operation on the grid as a whole adds to it. -/

set_option linter.dupNamespace false

namespace Rio

/-! ### Rows -/

namespace Row

variable {α : Type} {w : α → ℕ}

def weight (w : α → ℕ) (r : Row α) : ℕ := total w r.inner

theorem weight_new [Inhabited α] (hw : w default = 0) (columns : ℕ) :
    (Row.new columns).weight w = 0 :=
  total_replicate_of_zero hw columns

theorem weight_modify_le {f : α → α} (hf : ∀ c, w (f c) ≤ w c) (r : Row α) (col : ℕ) :
    (r.modify col f).weight w ≤ r.weight w :=
  total_modify_le hf r.inner col

theorem weight_modifyLast_le {f : α → α} (hf : ∀ c, w (f c) ≤ w c) (r : Row α) :
    (r.modifyLast f).weight w ≤ r.weight w :=
  total_modify_le hf r.inner _

theorem weight_fill_le {c : α} (hc : w c = 0) (r : Row α) (start stop : ℕ) :
    (r.fill start stop c).weight w ≤ r.weight w := by
  refine total_mapIdx_le (fun i d => ?_) r.inner
  split_ifs
  · omega
  · exact le_rfl

theorem weight_fillFrom_le {c : α} (hc : w c = 0) (r : Row α) (start : ℕ) :
    (r.fillFrom start c).weight w ≤ r.weight w := by
  refine total_mapIdx_le (fun i d => ?_) r.inner
  split_ifs
  · omega
  · exact le_rfl

theorem weight_grow [Inhabited α] (hw : w default = 0) (r : Row α) (columns : ℕ) :
    (r.grow columns).weight w = r.weight w := by
  unfold weight grow
  rw [total_append, total_replicate_of_zero hw, Nat.add_zero]

theorem weight_reset_le [GridSquare α] {template : α}
    (htemplate : ∀ c : α, w (GridSquare.reset c template) = 0) (r : Row α) :
    (r.reset template).weight w ≤ r.weight w :=
  total_map_le (fun c => (htemplate c).trans_le (Nat.zero_le _)) r.inner

theorem weight_append (r : Row α) (vec : List α) :
    (r.append vec).weight w = r.weight w + total w vec :=
  total_append r.inner vec

theorem weight_appendFront (r : Row α) (vec : List α) :
    (r.appendFront vec).weight w = total w vec + r.weight w :=
  total_append vec r.inner

theorem weight_frontSplitOff (r : Row α) (at_ : ℕ) :
    total w (r.frontSplitOff at_).2 + (r.frontSplitOff at_).1.weight w = r.weight w :=
  total_take_add_drop at_ r.inner

/-- The cells that stay and the cells that are cut off. -/
theorem weight_shrink_le [GridSquare α] (r : Row α) (columns : ℕ) :
    (r.shrink columns).1.weight w + total w ((r.shrink columns).2.getD []) ≤ r.weight w := by
  unfold shrink
  split_ifs
  · exact le_rfl
  · have hcut := total_rdropWhile_le (w := w) GridSquare.isEmpty (r.inner.drop columns)
    have hsum := total_take_add_drop (w := w) columns r.inner
    dsimp only
    split_ifs
    · show total w (r.inner.take columns) + 0 ≤ total w r.inner
      omega
    · show total w (r.inner.take columns) +
        total w ((r.inner.drop columns).rdropWhile GridSquare.isEmpty) ≤ total w r.inner
      omega

end Row

/-! ### Storage -/

namespace Storage

variable {α : Type} {w : α → ℕ}

def weight (w : α → ℕ) (s : Storage α) : ℕ := total (Row.weight w) s.inner

theorem weight_modify_le {f : Row α → Row α} (hf : ∀ r, (f r).weight w ≤ r.weight w)
    (s : Storage α) (line : ℤ) : (s.modify line f).weight w ≤ s.weight w :=
  total_modify_le hf s.inner _

theorem weight_rezero (s : Storage α) : s.rezero.weight w = s.weight w := by
  unfold rezero
  split_ifs
  · rfl
  · exact total_rotate s.inner s.zero

theorem weight_truncate_le (s : Storage α) : s.truncate.weight w ≤ s.weight w :=
  (total_sublist_le (List.take_sublist _ _)).trans (weight_rezero s).le

theorem weight_shrinkLines_le (s : Storage α) (k : ℕ) :
    (s.shrinkLines k).weight w ≤ s.weight w := by
  unfold shrinkLines
  dsimp only
  split_ifs
  · exact weight_truncate_le { s with len := s.len - k }
  · exact le_rfl

theorem weight_initializeRows [Inhabited α] (hw : w default = 0) (s : Storage α) (n columns : ℕ) :
    (s.initializeRows n columns).weight w = s.weight w := by
  unfold initializeRows
  dsimp only
  split_ifs
  · show total (Row.weight w) (s.rezero.inner ++ _) = s.weight w
    rw [total_append, total_replicate_of_zero (Row.weight_new hw columns), Nat.add_zero]
    exact weight_rezero s
  · rfl

theorem weight_swap (s : Storage α) (a b : ℤ) : (s.swap a b).weight w = s.weight w :=
  total_swapAt s.inner _ _

theorem weight_foldl_le {β : Type} {f : Storage α → β → Storage α}
    (hf : ∀ s b, (f s b).weight w ≤ s.weight w) :
    ∀ (bs : List β) (s : Storage α), (bs.foldl f s).weight w ≤ s.weight w
  | [], _ => le_rfl
  | b :: bs, s => (weight_foldl_le hf bs (f s b)).trans (hf s b)

theorem weight_swapLines_le (s : Storage α) (shift : ℤ) (lines : List ℤ) :
    (s.swapLines shift lines).weight w ≤ s.weight w :=
  weight_foldl_le (fun s _ => (weight_swap s _ _).le) lines s

theorem weight_markLines_le (s : Storage α) (lines : List ℤ) :
    (s.markLines lines).weight w ≤ s.weight w :=
  weight_foldl_le (fun s l => weight_modify_le (f := Row.markDirty) (fun _ => le_rfl) s l) lines s

theorem weight_resetLines_le [GridSquare α] {template : α}
    (htemplate : ∀ c : α, w (GridSquare.reset c template) = 0) (s : Storage α)
    (lines : List ℤ) : (s.resetLines template lines).weight w ≤ s.weight w :=
  weight_foldl_le (fun s l => weight_modify_le (Row.weight_reset_le htemplate) s l) lines s

end Storage

/-! ### Grids -/

namespace Grid

section Rows

variable {α : Type} {w : α → ℕ} {g : Grid α}

def weight (w : α → ℕ) (g : Grid α) : ℕ := g.raw.weight w

theorem weight_modifyRow_le {f : Row α → Row α} (hf : ∀ r, (f r).weight w ≤ r.weight w)
    (g : Grid α) (line : ℤ) : (g.modifyRow line f).weight w ≤ g.weight w :=
  Storage.weight_modify_le hf g.raw line

theorem weight_modifyCell_le {f : α → α} (hf : ∀ c, w (f c) ≤ w c) (g : Grid α) (p : Pos) :
    (g.modifyCell p f).weight w ≤ g.weight w :=
  weight_modifyRow_le (fun r => Row.weight_modify_le hf r p.col) g p.row

theorem weight_updateHistory_le (g : Grid α) (size : ℕ) :
    (g.updateHistory size).weight w ≤ g.weight w := by
  unfold updateHistory
  dsimp only
  split_ifs
  · exact Storage.weight_shrinkLines_le g.raw _
  · exact le_rfl

theorem weight_clearHistory_le (g : Grid α) : g.clearHistory.weight w ≤ g.weight w :=
  Storage.weight_shrinkLines_le g.raw _

theorem weight_decreaseScrollLimit_le (g : Grid α) (count : ℕ) :
    (g.decreaseScrollLimit count).weight w ≤ g.weight w := by
  rw [decreaseScrollLimit_eq]
  split_ifs
  · exact le_rfl
  · exact Storage.weight_shrinkLines_le g.raw _

variable [GridSquare α]

theorem weight_increaseScrollLimit (hw : w default = 0) (g : Grid α) (n : ℕ) :
    (g.increaseScrollLimit n).weight w = g.weight w := by
  unfold increaseScrollLimit
  dsimp only
  split_ifs
  · exact Storage.weight_initializeRows hw g.raw _ _
  · rfl

/-- The template that rows are reset with makes cells without weight. -/
def Clean (w : α → ℕ) (template : α) : Prop := ∀ c : α, w (GridSquare.reset c template) = 0

theorem weight_resetRegion_le (htemplate : Clean w g.cursor.template) (r : Region) :
    (g.resetRegion r).weight w ≤ g.weight w :=
  Storage.weight_resetLines_le htemplate g.raw _

theorem weight_scrollDown_le (htemplate : Clean w g.cursor.template) (r : Region) (n : ℕ) :
    (g.scrollDown r n).weight w ≤ g.weight w := by
  unfold scrollDown
  dsimp only
  split_ifs
  · exact Storage.weight_resetLines_le htemplate g.raw _
  · refine (Storage.weight_markLines_le _ _).trans ?_
    refine (Storage.weight_swapLines_le _ _ _).trans ?_
    refine (Storage.weight_resetLines_le htemplate _ _).trans ?_
    exact Storage.weight_swapLines_le g.raw _ _
  · refine (Storage.weight_markLines_le _ _).trans ?_
    refine (Storage.weight_resetLines_le htemplate _ _).trans ?_
    exact Storage.weight_swapLines_le g.raw _ _

theorem weight_scrollUp_le (hw : w default = 0) (htemplate : Clean w g.cursor.template)
    (r : Region) (n : ℕ) : (g.scrollUp r n).weight w ≤ g.weight w := by
  unfold scrollUp
  dsimp only
  have hheld : (g.holdDisplay n).weight w = g.weight w := rfl
  have hextended := weight_increaseScrollLimit hw (g.holdDisplay n) n
  have hcursor : ((g.holdDisplay n).increaseScrollLimit n).cursor = g.cursor :=
    increaseScrollLimit_cursor _ n
  split_ifs
  · exact Storage.weight_resetLines_le htemplate g.raw _
  · refine (Storage.weight_markLines_le _ _).trans ?_
    refine (Storage.weight_resetLines_le (by rwa [hcursor]) _ _).trans ?_
    refine (Storage.weight_swapLines_le _ _ _).trans ?_
    exact (Storage.weight_swapLines_le _ _ _).trans hextended.le
  · refine (Storage.weight_markLines_le _ _).trans ?_
    refine (Storage.weight_resetLines_le htemplate _ _).trans ?_
    exact Storage.weight_swapLines_le g.raw _ _

theorem weight_clearViewport_le (hw : w default = 0) (htemplate : Clean w g.cursor.template) :
    g.clearViewport.weight w ≤ g.weight w := by
  unfold clearViewport
  dsimp only
  refine (Storage.weight_resetLines_le (by rwa [scrollUp_cursor]) _ _).trans ?_
  exact weight_scrollUp_le hw htemplate _ _

theorem weight_reset_le (htemplate : Clean w (default : α)) (g : Grid α) :
    g.reset.weight w ≤ g.weight w :=
  (Storage.weight_resetLines_le htemplate _ _).trans (weight_clearHistory_le g)

end Rows

/-! ### Resizing -/

section Resize

variable {w : Square → ℕ} {g : Grid Square}

/-- A weight of cells by what they say about the tables of their grid, and whether they say that
there is a graphic. -/
structure OfIds (w : Square → ℕ) : Prop where
  blank : w default = 0
  congr : ∀ c c' : Square, c'.tag = c.tag → c'.lo = c.lo → c'.hi = c.hi →
    c'.flags.graphics = c.flags.graphics → w c' = w c

theorem OfIds.clean (hw : OfIds w) : Clean w (default : Square) := fun _ => hw.blank

theorem OfIds.setWrapline (hw : OfIds w) (on : Bool) (c : Square) : w (c.setWrapline on) = w c :=
  hw.congr c _ rfl rfl rfl rfl

theorem OfIds.setWide (hw : OfIds w) (tag : Wide) (c : Square) : w (c.setWide tag) = w c :=
  hw.congr c _ rfl rfl rfl rfl

theorem OfIds.setC (hw : OfIds w) (ch : Char) (c : Square) : w (c.setC ch) = w c :=
  hw.congr c _ rfl rfl rfl rfl

theorem OfIds.newLeadingSpacer (hw : OfIds w) : w Square.newLeadingSpacer = 0 :=
  (hw.setWide .leadingSpacer default).trans hw.blank

theorem weight_openLastRow_le (hw : OfIds w) (row : Row Square) :
    (openLastRow row).weight w ≤ row.weight w := by
  have hopened := Row.weight_modifyLast_le (fun c => (hw.setWrapline false c).le) row
  unfold openLastRow
  dsimp only
  split_ifs
  · have hshrunk := Row.weight_shrink_le (w := w) (row.modifyLast (·.setWrapline false))
      ((row.modifyLast (·.setWrapline false)).len - 1)
    omega
  · exact hopened

theorem weight_pullCells (hw : OfIds w) (row : Row Square) (numWrapped : ℕ) :
    (pullCells row numWrapped).2.1.weight w + total w (pullCells row numWrapped).2.2 =
      row.weight w := by
  unfold pullCells
  dsimp only
  split_ifs
  · have hsplit := Row.weight_frontSplitOff (w := w) row (min row.len numWrapped - 1)
    dsimp only
    rw [total_append, total_cons, total_nil, hw.newLeadingSpacer]
    omega
  · have hsplit := Row.weight_frontSplitOff (w := w) row (min row.len numWrapped)
    dsimp only
    omega

theorem weight_pulled_le (hw : OfIds w) {columns : ℕ} {row lastRow : Row Square}
    {rest rows : List (Row Square)} (hpulled : Pulled columns row lastRow rest rows) :
    total (Row.weight w) rows ≤ total (Row.weight w) (lastRow :: rest) + row.weight w := by
  have hopened := weight_openLastRow_le hw lastRow
  cases hpulled with
  | @keep numWrapped row' cells hpull =>
    have hcells := weight_pullCells hw row (columns - (openLastRow lastRow).len)
    rw [hpull] at hcells
    have hlast := Row.weight_modifyLast_le (fun c => (hw.setWrapline true c).le)
      ((openLastRow lastRow).append cells)
    rw [Row.weight_append] at hlast
    simp only [total_cons] at hcells ⊢
    omega
  | @drop numWrapped row' cells hpull hclear =>
    have hcells := weight_pullCells hw row (columns - (openLastRow lastRow).len)
    rw [hpull] at hcells
    have hlast := Row.weight_append (w := w) (openLastRow lastRow) cells
    simp only [total_cons] at hcells ⊢
    omega

theorem weight_growStep_le (hw : OfIds w) (lines columns : ℕ) (reflow : Bool) (st : GrowState)
    (i : ℕ) (row : Row Square) :
    total (Row.weight w) (growStep reflow lines columns st i row).reversed ≤
      total (Row.weight w) st.reversed + row.weight w := by
  rcases hreversed : st.reversed with _ | ⟨lastRow, rest⟩
  · rw [growStep_first hreversed]
    simp
  · rcases hreflow : shouldReflow reflow columns lastRow with _ | _
    · rw [growStep_push hreversed hreflow]
      simp only [total_cons]
      omega
    · exact weight_pulled_le hw (growStep_pulled hreversed hreflow lines i row)

theorem weight_growLoop_le (hw : OfIds w) (lines columns : ℕ) (reflow : Bool) :
    ∀ (rows : List (Row Square × ℕ)) (st : GrowState),
      total (Row.weight w) (growLoop reflow lines columns rows st).reversed ≤
        total (Row.weight w) st.reversed + total (fun r => r.1.weight w) rows
  | [], st => le_rfl
  | (row, i) :: rows, st => by
    have hstep := weight_growStep_le hw lines columns reflow st i row
    have hrest := weight_growLoop_le hw lines columns reflow rows
      (growStep reflow lines columns st i row)
    rw [total_cons]
    unfold growLoop at hrest ⊢
    rw [List.foldl_cons]
    dsimp only at hrest ⊢
    omega

theorem weight_oldestFirst (rows : List (Row Square)) :
    total (fun r : Row Square × ℕ => r.1.weight w) (oldestFirst rows) =
      total (Row.weight w) rows := by
  unfold oldestFirst
  rw [total_reverse]
  have hmap : (rows.zipIdx.map fun r : Row Square × ℕ => r.1.weight w) =
      rows.map (Row.weight w) := by
    have hfst : (fun r : Row Square × ℕ => r.1.weight w) = Row.weight w ∘ Prod.fst := rfl
    rw [hfst, ← List.map_map, List.zipIdx_map_fst]
  unfold total
  rw [hmap]

theorem weight_fillViewport (hw : OfIds w) (st : GrowState) (lines columns : ℕ) :
    total (Row.weight w) (fillViewport st lines columns).reversed =
      total (Row.weight w) st.reversed := by
  unfold fillViewport
  dsimp only
  split_ifs
  · rw [total_append, total_replicate_of_zero (Row.weight_new hw.blank columns), Nat.zero_add]
  · rfl

theorem weight_pullDown_le (st : GrowState) (lines : ℕ) :
    total (Row.weight w) (pullDown st lines).reversed ≤ total (Row.weight w) st.reversed := by
  unfold pullDown
  dsimp only
  split_ifs
  · exact total_sublist_le (List.drop_sublist _ _)
  · exact le_rfl

theorem weight_takeAll_le (s : Storage Square) :
    total (Row.weight w) s.takeAll.2 ≤ s.weight w :=
  Storage.weight_truncate_le s

theorem weight_growColumns_le (hw : OfIds w) (reflow : Bool) (columns : ℕ) :
    (g.growColumns reflow columns).weight w ≤ g.weight w := by
  have htaken := weight_takeAll_le (w := w) g.raw
  have hloop := weight_growLoop_le hw g.lines columns reflow (oldestFirst g.raw.takeAll.2)
    { cursor := unwrapCursor reflow g.cursor, displayOffset := g.displayOffset
      cursorLineDelta := 0, reversed := [] }
  rw [weight_oldestFirst] at hloop
  unfold growColumns
  dsimp only at hloop ⊢
  generalize growLoop reflow g.lines columns (oldestFirst g.raw.takeAll.2) _ = st at hloop ⊢
  have hfilled := weight_fillViewport hw st g.lines columns
  have hpulled := weight_pullDown_le (w := w) (fillViewport st g.lines columns) g.lines
  have hgrown := total_map_le (w := Row.weight w)
    (fun r => (Row.weight_grow hw.blank r columns).le)
    (pullDown (fillViewport st g.lines columns) g.lines).reversed
  show total (Row.weight w) _ ≤ total (Row.weight w) g.raw.inner
  unfold Storage.weight at htaken
  rw [total_nil] at hloop
  exact hgrown.trans (by omega)

/-! ### Shrinking the rows -/

theorem weight_dropLeadingSpacer_le (hw : OfIds w) (wrapped : List Square) :
    total w (dropLeadingSpacer wrapped) ≤ total w wrapped := by
  unfold dropLeadingSpacer
  split_ifs
  · exact (total_sublist_le (List.take_sublist _ _)).trans
      (total_modify_le (fun c => (hw.setWrapline true c).le) wrapped _)
  · exact le_rfl

theorem weight_splitRow_le (hw : OfIds w) (columns : ℕ) (row : Row Square)
    (wrapped : List Square) :
    (splitRow columns row wrapped).1.weight w +
        total w ((splitRow columns row wrapped).2.getD []) ≤
      row.weight w + total w wrapped := by
  have hset := total_modify_add_le hw.blank (fun _ => Square.newLeadingSpacer) row.inner
    (columns - 1)
  rw [hw.newLeadingSpacer] at hset
  have hmoved (splits : Prop) [Decidable splits] :
      (if splits then row.set (columns - 1) Square.newLeadingSpacer else row).weight w +
        total w (if splits then row.cell (columns - 1) :: wrapped else wrapped) ≤
      row.weight w + total w wrapped := by
    split_ifs
    · rw [total_cons]
      show total w (row.inner.modify (columns - 1) fun _ => Square.newLeadingSpacer) +
        (w (row.inner.getD (columns - 1) default) + total w wrapped) ≤
          total w row.inner + total w wrapped
      omega
    · exact le_rfl
  unfold splitRow
  dsimp only
  have hmoved' := hmoved (columns ≤ row.len ∧ (row.cell (columns - 1)).wide = .wide)
  generalize (if columns ≤ row.len ∧ (row.cell (columns - 1)).wide = .wide then
    row.set (columns - 1) Square.newLeadingSpacer else row) = row' at hmoved' ⊢
  generalize (if columns ≤ row.len ∧ (row.cell (columns - 1)).wide = .wide then
    row.cell (columns - 1) :: wrapped else wrapped) = wrapped' at hmoved' ⊢
  split_ifs
  · have hrow := Row.weight_modify_le (fun c => (hw.setWrapline true c).le) row' (columns - 1)
    show Row.weight w (row'.modify _ _) + 0 ≤ _
    omega
  · have hrow := Row.weight_modifyLast_le (fun c => (hw.setWrapline true c).le) row'
    have hcut := weight_dropLeadingSpacer_le hw wrapped'
    show Row.weight w (row'.modifyLast _) + total w (dropLeadingSpacer wrapped') ≤ _
    omega

/-- The weight of the rows that are done and of what is left over for the next one. -/
def shrinkWeight (w : Square → ℕ) (st : ShrinkState) : ℕ :=
  total (Row.weight w) st.newRaw + total w (st.buffered.getD [])

theorem weight_shrinkRow_le (hw : OfIds w) {reflow : Bool} {lines columns i : ℕ} :
    ∀ (fuel : ℕ) (st : ShrinkState) (row : Row Square), st.buffered = none →
      shrinkWeight w (shrinkRow reflow lines columns i fuel st row) ≤
        shrinkWeight w st + row.weight w
  | 0, st, _, _ => Nat.le_add_right _ _
  | fuel + 1, st, row, hst => by
    have hshrunk := Row.weight_shrink_le (w := w) row columns
    unfold shrinkRow
    rcases hshrink : row.shrink columns with ⟨row', cut⟩
    rw [hshrink] at hshrunk
    dsimp only at hshrunk ⊢
    have hcut : total w ((if reflow = true then cut else none).getD []) ≤ total w (cut.getD []) := by
      split_ifs
      · exact le_rfl
      · exact Nat.zero_le _
    generalize (if reflow = true then cut else none) = cut' at hcut ⊢
    have hst' : shrinkWeight w st = total (Row.weight w) st.newRaw := by
      unfold shrinkWeight
      rw [hst]
      rfl
    have hpush (st' : ShrinkState) (r : Row Square) :
        shrinkWeight w { st' with newRaw := r :: st'.newRaw } =
          r.weight w + shrinkWeight w st' := by
      unfold shrinkWeight
      rw [total_cons, Nat.add_assoc]
    by_cases hdone : cut' = none ∧
        ¬(reflow = true ∧ i = cursorBufferLine lines st.cursor ∧ columns < st.cursor.pos.col)
    · rw [if_pos hdone, hpush]
      omega
    · rw [if_neg hdone]
      have hsplit := weight_splitRow_le hw columns row' (cut'.getD [])
      rcases hsplitRow : splitRow columns row' (cut'.getD []) with ⟨row'', _ | wrapped⟩
      · rw [hsplitRow] at hsplit
        dsimp only at hsplit ⊢
        rw [hpush]
        omega
      · rw [hsplitRow] at hsplit
        dsimp only [Option.getD_some] at hsplit ⊢
        generalize (if i < st.displayOffset then st.displayOffset + 1 else st.displayOffset) =
          offset
        split_ifs
        · have hunset := total_modify_le (fun c => (hw.setWrapline false c).le) wrapped
            (wrapped.length - 1)
          show total (Row.weight w) (row'' :: st.newRaw) + total w (wrapped.modify _ _) ≤ _
          rw [total_cons]
          omega
        · refine (weight_shrinkRow_le hw fuel
            { st with
              cursor := cursorAfterSplit lines columns i st.cursor
              displayOffset := offset
              newRaw := row'' :: st.newRaw } _ hst).trans ?_
          have hrow : (Row.fromVec (wrapped ++ List.replicate (columns - wrapped.length) default)
              wrapped.length).weight w = total w wrapped := by
            show total w (wrapped ++ _) = _
            rw [total_append, total_replicate_of_zero hw.blank, Nat.add_zero]
          rw [hrow]
          show total (Row.weight w) (row'' :: st.newRaw) + total w (st.buffered.getD []) +
            total w wrapped ≤ _
          rw [total_cons, hst]
          dsimp only [Option.getD_none, total_nil]
          omega

theorem weight_shrinkStep_le (hw : OfIds w) (reflow : Bool) (lines columns : ℕ) (st : ShrinkState)
    (i : ℕ) (row : Row Square) :
    shrinkWeight w (shrinkStep reflow lines columns st i row) ≤
      shrinkWeight w st + row.weight w := by
  unfold shrinkStep
  rcases hbuffered : st.buffered with _ | buffered
  · exact weight_shrinkRow_le hw _ st row hbuffered
  · refine (weight_shrinkRow_le hw _ _ _ rfl).trans ?_
    rw [Row.weight_appendFront]
    unfold shrinkWeight
    rw [hbuffered]
    dsimp only [Option.getD_some, Option.getD_none, total_nil]
    omega

theorem weight_shrinkLoop_le (hw : OfIds w) (reflow : Bool) (lines columns : ℕ) :
    ∀ (rows : List (Row Square × ℕ)) (st : ShrinkState),
      shrinkWeight w (shrinkLoop reflow lines columns rows st) ≤
        shrinkWeight w st + total (fun r => r.1.weight w) rows
  | [], st => le_rfl
  | (row, i) :: rows, st => by
    have hstep := weight_shrinkStep_le hw reflow lines columns st i row
    have hrest := weight_shrinkLoop_le hw reflow lines columns rows
      (shrinkStep reflow lines columns st i row)
    rw [total_cons]
    unfold shrinkLoop at hrest ⊢
    rw [List.foldl_cons]
    dsimp only at hrest ⊢
    omega

theorem weight_shrinkColumns_le (hw : OfIds w) (reflow : Bool) (columns : ℕ) :
    (g.shrinkColumns reflow columns).weight w ≤ g.weight w := by
  have htaken := weight_takeAll_le (w := w) g.raw
  have hloop := weight_shrinkLoop_le hw reflow g.lines columns (oldestFirst g.raw.takeAll.2)
    { cursor := unwrapCursor reflow g.cursor, displayOffset := g.displayOffset, newRaw := []
      buffered := none }
  rw [weight_oldestFirst] at hloop
  unfold shrinkColumns
  dsimp only at hloop ⊢
  generalize shrinkLoop reflow g.lines columns (oldestFirst g.raw.takeAll.2) _ = st at hloop ⊢
  have hkept := total_sublist_le (w := Row.weight w)
    (List.take_sublist (g.maxScrollLimit + g.lines) st.newRaw)
  show total (Row.weight w) (st.newRaw.take _) ≤ total (Row.weight w) g.raw.inner
  unfold Storage.weight at htaken
  have hstart : shrinkWeight w { cursor := unwrapCursor reflow g.cursor
                                 displayOffset := g.displayOffset, newRaw := []
                                 buffered := none } = 0 := rfl
  rw [hstart] at hloop
  unfold shrinkWeight at hloop
  omega

/-! ### Changing the number of lines -/

theorem weight_growLines_le (hw : OfIds w) (htemplate : Clean w g.cursor.template) (target : ℕ) :
    (g.growLines target).weight w ≤ g.weight w := by
  unfold growLines
  dsimp only
  refine (weight_decreaseScrollLimit_le _ _).trans ?_
  have hgrown : (g.raw.growVisibleLines target).weight w = g.weight w :=
    Storage.weight_initializeRows hw.blank g.raw _ _
  split_ifs
  · refine le_trans ?_ hgrown.le
    exact weight_scrollUp_le hw.blank (g := { g with raw := _, lines := target }) htemplate _ _
  · exact hgrown.le

theorem weight_shrinkLines_le (hw : OfIds w) (htemplate : Clean w g.cursor.template)
    (target : ℕ) : (g.shrinkLines target).weight w ≤ g.weight w := by
  unfold shrinkLines
  dsimp only
  refine (Storage.weight_shrinkLines_le _ _).trans ?_
  split_ifs
  · exact weight_scrollUp_le hw.blank htemplate _ _
  · exact le_rfl

/-- The number of lines changes before the number of columns does. -/
theorem weight_resizeLines_le (hw : OfIds w) (htemplate : Clean w g.cursor.template)
    (lines : ℕ) :
    weight w (if g.lines < lines then g.growLines lines
      else if lines < g.lines then g.shrinkLines lines else g) ≤ g.weight w := by
  split_ifs
  · exact weight_growLines_le hw htemplate lines
  · exact weight_shrinkLines_le hw htemplate lines
  · exact le_rfl

theorem weight_resizeColumns_le (hw : OfIds w) (reflow : Bool) (columns : ℕ) :
    weight w (if g.columns < columns then g.growColumns reflow columns
      else if columns < g.columns then g.shrinkColumns reflow columns else g) ≤ g.weight w := by
  split_ifs
  · exact weight_growColumns_le hw reflow columns
  · exact weight_shrinkColumns_le hw reflow columns
  · exact le_rfl

/-- Resizing moves cells and adds blank ones. -/
theorem weight_resize_le (hw : OfIds w) (g : Grid Square) (reflow : Bool) (lines columns : ℕ) :
    (g.resize reflow lines columns).weight w ≤ g.weight w := by
  have hstart := weight_resizeLines_le hw
    (g := { g with cursor := { g.cursor with template := default } }) hw.clean lines
  unfold resize
  dsimp only at hstart ⊢
  generalize (if g.lines < lines then
      growLines { g with cursor := { g.cursor with template := default } } lines
    else if lines < g.lines then
      shrinkLines { g with cursor := { g.cursor with template := default } } lines
    else { g with cursor := { g.cursor with template := default } }) = g' at hstart ⊢
  exact (weight_resizeColumns_le hw reflow columns).trans hstart

end Resize
end Grid
end Rio
