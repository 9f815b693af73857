import Rio.Crosswords.RowLaws
import Rio.Grid.ReflowRows

/-! The styles of a row as the renderer gets them. A row without occupied cells is given the style
of its first cell throughout, which is right as long as its cells agree. -/

set_option linter.dupNamespace false

namespace Rio
open Rio.Runs

namespace Row

/-- All cells have the style of the first one. -/
def Even (r : Row Square) : Prop :=
  ∀ c ∈ r.inner, c.isBgOnly = false ∧ c.styleId = (r.cell 0).styleId

/-- The cells of a row without occupied cells agree. -/
def Settled (r : Row Square) : Prop := r.occ = 0 → r.Even

instance (r : Row Square) : Decidable r.Even := inferInstanceAs (Decidable (∀ c ∈ r.inner, _))

instance (r : Row Square) : Decidable r.Settled := inferInstanceAs (Decidable (_ → _))

variable {r r' : Row Square}

theorem even_of_forall {id : StyleId}
    (h : ∀ c ∈ r.inner, c.isBgOnly = false ∧ c.styleId = id) : r.Even := by
  intro c hc
  obtain ⟨hbg, hstyle⟩ := h c hc
  refine ⟨hbg, hstyle.trans ?_⟩
  have hpos : 0 < r.inner.length := List.length_pos_of_mem hc
  have hfirst : r.cell 0 = r.inner[0] := by
    rw [cell, List.getD_eq_getElem?_getD, List.getElem?_eq_getElem hpos, Option.getD_some]
  rw [hfirst]
  exact (h _ (List.getElem_mem hpos)).2.symm

theorem Even.of_subset (h : r.Even) (hsub : ∀ c ∈ r'.inner, c ∈ r.inner) : r'.Even :=
  even_of_forall fun c hc => h c (hsub c hc)

theorem Settled.shrink (h : r.Settled) (columns : ℕ) : (r.shrink columns).1.Settled := by
  unfold Row.shrink
  split_ifs
  · exact h
  · intro hocc
    rcases Nat.eq_zero_or_pos columns with rfl | hpos
    · intro c hc
      exact absurd hc (by simp)
    · have hmin : min r.occ columns = 0 := hocc
      exact (h (by omega)).of_subset fun c hc => List.mem_of_mem_take hc

theorem Settled.append (h : r.Settled) (cells : List Square) : (r.append cells).Settled := by
  intro hocc
  have hsum : r.occ + cells.length = 0 := hocc
  obtain rfl : cells = [] := List.length_eq_zero_iff.mp (by omega)
  refine (h (by omega)).of_subset fun c hc => ?_
  simpa [Row.append] using hc

theorem Settled.appendFront (h : r.Settled) (cells : List Square) :
    (r.appendFront cells).Settled := by
  intro hocc
  have hsum : r.occ + cells.length = 0 := hocc
  obtain rfl : cells = [] := List.length_eq_zero_iff.mp (by omega)
  exact (h (by omega)).of_subset fun c hc => hc

/-- A row that is begun with the cells left over from another. -/
theorem fromVec_settled (wrapped : List Square) (n : ℕ) :
    (fromVec (wrapped ++ List.replicate n default) wrapped.length).Settled := by
  intro hocc
  obtain rfl : wrapped = [] := List.length_eq_zero_iff.mp hocc
  have hplain : ∀ c ∈ List.replicate n (default : Square),
      c.isBgOnly = false ∧ c.styleId = defaultStyleId := by
    intro c hc
    rw [List.eq_of_mem_replicate hc]
    exact ⟨rfl, rfl⟩
  exact even_of_forall hplain

/-- New cells have the default style. -/
theorem Settled.grow (h : r.Settled) {columns : ℕ}
    (hplain : r.occ = 0 → r.len < columns → ∀ c ∈ r.inner, c.styleId = defaultStyleId) :
    (r.grow columns).Settled := by
  intro hocc
  have heven := h hocc
  by_cases hlen : r.len < columns
  · have hcells : ∀ c ∈ (r.grow columns).inner,
        c.isBgOnly = false ∧ c.styleId = defaultStyleId := by
      intro c hc
      rcases List.mem_append.mp hc with hc | hc
      · exact ⟨(heven c hc).1, hplain hocc hlen c hc⟩
      · rw [List.eq_of_mem_replicate hc]
        exact ⟨rfl, rfl⟩
    exact even_of_forall hcells
  · refine heven.of_subset fun c hc => ?_
    have hnone : columns - r.len = 0 := by omega
    simpa [Row.grow, hnone] using hc

theorem settledLaw : RowLaw (fun _ => False) Settled where
  cleared r h _ := by
    obtain ⟨-, id, hcells⟩ := h
    exact even_of_forall fun c hc => by
      rw [hcells c hc]
      exact ⟨rfl, rfl⟩
  edited r r' h hr hocc := by
    have hcells : r'.inner = r.inner := by
      refine List.ext_getElem? fun i => ?_
      rcases Nat.lt_or_ge i r.inner.length with hi | hi
      · exact (h.rest i (by omega) hi).2
      · rw [List.getElem?_eq_none hi, List.getElem?_eq_none (h.len.trans_le hi)]
    rcases Nat.eq_zero_or_pos r.inner.length with hempty | hpos
    · intro c hc
      rw [hcells, List.length_eq_zero_iff.mp hempty] at hc
      exact absurd hc (List.not_mem_nil)
    · have hocc' : r.occ = 0 := Nat.le_zero.mp (h.rest 0 (by omega) hpos).1
      exact (hr hocc').of_subset fun c hc => hcells ▸ hc

theorem settledGrowLaw :
    Grid.GrowLaw (fun _ => False) Settled fun _ _ _ rest => rest.Settled where
  toRowLaw := settledLaw
  shrink _ columns h := h.shrink columns
  pull _ cells _ _ _ _ hrest _ hlast := ⟨hlast.append cells, hrest⟩

theorem settledShrinkLaw (columns : ℕ) :
    Grid.ShrinkLaw (fun _ => False) Settled columns (fun _ _ => True) fun _ => True where
  toRowLaw := settledLaw
  shrink _ h := h.shrink columns
  front cells _ _ h := h.appendFront cells
  begin_ wrapped _ := (fromVec_settled wrapped _).shrink columns
  blank := not_false

end Row

namespace Grid

variable {g : Grid Square}

/-- The style that a cell is drawn with. -/
def cellStyle (g : Grid Square) (square : Square) : Style :=
  if square.isBgOnly then {} else g.styleOf square

/-- The style of the cell in a column of a row, resolved cell by cell. -/
def styleAt (g : Grid Square) (row : Row Square) (x : ℕ) : Style :=
  (row.inner[x]?.map g.cellStyle).getD {}

/-- Resolve the styles of the cells of a row, and append them to `dst`. -/
def materializeRowStyles (g : Grid Square) (row : Row Square) (cols : ℕ) (dst : List Style) :
    List Style :=
  if row.occ = 0 then
    -- broadcast one style instead of walking every cell
    dst ++ List.replicate cols ((row.inner.head?.map g.styleOf).getD {})
  else dst ++ (List.range cols).map (g.styleAt row)

/-- Resolve the styles of the cells of a row over the first `cols` entries of `dst`. -/
def materializeRowStylesAt (g : Grid Square) (row : Row Square) (cols : ℕ) (dst : List Style) :
    List Style :=
  if row.occ = 0 then
    let style := (row.inner.head?.map g.styleOf).getD {}
    dst.mapIdx fun x slot => if x < cols then style else slot
  else dst.mapIdx fun x slot => if x < cols then g.styleAt row x else slot

theorem styleAt_of_settled {r : Row Square} (h : r.Settled) (hocc : r.occ = 0) {x : ℕ}
    (hx : x < r.len) : g.styleAt r x = (r.inner.head?.map g.styleOf).getD {} := by
  have heven := h hocc
  have hpos : 0 < r.inner.length := Nat.zero_lt_of_lt hx
  obtain ⟨hbg, hstyle⟩ := heven _ (List.getElem_mem hx)
  have hfirst : r.cell 0 = r.inner[0] := by
    rw [Row.cell, List.getD_eq_getElem?_getD, List.getElem?_eq_getElem hpos, Option.getD_some]
  rw [styleAt, List.getElem?_eq_getElem hx, List.head?_eq_getElem?, List.getElem?_eq_getElem hpos]
  unfold cellStyle
  rw [Option.map_some, Option.map_some, Option.getD_some, Option.getD_some, hbg,
    if_neg Bool.false_ne_true, styleOf, styleOf, hstyle, hfirst]

/-- The shortcut agrees with resolving cell by cell. -/
theorem materializeRowStyles_eq {r : Row Square} (h : r.Settled) {cols : ℕ} (hcols : cols ≤ r.len)
    (dst : List Style) :
    g.materializeRowStyles r cols dst = dst ++ (List.range cols).map (g.styleAt r) := by
  unfold materializeRowStyles
  split_ifs with hocc
  · congr 1
    symm
    rw [List.eq_replicate_iff]
    refine ⟨by simp, fun style hstyle => ?_⟩
    obtain ⟨x, hx, rfl⟩ := List.mem_map.mp hstyle
    exact styleAt_of_settled h hocc ((List.mem_range.mp hx).trans_le hcols)
  · rfl

theorem materializeRowStylesAt_eq {r : Row Square} (h : r.Settled) {cols : ℕ}
    (hcols : cols ≤ r.len) (dst : List Style) :
    g.materializeRowStylesAt r cols dst =
      dst.mapIdx fun x slot => if x < cols then g.styleAt r x else slot := by
  unfold materializeRowStylesAt
  split_ifs with hocc
  · refine List.mapIdx_eq_mapIdx_iff.mpr fun x hx => ?_
    split_ifs with hlt
    · exact (styleAt_of_settled h hocc (hlt.trans_le hcols)).symm
    · rfl
  · rfl

/-- The styles of all rows are those of their cells. -/
def StylesByCell (g : Grid Square) : Prop :=
  ∀ r ∈ g.raw.inner, ∀ cols ≤ r.len, ∀ dst : List Style,
    g.materializeRowStyles r cols dst = dst ++ (List.range cols).map (g.styleAt r) ∧
      g.materializeRowStylesAt r cols dst =
        dst.mapIdx fun x slot => if x < cols then g.styleAt r x else slot

theorem stylesByCell_of_settled (h : g.raw.AllRows Row.Settled) : g.StylesByCell :=
  fun r hr _ hcols dst =>
    ⟨materializeRowStyles_eq (h r hr) hcols dst, materializeRowStylesAt_eq (h r hr) hcols dst⟩

/-- When columns are added, no row without occupied cells that has a style of its own is filled up
with default cells, and no row is cut where its unoccupied cells have two styles. -/
def WidensPlain (g : Grid Square) (reflow : Bool) (columns : ℕ) : Prop :=
  g.columns < columns →
    g.GrowsBy (fun _ _ _ rest => rest.Settled) reflow columns ∧
      ∀ r ∈ g.reflownRows reflow columns, r.occ = 0 → r.len < columns →
        ∀ c ∈ r.inner, c.styleId = defaultStyleId

instance (g : Grid Square) (reflow : Bool) (columns : ℕ) :
    Decidable (g.WidensPlain reflow columns) :=
  inferInstanceAs (Decidable (_ → _ ∧ _))

theorem settled_resize (h : g.raw.AllRows Row.Settled) {reflow : Bool} {lines columns : ℕ}
    (hwidens : (g.withLines lines).WidensPlain reflow columns) :
    (g.resize reflow lines columns).raw.AllRows Row.Settled := by
  refine Row.settledLaw.resize h (fun hwide hlined => ?_) fun _ hlined => ?_
  · obtain ⟨hgrows, hplain⟩ := hwidens hwide
    exact Row.settledGrowLaw.growColumns hlined hgrows fun r hr hsettled =>
      hsettled.grow (hplain r hr)
  · exact (Row.settledShrinkLaw columns).shrinkColumns hlined
      (Permitted.of_always (fun _ _ => ⟨fun _ _ => trivial, fun _ _ => trivial⟩) _ _)

end Grid

namespace Crosswords

variable {t : Crosswords}

/-- A resize widens both screens without mixing styles in a row that has no occupied cells. -/
def WidensPlain (t : Crosswords) : Op → Prop
  | .resize numCols numLines _ _ =>
    ¬ (t.grid.columns = numCols ∧ t.grid.lines = numLines) →
      (t.grid.withLines numLines).WidensPlain (!t.mode.altScreen) numCols ∧
        (t.inactiveGrid.withLines numLines).WidensPlain t.mode.altScreen numCols
  | _ => True

instance (t : Crosswords) (op : Op) : Decidable (t.WidensPlain op) := by
  unfold WidensPlain
  split <;> exact inferInstance

theorem noMarks (u : Unicode) : Marks u fun _ => False :=
  ⟨fun _ h => h.elim, fun _ h => h.elim, fun _ _ h => h.elim⟩

theorem step_settled (u : Unicode) (h : t.AllRows Row.Settled) {op : Op}
    (hwidens : t.WidensPlain op) : (t.step u op).AllRows Row.Settled := by
  refine step_allRows Row.settledLaw (noMarks u) h op ?_
  rintro numCols numLines cellWidth cellHeight rfl hsize
  exact ⟨Grid.settled_resize h.1 (hwidens hsize).1, Grid.settled_resize h.2 (hwidens hsize).2⟩

/-- As long as no resize mixes styles in a row without occupied cells, the styles of all rows of
both screens are those of their cells. -/
theorem run_stylesByCell (u : Unicode) (columns lines limit : ℕ) {ops : List Op}
    (hwidens : Permitted (step u) WidensPlain (new columns lines limit) ops) :
    ((new columns lines limit).run u ops).grid.StylesByCell ∧
      ((new columns lines limit).run u ops).inactiveGrid.StylesByCell := by
  have hsettled : ((new columns lines limit).run u ops).AllRows Row.Settled :=
    invariant (I := AllRows Row.Settled) (fun _ _ h hop => step_settled u h hop) ops _
      (new_allRows Row.settledLaw columns lines limit) hwidens
  exact ⟨Grid.stylesByCell_of_settled hsettled.1, Grid.stylesByCell_of_settled hsettled.2⟩

theorem run_stylesByCell_widened :
    ((new 2 2 4).run .basic
      [.input 'a', .terminalAttribute (.background (.indexed 4)), .input 'b', .resize 4 2 0 0]
      ).grid.StylesByCell ∧
    ((new 2 2 4).run .basic
      [.input 'a', .terminalAttribute (.background (.indexed 4)), .input 'b', .resize 4 2 0 0]
      ).inactiveGrid.StylesByCell :=
  run_stylesByCell .basic 2 2 4 (by decide)

/-- A line that has been scrolled in with a background color gets plain cells at its end when the
terminal becomes wider, and is still given the style of its first cell throughout. -/
theorem widened_blank_row_mixes_styles :
    ¬ ∀ ops : List Op, ((new 2 2 0).run .basic ops).grid.StylesByCell := by
  intro h
  have hrow := h [.terminalAttribute (.background (.indexed 4)), .scrollUp 1, .resize 3 2 0 0]
  exact absurd ((hrow (((new 2 2 0).run .basic
    [.terminalAttribute (.background (.indexed 4)), .scrollUp 1, .resize 3 2 0 0]).grid.row 1)
    (by decide) 3 (by decide) []).1) (by decide)

end Crosswords
end Rio
