import Rio.Crosswords.Bounds

/-! Deleting and inserting characters in a line. -/

set_option linter.dupNamespace false

namespace Rio
open Rio.Ring

/-! ### Cells exchanged in place -/

/-- Exchanging cells from the left moves the cells at `stop` to `start`. -/
theorem getElem?_swapCells {start stop : ℕ} (hlt : start < stop) (cells : List Square) :
    ∀ count, stop + count ≤ cells.length →
      (∀ i, i < start → (swapCells start stop count cells)[i]? = cells[i]?) ∧
        (∀ i, start ≤ i → i < start + count →
          (swapCells start stop count cells)[i]? = cells[i + (stop - start)]?) ∧
        ∀ i, stop + count ≤ i → (swapCells start stop count cells)[i]? = cells[i]?
  | 0, _ => ⟨fun _ _ => rfl, fun i h h' => by omega, fun _ _ => rfl⟩
  | count + 1, hlen => by
    obtain ⟨hleft, hmoved, hright⟩ := getElem?_swapCells hlt cells count (by omega)
    have hstep : swapCells start stop (count + 1) cells =
        swapAt (swapCells start stop count cells) (start + count) (stop + count) := by
      unfold swapCells
      rw [List.range_succ, List.foldl_append]
      rfl
    have hlength := swapCells_length start stop count cells
    have hswap := getElem?_swapAt (l := swapCells start stop count cells)
      (i := start + count) (j := stop + count) (by omega) (by omega)
    refine ⟨fun i hi => ?_, fun i hi hi' => ?_, fun i hi => ?_⟩
    · rw [hstep, hswap, if_neg (by omega), if_neg (by omega)]
      exact hleft i hi
    · rw [hstep, hswap]
      by_cases hlast : i = start + count
      · rw [if_neg (by omega), if_pos hlast, hright _ le_rfl]
        congr 1
        omega
      · by_cases hover : i = stop + count
        · omega
        · rw [if_neg hover, if_neg hlast]
          exact hmoved i hi (by omega)
    · rw [hstep, hswap, if_neg (by omega), if_neg (by omega)]
      exact hright i (by omega)

/-- Exchanging cells from the right moves the cells at `start` to `stop`. -/
theorem getElem?_swapCellsBack {start stop : ℕ} (hle : start ≤ stop) :
    ∀ (count : ℕ) (cells : List Square), stop + count ≤ cells.length →
      (∀ i, i < start → (swapCellsBack start stop count cells)[i]? = cells[i]?) ∧
        (∀ i, stop ≤ i → i < stop + count →
          (swapCellsBack start stop count cells)[i]? = cells[i - (stop - start)]?) ∧
        ∀ i, stop + count ≤ i → (swapCellsBack start stop count cells)[i]? = cells[i]?
  | 0, _, _ => ⟨fun _ _ => rfl, fun i h h' => by omega, fun _ _ => rfl⟩
  | count + 1, cells, hlen => by
    have hstep : swapCellsBack start stop (count + 1) cells =
        swapCellsBack start stop count (swapAt cells (stop + count) (start + count)) := by
      unfold swapCellsBack
      rw [List.range_succ, List.reverse_append]
      rfl
    have hswap := getElem?_swapAt (l := cells) (i := stop + count) (j := start + count)
      (by omega) (by omega)
    obtain ⟨hleft, hmoved, hright⟩ := getElem?_swapCellsBack hle count
      (swapAt cells (stop + count) (start + count)) (by rw [length_swapAt]; omega)
    refine ⟨fun i hi => ?_, fun i hi hi' => ?_, fun i hi => ?_⟩
    · rw [hstep, hleft i hi, hswap, if_neg (by omega), if_neg (by omega)]
    · rw [hstep]
      by_cases hlast : i = stop + count
      · rw [hright i (by omega), hswap]
        by_cases hsame : i = start + count
        · rw [if_pos hsame]
          congr 1
          omega
        · rw [if_neg hsame, if_pos hlast]
          congr 1
          omega
      · rw [hmoved i hi (by omega), hswap, if_neg (by omega), if_neg (by omega)]
    · rw [hstep, hright i (by omega), hswap, if_neg (by omega), if_neg (by omega)]

/-! ### The cells of a line -/

/-- The cells of a line after `n` of them are deleted from a column on. -/
def deleted (cells : List Square) (col n : ℕ) (blank : Square) : List Square :=
  let k := min n (cells.length - col)
  cells.take col ++ cells.drop (col + k) ++ List.replicate k blank

/-- The cells of a line after `n` blanks are inserted at a column. -/
def inserted (cells : List Square) (col n : ℕ) (blank : Square) : List Square :=
  let k := min n (cells.length - col)
  cells.take col ++ List.replicate k blank ++ (cells.drop col).take (cells.length - col - k)

variable {cells : List Square} {col n : ℕ} {blank : Square}

theorem getElem?_deleted (hcol : col < cells.length) (i : ℕ) :
    (deleted cells col n blank)[i]? =
      if i < col then cells[i]?
      else if i < cells.length - min n (cells.length - col) then
        cells[i + min n (cells.length - col)]?
      else if i < cells.length then some blank else none := by
  unfold deleted
  dsimp only
  have htake : (cells.take col).length = col := by
    rw [List.length_take]
    omega
  rw [List.append_assoc, List.getElem?_append, htake]
  split_ifs with hleft hmoved hin
  · rw [List.getElem?_take_of_lt hleft]
  · rw [List.getElem?_append_left (by rw [List.length_drop]; omega), List.getElem?_drop]
    congr 1
    omega
  · rw [List.getElem?_append_right (by rw [List.length_drop]; omega),
      List.getElem?_replicate_of_lt (by rw [List.length_drop]; omega)]
  · rw [List.getElem?_append_right (by rw [List.length_drop]; omega),
      List.getElem?_eq_none (by rw [List.length_replicate, List.length_drop]; omega)]

theorem getElem?_inserted (hcol : col < cells.length) (i : ℕ) :
    (inserted cells col n blank)[i]? =
      if i < col then cells[i]?
      else if i < col + min n (cells.length - col) then some blank
      else if i < cells.length then cells[i - min n (cells.length - col)]? else none := by
  unfold inserted
  dsimp only
  have htake : (cells.take col).length = col := by
    rw [List.length_take]
    omega
  rw [List.append_assoc, List.getElem?_append, htake]
  split_ifs with hleft hblank hin
  · rw [List.getElem?_take_of_lt hleft]
  · rw [List.getElem?_append_left (by rw [List.length_replicate]; omega),
      List.getElem?_replicate_of_lt (by omega)]
  · rw [List.getElem?_append_right (by rw [List.length_replicate]; omega), List.length_replicate,
      List.getElem?_take_of_lt (by omega), List.getElem?_drop]
    congr 1
    omega
  · rw [List.getElem?_append_right (by rw [List.length_replicate]; omega),
      List.getElem?_eq_none (by
        rw [List.length_take, List.length_drop, List.length_replicate]
        omega)]

theorem getElem?_overwrite (P : ℕ → Prop) [DecidablePred P] (cells : List Square) (blank : Square)
    (i : ℕ) : (cells.mapIdx fun i d => if P i then blank else d)[i]? =
      if P i ∧ i < cells.length then some blank else cells[i]? := by
  rw [List.getElem?_mapIdx]
  by_cases hin : i < cells.length
  · rw [List.getElem?_eq_getElem hin, Option.map_some]
    split_ifs with hP hboth hboth
    · rfl
    · exact absurd ⟨hP, hin⟩ hboth
    · exact absurd hboth.1 hP
    · rfl
  · rw [List.getElem?_eq_none (not_lt.mp hin), Option.map_none, if_neg fun hboth => hin hboth.2]

theorem swapCells_self (start count : ℕ) (cells : List Square) :
    swapCells start start count cells = cells := by
  have hswap (i : ℕ) (l : List Square) : swapAt l i i = l := by
    refine List.ext_getElem? fun k => ?_
    by_cases hi : i < l.length
    · rw [getElem?_swapAt hi hi]
      split_ifs with hk
      · rw [hk]
      · rfl
    · unfold swapAt
      rw [List.getElem?_eq_none (not_lt.mp hi)]
  unfold swapCells
  induction List.range count with
  | nil => rfl
  | cons offset offsets ih => rw [List.foldl_cons, hswap, ih]

/-- The cells that the code leaves behind when it deletes: it clears as many cells at the end of
the line as were to be deleted, whatever the column of the cursor. -/
theorem getElem?_swapCells_fillFrom (hcol : col < cells.length) (i : ℕ) :
    ((swapCells col (min (col + min n cells.length) (cells.length - 1))
        (cells.length - min (col + min n cells.length) (cells.length - 1)) cells).mapIdx
      fun i d => if cells.length - min n cells.length ≤ i then blank else d)[i]? =
      if i < cells.length - min n cells.length then
        if i < col then cells[i]? else cells[i + min n cells.length]?
      else if i < cells.length then some blank else none := by
  rw [getElem?_overwrite, swapCells_length]
  by_cases hkept : i < cells.length - min n cells.length
  · rw [if_neg (by omega), if_pos hkept]
    by_cases hsame : col = min (col + min n cells.length) (cells.length - 1)
    · rw [← hsame, swapCells_self]
      split_ifs with hleft
      · rfl
      · congr 1
        omega
    · have hlt : col < min (col + min n cells.length) (cells.length - 1) := by omega
      have hmove := getElem?_swapCells hlt cells
        (cells.length - min (col + min n cells.length) (cells.length - 1)) (by omega)
      split_ifs with hleft
      · exact hmove.1 i hleft
      · rw [hmove.2.1 i (by omega) (by omega)]
        congr 1
        omega
  · rw [if_neg hkept]
    by_cases hin : i < cells.length
    · rw [if_pos ⟨by omega, hin⟩, if_pos hin]
    · rw [if_neg (by omega), if_neg hin, List.getElem?_eq_none (by rw [swapCells_length]; omega)]

/-- The code deletes as it should when the cells are there, or when those that it clears before
the cursor are blank. -/
theorem swapCells_fillFrom_eq_iff (hcol : col < cells.length) :
    (swapCells col (min (col + min n cells.length) (cells.length - 1))
        (cells.length - min (col + min n cells.length) (cells.length - 1)) cells).mapIdx
      (fun i d => if cells.length - min n cells.length ≤ i then blank else d) =
        deleted cells col n blank ↔
      col + n ≤ cells.length ∨
        ∀ i, cells.length - n ≤ i → i < col → cells[i]? = some blank := by
  constructor
  · intro heq
    by_cases hfits : col + n ≤ cells.length
    · exact .inl hfits
    · refine .inr fun i hi hleft => ?_
      have hcell : (_ : List Square)[i]? = (deleted cells col n blank)[i]? :=
        congrArg (fun l : List Square => l[i]?) heq
      rw [getElem?_swapCells_fillFrom hcol, getElem?_deleted hcol, if_neg (by omega),
        if_pos (by omega), if_pos hleft] at hcell
      exact hcell.symm
  · intro hfits
    refine List.ext_getElem? fun i => ?_
    rw [getElem?_swapCells_fillFrom hcol, getElem?_deleted hcol]
    by_cases hleft : i < col
    · rw [if_pos hleft, if_pos hleft]
      by_cases hkept : i < cells.length - min n cells.length
      · rw [if_pos hkept]
      · rw [if_neg hkept, if_pos (by omega)]
        obtain hfits | hblank := hfits
        · omega
        · exact (hblank i (by omega) hleft).symm
    · rw [if_neg hleft, if_neg hleft]
      by_cases hfit : col + n ≤ cells.length
      · have hn : min n cells.length = min n (cells.length - col) := by omega
        rw [hn]
      · rw [if_neg (by omega)]
        split_ifs with hin hmoved hmoved
        · omega
        · rfl
        · omega
        · rfl

theorem swapCellsBack_fill_eq (hcol : col < cells.length) :
    (swapCellsBack col (col + min n (cells.length - col))
        (cells.length - (col + min n (cells.length - col))) cells).mapIdx
      (fun i d => if col ≤ i ∧ i < col + min n (cells.length - col) then blank else d) =
      inserted cells col n blank := by
  have hle : col ≤ col + min n (cells.length - col) := Nat.le_add_right _ _
  obtain ⟨hleft, hmoved, -⟩ := getElem?_swapCellsBack hle
    (cells.length - (col + min n (cells.length - col))) cells (by omega)
  refine List.ext_getElem? fun i => ?_
  rw [getElem?_overwrite fun i => col ≤ i ∧ i < col + min n (cells.length - col),
    swapCellsBack_length, getElem?_inserted hcol]
  by_cases hbefore : i < col
  · rw [if_neg (by omega), if_pos hbefore]
    exact hleft i hbefore
  · rw [if_neg hbefore]
    by_cases hblank : i < col + min n (cells.length - col)
    · rw [if_pos (by omega), if_pos hblank]
    · rw [if_neg (by omega), if_neg hblank]
      by_cases hin : i < cells.length
      · rw [if_pos hin, hmoved i (by omega) (by omega)]
        congr 1
        omega
      · rw [if_neg hin, List.getElem?_eq_none (by rw [swapCellsBack_length]; omega)]

/-! ### The operations -/

namespace Grid

variable {g : Grid Square}

theorem row_modifyRow (hg : g.WellFormed) {line l : ℤ} (htop : g.topmostLine ≤ line)
    (hline : line < g.lines) (hltop : g.topmostLine ≤ l) (hl : l < g.lines)
    (f : Row Square → Row Square) :
    (g.modifyRow line f).row l = if l = line then f (g.row line) else g.row l :=
  Storage.row_modify hg.storage (hg.inBounds htop hline) (hg.inBounds hltop hl) f

/-- The row of a line of the grid has all its cells. -/
theorem row_len (hg : g.WellFormed) {line : ℤ} (htop : g.topmostLine ≤ line)
    (hline : line < g.lines) : (g.row line).inner.length = g.columns :=
  hg.width _ (Storage.row_mem hg.storage (hg.inBounds htop hline))

end Grid

namespace Crosswords

variable {t : Crosswords}

/-- An edit of the line of the cursor with a blank leaves the other lines alone. -/
theorem row_withBlank (h : t.Sound False) (f : Square → Row Square → Row Square) (line : ℤ)
    (htop : t.grid.topmostLine ≤ line) (hline : line < t.grid.lines) :
    (t.withBlank fun t blank =>
      t.damageCursor.mapGrid (·.modifyRow t.pos.row (f blank))).grid.row line =
      if line = t.pos.row then f t.grid.templateBlank.2 (t.grid.row line) else t.grid.row line := by
  have hpos : t.grid.templateBlank.1.cursor.pos = t.grid.cursor.pos := by
    rw [Grid.templateBlank_eq]
  have hraw : t.grid.templateBlank.1.raw = t.grid.raw := by
    rw [Grid.templateBlank_eq]
  have hrow : (t.withBlank fun t blank =>
      t.damageCursor.mapGrid (·.modifyRow t.pos.row (f blank))).grid.row line =
      (t.grid.modifyRow t.pos.row (f t.grid.templateBlank.2)).row line := by
    show (t.grid.templateBlank.1.raw.modify t.grid.templateBlank.1.cursor.pos.row
      (f t.grid.templateBlank.2)).row line = _
    rw [hpos, hraw]
    rfl
  rw [hrow, Grid.row_modifyRow h.grid.wellFormed h.topmostLine_le_row h.grid.cursor.2.1 htop hline]
  split_ifs with hhere
  · rw [hhere]
  · rfl

/-- The cells of the cursor's line from the cursor on make room for what is behind them, and
blanks with the background of the pen follow. -/
structure DeletesChars (t : Crosswords) (n : ℕ) : Prop where
  line : ((t.deleteChars n).grid.row t.pos.row).inner =
    deleted (t.grid.row t.pos.row).inner t.pos.col n t.grid.templateBlank.2
  others : ∀ line, t.grid.topmostLine ≤ line → line < t.grid.lines → line ≠ t.pos.row →
    (t.deleteChars n).grid.row line = t.grid.row line

/-- Blanks with the background of the pen come in at the cursor, and push the cells behind it to
the right. -/
structure InsertsBlanks (t : Crosswords) (n : ℕ) : Prop where
  line : ((t.insertBlank n).grid.row t.pos.row).inner =
    inserted (t.grid.row t.pos.row).inner t.pos.col n t.grid.templateBlank.2
  others : ∀ line, t.grid.topmostLine ≤ line → line < t.grid.lines → line ≠ t.pos.row →
    (t.insertBlank n).grid.row line = t.grid.row line

/-- There are so many cells from the cursor on, or those that are too many before it are blank. -/
def DeletesWithin (t : Crosswords) (n : ℕ) : Prop :=
  t.pos.col + n ≤ t.grid.columns ∨ ∀ col, t.grid.columns - n ≤ col → col < t.pos.col →
    t.grid.cell ⟨t.pos.row, col⟩ = t.grid.templateBlank.2

theorem insertsBlanks (h : t.Sound False) (n : ℕ) : t.InsertsBlanks n := by
  have hlength := Grid.row_len h.grid.wellFormed h.topmostLine_le_row h.grid.cursor.2.1
  have hcol := h.col_lt
  have hrow := row_withBlank h fun blank row =>
    (row.modifyAll (swapCellsBack t.pos.col (t.pos.col + min n (t.grid.columns - t.pos.col))
      (t.grid.columns - (t.pos.col + min n (t.grid.columns - t.pos.col))))).fill t.pos.col
        (t.pos.col + min n (t.grid.columns - t.pos.col)) blank
  refine ⟨?_, fun line htop hline hother => ?_⟩
  · have hhere := hrow t.pos.row h.topmostLine_le_row h.grid.cursor.2.1
    rw [if_pos rfl] at hhere
    refine (congrArg Row.inner hhere).trans ?_
    rw [← hlength] at hcol ⊢
    exact swapCellsBack_fill_eq hcol
  · exact (hrow line htop hline).trans (if_neg hother)

theorem deletesChars_iff (h : t.Sound False) (n : ℕ) : t.DeletesChars n ↔ t.DeletesWithin n := by
  have hlength := Grid.row_len h.grid.wellFormed h.topmostLine_le_row h.grid.cursor.2.1
  have hcol := h.col_lt
  have hrow := row_withBlank h fun blank row =>
    (row.modifyAll (swapCells t.pos.col
      (min (t.pos.col + min n t.grid.columns) (t.grid.columns - 1))
      (t.grid.columns - min (t.pos.col + min n t.grid.columns) (t.grid.columns - 1)))).fillFrom
        (t.grid.columns - min n t.grid.columns) blank
  have hhere := hrow t.pos.row h.topmostLine_le_row h.grid.cursor.2.1
  rw [if_pos rfl] at hhere
  have hcells (col : ℕ) (hlt : col < t.pos.col) :
      (t.grid.row t.pos.row).inner[col]? = some t.grid.templateBlank.2 ↔
        t.grid.cell ⟨t.pos.row, col⟩ = t.grid.templateBlank.2 := by
    have hin : col < (t.grid.row t.pos.row).inner.length := by omega
    unfold Grid.cell Row.cell
    rw [List.getD_eq_getElem?_getD, List.getElem?_eq_getElem hin, Option.some.injEq]
    rfl
  have hwithin : t.DeletesWithin n ↔ t.pos.col + n ≤ t.grid.columns ∨
      ∀ col, t.grid.columns - n ≤ col → col < t.pos.col →
        (t.grid.row t.pos.row).inner[col]? = some t.grid.templateBlank.2 := by
    unfold DeletesWithin
    refine or_congr_right (forall_congr' fun col => ?_)
    exact imp_congr_right fun _ => forall_congr' fun hlt => (hcells col hlt).symm
  have hiff : ((t.deleteChars n).grid.row t.pos.row).inner =
      deleted (t.grid.row t.pos.row).inner t.pos.col n t.grid.templateBlank.2 ↔
        t.DeletesWithin n := by
    rw [hwithin]
    refine Iff.trans (Eq.congr_left (congrArg Row.inner hhere)) ?_
    rw [← hlength] at hcol ⊢
    exact swapCells_fillFrom_eq_iff hcol
  constructor
  · exact fun hdeletes => hiff.mp hdeletes.line
  · intro hfits
    refine ⟨hiff.mpr hfits, fun line htop hline hother => ?_⟩
    exact (hrow line htop hline).trans (if_neg hother)

/-- Deleting and inserting characters edits the line of the cursor from the cursor on, exactly
when no more characters are to be deleted than there are, or those too many before the cursor are
blank already. -/
theorem lineEdits_iff (h : t.Sound False) (n : ℕ) :
    t.DeletesChars n ∧ t.InsertsBlanks n ↔ t.DeletesWithin n := by
  rw [deletesChars_iff h]
  exact and_iff_left (insertsBlanks h n)

theorem lineEdits_new : (new 4 1 0).DeletesChars 2 ∧ (new 4 1 0).InsertsBlanks 2 ↔
    (new 4 1 0).DeletesWithin 2 :=
  lineEdits_iff (new_sound False (by decide) (by decide) 0) 2

/-- Deleting four characters in the last of four columns clears the whole line. -/
theorem deleteChars_clears_line :
    ¬((new 4 1 0).run .basic [.input 'a', .input 'b', .input 'c']).DeletesChars 4 := by
  intro hdeletes
  have hcell := congrArg (fun cells : List Square => (cells.map Square.c).take 3) hdeletes.line
  revert hcell
  decide

end Crosswords
end Rio
