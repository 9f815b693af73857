import Rio.Grid.Resize
import Rio.Grid.Lines

/-! Edits of single rows, and the properties of rows that survive them. A property that blank rows
have and that every edit of a row keeps is one that scrolling and clearing a grid keep. -/

set_option linter.dupNamespace false

namespace Rio

namespace Row

/-- A row as it is after it has been created or reset: all cells blank in one style. -/
def Cleared (r : Row Square) : Prop :=
  r.occ = 0 ∧ ∃ id : StyleId, ∀ c ∈ r.inner, c = ({ lo := id } : Square)

/-- An edit of a row in place. The cells beyond the new `occ` are those from before and were not
occupied before, and a character that is `marked` is there only if one was there before or the
row carries the flag. -/
structure Edited (marked : Char → Prop) (r r' : Row Square) : Prop where
  len : r'.len = r.len
  rest : ∀ i, r'.occ ≤ i → i < r.len → r.occ ≤ i ∧ r'.inner[i]? = r.inner[i]?
  flag : r.kittyVirtualPlaceholder = true → r'.kittyVirtualPlaceholder = true
  marks : (∃ c ∈ r'.inner, marked c.c) →
    (∃ c ∈ r.inner, marked c.c) ∨ r'.kittyVirtualPlaceholder = true

theorem new_cleared (columns : ℕ) : (new columns : Row Square).Cleared :=
  ⟨rfl, defaultStyleId, fun _ hc => List.eq_of_mem_replicate hc⟩

theorem reset_cleared (r : Row Square) (template : Square) : (r.reset template).Cleared := by
  refine ⟨rfl, template.styleId, fun c hc => ?_⟩
  obtain ⟨d, -, rfl⟩ := List.mem_map.mp hc
  rfl

variable {marked : Char → Prop} {r r' r'' : Row Square}

namespace Edited

theorem trans (h : r.Edited marked r') (h' : r'.Edited marked r'') : r.Edited marked r'' where
  len := h'.len.trans h.len
  rest i hocc hi := by
    obtain ⟨hocc', hsame'⟩ := h'.rest i hocc (h.len.symm ▸ hi)
    obtain ⟨hocc, hsame⟩ := h.rest i hocc' hi
    exact ⟨hocc, hsame'.trans hsame⟩
  flag hflag := h'.flag (h.flag hflag)
  marks hmarked := by
    rcases h'.marks hmarked with hmarked | hflag
    · exact (h.marks hmarked).imp_right h'.flag
    · exact .inr hflag

end Edited

theorem edited_markDirty (r : Row Square) : r.Edited marked r.markDirty :=
  ⟨rfl, fun _ hocc _ => ⟨hocc, rfl⟩, id, .inl⟩

theorem edited_flag (r : Row Square) :
    r.Edited marked { r with kittyVirtualPlaceholder := true } :=
  ⟨rfl, fun _ hocc _ => ⟨hocc, rfl⟩, fun _ => rfl, .inl⟩

/-- Any row that is fully occupied after the edit. -/
theorem edited_of_full (hlen : r'.len = r.len) (hocc : r'.occ = r.len)
    (hflag : r'.kittyVirtualPlaceholder = r.kittyVirtualPlaceholder)
    (hmarks : ∀ c ∈ r'.inner, marked c.c → ∃ c ∈ r.inner, marked c.c) : r.Edited marked r' := by
  refine ⟨hlen, fun i hi hlt => ?_, fun h => hflag.trans h, ?_⟩
  · omega
  · rintro ⟨c, hc, hmarked⟩
    exact .inl (hmarks c hc hmarked)

/-- A cell of a row is written to. -/
theorem edited_modify (r : Row Square) (col : ℕ) {f : Square → Square}
    (hf : marked (f (r.cell col)).c →
      marked (r.cell col).c ∨ r.kittyVirtualPlaceholder = true) :
    r.Edited marked (r.modify col f) := by
  refine ⟨by simp [len, modify], fun i hocc hi => ?_, id, ?_⟩
  · have hmax : max r.occ (col + 1) ≤ i := hocc
    refine ⟨by omega, ?_⟩
    show (r.inner.modify col f)[i]? = r.inner[i]?
    rw [List.getElem?_modify]
    have hne : col ≠ i := by omega
    simp [hne]
  · rintro ⟨c, hc, hmarked⟩
    obtain ⟨i, hi, rfl⟩ := List.mem_iff_getElem.mp (show c ∈ r.inner.modify col f from hc)
    have hi' : i < r.inner.length := by simpa using hi
    rw [List.getElem_modify] at hmarked
    split at hmarked
    next hcol =>
      subst hcol
      have hcell : r.cell col = r.inner[col] := by
        rw [cell, List.getD_eq_getElem?_getD, List.getElem?_eq_getElem hi', Option.getD_some]
      rw [hcell] at hf
      exact (hf hmarked).imp_left fun h => ⟨_, List.getElem_mem hi', h⟩
    next => exact .inl ⟨_, List.getElem_mem hi', hmarked⟩

/-- The cells of some columns are overwritten. -/
theorem edited_fill (r : Row Square) (start stop : ℕ) {c : Square} (hc : ¬ marked c.c) :
    r.Edited marked (r.fill start stop c) := by
  refine ⟨by simp [len, fill], fun i hocc hi => ?_, id, ?_⟩
  · have hmax : max r.occ stop ≤ i := hocc
    refine ⟨by omega, ?_⟩
    show (r.inner.mapIdx _)[i]? = r.inner[i]?
    rw [List.getElem?_mapIdx, List.getElem?_eq_getElem hi, Option.map_some,
      if_neg (by omega)]
  · rintro ⟨d, hd, hmarked⟩
    obtain ⟨i, hi, rfl⟩ := List.mem_mapIdx.mp hd
    split at hmarked
    · exact absurd hmarked hc
    · exact .inl ⟨_, List.getElem_mem hi, hmarked⟩

theorem edited_modifyAll (r : Row Square) {f : List Square → List Square}
    (hf : (f r.inner).Perm r.inner) : r.Edited marked (r.modifyAll f) :=
  edited_of_full hf.length_eq rfl rfl fun c hc hmarked => ⟨c, hf.subset hc, hmarked⟩

theorem edited_fillFrom (r : Row Square) (start : ℕ) {c : Square} (hc : ¬ marked c.c) :
    r.Edited marked (r.fillFrom start c) := by
  refine edited_of_full (by simp [len, fillFrom, modifyAll]) rfl rfl fun d hd hmarked => ?_
  obtain ⟨i, hi, rfl⟩ := List.mem_mapIdx.mp hd
  split at hmarked
  · exact absurd hmarked hc
  · exact ⟨_, List.getElem_mem hi, hmarked⟩

end Row

/-- A grid that is being resized, once its lines have been added or removed. -/
def Grid.withLines (g : Grid Square) (lines : ℕ) : Grid Square :=
  let g := { g with cursor := { g.cursor with template := default } }
  if g.lines < lines then g.growLines lines
  else if lines < g.lines then g.shrinkLines lines
  else g

/-- What holds of blank rows, and of a row after an edit if it held before. -/
structure RowLaw (marked : Char → Prop) (P : Row Square → Prop) : Prop where
  cleared : ∀ r : Row Square, r.Cleared → P r
  edited : ∀ r r' : Row Square, r.Edited marked r' → P r → P r'

namespace Storage

/-- A change of one row, for which that row itself may be relied on. -/
theorem AllRows.modify_row {α : Type} {P : Row α → Prop} {s : Storage α} (h : s.AllRows P)
    (a : ℤ) {f : Row α → Row α}
    (hf : s.computeIndex a < s.inner.length → P (s.row a) → P (f (s.row a))) :
    (s.modify a f).AllRows P := by
  intro r hr
  have hmem : r ∈ s.inner.modify (s.computeIndex a) f := hr
  obtain ⟨i, hi, rfl⟩ := List.mem_iff_getElem.mp hmem
  have hi' : i < s.inner.length := by simpa using hi
  rw [List.getElem_modify]
  split
  next hindex =>
    subst hindex
    have hrow : s.row a = s.inner[s.computeIndex a] := by
      rw [row, List.getD_eq_getElem?_getD, List.getElem?_eq_getElem hi', Option.getD_some]
    rw [← hrow]
    exact hf hi' (hrow ▸ h _ (List.getElem_mem hi'))
  next => exact h _ (List.getElem_mem hi')

theorem computeIndex_modify {α : Type} (s : Storage α) (a : ℤ) (f : Row α → Row α) (l : ℤ) :
    (s.modify a f).computeIndex l = s.computeIndex l := by
  unfold computeIndex
  rw [modify_length]
  rfl

/-- The row of a line that has been stored, after a change of some row. -/
theorem row_modify_of_lt {α : Type} {s : Storage α} {l : ℤ}
    (hl : s.computeIndex l < s.inner.length) (a : ℤ) (f : Row α → Row α) :
    (s.modify a f).row l =
      if s.computeIndex a = s.computeIndex l then f (s.row l) else s.row l := by
  unfold row
  rw [computeIndex_modify, List.getD_eq_getElem?_getD, List.getD_eq_getElem?_getD]
  show ((s.inner.modify (s.computeIndex a) f)[s.computeIndex l]?).getD default = _
  rw [List.getElem?_modify, List.getElem?_eq_getElem hl]
  split_ifs <;> rfl

theorem AllRows.rotate {α : Type} {P : Row α → Prop} {s : Storage α} (h : s.AllRows P)
    (count : ℤ) : (s.rotate count).AllRows P := h

theorem AllRows.rotateDown {α : Type} {P : Row α → Prop} {s : Storage α} (h : s.AllRows P)
    (count : ℕ) : (s.rotateDown count).AllRows P := h

end Storage

namespace RowLaw

variable {marked : Char → Prop} {P : Row Square → Prop} {g : Grid Square}

theorem new (law : RowLaw marked P) (lines columns limit : ℕ) :
    (Grid.new lines columns limit : Grid Square).raw.AllRows P :=
  fun _ hr => law.cleared _ (List.eq_of_mem_replicate hr ▸ Row.new_cleared columns)

theorem reset (law : RowLaw marked P) (template : Square) (r : Row Square) :
    P r → P (r.reset template) :=
  fun _ => law.cleared _ (r.reset_cleared template)

theorem markDirty (law : RowLaw marked P) (r : Row Square) : P r → P r.markDirty :=
  law.edited _ _ r.edited_markDirty

theorem modifyRow (law : RowLaw marked P) (h : g.raw.AllRows P) (line : ℤ)
    {f : Row Square → Row Square} (hf : ∀ r : Row Square, r.Edited marked (f r)) :
    (g.modifyRow line f).raw.AllRows P :=
  h.modify line fun r => law.edited _ _ (hf r)

theorem modifyCell (law : RowLaw marked P) (h : g.raw.AllRows P) (p : Pos) {f : Square → Square}
    (hf : ∀ c, marked (f c).c → marked c.c) : (g.modifyCell p f).raw.AllRows P :=
  law.modifyRow h p.row fun r => r.edited_modify p.col fun hc => .inl (hf _ hc)

/-- A cell is overwritten. -/
theorem overwriteCell (law : RowLaw marked P) (h : g.raw.AllRows P) (p : Pos) {cell : Square}
    (hcell : marked cell.c → marked (g.cell p).c) :
    (g.modifyCell p fun _ => cell).raw.AllRows P :=
  h.modify_row p.row fun _ hrow =>
    law.edited _ _ (Row.edited_modify _ p.col fun hc => .inl (hcell hc)) hrow

theorem increaseScrollLimit (law : RowLaw marked P) (h : g.raw.AllRows P) (count : ℕ) :
    (g.increaseScrollLimit count).raw.AllRows P := by
  unfold Grid.increaseScrollLimit
  dsimp only
  split_ifs
  · exact h.initializeRows _ _ (law.cleared _ (Row.new_cleared _))
  · exact h

theorem resetLines (law : RowLaw marked P) {s : Storage Square} (h : s.AllRows P)
    (template : Square) (lines : List ℤ) : (s.resetLines template lines).AllRows P :=
  h.resetLines (law.reset template) lines

theorem scrollUp (law : RowLaw marked P) (h : g.raw.AllRows P) (region : Region) (positions : ℕ) :
    (g.scrollUp region positions).raw.AllRows P := by
  have hheld : (g.holdDisplay positions).raw.AllRows P := h
  have hmoved := law.increaseScrollLimit hheld positions
  unfold Grid.scrollUp
  split
  · exact law.resetLines h _ _
  · dsimp only
    split
    · have hrotated := (hmoved.swapLines positions (lineRange 0 region.start).reverse).rotate
        (-(positions : ℤ))
      exact (law.resetLines (hrotated.swapLines _ _) _ _).markLines law.markDirty _
    · exact (law.resetLines (hheld.swapLines _ _) _ _).markLines law.markDirty _

theorem scrollDown (law : RowLaw marked P) (h : g.raw.AllRows P) (region : Region) (positions : ℕ) :
    (g.scrollDown region positions).raw.AllRows P := by
  unfold Grid.scrollDown
  split
  · exact law.resetLines h _ _
  · dsimp only
    refine Storage.AllRows.markLines ?_ law.markDirty _
    split
    · have hrotated := (h.swapLines (-(positions : ℤ)) (lineRange region.stop g.lines)).rotateDown
        positions
      exact (law.resetLines hrotated _ _).swapLines _ _
    · exact law.resetLines (h.swapLines _ _) _ _

theorem resetRegion (law : RowLaw marked P) (h : g.raw.AllRows P) (region : Region) :
    (g.resetRegion region).raw.AllRows P :=
  law.resetLines h _ _

theorem clearViewport (law : RowLaw marked P) (h : g.raw.AllRows P) : g.clearViewport.raw.AllRows P :=
  law.resetLines (law.scrollUp h _ _) _ _

theorem gridReset (law : RowLaw marked P) (h : g.raw.AllRows P) : g.reset.raw.AllRows P :=
  law.resetLines (h.shrinkLines _) _ _

theorem updateHistory (h : g.raw.AllRows P) (size : ℕ) : (g.updateHistory size).raw.AllRows P := by
  unfold Grid.updateHistory
  dsimp only
  split_ifs
  · exact h.shrinkLines _
  · exact h

theorem decreaseScrollLimit (h : g.raw.AllRows P) (count : ℕ) :
    (g.decreaseScrollLimit count).raw.AllRows P := by
  unfold Grid.decreaseScrollLimit
  dsimp only
  split_ifs
  · exact h.shrinkLines _
  · exact h

/-! ### More or fewer lines -/

theorem growLines (law : RowLaw marked P) (h : g.raw.AllRows P) (target : ℕ) :
    (g.growLines target).raw.AllRows P := by
  have hgrown : (g.raw.growVisibleLines target).AllRows P :=
    fun r hr => h.initializeRows _ _ (law.cleared _ (Row.new_cleared _)) r hr
  unfold Grid.growLines
  dsimp only
  refine decreaseScrollLimit ?_ _
  split_ifs
  · exact law.scrollUp (g := { g with raw := g.raw.growVisibleLines target, lines := target })
      hgrown _ _
  · exact hgrown

theorem shrinkLines (law : RowLaw marked P) (h : g.raw.AllRows P) (target : ℕ) :
    (g.shrinkLines target).raw.AllRows P := by
  unfold Grid.shrinkLines
  dsimp only
  refine fun r hr => Storage.AllRows.shrinkLines (P := P) ?_ _ r hr
  split_ifs
  · exact law.scrollUp h _ _
  · exact h

theorem withLines (law : RowLaw marked P) (h : g.raw.AllRows P) (lines : ℕ) :
    (g.withLines lines).raw.AllRows P := by
  unfold Grid.withLines
  dsimp only
  split_ifs
  · exact law.growLines (g := { g with cursor := { g.cursor with template := default } }) h _
  · exact law.shrinkLines (g := { g with cursor := { g.cursor with template := default } }) h _
  · exact h

/-- A resize keeps what the change of the columns keeps. -/
theorem resize (law : RowLaw marked P) (h : g.raw.AllRows P) {reflow : Bool} {lines columns : ℕ}
    (hgrow : (g.withLines lines).columns < columns → (g.withLines lines).raw.AllRows P →
      ((g.withLines lines).growColumns reflow columns).raw.AllRows P)
    (hshrink : columns < (g.withLines lines).columns → (g.withLines lines).raw.AllRows P →
      ((g.withLines lines).shrinkColumns reflow columns).raw.AllRows P) :
    (g.resize reflow lines columns).raw.AllRows P := by
  have hlined := law.withLines h lines
  show (if (g.withLines lines).columns < columns then (g.withLines lines).growColumns reflow columns
    else if columns < (g.withLines lines).columns then
      (g.withLines lines).shrinkColumns reflow columns
    else g.withLines lines).raw.AllRows P
  split_ifs with hwide hnarrow
  · exact hgrow hwide hlined
  · exact hshrink hnarrow hlined
  · exact hlined

end RowLaw
end Rio
