import Rio.Crosswords.RowStyles

/-! The copy of the visible rows that is handed to the renderer, and refreshed row by row. -/

set_option linter.dupNamespace false

namespace Rio

/-- What changed since the last frame. -/
inductive TerminalDamage
  | noop
  | full
  /-- At least one row changed; the rows carry dirty marks. -/
  | partialRows
  | cursorOnly
  deriving DecidableEq, Repr

/-- The buffers of the renderer. The entry of an extras id that was inserted last is the first
one. -/
structure Snapshot where
  visibleRows : List (Row Square)
  cellStyles : List Style
  extras : List (ExtrasId × Extras)
  deriving DecidableEq, Repr

namespace Grid

/-- Insert every extras id that the cells of a row refer to. -/
def refreshRowExtras (g : Grid Square) (row : Row Square) (extras : List (ExtrasId × Extras)) :
    List (ExtrasId × Extras) :=
  row.inner.foldl
    (fun extras square =>
      match square.extrasId with
      | none => extras
      | some id =>
        match g.extrasTable.get id with
        | none => extras
        | some live => (id, live) :: extras) extras

/-- The lines on display. -/
def visibleLines (g : Grid Square) : List ℤ :=
  lineRange (-(g.displayOffset : ℤ)) (g.lines - (g.displayOffset : ℤ))

/-- Remove the dirty marks of some lines. -/
def unmarkLines (g : Grid Square) (lines : List ℤ) : Grid Square :=
  { g with
    raw := lines.foldl (fun s line => s.modify line fun r => { r with dirty := false }) g.raw }

/-- Copy the row of a line to place `y`, if it is dirty. -/
def refreshRow (g : Grid Square) (cols : ℕ) (dst : Snapshot) (place : ℤ × ℕ) : Snapshot :=
  let (line, y) := place
  let src := g.row line
  if !src.dirty then dst
  else
    let off := y * cols
    { visibleRows := dst.visibleRows.modify y fun row => { row.copyFrom src with dirty := true }
      cellStyles :=
        dst.cellStyles.take off ++
          g.materializeRowStylesAt src cols ((dst.cellStyles.drop off).take cols) ++
          dst.cellStyles.drop (off + cols)
      extras := g.refreshRowExtras src dst.extras }

end Grid

namespace Crosswords

/-- Copy the visible rows, all of them or those that are dirty. -/
def snapshotVisible (t : Crosswords) (damage : TerminalDamage) (cols : ℕ) (dst : Snapshot) :
    Crosswords × Snapshot :=
  let g := t.grid
  let lines := g.visibleLines
  let needsFull :=
    damage = .full ∨ dst.visibleRows.length ≠ g.lines ∨ dst.cellStyles.length ≠ g.lines * cols
  if needsFull then
    let rows := lines.map g.row
    ({ t with grid := g.unmarkLines lines },
      { visibleRows := rows.map Row.markDirty
        cellStyles := rows.foldl (fun styles row => g.materializeRowStyles row cols styles) []
        extras := rows.foldl (fun extras row => g.refreshRowExtras row extras) [] })
  else if damage = .noop ∨ damage = .cursorOnly then (t, dst)
  else ({ t with grid := g.unmarkLines lines }, lines.zipIdx.foldl (g.refreshRow cols) dst)

variable {marked : Char → Prop} {P : Row Square → Prop} {t : Crosswords}

theorem allRows_row (law : RowLaw marked P) {g : Grid Square} (h : g.raw.AllRows P) (line : ℤ) :
    P (g.row line) := by
  unfold Grid.row Storage.row
  rw [List.getD_eq_getElem?_getD]
  rcases hrow : g.raw.inner[g.raw.computeIndex line]? with _ | r
  · exact law.cleared _ ⟨rfl, defaultStyleId, by simp [default]⟩
  · exact h r (List.mem_of_getElem? hrow)

theorem RowLaw.setDirty (law : RowLaw marked P) {r : Row Square} (h : P r) (on : Bool) :
    P { r with dirty := on } :=
  law.edited r _ ⟨rfl, fun _ hocc _ => ⟨hocc, rfl⟩, id, .inl⟩ h

theorem allRows_unmarkLines (law : RowLaw marked P) {g : Grid Square} (h : g.raw.AllRows P)
    (lines : List ℤ) : (g.unmarkLines lines).raw.AllRows P :=
  Storage.AllRows.foldl
    (fun _ line h => h.modify line fun _ hr => RowLaw.setDirty law hr false) lines h

theorem allRows_refreshRow (law : RowLaw marked P) {g : Grid Square} (h : g.raw.AllRows P)
    (cols : ℕ) {dst : Snapshot} (hdst : ∀ r ∈ dst.visibleRows, P r) (place : ℤ × ℕ) :
    ∀ r ∈ (g.refreshRow cols dst place).visibleRows, P r := by
  unfold Grid.refreshRow
  dsimp only
  split_ifs
  · exact hdst
  · intro r hr
    obtain ⟨i, hi, rfl⟩ := List.mem_iff_getElem.mp hr
    have hi' : i < dst.visibleRows.length := by simpa using hi
    dsimp only
    rw [List.getElem_modify]
    split
    · exact RowLaw.setDirty law (allRows_row law h place.1) true
    · exact hdst _ (List.getElem_mem hi')

theorem allRows_refreshRows (law : RowLaw marked P) {g : Grid Square} (h : g.raw.AllRows P)
    (cols : ℕ) : ∀ (places : List (ℤ × ℕ)) {dst : Snapshot}, (∀ r ∈ dst.visibleRows, P r) →
      ∀ r ∈ (places.foldl (g.refreshRow cols) dst).visibleRows, P r
  | [], _, hdst => hdst
  | place :: places, _, hdst =>
    allRows_refreshRows law h cols places (allRows_refreshRow law h cols hdst place)

/-- What holds of all rows holds of their copies. -/
theorem snapshotVisible_allRows (law : RowLaw marked P) (h : t.AllRows P) (damage : TerminalDamage)
    (cols : ℕ) {dst : Snapshot} (hdst : ∀ r ∈ dst.visibleRows, P r) :
    (t.snapshotVisible damage cols dst).1.AllRows P ∧
      ∀ r ∈ (t.snapshotVisible damage cols dst).2.visibleRows, P r := by
  have hunmarked : ({ t with grid := t.grid.unmarkLines t.grid.visibleLines } :
      Crosswords).AllRows P :=
    ⟨allRows_unmarkLines law h.1 _, h.2⟩
  unfold snapshotVisible
  dsimp only
  split_ifs
  · refine ⟨hunmarked, fun r hr => ?_⟩
    obtain ⟨r', hr', rfl⟩ := List.mem_map.mp hr
    obtain ⟨line, -, rfl⟩ := List.mem_map.mp hr'
    exact law.markDirty _ (allRows_row law h.1 line)
  · exact ⟨h, hdst⟩
  · exact ⟨hunmarked, allRows_refreshRows law h.1 cols _ hdst⟩

end Crosswords
end Rio
