import Rio.Kitty.Placeholders

/-! Rows with placeholders carry the flag that the renderer looks for. A reflow that moves a
placeholder into a row without the flag is what can break this. -/

set_option linter.dupNamespace false

namespace Rio
open Rio.Runs

namespace Row

variable {marked : Char → Prop} {r : Row Square} {cells : List Square}

/-- Some of the cells have a marked character. -/
def Marked (marked : Char → Prop) (cells : List Square) : Prop := ∃ c ∈ cells, marked c.c

instance [DecidablePred marked] (cells : List Square) : Decidable (Marked marked cells) :=
  inferInstanceAs (Decidable (∃ c ∈ cells, _))

/-- A row with a marked character has the flag. -/
def Flagged (marked : Char → Prop) (r : Row Square) : Prop :=
  Marked marked r.inner → r.kittyVirtualPlaceholder = true

theorem Marked.of_subset {cells' : List Square} (h : Marked marked cells)
    (hsub : ∀ c ∈ cells, c ∈ cells') : Marked marked cells' := by
  obtain ⟨c, hc, hmarked⟩ := h
  exact ⟨c, hsub c hc, hmarked⟩

theorem marked_append {cells' : List Square} :
    Marked marked (cells ++ cells') ↔ Marked marked cells ∨ Marked marked cells' := by
  constructor
  · rintro ⟨c, hc, hmarked⟩
    exact (List.mem_append.mp hc).imp (fun h => ⟨c, h, hmarked⟩) fun h => ⟨c, h, hmarked⟩
  · rintro (h | h)
    · exact h.of_subset fun _ => List.mem_append_left _
    · exact h.of_subset fun _ => List.mem_append_right _

theorem not_marked_replicate (hblank : ¬ marked (default : Square).c) (n : ℕ) :
    ¬ Marked marked (List.replicate n default) := by
  rintro ⟨c, hc, hmarked⟩
  rw [List.eq_of_mem_replicate hc] at hmarked
  exact hblank hmarked

theorem Flagged.of_subset {r' : Row Square} (h : r.Flagged marked)
    (hsub : ∀ c ∈ r'.inner, c ∈ r.inner)
    (hflag : r'.kittyVirtualPlaceholder = r.kittyVirtualPlaceholder) : r'.Flagged marked :=
  fun hmarked => hflag.trans (h (hmarked.of_subset hsub))

theorem Flagged.shrink (h : r.Flagged marked) (columns : ℕ) :
    (r.shrink columns).1.Flagged marked := by
  unfold Row.shrink
  split_ifs
  · exact h
  · exact h.of_subset (fun c hc => List.mem_of_mem_take hc) rfl

theorem Flagged.append (h : r.Flagged marked)
    (hcells : Marked marked cells → r.kittyVirtualPlaceholder = true) :
    (r.append cells).Flagged marked :=
  fun hmarked => (marked_append.mp hmarked).elim h hcells

theorem Flagged.appendFront (h : r.Flagged marked)
    (hcells : Marked marked cells → r.kittyVirtualPlaceholder = true) :
    (r.appendFront cells).Flagged marked :=
  fun hmarked => (marked_append.mp hmarked).elim hcells h

theorem Flagged.grow (hblank : ¬ marked (default : Square).c) (h : r.Flagged marked)
    (columns : ℕ) : (r.grow columns).Flagged marked :=
  fun hmarked => (marked_append.mp hmarked).elim h fun hnew =>
    absurd hnew (not_marked_replicate hblank _)

/-- What is left of a row that is begun, once it has been cut. -/
theorem begun_flagged (columns : ℕ) {vec : List Square} {occ : ℕ}
    (h : ¬ Marked marked (vec.take columns)) :
    ((fromVec vec occ).shrink columns).1.Flagged marked := by
  unfold Row.shrink
  split_ifs with hlen
  · have hshort : vec.length ≤ columns := hlen
    rw [List.take_of_length_le hshort] at h
    exact fun hmarked => absurd hmarked h
  · exact fun hmarked => absurd hmarked h

theorem flaggedLaw (hblank : ¬ marked (default : Square).c) :
    RowLaw marked (Flagged marked) where
  cleared r h := by
    obtain ⟨-, id, hcells⟩ := h
    rintro ⟨c, hc, hmarked⟩
    rw [hcells c hc] at hmarked
    exact absurd hmarked hblank
  edited r r' h hr hmarked := (h.marks hmarked).elim (fun hold => h.flag (hr hold)) id

theorem flaggedGrowLaw (hblank : ¬ marked (default : Square).c) :
    Grid.GrowLaw marked (Flagged marked) fun _ cells lastRow _ =>
      Marked marked cells → lastRow.kittyVirtualPlaceholder = true where
  toRowLaw := flaggedLaw hblank
  shrink _ columns h := h.shrink columns
  pull row cells lastRow rest numWrapped hpull hcells hrow hlast := by
    refine ⟨hlast.append hcells, ?_⟩
    obtain rfl : rest = (Grid.pullCells row numWrapped).2.1 := (congrArg Prod.fst hpull).symm
    unfold Grid.pullCells
    dsimp only
    split_ifs
    · exact hrow.of_subset (fun c hc => List.mem_of_mem_drop hc) rfl
    · exact hrow.of_subset (fun c hc => List.mem_of_mem_drop hc) rfl

theorem flaggedShrinkLaw (hblank : ¬ marked (default : Square).c) (columns : ℕ) :
    Grid.ShrinkLaw marked (Flagged marked) columns
      (fun cells row => Marked marked cells → row.kittyVirtualPlaceholder = true)
      fun row => ¬ Marked marked (row.inner.take columns) where
  toRowLaw := flaggedLaw hblank
  shrink _ h := h.shrink columns
  front _ _ hcells h := h.appendFront hcells
  begin_ _ h := begun_flagged columns h
  blank := hblank

end Row

open Crosswords (kittyPlaceholder)

/-- Whether a character is the kitty placeholder. -/
abbrev IsPlaceholder (c : Char) : Prop := c = kittyPlaceholder

namespace Grid

variable {g : Grid Square}

/-- When the number of columns changes, placeholders move only into rows that have the flag: cells
that are pulled up from the next row or put in front of it, and the cells of the rows that are
begun, as far as they stay there. -/
def KeepsPlaceholders (g : Grid Square) (reflow : Bool) (columns : ℕ) : Prop :=
  (g.columns < columns → g.GrowsBy (fun _ cells lastRow _ =>
      Row.Marked IsPlaceholder cells → lastRow.kittyVirtualPlaceholder = true) reflow columns) ∧
    (columns < g.columns → g.ShrinksBy
      (fun cells row => Row.Marked IsPlaceholder cells → row.kittyVirtualPlaceholder = true)
      (fun row => ¬ Row.Marked IsPlaceholder (row.inner.take columns)) reflow columns)

instance (g : Grid Square) (reflow : Bool) (columns : ℕ) :
    Decidable (g.KeepsPlaceholders reflow columns) :=
  inferInstanceAs (Decidable (_ ∧ _))

theorem flagged_resize (h : g.raw.AllRows (Row.Flagged IsPlaceholder)) {reflow : Bool}
    {lines columns : ℕ} (hkeeps : (g.withLines lines).KeepsPlaceholders reflow columns) :
    (g.resize reflow lines columns).raw.AllRows (Row.Flagged IsPlaceholder) := by
  have hblank : ¬ IsPlaceholder (default : Square).c := by decide
  refine (Row.flaggedLaw hblank).resize h (fun hwide hlined => ?_) fun hnarrow hlined => ?_
  · exact (Row.flaggedGrowLaw hblank).growColumns hlined (hkeeps.1 hwide) fun _ _ hflagged =>
      hflagged.grow hblank columns
  · exact (Row.flaggedShrinkLaw hblank columns).shrinkColumns hlined (hkeeps.2 hnarrow)

end Grid

namespace Kitty

/-- A terminal and what the renderer holds of it. -/
structure Shown where
  terminal : Crosswords
  snapshot : Snapshot

namespace Shown

/-- An operation on the terminal, or a frame. -/
inductive Event
  | op (op : Op)
  | frame (damage : TerminalDamage) (cols : ℕ)

def new (columns lines limit : ℕ) : Shown := ⟨.new columns lines limit, ⟨[], [], []⟩⟩

def step (u : Unicode) (s : Shown) : Event → Shown
  | .op op => { s with terminal := s.terminal.step u op }
  | .frame damage cols =>
    let (terminal, snapshot) := s.terminal.snapshotVisible damage cols s.snapshot
    ⟨terminal, snapshot⟩

def run (u : Unicode) (s : Shown) (events : List Event) : Shown := events.foldl (step u) s

/-- A resize of either screen moves placeholders only into rows that have the flag. -/
def KeepsPlaceholders (s : Shown) : Event → Prop
  | .op (.resize numCols numLines _ _) =>
    let t := s.terminal
    ¬ (t.grid.columns = numCols ∧ t.grid.lines = numLines) →
      (t.grid.withLines numLines).KeepsPlaceholders (!t.mode.altScreen) numCols ∧
        (t.inactiveGrid.withLines numLines).KeepsPlaceholders t.mode.altScreen numCols
  | _ => True

instance (s : Shown) (event : Event) : Decidable (s.KeepsPlaceholders event) := by
  unfold KeepsPlaceholders
  split <;> exact inferInstance

/-- All rows of both screens, and all rows that the renderer holds, have the flag if they have a
placeholder. -/
def RowsFlagged (s : Shown) : Prop :=
  s.terminal.AllRows (Row.Flagged IsPlaceholder) ∧
    ∀ r ∈ s.snapshot.visibleRows, r.Flagged IsPlaceholder

/-- The overlays of all visible rows, none skipped. -/
def scannedOverlays {Overlay : Type} (flush : PlaceholderRun → ℕ → ℕ → Option Overlay)
    (s : Snapshot) (columns : ℕ) : List Overlay :=
  s.visibleRows.zipIdx.flatMap (rowOverlays flush s columns)

theorem overlays_eq_scanned {Overlay : Type} (flush : PlaceholderRun → ℕ → ℕ → Option Overlay)
    {s : Snapshot} (h : ∀ r ∈ s.visibleRows, r.Flagged IsPlaceholder) (columns : ℕ) :
    virtualPlaceholderOverlays flush s columns = scannedOverlays flush s columns := by
  unfold virtualPlaceholderOverlays scannedOverlays
  refine List.flatMap_congr fun x hx => ?_
  obtain ⟨hlt, heq⟩ := List.mem_zipIdx' hx
  have hflagged : x.1.Flagged IsPlaceholder := heq ▸ h _ (List.getElem_mem hlt)
  split_ifs with hskip
  · refine (rowOverlays_eq_nil flush s columns fun c hc hplaceholder => ?_).symm
    rw [hflagged ⟨c, hc, hplaceholder⟩] at hskip
    exact absurd hskip (by decide)
  · rfl

/-- What the tables say about the placeholder. -/
theorem placeholderMarks {u : Unicode} (hwidth : u.width kittyPlaceholder = some 1)
    (hbase : ∀ selector, u.vsIsValidBase kittyPlaceholder selector = false) :
    Marks u IsPlaceholder :=
  ⟨fun _ h => h, fun _ h => h ▸ hwidth, fun _ selector h => h ▸ hbase selector⟩

theorem new_rowsFlagged (columns lines limit : ℕ) : (new columns lines limit).RowsFlagged :=
  ⟨Crosswords.new_allRows (Row.flaggedLaw (by decide)) columns lines limit, by simp [new]⟩

theorem step_rowsFlagged {u : Unicode} (hm : Marks u IsPlaceholder) {s : Shown}
    (h : s.RowsFlagged) {event : Event} (hkeeps : s.KeepsPlaceholders event) :
    (s.step u event).RowsFlagged := by
  have law : RowLaw IsPlaceholder (Row.Flagged IsPlaceholder) := Row.flaggedLaw (by decide)
  cases event with
  | op op =>
    refine ⟨Crosswords.step_allRows law hm h.1 op ?_, h.2⟩
    rintro numCols numLines cellWidth cellHeight rfl hsize
    exact ⟨Grid.flagged_resize h.1.1 (hkeeps hsize).1, Grid.flagged_resize h.1.2 (hkeeps hsize).2⟩
  | frame damage cols => exact Crosswords.snapshotVisible_allRows law h.1 damage cols h.2

/-- As long as no resize moves a placeholder into a row without the flag, every row of either
screen that has a placeholder has the flag, and so have the copies, and the rows that the
renderer skips have no overlays. -/
theorem run_rowsFlagged {Overlay : Type} {u : Unicode}
    (hwidth : u.width kittyPlaceholder = some 1)
    (hbase : ∀ selector, u.vsIsValidBase kittyPlaceholder selector = false)
    (flush : PlaceholderRun → ℕ → ℕ → Option Overlay) (columns lines limit : ℕ)
    {events : List Event}
    (hkeeps : Permitted (step u) KeepsPlaceholders (new columns lines limit) events) :
    ((new columns lines limit).run u events).RowsFlagged ∧
      ∀ cols, virtualPlaceholderOverlays flush ((new columns lines limit).run u events).snapshot
          cols =
        scannedOverlays flush ((new columns lines limit).run u events).snapshot cols := by
  have hflagged : ((new columns lines limit).run u events).RowsFlagged :=
    invariant (I := RowsFlagged)
      (fun _ _ h hevent => step_rowsFlagged (placeholderMarks hwidth hbase) h hevent) events _
      (new_rowsFlagged columns lines limit) hkeeps
  exact ⟨hflagged, overlays_eq_scanned flush hflagged.2⟩

theorem run_rowsFlagged_narrowed :
    ((new 3 2 4).run .basic
      [.op (.input kittyPlaceholder), .op (.resize 2 2 0 0), .frame .full 2]).RowsFlagged ∧
      ∀ cols, virtualPlaceholderOverlays (fun run line col => some (run, line, col))
          ((new 3 2 4).run .basic
            [.op (.input kittyPlaceholder), .op (.resize 2 2 0 0), .frame .full 2]).snapshot
          cols =
        scannedOverlays (fun run line col => some (run, line, col))
          ((new 3 2 4).run .basic
            [.op (.input kittyPlaceholder), .op (.resize 2 2 0 0), .frame .full 2]).snapshot
          cols :=
  run_rowsFlagged (by decide) (fun _ => rfl) _ 3 2 4 (by decide)

/-- A placeholder in the last column of three moves to a row of its own when the terminal is
narrowed to two columns. -/
theorem narrowed_placeholder_loses_flag :
    ¬ ∀ events : List Event, ((new 3 2 0).run .basic events).RowsFlagged := by
  intro h
  have hrow := (h [.op (.goto 0 2), .op (.input kittyPlaceholder), .op (.resize 2 2 0 0)]).1.1
    (((new 3 2 0).run .basic
      [.op (.goto 0 2), .op (.input kittyPlaceholder), .op (.resize 2 2 0 0)]).terminal.grid.row 0)
    (by decide)
  exact absurd (hrow (by decide)) (by decide)

end Shown
end Kitty
end Rio
