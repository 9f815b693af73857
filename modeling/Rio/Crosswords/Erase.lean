import Rio.Crosswords.LineEdits
import Rio.Grid.Origin

/-! Erasing: which cells an operation blanks, and with what. -/

set_option linter.dupNamespace false

namespace Rio

/-- A cell without text. -/
def Square.IsBlank (c : Square) : Prop :=
  c.c = '\x00' ∧ c.wide = .narrow ∧ c.flags = {} ∧ (c.isBgOnly = true ∨ c.extrasId = none)

instance (c : Square) : Decidable c.IsBlank := inferInstanceAs (Decidable (_ ∧ _ ∧ _ ∧ _))

theorem Square.isBlank_reset (c template : Square) : (c.reset template).IsBlank :=
  ⟨rfl, rfl, rfl, .inr rfl⟩

namespace Row

variable {r : Row Square} {col : ℕ}

theorem cell_fill (start stop : ℕ) (c : Square) (hcol : col < r.len) :
    (r.fill start stop c).cell col = if start ≤ col ∧ col < stop then c else r.cell col := by
  have hcells := getElem?_overwrite (fun i => start ≤ i ∧ i < stop) r.inner c col
  unfold cell
  rw [List.getD_eq_getElem?_getD, List.getD_eq_getElem?_getD]
  refine (congrArg (fun o : Option Square => o.getD default) hcells).trans ?_
  split_ifs with hboth hin hin
  · rfl
  · exact absurd hboth.1 hin
  · exact absurd ⟨hin, hcol⟩ hboth
  · rfl

theorem cell_fillFrom (start : ℕ) (c : Square) (hcol : col < r.len) :
    (r.fillFrom start c).cell col = if start ≤ col then c else r.cell col := by
  have hcells := getElem?_overwrite (fun i => start ≤ i) r.inner c col
  unfold cell
  rw [List.getD_eq_getElem?_getD, List.getD_eq_getElem?_getD]
  refine (congrArg (fun o : Option Square => o.getD default) hcells).trans ?_
  split_ifs with hboth hin hin
  · rfl
  · exact absurd hboth.1 hin
  · exact absurd ⟨hin, hcol⟩ hboth
  · rfl

theorem cell_reset (template : Square) (hcol : col < r.len) :
    (r.reset template).cell col = Square.reset default template := by
  unfold cell reset
  dsimp only
  rw [List.getD_eq_getElem?_getD, List.getElem?_map, List.getElem?_eq_getElem hcol]
  rfl

end Row

namespace Grid

variable {g : Grid Square}

theorem isBlank_templateBlank (g : Grid Square) : g.templateBlank.2.IsBlank := by
  unfold templateBlank blankWithBg
  cases (g.styleOf g.cursor.template).bg with
  | named n =>
    dsimp only
    split_ifs
    · exact ⟨rfl, rfl, rfl, .inr rfl⟩
    · exact ⟨rfl, rfl, rfl, .inl rfl⟩
    · exact ⟨rfl, rfl, rfl, .inr rfl⟩
  | spec r g' b => exact ⟨rfl, rfl, rfl, .inl rfl⟩
  | indexed i => exact ⟨rfl, rfl, rfl, .inl rfl⟩

theorem cell_modifyRow (hg : g.WellFormed) {line : ℤ} (htop : g.topmostLine ≤ line)
    (hline : line < g.lines) {p : Pos} (hp : g.HasCell p) (f : Row Square → Row Square) :
    (g.modifyRow line f).cell p =
      if p.row = line then (f (g.row line)).cell p.col else g.cell p := by
  unfold cell
  rw [row_modifyRow hg htop hline hp.1 hp.2.1]
  split_ifs <;> rfl

theorem cell_resetRegion (hg : g.WellFormed) {r : Region} (hstart : g.topmostLine ≤ r.start)
    (hstop : r.stop ≤ g.lines) {p : Pos} (hp : g.HasCell p) :
    (g.resetRegion r).cell p =
      if r.start ≤ p.row ∧ p.row < r.stop then Square.reset default g.cursor.template
      else g.cell p := by
  have hbounds : ∀ l ∈ lineRange r.start r.stop, g.raw.InBounds l := by
    intro l hl
    have hrange := mem_lineRange.mp hl
    exact hg.inBounds (hstart.trans hrange.1) (by omega)
  have hrow : (g.resetRegion r).row p.row = if p.row ∈ lineRange r.start r.stop then
      (g.row p.row).reset g.cursor.template else g.row p.row :=
    Storage.row_resetLines hg.storage _ (nodup_lineRange _ _) hbounds (hg.inBounds hp.1 hp.2.1)
  unfold cell
  rw [hrow, if_congr mem_lineRange rfl rfl]
  split_ifs
  · refine Row.cell_reset _ ?_
    have hlen := row_len hg hp.1 hp.2.1
    exact hp.2.2.trans_eq hlen.symm
  · rfl

end Grid

namespace Crosswords

variable {t t' : Crosswords}

/-- Some cells get a value, and the others stay. -/
structure Overwrites (t t' : Crosswords) (value : Pos → Option Square) : Prop where
  lines : t'.grid.lines = t.grid.lines
  columns : t'.grid.columns = t.grid.columns
  history : t'.grid.historySize = t.grid.historySize
  cells : ∀ p, t.grid.HasCell p → t'.grid.cell p = (value p).getD (t.grid.cell p)

/-- The terminal that an operation with a blank works on. -/
def blanked (t : Crosswords) : Crosswords := { t with grid := t.grid.templateBlank.1 }

theorem blanked_raw (t : Crosswords) : t.blanked.grid.raw = t.grid.raw := by
  unfold blanked
  rw [Grid.templateBlank_eq]

theorem blanked_cursor (t : Crosswords) : t.blanked.grid.cursor = t.grid.cursor := by
  unfold blanked
  rw [Grid.templateBlank_eq]

theorem blanked_pos (t : Crosswords) : t.blanked.pos = t.pos := by
  unfold pos
  rw [blanked_cursor]

theorem blanked_lines (t : Crosswords) : t.blanked.grid.lines = t.grid.lines := by
  unfold blanked
  rw [Grid.templateBlank_eq]

theorem blanked_columns (t : Crosswords) : t.blanked.grid.columns = t.grid.columns := by
  unfold blanked
  rw [Grid.templateBlank_eq]

theorem Sound.blanked (h : t.Sound False) : t.blanked.Sound False :=
  h.withBlank (f := fun t _ => t) fun _ _ h' => h'

theorem blanked_cell (t : Crosswords) (p : Pos) : t.blanked.grid.cell p = t.grid.cell p := by
  unfold Grid.cell Grid.row
  rw [blanked_raw]

theorem blanked_historySize (t : Crosswords) :
    t.blanked.grid.historySize = t.grid.historySize := by
  rw [Grid.historySize_eq, Grid.historySize_eq, blanked_raw, blanked_lines]

theorem Overwrites.of_blanked {value : Pos → Option Square} (h : t.blanked.Overwrites t' value) :
    t.Overwrites t' value := by
  refine ⟨h.lines.trans t.blanked_lines, h.columns.trans t.blanked_columns,
    h.history.trans t.blanked_historySize, fun p hp => ?_⟩
  have hp' : t.blanked.grid.HasCell p := by
    unfold Grid.HasCell Grid.topmostLine at *
    rw [blanked_lines, blanked_columns]
    refine ⟨?_, hp.2⟩
    show -(t.blanked.grid.historySize : ℤ) ≤ p.row
    rw [blanked_historySize]
    exact hp.1
  rw [h.cells p hp', blanked_cell]

/-- Cells of the line of the cursor get a blank. -/
theorem overwrites_fill (h : t.Sound False) (start stop : ℕ) (c : Square) :
    t.Overwrites (t.mapGrid (·.modifyRow t.pos.row (·.fill start stop c))) fun p =>
      if p.row = t.pos.row ∧ start ≤ p.col ∧ p.col < stop then some c else none := by
  refine ⟨rfl, rfl, rfl, fun p hp => ?_⟩
  have hcell := Grid.cell_modifyRow h.grid.wellFormed h.topmostLine_le_row h.grid.cursor.2.1 hp
    (·.fill start stop c)
  refine hcell.trans ?_
  by_cases hrow : p.row = t.pos.row
  · have hlen := Grid.row_len h.grid.wellFormed hp.1 hp.2.1
    rw [if_pos hrow, ← hrow, Row.cell_fill _ _ _ (hp.2.2.trans_eq hlen.symm)]
    split_ifs with hin hboth hboth
    · rfl
    · exact absurd ⟨rfl, hin⟩ hboth
    · exact absurd hboth.2 hin
    · rfl
  · rw [if_neg hrow, if_neg fun hboth => hrow hboth.1]
    rfl

theorem overwrites_fillFrom (h : t.Sound False) (start : ℕ) (c : Square) :
    t.Overwrites (t.mapGrid (·.modifyRow t.pos.row (·.fillFrom start c))) fun p =>
      if p.row = t.pos.row ∧ start ≤ p.col then some c else none := by
  refine ⟨rfl, rfl, rfl, fun p hp => ?_⟩
  have hcell := Grid.cell_modifyRow h.grid.wellFormed h.topmostLine_le_row h.grid.cursor.2.1 hp
    (·.fillFrom start c)
  refine hcell.trans ?_
  by_cases hrow : p.row = t.pos.row
  · have hlen := Grid.row_len h.grid.wellFormed hp.1 hp.2.1
    rw [if_pos hrow, ← hrow, Row.cell_fillFrom _ _ (hp.2.2.trans_eq hlen.symm)]
    split_ifs with hin hboth hboth
    · rfl
    · exact absurd ⟨rfl, hin⟩ hboth
    · exact absurd hboth.2 hin
    · rfl
  · rw [if_neg hrow, if_neg fun hboth => hrow hboth.1]
    rfl

theorem overwrites_resetRegion (h : t.Sound False) {r : Region} (hstart : 0 ≤ r.start)
    (hstop : r.stop ≤ t.grid.lines) : t.Overwrites (t.mapGrid (·.resetRegion r)) fun p =>
      if r.start ≤ p.row ∧ p.row < r.stop then
        some (Square.reset default t.grid.cursor.template) else none := by
  have hsize : (t.grid.resetRegion r).historySize = t.grid.historySize := by
    rw [Grid.historySize_eq, Grid.historySize_eq]
    exact congrArg (· - t.grid.lines) (Storage.resetLines_len _ _ _)
  refine ⟨rfl, rfl, hsize, fun p hp => ?_⟩
  have htop : t.grid.topmostLine ≤ r.start := by
    show -(t.grid.historySize : ℤ) ≤ r.start
    omega
  refine (Grid.cell_resetRegion h.grid.wellFormed htop hstop hp).trans ?_
  split_ifs <;> rfl

/-- One overwriting after another: the later one prevails. -/
theorem Overwrites.trans {t'' : Crosswords} {value value' : Pos → Option Square}
    (h : t.Overwrites t' value) (h' : t'.Overwrites t'' value') :
    t.Overwrites t'' fun p => value' p <|> value p := by
  refine ⟨h'.lines.trans h.lines, h'.columns.trans h.columns, h'.history.trans h.history, ?_⟩
  intro p hp
  have hp' : t'.grid.HasCell p := by
    unfold Grid.HasCell at *
    rw [h.lines, h.columns]
    refine ⟨?_, hp.2⟩
    show -(t'.grid.historySize : ℤ) ≤ p.row
    rw [h.history]
    exact hp.1
  rw [h'.cells p hp', h.cells p hp]
  cases value' p with
  | none => rfl
  | some c => rfl

theorem Overwrites.congr {value value' : Pos → Option Square} (h : t.Overwrites t' value)
    (heq : ∀ p, t.grid.HasCell p → value p = value' p) : t.Overwrites t' value' :=
  ⟨h.lines, h.columns, h.history, fun p hp => by rw [h.cells p hp, heq p hp]⟩

theorem Overwrites.refl (t : Crosswords) : t.Overwrites t fun _ => none :=
  ⟨rfl, rfl, rfl, fun _ _ => rfl⟩

theorem Overwrites.of_grid {t'' : Crosswords} {value : Pos → Option Square}
    (h : t.Overwrites t' value) (hgrid : t''.grid = t'.grid) : t.Overwrites t'' value := by
  obtain ⟨h1, h2, h3, h4⟩ := h
  exact ⟨by rw [hgrid, h1], by rw [hgrid, h2], by rw [hgrid, h3], by rwa [hgrid]⟩

/-! ### Erasing -/

/-- The cells that erasing in a line names. -/
def LineNames (t : Crosswords) : LineClearMode → Pos → Prop
  | .right, p => p.row = t.pos.row ∧ t.pos.col ≤ p.col ∧ ¬t.grid.cursor.shouldWrap
  | .left, p => p.row = t.pos.row ∧ p.col ≤ t.pos.col
  | .all, p => p.row = t.pos.row

/-- The cells from the cursor to the end of the screen. -/
def Below (t : Crosswords) (p : Pos) : Prop :=
  p.row = t.pos.row ∧ t.pos.col ≤ p.col ∨ t.pos.row < p.row

/-- The cells from the start of the screen through the cursor. -/
def Above (t : Crosswords) (p : Pos) : Prop :=
  p.row = t.pos.row ∧ p.col ≤ t.pos.col ∨ 0 ≤ p.row ∧ p.row < t.pos.row

instance (t : Crosswords) (mode : LineClearMode) (p : Pos) : Decidable (t.LineNames mode p) := by
  cases mode <;> unfold LineNames <;> infer_instance

instance (t : Crosswords) (p : Pos) : Decidable (t.Below p) :=
  inferInstanceAs (Decidable (_ ∧ _ ∨ _))

instance (t : Crosswords) (p : Pos) : Decidable (t.Above p) :=
  inferInstanceAs (Decidable (_ ∧ _ ∨ _ ∧ _))

/-- The named cells of screen and history are blank, and all others are as they were. -/
structure Erases (t t' : Crosswords) (named : Pos → Prop) : Prop where
  lines : t'.grid.lines = t.grid.lines
  columns : t'.grid.columns = t.grid.columns
  history : t'.grid.historySize = t.grid.historySize
  blank : ∀ p, t.grid.HasCell p → named p → (t'.grid.cell p).IsBlank
  others : ∀ p, t.grid.HasCell p → ¬named p → t'.grid.cell p = t.grid.cell p

theorem overwrites_eraseChars (h : t.Sound False) (count : ℕ) :
    t.Overwrites (t.eraseChars count) fun p =>
      if p.row = t.pos.row ∧ t.pos.col ≤ p.col ∧ p.col < t.pos.col + count then
        some t.grid.templateBlank.2 else none := by
  have hfill := overwrites_fill h.blanked t.pos.col
    (min (t.pos.col + count) t.grid.columns) t.grid.templateBlank.2
  have hgrid : t.blanked.Overwrites (t.eraseChars count) _ := hfill.of_grid rfl
  refine hgrid.of_blanked.congr fun p hp => ?_
  rw [blanked_pos]
  have hcol := hp.2.2
  split_ifs with hin hin' hin'
  · rfl
  · omega
  · omega
  · rfl

theorem overwrites_clearLine (h : t.Sound False) (mode : LineClearMode) :
    t.Overwrites (t.clearLine mode) fun p =>
      if t.LineNames mode p then some t.grid.templateBlank.2 else none := by
  have hfill (start stop : ℕ) := overwrites_fill h.blanked start stop t.grid.templateBlank.2
  cases mode with
  | right =>
    by_cases hwrap : t.grid.cursor.shouldWrap
    · have hgrid : (t.clearLine .right).grid = t.blanked.grid := by
        have hblanked : t.blanked.grid.cursor.shouldWrap = true := by
          rw [blanked_cursor]
          exact hwrap
        have heq : t.clearLine .right = t.blanked := if_pos hblanked
        rw [heq]
      refine ((Overwrites.refl t.blanked).of_grid hgrid).of_blanked.congr fun p _ => ?_
      rw [if_neg fun hnamed => hnamed.2.2 hwrap]
    · have hblanked : ¬t.blanked.grid.cursor.shouldWrap = true := by
        rw [blanked_cursor]
        exact hwrap
      have hgrid : (t.clearLine .right).grid = (t.blanked.mapGrid (·.modifyRow t.blanked.pos.row
          (·.fill t.pos.col t.grid.columns t.grid.templateBlank.2))).grid := by
        have heq : t.clearLine .right = t.blanked.damageCursor.mapGrid
            (·.modifyRow t.blanked.pos.row
              (·.fill t.pos.col t.grid.columns t.grid.templateBlank.2)) := if_neg hblanked
        rw [heq]
        rfl
      refine ((hfill _ _).of_grid hgrid).of_blanked.congr fun p hp => ?_
      rw [blanked_pos]
      unfold LineNames
      refine if_congr ?_ rfl rfl
      exact ⟨fun hin => ⟨hin.1, hin.2.1, hwrap⟩, fun hin => ⟨hin.1, hin.2.1, hp.2.2⟩⟩
  | left =>
    have hgrid : t.blanked.Overwrites (t.clearLine .left) _ :=
      (hfill 0 (t.pos.col + 1)).of_grid rfl
    refine hgrid.of_blanked.congr fun p hp => ?_
    rw [blanked_pos]
    unfold LineNames
    refine if_congr ?_ rfl rfl
    omega
  | all =>
    have hgrid : t.blanked.Overwrites (t.clearLine .all) _ :=
      (hfill 0 t.grid.columns).of_grid rfl
    refine hgrid.of_blanked.congr fun p hp => ?_
    rw [blanked_pos]
    unfold LineNames
    have hcol := hp.2.2
    refine if_congr ?_ rfl rfl
    omega

/-- Erasing below: blanks up to the end of the line of the cursor, and lines that are reset. -/
theorem overwrites_clearBelow (h : t.Sound False) :
    t.Overwrites (t.clearScreen .below) fun p =>
      if p.row = t.pos.row ∧ t.pos.col ≤ p.col then some t.grid.templateBlank.2
      else if t.pos.row < p.row then some (Square.reset default t.grid.cursor.template)
      else none := by
  have hrow : 0 ≤ t.blanked.pos.row := h.blanked.grid.cursor.1
  have hbottom : t.blanked.pos.row < t.blanked.grid.lines := h.blanked.grid.cursor.2.1
  have hfill := overwrites_fillFrom h.blanked t.blanked.pos.col t.grid.templateBlank.2
  have hfilled : (t.blanked.mapGrid (·.modifyRow t.blanked.pos.row
      (·.fillFrom t.blanked.pos.col t.grid.templateBlank.2))).Sound False :=
    h.blanked.modifyRow _ fun r => Row.fillFrom_len r _ _
  obtain ⟨lines, heq⟩ : ∃ lines, t.clearScreen .below =
      (if t.blanked.pos.row.toNat < t.blanked.grid.lines - 1 then
        (t.blanked.mapGrid (·.modifyRow t.blanked.pos.row
          (·.fillFrom t.blanked.pos.col t.grid.templateBlank.2))).mapGrid
            (·.resetRegion ⟨t.blanked.pos.row + 1, t.blanked.grid.lines⟩)
      else t.blanked.mapGrid (·.modifyRow t.blanked.pos.row
        (·.fillFrom t.blanked.pos.col t.grid.templateBlank.2))).damageLines lines := ⟨_, rfl⟩
  rw [← blanked_pos t, ← blanked_cursor t]
  have hgrid := (congrArg Crosswords.grid heq).trans (damageLines_grid _ _)
  refine Overwrites.of_blanked (Overwrites.of_grid ?_ hgrid)
  split_ifs with hlast
  · have hreset := overwrites_resetRegion hfilled
      (r := ⟨t.blanked.pos.row + 1, t.blanked.grid.lines⟩) (by
        show 0 ≤ t.blanked.pos.row + 1
        omega) le_rfl
    refine (hfill.trans hreset).congr fun p hp => ?_
    have hline := hp.2.1
    have htemplate : (t.blanked.mapGrid (·.modifyRow t.blanked.pos.row
        (·.fillFrom t.blanked.pos.col t.grid.templateBlank.2))).grid.cursor.template =
          t.blanked.grid.cursor.template := rfl
    rw [htemplate]
    dsimp only
    by_cases hhere : p.row = t.blanked.pos.row ∧ t.blanked.pos.col ≤ p.col
    · rw [if_pos hhere, if_pos hhere, if_neg (by omega)]
      rfl
    · rw [if_neg hhere, if_neg hhere]
      split_ifs with hin hbelow hbelow
      · rfl
      · omega
      · omega
      · rfl
  · refine hfill.congr fun p hp => ?_
    have hline := hp.2.1
    by_cases hhere : p.row = t.blanked.pos.row ∧ t.blanked.pos.col ≤ p.col
    · rw [if_pos hhere, if_pos hhere]
    · rw [if_neg hhere, if_neg hhere, if_neg (by omega)]

/-- Erasing above leaves the first line alone when the cursor is on the second. -/
theorem overwrites_clearAbove (h : t.Sound False) :
    t.Overwrites (t.clearScreen .above) fun p =>
      if p.row = t.pos.row ∧ p.col ≤ t.pos.col then some t.grid.templateBlank.2
      else if 1 < t.pos.row ∧ 0 ≤ p.row ∧ p.row < t.pos.row then
        some (Square.reset default t.grid.cursor.template)
      else none := by
  have hbottom : t.blanked.pos.row < t.blanked.grid.lines := h.blanked.grid.cursor.2.1
  obtain ⟨lines, heq⟩ : ∃ lines, t.clearScreen .above =
      ((if 1 < t.blanked.pos.row then t.blanked.mapGrid (·.resetRegion ⟨0, t.blanked.pos.row⟩)
        else t.blanked).mapGrid (·.modifyRow t.blanked.pos.row
          (·.fill 0 (min (t.blanked.pos.col + 1)
            (if 1 < t.blanked.pos.row then t.blanked.mapGrid (·.resetRegion ⟨0, t.blanked.pos.row⟩)
              else t.blanked).grid.columns) t.grid.templateBlank.2))).damageLines lines := ⟨_, rfl⟩
  rw [← blanked_pos t, ← blanked_cursor t]
  have hgrid := (congrArg Crosswords.grid heq).trans (damageLines_grid _ _)
  refine Overwrites.of_blanked (Overwrites.of_grid ?_ hgrid)
  split_ifs with hrows
  · have hreset := overwrites_resetRegion h.blanked (r := ⟨0, t.blanked.pos.row⟩) le_rfl
      hbottom.le
    have hcleared : (t.blanked.mapGrid (·.resetRegion ⟨0, t.blanked.pos.row⟩)).Sound False :=
      h.blanked.resetRegion fun _ => ⟨0, t.blanked.pos.row⟩
    have hfill := overwrites_fill hcleared 0 (min (t.blanked.pos.col + 1)
      (t.blanked.mapGrid (·.resetRegion ⟨0, t.blanked.pos.row⟩)).grid.columns)
      t.grid.templateBlank.2
    refine (hreset.trans hfill).congr fun p hp => ?_
    have hcol := hp.2.2
    have hcolumns : (t.blanked.mapGrid (·.resetRegion ⟨0, t.blanked.pos.row⟩)).grid.columns =
        t.blanked.grid.columns := rfl
    have hpos : (t.blanked.mapGrid (·.resetRegion ⟨0, t.blanked.pos.row⟩)).pos =
        t.blanked.pos := rfl
    rw [hcolumns, hpos]
    dsimp only
    by_cases hhere : p.row = t.blanked.pos.row ∧ p.col ≤ t.blanked.pos.col
    · rw [if_pos hhere, if_pos (by omega)]
      rfl
    · rw [if_neg hhere, if_neg (by omega)]
      split_ifs with hin habove habove
      · rfl
      · omega
      · omega
      · rfl
  · have hfill := overwrites_fill h.blanked 0
      (min (t.blanked.pos.col + 1) t.blanked.grid.columns) t.grid.templateBlank.2
    refine hfill.congr fun p hp => ?_
    have hcol := hp.2.2
    by_cases hhere : p.row = t.blanked.pos.row ∧ p.col ≤ t.blanked.pos.col
    · rw [if_pos hhere, if_pos (by omega)]
    · rw [if_neg hhere, if_neg (by omega), if_neg fun hboth => hrows hboth.1]

/-! ### The modes -/

theorem erases_clearLine (h : t.Sound False) (mode : LineClearMode) :
    t.Erases (t.clearLine mode) (t.LineNames mode) := by
  obtain ⟨hlines, hcolumns, hhistory, hcells⟩ := overwrites_clearLine h mode
  refine ⟨hlines, hcolumns, hhistory, fun p hp hnamed => ?_, fun p hp hnamed => ?_⟩
  · rw [hcells p hp, if_pos hnamed]
    exact t.grid.isBlank_templateBlank
  · rw [hcells p hp, if_neg hnamed]
    rfl

theorem erases_clearBelow (h : t.Sound False) : t.Erases (t.clearScreen .below) t.Below := by
  obtain ⟨hlines, hcolumns, hhistory, hcells⟩ := overwrites_clearBelow h
  refine ⟨hlines, hcolumns, hhistory, fun p hp hnamed => ?_, fun p hp hnamed => ?_⟩
  · rw [hcells p hp]
    by_cases hhere : p.row = t.pos.row ∧ t.pos.col ≤ p.col
    · rw [if_pos hhere]
      exact t.grid.isBlank_templateBlank
    · rw [if_neg hhere, if_pos (hnamed.resolve_left hhere)]
      exact Square.isBlank_reset default _
  · rw [hcells p hp, if_neg fun hhere => hnamed (.inl hhere),
      if_neg fun hbelow => hnamed (.inr hbelow)]
    rfl

/-- Erasing above does what it should unless the cursor is on the second line and the first one
has text. -/
theorem erases_clearAbove_iff (h : t.Sound False) :
    t.Erases (t.clearScreen .above) t.Above ↔
      t.pos.row = 1 → ∀ col < t.grid.columns, (t.grid.cell ⟨0, col⟩).IsBlank := by
  have hrow : 0 ≤ t.pos.row := h.grid.cursor.1
  have hbottom : t.pos.row < t.grid.lines := h.grid.cursor.2.1
  obtain ⟨hlines, hcolumns, hhistory, hcells⟩ := overwrites_clearAbove h
  constructor
  · intro herases hsecond col hcol
    have hp : t.grid.HasCell ⟨0, col⟩ := by
      refine ⟨?_, ?_, hcol⟩
      · show -(t.grid.historySize : ℤ) ≤ 0
        omega
      · show (0 : ℤ) < t.grid.lines
        omega
    have hblank := herases.blank ⟨0, col⟩ hp (.inr ⟨le_rfl, by show 0 < t.pos.row; omega⟩)
    have hkept := hcells ⟨0, col⟩ hp
    rw [if_neg (by rintro ⟨hhere, -⟩; change 0 = t.pos.row at hhere; omega),
      if_neg (by omega)] at hkept
    rwa [hkept] at hblank
  · intro hfirst
    refine ⟨hlines, hcolumns, hhistory, fun p hp hnamed => ?_, fun p hp hnamed => ?_⟩
    · rw [hcells p hp]
      by_cases hhere : p.row = t.pos.row ∧ p.col ≤ t.pos.col
      · rw [if_pos hhere]
        exact t.grid.isBlank_templateBlank
      · obtain ⟨htop, habove⟩ := hnamed.resolve_left hhere
        rw [if_neg hhere]
        split_ifs with hrows
        · exact Square.isBlank_reset default _
        · have hzero : p.row = 0 := by omega
          have hblank := hfirst (by omega) p.col hp.2.2
          rw [← hzero] at hblank
          exact hblank
    · rw [hcells p hp, if_neg fun hhere => hnamed (.inl hhere),
        if_neg fun habove => hnamed (.inr habove.2)]
      rfl

/-- Erasing blanks the cells that the mode names, and these only, in all modes exactly when the
cursor is not on the second line of the screen or the first line is blank. -/
theorem erases_iff (h : t.Sound False) :
    (t.Erases (t.clearScreen .below) t.Below ∧ t.Erases (t.clearScreen .above) t.Above ∧
      ∀ mode, t.Erases (t.clearLine mode) (t.LineNames mode)) ↔
      t.pos.row = 1 → ∀ col < t.grid.columns, (t.grid.cell ⟨0, col⟩).IsBlank := by
  rw [← erases_clearAbove_iff h]
  exact ⟨fun hall => hall.2.1, fun habove => ⟨erases_clearBelow h, habove, erases_clearLine h⟩⟩

theorem erases_new :
    ((new 3 2 0).Erases ((new 3 2 0).clearScreen .below) (new 3 2 0).Below ∧
      (new 3 2 0).Erases ((new 3 2 0).clearScreen .above) (new 3 2 0).Above ∧
      ∀ mode, (new 3 2 0).Erases ((new 3 2 0).clearLine mode) ((new 3 2 0).LineNames mode)) ↔
      (new 3 2 0).pos.row = 1 →
        ∀ col < (new 3 2 0).grid.columns, ((new 3 2 0).grid.cell ⟨0, col⟩).IsBlank :=
  erases_iff (new_sound False (by decide) (by decide) 0)

/-- With the cursor on the second line, erasing above leaves the text of the first one. -/
theorem clearAbove_leaves_first_line :
    ¬((new 3 2 0).run .basic [.input 'a', .linefeed]).Erases
      (((new 3 2 0).run .basic [.input 'a', .linefeed]).clearScreen .above)
      ((new 3 2 0).run .basic [.input 'a', .linefeed]).Above := by
  intro herases
  have hcell := herases.blank ⟨0, 0⟩ (by unfold Grid.HasCell; decide) (by decide)
  revert hcell
  decide

end Crosswords
end Rio
