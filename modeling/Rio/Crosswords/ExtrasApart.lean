import Rio.Crosswords.IdSpaces
import Rio.Crosswords.ImageCells
import Rio.Grid.SlotUse

/-! What attaching a character without width or a graphic to a cell, or removing a graphic from it,
changes of the other cells. The cells of a hyperlink share one slot of the extras table. -/

set_option linter.dupNamespace false

namespace Rio

namespace Grid

variable {g g' : Grid Square} {p q : Pos} {id : ExtrasId}

/-! ### What is written -/

/-- A graphic goes to the slot of the cell, or to a new one. -/
theorem placeGraphicCell_cases (g : Grid Square) (p : Pos) (graphic : GraphicCell) :
    (∃ id c, g.slotOf p = some id ∧ c.tag = (g.cell p).tag ∧ c.hi = (g.cell p).hi ∧
      c.isBgOnly = false ∧
      Crosswords.placeGraphicCell g p graphic = { g.modifyCell p fun _ => c with
        extrasTable := g.extrasTable.modify id fun e => { e with graphic := some [graphic] } }) ∨
    ∃ c, g.slotOf p = none ∧ c.hi = (g.extrasTable.alloc { graphic := some [graphic] }).2 ∧
      c.isBgOnly = false ∧
      Crosswords.placeGraphicCell g p graphic = { g.modifyCell p fun _ => c with
        extrasTable := (g.extrasTable.alloc { graphic := some [graphic] }).1 } := by
  have hslot : g.slotOf p =
      (if (g.cell p).isBgOnly then (g.cell p).clear else g.cell p).extrasId := by
    unfold slotOf
    split_ifs <;> rfl
  have htext : (if (g.cell p).isBgOnly then (g.cell p).clear else g.cell p).isBgOnly = false := by
    split_ifs with hbg
    · rfl
    · simpa using hbg
  have hown {id : ExtrasId} (hid : g.slotOf p = some id) :
      (if (g.cell p).isBgOnly then (g.cell p).clear else g.cell p) = g.cell p :=
    if_neg fun hbg => Bool.false_ne_true ((slotOf_eq_some hid).1.symm.trans hbg)
  unfold Crosswords.placeGraphicCell
  dsimp only
  generalize (if (g.cell p).isBgOnly then (g.cell p).clear else g.cell p) = cell
    at hslot htext hown ⊢
  rcases hid : cell.extrasId with _ | id
  · have hnone := hslot.trans hid
    exact .inr ⟨{ cell with
      flags := { cell.flags with graphics := true }
      hi := (g.extrasTable.alloc { graphic := some [graphic] }).2 }, hnone, rfl, htext, rfl⟩
  · have hsome := hslot.trans hid
    refine .inl ⟨id, { cell with flags := { cell.flags with graphics := true } }, hsome, ?_, ?_,
      htext, rfl⟩
    · exact (congrArg Square.tag (hown hsome) :)
    · exact (congrArg Square.hi (hown hsome) :)

/-- What removing the graphic of a cell makes of the table and the cell. -/
inductive Removes (t : ExtrasTable) (cell : Square) : ExtrasTable → Square → Prop
  /-- The cell has no slot, or one that is free. -/
  | unheld {c : Square} (htag : c.tag = cell.tag) (hhi : c.hi = cell.hi)
      (hfree : ∀ id, cell.extrasId = some id → t.get id = none) : Removes t cell t c
  /-- There is more in the slot. -/
  | kept {c : Square} (htag : c.tag = cell.tag) (hhi : c.hi = cell.hi) {id : ExtrasId}
      (hid : cell.extrasId = some id) :
      Removes t cell (t.modify id fun e => { e with graphic := none }) c
  /-- The graphic is all there is in the slot, which is taken back. -/
  | takenBack {c : Square} (hhi : c.hi = 0) {id : ExtrasId} {e : Extras}
      (hid : cell.extrasId = some id) (hget : t.get id = some e)
      (hempty : { e with graphic := none } = ({} : Extras)) :
      Removes t cell ((t.modify id fun e => { e with graphic := none }).free id) c

theorem isEmpty_iff {e : Extras} : e.isEmpty = true ↔ e = {} := by
  obtain ⟨zerowidth, hyperlink, graphic⟩ := e
  unfold Extras.isEmpty
  simp [and_assoc]

theorem clearCellGraphic_removes (t : ExtrasTable) (cell : Square) :
    Removes t cell (clearCellGraphic t cell).1 (clearCellGraphic t cell).2 := by
  unfold clearCellGraphic
  rcases hid : cell.extrasId with _ | id
  · exact .unheld rfl rfl fun id hid' => absurd (hid.symm.trans hid') (by simp)
  dsimp only
  rcases hget : t.get id with _ | e
  · refine .unheld rfl rfl fun id' hid' => ?_
    exact Option.some.inj (hid.symm.trans hid') ▸ hget
  dsimp only
  have hmodify : (t.modify id fun _ => { e with graphic := none }) =
      t.modify id fun e => { e with graphic := none } :=
    ExtrasTable.modify_of_get hget fun e => { e with graphic := none }
  rw [hmodify]
  split_ifs with hempty
  · exact .takenBack rfl hid hget (isEmpty_iff.mp hempty)
  · refine .kept ?_ ?_ hid
    · rfl
    · rfl

theorem clearGraphicAt_of_flag (hflag : (g.cell p).flags.graphics = true) :
    g.clearGraphicAt p =
      { g.modifyCell p fun _ => (clearCellGraphic g.extrasTable (g.cell p)).2 with
        extrasTable := (clearCellGraphic g.extrasTable (g.cell p)).1 } :=
  if_pos hflag

/-! ### Slots over edits -/

namespace SlotsHeld

theorem noNewIds (h : g.SlotsHeld) (hmove : g.NoNewIds g') : g'.SlotsHeld := by
  have hstyles : g.styleSet.styles.length ≤ g'.styleSet.styles.length := by rw [hmove.styleSet]
  have htemplate : g'.cursor.template.Linked g.extrasTable := hmove.template.symm ▸ h.template
  have hsaved : g'.savedCursor.template.Linked g.extrasTable :=
    hmove.savedTemplate.symm ▸ h.savedTemplate
  exact h.of_noNew hstyles hmove.extrasTable hmove.weight_le htemplate hsaved

theorem penCell_linked (h : g.SlotsHeld) {c : Square} (hc : g.PenCell c) :
    c.Linked g.extrasTable := h.template.of_hi hc.2.2

theorem penCell_stray {c : Square} (hc : g.PenCell c) : Grid.stray c = 0 :=
  stray_of_text (by unfold Square.isBgOnly; rw [hc.1]; rfl)

/-- The cell that is overwritten keeps its slot at another position. -/
theorem relocate (h : g.SlotsHeld) (p q : Pos) {c base : Square} (hc : g.PenCell c)
    (hmove : (g.modifyCell p fun _ => c).NoNewIds g') (hbase : SameIds (g.cell p) base) :
    (g'.modifyCell q fun _ => base).SlotsHeld := by
  have hmoved := (h.setCell p (h.penCell_linked hc) (penCell_stray hc)).noNewIds hmove
  obtain ⟨htag, hlo, hhi, hgraphics⟩ := hbase
  have hsame {w : Square → ℕ} (hw : OfIds w) : w base = w (g.cell p) :=
    hw.congr (g.cell p) base htag hlo hhi hgraphics
  have hstray : Grid.stray base = 0 := (hsame stray_ofIds).trans (h.cell_stray p)
  have hstyles : g.styleSet.styles.length ≤ g'.styleSet.styles.length := by
    rw [hmove.styleSet]
    rfl
  refine h.of_weight_le hstyles hmove.extrasTable (fun id hid hplain => ?_) ?_
    (hmove.template.symm ▸ h.template) (hmove.savedTemplate.symm ▸ h.savedTemplate)
  · have hw := uses_ofIds hid
    have hzero : uses id c = 0 := uses_eq_zero (h.penCell_linked hc) hid hplain
    have hwritten := weight_modifyCell_add_le hw.blank g p fun _ => c
    have hless := hmove.weight_le _ hw (uses_clean hid _)
    have hplaced := weight_modifyCell_add_le hw.blank g' q fun _ => base
    have hheld := hsame hw
    omega
  · have hplaced := weight_modifyCell_le (fun _ => hstray.trans_le (Nat.zero_le _)) g' q
    exact hplaced.trans (hmoved.stray.trans_le (Nat.zero_le _))

theorem startHyperlink (h : g.SlotsHeld) (hl : Hyperlink) :
    SlotsHeld ({ g with extrasTable :=
        (g.extrasTable.alloc { hyperlink := some hl }).1 }.setTemplate
      { g.cursor.template.setExtrasId (some (g.extrasTable.alloc { hyperlink := some hl }).2) with
        flags := { g.cursor.template.flags with hyperlink := true } }) := by
  obtain ⟨halloc, hgiven⟩ := h.alloc { hyperlink := some hl }
  refine halloc.setTemplate ?_
  obtain hzero | ⟨-, hheld⟩ := hgiven
  · exact .of_none hzero
  · intro id hid
    have hsame := (Square.extrasId_eq_some.mp hid).1
    refine ⟨{ hyperlink := some hl }, ?_, Option.some_ne_none hl⟩
    rw [← hsame]
    exact hheld

theorem pushZeroWidth (h : g.SlotsHeld) (p : Pos) (ch : Char) :
    (Crosswords.pushZeroWidth g p ch).SlotsHeld := by
  unfold Crosswords.pushZeroWidth
  split
  · next id hid =>
    have hmodified := h.modify id (f := fun e => { e with zerowidth := e.zerowidth ++ [ch] })
      fun _ => rfl
    exact hmodified.noNewIds (noNewIds_modifyCell _ p fun _ _ _ => le_rfl)
  · exact h.give { zerowidth := [ch] } p (fun _ => rfl) fun c => le_rfl

theorem placeGraphicCell (h : g.SlotsHeld) (p : Pos) (graphic : GraphicCell) :
    (Crosswords.placeGraphicCell g p graphic).SlotsHeld := by
  obtain ⟨id, c, hslot, htag, hhi, htext, heq⟩ | ⟨c, -, hhi, htext, heq⟩ :=
    placeGraphicCell_cases g p graphic
  · have hmodified := h.modify id (f := fun e => { e with graphic := some [graphic] }) fun _ => rfl
    rw [heq]
    exact hmodified.rewriteCell htag hhi (stray_of_text htext)
  · rw [heq]
    exact h.give { graphic := some [graphic] } p (fun _ => hhi)
      fun _ => (stray_of_text htext).trans_le (Nat.zero_le _)

/-- The last cell that uses a slot is written, and the slot is taken back. -/
theorem takeBack (h : g.SlotsHeld) {e : Extras} {c : Square}
    (hflag : (g.cell p).flags.graphics = true) (hid : (g.cell p).extrasId = some id)
    (hget : g.extrasTable.get id = some e) (hlink : e.hyperlink = none) (hhi : c.hi = 0)
    (hstray : Grid.stray c = 0)
    {table : ExtrasTable} (hstocked : table.Stocked) (hnone : table.get id = none)
    (hother : ∀ id', id' ≠ id → table.get id' = g.extrasTable.get id') :
    SlotsHeld { g.modifyCell p fun _ => c with extrasTable := table } := by
  have hne := (Square.extrasId_eq_some.mp hid).2
  have hlinks (id' : ExtrasId) (e' : Extras) (he' : g.extrasTable.get id' = some e')
      (hlink' : e'.hyperlink ≠ none) :
      ∃ e', table.get id' = some e' ∧ e'.hyperlink ≠ none := by
    have hother' : id' ≠ id := by
      rintro rfl
      exact hlink' (Option.some.inj (he'.symm.trans hget) ▸ hlink)
    exact ⟨e', (hother id' hother').trans he', hlink'⟩
  have hweight (id' : ExtrasId) (hid' : id' ≠ 0) :
      (g.modifyCell p fun _ => c).weight (uses id') ≤ g.weight (uses id') :=
    weight_modifyCell_le
      (fun _ => (uses_of_ne (hhi.trans_ne hid'.symm)).trans_le (Nat.zero_le _)) g p
  have hstrays := weight_modifyCell_le (fun _ => hstray.trans_le (Nat.zero_le _)) g p
  refine ⟨h.styles, hstocked, fun id' hid' hnone' => ?_, fun id' e' hid' he' hlink' => ?_,
    Nat.le_zero.mp (hstrays.trans h.stray.le), h.template.of_get hlinks,
    h.savedTemplate.of_get hlinks⟩
  · by_cases heq : id' = id
    · have hwritten := weight_modifyCell_add_le (uses_ofIds hne).blank g p fun _ => c
      have hone := h.single id e hne hget hlink
      have hown := uses_eq_one (h.text_of_flag hflag) hid
      have hgone : uses id c = 0 := uses_of_ne (hhi.trans_ne hne.symm)
      rw [heq]
      show (g.modifyCell p fun _ => c).weight (uses id) = 0
      omega
    · exact Nat.le_zero.mp ((hweight id' hid').trans
        (h.free id' hid' ((hother id' heq).symm.trans hnone')).le)
  · have hother' : id' ≠ id := by
      rintro rfl
      exact absurd (hnone.symm.trans he') (Option.some_ne_none e').symm
    exact (hweight id' hid').trans
      (h.single id' e' hid' ((hother id' hother').symm.trans he') hlink')

theorem clearGraphicAt (h : g.SlotsHeld) (p : Pos) : (g.clearGraphicAt p).SlotsHeld := by
  rcases hflag : (g.cell p).flags.graphics with _ | _
  · have hsame : g.clearGraphicAt p = g.modifyCell p id := if_neg (by simp [hflag])
    rw [hsame]
    exact h.noNewIds (noNewIds_modifyCell g p fun _ _ _ => le_rfl)
  · have hremoves := clearCellGraphic_removes g.extrasTable (g.cell p)
    have hstray : Grid.stray (clearCellGraphic g.extrasTable (g.cell p)).2 = 0 := stray_of_flag rfl
    rw [clearGraphicAt_of_flag hflag]
    generalize clearCellGraphic g.extrasTable (g.cell p) = cleared at hremoves hstray ⊢
    obtain ⟨table, c⟩ := cleared
    cases hremoves with
    | unheld htag hhi hfree => exact h.rewriteCell htag hhi hstray
    | @kept _ htag hhi id hid =>
      have hmodified := h.modify id (f := fun e => { e with graphic := none }) fun _ => rfl
      exact hmodified.rewriteCell htag hhi hstray
    | @takenBack _ hhi id e hid hget hempty =>
      have hlink : e.hyperlink = none := congrArg Extras.hyperlink hempty
      have hfreed := ExtrasTable.get_free
        (g.extrasTable.modify id fun e => { e with graphic := none })
        (Square.extrasId_eq_some.mp hid).2
      refine h.takeBack hflag hid hget hlink hhi hstray ((h.stocked.modify _ _).free _) hfreed.1
        fun id' hne => ?_
      exact (hfreed.2 id' hne).trans (ExtrasTable.get_modify_of_ne hne _)

/-- Every edit leaves each slot without a hyperlink to one cell at most. -/
theorem edit (h : g.SlotsHeld) (hedit : g.Edit g') : g'.SlotsHeld := by
  cases hedit with
  | move hmove => exact h.noNewIds hmove
  | @fill line f c hc hf =>
    have hblank {id : ExtrasId} (hid : id ≠ 0) : uses id c = 0 := by
      rcases hc.2 with hbg | ⟨hhi, -⟩
      · exact uses_of_bgOnly id hbg
      · exact uses_of_ne (hhi.trans_ne hid.symm)
    exact h.of_weight_le le_rfl rfl
      (fun id hid _ => weight_modifyRow_le (hf _ (uses_ofIds hid) (hblank hid)) g line)
      (weight_modifyRow_le (hf _ stray_ofIds (stray_of_flag hc.1)) g line) h.template
      h.savedTemplate
  | write p hc => exact h.setCell p (h.penCell_linked hc) (penCell_stray hc)
  | relocate p q hc hmove hbase => exact h.relocate p q hc hmove hbase
  | intern style =>
    exact h.of_noNew (g.styleSet.intern_length_le style) rfl (fun _ _ _ => le_rfl) h.template
      h.savedTemplate
  | setTemplateStyle style =>
    have hinterned : SlotsHeld { g with styleSet := (g.styleSet.intern style).1 } :=
      h.of_noNew (g.styleSet.intern_length_le style) rfl (fun _ _ _ => le_rfl) h.template
        h.savedTemplate
    exact hinterned.setTemplate (h.template.of_hi rfl)
  | startHyperlink hl => exact h.startHyperlink hl
  | endHyperlink => exact h.setTemplate (.of_none rfl)
  | save => exact h.of_noNew le_rfl rfl (fun _ _ _ => le_rfl) h.template h.template
  | restore => exact h.of_noNew le_rfl rfl (fun _ _ _ => le_rfl) h.savedTemplate h.savedTemplate
  | zeroWidth p ch => exact h.pushZeroWidth p ch
  | placeGraphic p graphic => exact h.placeGraphicCell p graphic
  | clearGraphic p => exact h.clearGraphicAt p

theorem edits (h : g.SlotsHeld) (hedits : Relation.ReflTransGen Edit g g') : g'.SlotsHeld := by
  induction hedits with
  | refl => exact h
  | tail _ hedit ih => exact ih.edit hedit

theorem reset (h : g.SlotsHeld) : g.reset.SlotsHeld := by
  have hless {w : Square → ℕ} (hw : OfIds w) : g.reset.weight w ≤ g.weight w :=
    weight_reset_le hw.clean g
  exact h.of_weight_le le_rfl rfl (fun _ hid _ => hless (uses_ofIds hid)) (hless stray_ofIds)
    (.of_none rfl) (.of_none rfl)

theorem resize (h : g.SlotsHeld) (reflow : Bool) (lines columns : ℕ) :
    (g.resize reflow lines columns).SlotsHeld := by
  obtain ⟨htemplate, hsaved, hstyles, htable⟩ := resize_frame g reflow lines columns
  refine h.of_noNew ?_ htable (fun w hw _ => weight_resize_le hw g reflow lines columns)
    (htemplate.symm ▸ h.template) (hsaved.symm ▸ h.savedTemplate)
  rw [hstyles]

end SlotsHeld

theorem weight_new {w : Square → ℕ} (hw : w default = 0) (lines columns limit : ℕ) :
    (new lines columns limit : Grid Square).weight w = 0 :=
  total_replicate_of_zero (Row.weight_new hw columns) lines

theorem new_slotsHeld (lines columns limit : ℕ) :
    (new lines columns limit : Grid Square).SlotsHeld := by
  refine ⟨Nat.one_pos, ExtrasTable.new_stocked, fun id hid _ => ?_, fun id e hid _ _ => ?_,
    weight_new rfl lines columns limit, .of_none rfl, .of_none rfl⟩
  · exact weight_new (uses_ofIds hid).blank lines columns limit
  · exact (weight_new (uses_ofIds hid).blank lines columns limit).trans_le (Nat.zero_le _)

/-- The slot of every cell with text is occupied, and the next one to be given out is none of
theirs. -/
structure SlotsSafe (g : Grid Square) : Prop where
  occupied : ∀ r ∈ g.raw.inner, ∀ c ∈ r.inner, c.isBgOnly = false →
    ∀ id, c.extrasId = some id → g.extrasTable.get id ≠ none
  fresh : ∀ r ∈ g.raw.inner, ∀ c ∈ r.inner, c.isBgOnly = false →
    ∀ extras, c.extrasId ≠ some (g.extrasTable.alloc extras).2

theorem SlotsHeld.safe (h : g.SlotsHeld) : g.SlotsSafe := by
  have hused {r : Row Square} {c : Square} (hr : r ∈ g.raw.inner) (hc : c ∈ r.inner)
      (htext : c.isBgOnly = false) {id : ExtrasId} (hid : c.extrasId = some id) :
      0 < g.weight (uses id) := by
    have hone := uses_eq_one htext hid
    have hle := weight_mem_le (w := uses id) hr hc
    omega
  refine ⟨fun r hr c hc htext id hid hnone => ?_, fun r hr c hc htext extras hid => ?_⟩
  · have hzero := h.free id (Square.extrasId_eq_some.mp hid).2 hnone
    exact (hused hr hc htext hid).ne hzero.symm
  · obtain hzero | ⟨hzero, -⟩ := (h.alloc extras).2
    · exact (Square.extrasId_eq_some.mp hid).2 hzero
    · exact (hused hr hc htext hid).ne hzero.symm

end Grid

/-! ### Changes of one cell -/

/-- What is attached to a cell or removed from it. -/
inductive ExtrasEdit
  | zeroWidth (c : Char)
  | placeGraphic (graphic : GraphicCell)
  | clearGraphic
  deriving DecidableEq, Repr

/-- What a cell with some flags shows of a slot. -/
def Extras.shown (e : Extras) (flags : CellFlags) :
    List Char × Option Hyperlink × Option GraphicCell :=
  (e.zerowidth, if flags.hyperlink then e.hyperlink else none,
    if flags.graphics then e.graphic.bind List.head? else none)

/-- The characters without width, the hyperlink and the graphic of a cell. In a cell with only a
background the bits of the slot hold a color, and it has none of them. -/
def Grid.resolvedExtras (g : Grid Square) (p : Pos) :
    List Char × Option Hyperlink × Option GraphicCell :=
  if (g.cell p).isBgOnly then Extras.shown {} {}
  else
    ((((g.cell p).extrasId.bind g.extrasTable.get).map Extras.zerowidth).getD [],
      g.hyperlinkOf (g.cell p), g.cellGraphic p)

namespace ExtrasEdit

variable {g : Grid Square} {p q : Pos} {id : ExtrasId} {e : Extras}

def apply (g : Grid Square) (p : Pos) : ExtrasEdit → Grid Square
  | zeroWidth c => Crosswords.pushZeroWidth g p c
  | placeGraphic graphic => Crosswords.placeGraphicCell g p graphic
  | clearGraphic => g.clearGraphicAt p

/-- The slot that is written to if it is occupied; a character without width goes to whatever slot
the bits of a cell with only a background happen to name. -/
def slot (g : Grid Square) (p : Pos) : ExtrasEdit → Option ExtrasId
  | zeroWidth _ => (g.cell p).extrasId
  | placeGraphic _ => g.slotOf p
  | clearGraphic => if (g.cell p).flags.graphics then g.slotOf p else none

/-- What the slot holds afterwards. -/
def write (e : Extras) : ExtrasEdit → Extras
  | zeroWidth c => { e with zerowidth := e.zerowidth ++ [c] }
  | placeGraphic graphic => { e with graphic := some [graphic] }
  | clearGraphic => { e with graphic := none }

/-- Another cell of the slot would show the change. -/
def Shows (g : Grid Square) (q : Pos) : ExtrasEdit → Prop
  | zeroWidth _ => True
  | placeGraphic graphic => (g.cell q).flags.graphics = true ∧ g.cellGraphic q ≠ some graphic
  | clearGraphic => g.cellGraphic q ≠ none

/-- The cell is written, and the table. -/
theorem apply_eq (edit : ExtrasEdit) (g : Grid Square) (p : Pos) :
    ∃ f table, edit.apply g p = { g.modifyCell p f with extrasTable := table } := by
  cases edit with
  | zeroWidth c => exact Crosswords.pushZeroWidth_eq g p c
  | placeGraphic graphic => exact Crosswords.placeGraphicCell_eq g p graphic
  | clearGraphic => exact Grid.clearGraphicAt_eq g p

theorem cell_apply (h : g.Sound False) (hp : g.HasCell p) (hq : g.HasCell q) (hne : q ≠ p)
    (edit : ExtrasEdit) : (edit.apply g p).cell q = g.cell q := by
  obtain ⟨f, table, heq⟩ := edit.apply_eq g p
  rw [heq]
  exact (Grid.cell_modifyCell h hp hq f).trans (if_neg hne)

theorem styleSet_apply (edit : ExtrasEdit) (g : Grid Square) (p : Pos) :
    (edit.apply g p).styleSet = g.styleSet := by
  obtain ⟨f, table, heq⟩ := edit.apply_eq g p
  rw [heq]
  rfl

/-- The other slots that are occupied stay as they are. -/
theorem get_apply_of_ne (h : g.SlotsHeld) (edit : ExtrasEdit) (hget : g.extrasTable.get id = some e)
    (hne : edit.slot g p ≠ some id) : (edit.apply g p).extrasTable.get id = some e := by
  have halloc (extras : Extras) : (g.extrasTable.alloc extras).1.get id = some e :=
    ExtrasTable.get_alloc h.stocked hget extras
  have hmodify {own : ExtrasId} (hown : some own ≠ some id) (f : Extras → Extras) :
      (g.extrasTable.modify own f).get id = some e :=
    (ExtrasTable.get_modify_of_ne (fun heq => hown (congrArg some heq.symm)) f).trans hget
  cases edit with
  | zeroWidth c =>
    change (g.cell p).extrasId ≠ some id at hne
    show (Crosswords.pushZeroWidth g p c).extrasTable.get id = some e
    unfold Crosswords.pushZeroWidth
    split
    · next own hown => exact hmodify (hown ▸ hne) _
    · exact halloc _
  | placeGraphic graphic =>
    change g.slotOf p ≠ some id at hne
    show (Crosswords.placeGraphicCell g p graphic).extrasTable.get id = some e
    obtain ⟨own, c, hslot, -, -, -, heq⟩ | ⟨c, -, -, -, heq⟩ :=
      Grid.placeGraphicCell_cases g p graphic
    · rw [heq]
      exact hmodify (hslot ▸ hne) _
    · rw [heq]
      exact halloc _
  | clearGraphic =>
    change (if (g.cell p).flags.graphics then g.slotOf p else none) ≠ some id at hne
    show (g.clearGraphicAt p).extrasTable.get id = some e
    rcases hflag : (g.cell p).flags.graphics with _ | _
    · have hsame : g.clearGraphicAt p = g.modifyCell p fun cell => cell :=
        if_neg (by simp [hflag])
      rw [hsame]
      exact hget
    · rw [if_pos hflag] at hne
      have hother {own : ExtrasId} (hown : (g.cell p).extrasId = some own) : some own ≠ some id :=
        Grid.slotOf_of_cell (h.text_of_flag hflag) hown ▸ hne
      have hremoves := Grid.clearCellGraphic_removes g.extrasTable (g.cell p)
      rw [Grid.clearGraphicAt_of_flag hflag]
      generalize Grid.clearCellGraphic g.extrasTable (g.cell p) = cleared at hremoves ⊢
      obtain ⟨table, c⟩ := cleared
      cases hremoves with
      | unheld htag hhi hfree => exact hget
      | kept htag hhi hown => exact hmodify (hother hown) _
      | @takenBack _ hhi own _ hown hheld hempty =>
        have hne' : id ≠ own := fun heq => hother hown (congrArg some heq.symm)
        have hfreed := ExtrasTable.get_free
          (g.extrasTable.modify own fun e => { e with graphic := none })
          (Square.extrasId_eq_some.mp hown).2
        exact (hfreed.2 id hne').trans (hmodify (hother hown) _)

/-- The slot that is written to; it stays if it has a hyperlink. -/
theorem get_apply_slot (edit : ExtrasEdit) (hget : g.extrasTable.get id = some e)
    (hslot : edit.slot g p = some id) (hlink : edit = clearGraphic → e.hyperlink ≠ none) :
    (edit.apply g p).extrasTable.get id = some (edit.write e) := by
  have hmodify (f : Extras → Extras) : (g.extrasTable.modify id f).get id = some (f e) := by
    rw [ExtrasTable.get_modify_self, hget]
    rfl
  cases edit with
  | zeroWidth c =>
    change (g.cell p).extrasId = some id at hslot
    show (Crosswords.pushZeroWidth g p c).extrasTable.get id = _
    unfold Crosswords.pushZeroWidth
    rw [hslot]
    exact hmodify _
  | placeGraphic graphic =>
    change g.slotOf p = some id at hslot
    show (Crosswords.placeGraphicCell g p graphic).extrasTable.get id = _
    obtain ⟨own, c, hown, -, -, -, heq⟩ | ⟨c, hnone, -, -, heq⟩ :=
      Grid.placeGraphicCell_cases g p graphic
    · obtain rfl : own = id := Option.some.inj (hown.symm.trans hslot)
      rw [heq]
      exact hmodify _
    · exact absurd (hnone.symm.trans hslot) (Option.some_ne_none id).symm
  | clearGraphic =>
    change (if (g.cell p).flags.graphics then g.slotOf p else none) = some id at hslot
    show (g.clearGraphicAt p).extrasTable.get id = _
    split_ifs at hslot with hflag
    have hid := (Grid.slotOf_eq_some hslot).2
    have hremoves := Grid.clearCellGraphic_removes g.extrasTable (g.cell p)
    rw [Grid.clearGraphicAt_of_flag hflag]
    generalize Grid.clearCellGraphic g.extrasTable (g.cell p) = cleared at hremoves ⊢
    obtain ⟨table, c⟩ := cleared
    cases hremoves with
    | unheld htag hhi hfree =>
      exact absurd ((hfree id hid).symm.trans hget) (Option.some_ne_none e).symm
    | kept htag hhi hown =>
      obtain rfl := Option.some.inj (hown.symm.trans hid)
      exact hmodify _
    | takenBack hhi hown hheld hempty =>
      obtain rfl := Option.some.inj (hown.symm.trans hid)
      obtain rfl := Option.some.inj (hheld.symm.trans hget)
      exact absurd (congrArg Extras.hyperlink hempty) (hlink rfl)

end ExtrasEdit

/-! ### Other cells -/

namespace Grid

variable {g g' : Grid Square} {p q : Pos} {id : ExtrasId} {e : Extras}

theorem cellGraphic_of_slot (hslot : g.slotOf q = some id) (hget : g.extrasTable.get id = some e) :
    g.cellGraphic q = if (g.cell q).flags.graphics then e.graphic.bind List.head? else none := by
  unfold cellGraphic
  rw [(slotOf_eq_some hslot).2, Option.bind_some, hget, Option.bind_some]

theorem resolvedExtras_of_slot (hslot : g.slotOf q = some id)
    (hget : g.extrasTable.get id = some e) : g.resolvedExtras q = e.shown (g.cell q).flags := by
  have hgraphic := cellGraphic_of_slot hslot hget
  obtain ⟨htext, hid⟩ := slotOf_eq_some hslot
  unfold resolvedExtras hyperlinkOf Extras.shown
  rw [htext, if_neg Bool.false_ne_true, hgraphic, hid, Option.bind_some, hget, Option.bind_some]
  rfl

/-- A cell without a slot shows the same with every table. -/
theorem resolvedExtras_of_no_slot (hslot : g.slotOf q = none) (hcell : g'.cell q = g.cell q) :
    g'.resolvedExtras q = g.resolvedExtras q := by
  unfold slotOf at hslot
  unfold resolvedExtras hyperlinkOf cellGraphic
  rw [hcell]
  split_ifs at hslot ⊢
  · rfl
  all_goals rw [hslot]; rfl

theorem slotOf_of_cell_eq (hcell : g'.cell q = g.cell q) : g'.slotOf q = g.slotOf q := by
  unfold slotOf
  rw [hcell]

/-- A slot of two cells with text has a hyperlink. -/
theorem SlotsHeld.link_of_shared (h : g.SlotsHeld) (hsound : g.Sound False) (hp : g.HasCell p)
    (hq : g.HasCell q) (hne : q ≠ p) (hslot : g.slotOf p = some id)
    (hslot' : g.slotOf q = some id) (hget : g.extrasTable.get id = some e) :
    e.hyperlink ≠ none := by
  intro hlink
  obtain ⟨htext, hid⟩ := slotOf_eq_some hslot
  obtain ⟨htext', hid'⟩ := slotOf_eq_some hslot'
  have hnonzero := (Square.extrasId_eq_some.mp hid).2
  have hblank := (uses_ofIds hnonzero).blank
  have hone := h.single id e hnonzero hget hlink
  have hcleared := weight_modifyCell_add_le hblank g p fun _ => default
  have hother : (g.modifyCell p fun _ => default).cell q = g.cell q :=
    (cell_modifyCell hsound hp hq _).trans (if_neg hne)
  have hheld := weight_cell_le hblank (g.modifyCell p fun _ => default) q
  rw [hother, uses_eq_one htext' hid'] at hheld
  rw [uses_eq_one htext hid, hblank] at hcleared
  omega

/-- The slot of a cell is occupied. -/
theorem SlotsHeld.exists_get (h : g.SlotsHeld) (hslot : g.slotOf q = some id) :
    ∃ e, g.extrasTable.get id = some e := by
  obtain ⟨htext, hid⟩ := slotOf_eq_some hslot
  refine Option.ne_none_iff_exists'.mp fun hnone => ?_
  have hnonzero := (Square.extrasId_eq_some.mp hid).2
  have hzero := h.free id hnonzero hnone
  have hheld := weight_cell_le (uses_ofIds hnonzero).blank g q
  rw [uses_eq_one htext hid] at hheld
  omega

end Grid

namespace ExtrasEdit

variable {g : Grid Square} {p q : Pos} {id : ExtrasId} {e : Extras}

theorem shown_write_iff (edit : ExtrasEdit) (hslot : g.slotOf q = some id)
    (hget : g.extrasTable.get id = some e) :
    (edit.write e).shown (g.cell q).flags = e.shown (g.cell q).flags ↔ ¬ edit.Shows g q := by
  have hgraphic := Grid.cellGraphic_of_slot hslot hget
  cases edit with
  | zeroWidth c =>
    refine iff_of_false (fun heq => ?_) fun hshows => hshows trivial
    have hlen := congrArg List.length (congrArg Prod.fst heq)
    have hlonger : (e.zerowidth ++ [c]).length = e.zerowidth.length := hlen
    rw [List.length_append, List.length_singleton] at hlonger
    omega
  | placeGraphic graphic =>
    show _ ↔ ¬ ((g.cell q).flags.graphics = true ∧ g.cellGraphic q ≠ some graphic)
    rw [hgraphic]
    unfold Extras.shown write
    rcases (g.cell q).flags.graphics with _ | _
    · exact iff_of_true rfl fun hshows => Bool.false_ne_true hshows.1
    · refine ⟨fun heq hshows => ?_, fun hsame => ?_⟩
      · exact hshows.2 (congrArg (·.2.2) heq).symm
      · have hgraphic : e.graphic.bind List.head? = some graphic :=
          by_contra fun hother => hsame ⟨rfl, hother⟩
        simp [hgraphic]
  | clearGraphic =>
    show _ ↔ ¬ (g.cellGraphic q ≠ none)
    rw [hgraphic, not_not]
    unfold Extras.shown write
    refine ⟨fun heq => ?_, fun hnone => ?_⟩
    · have hnone := (congrArg (·.2.2) heq).symm
      simpa using hnone
    · simp [hnone]

/-- What another cell shows afterwards. -/
theorem resolvedExtras_apply_iff (hslots : g.SlotsHeld) (hsound : g.Sound False) (hp : g.HasCell p)
    (hq : g.HasCell q) (hne : q ≠ p) (edit : ExtrasEdit) :
    (edit.apply g p).resolvedExtras q = g.resolvedExtras q ↔
      ∀ id, edit.slot g p = some id → g.slotOf q = some id → ¬ edit.Shows g q := by
  have hcell := cell_apply hsound hp hq hne edit
  rcases hslot : g.slotOf q with _ | id
  · exact iff_of_true (Grid.resolvedExtras_of_no_slot hslot hcell)
      fun id _ hid => absurd hid (Option.some_ne_none id).symm
  have hslot' : (edit.apply g p).slotOf q = some id := (Grid.slotOf_of_cell_eq hcell).trans hslot
  obtain ⟨e, hget⟩ := hslots.exists_get hslot
  rw [Grid.resolvedExtras_of_slot hslot hget]
  by_cases hshared : edit.slot g p = some id
  · have hlink : edit = clearGraphic → e.hyperlink ≠ none := by
      rintro rfl
      change (if (g.cell p).flags.graphics then g.slotOf p else none) = some id at hshared
      split_ifs at hshared
      exact hslots.link_of_shared hsound hp hq hne hshared hslot hget
    rw [Grid.resolvedExtras_of_slot hslot' (get_apply_slot edit hget hshared hlink), hcell,
      shown_write_iff edit hslot hget]
    exact ⟨fun hshows _ _ _ => hshows, fun hall => hall id hshared rfl⟩
  · have hkept := get_apply_of_ne hslots edit hget hshared
    refine iff_of_true ?_ fun id' hid' hsame => absurd (hsame ▸ hid') hshared
    rw [Grid.resolvedExtras_of_slot hslot' hkept, hcell]

end ExtrasEdit

namespace Crosswords
open Rio.Runs

variable {t t' : Crosswords} {p : Pos}

/-- The change of a cell leaves all other cells of both screens and the history as they are. -/
def Isolated (t : Crosswords) (edit : ExtrasEdit) (p : Pos) : Prop :=
  let t' := t.mapGrid (edit.apply · p)
  t'.inactiveGrid = t.inactiveGrid ∧ ∀ q, t.grid.HasCell q → q ≠ p →
    t'.grid.resolvedExtras q = t.grid.resolvedExtras q ∧
      t'.grid.resolvedStyle (t'.grid.cell q) = t.grid.resolvedStyle (t.grid.cell q)

/-- No other cell has the slot that is written to and shows the change. -/
def Unshared (t : Crosswords) (edit : ExtrasEdit) (p : Pos) : Prop :=
  ∀ q, t.grid.HasCell q → q ≠ p →
    ∀ id, edit.slot t.grid p = some id → t.grid.slotOf q = some id → ¬ edit.Shows t.grid q

theorem isolated_iff (hslots : t.grid.SlotsHeld) (hsound : t.grid.Sound False)
    (hp : t.grid.HasCell p) (edit : ExtrasEdit) : t.Isolated edit p ↔ t.Unshared edit p := by
  constructor
  · rintro ⟨-, hothers⟩ q hq hne
    exact (ExtrasEdit.resolvedExtras_apply_iff hslots hsound hp hq hne edit).mp (hothers q hq hne).1
  · intro hunshared
    refine ⟨rfl, fun q hq hne => ⟨?_, ?_⟩⟩
    · exact (ExtrasEdit.resolvedExtras_apply_iff hslots hsound hp hq hne edit).mpr
        (hunshared q hq hne)
    · have hcell := ExtrasEdit.cell_apply hsound hp hq hne edit
      have hstyles := edit.styleSet_apply t.grid p
      show (edit.apply t.grid p).resolvedStyle ((edit.apply t.grid p).cell q) = _
      rw [hcell]
      unfold Grid.resolvedStyle Grid.styleOf
      rw [hstyles]

/-! ### Runs -/

/-- Where the alternate screen is entered, the pen has no slot, or one that holds a hyperlink in
the table of that screen. -/
def PenLinked (t : Crosswords) (op : Op) : Prop :=
  op = .setPrivateMode (.named .swapScreenAndSetRestoreCursor) → t.mode.altScreen = false →
    t.grid.cursor.template.Linked t.inactiveGrid.extrasTable

/-- What holds of the slots of both screens in every state of a run. -/
structure SlotsApart (t : Crosswords) : Prop where
  grid : t.grid.SlotsHeld
  inactive : t.inactiveGrid.SlotsHeld

theorem SlotsApart.enter (h : t.SlotsApart) (halt : t.mode.altScreen = false)
    (hlinked : t.grid.cursor.template.Linked t.inactiveGrid.extrasTable) :
    t.swapAlt.SlotsApart := by
  unfold swapAlt
  rw [if_neg (by simp [halt])]
  have hentered : Grid.SlotsHeld { t.inactiveGrid with cursor := t.grid.cursor } :=
    h.inactive.of_noNew le_rfl rfl (fun _ _ _ => le_rfl) hlinked h.inactive.savedTemplate
  exact ⟨hentered.noNewIds (Grid.noNewIds_resetRegion _ _), h.grid.edit .save⟩

theorem SlotsApart.leave (h : t.SlotsApart) (halt : t.mode.altScreen = true) :
    t.swapAlt.SlotsApart := by
  unfold swapAlt
  rw [if_pos halt]
  exact ⟨h.inactive, h.grid⟩

theorem SlotsApart.resetState (h : t.SlotsApart) : t.resetState.SlotsApart := by
  unfold Crosswords.resetState
  dsimp only
  split_ifs
  · exact ⟨h.inactive.reset, h.grid.reset⟩
  · exact ⟨h.grid.reset, h.inactive.reset⟩

theorem SlotsApart.resize (h : t.SlotsApart) (numCols numLines cellWidth cellHeight : ℕ) :
    (t.resize numCols numLines cellWidth cellHeight).SlotsApart := by
  unfold Crosswords.resize
  dsimp only
  by_cases hsame : t.grid.columns = numCols ∧ t.grid.lines = numLines
  · rwa [if_pos hsame]
  · rw [if_neg hsame]
    exact ⟨h.grid.resize _ _ _, h.inactive.resize _ _ _⟩

theorem SlotsApart.step (h : t.SlotsApart) (u : Unicode) {op : Op} (hpen : PenLinked t op) :
    (t.step u op).SlotsApart := by
  by_cases hone : BothScreens op
  · cases op with
    | setPrivateMode mode =>
      rcases mode with mode | mode
      · cases mode with
        | swapScreenAndSetRestoreCursor =>
          show (if t.mode.altScreen then t else t.swapAlt).SlotsApart
          split_ifs with halt
          · exact h
          · have halt' : t.mode.altScreen = false := by simpa using halt
            exact h.enter halt' (hpen rfl halt')
        | _ => exact hone.elim
      · exact hone.elim
    | unsetPrivateMode mode =>
      rcases mode with mode | mode
      · cases mode with
        | swapScreenAndSetRestoreCursor =>
          show (if t.mode.altScreen then t.swapAlt else t).SlotsApart
          split_ifs with halt
          · exact h.leave halt
          · exact h
        | _ => exact hone.elim
      · exact hone.elim
    | resetState => exact h.resetState
    | resize numCols numLines cellWidth cellHeight => exact h.resize _ _ cellWidth cellHeight
    | _ => exact hone.elim
  · obtain ⟨hedits, hinactive⟩ := step_edits u t h.grid.styles hone
    refine ⟨h.grid.edits hedits, ?_⟩
    rw [hinactive]
    exact h.inactive

theorem run_slotsApart (u : Unicode) (columns lines limit : ℕ) {ops : List Op}
    (hpens : Permitted (step u) PenLinked (new columns lines limit) ops) :
    ((new columns lines limit).run u ops).SlotsApart :=
  invariant (fun _ _ h hpen => h.step u hpen) ops _
    ⟨Grid.new_slotsHeld lines columns limit, Grid.new_slotsHeld lines columns 0⟩ hpens

/-- Where every pen that goes over to the alternate screen has its hyperlink there, no cell has a
slot that has been taken back or will be given out; and a change of a cell leaves all others alone
exactly when none of them has the same slot and shows the change. -/
theorem run_isolated_iff (u : Unicode) {columns lines : ℕ} (hcolumns : 2 ≤ columns)
    (hlines : 1 ≤ lines) (limit : ℕ) {ops : List Op} (hsized : ∀ op ∈ ops, op.Sized)
    (hpens : Permitted (step u) PenLinked (new columns lines limit) ops) :
    ((new columns lines limit).run u ops).grid.SlotsSafe ∧
      ((new columns lines limit).run u ops).inactiveGrid.SlotsSafe ∧
      ∀ edit p, ((new columns lines limit).run u ops).grid.HasCell p →
        (((new columns lines limit).run u ops).Isolated edit p ↔
          ((new columns lines limit).run u ops).Unshared edit p) := by
  have hsound := run_sound u hcolumns hlines limit hsized
  have hslots := run_slotsApart u columns lines limit hpens
  exact ⟨hslots.grid.safe, hslots.inactive.safe, fun edit p hp =>
    isolated_iff hslots.grid hsound.grid hp edit⟩

theorem run_isolated_iff_ended_link :
    ((new 4 2 5).run .basic [.setHyperlink (some ⟨"1", "uri"⟩), .input 'a', .setHyperlink none,
        .setPrivateMode (.named .swapScreenAndSetRestoreCursor)]).grid.SlotsSafe ∧
      ((new 4 2 5).run .basic [.setHyperlink (some ⟨"1", "uri"⟩), .input 'a',
        .setHyperlink none,
        .setPrivateMode (.named .swapScreenAndSetRestoreCursor)]).inactiveGrid.SlotsSafe ∧
      ∀ edit p, ((new 4 2 5).run .basic [.setHyperlink (some ⟨"1", "uri"⟩), .input 'a',
          .setHyperlink none,
          .setPrivateMode (.named .swapScreenAndSetRestoreCursor)]).grid.HasCell p →
        (((new 4 2 5).run .basic [.setHyperlink (some ⟨"1", "uri"⟩), .input 'a',
            .setHyperlink none,
            .setPrivateMode (.named .swapScreenAndSetRestoreCursor)]).Isolated edit p ↔
          ((new 4 2 5).run .basic [.setHyperlink (some ⟨"1", "uri"⟩), .input 'a',
            .setHyperlink none,
            .setPrivateMode (.named .swapScreenAndSetRestoreCursor)]).Unshared edit p) :=
  run_isolated_iff .basic (by decide) (by decide) 5 (by simp [Op.Sized])
    ⟨fun h => absurd h (by simp), fun h => absurd h (by simp), fun h => absurd h (by simp),
      fun _ _ => .of_none rfl, trivial⟩

/-- A character without width goes to all cells of a hyperlink; one that is attached to a blank
cell with a blue background goes to the cell whose slot has the number of that blue; and the pen of
a hyperlink prints cells on the alternate screen whose slot is free there. -/
theorem zeroWidth_not_isolated :
    (¬ ((new 4 2 5).run .basic [.setHyperlink (some ⟨"1", "uri"⟩), .input 'a',
        .input 'b']).Isolated (.zeroWidth '\u200d') ⟨0, 1⟩ ∧
      ((new 4 2 5).run .basic [.setHyperlink (some ⟨"1", "uri"⟩), .input 'a',
        .input 'b', .input '\u200d']).grid.resolvedExtras ⟨0, 0⟩ =
          (['\u200d'], some ⟨"1", "uri"⟩, none)) ∧
    ¬ ((new 4 2 5).run .basic [.setHyperlink (some ⟨"1", "uri"⟩), .input 'a',
        .setHyperlink none, .terminalAttribute (.background (.spec 0 0 1)),
        .eraseChars 1]).Isolated (.zeroWidth '\u200d') ⟨0, 1⟩ ∧
    ¬ ((new 4 2 5).run .basic [.setHyperlink (some ⟨"1", "uri"⟩),
        .setPrivateMode (.named .swapScreenAndSetRestoreCursor),
        .input 'a']).grid.SlotsSafe := by
  refine ⟨⟨fun h => ?_, by decide⟩, fun h => ?_, fun h => ?_⟩
  · have hother := (h.2 ⟨0, 0⟩ ⟨by decide, by decide, by decide⟩ (by decide)).1
    exact absurd hother (by decide)
  · have hother := (h.2 ⟨0, 0⟩ ⟨by decide, by decide, by decide⟩ (by decide)).1
    exact absurd hother (by decide)
  · generalize hgrid : Crosswords.grid _ = g at h
    have hrow : g.row 0 ∈ g.raw.inner := hgrid ▸ by decide
    have hcell : (g.row 0).cell 0 ∈ (g.row 0).inner := hgrid ▸ by decide
    exact h.occupied _ hrow _ hcell (hgrid ▸ by decide) 1 (hgrid ▸ by decide)
      (hgrid ▸ by decide)

end Crosswords
end Rio
