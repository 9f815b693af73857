import Rio.Crosswords.Selectors
import Rio.Grid.Slots

/-! What storing graphics in cells does to the cells, to their slots and to other cells. -/

set_option linter.dupNamespace false

namespace Rio

/-! ### Tables over runs -/

namespace Grid

variable {g g' : Grid Square}

theorem edit_stocked (hedit : g.Edit g') (h : g.extrasTable.Stocked) : g'.extrasTable.Stocked := by
  cases hedit with
  | move hmove => exact hmove.extrasTable ▸ h
  | fill line hc hf => exact h
  | write p hc => exact h
  | relocate p q hc hmove hbase =>
    have heq := hmove.extrasTable
    show ExtrasTable.Stocked (Grid.extrasTable _)
    exact heq ▸ h
  | intern style => exact h
  | setTemplateStyle style => exact h
  | startHyperlink hl => exact h.alloc _
  | endHyperlink => exact h
  | save => exact h
  | restore => exact h
  | zeroWidth p ch =>
    unfold Crosswords.pushZeroWidth
    split
    · exact h.modify _ _
    · exact h.alloc _
  | placeGraphic p graphic =>
    unfold Crosswords.placeGraphicCell
    dsimp only
    split
    · exact h.modify _ _
    · exact h.alloc _
  | clearGraphic p =>
    unfold clearGraphicAt
    split_ifs
    · unfold clearCellGraphic
      dsimp only
      split
      · exact h
      · split
        · exact h
        · split_ifs
          · exact (h.modify _ _).free _
          · exact h.modify _ _
    · exact h

theorem edits_stocked (hedits : Relation.ReflTransGen Edit g g') (h : g.extrasTable.Stocked) :
    g'.extrasTable.Stocked := by
  induction hedits with
  | refl => exact h
  | tail _ hedit ih => exact edit_stocked hedit ih

end Grid

namespace Crosswords

variable {t t' : Crosswords}

/-- The extras tables of both screens give out free slots only. -/
def Stocked (t : Crosswords) : Prop :=
  t.grid.extrasTable.Stocked ∧ t.inactiveGrid.extrasTable.Stocked

theorem Stocked.swapAlt (h : t.Stocked) : t.swapAlt.Stocked := by
  unfold Crosswords.swapAlt
  dsimp only
  split_ifs
  · exact ⟨h.2, h.1⟩
  · exact ⟨h.2, h.1⟩

theorem Stocked.step (h : t.Stocked) (hready : t.Ready) (u : Unicode) (op : Op) :
    (t.step u op).Stocked := by
  by_cases hone : BothScreens op
  · cases op with
    | setPrivateMode mode =>
      rcases mode with mode | mode
      · cases mode with
        | swapScreenAndSetRestoreCursor =>
          show (if _ then _ else _ : Crosswords).Stocked
          split_ifs
          · exact h
          · exact h.swapAlt
        | _ => exact hone.elim
      · exact hone.elim
    | unsetPrivateMode mode =>
      rcases mode with mode | mode
      · cases mode with
        | swapScreenAndSetRestoreCursor =>
          show (if _ then _ else _ : Crosswords).Stocked
          split_ifs
          · exact h.swapAlt
          · exact h
        | _ => exact hone.elim
      · exact hone.elim
    | resetState =>
      show t.resetState.Stocked
      unfold resetState
      dsimp only
      split_ifs
      · exact ⟨h.2, h.1⟩
      · exact h
    | resize numCols numLines cellWidth cellHeight =>
      show (t.resize numCols numLines cellWidth cellHeight).Stocked
      unfold resize
      dsimp only
      by_cases hsame : t.grid.columns = numCols ∧ t.grid.lines = numLines
      · rw [if_pos hsame]
        exact h
      · rw [if_neg hsame]
        have hgrid := (Grid.resize_frame t.grid (!t.mode.altScreen) numLines numCols).2.2.2
        have hother := (Grid.resize_frame t.inactiveGrid t.mode.altScreen numLines numCols).2.2.2
        refine ⟨?_, ?_⟩
        · rw [hgrid]
          exact h.1
        · rw [hother]
          exact h.2
    | _ => exact hone.elim
  · obtain ⟨hedits, hinactive⟩ := step_edits u t hready.styles.length_pos hone
    refine ⟨Grid.edits_stocked hedits h.1, ?_⟩
    rw [hinactive]
    exact h.2

open Rio.Runs in
theorem run_stocked (u : Unicode) (columns lines limit : ℕ) {ops : List Op}
    (hplaced : ∀ op ∈ ops, Placed op) : ((new columns lines limit).run u ops).Stocked := by
  have hready : ((new columns lines limit).run u []).Ready :=
    run_ready u columns lines limit fun _ hop => absurd hop List.not_mem_nil
  have hstart : (new columns lines limit).Ready ∧ (new columns lines limit).Stocked :=
    ⟨hready, ExtrasTable.new_stocked, ExtrasTable.new_stocked⟩
  have hpermitted : Permitted (step u) (fun _ op => Placed op) (new columns lines limit) ops :=
    .of_forall hplaced
  exact (invariant (I := fun t => t.Ready ∧ t.Stocked)
    (fun t op h hop => ⟨h.1.step u hop, h.2.step h.1 u op⟩) ops _ hstart hpermitted).2

end Crosswords

/-! ### A graphic in a cell -/

namespace Grid

variable {g : Grid Square} {p q : Pos}

/-- What is shown where there is no text. -/
def noText : Char × Wide × List Char := ('\x00', .narrow, [])

/-- What a cell shows of the text; a cell with only a background shows none. -/
def cellText (g : Grid Square) (p : Pos) : Char × Wide × List Char :=
  if (g.cell p).isBgOnly then noText
  else ((g.cell p).c, (g.cell p).wide,
    (((g.cell p).extrasId.bind g.extrasTable.get).map Extras.zerowidth).getD [])

/-- The slot of a cell that can hold a graphic. -/
def slotOf (g : Grid Square) (p : Pos) : Option ExtrasId :=
  if (g.cell p).isBgOnly then none else (g.cell p).extrasId

/-- The text of a slot. -/
def zerowidthOf (g : Grid Square) (id : ExtrasId) : List Char :=
  ((g.extrasTable.get id).map Extras.zerowidth).getD []

/-- A graphic is stored in a slot for a cell: the one it has, or one that was free. -/
structure Stores (g g' : Grid Square) (p : Pos) (graphic : GraphicCell) (id : ExtrasId) : Prop where
  hasCell : ∀ q, g'.HasCell q ↔ g.HasCell q
  cell : ∀ q, g.HasCell q → q ≠ p → g'.cell q = g.cell q
  text : g'.cellText p = g.cellText p
  slot : g'.slotOf p = some id
  shown : g'.cellGraphic p = some graphic
  own : ∀ own, g.slotOf p = some own → id = own
  free : g.slotOf p = none → g.extrasTable.get id = none
  occupied : g'.extrasTable.get id ≠ none
  get : ∀ id', id' ≠ id → g'.extrasTable.get id' = g.extrasTable.get id'
  zerowidth : ∀ id', g'.zerowidthOf id' = g.zerowidthOf id'
  stocked : g'.extrasTable.Stocked
  room : g.extrasTable.room ≤ g'.extrasTable.room + 1

theorem slotOf_eq_some {id : ExtrasId} (h : g.slotOf p = some id) :
    (g.cell p).isBgOnly = false ∧ (g.cell p).extrasId = some id := by
  unfold slotOf at h
  split_ifs at h with hbg
  exact ⟨by simpa using hbg, h⟩

theorem slotOf_of_cell {id : ExtrasId} (hbg : (g.cell p).isBgOnly = false)
    (hid : (g.cell p).extrasId = some id) : g.slotOf p = some id := by
  unfold slotOf
  rw [hbg]
  exact hid

theorem cellText_of_slot {id : ExtrasId} (h : g.slotOf p = some id) :
    g.cellText p = ((g.cell p).c, (g.cell p).wide, g.zerowidthOf id) := by
  obtain ⟨hbg, hid⟩ := slotOf_eq_some h
  unfold cellText zerowidthOf
  rw [hbg, hid]
  rfl

theorem cellText_of_no_slot (h : g.slotOf p = none) :
    g.cellText p = if (g.cell p).isBgOnly then noText
      else ((g.cell p).c, (g.cell p).wide, []) := by
  unfold cellText
  split_ifs with hbg
  · rfl
  · unfold slotOf at h
    rw [if_neg hbg] at h
    rw [h]
    rfl

theorem cellText_of_cell {g' : Grid Square} (hcell : g'.cell p = g.cell q)
    (htable : g'.extrasTable = g.extrasTable) : g'.cellText p = g.cellText q := by
  unfold cellText
  rw [hcell, htable]

theorem cellText_of_blank {id : StyleId} (hcell : g.cell p = { lo := id }) :
    g.cellText p = noText := by
  unfold cellText
  rw [hcell]
  rfl

theorem zerowidthOf_of_get {id : ExtrasId} {e : Extras} (hget : g.extrasTable.get id = some e) :
    g.zerowidthOf id = e.zerowidth := by
  unfold zerowidthOf
  rw [hget]
  rfl

theorem zerowidthOf_of_free {id : ExtrasId} (hget : g.extrasTable.get id = none) :
    g.zerowidthOf id = [] := by
  unfold zerowidthOf
  rw [hget]
  rfl

/-- What is written to the cell and its slot shows the graphic and the text. -/
theorem stores_of_eq (h : g.Sound False) (hp : g.HasCell p) {graphic : GraphicCell} {cell : Square}
    {table : ExtrasTable} {id : ExtrasId} {e : Extras}
    (hplaced : Crosswords.placeGraphicCell g p graphic =
      { g.modifyCell p fun _ => { cell with flags := { cell.flags with graphics := true } } with
        extrasTable := table })
    (hbg : cell.isBgOnly = false) (hid : cell.extrasId = some id)
    (hget : table.get id = some e) (he : e.graphic = some [graphic])
    (hzerowidth : e.zerowidth = g.zerowidthOf id)
    (htext : (cell.c, cell.wide, g.zerowidthOf id) = g.cellText p)
    (hother : ∀ id', id' ≠ id → table.get id' = g.extrasTable.get id')
    (hown : ∀ own, g.slotOf p = some own → id = own)
    (hfree : g.slotOf p = none → g.extrasTable.get id = none)
    (hstocked : table.Stocked) (hroom : g.extrasTable.room ≤ table.room + 1) :
    g.Stores (Crosswords.placeGraphicCell g p graphic) p graphic id := by
  rw [hplaced]
  obtain ⟨written, hwritten⟩ : ∃ written : Square, written =
    { cell with flags := { cell.flags with graphics := true } } := ⟨_, rfl⟩
  have hbg' : written.isBgOnly = false := hwritten ▸ hbg
  have hid' : written.extrasId = some id := hwritten ▸ hid
  have hflag : written.flags.graphics = true := hwritten ▸ rfl
  have htext' : (written.c, written.wide, g.zerowidthOf id) = g.cellText p := hwritten ▸ htext
  rw [← hwritten]
  obtain ⟨g', hg'⟩ : ∃ g', g' = { g.modifyCell p fun _ => written with extrasTable := table } :=
    ⟨_, rfl⟩
  have hcells (q : Pos) (hq : g.HasCell q) : g'.cell q = if q = p then written else g.cell q := by
    rw [hg']
    exact cell_modifyCell h hp hq _
  have hself : g'.cell p = written := (hcells p hp).trans (if_pos rfl)
  have htable : g'.extrasTable = table := by
    rw [hg']
  have hhas (q : Pos) : g'.HasCell q ↔ g.HasCell q := by
    rw [hg']
    rfl
  rw [← hg']
  have hslot : g'.slotOf p = some id := slotOf_of_cell (hself ▸ hbg') (hself ▸ hid')
  have hget' : g'.extrasTable.get id = some e := htable ▸ hget
  have hzero (id' : ExtrasId) : g'.zerowidthOf id' = g.zerowidthOf id' := by
    by_cases heq : id' = id
    · rw [heq, zerowidthOf_of_get hget', hzerowidth]
    · unfold zerowidthOf
      rw [htable, hother id' heq]
  refine ⟨hhas, fun q hq hne => (hcells q hq).trans (if_neg hne), ?_, hslot, ?_, hown, hfree, ?_,
    fun id' hne => htable ▸ hother id' hne, hzero, htable ▸ hstocked, htable ▸ hroom⟩
  · rw [cellText_of_slot hslot, hzero, hself, htext']
  · unfold cellGraphic
    rw [hself, if_pos hflag, hid', Option.bind_some, hget', Option.bind_some, he]
    rfl
  · rw [hget']
    exact Option.some_ne_none _

/-- The slot that the cell has is occupied. -/
theorem stores_own (h : g.Sound False) (hp : g.HasCell p) (hstocked : g.extrasTable.Stocked)
    (graphic : GraphicCell) {id : ExtrasId} (hslot : g.slotOf p = some id)
    (hoccupied : g.extrasTable.get id ≠ none) :
    g.Stores (Crosswords.placeGraphicCell g p graphic) p graphic id := by
  obtain ⟨hbg, hid⟩ := slotOf_eq_some hslot
  obtain ⟨e, he⟩ := Option.ne_none_iff_exists'.mp hoccupied
  have htext := cellText_of_slot hslot
  have hplaced : Crosswords.placeGraphicCell g p graphic =
      { g.modifyCell p fun _ =>
          { g.cell p with flags := { (g.cell p).flags with graphics := true } } with
        extrasTable := g.extrasTable.modify id fun e => { e with graphic := some [graphic] } } := by
    unfold Crosswords.placeGraphicCell
    rw [hbg, if_neg Bool.false_ne_true]
    dsimp only
    rw [hid]
  refine stores_of_eq (e := { e with graphic := some [graphic] }) h hp hplaced hbg hid ?_ rfl
    (zerowidthOf_of_get he).symm htext.symm
    (fun id' hne => ExtrasTable.get_modify_of_ne hne _)
    (fun own hown => Option.some.inj (hslot.symm.trans hown))
    (fun hnone => absurd (hslot.symm.trans hnone) (Option.some_ne_none _))
    (hstocked.modify _ _) ?_
  · rw [ExtrasTable.get_modify_self, he]
    rfl
  · rw [ExtrasTable.room_modify]
    omega

/-- The cell has no slot, and is given one. -/
theorem stores_new (h : g.Sound False) (hp : g.HasCell p) (hstocked : g.extrasTable.Stocked)
    (hroom : 0 < g.extrasTable.room) (graphic : GraphicCell) (hslot : g.slotOf p = none) :
    g.Stores (Crosswords.placeGraphicCell g p graphic) p graphic
      (g.extrasTable.alloc { graphic := some [graphic] }).2 := by
  have halloc := hstocked.allocates hroom { graphic := some [graphic] }
  have hstocked' := hstocked.alloc { graphic := some [graphic] }
  have htext := cellText_of_no_slot hslot
  obtain ⟨text, heq⟩ : ∃ text : Square, text =
    if (g.cell p).isBgOnly then (g.cell p).clear else g.cell p := ⟨_, rfl⟩
  have hnone : text.extrasId = none := by
    unfold slotOf at hslot
    rw [heq]
    split_ifs at hslot ⊢ with hbg
    · rfl
    · exact hslot
  have hbg : text.isBgOnly = false := by
    rw [heq]
    split_ifs with hbg
    · rfl
    · simpa using hbg
  obtain ⟨table, id, hgiven⟩ : ∃ table id,
    g.extrasTable.alloc { graphic := some [graphic] } = (table, id) := ⟨_, _, rfl⟩
  rw [hgiven] at halloc hstocked' ⊢
  have hplaced : Crosswords.placeGraphicCell g p graphic =
      { g.modifyCell p fun _ => { text.setExtrasId (some id) with
          flags := { (text.setExtrasId (some id)).flags with graphics := true } } with
        extrasTable := table } := by
    unfold Crosswords.placeGraphicCell
    rw [← heq]
    dsimp only
    rw [hnone, hgiven]
  have hempty := zerowidthOf_of_free halloc.free
  refine stores_of_eq h hp hplaced hbg (if_neg halloc.ne_zero) halloc.get_self rfl hempty.symm ?_
    halloc.get_of_ne (fun own hown => absurd (hslot.symm.trans hown).symm (Option.some_ne_none _))
    (fun _ => halloc.free) hstocked' halloc.room
  rw [htext, hempty, heq]
  split_ifs
  · rfl
  · rfl

end Grid

/-! ### Cells that an image is to cover -/

namespace Grid

variable {g g' : Grid Square} {p q : Pos} {covered pending pending' : Pos → Prop} {textureId : ℕ}
  {image image' : Pos → Option GraphicCell} {text : Pos → Char × Wide × List Char} {n : ℕ}

/-- A cell uses a slot: a cell that is to be covered for a graphic, another for the one it shows. -/
def Uses (g : Grid Square) (covered : Pos → Prop) (p : Pos) (id : ExtrasId) : Prop :=
  (covered p ∧ g.slotOf p = some id) ∨
    (¬covered p ∧ (g.cell p).flags.graphics = true ∧ (g.cell p).extrasId = some id)

/-- The slots in use are occupied, and no other cell uses the slot of a cell to be covered. -/
structure OwnSlots (g : Grid Square) (covered : Pos → Prop) : Prop where
  occupied : ∀ p id, g.HasCell p → g.Uses covered p id → g.extrasTable.get id ≠ none
  apart : ∀ p q id, g.HasCell p → g.HasCell q → covered p → g.slotOf p = some id →
    g.Uses covered q id → q = p

/-- The cells that are no longer to be covered show an image, and every cell shows its text;
`n` more slots can be given out. -/
structure Overlaid (g : Grid Square) (textureId : ℕ) (image : Pos → Option GraphicCell)
    (pending : Pos → Prop) (text : Pos → Char × Wide × List Char) (n : ℕ) : Prop
    extends g.OwnSlots pending where
  stocked : g.extrasTable.Stocked
  room : n ≤ g.extrasTable.room
  shown : ∀ p graphic, g.HasCell p → ¬pending p → graphic.texture.id = textureId →
    (g.cellGraphic p = some graphic ↔ image p = some graphic)
  text : ∀ p, g.HasCell p → g.cellText p = text p

theorem uses_of_slot (hp : covered p) {id : ExtrasId} (hslot : g.slotOf p = some id) :
    g.Uses covered p id :=
  .inl ⟨hp, hslot⟩

/-- The slot that a pending cell is given is used by no other cell. -/
theorem Overlaid.not_uses (h : g.Overlaid textureId image pending text n) (hp : g.HasCell p)
    (hpending : pending p) {graphic : GraphicCell} {id : ExtrasId}
    (hstores : g.Stores g' p graphic id) (hq : g.HasCell q) (hne : q ≠ p) :
    ¬g.Uses pending q id := by
  intro huses
  cases hslot : g.slotOf p with
  | none => exact h.occupied q id hq huses (hstores.free hslot)
  | some own =>
    rw [hstores.own own hslot] at huses
    exact hne (h.apart p q own hp hq hpending hslot huses)

theorem uses_of_cell (hcell : g'.cell p = g.cell p) (hcovered : pending' p ↔ pending p)
    {id : ExtrasId} : g'.Uses pending' p id ↔ g.Uses pending p id := by
  unfold Uses slotOf
  rw [hcell, hcovered]

/-- Storing a graphic in a pending cell. -/
theorem Overlaid.stores (h : g.Overlaid textureId image pending text (n + 1)) (hp : g.HasCell p)
    (hpending : pending p) {graphic : GraphicCell} {id : ExtrasId}
    (hstores : g.Stores g' p graphic id) :
    g'.Overlaid textureId (Function.update image p (some graphic)) (fun q => pending q ∧ q ≠ p)
      text n := by
  have huses (q : Pos) (hq : g.HasCell q) (hne : q ≠ p) {id' : ExtrasId} :
      g'.Uses (fun q => pending q ∧ q ≠ p) q id' ↔ g.Uses pending q id' :=
    uses_of_cell (hstores.cell q hq hne) (and_iff_left hne)
  have hself {id' : ExtrasId} (hid : g'.Uses (fun q => pending q ∧ q ≠ p) p id') : id' = id := by
    obtain ⟨⟨-, hne⟩, -⟩ | ⟨-, -, hid⟩ := hid
    · exact absurd rfl hne
    · exact Option.some.inj (hid.symm.trans (slotOf_eq_some hstores.slot).2)
  refine ⟨⟨fun q id' hq hid => ?_, fun q r id' hq hr hpend hslot hid => ?_⟩, hstores.stocked, ?_,
    fun q shown hq hdone htexture => ?_, fun q hq => ?_⟩
  · rw [hstores.hasCell] at hq
    by_cases hne : q = p
    · rw [hne] at hid
      rw [hself hid]
      exact hstores.occupied
    · have hbefore := (huses q hq hne).mp hid
      have hother : id' ≠ id := fun heq => h.not_uses hp hpending hstores hq hne (heq ▸ hbefore)
      rw [hstores.get id' hother]
      exact h.occupied q id' hq hbefore
  · rw [hstores.hasCell] at hq hr
    obtain ⟨hpend, hne⟩ := hpend
    have hslot' : g.slotOf q = some id' := by
      unfold slotOf at hslot ⊢
      rwa [hstores.cell q hq hne] at hslot
    by_cases hrp : r = p
    · rw [hrp] at hid
      refine absurd (uses_of_slot hpend hslot') ?_
      rw [hself hid]
      exact h.not_uses hp hpending hstores hq hne
    · exact h.apart q r id' hq hr hpend hslot' ((huses r hr hrp).mp hid)
  · have hroom := h.room
    have hgiven := hstores.room
    omega
  · rw [hstores.hasCell] at hq
    by_cases hne : q = p
    · rw [hne, hstores.shown, Function.update_self]
    · have hbefore := h.shown q shown hq (fun hpend => hdone ⟨hpend, hne⟩) htexture
      rw [Function.update_of_ne hne, ← hbefore]
      unfold cellGraphic
      rw [hstores.cell q hq hne]
      split_ifs with hflag
      · cases hid : (g.cell q).extrasId with
        | none => exact Iff.rfl
        | some id' =>
          have hother : id' ≠ id := fun heq => h.not_uses hp hpending hstores hq hne
            (.inr ⟨fun hpend => hdone ⟨hpend, hne⟩, hflag, heq ▸ hid⟩)
          rw [Option.bind_some, Option.bind_some, hstores.get id' hother]
      · exact Iff.rfl
  · rw [hstores.hasCell] at hq
    rw [← h.text q hq]
    by_cases hne : q = p
    · rw [hne]
      exact hstores.text
    · unfold cellText
      rw [hstores.cell q hq hne]
      split_ifs
      · rfl
      · cases (g.cell q).extrasId with
        | none => rfl
        | some id' =>
          have hzero := hstores.zerowidth id'
          unfold zerowidthOf at hzero
          rw [Option.bind_some, Option.bind_some, hzero]

theorem Overlaid.placeGraphicCell (h : g.Overlaid textureId image pending text (n + 1))
    (hg : g.Sound False) (hp : g.HasCell p) (hpending : pending p) (graphic : GraphicCell) :
    (Crosswords.placeGraphicCell g p graphic).Overlaid textureId
      (Function.update image p (some graphic)) (fun q => pending q ∧ q ≠ p) text n := by
  cases hslot : g.slotOf p with
  | none =>
    have hroom : 0 < g.extrasTable.room := n.succ_pos.trans_le h.room
    exact h.stores hp hpending (stores_new hg hp h.stocked hroom graphic hslot)
  | some id =>
    have hoccupied := h.occupied p id hp (uses_of_slot hpending hslot)
    exact h.stores hp hpending (stores_own hg hp h.stocked graphic hslot hoccupied)

/-! ### A row of an image -/

/-- A position in some columns of a line. -/
def InColumns (line : ℤ) (leftmost cols : ℕ) (p : Pos) : Prop :=
  p.row = line ∧ leftmost ≤ p.col ∧ p.col < leftmost + cols

/-- The part of an image that a cell shows. -/
def imagePart (texture : TextureRef) (leftmost cellWidth offsetY col : ℕ) : GraphicCell :=
  ⟨texture, ((col - leftmost) * cellWidth).toUInt16, offsetY.toUInt16⟩

instance (line : ℤ) (leftmost cols : ℕ) : DecidablePred (InColumns line leftmost cols) :=
  fun p => inferInstanceAs (Decidable (p.row = line ∧ leftmost ≤ p.col ∧ p.col < leftmost + cols))

/-- An image with one more row. -/
def withRow (texture : TextureRef) (line : ℤ) (leftmost cols cellWidth offsetY : ℕ)
    (image : Pos → Option GraphicCell) (p : Pos) : Option GraphicCell :=
  if InColumns line leftmost cols p then
    some (imagePart texture leftmost cellWidth offsetY p.col)
  else image p

theorem withRow_of_in {texture : TextureRef} {line : ℤ} {leftmost cols cellWidth offsetY : ℕ}
    (hin : InColumns line leftmost cols p) :
    withRow texture line leftmost cols cellWidth offsetY image p =
      some (imagePart texture leftmost cellWidth offsetY p.col) :=
  if_pos hin

theorem withRow_of_not {texture : TextureRef} {line : ℤ} {leftmost cols cellWidth offsetY : ℕ}
    (hout : ¬InColumns line leftmost cols p) :
    withRow texture line leftmost cols cellWidth offsetY image p = image p :=
  if_neg hout

theorem Overlaid.congr (h : g.Overlaid textureId image pending text n)
    (himage : ∀ p, g.HasCell p → ¬pending' p → image' p = image p)
    (hpending : ∀ p, g.HasCell p → (pending' p ↔ pending p)) :
    g.Overlaid textureId image' pending' text n := by
  have huses (p : Pos) (hp : g.HasCell p) {id : ExtrasId} :
      g.Uses pending' p id ↔ g.Uses pending p id := uses_of_cell rfl (hpending p hp)
  refine ⟨⟨fun p id hp hid => ?_, fun p q id hp hq hpend hslot hid => ?_⟩, h.stocked, h.room,
    fun p shown hp hdone htexture => ?_, h.text⟩
  · exact h.occupied p id hp ((huses p hp).mp hid)
  · exact h.apart p q id hp hq ((hpending p hp).mp hpend) hslot ((huses q hq).mp hid)
  · rw [himage p hp hdone]
    rw [hpending p hp] at hdone
    exact h.shown p shown hp hdone htexture

theorem Overlaid.congr_text (h : g.Overlaid textureId image pending text n)
    {text' : Pos → Char × Wide × List Char} (htext : ∀ p, g.HasCell p → text' p = text p) :
    g.Overlaid textureId image pending text' n :=
  ⟨h.toOwnSlots, h.stocked, h.room, h.shown, fun p hp => (h.text p hp).trans (htext p hp).symm⟩

theorem Overlaid.mono (h : g.Overlaid textureId image pending text n) {m : ℕ} (hle : m ≤ n) :
    g.Overlaid textureId image pending text m :=
  ⟨h.toOwnSlots, h.stocked, hle.trans h.room, h.shown, h.text⟩

theorem cellOffsets_zipIdx (length cell : ℕ) : (Crosswords.cellOffsets length cell).zipIdx =
    (List.range ((length + cell - 1) / cell)).map fun i => (i * cell, i) := by
  unfold Crosswords.cellOffsets
  refine List.ext_getElem (by simp) fun i hi hi' => ?_
  simp

/-- One cell of a row of an image. -/
def placeColumn (line : ℤ) (leftmost offsetY : ℕ) (texture : TextureRef) (cellWidth : ℕ)
    (g : Grid Square) (i : ℕ) : Grid Square :=
  if leftmost + i < (g.row line).len then
    Crosswords.placeGraphicCell g ⟨line, leftmost + i⟩
      (imagePart texture leftmost cellWidth offsetY (leftmost + i))
  else g

theorem placeGraphicRow_eq (g : Grid Square) (line : ℤ) (leftmost offsetY : ℕ)
    (texture : TextureRef) (width cellWidth : ℕ) :
    Crosswords.placeGraphicRow g line leftmost offsetY texture
        (Crosswords.cellOffsets width cellWidth) =
      (List.range ((width + cellWidth - 1) / cellWidth)).foldl
        (placeColumn line leftmost offsetY texture cellWidth) g := by
  unfold Crosswords.placeGraphicRow
  rw [cellOffsets_zipIdx, List.foldl_map]
  refine List.foldl_ext _ _ _ fun g i _ => ?_
  unfold placeColumn imagePart
  rw [Nat.add_sub_cancel_left]

theorem placeColumn_sound (h : g.Sound False) (line : ℤ) (leftmost offsetY : ℕ)
    (texture : TextureRef) (cellWidth i : ℕ) :
    (placeColumn line leftmost offsetY texture cellWidth g i).Sound False := by
  unfold placeColumn
  split_ifs
  · exact (h.modifyCell _ _).of_eq rfl rfl rfl rfl rfl rfl rfl
  · exact h

theorem placeColumn_hasCell (line : ℤ) (leftmost offsetY : ℕ) (texture : TextureRef)
    (cellWidth i : ℕ) :
    (placeColumn line leftmost offsetY texture cellWidth g i).HasCell p ↔ g.HasCell p := by
  unfold placeColumn
  split_ifs
  · exact Iff.rfl
  · exact Iff.rfl

theorem inColumns_succ {line : ℤ} {leftmost done : ℕ} :
    InColumns line leftmost (done + 1) p ↔
      InColumns line leftmost done p ∨ p = ⟨line, leftmost + done⟩ := by
  obtain ⟨row, col⟩ := p
  unfold InColumns
  rw [Pos.mk.injEq]
  dsimp only
  omega

theorem not_inColumns {line : ℤ} {leftmost done : ℕ} :
    ¬InColumns line leftmost done ⟨line, leftmost + done⟩ := by
  rintro ⟨-, -, hlt⟩
  exact hlt.ne rfl

/-- Storing the next cell of a row; a cell right of the grid is left out. -/
theorem Overlaid.placeColumn {line : ℤ} {leftmost done : ℕ} {texture : TextureRef}
    {cellWidth offsetY : ℕ} (hg : g.Sound False) (hrow : g.HasCell ⟨line, 0⟩)
    (h : g.Overlaid textureId (withRow texture line leftmost done cellWidth offsetY image)
      (fun p => pending p ∧ ¬InColumns line leftmost done p) text (n + 1))
    (hpending : g.HasCell ⟨line, leftmost + done⟩ → pending ⟨line, leftmost + done⟩) :
    (placeColumn line leftmost offsetY texture cellWidth g done).Overlaid textureId
      (withRow texture line leftmost (done + 1) cellWidth offsetY image)
      (fun p => pending p ∧ ¬InColumns line leftmost (done + 1) p) text n := by
  have hlen : (g.row line).len = g.columns := row_len hg.wellFormed hrow.1 hrow.2.1
  have hrest (p : Pos) : (pending p ∧ ¬InColumns line leftmost (done + 1) p) ↔
      (pending p ∧ ¬InColumns line leftmost done p) ∧ p ≠ ⟨line, leftmost + done⟩ := by
    rw [inColumns_succ, not_or, and_assoc]
  unfold Grid.placeColumn
  rw [hlen]
  split_ifs with hcol
  · have hcell : g.HasCell ⟨line, leftmost + done⟩ := ⟨hrow.1, hrow.2.1, hcol⟩
    have hplaced := h.placeGraphicCell hg hcell ⟨hpending hcell, not_inColumns⟩
      (imagePart texture leftmost cellWidth offsetY (leftmost + done))
    refine hplaced.congr (fun p _ _ => ?_) fun p _ => hrest p
    by_cases hp : p = ⟨line, leftmost + done⟩
    · rw [hp, Function.update_self]
      exact withRow_of_in (inColumns_succ.mpr (.inr rfl))
    · rw [Function.update_of_ne hp]
      unfold withRow
      simp only [inColumns_succ, hp, or_false]
  · have hother (p : Pos) (hp : g.HasCell p) : p ≠ ⟨line, leftmost + done⟩ := by
      rintro rfl
      exact hcol hp.2.2
    refine (h.mono n.le_succ).congr (fun p hp _ => ?_) fun p hp =>
      (hrest p).trans (and_iff_left (hother p hp))
    unfold withRow
    simp only [inColumns_succ, hother p hp, or_false]

theorem placeColumns_sound (h : g.Sound False) (line : ℤ) (leftmost offsetY : ℕ)
    (texture : TextureRef) (cellWidth cols : ℕ) :
    ((List.range cols).foldl (placeColumn line leftmost offsetY texture cellWidth) g).Sound
      False := by
  induction cols with
  | zero => exact h
  | succ cols ih =>
    rw [List.range_succ, List.foldl_append]
    exact placeColumn_sound ih _ _ _ _ _ _

theorem placeColumns_hasCell (g : Grid Square) (line : ℤ) (leftmost offsetY : ℕ)
    (texture : TextureRef) (cellWidth cols : ℕ) :
    ((List.range cols).foldl (placeColumn line leftmost offsetY texture cellWidth) g).HasCell p ↔
      g.HasCell p := by
  induction cols with
  | zero => exact Iff.rfl
  | succ cols ih =>
    rw [List.range_succ, List.foldl_append]
    exact (placeColumn_hasCell _ _ _ _ _ _).trans ih

/-- Storing a row of an image in pending cells. -/
theorem Overlaid.placeColumns {line : ℤ} {leftmost : ℕ} {texture : TextureRef}
    {cellWidth offsetY : ℕ} (hg : g.Sound False) (hrow : g.HasCell ⟨line, 0⟩) {cols : ℕ}
    (h : g.Overlaid textureId image pending text (cols + n))
    (hpending : ∀ p, g.HasCell p → InColumns line leftmost cols p → pending p) :
    ((List.range cols).foldl (Grid.placeColumn line leftmost offsetY texture cellWidth) g).Overlaid
      textureId (withRow texture line leftmost cols cellWidth offsetY image)
      (fun p => pending p ∧ ¬InColumns line leftmost cols p) text n := by
  induction cols generalizing n with
  | zero =>
    have hnone (p : Pos) : ¬InColumns line leftmost 0 p := by
      rintro ⟨-, hle, hlt⟩
      omega
    exact (h.mono (Nat.le_add_left _ _)).congr (fun p _ _ => withRow_of_not (hnone p)) fun p _ =>
      and_iff_left (hnone p)
  | succ cols ih =>
    have hrest : cols + 1 + n = cols + (n + 1) := by omega
    rw [hrest] at h
    have hbefore := ih h fun p hp hin => hpending p hp (inColumns_succ.mpr (.inl hin))
    rw [List.range_succ, List.foldl_append]
    refine hbefore.placeColumn (placeColumns_sound hg _ _ _ _ _ _)
      ((placeColumns_hasCell _ _ _ _ _ _ _).mpr hrow) fun hcell => ?_
    rw [placeColumns_hasCell] at hcell
    exact hpending _ hcell (inColumns_succ.mpr (.inr rfl))

end Grid
end Rio
