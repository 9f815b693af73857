import Rio.Grid.Slots

/-! Which cells use which slots of the extras table: a slot with a hyperlink is shared by the cells
of the link, another one belongs to one cell, and a free one to none. -/

set_option linter.dupNamespace false

namespace Rio

namespace Grid

section weight

variable {w : Square → ℕ}

/-- The weight of a cell that is written goes away, and that of what is written is added. -/
theorem weight_modifyCell_add_le (hw : w default = 0) (g : Grid Square) (p : Pos)
    (f : Square → Square) :
    (g.modifyCell p f).weight w + w (g.cell p) ≤ g.weight w + w (f (g.cell p)) := by
  have hrow (r : Row Square) : (r.modify p.col f).weight w + w (r.cell p.col) ≤
      r.weight w + w (f (r.cell p.col)) :=
    total_modify_add_le hw f r.inner p.col
  have hblank : Row.weight w (default : Row Square) = 0 := rfl
  have hrows : (g.modifyCell p f).weight w + (g.row p.row).weight w ≤
      g.weight w + ((g.row p.row).modify p.col f).weight w :=
    total_modify_add_le hblank (fun r : Row Square => r.modify p.col f) g.raw.inner _
  have hcell := hrow (g.row p.row)
  unfold cell
  omega

theorem weight_cell_le (hw : w default = 0) (g : Grid Square) (p : Pos) :
    w (g.cell p) ≤ g.weight w := by
  have hcleared := weight_modifyCell_add_le hw g p fun _ => default
  omega

/-- The weight of a cell that is stored. -/
theorem weight_mem_le {g : Grid Square} {r : Row Square} {c : Square} (hr : r ∈ g.raw.inner)
    (hc : c ∈ r.inner) : w c ≤ g.weight w :=
  (le_total_of_mem hc).trans (le_total_of_mem (w := Row.weight w) hr)

end weight

/-- Whether a cell with text uses a slot. -/
def uses (id : ExtrasId) (c : Square) : ℕ := if c.tag = .codepoint ∧ c.hi = id then 1 else 0

theorem uses_ofIds {id : ExtrasId} (hid : id ≠ 0) : OfIds (uses id) where
  blank := if_neg fun h => hid h.2.symm
  congr c c' htag _ hhi _ := by
    unfold uses
    rw [htag, hhi]

theorem uses_clean {id : ExtrasId} (hid : id ≠ 0) (template : Square) :
    Clean (uses id) template := fun _ => if_neg fun h => hid h.2.symm

theorem uses_le_one (id : ExtrasId) (c : Square) : uses id c ≤ 1 := by
  unfold uses
  split_ifs <;> omega

theorem uses_eq_one {id : ExtrasId} {c : Square} (htext : c.isBgOnly = false)
    (hid : c.extrasId = some id) : uses id c = 1 := by
  have htag : c.tag = .codepoint := by
    unfold Square.isBgOnly at htext
    simpa using htext
  exact if_pos ⟨htag, (Square.extrasId_eq_some.mp hid).1⟩

theorem uses_of_bgOnly (id : ExtrasId) {c : Square} (hbg : c.isBgOnly = true) : uses id c = 0 := by
  refine if_neg fun h => ?_
  unfold Square.isBgOnly at hbg
  rw [h.1] at hbg
  cases hbg

theorem uses_of_ne {id : ExtrasId} {c : Square} (hne : c.hi ≠ id) : uses id c = 0 :=
  if_neg fun h => hne h.2

/-- Whether a cell with only a background says that it has a graphic. -/
def stray (c : Square) : ℕ := if c.isBgOnly = true ∧ c.flags.graphics = true then 1 else 0

theorem stray_ofIds : OfIds stray where
  blank := rfl
  congr c c' htag _ _ hgraphics := by
    unfold stray Square.isBgOnly
    rw [htag, hgraphics]

theorem stray_clean (template : Square) : Clean stray template := fun _ => rfl

theorem stray_of_text {c : Square} (htext : c.isBgOnly = false) : stray c = 0 := by
  refine if_neg fun h => ?_
  rw [htext] at h
  exact Bool.false_ne_true h.1

theorem stray_of_flag {c : Square} (hflag : c.flags.graphics = false) : stray c = 0 := by
  refine if_neg fun h => ?_
  rw [hflag] at h
  exact Bool.false_ne_true h.2

theorem text_of_stray {c : Square} (hstray : stray c = 0) (hflag : c.flags.graphics = true) :
    c.isBgOnly = false := by
  unfold stray at hstray
  by_contra hbg
  rw [if_pos ⟨by simpa using hbg, hflag⟩] at hstray
  cases hstray

end Grid

/-- The slot of a cell, if it has one, holds a hyperlink. -/
def Square.Linked (table : ExtrasTable) (c : Square) : Prop :=
  ∀ id, c.extrasId = some id → ∃ e, table.get id = some e ∧ e.hyperlink ≠ none

namespace Square.Linked

variable {table table' : ExtrasTable} {c c' : Square}

theorem of_hi (h : c.Linked table) (hhi : c'.hi = c.hi) : c'.Linked table := by
  intro id hid
  refine h id ?_
  unfold Square.extrasId at hid ⊢
  rwa [← hhi]

theorem of_none (hnone : c.hi = 0) : c.Linked table := by
  intro id hid
  have hne := (Square.extrasId_eq_some.mp hid).2
  exact absurd ((Square.extrasId_eq_some.mp hid).1.symm.trans hnone) hne

/-- The slots with a hyperlink keep it. -/
theorem of_get (h : c.Linked table)
    (hget : ∀ id e, table.get id = some e → e.hyperlink ≠ none →
      ∃ e', table'.get id = some e' ∧ e'.hyperlink ≠ none) : c.Linked table' := by
  intro id hid
  obtain ⟨e, he, hlink⟩ := h id hid
  exact hget id e he hlink

end Square.Linked

namespace Grid

/-- A free slot is used by no cell, one without a hyperlink by at most one, and the cursors'
templates use slots with a hyperlink only. -/
structure SlotsHeld (g : Grid Square) : Prop where
  styles : 0 < g.styleSet.styles.length
  stocked : g.extrasTable.Stocked
  free : ∀ id, id ≠ 0 → g.extrasTable.get id = none → g.weight (uses id) = 0
  single : ∀ id e, id ≠ 0 → g.extrasTable.get id = some e → e.hyperlink = none →
    g.weight (uses id) ≤ 1
  stray : g.weight stray = 0
  template : g.cursor.template.Linked g.extrasTable
  savedTemplate : g.savedCursor.template.Linked g.extrasTable

variable {g g' : Grid Square} {p : Pos} {id : ExtrasId}

namespace SlotsHeld

theorem cell_stray (h : g.SlotsHeld) (p : Pos) : Grid.stray (g.cell p) = 0 :=
  Nat.le_zero.mp ((weight_cell_le rfl g p).trans h.stray.le)

/-- A cell that says that it has a graphic is not one with only a background. -/
theorem text_of_flag (h : g.SlotsHeld) (hflag : (g.cell p).flags.graphics = true) :
    (g.cell p).isBgOnly = false :=
  text_of_stray (h.cell_stray p) hflag

/-- Cells move or disappear, and cells with a hyperlink may be added. -/
theorem of_weight_le (h : g.SlotsHeld)
    (hstyles : g.styleSet.styles.length ≤ g'.styleSet.styles.length)
    (htable : g'.extrasTable = g.extrasTable)
    (hle : ∀ id, id ≠ 0 → (∀ e, g.extrasTable.get id = some e → e.hyperlink = none) →
      g'.weight (uses id) ≤ g.weight (uses id))
    (hstray : g'.weight Grid.stray ≤ g.weight Grid.stray)
    (htemplate : g'.cursor.template.Linked g.extrasTable)
    (hsaved : g'.savedCursor.template.Linked g.extrasTable) : g'.SlotsHeld := by
  refine ⟨h.styles.trans_le hstyles, htable ▸ h.stocked, fun id hid hnone => ?_,
    fun id e hid hget hlink => ?_, Nat.le_zero.mp (hstray.trans h.stray.le), htable ▸ htemplate,
    htable ▸ hsaved⟩
  · rw [htable] at hnone
    have hplain (e : Extras) (he : g.extrasTable.get id = some e) : e.hyperlink = none :=
      absurd (hnone.symm.trans he) (Option.some_ne_none e).symm
    have hless := hle id hid hplain
    rwa [h.free id hid hnone, Nat.le_zero] at hless
  · rw [htable] at hget
    have hplain (e' : Extras) (he' : g.extrasTable.get id = some e') : e'.hyperlink = none :=
      Option.some.inj (hget.symm.trans he') ▸ hlink
    exact (hle id hid hplain).trans (h.single id e hid hget hlink)

/-- No cell has more to say about the tables than before. -/
theorem of_noNew (h : g.SlotsHeld)
    (hstyles : g.styleSet.styles.length ≤ g'.styleSet.styles.length)
    (htable : g'.extrasTable = g.extrasTable)
    (hle : ∀ w, OfIds w → Clean w g.cursor.template → g'.weight w ≤ g.weight w)
    (htemplate : g'.cursor.template.Linked g.extrasTable)
    (hsaved : g'.savedCursor.template.Linked g.extrasTable) : g'.SlotsHeld :=
  h.of_weight_le hstyles htable (fun _ hid _ => hle _ (uses_ofIds hid) (uses_clean hid _))
    (hle _ stray_ofIds (stray_clean _)) htemplate hsaved

theorem setTemplate (h : g.SlotsHeld) {template : Square}
    (hlinked : template.Linked g.extrasTable) : (g.setTemplate template).SlotsHeld :=
  h.of_noNew le_rfl rfl (fun _ _ _ => le_rfl) hlinked h.savedTemplate

theorem uses_eq_zero {c : Square} (hlinked : c.Linked g.extrasTable) (hid : id ≠ 0)
    (hplain : ∀ e, g.extrasTable.get id = some e → e.hyperlink = none) : uses id c = 0 := by
  refine uses_of_ne fun hhi => ?_
  obtain ⟨e, hget, hlink⟩ := hlinked id (Square.extrasId_eq_some.mpr ⟨hhi, hid⟩)
  exact hlink (hplain e hget)

/-- A cell is overwritten by one with a hyperlink or without a slot. -/
theorem setCell (h : g.SlotsHeld) (p : Pos) {c : Square} (hlinked : c.Linked g.extrasTable)
    (hstray : Grid.stray c = 0) : (g.modifyCell p fun _ => c).SlotsHeld :=
  h.of_weight_le le_rfl rfl
    (fun _ hid hplain => weight_modifyCell_le
      (fun _ => (uses_eq_zero hlinked hid hplain).trans_le (Nat.zero_le _)) g p)
    (weight_modifyCell_le (fun _ => hstray.trans_le (Nat.zero_le _)) g p) h.template
    h.savedTemplate

/-- A cell changes, but not what it says about the tables. -/
theorem rewriteCell (h : g.SlotsHeld) {c : Square} (htag : c.tag = (g.cell p).tag)
    (hhi : c.hi = (g.cell p).hi) (hstray : Grid.stray c = 0) :
    (g.modifyCell p fun _ => c).SlotsHeld := by
  refine h.of_weight_le le_rfl rfl (fun id hid _ => ?_)
    (weight_modifyCell_le (fun _ => hstray.trans_le (Nat.zero_le _)) g p) h.template
    h.savedTemplate
  have hwritten := weight_modifyCell_add_le (uses_ofIds hid).blank g p fun _ => c
  have hsame : uses id c = uses id (g.cell p) := by
    unfold uses
    rw [htag, hhi]
  omega

/-! ### Slots -/

/-- What a slot holds changes, but for its hyperlink. -/
theorem modify (h : g.SlotsHeld) (id : ExtrasId) {f : Extras → Extras}
    (hf : ∀ e, (f e).hyperlink = e.hyperlink) :
    SlotsHeld { g with extrasTable := g.extrasTable.modify id f } := by
  have hget (id' : ExtrasId) : (g.extrasTable.modify id f).get id' =
      if id' = id then (g.extrasTable.get id').map f else g.extrasTable.get id' := by
    split_ifs with heq
    · rw [heq]
      exact ExtrasTable.get_modify_self f
    · exact ExtrasTable.get_modify_of_ne heq f
  have hlinks (id' : ExtrasId) (e : Extras) (he : g.extrasTable.get id' = some e)
      (hlink : e.hyperlink ≠ none) :
      ∃ e', (g.extrasTable.modify id f).get id' = some e' ∧ e'.hyperlink ≠ none := by
    rw [hget, he]
    split_ifs
    · exact ⟨f e, rfl, (hf e).symm ▸ hlink⟩
    · exact ⟨e, rfl, hlink⟩
  refine ⟨h.styles, h.stocked.modify id f, fun id' hid' hnone => ?_,
    fun id' e' hid' he' hlink => ?_, h.stray, h.template.of_get hlinks,
    h.savedTemplate.of_get hlinks⟩
  · refine h.free id' hid' (by_contra fun hsome => ?_)
    exact ExtrasTable.occupied_modify hsome id f hnone
  · change (g.extrasTable.modify id f).get id' = some e' at he'
    rw [hget] at he'
    split_ifs at he'
    · obtain ⟨e, he, rfl⟩ := Option.map_eq_some_iff.mp he'
      exact h.single id' e hid' he ((hf e).symm.trans hlink)
    · exact h.single id' e' hid' he' hlink

/-- A slot is given out, unless the table is full. -/
theorem alloc (h : g.SlotsHeld) (e : Extras) :
    SlotsHeld { g with extrasTable := (g.extrasTable.alloc e).1 } ∧
      ((g.extrasTable.alloc e).2 = 0 ∨
        g.weight (uses (g.extrasTable.alloc e).2) = 0 ∧
          (g.extrasTable.alloc e).1.get (g.extrasTable.alloc e).2 = some e) := by
  obtain hnone | hroom := Nat.eq_zero_or_pos g.extrasTable.room
  · have hfull := ExtrasTable.alloc_full hnone e
    rw [hfull]
    exact ⟨h, .inl rfl⟩
  have halloc := h.stocked.allocates hroom e
  have hstocked := h.stocked.alloc e
  generalize g.extrasTable.alloc e = given at halloc hstocked ⊢
  obtain ⟨table, id⟩ := given
  dsimp only at halloc hstocked ⊢
  have hzero := h.free id halloc.ne_zero halloc.free
  have hother (id' : ExtrasId) (e' : Extras) (he' : g.extrasTable.get id' = some e') :
      table.get id' = some e' := by
    have hne : id' ≠ id := fun heq => by
      rw [heq, halloc.free] at he'
      cases he'
    exact (halloc.get_of_ne id' hne).trans he'
  have hlinks (id' : ExtrasId) (e : Extras) (he : g.extrasTable.get id' = some e)
      (hlink : e.hyperlink ≠ none) : ∃ e', table.get id' = some e' ∧ e'.hyperlink ≠ none :=
    ⟨e, hother id' e he, hlink⟩
  refine ⟨⟨h.styles, hstocked, fun id' hid' hnone => ?_, fun id' e' hid' he' hlink => ?_,
    h.stray, h.template.of_get hlinks, h.savedTemplate.of_get hlinks⟩,
    .inr ⟨hzero, halloc.get_self⟩⟩
  · refine h.free id' hid' ?_
    rcases hheld : g.extrasTable.get id' with _ | e'
    · rfl
    · exact absurd ((hother id' e' hheld).symm.trans hnone) (Option.some_ne_none e')
  · by_cases heq : id' = id
    · rw [heq]
      exact hzero.trans_le (Nat.zero_le _)
    · exact h.single id' e' hid' ((halloc.get_of_ne id' heq).symm.trans he') hlink

/-- A slot is given out for a cell. -/
theorem give (h : g.SlotsHeld) (e : Extras) (p : Pos) {f : Square → Square}
    (hhi : ∀ c, (f c).hi = (g.extrasTable.alloc e).2)
    (hstray : ∀ c, Grid.stray (f c) ≤ Grid.stray c) :
    SlotsHeld { g.modifyCell p f with extrasTable := (g.extrasTable.alloc e).1 } := by
  obtain ⟨halloc, hgiven⟩ := h.alloc e
  generalize g.extrasTable.alloc e = given at hhi halloc hgiven ⊢
  obtain ⟨table, id⟩ := given
  dsimp only at hhi halloc hgiven ⊢
  have hweight (id' : ExtrasId) (hne : id' ≠ id) :
      (g.modifyCell p f).weight (uses id') ≤ g.weight (uses id') :=
    weight_modifyCell_le (fun c => (uses_of_ne ((hhi c).trans_ne hne.symm)).trans_le
      (Nat.zero_le _)) g p
  have hstrays := weight_modifyCell_le hstray g p
  refine ⟨halloc.styles, halloc.stocked, fun id' hid' hnone => ?_,
    fun id' e' hid' he' hlink => ?_, Nat.le_zero.mp (hstrays.trans h.stray.le), halloc.template,
    halloc.savedTemplate⟩
  · have hne : id' ≠ id := by
      rintro rfl
      obtain hzero | ⟨-, hheld⟩ := hgiven
      · exact hid' hzero
      · exact absurd (hheld.symm.trans hnone) (Option.some_ne_none e)
    have hbefore : g.weight (uses id') = 0 := halloc.free id' hid' hnone
    exact Nat.le_zero.mp ((hweight id' hne).trans hbefore.le)
  · by_cases heq : id' = id
    · subst heq
      obtain hzero | ⟨hbefore, -⟩ := hgiven
      · exact absurd hzero hid'
      · have hwritten := weight_modifyCell_add_le (uses_ofIds hid').blank g p f
        have hone := uses_le_one id' (f (g.cell p))
        show (g.modifyCell p f).weight (uses id') ≤ 1
        omega
    · exact (hweight id' heq).trans (halloc.single id' e' hid' he' hlink)

end SlotsHeld

end Grid
end Rio
