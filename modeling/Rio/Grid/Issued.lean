import Rio.Grid.Census

/-! The ids in the cells and the cursor templates of a grid, and the tables that issue them. -/

set_option linter.dupNamespace false

namespace Rio

/-! ### Tables -/

namespace StyleSet

theorem intern_length_le (s : StyleSet) (style : Style) :
    s.styles.length ≤ (s.intern style).1.styles.length := by
  unfold intern
  split_ifs
  · exact le_rfl
  · exact le_rfl
  · simp

/-- Interning returns an id of the table. -/
theorem intern_lt {s : StyleSet} (hpos : 0 < s.styles.length) (style : Style) :
    (s.intern style).2.toNat < (s.intern style).1.styles.length := by
  unfold intern
  split_ifs with hmem hfull
  · have hlt := List.idxOf_lt_length_of_mem hmem
    refine lt_of_le_of_lt ?_ hlt
    exact (UInt16.toNat_ofNat' (n := s.styles.idxOf style)).trans_le (Nat.mod_le _ _)
  · exact hpos
  · have hnew : (UInt16.ofNat s.styles.length).toNat = s.styles.length := by
      rw [UInt16.toNat_ofNat']
      unfold maxStyles at hfull
      omega
    show (UInt16.ofNat s.styles.length).toNat < (s.styles ++ [style]).length
    rw [hnew, List.length_append]
    simp

end StyleSet

namespace ExtrasTable

/-- Freed slots are slots of the table. -/
def Valid (t : ExtrasTable) : Prop :=
  0 < t.slots.length ∧ ∀ id ∈ t.freed, id.toNat < t.slots.length

@[simp] theorem modify_length (t : ExtrasTable) (id : ExtrasId) (f : Extras → Extras) :
    (t.modify id f).slots.length = t.slots.length := List.length_modify ..

theorem Valid.modify {t : ExtrasTable} (h : t.Valid) (id : ExtrasId) (f : Extras → Extras) :
    (t.modify id f).Valid := by
  unfold Valid
  rw [modify_length]
  exact h

@[simp] theorem free_length (t : ExtrasTable) (id : ExtrasId) :
    (t.free id).slots.length = t.slots.length := by
  unfold free
  split_ifs
  · rfl
  · split
    · simp
    · rfl

theorem Valid.free {t : ExtrasTable} (h : t.Valid) (id : ExtrasId) : (t.free id).Valid := by
  unfold ExtrasTable.free
  split_ifs
  · exact h
  · split
    · next extras hslot =>
      have hlt : id.toNat < t.slots.length := (List.getElem?_eq_some_iff.mp hslot).1
      refine ⟨?_, fun id' hid' => ?_⟩
      · rw [List.length_set]
        exact h.1
      · rw [List.length_set]
        rcases List.mem_cons.mp hid' with rfl | hid'
        · exact hlt
        · exact h.2 id' hid'
    · exact h

theorem alloc_length_le (t : ExtrasTable) (extras : Extras) :
    t.slots.length ≤ (t.alloc extras).1.slots.length := by
  unfold alloc
  split
  · simp
  · split_ifs
    · exact le_rfl
    · simp

theorem Valid.alloc {t : ExtrasTable} (h : t.Valid) (extras : Extras) :
    (t.alloc extras).1.Valid ∧ (t.alloc extras).2.toNat < (t.alloc extras).1.slots.length := by
  unfold ExtrasTable.alloc
  split
  · next id freed hfreed =>
    have hid := h.2 id (hfreed ▸ List.mem_cons_self)
    refine ⟨⟨?_, fun id' hid' => ?_⟩, ?_⟩
    · rw [List.length_set]
      exact h.1
    · rw [List.length_set]
      exact h.2 id' (hfreed ▸ List.mem_cons_of_mem _ hid')
    · rw [List.length_set]
      exact hid
  · next hfreed =>
    split_ifs with hfull
    · exact ⟨h, h.1⟩
    · have hnew : (UInt16.ofNat t.slots.length).toNat = t.slots.length := by
        rw [UInt16.toNat_ofNat']
        unfold maxSlots at hfull
        omega
      refine ⟨⟨?_, fun id' hid' => ?_⟩, ?_⟩
      · simp
      · rw [hfreed] at hid'
        exact absurd hid' List.not_mem_nil
      · show (UInt16.ofNat t.slots.length).toNat < (t.slots ++ [some extras]).length
        rw [hnew, List.length_append]
        simp

end ExtrasTable

/-! ### Cells -/

/-- The ids of a cell that holds a character have been issued by the tables. -/
def Square.Issued (styleSet : StyleSet) (extrasTable : ExtrasTable) (c : Square) : Prop :=
  c.isBgOnly = false →
    c.styleId.toNat < styleSet.styles.length ∧
      ∀ id, c.extrasId = some id → id.toNat < extrasTable.slots.length

section Issued

variable {s s' : StyleSet} {e e' : ExtrasTable} {c : Square}

theorem Square.extrasId_eq_some {id : ExtrasId} :
    c.extrasId = some id ↔ c.hi = id ∧ id ≠ 0 := by
  unfold extrasId
  split_ifs with hhi
  · simp only [false_iff]
    rintro ⟨rfl, hne⟩
    exact hne hhi
  · simp only [Option.some.injEq]
    exact ⟨fun h => ⟨h, h ▸ hhi⟩, And.left⟩

theorem Square.Issued.mono (h : c.Issued s e) (hs : s.styles.length ≤ s'.styles.length)
    (he : e.slots.length ≤ e'.slots.length) : c.Issued s' e' := fun htext =>
  ⟨(h htext).1.trans_le hs, fun id hid => ((h htext).2 id hid).trans_le he⟩

/-- The ids decide. -/
theorem Square.Issued.of_ids (h : c.Issued s e) {c' : Square} (htag : c'.tag = c.tag)
    (hlo : c'.lo = c.lo) (hhi : c'.hi = c.hi) : c'.Issued s e := by
  unfold Square.Issued Square.isBgOnly Square.styleId Square.extrasId at h ⊢
  rwa [htag, hlo, hhi]

theorem Square.issued_blank (hs : 0 < s.styles.length) : (default : Square).Issued s e :=
  fun _ => ⟨hs, fun _ hid => absurd (Square.extrasId_eq_some.mp hid).1.symm
    (Square.extrasId_eq_some.mp hid).2⟩

theorem Square.Issued.setStyleId (h : c.Issued s e) {id : StyleId}
    (hid : id.toNat < s.styles.length) : (c.setStyleId id).Issued s e := fun htext =>
  ⟨hid, (h htext).2⟩

theorem Square.Issued.setExtrasId (h : c.Issued s e) {id : Option ExtrasId}
    (hid : ∀ i, id = some i → i.toNat < e.slots.length) : (c.setExtrasId id).Issued s e := by
  intro htext
  refine ⟨(h htext).1, fun i hi => ?_⟩
  obtain ⟨heq, hne⟩ := Square.extrasId_eq_some.mp hi
  cases id with
  | none => exact absurd heq.symm hne
  | some j =>
    have hj : j = i := heq
    exact hid i (congrArg some hj)

/-- What a row is reset to keeps the style of the template only. -/
theorem Square.Issued.reset (h : c.Issued s e) (htext : c.isBgOnly = false) (d : Square) :
    (d.reset c).Issued s e := fun _ =>
  ⟨(h htext).1, fun _ hi => absurd (Square.extrasId_eq_some.mp hi).1.symm
    (Square.extrasId_eq_some.mp hi).2⟩

end Issued

open Classical in
/-- The weight of the cells whose ids the tables have not issued. -/
noncomputable def foreignIds (s : StyleSet) (e : ExtrasTable) (c : Square) : ℕ :=
  if c.Issued s e then 0 else 1

section foreignIds

variable {s s' : StyleSet} {e e' : ExtrasTable} {c : Square}

open Classical in
theorem foreignIds_congr {c' : Square} (hiff : c'.Issued s e ↔ c.Issued s e) :
    foreignIds s e c' = foreignIds s e c :=
  if_congr hiff rfl rfl

theorem foreignIds_eq_zero_iff : foreignIds s e c = 0 ↔ c.Issued s e := by
  unfold foreignIds
  split_ifs with h <;> simp [h]

theorem foreignIds_le {c' : Square} (himp : c.Issued s e → c'.Issued s e) :
    foreignIds s e c' ≤ foreignIds s e c := by
  unfold foreignIds
  by_cases h : c.Issued s e
  · rw [if_pos (himp h)]
    exact Nat.zero_le _
  · rw [if_neg h]
    split_ifs <;> omega

theorem foreignIds_ofIds (hs : 0 < s.styles.length) : Grid.OfIds (foreignIds s e) where
  blank := foreignIds_eq_zero_iff.mpr (Square.issued_blank hs)
  congr _ _ htag hlo hhi _ :=
    foreignIds_congr
      ⟨fun h => h.of_ids htag.symm hlo.symm hhi.symm, fun h => h.of_ids htag hlo hhi⟩

end foreignIds

namespace Grid

/-- Every cell that the grid stores has ids of the grid's own tables, and so do the templates of
its cursors. -/
structure HoldsOwnIds (g : Grid Square) : Prop where
  cells : ∀ r ∈ g.raw.inner, ∀ c ∈ r.inner, c.Issued g.styleSet g.extrasTable
  template : g.cursor.template.Issued g.styleSet g.extrasTable
  savedTemplate : g.savedCursor.template.Issued g.styleSet g.extrasTable

/-- The tables are in order, and the templates stand for characters. -/
structure Owned (g : Grid Square) : Prop extends g.HoldsOwnIds where
  styles : 0 < g.styleSet.styles.length
  extras : g.extrasTable.Valid
  text : g.cursor.template.isBgOnly = false
  savedText : g.savedCursor.template.isBgOnly = false

variable {g g' : Grid Square}

theorem weight_foreignIds_eq_zero_iff {s : StyleSet} {e : ExtrasTable} :
    g.weight (foreignIds s e) = 0 ↔ ∀ r ∈ g.raw.inner, ∀ c ∈ r.inner, c.Issued s e := by
  unfold weight Storage.weight Row.weight
  rw [total_eq_zero_iff]
  simp only [total_eq_zero_iff, foreignIds_eq_zero_iff]

theorem growLines_frame (g : Grid Square) (target : ℕ) :
    (g.growLines target).savedCursor.template = g.savedCursor.template ∧
      (g.growLines target).styleSet = g.styleSet ∧
      (g.growLines target).extrasTable = g.extrasTable := by
  unfold growLines
  dsimp only
  rw [decreaseScrollLimit_eq]
  split_ifs <;> simp

theorem shrinkLines_frame (g : Grid Square) (target : ℕ) :
    (g.shrinkLines target).savedCursor.template = g.savedCursor.template ∧
      (g.shrinkLines target).styleSet = g.styleSet ∧
      (g.shrinkLines target).extrasTable = g.extrasTable := by
  unfold shrinkLines
  dsimp only
  split_ifs <;> simp

/-- Resizing leaves the templates and the tables alone. -/
theorem resize_frame (g : Grid Square) (reflow : Bool) (lines columns : ℕ) :
    (g.resize reflow lines columns).cursor.template = g.cursor.template ∧
      (g.resize reflow lines columns).savedCursor.template = g.savedCursor.template ∧
      (g.resize reflow lines columns).styleSet = g.styleSet ∧
      (g.resize reflow lines columns).extrasTable = g.extrasTable := by
  have hgrown := growLines_frame { g with cursor := { g.cursor with template := default } } lines
  have hshrunk :=
    shrinkLines_frame { g with cursor := { g.cursor with template := default } } lines
  refine ⟨rfl, ?_⟩
  unfold resize
  dsimp only at hgrown hshrunk ⊢
  split_ifs
  all_goals first | exact hgrown | exact hshrunk | exact ⟨rfl, rfl, rfl⟩

namespace Owned

theorem ofIds (h : g.Owned) : OfIds (foreignIds g.styleSet g.extrasTable) :=
  foreignIds_ofIds h.styles

theorem clean (h : g.Owned) :
    Clean (foreignIds g.styleSet g.extrasTable) g.cursor.template := fun c =>
  foreignIds_eq_zero_iff.mpr (h.template.reset h.text c)

theorem weight_eq_zero (h : g.Owned) : g.weight (foreignIds g.styleSet g.extrasTable) = 0 :=
  weight_foreignIds_eq_zero_iff.mpr h.cells

/-- A cell of the grid. -/
theorem cell (h : g.Owned) (p : Pos) : (g.cell p).Issued g.styleSet g.extrasTable := by
  unfold Grid.cell Row.cell Grid.row Storage.row
  rw [List.getD_eq_getElem?_getD, List.getD_eq_getElem?_getD]
  rcases hrow : g.raw.inner[g.raw.computeIndex p.row]? with _ | r
  · exact Square.issued_blank h.styles
  · rcases hcell : r.inner[p.col]? with _ | c
    · simp only [Option.getD_some, hcell, Option.getD_none]
      exact Square.issued_blank h.styles
    · simp only [Option.getD_some, hcell]
      exact h.cells r (List.mem_of_getElem? hrow) c (List.mem_of_getElem? hcell)

/-- The cells change, none of them for the worse. -/
theorem of_weight_le (h : g.Owned)
    (hle : g'.weight (foreignIds g.styleSet g.extrasTable) ≤
      g.weight (foreignIds g.styleSet g.extrasTable))
    (htemplate : g'.cursor.template = g.cursor.template)
    (hsaved : g'.savedCursor.template = g.savedCursor.template)
    (hstyles : g'.styleSet = g.styleSet) (hextras : g'.extrasTable = g.extrasTable) : g'.Owned := by
  have hzero := weight_foreignIds_eq_zero_iff.mp (Nat.le_zero.mp (hle.trans h.weight_eq_zero.le))
  rw [← hstyles, ← hextras] at hzero
  obtain ⟨⟨-, htemplate', hsaved'⟩, hpos, hvalid, htext, hsavedText⟩ := h
  rw [← htemplate, ← hstyles, ← hextras] at htemplate'
  rw [← hsaved, ← hstyles, ← hextras] at hsaved'
  rw [← hstyles] at hpos
  rw [← hextras] at hvalid
  rw [← htemplate] at htext
  rw [← hsaved] at hsavedText
  exact ⟨⟨hzero, htemplate', hsaved'⟩, hpos, hvalid, htext, hsavedText⟩

theorem of_eq (h : g.Owned) (hraw : g'.raw = g.raw)
    (htemplate : g'.cursor.template = g.cursor.template)
    (hsaved : g'.savedCursor.template = g.savedCursor.template)
    (hstyles : g'.styleSet = g.styleSet) (hextras : g'.extrasTable = g.extrasTable) : g'.Owned := by
  refine h.of_weight_le ?_ htemplate hsaved hstyles hextras
  unfold weight
  rw [hraw]

/-- The tables issue more ids. -/
theorem of_tables (h : g.Owned) {s : StyleSet} {e : ExtrasTable}
    (hs : g.styleSet.styles.length ≤ s.styles.length)
    (he : g.extrasTable.slots.length ≤ e.slots.length) (hvalid : e.Valid) :
    Owned { g with styleSet := s, extrasTable := e } :=
  ⟨⟨fun r hr c hc => (h.cells r hr c hc).mono hs he, h.template.mono hs he,
    h.savedTemplate.mono hs he⟩, h.styles.trans_le hs, hvalid, h.text, h.savedText⟩

theorem setTemplate (h : g.Owned) {template : Square}
    (hissued : template.Issued g.styleSet g.extrasTable) (htext : template.isBgOnly = false) :
    (g.setTemplate template).Owned :=
  ⟨⟨h.cells, hissued, h.savedTemplate⟩, h.styles, h.extras, htext, h.savedText⟩

/-! ### Cells -/

theorem modifyRow (h : g.Owned) (line : ℤ) {f : Row Square → Row Square}
    (hf : ∀ w, OfIds w → ∀ r, (f r).weight w ≤ r.weight w) : (g.modifyRow line f).Owned :=
  h.of_weight_le (weight_modifyRow_le (hf _ h.ofIds) g line) rfl rfl rfl rfl

theorem modifyCell (h : g.Owned) (p : Pos) {f : Square → Square}
    (hf : ∀ w, OfIds w → ∀ c, w (f c) ≤ w c) : (g.modifyCell p f).Owned :=
  h.modifyRow p.row fun w hw r => Row.weight_modify_le (hf w hw) r p.col

/-- Overwrite a cell. -/
theorem setCell (h : g.Owned) (p : Pos) {c : Square} (hc : c.Issued g.styleSet g.extrasTable) :
    (g.modifyCell p fun _ => c).Owned :=
  h.of_weight_le (weight_modifyCell_le
    (fun _ => (foreignIds_eq_zero_iff.mpr hc).trans_le (Nat.zero_le _)) g p) rfl rfl rfl rfl

theorem fill (h : g.Owned) (line : ℤ) (start stop : ℕ) {c : Square}
    (hc : c.Issued g.styleSet g.extrasTable) : (g.modifyRow line (·.fill start stop c)).Owned :=
  h.of_weight_le (weight_modifyRow_le
    (fun r => Row.weight_fill_le (foreignIds_eq_zero_iff.mpr hc) r start stop) g line) rfl rfl rfl
    rfl

/-! ### Rows -/

theorem resetRegion (h : g.Owned) (r : Region) : (g.resetRegion r).Owned :=
  h.of_weight_le (weight_resetRegion_le h.clean r) rfl rfl rfl rfl

theorem scrollUp (h : g.Owned) (r : Region) (n : ℕ) : (g.scrollUp r n).Owned :=
  h.of_weight_le (weight_scrollUp_le h.ofIds.blank h.clean r n) (by simp) (by simp) (by simp)
    (by simp)

theorem scrollDown (h : g.Owned) (r : Region) (n : ℕ) : (g.scrollDown r n).Owned :=
  h.of_weight_le (weight_scrollDown_le h.clean r n) (by simp) (by simp) (by simp) (by simp)

theorem clearHistory (h : g.Owned) : g.clearHistory.Owned :=
  h.of_weight_le (weight_clearHistory_le g) rfl rfl rfl rfl

theorem updateHistory (h : g.Owned) (size : ℕ) : (g.updateHistory size).Owned :=
  h.of_weight_le (weight_updateHistory_le g size) rfl rfl rfl rfl

theorem clearViewport (h : g.Owned) : g.clearViewport.Owned := by
  refine h.of_weight_le (weight_clearViewport_le h.ofIds.blank h.clean) ?_ ?_ ?_ ?_
  · exact congrArg Cursor.template (scrollUp_cursor g _ _)
  · exact congrArg Cursor.template (scrollUp_savedCursor g _ _)
  · exact scrollUp_styleSet g _ _
  · exact scrollUp_extrasTable g _ _

theorem reset (h : g.Owned) : g.reset.Owned := by
  have hblank := Square.issued_blank (e := g.extrasTable) h.styles
  have hcells := weight_foreignIds_eq_zero_iff.mp
    (Nat.le_zero.mp ((weight_reset_le h.ofIds.clean g).trans h.weight_eq_zero.le))
  exact ⟨⟨hcells, hblank, hblank⟩, h.styles, h.extras, rfl, rfl⟩

theorem resize (h : g.Owned) (reflow : Bool) (lines columns : ℕ) :
    (g.resize reflow lines columns).Owned := by
  have heq := resize_frame g reflow lines columns
  exact h.of_weight_le (weight_resize_le h.ofIds g reflow lines columns) heq.1 heq.2.1 heq.2.2.1
    heq.2.2.2

/-! ### Styles -/

theorem intern (h : g.Owned) (style : Style) :
    Owned { g with styleSet := (g.styleSet.intern style).1 } :=
  h.of_tables (e := g.extrasTable) (g.styleSet.intern_length_le style) le_rfl h.extras

theorem setTemplateStyle (h : g.Owned) (style : Style) : (g.setTemplateStyle style).Owned := by
  have hlt := StyleSet.intern_lt h.styles style
  exact (h.intern style).setTemplate ((h.intern style).template.setStyleId hlt) h.text

theorem blankWithBg (h : g.Owned) (bg : AnsiColor) :
    (g.blankWithBg bg).1.Owned ∧
      (g.blankWithBg bg).2.Issued (g.blankWithBg bg).1.styleSet (g.blankWithBg bg).1.extrasTable := by
  have hblank := Square.issued_blank (e := g.extrasTable) h.styles
  have hbg (c : Square) (hc : c.isBgOnly = true) (s : StyleSet) (e : ExtrasTable) :
      c.Issued s e := fun htext => absurd (hc.symm.trans htext) (by decide)
  unfold Grid.blankWithBg
  rcases bg with named | ⟨r, g', b⟩ | idx
  · dsimp only
    split_ifs
    · exact ⟨h, hblank⟩
    · exact ⟨h, hbg _ rfl _ _⟩
    · have hlt := StyleSet.intern_lt h.styles { bg := .named named }
      exact ⟨h.intern _, (hblank.mono (g.styleSet.intern_length_le _) le_rfl).setStyleId hlt⟩
  · exact ⟨h, hbg _ rfl _ _⟩
  · exact ⟨h, hbg _ rfl _ _⟩

theorem templateBlank (h : g.Owned) :
    g.templateBlank.1.Owned ∧
      g.templateBlank.2.Issued g.templateBlank.1.styleSet g.templateBlank.1.extrasTable :=
  h.blankWithBg _

/-! ### Extras -/

theorem clearCellGraphic_issued {s : StyleSet} {e : ExtrasTable} {c : Square} (he : e.Valid)
    (hc : c.Issued s e) :
    (clearCellGraphic e c).1.Valid ∧
      (clearCellGraphic e c).1.slots.length = e.slots.length ∧
      (clearCellGraphic e c).2.Issued s (clearCellGraphic e c).1 := by
  unfold clearCellGraphic
  dsimp only
  rcases hid : c.extrasId with _ | eid
  · exact ⟨he, rfl, hc.of_ids rfl rfl rfl⟩
  dsimp only
  rcases hslot : e.get eid with _ | extras
  · exact ⟨he, rfl, hc.of_ids rfl rfl rfl⟩
  dsimp only
  have hmodified := he.modify eid fun _ => { extras with graphic := none }
  have hlength := ExtrasTable.modify_length e eid fun _ => { extras with graphic := none }
  generalize e.modify eid (fun _ => { extras with graphic := none }) = e' at hmodified hlength ⊢
  split_ifs
  · refine ⟨hmodified.free eid, (ExtrasTable.free_length e' eid).trans hlength, ?_⟩
    have hunset : (c.setExtrasId none).Issued s (e'.free eid) :=
      (hc.mono le_rfl (by rw [ExtrasTable.free_length, hlength])).setExtrasId
        fun i hi => absurd hi (by simp)
    exact hunset.of_ids rfl rfl rfl
  · exact ⟨hmodified, hlength, (hc.mono le_rfl hlength.ge).of_ids rfl rfl rfl⟩

theorem clearGraphicAt (h : g.Owned) (p : Pos) : (g.clearGraphicAt p).Owned := by
  have hcell := h.cell p
  unfold Grid.clearGraphicAt
  split_ifs
  · obtain ⟨hvalid, hlength, hissued⟩ := clearCellGraphic_issued h.extras hcell
    have htables : Owned { g with extrasTable := (clearCellGraphic g.extrasTable (g.cell p)).1 } :=
      h.of_tables (s := g.styleSet) le_rfl hlength.ge hvalid
    exact htables.setCell p hissued
  · exact h.modifyCell p fun _ _ _ => le_rfl

end Owned
end Grid
end Rio
