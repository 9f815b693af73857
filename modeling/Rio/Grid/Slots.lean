import Rio.Grid.Issued

/-! The slots of an extras table that are free, what giving one out changes, and the graphic that a
cell finds in its slot. -/

set_option linter.dupNamespace false

namespace Rio
namespace ExtrasTable

variable {t : ExtrasTable} {id id' : ExtrasId} {e : Extras}

/-- Slot `0` is never given out; the slots on the free list are empty, and each is on it once. -/
structure Stocked (t : ExtrasTable) : Prop where
  first : t.slots[0]? = some none
  nodup : t.freed.Nodup
  freed : ∀ id ∈ t.freed, id ≠ 0 ∧ t.slots[id.toNat]? = some none

/-- The number of slots that can still be given out. -/
def room (t : ExtrasTable) : ℕ := t.freed.length + (maxSlots - t.slots.length)

theorem get_eq_none_of_empty (h : t.slots[id.toNat]? = some none) : t.get id = none := by
  unfold get
  rw [h]
  rfl

theorem slot_of_get (h : t.get id = some e) : t.slots[id.toNat]? = some (some e) :=
  Option.join_eq_some_iff.mp h

theorem toNat_ne_zero (hne : id ≠ 0) : id.toNat ≠ 0 := fun h => hne (UInt16.toNat_inj.mp h)

theorem toNat_ne (hne : id' ≠ id) : id.toNat ≠ id'.toNat :=
  fun h => hne (UInt16.toNat_inj.mp h.symm)

/-! ### Writing to a slot -/

theorem get_modify_self (f : Extras → Extras) : (t.modify id f).get id = (t.get id).map f := by
  unfold get modify
  rw [List.getElem?_modify_eq]
  cases t.slots[id.toNat]? with
  | none => rfl
  | some slot => rfl

theorem get_modify_of_ne (hne : id' ≠ id) (f : Extras → Extras) :
    (t.modify id f).get id' = t.get id' := by
  unfold get modify
  dsimp only
  rw [List.getElem?_modify_ne _ _ (toNat_ne hne)]

theorem modify_empty (f : Extras → Extras) :
    (t.modify id f).slots[id'.toNat]? = some none ↔ t.slots[id'.toNat]? = some none := by
  unfold modify
  dsimp only
  by_cases hid : id' = id
  · rw [hid, List.getElem?_modify_eq]
    cases t.slots[id.toNat]? with
    | none => exact iff_of_false nofun nofun
    | some slot =>
      cases slot with
      | none => exact iff_of_true rfl rfl
      | some e => exact iff_of_false nofun nofun
  · rw [List.getElem?_modify_ne _ _ (toNat_ne hid)]

theorem Stocked.modify (h : t.Stocked) (id : ExtrasId) (f : Extras → Extras) :
    (t.modify id f).Stocked := by
  have hfirst : (t.modify id f).slots[(0 : ExtrasId).toNat]? = some none :=
    (modify_empty f).mpr h.first
  exact ⟨hfirst, h.nodup, fun id' hid' =>
    ⟨(h.freed id' hid').1, (modify_empty f).mpr (h.freed id' hid').2⟩⟩

theorem room_modify (t : ExtrasTable) (id : ExtrasId) (f : Extras → Extras) :
    (t.modify id f).room = t.room := by
  unfold room
  rw [modify_length]
  rfl

theorem occupied_modify (hid : t.get id' ≠ none) (id : ExtrasId) (f : Extras → Extras) :
    (t.modify id f).get id' ≠ none := by
  by_cases heq : id' = id
  · rw [heq, get_modify_self, ← heq]
    exact fun hnone => hid (Option.map_eq_none_iff.mp hnone)
  · rwa [get_modify_of_ne heq]

theorem modify_of_get (hget : t.get id = some e) (f : Extras → Extras) :
    (t.modify id fun _ => f e) = t.modify id f := by
  have hslot := slot_of_get hget
  have hslots : (t.slots.modify id.toNat fun slot => slot.map fun _ => f e) =
      t.slots.modify id.toNat fun slot => slot.map f := by
    refine List.ext_getElem? fun i => ?_
    by_cases hi : i = id.toNat
    · rw [hi, List.getElem?_modify_eq, List.getElem?_modify_eq, hslot]
      rfl
    · rw [List.getElem?_modify_ne _ _ (Ne.symm hi), List.getElem?_modify_ne _ _ (Ne.symm hi)]
  unfold modify
  rw [hslots]

/-! ### Giving out a slot -/

theorem get_set_self {slots : List (Option Extras)} {freed : List ExtrasId}
    (hlt : id.toNat < slots.length) : get ⟨slots.set id.toNat (some e), freed⟩ id = some e := by
  unfold get
  rw [List.getElem?_set_self hlt]
  rfl

theorem get_set_of_ne {slots : List (Option Extras)} {freed freed' : List ExtrasId}
    {slot : Option Extras} (hne : id' ≠ id) :
    get ⟨slots.set id.toNat slot, freed⟩ id' = get ⟨slots, freed'⟩ id' := by
  unfold get
  rw [List.getElem?_set_ne (toNat_ne hne)]

/-- A slot that is given out was free, and the others stay. -/
structure Allocates (t : ExtrasTable) (e : Extras) (t' : ExtrasTable) (id : ExtrasId) : Prop where
  ne_zero : id ≠ 0
  free : t.get id = none
  get_self : t'.get id = some e
  get_of_ne : ∀ id', id' ≠ id → t'.get id' = t.get id'
  room : t.room ≤ t'.room + 1

theorem Stocked.allocates (h : t.Stocked) (hroom : 0 < t.room) (e : Extras) :
    t.Allocates e (t.alloc e).1 (t.alloc e).2 := by
  obtain ⟨slots, freed⟩ := t
  cases freed with
  | cons id freed =>
    obtain ⟨hne, hempty⟩ := h.freed id List.mem_cons_self
    have hlt : id.toNat < slots.length := (List.getElem?_eq_some_iff.mp hempty).1
    refine ⟨hne, get_eq_none_of_empty hempty, get_set_self hlt, fun id' hid' =>
      get_set_of_ne hid', ?_⟩
    show freed.length + 1 + (maxSlots - slots.length) ≤
      freed.length + (maxSlots - (slots.set id.toNat (some e)).length) + 1
    rw [List.length_set]
    omega
  | nil =>
    have hfull : ¬ maxSlots ≤ slots.length := by
      change 0 < 0 + (maxSlots - slots.length) at hroom
      omega
    have hpos : 0 < slots.length := (List.getElem?_eq_some_iff.mp h.first).1
    have hnew : (UInt16.ofNat slots.length).toNat = slots.length := by
      rw [UInt16.toNat_ofNat']
      unfold maxSlots at hfull
      omega
    have halloc : alloc ⟨slots, []⟩ e = (⟨slots ++ [some e], []⟩, UInt16.ofNat slots.length) :=
      if_neg hfull
    rw [halloc]
    refine ⟨?_, ?_, ?_, fun id' hid' => ?_, ?_⟩
    · intro hzero
      dsimp only at hzero
      rw [hzero] at hnew
      exact hpos.ne hnew
    · unfold get
      rw [hnew, List.getElem?_eq_none le_rfl]
      rfl
    · unfold get
      dsimp only
      rw [hnew, List.getElem?_concat_length]
      rfl
    · have hne := toNat_ne hid'
      rw [hnew] at hne
      unfold get
      dsimp only
      rcases lt_or_gt_of_ne hne with hlt | hlt
      · rw [List.getElem?_eq_none (by rw [List.length_append]; exact hlt),
          List.getElem?_eq_none hlt.le]
      · rw [List.getElem?_append_left hlt]
    · show 0 + (maxSlots - slots.length) ≤ 0 + (maxSlots - (slots ++ [some e]).length) + 1
      rw [List.length_append, List.length_singleton]
      omega

theorem alloc_full (hnone : t.room = 0) (e : Extras) : t.alloc e = (t, 0) := by
  obtain ⟨slots, freed⟩ := t
  change freed.length + (maxSlots - slots.length) = 0 at hnone
  have hfreed : freed = [] := List.length_eq_zero_iff.mp (by omega)
  have hfull : maxSlots ≤ slots.length := by omega
  subst hfreed
  exact if_pos hfull

/-- The slots that are occupied stay as they are. -/
theorem get_alloc (h : t.Stocked) (hget : t.get id' = some e) (extras : Extras) :
    (t.alloc extras).1.get id' = some e := by
  obtain hnone | hroom := Nat.eq_zero_or_pos t.room
  · rw [alloc_full hnone]
    exact hget
  · have halloc := h.allocates hroom extras
    have hne : id' ≠ (t.alloc extras).2 := fun heq =>
      absurd (halloc.free.symm.trans (heq ▸ hget)) (Option.some_ne_none e).symm
    exact (halloc.get_of_ne id' hne).trans hget

theorem Stocked.alloc (h : t.Stocked) (e : Extras) : (t.alloc e).1.Stocked := by
  obtain ⟨slots, freed⟩ := t
  have hpos : 0 < slots.length := (List.getElem?_eq_some_iff.mp h.first).1
  cases freed with
  | cons id freed =>
    obtain ⟨hne, hempty⟩ := h.freed id List.mem_cons_self
    obtain ⟨hnotMem, hnodup⟩ := List.nodup_cons.mp h.nodup
    refine ⟨?_, hnodup, fun id' hid' => ?_⟩
    · show (slots.set id.toNat (some e))[0]? = some none
      rw [List.getElem?_set_ne (toNat_ne_zero hne)]
      exact h.first
    · obtain ⟨hne', hempty'⟩ := h.freed id' (List.mem_cons_of_mem _ hid')
      refine ⟨hne', ?_⟩
      show (slots.set id.toNat (some e))[id'.toNat]? = some none
      have hother : id' ≠ id := fun heq => hnotMem (heq ▸ hid')
      rw [List.getElem?_set_ne (toNat_ne hother)]
      exact hempty'
  | nil =>
    by_cases hfull : maxSlots ≤ slots.length
    · have halloc : ExtrasTable.alloc ⟨slots, []⟩ e = (⟨slots, []⟩, 0) := if_pos hfull
      rw [halloc]
      exact h
    · have halloc : ExtrasTable.alloc ⟨slots, []⟩ e =
          (⟨slots ++ [some e], []⟩, UInt16.ofNat slots.length) := if_neg hfull
      rw [halloc]
      refine ⟨?_, List.nodup_nil, fun id' hid' => absurd hid' List.not_mem_nil⟩
      show (slots ++ [some e])[0]? = some none
      rw [List.getElem?_append_left hpos]
      exact h.first

/-! ### Taking a slot back -/

theorem get_free (t : ExtrasTable) (hne : id ≠ 0) :
    (t.free id).get id = none ∧ ∀ id', id' ≠ id → (t.free id).get id' = t.get id' := by
  unfold free
  rw [if_neg hne]
  split
  · next held hslot =>
    have hlt : id.toNat < t.slots.length := (List.getElem?_eq_some_iff.mp hslot).1
    refine ⟨?_, fun id' hne' => get_set_of_ne hne'⟩
    unfold get
    rw [List.getElem?_set_self hlt]
    rfl
  · next hempty =>
    refine ⟨?_, fun _ _ => rfl⟩
    rcases hget : t.get id with _ | held
    · rfl
    · exact absurd (slot_of_get hget) (hempty held)

theorem Stocked.free (h : t.Stocked) (id : ExtrasId) : (t.free id).Stocked := by
  unfold ExtrasTable.free
  split_ifs with hzero
  · exact h
  · split
    · next extras hslot =>
      have hlt : id.toNat < t.slots.length := (List.getElem?_eq_some_iff.mp hslot).1
      have hnew : id ∉ t.freed := fun hmem => by
        have hempty := (h.freed id hmem).2
        rw [hslot] at hempty
        cases hempty
      refine ⟨?_, List.nodup_cons.mpr ⟨hnew, h.nodup⟩, fun id' hid' => ?_⟩
      · show (t.slots.set id.toNat none)[0]? = some none
        rw [List.getElem?_set_ne (toNat_ne_zero hzero)]
        exact h.first
      · show id' ≠ 0 ∧ (t.slots.set id.toNat none)[id'.toNat]? = some none
        by_cases hid : id' = id
        · rw [hid, List.getElem?_set_self hlt]
          exact ⟨hzero, rfl⟩
        · rw [List.getElem?_set_ne (toNat_ne hid)]
          exact h.freed id' ((List.mem_cons.mp hid').resolve_left hid)
    · exact h

theorem new_stocked : ExtrasTable.new.Stocked :=
  ⟨rfl, List.nodup_nil, fun _ hid => absurd hid List.not_mem_nil⟩

theorem clear_stocked (t : ExtrasTable) : t.clear.Stocked := new_stocked

end ExtrasTable

namespace Grid

/-- The graphic of a cell. -/
def cellGraphic (g : Grid Square) (p : Pos) : Option GraphicCell :=
  if (g.cell p).flags.graphics then
    (g.cell p).extrasId.bind fun eid =>
      (g.extrasTable.get eid).bind fun extras => extras.graphic.bind List.head?
  else none

end Grid
end Rio
