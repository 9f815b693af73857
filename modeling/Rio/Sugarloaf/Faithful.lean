import Rio.Sugarloaf.Slots

/-! The glyph atlas is a faithful map: what is read at a slot is what was inserted for it. -/

set_option linter.dupNamespace false

namespace Rio.Sugarloaf
open Rio.Checked Rio.Raster

variable {bytesPerPixel : ℕ}

namespace AtlasSlot

def Apart (s s' : AtlasSlot) : Prop := AtlasAllocator.Apart s.x s.y s.w s.h s'.x s'.y s'.w s'.h

def Inside (s : AtlasSlot) (side : ℕ) : Prop := s.x + s.w ≤ side ∧ s.y + s.h ≤ side

end AtlasSlot

/-- The slot has the size of the glyph, or none for a glyph without pixels. -/
def Handed.Sized (e : Handed bytesPerPixel) : Prop :=
  if e.glyph.width = 0 ∨ e.glyph.height = 0 then e.slot.w = 0 ∧ e.slot.h = 0
  else e.slot.w = e.glyph.width ∧ e.slot.h = e.glyph.height

namespace CpuGridAtlas
variable {c c' : CpuGridAtlas bytesPerPixel} {handed : List (Handed bytesPerPixel)}

/-- The pixels at a slot are the bytes. -/
def Shows (c : CpuGridAtlas bytesPerPixel) (slot : AtlasSlot) (bytes : List UInt8) : Prop :=
  ∀ row < slot.h, ∀ i < slot.w * bytesPerPixel,
    c.pixels[(slot.y + row) * (c.side * bytesPerPixel) + (slot.x * bytesPerPixel + i)]? =
      bytes[row * (slot.w * bytesPerPixel) + i]?

/-- The slot is on a shelf, or has no pixels. -/
def Places (c : CpuGridAtlas bytesPerPixel) (slot : AtlasSlot) : Prop :=
  (slot.x = 0 ∧ slot.y = 0 ∧ slot.w = 0 ∧ slot.h = 0) ∨
    c.allocator.Holds slot.x slot.y slot.w slot.h

/-- What holds of an atlas and the slots that it handed out. -/
structure Sound (c : CpuGridAtlas bytesPerPixel) (handed : List (Handed bytesPerPixel)) :
    Prop where
  allocator : c.allocator.Sound
  size : c.allocator.width = c.side ∧ c.allocator.height = c.side
  length : c.pixels.length = c.side * (c.side * bytesPerPixel)
  places : ∀ e ∈ handed, c.Places e.slot
  sized : ∀ e ∈ handed, e.Sized
  apart : handed.Pairwise fun e e' => e'.slot.Apart e.slot
  shows : ∀ e ∈ handed, c.Shows e.slot e.glyph.bytes
  lookup : ∀ key, c.lookup key = (handed.find? fun e => e.key = key).map Handed.slot

theorem atlasSize_le : atlasSize ≤ atlasMaxSize := by decide

theorem new_sound : (CpuGridAtlas.new bytesPerPixel).Sound [] := by
  refine ⟨⟨atlasSize_le, atlasSize_le, nofun, List.Pairwise.nil⟩, ⟨rfl, rfl⟩, ?_, nofun, nofun,
    List.Pairwise.nil, nofun, fun _ => rfl⟩
  exact List.length_replicate.trans (Nat.mul_assoc _ _ _)

theorem Places.inside (h : c.Sound handed) {slot : AtlasSlot} (hplaces : c.Places slot) :
    slot.Inside c.side := by
  obtain ⟨hx, hy, hw, hh⟩ | hold := hplaces
  · unfold AtlasSlot.Inside
    omega
  · obtain ⟨hwidth, hheight⟩ := hold.inside h.allocator
    rw [h.size.1] at hwidth
    rw [h.size.2] at hheight
    exact ⟨hwidth.le, hheight.le⟩

/-- A slot apart from the one that is written keeps its pixels. -/
theorem Shows.blit {pixels : List UInt8} {slot new : AtlasSlot} {bytes src : List UInt8}
    (hshows : c.Shows slot bytes) (hinside : slot.Inside c.side) (hapart : slot.Apart new)
    (hblits : Blits (c.side * bytesPerPixel) (new.x * bytesPerPixel) new.y
      (new.w * bytesPerPixel) new.h src c.pixels pixels)
    (hpixels : c'.pixels = pixels) (hside : c'.side = c.side) : c'.Shows slot bytes := by
  intro row hrow i hi
  rw [hpixels, hside]
  refine (hblits.outside _ _ ?_ ?_).trans (hshows row hrow i hi)
  · have hright := Nat.mul_le_mul_right bytesPerPixel hinside.1
    rw [Nat.add_mul] at hright
    omega
  · rintro ⟨hleft, hright, hupper, hlower⟩
    obtain h | h | h | h := hapart
    · have hbytes := Nat.mul_le_mul_right bytesPerPixel h
      rw [Nat.add_mul] at hbytes
      omega
    · have hbytes := Nat.mul_le_mul_right bytesPerPixel h
      rw [Nat.add_mul] at hbytes
      omega
    · omega
    · omega

/-- The lookup of a key after another slot is handed out. -/
theorem Sound.lookup_insert (h : c.Sound handed) (e : Handed bytesPerPixel) (key : GlyphKey) :
    (c.slots.insert e.key e.slot).lookup key =
      ((e :: handed).find? fun e => e.key = key).map Handed.slot := by
  rw [Table.lookup_insert_of, List.find?_cons]
  by_cases hkey : key = e.key
  · rw [if_pos hkey, decide_eq_true hkey.symm]
    rfl
  · rw [if_neg hkey, decide_eq_false (Ne.symm hkey)]
    exact h.lookup key

theorem Sound.insertEmpty (h : c.Sound handed) (key : GlyphKey)
    (glyph : RasterizedGlyph bytesPerPixel) (hempty : glyph.width = 0 ∨ glyph.height = 0) :
    { c with slots := c.slots.insert key ⟨0, 0, 0, 0, glyph.bearingX, glyph.bearingY⟩ }.Sound
      (⟨key, ⟨0, 0, 0, 0, glyph.bearingX, glyph.bearingY⟩, glyph⟩ :: handed) where
  allocator := h.allocator
  size := h.size
  length := h.length
  places := List.forall_mem_cons.mpr ⟨.inl ⟨rfl, rfl, rfl, rfl⟩, h.places⟩
  sized := List.forall_mem_cons.mpr ⟨(if_pos hempty).mpr ⟨rfl, rfl⟩, h.sized⟩
  apart := List.pairwise_cons.mpr ⟨fun _ _ => .inr (.inl (Nat.zero_le _)), h.apart⟩
  shows := List.forall_mem_cons.mpr ⟨fun row hrow => absurd hrow (Nat.not_lt_zero row), h.shows⟩
  lookup := h.lookup_insert ⟨key, ⟨0, 0, 0, 0, glyph.bearingX, glyph.bearingY⟩, glyph⟩

theorem Sound.insert (quotient : ℕ → ℕ → ℚ) (h : c.Sound handed) (key : GlyphKey)
    (glyph : RasterizedGlyph bytesPerPixel) :
    ∃ slot c', c.insert quotient key glyph = .ok (slot, c') ∧
      c'.Sound ((slot.map fun slot => ⟨key, slot, glyph⟩).toList ++ handed) := by
  unfold CpuGridAtlas.insert
  by_cases hempty : glyph.width = 0 ∨ glyph.height = 0
  · rw [if_pos hempty]
    exact ⟨_, _, rfl, h.insertEmpty key glyph hempty⟩
  rw [if_neg hempty]
  obtain ⟨place, a, hallocate, hallocates⟩ :=
    AtlasAllocator.allocate_allocates quotient h.allocator glyph.width glyph.height
  rw [hallocate]
  have hkept (slot : AtlasSlot) (hslot : c.Places slot) :
      (slot.x = 0 ∧ slot.y = 0 ∧ slot.w = 0 ∧ slot.h = 0) ∨
        a.Holds slot.x slot.y slot.w slot.h := hslot.imp id (hallocates.kept _ _ _ _)
  have hsize : a.width = c.side ∧ a.height = c.side :=
    ⟨hallocates.size.1.trans h.size.1, hallocates.size.2.trans h.size.2⟩
  cases place with
  | none =>
    exact ⟨none, _, rfl, ⟨hallocates.sound, hsize, h.length,
      fun e he => hkept e.slot (h.places e he), h.sized, h.apart, h.shows, h.lookup⟩⟩
  | some place =>
    obtain ⟨x, y⟩ := place
    obtain ⟨hholds, hapart⟩ := hallocates.placed x y rfl
    obtain ⟨hwidth, hheight⟩ := hholds.inside hallocates.sound
    rw [hsize.1] at hwidth
    rw [hsize.2] at hheight
    have hcolumns := Nat.mul_le_mul_right bytesPerPixel hwidth.le
    rw [Nat.add_mul] at hcolumns
    obtain ⟨pixels, hwrite, hblits⟩ := blit_of_le glyph.bytes c.pixels hcolumns
      (h.length ▸ Nat.mul_le_mul_right _ hheight.le) glyph.packed.ge
    have hplaced (e : Handed bytesPerPixel) (he : e ∈ handed) :
        e.slot.Apart ⟨x, y, glyph.width, glyph.height, glyph.bearingX, glyph.bearingY⟩ := by
      obtain ⟨hex, -, hew, -⟩ | hold := h.places e he
      · refine .inl ?_
        rw [hex, hew]
        exact Nat.zero_le x
      · exact hapart _ _ _ _ hold
    have hwritten : c.writePixels x y glyph.width glyph.height glyph.bytes = .ok pixels := hwrite
    dsimp only [ok_bind]
    rw [hwritten]
    refine ⟨_, _, rfl, ⟨hallocates.sound, hsize, hblits.length.trans h.length, ?_, ?_, ?_, ?_, ?_⟩⟩
    · exact List.forall_mem_cons.mpr ⟨.inr hholds, fun e he => hkept e.slot (h.places e he)⟩
    · exact List.forall_mem_cons.mpr ⟨(if_neg hempty).mpr ⟨rfl, rfl⟩, h.sized⟩
    · exact List.pairwise_cons.mpr ⟨fun e he => hplaced e he, h.apart⟩
    · refine List.forall_mem_cons.mpr ⟨hblits.inside, fun e he => ?_⟩
      exact (h.shows e he).blit ((h.places e he).inside h) (hplaced e he) hblits rfl rfl
    · exact h.lookup_insert
        ⟨key, ⟨x, y, glyph.width, glyph.height, glyph.bearingX, glyph.bearingY⟩, glyph⟩

theorem Sound.grow (h : c.Sound handed) :
    ∃ grown c', c.grow = .ok (grown, c') ∧ c'.Sound handed := by
  unfold CpuGridAtlas.grow
  dsimp only
  rw [h.size.1, h.size.2]
  by_cases hmax : atlasMaxSize ≤ c.side
  · rw [if_pos hmax]
    exact ⟨_, _, rfl, h⟩
  rw [if_neg hmax]
  by_cases hsame : min (min (c.side * 2) (2 ^ 16 - 1)) atlasMaxSize ≤ c.side
  · rw [if_pos hsame]
    exact ⟨_, _, rfl, h⟩
  rw [if_neg hsame]
  have hlimit : min (min (c.side * 2) (2 ^ 16 - 1)) atlasMaxSize ≤ atlasMaxSize := min_le_right _ _
  generalize min (min (c.side * 2) (2 ^ 16 - 1)) atlasMaxSize = newSide at hsame hlimit ⊢
  have hside : c.side ≤ newSide := by omega
  have hcolumns := Nat.mul_le_mul_right bytesPerPixel hside
  have hnew : (List.replicate (newSide * newSide * bytesPerPixel) (0 : UInt8)).length =
      newSide * (newSide * bytesPerPixel) := List.length_replicate.trans (Nat.mul_assoc _ _ _)
  obtain ⟨pixels, hblit, hblits⟩ := blit_of_le (x := 0) (y := 0)
    c.pixels (List.replicate (newSide * newSide * bytesPerPixel) (0 : UInt8))
    ((Nat.zero_add _).trans_le hcolumns)
    (by rw [hnew, Nat.zero_add]; exact Nat.mul_le_mul_right _ hside) h.length.ge
  rw [hblit, ok_bind]
  refine ⟨_, _, rfl, ⟨⟨hlimit, hlimit, fun s hs => ?_, h.allocator.stacked⟩, ⟨rfl, rfl⟩,
    hblits.length.trans hnew, h.places, h.sized, h.apart, fun e he row hrow i hi => ?_, h.lookup⟩⟩
  · obtain ⟨hx, hy⟩ := h.allocator.inside s hs
    rw [h.size.1] at hx
    rw [h.size.2] at hy
    exact ⟨hx.trans hside, hy.trans hside⟩
  · obtain ⟨hwidth, hheight⟩ := (h.places e he).inside h
    have hright := Nat.mul_le_mul_right bytesPerPixel hwidth
    rw [Nat.add_mul] at hright
    have hcopied := hblits.inside (e.slot.y + row) (by omega) (e.slot.x * bytesPerPixel + i)
      (by omega)
    rw [Nat.zero_add, Nat.zero_add] at hcopied
    exact hcopied.trans (h.shows e he row hrow i hi)

end CpuGridAtlas

/-! ### Runs -/

/-- Every slot that was handed out is inside the atlas and holds the bytes of its glyph, the
slots do not overlap, and a key stands for the slot handed out last for it. -/
structure FaithfulMap (c : CpuGridAtlas bytesPerPixel) (handed : List (Handed bytesPerPixel)) :
    Prop where
  sized : ∀ e ∈ handed, e.Sized
  inside : ∀ e ∈ handed, e.slot.Inside c.side
  apart : handed.Pairwise fun e e' => e'.slot.Apart e.slot
  read : ∀ e ∈ handed, c.readSlot e.slot = e.glyph.bytes
  lookup : ∀ key, c.lookup key = (handed.find? fun e => e.key = key).map Handed.slot

theorem CpuGridAtlas.Sound.faithful {c : CpuGridAtlas bytesPerPixel}
    {handed : List (Handed bytesPerPixel)} (h : c.Sound handed) : FaithfulMap c handed := by
  refine ⟨h.sized, fun e he => (h.places e he).inside h, h.apart, fun e he => ?_, h.lookup⟩
  refine readRect_eq ?_ (h.shows e he)
  have hsized : e.Sized := h.sized e he
  have hpacked := e.glyph.packed
  unfold Handed.Sized at hsized
  split_ifs at hsized with hempty
  · obtain hwidth | hheight := hempty
    · rw [hpacked, hwidth, hsized.1, Nat.zero_mul, Nat.mul_zero, Nat.mul_zero]
    · rw [hpacked, hheight, hsized.2, Nat.zero_mul, Nat.zero_mul]
  · rw [hpacked, hsized.1, hsized.2]

namespace AtlasOp

/-- A step keeps what was handed out. -/
theorem step_sound (quotient : ℕ → ℕ → ℚ)
    {s : CpuGridAtlas bytesPerPixel × List (Handed bytesPerPixel)}
    (h : s.1.Sound s.2) (op : AtlasOp bytesPerPixel) :
    ∃ c newer, step quotient s op = .ok (c, newer ++ s.2) ∧ c.Sound (newer ++ s.2) := by
  cases op with
  | insert key glyph =>
    obtain ⟨slot, c, hinsert, hsound⟩ := h.insert quotient key glyph
    unfold step
    dsimp only
    rw [hinsert]
    cases slot with
    | none => exact ⟨c, [], rfl, hsound⟩
    | some slot => exact ⟨c, [⟨key, slot, glyph⟩], rfl, hsound⟩
  | lookup key => exact ⟨s.1, [], rfl, h⟩
  | grow =>
    obtain ⟨grown, c, hgrow, hsound⟩ := h.grow
    unfold step
    dsimp only
    rw [hgrow]
    exact ⟨c, [], rfl, hsound⟩

theorem foldlM_sound (quotient : ℕ → ℕ → ℚ) : ∀ (ops : List (AtlasOp bytesPerPixel))
    {s : CpuGridAtlas bytesPerPixel × List (Handed bytesPerPixel)}, s.1.Sound s.2 →
    ∃ c newer, ops.foldlM (step quotient) s = .ok (c, newer ++ s.2) ∧ c.Sound (newer ++ s.2)
  | [], s, h => ⟨s.1, [], rfl, h⟩
  | op :: ops, s, h => by
    obtain ⟨c, newer, hstep, hsound⟩ := step_sound quotient h op
    obtain ⟨c', newest, hrun, hrest⟩ := foldlM_sound quotient ops (s := (c, newer ++ s.2)) hsound
    refine ⟨c', newest ++ newer, ?_, ?_⟩
    · rw [List.foldlM_cons, hstep, List.append_assoc]
      exact hrun
    · rw [List.append_assoc]
      exact hrest

/-- Every run ends, without a write out of bounds or a number that leaves its type, and the atlas
is a faithful map of what was inserted; so it is after any further operations, with the same slots
for what was inserted before. -/
theorem run_faithful (quotient : ℕ → ℕ → ℚ) (ops more : List (AtlasOp bytesPerPixel)) :
    ∃ c handed, run quotient ops = .ok (c, handed) ∧ FaithfulMap c handed ∧
      ∃ c' newer, run quotient (ops ++ more) = .ok (c', newer ++ handed) ∧
        FaithfulMap c' (newer ++ handed) := by
  obtain ⟨c, handed, hrun, hsound⟩ := foldlM_sound quotient ops
    (s := (CpuGridAtlas.new bytesPerPixel, [])) CpuGridAtlas.new_sound
  obtain ⟨c', newer, hmore, hrest⟩ := foldlM_sound quotient more
    (s := (c, handed ++ [])) hsound
  rw [List.append_nil] at hrun hsound hmore hrest
  refine ⟨c, handed, hrun, hsound.faithful, c', newer, ?_, hrest.faithful⟩
  unfold run
  rw [List.foldlM_append, hrun, ok_bind]
  exact hmore

end AtlasOp
end Rio.Sugarloaf
