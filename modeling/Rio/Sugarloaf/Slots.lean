import Rio.Sugarloaf.Atlas

/-! The slots of the glyph atlas: they lie inside it and apart from one another, and keep their
pixels, whatever is inserted and whenever it grows. -/

set_option linter.dupNamespace false

namespace Rio.Sugarloaf
open Rio.Checked Rio.Raster

/-! ### Shelves -/

namespace AtlasAllocator
variable {a : AtlasAllocator} {quotient : ℕ → ℕ → ℚ}

/-- The shelves are inside, and every one ends above the next. -/
structure Sound (a : AtlasAllocator) : Prop where
  width_le : a.width ≤ CpuGridAtlas.atlasMaxSize
  height_le : a.height ≤ CpuGridAtlas.atlasMaxSize
  inside : ∀ shelf ∈ a.shelves, shelf.x + shelf.width ≤ a.width ∧ shelf.y + shelf.height ≤ a.height
  stacked : (a.shelves.map fun shelf => (shelf.y, shelf.height)).Pairwise
    fun upper lower => upper.1 + upper.2 ≤ lower.1

/-- The rectangle is on the used part of a shelf, and smaller than it. -/
def HoldsOn (a : AtlasAllocator) (i x y w h : ℕ) : Prop :=
  ∃ shelf, a.shelves[i]? = some shelf ∧ y = shelf.y ∧ h < shelf.height ∧ x + w < shelf.x

def Holds (a : AtlasAllocator) (x y w h : ℕ) : Prop := ∃ i, a.HoldsOn i x y w h

theorem Holds.inside (ha : a.Sound) {x y w h : ℕ} (hold : a.Holds x y w h) :
    x + w < a.width ∧ y + h < a.height := by
  obtain ⟨i, shelf, hshelf, rfl, hheight, hwidth⟩ := hold
  obtain ⟨hx, hy⟩ := ha.inside shelf (List.mem_of_getElem? hshelf)
  omega

/-- Rectangles do not overlap. -/
def Apart (x y w h x' y' w' h' : ℕ) : Prop :=
  x + w ≤ x' ∨ x' + w' ≤ x ∨ y + h ≤ y' ∨ y' + h' ≤ y

/-- A shelf is above the ones after it. -/
theorem Sound.above (ha : a.Sound) {i j : ℕ} {upper lower : Shelf}
    (hupper : a.shelves[i]? = some upper) (hlower : a.shelves[j]? = some lower) (hij : i < j) :
    upper.y + upper.height ≤ lower.y := by
  obtain ⟨hi, rfl⟩ := List.getElem?_eq_some_iff.mp hupper
  obtain ⟨hj, rfl⟩ := List.getElem?_eq_some_iff.mp hlower
  have hstacked := List.pairwise_iff_getElem.mp ha.stacked i j (by simpa using hi)
    (by simpa using hj) hij
  simpa only [List.getElem_map] using hstacked

/-- A shelf with room for a rectangle, and the place on it. -/
def RoomAt (a : AtlasAllocator) (width height : ℕ) (place : ℕ × ℕ × ℕ) : Prop :=
  ∃ shelf, a.shelves[place.1]? = some shelf ∧ place.2 = (shelf.x, shelf.y) ∧
    width ≤ shelf.width ∧ height ≤ shelf.height

theorem betterShelf_roomAt {width height : ℕ} {best : Option (ℚ × ℕ × ℕ × ℕ)}
    (hbest : ∀ b, best = some b → a.RoomAt width height b.2) {entry : Shelf × ℕ}
    (hentry : entry ∈ a.shelves.zipIdx) (b : ℚ × ℕ × ℕ × ℕ)
    (h : betterShelf quotient width height best entry = some b) : a.RoomAt width height b.2 := by
  unfold betterShelf at h
  dsimp only at h
  by_cases hroom : width ≤ entry.1.width ∧ height ≤ entry.1.height
  · rw [if_pos hroom] at h
    have hshelf := List.mk_mem_zipIdx_iff_getElem?.mp hentry
    cases hratio : calculateWasteRatio quotient entry.1 height with
    | none =>
      rw [hratio] at h
      exact hbest b h
    | some wasteRatio =>
      rw [hratio] at h
      dsimp only at h
      generalize (if entry.1.height = height then wasteRatio - 1 else wasteRatio) = score at h
      split_ifs at h
      · cases h
        exact ⟨entry.1, hshelf, rfl, hroom⟩
      · exact hbest b h
  · rw [if_neg hroom] at h
    exact hbest b h

/-- Whatever the scores are, only a shelf with room is chosen. -/
theorem findBestShelf_roomAt {width height : ℕ} {place : ℕ × ℕ × ℕ}
    (h : a.findBestShelf quotient width height = some place) : a.RoomAt width height place := by
  obtain ⟨best, hbest, rfl⟩ := Option.map_eq_some_iff.mp h
  refine List.foldlRecOn a.shelves.zipIdx (betterShelf quotient width height)
    (motive := fun chosen => ∀ b, chosen = some b → a.RoomAt width height b.2) ?_ ?_ best hbest
  · intro b hb
    cases hb
  · exact fun chosen hchosen entry hentry => betterShelf_roomAt hchosen hentry

theorem le_foldl_max {n : ℕ} : ∀ {l : List ℕ} {m : ℕ}, n ≤ m ∨ n ∈ l → n ≤ l.foldl max m
  | [], m, h => h.resolve_right List.not_mem_nil
  | k :: l, m, h => by
    refine le_foldl_max (l := l) ?_
    obtain hm | hmem := h
    · exact .inl (hm.trans (le_max_left m k))
    · obtain rfl | hmem := List.mem_cons.mp hmem
      · exact .inl (le_max_right m n)
      · exact .inr hmem

theorem le_findNextYPosition (ha : a.Sound) {shelf : Shelf} (hshelf : shelf ∈ a.shelves) :
    shelf.y + shelf.height ≤ a.findNextYPosition := by
  have hinside := (ha.inside shelf hshelf).2
  have hheight := ha.height_le
  unfold CpuGridAtlas.atlasMaxSize at hheight
  have hsum : saturatingAdd shelf.y shelf.height = shelf.y + shelf.height := by
    unfold saturatingAdd
    omega
  have hmem : saturatingAdd shelf.y shelf.height ∈
      a.shelves.map fun shelf => saturatingAdd shelf.y shelf.height :=
    List.mem_map.mpr ⟨shelf, hshelf, rfl⟩
  rw [← hsum]
  exact le_foldl_max (.inr hmem)

/-- What an allocation does: nothing, or a rectangle on a shelf, apart from all that were there. -/
structure Allocates (a : AtlasAllocator) (width height : ℕ) (place : Option (ℕ × ℕ))
    (a' : AtlasAllocator) : Prop where
  sound : a'.Sound
  size : a'.width = a.width ∧ a'.height = a.height
  kept : ∀ x y w h, a.Holds x y w h → a'.Holds x y w h
  placed : ∀ x y, place = some (x, y) → a'.Holds x y width height ∧
    ∀ x' y' w' h', a.Holds x' y' w' h' → Apart x' y' w' h' x y width height

theorem saturatingAdd_le {m n k : ℕ} (h : saturatingAdd m n ≤ k)
    (hk : k ≤ CpuGridAtlas.atlasMaxSize) : m + n ≤ k := by
  unfold saturatingAdd at h
  unfold CpuGridAtlas.atlasMaxSize at hk
  omega

/-- A rectangle that goes on a shelf that is there. -/
theorem allocates_onShelf (ha : a.Sound) {i width height : ℕ} {shelf : Shelf}
    (hshelf : a.shelves[i]? = some shelf) (hwidth : width < shelf.width)
    (hheight : height < shelf.height) :
    a.Allocates width height (some (shelf.x, shelf.y))
      { a with
        shelves := a.shelves.set i
          { shelf with x := shelf.x + (width + 1), width := shelf.width - (width + 1) } } := by
  have hi : i < a.shelves.length := (List.getElem?_eq_some_iff.mp hshelf).1
  have hset (j : ℕ) : (a.shelves.set i
      { shelf with x := shelf.x + (width + 1), width := shelf.width - (width + 1) })[j]? =
      if i = j then some { shelf with
        x := shelf.x + (width + 1), width := shelf.width - (width + 1) } else a.shelves[j]? := by
    rw [List.getElem?_set]
    split_ifs
    · rfl
    · rfl
  have hinside := ha.inside shelf (List.mem_of_getElem? hshelf)
  refine ⟨⟨ha.width_le, ha.height_le, fun s hs => ?_, ?_⟩, ⟨rfl, rfl⟩, ?_, ?_⟩
  · obtain hs | rfl := List.mem_or_eq_of_mem_set hs
    · exact ha.inside s hs
    · dsimp only
      omega
  · -- the shelf stays where it is
    have hsame : (a.shelves.map fun shelf => (shelf.y, shelf.height)).set i
        (shelf.y, shelf.height) = a.shelves.map fun shelf => (shelf.y, shelf.height) := by
      refine List.ext_getElem? fun j => ?_
      rw [List.getElem?_set, List.length_map, List.getElem?_map]
      split_ifs with hij
      · rw [← hij, hshelf]
        rfl
      · rfl
    rw [List.map_set, hsame]
    exact ha.stacked
  · rintro x y w h ⟨j, s, hs, hy, hh, hx⟩
    by_cases hij : i = j
    · rw [← hij, hshelf] at hs
      cases hs
      refine ⟨i, _, (hset i).trans (if_pos rfl), hy, hh, ?_⟩
      dsimp only
      omega
    · exact ⟨j, s, (hset j).trans ((if_neg hij).trans hs), hy, hh, hx⟩
  · rintro x y hplace
    cases hplace
    refine ⟨⟨i, _, (hset i).trans (if_pos rfl), rfl, hheight, ?_⟩, ?_⟩
    · dsimp only
      omega
    · rintro x' y' w' h' ⟨j, s, hs, rfl, hh, hx⟩
      unfold Apart
      obtain hij | rfl | hij := Nat.lt_trichotomy i j
      · have habove := ha.above hshelf hs hij
        omega
      · rw [hshelf] at hs
        cases hs
        omega
      · have habove := ha.above hs hshelf hij
        omega

/-- A rectangle that goes on a shelf of its own, below all others. -/
theorem allocates_newShelf (ha : a.Sound) {y width height : ℕ} (hy : y = a.findNextYPosition)
    (hwidth : width < a.width) (hheight : y + (height + 1) ≤ a.height) :
    a.Allocates width height (some (0, y))
      { a with
        shelves := a.shelves ++ [⟨width + 1, y, a.width - (width + 1), height + 1⟩] } := by
  have hbelow (s : Shelf) (hs : s ∈ a.shelves) : s.y + s.height ≤ y :=
    hy ▸ le_findNextYPosition ha hs
  refine ⟨⟨ha.width_le, ha.height_le, fun s hs => ?_, ?_⟩, ⟨rfl, rfl⟩, ?_, ?_⟩
  · obtain hs | hs := List.mem_append.mp hs
    · exact ha.inside s hs
    · cases List.mem_singleton.mp hs
      dsimp only
      omega
  · rw [List.map_append, List.pairwise_append]
    refine ⟨ha.stacked, List.pairwise_singleton _ _, fun upper hupper lower hlower => ?_⟩
    obtain ⟨s, hs, rfl⟩ := List.mem_map.mp hupper
    cases List.mem_singleton.mp hlower
    exact hbelow s hs
  · rintro x' y' w' h' ⟨j, s, hs, hrest⟩
    have hj := (List.getElem?_eq_some_iff.mp hs).1
    exact ⟨j, s, (List.getElem?_append_left hj).trans hs, hrest⟩
  · rintro x y' hplace
    cases hplace
    refine ⟨⟨a.shelves.length, _, List.getElem?_concat_length, rfl, Nat.lt_succ_self height, ?_⟩,
      ?_⟩
    · dsimp only
      omega
    · rintro x' y' w' h' ⟨j, s, hs, rfl, hh, hx⟩
      have habove := hbelow s (List.mem_of_getElem? hs)
      unfold Apart
      omega

theorem allocates_none (ha : a.Sound) (width height : ℕ) : a.Allocates width height none a :=
  ⟨ha, ⟨rfl, rfl⟩, fun _ _ _ _ h => h, nofun⟩

/-- Every allocation ends, without leaving its numbers. -/
theorem allocate_allocates (quotient : ℕ → ℕ → ℚ) (ha : a.Sound) (width height : ℕ) :
    ∃ place a', a.allocate quotient width height = .ok (place, a') ∧
      a.Allocates width height place a' := by
  unfold allocate
  dsimp only
  by_cases hwide : a.width < saturatingAdd width 1
  · rw [if_pos hwide]
    exact ⟨none, a, rfl, allocates_none ha width height⟩
  rw [if_neg hwide]
  have hwidth := saturatingAdd_le (Nat.le_of_not_lt hwide) ha.width_le
  have hpadded : saturatingAdd width 1 = width + 1 := by
    have hlimit := ha.width_le
    unfold saturatingAdd
    unfold CpuGridAtlas.atlasMaxSize at hlimit
    omega
  cases hbest : a.findBestShelf quotient (saturatingAdd width 1) (saturatingAdd height 1) with
  | some place =>
    obtain ⟨i, x, y⟩ := place
    obtain ⟨shelf, hshelf, hplace, hroomWidth, hroomHeight⟩ := findBestShelf_roomAt hbest
    cases hplace
    have hinside := ha.inside shelf (List.mem_of_getElem? hshelf)
    have hlimits := ha.width_le
    have hheight := saturatingAdd_le hroomHeight (hinside.2.trans' (Nat.le_add_left _ _) |>.trans
      ha.height_le)
    rw [hpadded] at hroomWidth
    dsimp only
    have hread : Checked.read a.shelves i = .ok shelf := by
      unfold Checked.read
      rw [hshelf]
    have hfit : fit 16 (shelf.x + saturatingAdd width 1) = .ok (shelf.x + (width + 1)) := by
      rw [hpadded]
      refine fit_of_lt ?_
      unfold CpuGridAtlas.atlasMaxSize at hlimits
      omega
    rw [hread, ok_bind, hfit, ok_bind, hpadded]
    exact ⟨_, _, rfl, allocates_onShelf ha hshelf (by omega) (by omega)⟩
  | none =>
    dsimp only
    refine ⟨(a.createNewShelf (saturatingAdd width 1) (saturatingAdd height 1)).1,
      (a.createNewShelf (saturatingAdd width 1) (saturatingAdd height 1)).2, rfl, ?_⟩
    unfold createNewShelf
    dsimp only
    by_cases hhigh : a.height < saturatingAdd a.findNextYPosition (saturatingAdd height 1)
    · rw [if_pos hhigh]
      exact allocates_none ha width height
    rw [if_neg hhigh]
    have hheight := saturatingAdd_le (Nat.le_of_not_lt hhigh) ha.height_le
    have hpaddedHeight : saturatingAdd height 1 = height + 1 := by
      have hlimit := ha.height_le
      unfold saturatingAdd at hheight ⊢
      unfold CpuGridAtlas.atlasMaxSize at hlimit
      omega
    rw [hpaddedHeight] at hheight ⊢
    rw [hpadded]
    exact allocates_newShelf ha rfl (by omega) hheight

end AtlasAllocator
end Rio.Sugarloaf
