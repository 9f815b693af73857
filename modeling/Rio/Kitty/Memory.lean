import Rio.Kitty.Numbers

/-! The memory of images: the counter against the sizes of what is stored, through stores,
evictions, deletions, swaps, clears and atlas graphics. -/

set_option linter.dupNamespace false

namespace Rio.Kitty

/-- The candidates do not stand for the same image. -/
def Candidate.Apart (c d : Candidate) : Prop := c.source = d.source → c.id ≠ d.id

/-! ### Sizes of images -/

def StoredImage.bytes (image : StoredImage) : ℕ := image.data.pixels.length

namespace KittyScreenState

/-- The bytes of the image with an id. -/
def bytesOf (k : KittyScreenState) (imageId : ℕ) : ℕ :=
  Table.weightOf StoredImage.bytes k.kittyImages imageId

theorem evict_bytes (k : KittyScreenState) (imageId : ℕ) :
    (k.evict imageId).bytes + k.bytesOf imageId = k.bytes :=
  Table.weight_erase_add (w := StoredImage.bytes) k.kittyImages imageId

theorem evict_bytesOf (k : KittyScreenState) {imageId other : ℕ} (h : other ≠ imageId) :
    (k.evict imageId).bytesOf other = k.bytesOf other := by
  unfold bytesOf Table.weightOf evict
  dsimp only
  rw [Table.lookup_erase_of, if_neg h]

theorem bytes_eq_zero_iff (k : KittyScreenState) :
    k.bytes = 0 ↔ ∀ id stored, k.getKittyImage id = some stored → stored.data.pixels = [] := by
  refine total_eq_zero_iff.trans ⟨fun h id stored hget => ?_, fun h e he => ?_⟩
  · exact List.length_eq_zero_iff.mp (h ⟨id, stored⟩ (Table.mem_entries_iff.mpr hget))
  · exact List.length_eq_zero_iff.mpr (h e.1 e.2 (Table.mem_entries_iff.mp he))

/-- The bytes that deleting the images under a predicate takes away. -/
theorem deleteKittyImages_bytes (k : KittyScreenState) (predicate : ℕ → Bool) :
    ∃ lost, (k.deleteKittyImages predicate).bytes + lost = k.bytes ∧
      (lost = 0 ↔ ∀ id stored, k.getKittyImage id = some stored → predicate id = true →
        stored.data.pixels = []) := by
  refine ⟨total (fun e : Σ _ : ℕ, StoredImage => e.2.bytes)
    (k.kittyImages.entries.filter fun e => !(!predicate e.1)), total_filter_add _ _, ?_⟩
  rw [total_filter_not_eq_zero_iff]
  refine ⟨fun h id stored hget hpredicate => ?_, fun h e he hpredicate => ?_⟩
  · have hmem : (⟨id, stored⟩ : Σ _ : ℕ, StoredImage) ∈ k.kittyImages.entries :=
      Table.mem_entries_iff.mpr hget
    exact List.length_eq_zero_iff.mp (h _ hmem (by simp [hpredicate]))
  · have hget : k.getKittyImage e.1 = some e.2 := Table.mem_entries_iff.mp he
    exact List.length_eq_zero_iff.mpr (h _ _ hget (by simpa using hpredicate))

end KittyScreenState

namespace Graphics
variable {g g' : Graphics}

/-- The bytes of the images of both screens. -/
def imageBytes (g : Graphics) : ℕ := g.screen.bytes + g.kittyInactiveScreen.bytes

theorem SameImages.imageBytes (h : g.SameImages g') : g'.imageBytes = g.imageBytes := by
  unfold Graphics.imageBytes KittyScreenState.bytes
  rw [h.images, h.inactiveImages]

/-! ### Eviction -/

/-- The candidate stands for an image that is stored. -/
def Stands (g : Graphics) (c : Candidate) : Prop :=
  match c.source with
  | .pending => False
  | .activeKitty => g.screen.bytesOf c.id = c.bytes
  | .inactiveKitty => g.kittyInactiveScreen.bytesOf c.id = c.bytes

theorem removeCandidate_imageBytes {c : Candidate} (h : g.Stands c) :
    (g.removeCandidate c).imageBytes + c.bytes = g.imageBytes := by
  unfold Stands at h
  unfold removeCandidate imageBytes
  cases hsource : c.source with
  | pending =>
    rw [hsource] at h
    exact h.elim
  | activeKitty =>
    rw [hsource] at h
    have hevict := g.screen.evict_bytes c.id
    dsimp only at h ⊢
    omega
  | inactiveKitty =>
    rw [hsource] at h
    have hevict := g.kittyInactiveScreen.evict_bytes c.id
    dsimp only at h ⊢
    omega

theorem Stands.removeCandidate {c d : Candidate} (h : g.Stands d) (hapart : c.Apart d) :
    (g.removeCandidate c).Stands d := by
  unfold Candidate.Apart at hapart
  unfold Stands at h ⊢
  unfold Graphics.removeCandidate
  cases hd : d.source with
  | pending =>
    rw [hd] at h
    exact h.elim
  | activeKitty =>
    rw [hd] at h hapart
    cases hc : c.source with
    | pending => exact h
    | activeKitty => exact (KittyScreenState.evict_bytesOf _ (hapart hc).symm).trans h
    | inactiveKitty => exact h
  | inactiveKitty =>
    rw [hd] at h hapart
    cases hc : c.source with
    | pending => exact h
    | activeKitty => exact h
    | inactiveKitty => exact (KittyScreenState.evict_bytesOf _ (hapart hc).symm).trans h

/-- Removing candidates one after the other takes their bytes away. -/
theorem foldl_removeCandidate_imageBytes :
    ∀ {evicted : List Candidate} {g : Graphics}, (∀ c ∈ evicted, g.Stands c) →
      evicted.Pairwise Candidate.Apart →
      (evicted.foldl removeCandidate g).imageBytes + total Candidate.bytes evicted = g.imageBytes
  | [], _, _, _ => rfl
  | c :: evicted, g, hstands, hapart => by
    obtain ⟨hc, hrest⟩ := List.pairwise_cons.mp hapart
    have hremoved := removeCandidate_imageBytes (hstands c List.mem_cons_self)
    have hfold : (evicted.foldl removeCandidate (g.removeCandidate c)).imageBytes +
        total Candidate.bytes evicted = _ := foldl_removeCandidate_imageBytes
      (fun d hd => (hstands d (List.mem_cons_of_mem c hd)).removeCandidate (hc d hd)) hrest
    rw [List.foldl_cons, total_cons]
    omega

theorem candidates_of_noPending (h : g.pending = []) (usedIds : List ℕ) :
    g.candidates usedIds =
      kittyCandidates .activeKitty (· ∈ usedIds) g.screen ++
        kittyCandidates .inactiveKitty (fun _ => false) g.kittyInactiveScreen := by
  unfold candidates pendingCandidates
  rw [h]
  rfl

theorem kittyCandidates_apart (source : CandidateSource) (used : ℕ → Bool)
    (k : KittyScreenState) : (kittyCandidates source used k).Pairwise Candidate.Apart := by
  have hkeys := List.nodupKeys_iff_pairwise.mp k.kittyImages.nodupKeys
  exact List.pairwise_map.mpr (hkeys.imp fun hne (_ : source = source) => hne)

theorem candidates_apart (h : g.pending = []) (usedIds : List ℕ) :
    (g.candidates usedIds).Pairwise Candidate.Apart := by
  rw [candidates_of_noPending h]
  refine List.pairwise_append.mpr
    ⟨kittyCandidates_apart _ _ _, kittyCandidates_apart _ _ _, fun c hc d hd hsource => ?_⟩
  obtain ⟨_, -, rfl⟩ := List.mem_map.mp hc
  obtain ⟨_, -, rfl⟩ := List.mem_map.mp hd
  cases hsource

theorem candidates_stand (h : g.pending = []) {usedIds : List ℕ} {c : Candidate}
    (hc : c ∈ g.candidates usedIds) : g.Stands c := by
  have hweight {k : KittyScreenState} {e : Σ _ : ℕ, StoredImage} (he : e ∈ k.kittyImages.entries) :
      k.bytesOf e.1 = e.2.bytes := by
    have hget : k.kittyImages.lookup e.1 = some e.2 := Table.mem_entries_iff.mp he
    unfold KittyScreenState.bytesOf Table.weightOf
    rw [hget]
    rfl
  rw [candidates_of_noPending h] at hc
  obtain hc | hc := List.mem_append.mp hc
  · obtain ⟨e, he, rfl⟩ := List.mem_map.mp hc
    exact hweight he
  · obtain ⟨e, he, rfl⟩ := List.mem_map.mp hc
    exact hweight he

theorem total_candidates (h : g.pending = []) (usedIds : List ℕ) :
    total Candidate.bytes (g.candidates usedIds) = g.imageBytes := by
  have hkitty (source : CandidateSource) (used : ℕ → Bool) (k : KittyScreenState) :
      total Candidate.bytes (kittyCandidates source used k) = k.bytes := by
    unfold total kittyCandidates KittyScreenState.bytes total
    rw [List.map_map]
    rfl
  rw [candidates_of_noPending h, total_append, hkitty, hkitty]
  rfl

end Graphics

theorem takeUntilFreed_sublist (bytesToFree : ℕ) :
    ∀ (candidates : List Candidate) (freed : ℕ),
      (takeUntilFreed bytesToFree freed candidates).Sublist candidates
  | [], _ => .refl _
  | c :: rest, freed => by
    unfold takeUntilFreed
    split
    · exact List.nil_sublist _
    · exact (takeUntilFreed_sublist bytesToFree rest _).cons_cons c

/-- The candidates that are taken free enough, or all are taken. -/
theorem takeUntilFreed_frees (bytesToFree : ℕ) :
    ∀ (candidates : List Candidate) (freed : ℕ),
      bytesToFree ≤ freed + total Candidate.bytes (takeUntilFreed bytesToFree freed candidates) ∨
        takeUntilFreed bytesToFree freed candidates = candidates
  | [], _ => .inr rfl
  | c :: rest, freed => by
    unfold takeUntilFreed
    by_cases h : bytesToFree ≤ freed
    · rw [if_pos h]
      exact .inl (Nat.le_add_right_of_le h)
    · rw [if_neg h]
      obtain hfrees | hall := takeUntilFreed_frees bytesToFree rest (freed + c.bytes)
      · left
        rw [total_cons]
        omega
      · right
        rw [hall]

namespace Graphics
variable {g : Graphics}

/-- The images that are evicted when some bytes are required. -/
def evicted (g : Graphics) (requiredBytes : ℕ) (usedIds : List ℕ) : List Candidate :=
  if g.totalBytes + requiredBytes ≤ g.totalLimit then []
  else
    takeUntilFreed (g.totalBytes + requiredBytes - g.totalLimit) 0
      ((g.candidates usedIds).insertionSort Candidate.before)

def freedBytes (g : Graphics) (requiredBytes : ℕ) (usedIds : List ℕ) : ℕ :=
  total Candidate.bytes (g.evicted requiredBytes usedIds)

/-- What an eviction does to the bytes, and what it leaves alone. -/
structure Evicts (g : Graphics) (requiredBytes : ℕ) (usedIds : List ℕ) (g' : Graphics) :
    Prop where
  imageBytes : g'.imageBytes + g.freedBytes requiredBytes usedIds = g.imageBytes
  totalBytes : g'.totalBytes = g.totalBytes - g.freedBytes requiredBytes usedIds
  totalLimit : g'.totalLimit = g.totalLimit
  lastId : g'.lastId = g.lastId
  pending : g'.pending = []

theorem foldl_removeCandidate (evicted : List Candidate) (h : g.pending = []) :
    (evicted.foldl removeCandidate g).totalBytes = g.totalBytes ∧
      (evicted.foldl removeCandidate g).totalLimit = g.totalLimit ∧
      (evicted.foldl removeCandidate g).lastId = g.lastId ∧
      (evicted.foldl removeCandidate g).pending = [] := by
  refine List.foldlRecOn evicted removeCandidate (motive := fun g' => g'.totalBytes = g.totalBytes ∧
    g'.totalLimit = g.totalLimit ∧ g'.lastId = g.lastId ∧ g'.pending = []) ⟨rfl, rfl, rfl, h⟩
    fun g' hg' c _ => ?_
  unfold removeCandidate
  cases c.source with
  | pending => exact ⟨hg'.1, hg'.2.1, hg'.2.2.1, by rw [hg'.2.2.2]; rfl⟩
  | activeKitty => exact hg'
  | inactiveKitty => exact hg'

theorem evictImages_evicts (h : g.pending = []) (requiredBytes : ℕ) (usedIds : List ℕ) :
    g.Evicts requiredBytes usedIds (g.evictImages requiredBytes usedIds).2 := by
  unfold evictImages
  by_cases hfits : g.totalBytes + requiredBytes ≤ g.totalLimit
  · have hfreed : g.freedBytes requiredBytes usedIds = 0 := by
      unfold freedBytes evicted
      rw [if_pos hfits]
      rfl
    rw [if_pos hfits]
    exact ⟨by rw [hfreed]; rfl, by rw [hfreed]; rfl, rfl, rfl, h⟩
  have hevicted : g.evicted requiredBytes usedIds =
      takeUntilFreed (g.totalBytes + requiredBytes - g.totalLimit) 0
        ((g.candidates usedIds).insertionSort Candidate.before) := by
    unfold evicted
    rw [if_neg hfits]
  rw [if_neg hfits]
  dsimp only
  rw [← hevicted]
  by_cases hnone : g.candidates usedIds = []
  · have hfreed : g.freedBytes requiredBytes usedIds = 0 := by
      unfold freedBytes
      rw [hevicted, hnone]
      rfl
    rw [if_pos hnone]
    exact ⟨by rw [hfreed]; rfl, by rw [hfreed]; rfl, rfl, rfl, h⟩
  rw [if_neg hnone]
  have hsorted : (g.evicted requiredBytes usedIds).Subperm (g.candidates usedIds) := by
    rw [hevicted]
    exact (takeUntilFreed_sublist _ _ _).subperm.trans
      (List.perm_insertionSort Candidate.before _).subperm
  have hapart : (g.evicted requiredBytes usedIds).Pairwise Candidate.Apart := by
    rw [hevicted]
    refine List.Pairwise.sublist (takeUntilFreed_sublist _ _ _) ?_
    refine ((List.perm_insertionSort Candidate.before _).pairwise_iff ?_).mpr
      (candidates_apart h usedIds)
    exact fun hcd hsource hid => hcd hsource.symm hid.symm
  have hbytes := foldl_removeCandidate_imageBytes
    (fun c hc => candidates_stand h (hsorted.subset hc)) hapart
  obtain ⟨htotal, hlimit, hlast, hpending⟩ := foldl_removeCandidate
    (g.evicted requiredBytes usedIds) h
  exact ⟨hbytes, congrArg (· - _) htotal, hlimit, hlast, hpending⟩

/-- An eviction frees what is required, or everything there is. -/
theorem freedBytes_enough (h : g.pending = []) (requiredBytes : ℕ) (usedIds : List ℕ) :
    g.totalBytes + requiredBytes ≤ g.totalLimit + g.freedBytes requiredBytes usedIds ∨
      g.freedBytes requiredBytes usedIds = g.imageBytes := by
  unfold freedBytes evicted
  by_cases hfits : g.totalBytes + requiredBytes ≤ g.totalLimit
  · exact .inl (Nat.le_add_right_of_le hfits)
  rw [if_neg hfits]
  obtain hfrees | hall := takeUntilFreed_frees (g.totalBytes + requiredBytes - g.totalLimit)
    ((g.candidates usedIds).insertionSort Candidate.before) 0
  · left
    omega
  · right
    rw [hall, total_perm (List.perm_insertionSort Candidate.before _), total_candidates h]

end Graphics

/-! ### Deletions -/

namespace Terminal

/-- The images that a delete request deletes together with their placements: all, those with
some ids or numbers, or those that are not displayed any more when the placements at some
position are gone. -/
def selectsImage (g : Graphics) (delete : DeleteRequest) (cursor : Pos) (historySize : ℕ)
    (alive : ℕ → Bool) (id : ℕ) : Bool :=
  let action := Char.ofNat delete.action.toNat
  if action = 'a' ∨ action = 'A' then true
  else if action = 'i' ∨ action = 'I' then id = delete.imageId
  else if action = 'n' ∨ action = 'N' then
    g.screen.kittyImageNumbers.lookup
      (if 0 < delete.imageNumber then delete.imageNumber else delete.imageId) = some id
  else if action = 'r' ∨ action = 'R' then
    decide (0 < delete.x ∧ delete.x ≤ delete.y) && (delete.x ≤ id && id ≤ delete.y)
  else if action ∈ ['c', 'C', 'p', 'P', 'x', 'X', 'y', 'Y', 'z', 'Z', 'q', 'Q'] then
    let kept := deleteImages g { delete with deleteData := false } cursor historySize alive
    !(id ∈ (g.placedTextures.filter alive ++ kept.screen.placementIds).map (· % 2 ^ 32))
  else false

/-- What a delete request does to the images. -/
structure DeletesOnly (g : Graphics) (predicate : ℕ → Bool) (g' : Graphics) : Prop where
  images : g'.screen.kittyImages = g.screen.kittyImages.retain fun id _ => !predicate id
  inactive : g'.kittyInactiveScreen = g.kittyInactiveScreen
  totalBytes : g'.totalBytes = g.totalBytes
  totalLimit : g'.totalLimit = g.totalLimit
  pending : g'.pending = g.pending

namespace DeletesOnly
variable {g g' : Graphics} {predicate predicate' : ℕ → Bool}

theorem congr (h : DeletesOnly g predicate g') (hsame : ∀ id, predicate' id = predicate id) :
    DeletesOnly g predicate' g' := by
  rwa [funext hsame]

/-- Nothing is deleted. -/
theorem none (h : g.SameImages g') (hinactive : g'.kittyInactiveScreen = g.kittyInactiveScreen)
    (hpending : g'.pending = g.pending) : DeletesOnly g (fun _ => false) g' :=
  ⟨h.images.trans (Table.retain_eq_self fun _ _ _ => rfl).symm, hinactive, h.totalBytes,
    h.totalLimit, hpending⟩

theorem placements (g : Graphics) (keep : KittyPlacement → Bool) :
    DeletesOnly g (fun _ => false)
      { g with screen := g.screen.retainPlacements fun _ p => keep p } :=
  none (.retainPlacements g _) rfl rfl

theorem ite {c : Prop} [Decidable c] {x y : Graphics} (hx : DeletesOnly g predicate x)
    (hy : DeletesOnly g predicate y) : DeletesOnly g predicate (if c then x else y) := by
  by_cases hc : c
  · rwa [if_pos hc]
  · rwa [if_neg hc]

/-- In upper case, the images under a predicate are deleted too. -/
theorem deleteIf (h : DeletesOnly g (fun _ => false) g') (upper : Bool) (predicate : ℕ → Bool) :
    DeletesOnly g (fun id => upper && predicate id)
      (if upper then g'.deleteKittyImages predicate else g') := by
  cases upper with
  | false => exact h
  | true =>
    refine ⟨?_, h.inactive, h.totalBytes, h.totalLimit, h.pending⟩
    have himages : g'.screen.kittyImages = g.screen.kittyImages :=
      h.images.trans (Table.retain_eq_self fun _ _ _ => rfl)
    exact congrArg (Table.retain fun id _ => !predicate id) himages

/-- In upper case, the images that nothing shows are deleted too. -/
theorem cleanupIf (h : DeletesOnly g (fun _ => false) g') (upper : Bool) (alive : ℕ → Bool)
    (hplaced : g'.placedTextures = g.placedTextures) :
    DeletesOnly g
      (fun id => upper &&
        !(id ∈ (g.placedTextures.filter alive ++ g'.screen.placementIds).map (· % 2 ^ 32)))
      (if upper then g'.cleanupUnusedKittyImages alive else g') := by
  rw [← hplaced]
  cases upper with
  | false => exact h
  | true =>
    have hcollected : DeletesOnly g (fun _ => false)
        { g' with placedTextures := g'.placedTextures.filter alive } :=
      ⟨h.images, h.inactive, h.totalBytes, h.totalLimit, h.pending⟩
    exact hcollected.deleteIf true _

end DeletesOnly

/-- A request that finds placements by what they show drops some of them; what no placement shows
any more goes afterwards, if data is deleted. -/
theorem deleteImages_found (g : Graphics) {delete : DeleteRequest} (cursor : Pos) (historySize : ℕ)
    (alive : ℕ → Bool) {action : Char} (haction : Char.ofNat delete.action.toNat = action)
    (hfound : action ∈ ['c', 'C', 'p', 'P', 'x', 'X', 'y', 'Y', 'z', 'Z', 'q', 'Q']) :
    ∃ kept, (∀ deleteData, deleteImages g { delete with deleteData } cursor historySize alive =
        if deleteData then kept.cleanupUnusedKittyImages alive else kept) ∧
      DeletesOnly g (fun _ => false) kept ∧ kept.placedTextures = g.placedTextures := by
  have hall (keep : KittyPlacement → Bool) : DeletesOnly g (fun _ => false)
      { g with screen := g.screen.retainPlacements fun _ p => keep p } := .placements g _
  have hgiven (given : Prop) [Decidable given] (keep : KittyPlacement → Bool) :
      DeletesOnly g (fun _ => false) (if given then
        { g with screen := g.screen.retainPlacements fun _ p => keep p } else g) ∧
      (if given then
        { g with screen := g.screen.retainPlacements fun _ p => keep p } else g).placedTextures =
        g.placedTextures := by
    split
    · exact ⟨hall keep, rfl⟩
    · exact ⟨.none (.refl g) rfl rfl, rfl⟩
  have hpair : (action = 'c' ∨ action = 'C') ∨ (action = 'z' ∨ action = 'Z') ∨
      ((action = 'p' ∨ action = 'P') ∨ action = 'q' ∨ action = 'Q') ∨
      (action = 'x' ∨ action = 'X') ∨ action = 'y' ∨ action = 'Y' := by
    simp only [List.mem_cons, List.not_mem_nil, or_false] at hfound
    tauto
  unfold deleteImages
  obtain hc | hz | hrest := hpair
  · obtain rfl | rfl := hc <;>
      simp only [haction, Char.reduceEq, or_self, or_true, true_or, if_true, if_false] <;>
      exact ⟨_, fun _ => rfl, hall _, rfl⟩
  · obtain rfl | rfl := hz <;>
      simp only [haction, Char.reduceEq, or_self, or_true, true_or, if_true, if_false] <;>
      exact ⟨_, fun _ => rfl, hall fun p => p.zIndex ≠ delete.zIndex, rfl⟩
  -- a request by column, row or cell does nothing unless it gives them
  · obtain ((rfl | rfl) | rfl | rfl) | (rfl | rfl) | rfl | rfl := hrest <;>
      simp only [haction, Char.reduceEq, or_self, or_true, true_or, if_true, if_false] <;>
      refine ⟨_, fun _ => rfl, ?_⟩ <;>
      exact hgiven _ _

theorem deleteImages_deletesOnly (g : Graphics) (delete : DeleteRequest) (cursor : Pos)
    (historySize : ℕ) (alive : ℕ → Bool) :
    DeletesOnly g
      (fun id => delete.deleteData && selectsImage g delete cursor historySize alive id)
      (deleteImages g delete cursor historySize alive) := by
  have hof (imageId placementId : ℕ) : DeletesOnly g (fun _ => false)
      { g with screen := deletePlacementsOf g.screen imageId placementId } :=
    .none (.deletePlacementsOf g _ _) rfl rfl
  unfold selectsImage
  dsimp only
  generalize haction : Char.ofNat delete.action.toNat = action
  by_cases ha : action = 'a' ∨ action = 'A'
  · unfold deleteImages
    simp only [haction, if_pos ha]
    cases delete.deleteData with
    | true =>
      refine ⟨?_, rfl, rfl, rfl, rfl⟩
      apply AList.ext
      exact (List.filter_eq_nil_iff.mpr fun _ _ => Bool.false_ne_true).symm
    | false => exact .placements g _
  by_cases hi : action = 'i' ∨ action = 'I'
  · unfold deleteImages
    simp only [haction, if_neg ha, if_pos hi]
    exact (hof _ _).deleteIf delete.deleteData _
  by_cases hn : action = 'n' ∨ action = 'N'
  · have hplaces : ¬ (action = 'c' ∨ action = 'C') ∧ ¬ (action = 'p' ∨ action = 'P') ∧
        ¬ (action = 'x' ∨ action = 'X') ∧ ¬ (action = 'y' ∨ action = 'Y') ∧
        ¬ (action = 'z' ∨ action = 'Z') := by
      obtain rfl | rfl := hn <;> decide
    unfold deleteImages
    simp only [haction, if_neg ha, if_neg hi, if_neg hplaces.1, if_neg hplaces.2.1,
      if_neg hplaces.2.2.1, if_neg hplaces.2.2.2.1, if_neg hplaces.2.2.2.2, if_pos hn]
    cases g.screen.kittyImageNumbers.lookup
        (if 0 < delete.imageNumber then delete.imageNumber else delete.imageId) with
    | none => exact (DeletesOnly.none (.refl g) rfl rfl).congr fun id => by simp
    | some imageId =>
      refine ((hof _ _).deleteIf delete.deleteData (· = imageId)).congr fun id => ?_
      simp [eq_comm]
  by_cases hr : action = 'r' ∨ action = 'R'
  · have hplaces : ¬ (action = 'c' ∨ action = 'C') ∧ ¬ (action = 'p' ∨ action = 'P') ∧
        ¬ (action = 'x' ∨ action = 'X') ∧ ¬ (action = 'y' ∨ action = 'Y') ∧
        ¬ (action = 'z' ∨ action = 'Z') ∧ ¬ (action = 'q' ∨ action = 'Q') := by
      obtain rfl | rfl := hr <;> decide
    unfold deleteImages
    simp only [haction, if_neg ha, if_neg hi, if_neg hn, if_neg hplaces.1, if_neg hplaces.2.1,
      if_neg hplaces.2.2.1, if_neg hplaces.2.2.2.1, if_neg hplaces.2.2.2.2.1,
      if_neg hplaces.2.2.2.2.2, if_pos hr]
    by_cases hrange : 0 < delete.x ∧ delete.x ≤ delete.y
    · rw [if_pos hrange]
      have hretained : DeletesOnly g (fun _ => false)
          { g with screen := g.screen.retainPlacements fun key _ =>
            key.1 < delete.x || delete.y < key.1 } := .none (.retainPlacements g _) rfl rfl
      refine (hretained.deleteIf delete.deleteData _).congr fun id => ?_
      rw [decide_eq_true hrange, Bool.true_and]
    · rw [if_neg hrange]
      refine (DeletesOnly.none (.refl g) rfl rfl).congr fun id => ?_
      rw [decide_eq_false hrange, Bool.false_and, Bool.and_false]
  by_cases hfound : action ∈ ['c', 'C', 'p', 'P', 'x', 'X', 'y', 'Y', 'z', 'Z', 'q', 'Q']
  · obtain ⟨kept, hdelete, hkept, hplaced⟩ :=
      deleteImages_found g cursor historySize alive haction hfound
    simp only [if_neg ha, if_neg hi, if_neg hn, if_neg hr, if_pos hfound, hdelete false,
      Bool.false_eq_true, if_false]
    rw [show deleteImages g delete cursor historySize alive =
      if delete.deleteData then kept.cleanupUnusedKittyImages alive else kept
      from hdelete delete.deleteData]
    exact hkept.cleanupIf delete.deleteData alive hplaced
  · have hother : ¬ (action = 'c' ∨ action = 'C') ∧ ¬ (action = 'p' ∨ action = 'P') ∧
        ¬ (action = 'x' ∨ action = 'X') ∧ ¬ (action = 'y' ∨ action = 'Y') ∧
        ¬ (action = 'z' ∨ action = 'Z') ∧ ¬ (action = 'q' ∨ action = 'Q') := by
      simpa [or_assoc, not_or, and_assoc] using hfound
    obtain ⟨hc, hp, hx, hy, hz, hq⟩ := hother
    unfold deleteImages
    simp only [haction, if_neg ha, if_neg hi, if_neg hn, if_neg hr, if_neg hfound, if_neg hc,
      if_neg hp, if_neg hx, if_neg hy, if_neg hz, if_neg hq, Bool.and_false]
    exact .none (.refl g) rfl rfl

end Terminal
end Rio.Kitty
