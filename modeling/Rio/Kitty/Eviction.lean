import Rio.Kitty.Memory

/-! Which images an eviction removes: the first ones of the documented order, and no more than
are needed. -/

set_option linter.dupNamespace false

namespace Rio.Kitty

instance : Std.Total Candidate.before where
  total c d := by
    unfold Candidate.before
    omega

instance : IsTrans Candidate Candidate.before where
  trans c d e hcd hde := by
    unfold Candidate.before at hcd hde ⊢
    omega

/-- The candidates that are taken are the shortest front of the list that frees enough. -/
theorem takeUntilFreed_shortest (bytesToFree : ℕ) (candidates : List Candidate) (freed : ℕ) :
    ∃ n, takeUntilFreed bytesToFree freed candidates = candidates.take n ∧
      (bytesToFree ≤ freed + total Candidate.bytes (candidates.take n) ∨ candidates.length ≤ n) ∧
        ∀ m < n, freed + total Candidate.bytes (candidates.take m) < bytesToFree := by
  induction candidates generalizing freed with
  | nil => exact ⟨0, rfl, .inr le_rfl, nofun⟩
  | cons c rest ih =>
    unfold takeUntilFreed
    by_cases henough : bytesToFree ≤ freed
    · rw [if_pos henough]
      exact ⟨0, rfl, .inl (Nat.le_add_right_of_le henough), nofun⟩
    · rw [if_neg henough]
      obtain ⟨n, htaken, hfrees, hshortest⟩ := ih (freed + c.bytes)
      refine ⟨n + 1, by rw [htaken]; rfl, ?_, fun m hm => ?_⟩
      · rw [List.take_succ_cons, total_cons, ← Nat.add_assoc]
        exact hfrees.imp id Nat.succ_le_succ
      · cases m with
        | zero => exact Nat.lt_of_not_le henough
        | succ m =>
          rw [List.take_succ_cons, total_cons, ← Nat.add_assoc]
          exact hshortest m (Nat.lt_of_succ_lt_succ hm)

namespace Graphics

variable {g : Graphics} {evicted : List Candidate}

/-- Among the evicted candidates is the image with an id. -/
def Removes (evicted : List Candidate) (source : CandidateSource) (id : ℕ) : Prop :=
  ∃ c ∈ evicted, c.source = source ∧ c.id = id

instance (evicted : List Candidate) (source : CandidateSource) (id : ℕ) :
    Decidable (Removes evicted source id) := inferInstanceAs (Decidable (∃ c ∈ _, _))

theorem removes_append {first rest : List Candidate} {source : CandidateSource} {id : ℕ} :
    Removes (first ++ rest) source id ↔ Removes first source id ∨ Removes rest source id := by
  unfold Removes
  constructor
  · rintro ⟨c, hc, h⟩
    exact (List.mem_append.mp hc).imp (fun hc => ⟨c, hc, h⟩) fun hc => ⟨c, hc, h⟩
  · rintro (⟨c, hc, h⟩ | ⟨c, hc, h⟩)
    · exact ⟨c, List.mem_append_left _ hc, h⟩
    · exact ⟨c, List.mem_append_right _ hc, h⟩

theorem removes_singleton {c : Candidate} {source : CandidateSource} {id : ℕ} :
    Removes [c] source id ↔ c.source = source ∧ c.id = id := by
  unfold Removes
  constructor
  · rintro ⟨d, hd, h⟩
    rwa [List.mem_singleton.mp hd] at h
  · exact fun h => ⟨c, List.mem_singleton_self c, h⟩

theorem not_removes_nil (source : CandidateSource) (id : ℕ) : ¬Removes [] source id := by
  rintro ⟨c, hc, -⟩
  cases hc

/-- What is left on a screen when some of its images are removed. -/
structure Leaves (k : KittyScreenState) (removed : ℕ → Prop) (k' : KittyScreenState) : Prop where
  gone : ∀ id, removed id → k'.kittyImages.lookup id = none
  kept : ∀ id, ¬removed id → k'.kittyImages.lookup id = k.kittyImages.lookup id
  placements : ∀ key p, k'.kittyPlacements.lookup key = some p →
    k.kittyPlacements.lookup key = some p ∧ ¬removed p.imageId
  displayed : ∀ key p, k.kittyPlacements.lookup key = some p → p.imageId ∈ k'.kittyImages →
    k'.kittyPlacements.lookup key = some p
  virtual : k'.kittyVirtualPlacements = k.kittyVirtualPlacements

/-- What the removal of candidates does to the stores. -/
structure Removed (g : Graphics) (evicted : List Candidate) (g' : Graphics) : Prop where
  pending : g'.pending = g.pending.filter fun graphic => ¬Removes evicted .pending graphic.id
  images : ∀ id, g'.screen.kittyImages.lookup id =
    if Removes evicted .activeKitty id then none else g.screen.kittyImages.lookup id
  inactiveImages : ∀ id, g'.kittyInactiveScreen.kittyImages.lookup id =
    if Removes evicted .inactiveKitty id then none
    else g.kittyInactiveScreen.kittyImages.lookup id
  placements : g'.screen.kittyPlacements = g.screen.kittyPlacements ∧
    g'.kittyInactiveScreen.kittyPlacements = g.kittyInactiveScreen.kittyPlacements
  virtual : g'.screen.kittyVirtualPlacements = g.screen.kittyVirtualPlacements ∧
    g'.kittyInactiveScreen.kittyVirtualPlacements = g.kittyInactiveScreen.kittyVirtualPlacements

theorem lookup_evict (k : KittyScreenState) (imageId id : ℕ) :
    (k.evict imageId).kittyImages.lookup id =
      if imageId = id then none else k.kittyImages.lookup id := by
  unfold KittyScreenState.evict
  dsimp only
  rw [Table.lookup_erase_of]
  simp only [eq_comm]

theorem Removed.refl (g : Graphics) : g.Removed [] g :=
  ⟨(List.filter_eq_self.mpr fun _ _ => decide_eq_true (not_removes_nil _ _)).symm,
    fun _ => (if_neg (not_removes_nil _ _)).symm, fun _ => (if_neg (not_removes_nil _ _)).symm,
    ⟨rfl, rfl⟩, ⟨rfl, rfl⟩⟩

private theorem ite_removes {first rest : List Candidate} {source : CandidateSource} {id : ℕ}
    {x y z : Option StoredImage} (hy : y = if Removes first source id then none else x)
    (hz : z = if Removes rest source id then none else y) :
    z = if Removes (first ++ rest) source id then none else x := by
  rw [hz, hy]
  by_cases hrest : Removes rest source id
  · rw [if_pos hrest, if_pos (removes_append.mpr (.inr hrest))]
  · rw [if_neg hrest]
    exact if_congr ((removes_append.trans (or_iff_left hrest)).symm) rfl rfl

theorem Removed.trans {g g' g'' : Graphics} {first rest : List Candidate}
    (h : g.Removed first g') (h' : g'.Removed rest g'') : g.Removed (first ++ rest) g'' := by
  refine ⟨?_, fun id => ite_removes (h.images id) (h'.images id),
    fun id => ite_removes (h.inactiveImages id) (h'.inactiveImages id),
    ⟨h'.placements.1.trans h.placements.1, h'.placements.2.trans h.placements.2⟩,
    ⟨h'.virtual.1.trans h.virtual.1, h'.virtual.2.trans h.virtual.2⟩⟩
  rw [h'.pending, h.pending, List.filter_filter]
  refine List.filter_congr fun graphic _ => ?_
  rw [← Bool.decide_and, decide_eq_decide, removes_append, not_or, and_comm]

theorem removeCandidate_removed (g : Graphics) (c : Candidate) :
    g.Removed [c] (g.removeCandidate c) := by
  have hother {source : CandidateSource} (hsource : c.source ≠ source) (id : ℕ) :
      ¬Removes [c] source id := fun h => hsource (removes_singleton.mp h).1
  have hsame {source : CandidateSource} (hsource : c.source = source) (id : ℕ) :
      Removes [c] source id ↔ c.id = id := removes_singleton.trans (and_iff_right hsource)
  have hpending (hsource : c.source ≠ .pending) :
      g.pending = g.pending.filter fun graphic => ¬Removes [c] .pending graphic.id :=
    (List.filter_eq_self.mpr fun _ _ => decide_eq_true (hother hsource _)).symm
  unfold removeCandidate
  cases hsource : c.source with
  | pending =>
    refine ⟨List.filter_congr fun graphic _ => ?_, fun id => (if_neg (hother ?_ id)).symm,
      fun id => (if_neg (hother ?_ id)).symm, ⟨rfl, rfl⟩, ⟨rfl, rfl⟩⟩
    · rw [decide_eq_decide, hsame hsource]
      exact not_congr eq_comm
    · rw [hsource]
      decide
    · rw [hsource]
      decide
  | activeKitty =>
    refine ⟨hpending (by rw [hsource]; decide), fun id => ?_,
      fun id => (if_neg (hother ?_ id)).symm, ⟨rfl, rfl⟩, ⟨rfl, rfl⟩⟩
    · exact (lookup_evict _ _ _).trans (if_congr (hsame hsource id).symm rfl rfl)
    · rw [hsource]
      decide
  | inactiveKitty =>
    refine ⟨hpending (by rw [hsource]; decide), fun id => (if_neg (hother ?_ id)).symm,
      fun id => ?_, ⟨rfl, rfl⟩, ⟨rfl, rfl⟩⟩
    · rw [hsource]
      decide
    · exact (lookup_evict _ _ _).trans (if_congr (hsame hsource id).symm rfl rfl)

theorem foldl_removeCandidate_removed (evicted : List Candidate) (g : Graphics) :
    g.Removed evicted (evicted.foldl removeCandidate g) := by
  induction evicted generalizing g with
  | nil => exact .refl g
  | cons c evicted ih => exact (g.removeCandidate_removed c).trans (ih _)

/-- Placements of images that are gone are dropped. -/
theorem leaves_sweepPlacements {k k' : KittyScreenState} {removed : ℕ → Prop}
    [DecidablePred removed]
    (himages : ∀ id, k'.kittyImages.lookup id =
      if removed id then none else k.kittyImages.lookup id)
    (hplacements : k'.kittyPlacements = k.kittyPlacements)
    (hvirtual : k'.kittyVirtualPlacements = k.kittyVirtualPlacements) :
    Leaves k removed k'.sweepPlacements := by
  refine ⟨fun id hid => (himages id).trans (if_pos hid),
    fun id hid => (himages id).trans (if_neg hid), fun key p hp => ?_, fun key p hp hstored => ?_,
    hvirtual⟩
  · obtain ⟨hp, hstored⟩ := Table.lookup_retain_eq_some.mp hp
    refine ⟨hplacements ▸ hp, fun hremoved => ?_⟩
    have hgone : k'.kittyImages.lookup p.imageId = none := (himages _).trans (if_pos hremoved)
    exact AList.lookup_eq_none.mp hgone (of_decide_eq_true hstored)
  · exact Table.lookup_retain_of_pos (hplacements ▸ hp) (decide_eq_true hstored)

/-- The ids that an eviction gives to the renderer for removal. -/
def removeQueue (g : Graphics) (requiredBytes : ℕ) (usedIds : List ℕ) : List ℕ :=
  (g.evicted requiredBytes usedIds).map Candidate.id

/-- An eviction removes the first images of the documented order, no more than are needed, and
what goes with them. -/
structure EvictsInOrder (g : Graphics) (requiredBytes : ℕ) (usedIds : List ℕ) : Prop where
  order : ∃ order : List Candidate, order.Perm (g.candidates usedIds) ∧
    order.Pairwise Candidate.before ∧ ∃ n, g.evicted requiredBytes usedIds = order.take n ∧
      (g.totalBytes + requiredBytes ≤ g.totalLimit + total Candidate.bytes (order.take n) ∨
        order.length ≤ n) ∧
      ∀ m < n, g.totalLimit + total Candidate.bytes (order.take m) < g.totalBytes + requiredBytes
  active : Leaves g.screen (Removes (g.evicted requiredBytes usedIds) .activeKitty)
    (g.evictImages requiredBytes usedIds).2.screen
  inactive : Leaves g.kittyInactiveScreen
    (Removes (g.evicted requiredBytes usedIds) .inactiveKitty)
    (g.evictImages requiredBytes usedIds).2.kittyInactiveScreen
  pending : (g.evictImages requiredBytes usedIds).2.pending =
    g.pending.filter fun graphic => ¬Removes (g.evicted requiredBytes usedIds) .pending graphic.id
  freed : (g.evictImages requiredBytes usedIds).1 = true ↔
    g.totalBytes + requiredBytes ≤ g.totalLimit + g.freedBytes requiredBytes usedIds
  /-- Atlas graphics in use come last. -/
  inUse : ∀ c ∈ g.evicted requiredBytes usedIds, c.source = .pending → c.id ∈ usedIds →
    ∀ d ∈ g.candidates usedIds, d.tier < 2 → d ∈ g.evicted requiredBytes usedIds

theorem Leaves.refl (k : KittyScreenState) {removed : ℕ → Prop} (h : ∀ id, ¬removed id) :
    Leaves k removed k :=
  ⟨fun id hid => absurd hid (h id), fun _ _ => rfl, fun _ _ hp => ⟨hp, h _⟩, fun _ _ hp _ => hp,
    rfl⟩

/-- The order of the candidates, and the front of it that is evicted. -/
theorem evicted_order (g : Graphics) (requiredBytes : ℕ) (usedIds : List ℕ) :
    ∃ order : List Candidate, order.Perm (g.candidates usedIds) ∧
      order.Pairwise Candidate.before ∧ ∃ n, g.evicted requiredBytes usedIds = order.take n ∧
        (g.totalBytes + requiredBytes ≤ g.totalLimit + total Candidate.bytes (order.take n) ∨
          order.length ≤ n) ∧
        ∀ m < n,
          g.totalLimit + total Candidate.bytes (order.take m) < g.totalBytes + requiredBytes := by
  refine ⟨(g.candidates usedIds).insertionSort Candidate.before,
    List.perm_insertionSort _ _, List.pairwise_insertionSort _ _, ?_⟩
  unfold evicted
  by_cases hfits : g.totalBytes + requiredBytes ≤ g.totalLimit
  · rw [if_pos hfits]
    exact ⟨0, rfl, .inl (Nat.le_add_right_of_le hfits), nofun⟩
  · rw [if_neg hfits]
    obtain ⟨n, htaken, hfrees, hshortest⟩ := takeUntilFreed_shortest
      (g.totalBytes + requiredBytes - g.totalLimit)
      ((g.candidates usedIds).insertionSort Candidate.before) 0
    refine ⟨n, htaken, hfrees.imp (fun h => by omega) id, fun m hm => ?_⟩
    have hm' := hshortest m hm
    omega

theorem candidates_pending_tier {usedIds : List ℕ} {c : Candidate}
    (hc : c ∈ g.candidates usedIds) (hsource : c.source = .pending) (hused : c.id ∈ usedIds) :
    c.tier = 2 := by
  have hkitty {source : CandidateSource} {used : ℕ → Bool} {k : KittyScreenState}
      (hne : source ≠ .pending) (hmem : c ∈ kittyCandidates source used k) : False := by
    obtain ⟨e, -, rfl⟩ := List.mem_map.mp hmem
    exact hne hsource
  have hpending : c ∈ g.pendingCandidates usedIds := by
    obtain hc | hc := List.mem_append.mp hc
    · obtain hc | hc := List.mem_append.mp hc
      · exact hc
      · exact (hkitty (by decide) hc).elim
    · exact (hkitty (by decide) hc).elim
  obtain ⟨graphic, -, hgraphic⟩ := List.mem_filterMap.mp hpending
  obtain ⟨timestamp, -, rfl⟩ := Option.map_eq_some_iff.mp hgraphic
  exact if_pos (decide_eq_true hused)

/-- What comes before an evicted candidate in the order is evicted. -/
theorem evicted_of_tier_lt {requiredBytes : ℕ} {usedIds : List ℕ} {c d : Candidate}
    (hc : c ∈ g.evicted requiredBytes usedIds) (hd : d ∈ g.candidates usedIds)
    (htier : d.tier < c.tier) : d ∈ g.evicted requiredBytes usedIds := by
  obtain ⟨order, hperm, hsorted, n, htaken, -⟩ := g.evicted_order requiredBytes usedIds
  rw [htaken] at hc ⊢
  have hmem := hperm.mem_iff.mpr hd
  rw [← List.take_append_drop n order] at hmem hsorted
  refine (List.mem_append.mp hmem).resolve_right fun hrest => ?_
  have hbefore := (List.pairwise_append.mp hsorted).2.2 c hc d hrest
  unfold Candidate.before at hbefore
  omega

/-- An eviction that also drops the virtual placements of the removed images, and gives no
graphic to the renderer for removal that a cell refers to. -/
structure EvictsUnreferenced (g : Graphics) (requiredBytes : ℕ) (alive : ℕ → Bool) : Prop where
  inOrder : g.EvictsInOrder requiredBytes (g.collectActiveGraphicIds alive).1
  virtual : ∀ key v, (g.evictImages requiredBytes (g.collectActiveGraphicIds alive).1
      ).2.screen.kittyVirtualPlacements.lookup key = some v →
    ¬Removes (g.evicted requiredBytes (g.collectActiveGraphicIds alive).1) .activeKitty v.imageId
  unreferenced : ∀ id ∈ g.placedTextures, alive id = true →
    id ∉ g.removeQueue requiredBytes (g.collectActiveGraphicIds alive).1

/-- A graphic of one byte. -/
def onePixel (id : ℕ) : GraphicData :=
  ⟨id, 1, 1, .rgba, [255], true, none, none, none, 0⟩

/-- An atlas graphic in a cell, and a full memory. -/
def fullOfAtlas : Graphics :=
  { lastId := 1, pending := [onePixel 1], totalBytes := 1, totalLimit := 1,
    imageTimestamps := (∅ : Table ℕ ℕ).insert 1 0, placedTextures := [1] }

/-- An image with a virtual placement, and a full memory. -/
def fullOfVirtual : Graphics :=
  { totalBytes := 1, totalLimit := 1,
    screen :=
      { kittyImages := (∅ : Table ℕ StoredImage).insert 1 ⟨onePixel 1, 0⟩
        kittyVirtualPlacements :=
          (∅ : Table (ℕ × ℕ) VirtualPlacement).insert (1, 1) ⟨1, 1, 1, 1, 0, 0⟩ } }

end Graphics
end Rio.Kitty
