import Rio.Layout.WellFormed
import Mathlib.Data.List.GetD

/-! Removing a panel, selecting panels, and whole runs. -/

set_option linter.dupNamespace false

namespace Rio.Layout.ContextGrid
open Forest TaffyTree

variable {F C : Type} {g : ContextGrid F C} {kids : Forest NodeId} {n k : NodeId}

/-- All panels of a grid that is not zoomed are on screen. -/
theorem Held.isNodeVisible (h : g.Held) (hzoom : g.zoomedPanelStyles = none) (hk : k ∈ g.inner) :
    g.isNodeVisible k = true := by
  obtain ⟨kids, hshaped⟩ := h.shaped
  exact isNodeVisible_iff.mpr
    (h.unzoomed hzoom k (hshaped.mem_collect.mpr (hshaped.mem_inner_iff.mp hk).1))

variable [Number F] {taffy : Taffy F}

/-! ### The panels on screen -/

/-- The panels on screen, in some order. -/
theorem perm_getOrderedKeys (g : ContextGrid F C) :
    g.getOrderedKeys.Perm (g.inner.keys.filter g.isNodeVisible) := by
  unfold getOrderedKeys
  dsimp only
  refine ((List.perm_insertionSort _ _).map Sigma.fst).trans ?_
  unfold AList.keys List.keys
  rw [List.filter_map]
  exact .refl _

theorem mem_getOrderedKeys : k ∈ g.getOrderedKeys ↔ k ∈ g.inner ∧ g.isNodeVisible k = true := by
  rw [g.perm_getOrderedKeys.mem_iff, List.mem_filter, AList.mem_keys]

theorem nodup_getOrderedKeys (g : ContextGrid F C) : g.getOrderedKeys.Nodup :=
  g.perm_getOrderedKeys.nodup_iff.mpr (g.inner.keys_nodup.filter _)

theorem Held.perm_getOrderedKeys (h : g.Held) (hzoom : g.zoomedPanelStyles = none) :
    g.getOrderedKeys.Perm g.inner.keys := by
  have hall : g.inner.keys.filter g.isNodeVisible = g.inner.keys :=
    List.filter_eq_self.mpr fun k hk => h.isNodeVisible hzoom (AList.mem_keys.mpr hk)
  exact hall ▸ g.perm_getOrderedKeys

/-! ### Removing a panel -/

/-- Another panel is focused when the focused one is removed. -/
theorem Held.nextCurrent (h : g.Held) (hzoom : g.zoomedPanelStyles = none)
    (hcount : 1 < g.panelCount) : g.nextCurrent ∈ g.inner ∧ g.nextCurrent ≠ g.current := by
  have hlength : 1 < g.getOrderedKeys.length := (h.perm_getOrderedKeys hzoom).length_eq ▸ hcount
  have hmem : g.current ∈ g.getOrderedKeys :=
    mem_getOrderedKeys.mpr ⟨h.current_mem, h.isNodeVisible hzoom h.current_mem⟩
  unfold ContextGrid.nextCurrent
  dsimp only
  cases hidx : g.getOrderedKeys.idxOf? g.current with
  | none => exact absurd hmem (List.idxOf?_eq_none_iff.mp hidx)
  | some pos =>
    obtain ⟨hpos, hget, -⟩ := List.idxOf?_eq_some_iff.mp hidx
    have hother (i : ℕ) (hi : i < g.getOrderedKeys.length) (hne : i ≠ pos) :
        g.getOrderedKeys.getD i g.current ∈ g.inner ∧
          g.getOrderedKeys.getD i g.current ≠ g.current := by
      rw [List.getD_eq_getElem _ _ hi]
      refine ⟨(mem_getOrderedKeys.mp (List.getElem_mem hi)).1, fun heq => hne ?_⟩
      exact g.nodup_getOrderedKeys.getElem_inj_iff.mp (heq.trans hget.symm)
    change (if _ then _ else _) ∈ g.inner ∧ (if _ then _ else _) ≠ _
    by_cases hlast : pos + 1 < g.getOrderedKeys.length
    · rw [if_pos hlast]
      exact hother _ hlast (Nat.succ_ne_self pos)
    · have hfirst : 0 < pos := by omega
      rw [if_neg hlast, if_pos hfirst]
      exact hother _ (by omega) (by omega)

omit [Number F] in
/-- The focused panel has a sibling, when there is another panel. -/
theorem Shaped.exists_sibling (h : g.Shaped kids) (hcurrent : g.current ∈ g.inner)
    (hcount : 1 < g.panelCount) {i : NodeId} (hi : i ∈ (cons g.rootNode kids nil).nodes)
    (hmem : g.current ∈ g.tree.children i) : ∃ c ∈ g.tree.children i, c ≠ g.current := by
  by_contra hnone
  push Not at hnone
  have hlength : (g.tree.children i).length ≤ 1 := by
    have hnodup := h.holding.represents.nodup_children h.holding.nodup hi
    rw [List.eq_replicate_of_mem hnone] at hnodup
    exact List.nodup_replicate.mp hnodup
  have hinner : i ∉ g.inner := fun hpanel =>
    List.not_mem_nil ((h.mem_inner_iff.mp hpanel).2 ▸ hmem)
  by_cases hroot : i = g.rootNode
  · subst hroot
    obtain ⟨-, hroots, hkids, -⟩ := h.holding.represents
    rw [hroots] at hnone hlength
    cases kids with
    | nil =>
      rw [hroots] at hmem
      exact List.not_mem_nil hmem
    | cons j below rest =>
      have hrest : rest = nil := by
        refine roots_eq_nil.mp (List.eq_nil_of_length_eq_zero ?_)
        rw [roots_cons, List.length_cons] at hlength
        omega
      obtain rfl : j = g.current := hnone j List.mem_cons_self
      have hbelow : below = nil :=
        roots_eq_nil.mp (hkids.2.1.symm.trans (h.mem_inner_iff.mp hcurrent).2)
      subst hrest hbelow
      have hone : g.panelCount = 1 := h.leaves.length_eq.symm
      omega
  · have hbranching := h.branching i hi (fun hmem => hroot (List.mem_singleton.mp hmem))
      (isPanel_eq_false.mpr hinner)
    omega

/-- The focused panel is taken out, and the containers without it are collapsed. -/
theorem Shaped.remove (h : g.Shaped kids) (hcurrent : g.current ∈ g.inner)
    (hcount : 1 < g.panelCount) : ∃ t' kids',
      g.withoutCurrent.collapsed (g.tree.next + 1) = some t' ∧
        { g.withoutCurrent with tree := t' }.Shaped kids' ∧
        (cons g.rootNode kids' nil).leaves = (cons g.rootNode kids nil).leaves.erase g.current ∧
        (∀ n ∈ (cons g.rootNode kids' nil).nodes, n ∈ (cons g.rootNode kids nil).nodes) ∧
        ∀ n, (t'.style n).display = (g.tree.style n).display := by
  obtain ⟨hmem, hleaf⟩ := h.mem_inner_iff.mp hcurrent
  have hroot : g.rootNode ≠ g.current := fun heq => h.root_notMem (heq ▸ hcurrent)
  have hsplice : (cons g.rootNode kids nil).splice g.current =
      cons g.rootNode (kids.splice g.current) nil := by
    rw [splice_cons, if_neg hroot]
    rfl
  have hkidsNodup : kids.nodes.Nodup :=
    (List.nodup_append.mp (List.nodup_cons.mp h.holding.nodup).2).1
  have hkids : (kids.splice g.current).nodes = kids.nodes.erase g.current :=
    nodes_splice hkidsNodup
  have hremoved := h.holding.remove hmem (h.ne_root hcurrent) hleaf
  have hleaves := h.holding.represents.leaves_splice_leaf h.holding.nodup nofun
    fun i hi hchild => h.exists_sibling hcurrent hcount hi hchild
  rw [hsplice] at hremoved hleaves
  have hlength : (kids.splice g.current).nodes.length < g.tree.next + 1 := by
    have hle := hremoved.length_le
    rw [nodes_cons, List.length_cons, List.length_append] at hle
    exact Nat.lt_succ_of_le ((Nat.le_add_right _ _).trans ((Nat.le_succ _).trans hle))
  have hleavesNodup := h.leaves.nodup_iff.mpr g.inner.keys_nodup
  have hpanel (i : NodeId) : g.withoutCurrent.isPanel i = true ↔
      i ∈ (cons g.rootNode (kids.splice g.current) nil).leaves := by
    rw [isPanel_eq_true, hleaves, hleavesNodup.mem_erase_iff, ← h.mem_inner]
    exact AList.mem_erase
  obtain ⟨t', kids', hloop, hholding, hleaves', hsub, hbranching, hdisplay⟩ :=
    collapseLoop_spec hremoved hlength hpanel
  refine ⟨t', kids', hloop, ⟨hholding, ?_, hbranching, ?_⟩, hleaves'.trans hleaves, fun n hn => ?_,
    hdisplay⟩
  · change (cons g.rootNode kids' nil).leaves.Perm _
    rw [hleaves', hleaves]
    refine (h.leaves.erase g.current).trans ?_
    rw [← AList.keys_erase]
    exact .refl _
  · exact fun hmem => h.root_notMem (AList.mem_erase.mp hmem).2
  · rw [mem_cons_nil] at hn ⊢
    exact hn.imp_right fun hn => List.mem_of_mem_erase (hkids ▸ hsub.subset hn)

/-- The grid after the focused panel is removed, before its layout is computed. -/
theorem Held.collapse (h : g.Held) (hzoom : g.zoomedPanelStyles = none)
    (hcount : 1 < g.panelCount) : (g.withoutCurrent.collapsed (g.tree.next + 1)).isSome = true ∧
      g.withoutCurrent.collapseSingleChildContainers.Sound ∧
      g.withoutCurrent.collapseSingleChildContainers.tree.leaves g.rootNode =
        (g.tree.leaves g.rootNode).erase g.current := by
  obtain ⟨kids, hshaped⟩ := h.shaped
  obtain ⟨t', kids', hloop, hshaped', hleaves, hsub, hdisplay⟩ := hshaped.remove h.current_mem hcount
  have hcollapse : g.withoutCurrent.collapseSingleChildContainers =
      { g.withoutCurrent with tree := t' } := by
    unfold collapseSingleChildContainers
    change { g.withoutCurrent with
      tree := (g.withoutCurrent.collapsed (g.tree.next + 1)).getD g.withoutCurrent.tree } = _
    rw [hloop]
    rfl
  have hinner {k : NodeId} : k ∈ { g.withoutCurrent with tree := t' }.inner ↔
      k ≠ g.current ∧ k ∈ g.inner := AList.mem_erase
  obtain ⟨hnextMem, hnextNe⟩ := h.nextCurrent hzoom hcount
  refine ⟨by rw [hloop]; rfl, ?_, ?_⟩
  · rw [hcollapse]
    refine Held.sound ⟨⟨kids', hshaped'⟩, hinner.mpr ⟨hnextNe, hnextMem⟩, ?_, fun _ n hn => ?_,
      fun snapshot hsnapshot => absurd (hzoom.symm.trans hsnapshot) nofun⟩ hzoom
    · change ∃ r, (if some g.current = g.root then _ else g.root) = some r ∧ _
      by_cases hroot : some g.current = g.root
      · rw [if_pos hroot]
        have hmem : g.nextCurrent ∈ (g.inner.erase g.current).keys :=
          AList.mem_keys.mp (hinner.mpr ⟨hnextNe, hnextMem⟩)
        cases hkeys : (g.inner.erase g.current).keys with
        | nil =>
          rw [hkeys] at hmem
          exact absurd hmem List.not_mem_nil
        | cons r rs =>
          refine ⟨r, rfl, AList.mem_keys.mpr ?_⟩
          change r ∈ (g.inner.erase g.current).keys
          rw [hkeys]
          exact List.mem_cons_self
      · rw [if_neg hroot]
        obtain ⟨r, hr, hmem⟩ := h.root_mem
        refine ⟨r, hr, hinner.mpr ⟨fun heq => hroot ?_, hmem⟩⟩
        rw [hr, heq]
    · refine (hdisplay n).trans (h.unzoomed hzoom n (hshaped.mem_collect.mpr ?_))
      exact hsub n (hshaped'.mem_collect.mp hn)
  · rw [hcollapse, hshaped.holding.leaves_eq, ← hleaves]
    exact hshaped'.holding.leaves_eq

/-- Removing the focused panel ends, and keeps the others in their order. -/
structure Removal (taffy : Taffy F) (g : ContextGrid F C) : Prop where
  order : ((g.removeCurrent taffy).tree.leaves (g.removeCurrent taffy).rootNode).Sublist
    (g.tree.leaves g.rootNode)
  ends : 1 < g.panelCount →
    ∃ fuel, ((g.ensureUnzoomed taffy).withoutCurrent.collapsed fuel).isSome = true

/-- A grid without its focused panel, before its layout is computed. -/
def reduced (g : ContextGrid F C) : ContextGrid F C :=
  let r := g.withoutCurrent.collapseSingleChildContainers
  if r.panelCount = 1 then r.resetPanelStylesToFlexible else r

theorem restyled_reduced (g : ContextGrid F C) :
    g.withoutCurrent.collapseSingleChildContainers.Restyled g.reduced :=
  .ite (restyled_resetPanelStylesToFlexible _) (.refl _)

theorem Held.removeCurrent_eq (h : g.Held) (taffy : Taffy F) : g.removeCurrent taffy =
    if (g.ensureUnzoomed taffy).panelCount = 1 then g.ensureUnzoomed taffy
    else (g.ensureUnzoomed taffy).reduced.computeLayout taffy := by
  obtain ⟨hsound, hzoom, -⟩ := h.ensureUnzoomed taffy
  unfold ContextGrid.removeCurrent
  rw [if_neg h.panelCount_pos.ne']
  dsimp only
  by_cases hsingle : (g.ensureUnzoomed taffy).panelCount = 1
  · rw [if_pos hsingle, if_pos hsingle]
  · have hpos := hsound.panelCount_pos
    have hcollapse := (hsound.collapse hzoom (by omega)).2.1
    rw [if_neg hsingle, if_neg hsingle, if_neg (not_not.mpr hsound.current_mem),
      if_pos hcollapse.panelCount_pos]
    rfl

theorem Held.removeCurrent (h : g.Held) : (g.removeCurrent taffy).Sound ∧ g.Removal taffy := by
  obtain ⟨hsound, hzoom, hsame⟩ := h.ensureUnzoomed taffy
  have hremove := h.removeCurrent_eq taffy
  have hcount := hsame.panelCount
  have hends (h1 : 1 < g.panelCount) :
      ∃ fuel, ((g.ensureUnzoomed taffy).withoutCurrent.collapsed fuel).isSome = true :=
    ⟨_, (hsound.collapse hzoom (hcount ▸ h1)).1⟩
  by_cases hsingle : (g.ensureUnzoomed taffy).panelCount = 1
  · rw [if_pos hsingle] at hremove
    rw [hremove]
    refine ⟨hsound, ?_, hends⟩
    rw [hremove, hsame.leaves]
  · have hpos := hsound.panelCount_pos
    obtain ⟨-, hcollapse, hleaves⟩ := hsound.collapse hzoom (by omega)
    rw [if_neg hsingle] at hremove
    have hrestyled := (g.ensureUnzoomed taffy).restyled_reduced.trans (restyled_computeLayout _ taffy)
    rw [← hremove] at hrestyled
    refine ⟨hcollapse.restyled hrestyled, ?_, hends⟩
    have hroot : (g.ensureUnzoomed taffy).withoutCurrent.collapseSingleChildContainers.rootNode =
        (g.ensureUnzoomed taffy).rootNode := rfl
    rw [hrestyled.leaves, hroot, hleaves, hsame.leaves]
    exact List.erase_sublist

/-! ### Selecting panels -/

/-- The focus moves to a panel on screen, if it moves. -/
def Selects (g g' : ContextGrid F C) : Prop :=
  g' = g ∨ ∃ k ∈ g.inner, g.isNodeVisible k = true ∧ g' = { g with current := k }

omit [Number F] in
theorem Held.focus (h : g.Held) (hk : k ∈ g.inner) : Held { g with current := k } := by
  obtain ⟨kids, hshaped⟩ := h.shaped
  exact ⟨⟨kids, hshaped.holding, hshaped.leaves, hshaped.branching, hshaped.root_notMem⟩, hk,
    h.root_mem, h.unzoomed, h.snapshot⟩

omit [Number F] in
theorem Held.selects {g' : ContextGrid F C} (h : g.Held) (hselects : g.Selects g') : g'.Held := by
  obtain rfl | ⟨k, hk, -, rfl⟩ := hselects
  · exact h
  · exact h.focus hk

omit [Number F] in
theorem Sound.selects {g' : ContextGrid F C} (h : g.Sound) (hselects : g.Selects g') : g'.Sound := by
  obtain rfl | ⟨k, hk, hvisible, rfl⟩ := hselects
  · exact h
  · refine ⟨h.toHeld.focus hk, fun snapshot hzoom j hj => ?_⟩
    have hiff := h.zoomed snapshot hzoom
    obtain rfl : k = g.current := (hiff k hk).mp hvisible
    exact hiff j hj

/-- Focusing a panel on screen, or the focused one again. -/
theorem selects_mem_or (hk : k ∈ g.getOrderedKeys ∨ k = g.current) :
    g.Selects { g with current := k } := by
  obtain hk | rfl := hk
  · exact .inr ⟨k, (mem_getOrderedKeys.mp hk).1, (mem_getOrderedKeys.mp hk).2, rfl⟩
  · exact .inl rfl

theorem getD_mem_or {l : List NodeId} {i d : NodeId} : l.getD i d ∈ l ∨ l.getD i d = d := by
  by_cases hi : i < l.length
  · rw [List.getD_eq_getElem _ _ hi]
    exact .inl (List.getElem_mem hi)
  · rw [List.getD_eq_default _ _ (Nat.le_of_not_lt hi)]
    exact .inr rfl

theorem headD_mem_or {l : List NodeId} {d : NodeId} : l.headD d ∈ l ∨ l.headD d = d := by
  cases l with
  | nil => exact .inr rfl
  | cons k l => exact .inl List.mem_cons_self

theorem selects_selectNext {wrapped : List NodeId → NodeId}
    (hwrapped : wrapped g.getOrderedKeys ∈ g.getOrderedKeys ∨
      wrapped g.getOrderedKeys = g.current) : g.Selects (g.selectNext wrapped) := by
  unfold selectNext
  by_cases hcount : g.visiblePanelCount ≤ 1
  · rw [if_pos hcount]
    exact .inl rfl
  · rw [if_neg hcount]
    dsimp only
    cases g.getOrderedKeys.idxOf? g.current with
    | none => exact .inl rfl
    | some pos =>
      refine selects_mem_or ?_
      by_cases hlast : g.getOrderedKeys.length - 1 ≤ pos
      · rw [if_pos hlast]
        exact hwrapped
      · rw [if_neg hlast]
        exact getD_mem_or

theorem selects_selectPrev {wrapped : List NodeId → NodeId}
    (hwrapped : wrapped g.getOrderedKeys ∈ g.getOrderedKeys ∨
      wrapped g.getOrderedKeys = g.current) : g.Selects (g.selectPrev wrapped) := by
  unfold selectPrev
  by_cases hcount : g.visiblePanelCount ≤ 1
  · rw [if_pos hcount]
    exact .inl rfl
  · rw [if_neg hcount]
    dsimp only
    cases g.getOrderedKeys.idxOf? g.current with
    | none => exact .inl rfl
    | some pos =>
      refine selects_mem_or ?_
      by_cases hfirst : pos = 0
      · rw [if_pos hfirst]
        exact hwrapped
      · rw [if_neg hfirst]
        exact getD_mem_or

theorem selects_selectNextSplit (g : ContextGrid F C) : g.Selects g.selectNextSplit := by
  unfold selectNextSplit
  exact selects_selectNext headD_mem_or

theorem selects_selectNextSplitNoLoop (g : ContextGrid F C) :
    g.Selects g.selectNextSplitNoLoop := by
  unfold selectNextSplitNoLoop
  exact selects_selectNext (.inr rfl)

theorem selects_selectPrevSplit (g : ContextGrid F C) : g.Selects g.selectPrevSplit := by
  unfold selectPrevSplit
  exact selects_selectPrev getD_mem_or

theorem selects_selectPrevSplitNoLoop (g : ContextGrid F C) :
    g.Selects g.selectPrevSplitNoLoop := by
  unfold selectPrevSplitNoLoop
  exact selects_selectPrev (.inr rfl)

omit [Number F] in
theorem mem_of_mem_entries {e : Σ _ : NodeId, ContextGridItem F C} (he : e ∈ g.inner.entries) :
    e.1 ∈ g.inner := AList.mem_keys.mpr (List.mem_map_of_mem he)

theorem selects_selectCurrentBasedOnMouse (g : ContextGrid F C) (x y : F) :
    g.Selects (g.selectCurrentBasedOnMouse x y) := by
  unfold selectCurrentBasedOnMouse
  by_cases hcount : g.visiblePanelCount ≤ 1
  · rw [if_pos hcount]
    exact .inl rfl
  · rw [if_neg hcount]
    cases hfind : g.findContextAtPosition x y with
    | none => exact .inl rfl
    | some k =>
      obtain ⟨e, he, rfl⟩ := Option.map_eq_some_iff.mp hfind
      have hvisible := List.find?_some he
      simp only [Bool.and_eq_true] at hvisible
      exact .inr ⟨e.1, mem_of_mem_entries (List.mem_of_find?_eq_some he), hvisible.1.1.1.1, rfl⟩

/-- The adjacent panel is another panel on screen. -/
theorem findAdjacentPanel_mem {direction : FocusDirection}
    (h : g.findAdjacentPanel n direction = some k) : k ∈ g.inner ∧ g.isNodeVisible k = true := by
  unfold findAdjacentPanel at h
  cases hlookup : g.inner.lookup n with
  | none =>
    rw [hlookup] at h
    exact absurd h nofun
  | some item =>
    rw [hlookup] at h
    dsimp only at h
    by_cases hvisible : g.isNodeVisible n = true
    · rw [if_pos hvisible] at h
      obtain ⟨best, hbest, rfl⟩ := Option.map_eq_some_iff.mp h
      -- The best panel so far is one of those looked at.
      refine List.foldlRecOn (motive := fun best => ∀ b, best = some b →
        b.1 ∈ g.inner ∧ g.isNodeVisible b.1 = true) g.inner.entries _ nofun ?_ best hbest
      intro best ih e he b hb
      by_cases hskip : e.1 = n ∨ ¬ g.isNodeVisible e.1 = true
      · rw [if_pos hskip] at hb
        exact ih b hb
      · rw [if_neg hskip] at hb
        have hother : e.1 ∈ g.inner ∧ g.isNodeVisible e.1 = true :=
          ⟨mem_of_mem_entries he, not_not.mp (not_or.mp hskip).2⟩
        generalize adjacency item.layoutRect e.2.layoutRect direction = a at hb
        by_cases hfar : a.overlap ≤ 0 ∨ a.distance < 0 ∨ g.maxDistance direction + 1 < a.distance
        · rw [if_pos hfar] at hb
          exact ih b hb
        · rw [if_neg hfar] at hb
          by_cases hreplace : shouldReplace a best = true
          · rw [if_pos hreplace] at hb
            obtain rfl := Option.some_inj.mp hb
            exact hother
          · rw [if_neg hreplace] at hb
            exact ih b hb
    · rw [if_neg hvisible] at h
      exact absurd h nofun

theorem selects_selectSplit (g : ContextGrid F C) (direction : FocusDirection) :
    g.Selects (g.selectSplit direction) := by
  unfold selectSplit
  by_cases hcount : g.visiblePanelCount ≤ 1
  · rw [if_pos hcount]
    exact .inl rfl
  · rw [if_neg hcount]
    cases hfind : g.findAdjacentPanel g.current direction with
    | none => exact .inl rfl
    | some k => exact .inr ⟨k, (findAdjacentPanel_mem hfind).1, (findAdjacentPanel_mem hfind).2, rfl⟩

theorem selects_selectLast (g : ContextGrid F C) : g.Selects g.selectLast := by
  unfold selectLast
  cases hlast : g.getOrderedKeys.getLast? with
  | none => exact .inl rfl
  | some k => exact selects_mem_or (.inl (List.mem_of_getLast? hlast))

omit [Number F] in
theorem Held.selectRoot_eq (h : g.Held) :
    ∃ r, g.root = some r ∧ r ∈ g.inner ∧ g.selectRoot = { g with current := r } := by
  obtain ⟨r, hr, hmem⟩ := h.root_mem
  refine ⟨r, hr, hmem, ?_⟩
  unfold selectRoot
  rw [hr]

omit [Number F] in
theorem Held.selectRoot (h : g.Held) : g.selectRoot.Held := by
  obtain ⟨r, -, hmem, hselect⟩ := h.selectRoot_eq
  exact hselect ▸ h.focus hmem

omit [Number F] in
theorem Held.selects_selectRoot (h : g.Held)
    (hroot : g.zoomedPanelStyles = none ∨ g.root = some g.current) : g.Selects g.selectRoot := by
  obtain ⟨r, hr, hmem, hselect⟩ := h.selectRoot_eq
  rw [hselect]
  obtain hzoom | hroot := hroot
  · exact .inr ⟨r, hmem, h.isNodeVisible hzoom hmem, rfl⟩
  · obtain rfl : r = g.current := Option.some_inj.mp (hr.symm.trans hroot)
    exact .inl rfl

omit [Number F] in
/-- The root panel is focused only when it is on screen. -/
theorem Sound.selectRoot_wellFormed (h : g.Sound) (hwell : g.selectRoot.WellFormed) :
    g.zoomedPanelStyles = none ∨ g.root = some g.current := by
  obtain ⟨r, hr, hmem, hselect⟩ := h.selectRoot_eq
  rw [hselect] at hwell
  cases hzoom : g.zoomedPanelStyles with
  | none => exact .inl rfl
  | some snapshot =>
    exact .inr (hr.trans (congrArg some ((h.zoomed snapshot hzoom r hmem).mp hwell.focused.2)))

/-! ### Moving dividers -/

/-- A divider stays where it is, or the panels at it are given other sizes. -/
theorem moveDivider_cases (g : ContextGrid F C) (taffy : Taffy F) (axis : Axis)
    (neighbors : ContextGrid F C → NodeId → Option (NodeId × NodeId)) (minSize amount : F)
    (grow : Bool) :
    (g.moveDivider taffy axis neighbors minSize amount grow).2 = g.ensureUnzoomed taffy ∨
      ∃ first second x y, (g.moveDivider taffy axis neighbors minSize amount grow).2 =
        (((g.ensureUnzoomed taffy).setPanelSize first x).setPanelSize second y).computeLayout
          taffy := by
  unfold moveDivider
  dsimp only
  generalize g.ensureUnzoomed taffy = u
  by_cases hcount : u.panelCount ≤ 1
  · rw [if_pos hcount]
    exact .inl rfl
  · rw [if_neg hcount]
    cases neighbors u u.current with
    | none => exact .inl rfl
    | some pair =>
      exact (em _).elim (fun hsmall => .inl (congrArg Prod.snd (if_pos hsmall)))
        fun hlarge => .inr ⟨_, _, _, _, congrArg Prod.snd (if_neg hlarge)⟩

theorem restyled_moveDivider (g : ContextGrid F C) (taffy : Taffy F) (axis : Axis)
    (neighbors : ContextGrid F C → NodeId → Option (NodeId × NodeId)) (minSize amount : F)
    (grow : Bool) : (g.ensureUnzoomed taffy).Restyled
      (g.moveDivider taffy axis neighbors minSize amount grow).2 := by
  obtain heq | ⟨first, second, x, y, heq⟩ :=
    g.moveDivider_cases taffy axis neighbors minSize amount grow
  · rw [heq]
    exact .refl _
  · rw [heq]
    exact ((restyled_setPanelSize _ first x).trans (restyled_setPanelSize _ second y)).trans
      (restyled_computeLayout _ taffy)

theorem Held.moveDivider (h : g.Held) (axis : Axis)
    (neighbors : ContextGrid F C → NodeId → Option (NodeId × NodeId)) (minSize amount : F)
    (grow : Bool) : (g.moveDivider taffy axis neighbors minSize amount grow).2.Sound :=
  (h.ensureUnzoomed taffy).1.restyled (g.restyled_moveDivider taffy axis neighbors minSize amount grow)

/-! ### Runs -/

theorem shaped_single (context : C) (width height scale : F) (scaledMargin : Sides F)
    (panelConfig : Panel F) :
    (single context width height scale scaledMargin panelConfig).Shaped (cons 1 nil nil) := by
  have hnodes : (cons 0 (cons 1 nil nil) nil : Forest NodeId).nodes = [0, 1] := rfl
  refine ⟨⟨⟨rfl, rfl, ⟨rfl, rfl, trivial, trivial⟩, trivial⟩, ?_, fun n hn => ?_⟩, .refl _,
    fun n hn hroot hpanel => ?_, ?_⟩
  · change (cons 0 (cons 1 nil nil) nil : Forest NodeId).nodes.Nodup
    rw [hnodes]
    decide
  · change n ∈ (cons 0 (cons 1 nil nil) nil : Forest NodeId).nodes at hn
    change n < 2
    rw [hnodes] at hn
    simp only [List.mem_cons, List.not_mem_nil, or_false] at hn
    obtain rfl | rfl := hn
    · exact Nat.zero_lt_two
    · exact Nat.one_lt_two
  · change n ∈ (cons 0 (cons 1 nil nil) nil : Forest NodeId).nodes at hn
    rw [hnodes] at hn
    obtain rfl | hn := List.mem_cons.mp hn
    · exact absurd List.mem_cons_self hroot
    · obtain rfl := List.mem_singleton.mp hn
      exact absurd (AList.mem_keys.mpr List.mem_cons_self) (isPanel_eq_false.mp hpanel)
  · intro hmem
    have hkeys : (0 : ℕ) ∈ [1] := AList.mem_keys.mp hmem
    exact absurd hkeys (by decide)

theorem sound_single (context : C) (width height scale : F) (scaledMargin : Sides F)
    (panelConfig : Panel F) : (single context width height scale scaledMargin panelConfig).Sound := by
  have hshaped := shaped_single context width height scale scaledMargin panelConfig
  refine Held.sound ⟨⟨_, hshaped⟩, AList.mem_keys.mpr List.mem_cons_self,
    ⟨1, rfl, AList.mem_keys.mpr List.mem_cons_self⟩, fun _ n hn => ?_, nofun⟩ rfl
  have hn : n = 0 ∨ n ∈ [1] := mem_cons_nil.mp (hshaped.mem_collect.mp hn)
  obtain rfl | hn := hn
  · rfl
  · obtain rfl := List.mem_singleton.mp hn
    rfl

theorem sound_new (taffy : Taffy F) (context : C) (width height scale : F) (scaledMargin : Sides F)
    (panelConfig : Panel F) : (new taffy context width height scale scaledMargin panelConfig).Sound :=
  (sound_single context width height scale scaledMargin panelConfig).restyled
    (restyled_computeLayout _ taffy)

/-- The next panel or tab may be focused unless its root panel is hidden. -/
def Permits (g : ContextGrid F C) : Op F C → Prop
  | .selectRoot => g.zoomedPanelStyles = none ∨ g.root = some g.current
  | _ => True

/-- What a step has to lead to. -/
structure StepOk (taffy : Taffy F) (g : ContextGrid F C) (op : Op F C) : Prop where
  wellFormed : (step taffy g op).WellFormed
  removal : op = .removeCurrent → g.Removal taffy

/-- Selecting the root panel apart, the focus is moved on screen, unzoomed or left. -/
theorem Held.step_cases (h : g.Held) (taffy : Taffy F) : ∀ {op : Op F C}, op ≠ .selectRoot →
    (Layout.step taffy g op).Sound ∨ g.Selects (Layout.step taffy g op) ∨
      g.Restyled (Layout.step taffy g op)
  | .splitRight context, _ => .inl (h.split .row context)
  | .splitDown context, _ => .inl (h.split .column context)
  | .removeCurrent, _ => .inl h.removeCurrent.1
  | .selectNextSplit, _ => .inr (.inl g.selects_selectNextSplit)
  | .selectNextSplitNoLoop, _ => .inr (.inl g.selects_selectNextSplitNoLoop)
  | .selectPrevSplit, _ => .inr (.inl g.selects_selectPrevSplit)
  | .selectPrevSplitNoLoop, _ => .inr (.inl g.selects_selectPrevSplitNoLoop)
  | .selectSplit direction, _ => .inr (.inl (g.selects_selectSplit direction))
  | .selectCurrentBasedOnMouse x y, _ => .inr (.inl (g.selects_selectCurrentBasedOnMouse x y))
  | .selectRoot, hop => absurd rfl hop
  | .selectLast, _ => .inr (.inl g.selects_selectLast)
  | .toggleCurrentSplitZoom, _ => .inl h.toggleCurrentSplitZoom
  | .moveDividerUp _, _ => .inl (h.moveDivider _ _ _ _ _)
  | .moveDividerDown _, _ => .inl (h.moveDivider _ _ _ _ _)
  | .moveDividerLeft _, _ => .inl (h.moveDivider _ _ _ _ _)
  | .moveDividerRight _, _ => .inl (h.moveDivider _ _ _ _ _)
  | .resizeBorder _ _ _ _, _ => .inr (.inr (g.restyled_resizeBorder _ _ _ _))
  | .updateScaledMargin _, _ => .inr (.inr (g.restyled_updateScaledMargin _))
  | .updateScale _, _ => .inr (.inr (g.restyled_updateScale _))
  | .updatePanelConfig _, _ => .inr (.inr (g.restyled_updatePanelConfig _))
  | .updateDimensions, _ => .inr (.inr (g.restyled_computeLayout taffy))
  | .resize _ _, _ => .inr (.inr (g.restyled_resize _ _))

theorem Sound.step (h : g.Sound) {op : Op F C} (hpermits : g.Permits op) :
    (Layout.step taffy g op).Sound := by
  by_cases hop : op = .selectRoot
  · subst hop
    exact h.selects (h.selects_selectRoot hpermits)
  · obtain hsound | hselects | hrestyled := h.toHeld.step_cases taffy hop
    · exact hsound
    · exact h.selects hselects
    · exact h.restyled hrestyled

theorem Sound.stepOk_iff (h : g.Sound) (op : Op F C) : g.StepOk taffy op ↔ g.Permits op := by
  constructor
  · intro hok
    cases op with
    | selectRoot => exact h.selectRoot_wellFormed hok.wellFormed
    | _ => trivial
  · intro hpermits
    exact ⟨(h.step hpermits).wellFormed, fun _ => h.removeCurrent.2⟩

/-- In a run from a single panel the grid stays well formed, and removing panels ends and keeps the
others in their order, exactly when no hidden root panel is focused. -/
theorem run_wellFormed_iff (taffy : Taffy F) (context : C) (width height scale : F)
    (scaledMargin : Sides F) (panelConfig : Panel F) (ops : List (Op F C)) :
    let g := new taffy context width height scale scaledMargin panelConfig
    g.WellFormed ∧ (Runs.Permitted (Layout.step taffy) (StepOk taffy) g ops ↔
      Runs.Permitted (Layout.step taffy) Permits g ops) := by
  have hnew := sound_new taffy context width height scale scaledMargin panelConfig
  refine ⟨hnew.wellFormed, Runs.permitted_congr (p := fun _ => True) (I := Sound)
    (fun g op hg _ hok => hg.step ((hg.stepOk_iff op).mp hok))
    (fun g op hg _ => hg.stepOk_iff op) ops _ (fun _ _ => trivial) hnew⟩

/-- The next split is the root panel, behind the zoomed one. -/
theorem hidden_root_focused :
    let ops : List (Op ℤ ℕ) :=
      [.splitRight 1, .toggleCurrentSplitZoom, .selectNextSplitNoLoop, .selectRoot]
    ¬ (ops.foldl (Layout.step shares) (window 0)).WellFormed :=
  fun h => absurd h.focused.2 (by decide +kernel)

end Rio.Layout.ContextGrid
