import Rio.Layout.Zoom

/-! What the operations on a grid do to the contexts of its panels. -/

set_option linter.dupNamespace false

namespace Rio.Layout.ContextGrid

variable {F C : Type} {g g' : ContextGrid F C} {k : NodeId} {c : C}

/-- The context of the focused panel. -/
def focused (g : ContextGrid F C) : Option C := (g.inner.lookup g.current).map (·.val)

/-- The contexts of all panels. -/
def vals (g : ContextGrid F C) : List C := (contexts g.inner).map Prod.snd

/-- The same panels with the same contexts, and the same focus. -/
structure SameContexts (g g' : ContextGrid F C) : Prop where
  contexts : contexts g'.inner = contexts g.inner
  current : g'.current = g.current

namespace SameContexts

theorem refl (g : ContextGrid F C) : g.SameContexts g := ⟨rfl, rfl⟩

theorem trans {g'' : ContextGrid F C} (h : g.SameContexts g') (h' : g'.SameContexts g'') :
    g.SameContexts g'' := ⟨h'.contexts.trans h.contexts, h'.current.trans h.current⟩

theorem ite {a b : ContextGrid F C} {p : Prop} [Decidable p] (ha : g.SameContexts a)
    (hb : g.SameContexts b) : g.SameContexts (if p then a else b) := by
  by_cases h : p
  · rw [if_pos h]
    exact ha
  · rw [if_neg h]
    exact hb

theorem vals (h : g.SameContexts g') : g'.vals = g.vals :=
  congrArg (List.map Prod.snd) h.contexts

end SameContexts

theorem dlookup_map_val (l : List (Σ _ : NodeId, ContextGridItem F C)) (k : NodeId) :
    (l.dlookup k).map (·.val) = ((l.map fun e => (e.1, e.2.val)).lookup k) := by
  induction l with
  | nil => rfl
  | cons e l ih =>
    obtain ⟨j, item⟩ := e
    rw [List.map_cons, List.lookup_cons]
    by_cases hkj : k = j
    · subst hkj
      rw [List.dlookup_cons_eq, show (k == (⟨k, item⟩ : Σ _ : NodeId, ContextGridItem F C).1) = true
        from beq_self_eq_true k]
      rfl
    · rw [List.dlookup_cons_ne l _ hkj, show (k == (⟨j, item⟩ : Σ _ : NodeId,
        ContextGridItem F C).1) = false from beq_false_of_ne hkj]
      exact ih

theorem lookup_contexts (t : Table NodeId (ContextGridItem F C)) (k : NodeId) :
    (t.lookup k).map (·.val) = (contexts t).lookup k := dlookup_map_val t.entries k

theorem SameContexts.focused (h : g.SameContexts g') : g'.focused = g.focused := by
  unfold ContextGrid.focused
  rw [lookup_contexts, lookup_contexts, h.contexts, h.current]

theorem focused_of_lookup {item : ContextGridItem F C} (h : g.inner.lookup g.current = some item) :
    g.focused = some item.val := by
  unfold ContextGrid.focused
  rw [h]
  rfl

/-- The focused panel has a context, among those of all panels. -/
theorem Held.focused (h : g.Held) : ∃ c, g.focused = some c ∧ c ∈ g.vals := by
  obtain ⟨item, hitem⟩ := Option.isSome_iff_exists.mp (AList.lookup_isSome.mpr h.current_mem)
  refine ⟨item.val, focused_of_lookup hitem, ?_⟩
  have hmem : (⟨g.current, item⟩ : Σ _ : NodeId, ContextGridItem F C) ∈ g.inner.entries :=
    Table.mem_entries_iff.mpr hitem
  exact List.mem_map_of_mem (List.mem_map_of_mem hmem)

theorem length_vals (g : ContextGrid F C) : g.vals.length = g.panelCount := by
  unfold vals panelCount ContextGrid.contexts AList.keys List.keys
  rw [List.length_map, List.length_map, List.length_map]

variable [Number F] {taffy : Taffy F}

theorem sameContexts_computeLayout (g : ContextGrid F C) (taffy : Taffy F) :
    g.SameContexts (g.computeLayout taffy) := ⟨g.contexts_computeLayout, rfl⟩

theorem sameContexts_ensureUnzoomed (g : ContextGrid F C) (taffy : Taffy F) :
    g.SameContexts (g.ensureUnzoomed taffy) := by
  cases hzoom : g.zoomedPanelStyles with
  | none =>
    rw [ensureUnzoomed_of_none hzoom]
    exact .refl g
  | some snapshot =>
    rw [ensureUnzoomed_of_some hzoom]
    exact ⟨(g.restoreStyles snapshot).contexts_computeLayout, rfl⟩

theorem sameContexts_toggleCurrentSplitZoom (g : ContextGrid F C) (taffy : Taffy F) :
    g.SameContexts (g.toggleCurrentSplitZoom taffy) := by
  cases hzoom : g.zoomedPanelStyles with
  | some snapshot =>
    rw [toggleCurrentSplitZoom_of_some hzoom]
    exact g.sameContexts_ensureUnzoomed taffy
  | none =>
    rw [toggleCurrentSplitZoom_of_none hzoom]
    exact .ite (.refl g) ⟨g.zoomCurrent.contexts_computeLayout, rfl⟩

theorem sameContexts_moveDivider (g : ContextGrid F C) (taffy : Taffy F) (axis : Axis)
    (neighbors : ContextGrid F C → NodeId → Option (NodeId × NodeId)) (minSize amount : F)
    (grow : Bool) : g.SameContexts (g.moveDivider taffy axis neighbors minSize amount grow).2 := by
  refine (g.sameContexts_ensureUnzoomed taffy).trans ?_
  obtain heq | ⟨first, second, x, y, heq⟩ :=
    g.moveDivider_cases taffy axis neighbors minSize amount grow
  · rw [heq]
    exact .refl _
  · rw [heq]
    exact ⟨contexts_computeLayout _, rfl⟩

/-- The new panel is focused after a split. -/
theorem Held.vals_split (h : g.Held) (taffy : Taffy F) (direction : FlexDirection) (context : C) :
    (g.split taffy direction context).vals = context :: g.vals ∧
      (g.split taffy direction context).focused = some context := by
  obtain ⟨hsound, hzoom, -⟩ := h.ensureUnzoomed taffy
  have hsame := g.sameContexts_ensureUnzoomed taffy
  have hfresh : (g.ensureUnzoomed taffy).tree.next + 1 ∉ (g.ensureUnzoomed taffy).inner :=
    fun hmem => (hsound.ne_next hmem).2 rfl
  have hcontexts : contexts (g.split taffy direction context).inner =
      ((g.ensureUnzoomed taffy).tree.next + 1, context) :: contexts g.inner := by
    rw [split_eq, if_neg (not_not.mpr h.current_mem), contexts_computeLayout, ← hsame.contexts]
    have hentries : ((g.ensureUnzoomed taffy).inner.insert ((g.ensureUnzoomed taffy).tree.next + 1)
        (⟨context, ⟨0, 0, 0, 0⟩, ⟨0, 0, 0, 0⟩⟩ : ContextGridItem F C)).entries = _ :=
      AList.entries_insert_of_notMem hfresh
    exact congrArg (List.map fun e : Σ _ : NodeId, ContextGridItem F C => (e.1, e.2.val)) hentries
  constructor
  · unfold ContextGrid.vals
    rw [hcontexts]
    rfl
  · have hcurrent : (g.split taffy direction context).current =
        (g.ensureUnzoomed taffy).tree.next + 1 := by
      rw [split_eq, if_neg (not_not.mpr h.current_mem)]
      rfl
    unfold ContextGrid.focused
    rw [lookup_contexts, hcontexts, hcurrent]
    exact List.lookup_cons_self

/-- The focused panel is gone after its removal. -/
theorem Held.vals_removeCurrent (h : g.Held) (taffy : Taffy F) (hcount : 1 < g.panelCount) :
    ∃ c, g.focused = some c ∧ g.vals.Perm (c :: (g.removeCurrent taffy).vals) := by
  obtain ⟨hsound, -, hnodes⟩ := h.ensureUnzoomed taffy
  have hsame := g.sameContexts_ensureUnzoomed taffy
  have hmany : (g.ensureUnzoomed taffy).panelCount ≠ 1 := by
    rw [hnodes.panelCount]
    exact hcount.ne'
  rw [← hsame.focused, ← hsame.vals, h.removeCurrent_eq, if_neg hmany]
  generalize g.ensureUnzoomed taffy = u at hsound
  obtain ⟨item, hitem⟩ := Option.isSome_iff_exists.mp (AList.lookup_isSome.mpr hsound.current_mem)
  refine ⟨item.val, focused_of_lookup hitem, ?_⟩
  have hreduced : contexts (u.reduced.computeLayout taffy).inner =
      contexts (u.inner.erase u.current) := by
    rw [contexts_computeLayout]
    unfold reduced
    dsimp only
    split <;> rfl
  unfold ContextGrid.vals
  rw [hreduced]
  exact ((Table.perm_erase hitem).map _).map _

theorem Held.subperm_removeCurrent (h : g.Held) (taffy : Taffy F) :
    (g.removeCurrent taffy).vals.Subperm g.vals := by
  by_cases hcount : 1 < g.panelCount
  · obtain ⟨c, -, hperm⟩ := h.vals_removeCurrent taffy hcount
    exact (List.sublist_cons_self c _).subperm.trans hperm.symm.subperm
  · have hone : (g.ensureUnzoomed taffy).panelCount = 1 := by
      have hsame := congrArg List.length (g.sameContexts_ensureUnzoomed taffy).vals
      rw [length_vals, length_vals] at hsame
      have := h.panelCount_pos
      omega
    rw [h.removeCurrent_eq, if_pos hone, (g.sameContexts_ensureUnzoomed taffy).vals]

/-- A new grid has one panel. -/
theorem vals_new (taffy : Taffy F) (context : C) (width height scale : F) (scaledMargin : Sides F)
    (panelConfig : Panel F) :
    (new taffy context width height scale scaledMargin panelConfig).vals = [context] :=
  ((single context width height scale scaledMargin panelConfig).sameContexts_computeLayout
    taffy).vals

theorem focused_new (taffy : Taffy F) (context : C) (width height scale : F)
    (scaledMargin : Sides F) (panelConfig : Panel F) :
    (new taffy context width height scale scaledMargin panelConfig).focused = some context := by
  obtain ⟨c, hc, hmem⟩ :=
    (sound_new taffy context width height scale scaledMargin panelConfig).toHeld.focused
  rw [vals_new] at hmem
  rw [hc, List.mem_singleton.mp hmem]

/-- Operations that keep the panels and their contexts. -/
def Keeps (f : ContextGrid F C → ContextGrid F C) : Prop :=
  ∀ g, g.Held → (f g).Held ∧ (f g).vals = g.vals

omit [Number F] in
theorem keeps_of_selects {f : ContextGrid F C → ContextGrid F C} (h : ∀ g : ContextGrid F C, g.Selects (f g)) :
    Keeps f := by
  intro g hg
  refine ⟨hg.selects (h g), ?_⟩
  obtain heq | ⟨k, -, -, heq⟩ := h g
  · rw [heq]
  · rw [heq]
    rfl

omit [Number F] in
theorem keeps_selectRoot : Keeps (selectRoot : ContextGrid F C → ContextGrid F C) := by
  intro g hg
  obtain ⟨r, -, -, hselect⟩ := hg.selectRoot_eq
  refine ⟨hg.selectRoot, ?_⟩
  rw [hselect]
  rfl

theorem keeps_toggleCurrentSplitZoom (taffy : Taffy F) :
    Keeps fun g : ContextGrid F C => g.toggleCurrentSplitZoom taffy := fun g hg =>
  ⟨hg.toggleCurrentSplitZoom.toHeld, (g.sameContexts_toggleCurrentSplitZoom taffy).vals⟩

theorem keeps_resize (taffy : Taffy F) (newWidth newHeight : F) :
    Keeps fun g : ContextGrid F C => g.resize taffy newWidth newHeight := fun g hg =>
  ⟨hg.restyled (g.restyled_resize newWidth newHeight), congrArg (List.map Prod.snd)
    (contexts_computeLayout _)⟩

end Rio.Layout.ContextGrid
