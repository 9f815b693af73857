import Rio.Layout.Grid
import Rio.Layout.Shape
import Rio.Lib.Runs

/-! The panels of a grid are the leaves of its tree, whatever is done to it. -/

set_option linter.dupNamespace false

namespace Rio.Layout.ContextGrid
open Forest TaffyTree

variable {F C : Type} {g g' : ContextGrid F C} {kids : Forest NodeId} {n k : NodeId}

/-- The panels are the leaves of the tree, containers have at least two children, and the focused
panel is on screen. -/
structure WellFormed (g : ContextGrid F C) : Prop where
  leaves : (g.tree.leaves g.rootNode).Perm g.inner.keys
  containers : ∀ n ∈ g.tree.collectTreeNodes g.rootNode, n ≠ g.rootNode → n ∉ g.inner →
    2 ≤ (g.tree.children n).length
  focused : g.current ∈ g.inner ∧ g.isNodeVisible g.current = true

/-- The nodes of the tree form a forest with the panels as its leaves. -/
structure Shaped (g : ContextGrid F C) (kids : Forest NodeId) : Prop where
  holding : g.tree.Holding (cons g.rootNode kids nil)
  leaves : (cons g.rootNode kids nil).leaves.Perm g.inner.keys
  branching : Branching g.isPanel g.tree (cons g.rootNode kids nil)
  root_notMem : g.rootNode ∉ g.inner

/-- What holds of a grid in every state. -/
structure Held (g : ContextGrid F C) : Prop where
  shaped : ∃ kids, g.Shaped kids
  current_mem : g.current ∈ g.inner
  root_mem : ∃ r, g.root = some r ∧ r ∈ g.inner
  unzoomed : g.zoomedPanelStyles = none → ∀ n ∈ g.tree.collectTreeNodes g.rootNode,
    (g.tree.style n).display = .flex
  snapshot : ∀ snapshot, g.zoomedPanelStyles = some snapshot →
    ∀ n ∈ g.tree.collectTreeNodes g.rootNode,
      ∃ s, snapshot.lookup n = some s ∧ s.display = .flex

/-- The panel on screen in a zoomed grid is the focused one. -/
structure Sound (g : ContextGrid F C) : Prop extends g.Held where
  zoomed : ∀ snapshot, g.zoomedPanelStyles = some snapshot →
    ∀ k ∈ g.inner, g.isNodeVisible k = true ↔ k = g.current

theorem Held.sound (h : g.Held) (hzoom : g.zoomedPanelStyles = none) : g.Sound :=
  ⟨h, fun _ hsnapshot => absurd (hzoom.symm.trans hsnapshot) nofun⟩

theorem mem_cons_nil {root : NodeId} : n ∈ (cons root kids nil).nodes ↔ n = root ∨ n ∈ kids.nodes := by
  rw [nodes_cons, List.mem_cons, show (nil : Forest NodeId).nodes = [] from rfl, List.append_nil]

theorem isPanel_eq_true : g.isPanel n = true ↔ n ∈ g.inner := decide_eq_true_iff

theorem isPanel_eq_false : g.isPanel n = false ↔ n ∉ g.inner := decide_eq_false_iff_not

theorem isNodeVisible_iff : g.isNodeVisible n = true ↔ (g.tree.style n).display = .flex := by
  unfold isNodeVisible
  cases (g.tree.style n).display with
  | flex => exact iff_of_true rfl rfl
  | none => exact iff_of_false Bool.false_ne_true nofun

namespace Shaped

theorem mem_collect (h : g.Shaped kids) :
    n ∈ g.tree.collectTreeNodes g.rootNode ↔ n ∈ (cons g.rootNode kids nil).nodes := by
  rw [h.holding.collectTreeNodes_perm.mem_iff, mem_cons_nil, List.mem_cons]

theorem mem_inner (h : g.Shaped kids) : k ∈ g.inner ↔ k ∈ (cons g.rootNode kids nil).leaves := by
  rw [h.leaves.mem_iff, AList.mem_keys]

/-- The panels are the nodes without children. -/
theorem mem_inner_iff (h : g.Shaped kids) :
    k ∈ g.inner ↔ k ∈ (cons g.rootNode kids nil).nodes ∧ g.tree.children k = [] := by
  rw [h.mem_inner, h.holding.represents.leaves_eq, List.mem_filter, List.isEmpty_iff]

theorem ne_root (h : g.Shaped kids) (hk : k ∈ g.inner) : k ∉ (cons g.rootNode kids nil).roots := by
  intro hmem
  obtain rfl : k = g.rootNode := List.mem_singleton.mp hmem
  exact h.root_notMem hk

end Shaped

theorem Held.panelCount_pos (h : g.Held) : 0 < g.panelCount :=
  List.length_pos_of_mem (AList.mem_keys.mp h.current_mem)

theorem Sound.wellFormed (h : g.Sound) : g.WellFormed := by
  obtain ⟨kids, hshaped⟩ := h.shaped
  refine ⟨?_, fun n hn hroot hpanel => ?_, h.current_mem, ?_⟩
  · rw [hshaped.holding.leaves_eq]
    exact hshaped.leaves
  · refine hshaped.branching n (hshaped.mem_collect.mp hn) (fun hmem => ?_)
      (isPanel_eq_false.mpr hpanel)
    exact hroot (List.mem_singleton.mp hmem)
  · cases hzoom : g.zoomedPanelStyles with
    | none =>
      exact isNodeVisible_iff.mpr (h.unzoomed hzoom _
        (hshaped.mem_collect.mpr (hshaped.mem_inner_iff.mp h.current_mem).1))
    | some snapshot => exact (h.zoomed snapshot hzoom _ h.current_mem).mpr rfl

/-! ### Operations that keep the nodes -/

/-- Two grids with the same nodes and the same focus. -/
structure SameNodes (g g' : ContextGrid F C) : Prop where
  children : g'.tree.children = g.tree.children
  parent : g'.tree.parent = g.tree.parent
  next : g'.tree.next = g.tree.next
  rootNode : g'.rootNode = g.rootNode
  keys : g'.inner.keys = g.inner.keys
  current : g'.current = g.current
  root : g'.root = g.root

namespace SameNodes

theorem refl (g : ContextGrid F C) : g.SameNodes g := ⟨rfl, rfl, rfl, rfl, rfl, rfl, rfl⟩

theorem trans {g'' : ContextGrid F C} (h : g.SameNodes g') (h' : g'.SameNodes g'') :
    g.SameNodes g'' :=
  ⟨h'.children.trans h.children, h'.parent.trans h.parent, h'.next.trans h.next,
    h'.rootNode.trans h.rootNode, h'.keys.trans h.keys, h'.current.trans h.current,
    h'.root.trans h.root⟩

theorem mem_inner (h : g.SameNodes g') : k ∈ g'.inner ↔ k ∈ g.inner := by
  rw [AList.mem_keys, AList.mem_keys, h.keys]

theorem isPanel (h : g.SameNodes g') : g'.isPanel = g.isPanel :=
  funext fun _ => decide_eq_decide.mpr h.mem_inner

theorem panelCount (h : g.SameNodes g') : g'.panelCount = g.panelCount :=
  congrArg List.length h.keys

theorem collect (h : g.SameNodes g') :
    g'.tree.collectTreeNodes g'.rootNode = g.tree.collectTreeNodes g.rootNode := by
  unfold collectTreeNodes
  rw [h.children, h.next, h.rootNode]

theorem leaves (h : g.SameNodes g') :
    g'.tree.leaves g'.rootNode = g.tree.leaves g.rootNode := by
  unfold TaffyTree.leaves
  rw [h.children, h.next, h.rootNode]

theorem shaped (h : g.SameNodes g') (hshaped : g.Shaped kids) : g'.Shaped kids := by
  refine ⟨?_, ?_, ?_, ?_⟩
  · rw [h.rootNode]
    exact hshaped.holding.congr h.children h.parent h.next
  · rw [h.rootNode, h.keys]
    exact hshaped.leaves
  · rw [h.rootNode, h.isPanel]
    unfold Branching
    rw [h.children]
    exact hshaped.branching
  · rw [h.rootNode, h.mem_inner]
    exact hshaped.root_notMem

end SameNodes

/-- Two grids that differ in sizes and positions only. -/
structure Restyled (g g' : ContextGrid F C) : Prop extends g.SameNodes g' where
  zoomedPanelStyles : g'.zoomedPanelStyles = g.zoomedPanelStyles
  display : ∀ n, (g'.tree.style n).display = (g.tree.style n).display

theorem Restyled.refl (g : ContextGrid F C) : g.Restyled g := ⟨.refl g, rfl, fun _ => rfl⟩

theorem Restyled.ite {a b : ContextGrid F C} {c : Prop} [Decidable c] (ha : g.Restyled a)
    (hb : g.Restyled b) : g.Restyled (if c then a else b) := by
  by_cases h : c
  · rw [if_pos h]
    exact ha
  · rw [if_neg h]
    exact hb

theorem Restyled.trans {g'' : ContextGrid F C} (h : g.Restyled g') (h' : g'.Restyled g'') :
    g.Restyled g'' :=
  ⟨h.toSameNodes.trans h'.toSameNodes, h'.zoomedPanelStyles.trans h.zoomedPanelStyles,
    fun n => (h'.display n).trans (h.display n)⟩

theorem Held.restyled (h : g.Held) (hg : g.Restyled g') : g'.Held := by
  obtain ⟨kids, hshaped⟩ := h.shaped
  refine ⟨⟨kids, hg.shaped hshaped⟩, ?_, ?_, fun hzoom n hn => ?_, fun snapshot hzoom n hn => ?_⟩
  · rw [hg.current, hg.mem_inner]
    exact h.current_mem
  · obtain ⟨r, hr, hmem⟩ := h.root_mem
    exact ⟨r, hg.root.trans hr, hg.mem_inner.mpr hmem⟩
  · rw [hg.display]
    rw [hg.zoomedPanelStyles] at hzoom
    rw [hg.collect] at hn
    exact h.unzoomed hzoom n hn
  · rw [hg.zoomedPanelStyles] at hzoom
    rw [hg.collect] at hn
    exact h.snapshot snapshot hzoom n hn

theorem Sound.restyled (h : g.Sound) (hg : g.Restyled g') : g'.Sound := by
  refine ⟨h.toHeld.restyled hg, fun snapshot hzoom k hk => ?_⟩
  rw [hg.zoomedPanelStyles] at hzoom
  rw [hg.current, isNodeVisible_iff, hg.display, ← isNodeVisible_iff]
  exact h.zoomed snapshot hzoom k (hg.mem_inner.mp hk)

theorem restyled_setStyle (g : ContextGrid F C) {node : NodeId} {style : Style F}
    (h : style.display = (g.tree.style node).display) :
    g.Restyled { g with tree := g.tree.setStyle node style } := by
  refine ⟨⟨rfl, rfl, rfl, rfl, rfl, rfl, rfl⟩, rfl, fun n => ?_⟩
  change ((g.tree.setStyle node style).style n).display = _
  rw [style_setStyle]
  by_cases hn : n = node
  · rw [if_pos hn, hn]
    exact h
  · rw [if_neg hn]

theorem restyled_mapStyles (g : ContextGrid F C) (nodes : List NodeId)
    {change : NodeId → Style F → Style F} (h : ∀ n s, (change n s).display = s.display) :
    g.Restyled { g with tree := g.tree.mapStyles nodes change } := by
  obtain ⟨hchildren, hparent, hnext, hdisplay⟩ := mapStyles_frame h nodes g.tree
  exact ⟨⟨hchildren, hparent, hnext, rfl, rfl, rfl, rfl⟩, rfl, hdisplay⟩

variable [Number F] {taffy : Taffy F}

theorem restyled_computeLayout (g : ContextGrid F C) (taffy : Taffy F) :
    g.Restyled (g.computeLayout taffy) := by
  refine ⟨⟨rfl, rfl, rfl, rfl, ?_, rfl, rfl⟩, rfl, fun _ => rfl⟩
  unfold AList.keys List.keys
  rw [show (g.computeLayout taffy).inner.entries = _ from Table.entries_foldl_adjust Prod.fst _ _ _,
    List.map_map]
  rfl

theorem restyled_tryUpdateSize (g : ContextGrid F C) (width height : F) :
    g.Restyled (g.tryUpdateSize width height) := g.restyled_setStyle rfl

theorem restyled_setPanelSize (g : ContextGrid F C) (node : NodeId) (size : F) :
    g.Restyled (g.setPanelSize node size) := g.restyled_setStyle rfl

theorem restyled_resetPanelStylesToFlexible (g : ContextGrid F C) :
    g.Restyled g.resetPanelStylesToFlexible := g.restyled_mapStyles _ fun _ _ => rfl

theorem restyled_updatePanelConfig (g : ContextGrid F C) (panelConfig : Panel F) :
    g.Restyled (g.updatePanelConfig panelConfig) := by
  have hconfig : g.Restyled { g with panelConfig } :=
    ⟨⟨rfl, rfl, rfl, rfl, rfl, rfl, rfl⟩, rfl, fun _ => rfl⟩
  refine hconfig.trans (restyled_mapStyles _ _ fun n s => ?_)
  split <;> rfl

theorem restyled_updateScale (g : ContextGrid F C) (scale : F) :
    g.Restyled (g.updateScale scale) := by
  have hscale : g.Restyled { g with scale } :=
    ⟨⟨rfl, rfl, rfl, rfl, rfl, rfl, rfl⟩, rfl, fun _ => rfl⟩
  exact hscale.trans (restyled_updatePanelConfig _ _)

theorem restyled_updateScaledMargin (g : ContextGrid F C) (scaledMargin : Sides F) :
    g.Restyled (g.updateScaledMargin scaledMargin) := by
  have hmargin : g.Restyled { g with scaledMargin } :=
    ⟨⟨rfl, rfl, rfl, rfl, rfl, rfl, rfl⟩, rfl, fun _ => rfl⟩
  exact hmargin.trans (restyled_tryUpdateSize _ _ _)

theorem restyled_size (g : ContextGrid F C) (width height : F) :
    g.Restyled ({ g with width, height }.tryUpdateSize width height) := by
  have hsize : g.Restyled { g with width, height } :=
    ⟨⟨rfl, rfl, rfl, rfl, rfl, rfl, rfl⟩, rfl, fun _ => rfl⟩
  exact hsize.trans (restyled_tryUpdateSize _ _ _)

theorem restyled_resize (g : ContextGrid F C) (newWidth newHeight : F) :
    g.Restyled (g.resize taffy newWidth newHeight) :=
  (g.restyled_size newWidth newHeight).trans (restyled_computeLayout _ _)

theorem restyled_resizeBorder (g : ContextGrid F C) (a b : NodeId) (originalSizes : F × F)
    (delta : F) : g.Restyled (g.resizeBorder taffy a b originalSizes delta) :=
  ((g.restyled_setPanelSize a _).trans (restyled_setPanelSize _ b _)).trans
    (restyled_computeLayout _ _)

/-! ### Zoom -/

theorem ensureUnzoomed_of_none (h : g.zoomedPanelStyles = none) : g.ensureUnzoomed taffy = g := by
  unfold ensureUnzoomed restoreZoomedPanelStyles
  rw [h]

theorem ensureUnzoomed_of_some {snapshot : Table NodeId (Style F)}
    (h : g.zoomedPanelStyles = some snapshot) :
    g.ensureUnzoomed taffy = (g.restoreStyles snapshot).computeLayout taffy := by
  unfold ensureUnzoomed restoreZoomedPanelStyles
  rw [h]

theorem toggleCurrentSplitZoom_of_some {snapshot : Table NodeId (Style F)}
    (h : g.zoomedPanelStyles = some snapshot) :
    g.toggleCurrentSplitZoom taffy = g.ensureUnzoomed taffy := by
  unfold toggleCurrentSplitZoom ensureUnzoomed restoreZoomedPanelStyles
  rw [h]

theorem toggleCurrentSplitZoom_of_none (h : g.zoomedPanelStyles = none) :
    g.toggleCurrentSplitZoom taffy =
      if g.panelCount ≤ 1 ∨ g.current ∉ g.inner then g else g.zoomCurrent.computeLayout taffy := by
  unfold toggleCurrentSplitZoom restoreZoomedPanelStyles
  rw [h]

omit [Number F] in
theorem sameNodes_restoreStyles (g : ContextGrid F C) (snapshot : Table NodeId (Style F)) :
    g.SameNodes (g.restoreStyles snapshot) := by
  obtain ⟨hchildren, hparent, hnext⟩ :=
    setStyles_nodes snapshot.lookup (g.tree.collectTreeNodes g.rootNode) g.tree
  exact ⟨hchildren, hparent, hnext, rfl, rfl, rfl, rfl⟩

theorem sameNodes_zoomCurrent (g : ContextGrid F C) : g.SameNodes g.zoomCurrent := by
  obtain ⟨hchildren, hparent, hnext⟩ :=
    setStyles_nodes _ (g.tree.collectTreeNodes g.rootNode) g.tree
  exact ⟨hchildren, hparent, hnext, rfl, rfl, rfl, rfl⟩

omit [Number F] in
theorem Held.restoreStyles (h : g.Held) {snapshot : Table NodeId (Style F)}
    (hzoom : g.zoomedPanelStyles = some snapshot) : (g.restoreStyles snapshot).Sound := by
  have hsame := g.sameNodes_restoreStyles snapshot
  obtain ⟨kids, hshaped⟩ := h.shaped
  obtain ⟨r, hr, hmem⟩ := h.root_mem
  refine Held.sound ⟨⟨kids, hsame.shaped hshaped⟩, hsame.mem_inner.mpr h.current_mem,
    ⟨r, hr, hsame.mem_inner.mpr hmem⟩, fun _ n hn => ?_, nofun⟩ rfl
  rw [hsame.collect] at hn
  obtain ⟨s, hlookup, hdisplay⟩ := h.snapshot snapshot hzoom n hn
  have hstyle : (g.restoreStyles snapshot).tree.style n = s := by
    refine (style_setStyles _ _ _).trans ?_
    rw [if_pos hn, hlookup]
    rfl
  rw [hstyle]
  exact hdisplay

theorem Held.ensureUnzoomed (h : g.Held) (taffy : Taffy F) : (g.ensureUnzoomed taffy).Sound ∧
    (g.ensureUnzoomed taffy).zoomedPanelStyles = none ∧ g.SameNodes (g.ensureUnzoomed taffy) := by
  cases hzoom : g.zoomedPanelStyles with
  | none =>
    rw [ensureUnzoomed_of_none hzoom]
    exact ⟨h.sound hzoom, hzoom, .refl g⟩
  | some snapshot =>
    rw [ensureUnzoomed_of_some hzoom]
    have hlayout := (g.restoreStyles snapshot).restyled_computeLayout taffy
    exact ⟨(h.restoreStyles hzoom).restyled hlayout, hlayout.zoomedPanelStyles,
      (g.sameNodes_restoreStyles snapshot).trans hlayout.toSameNodes⟩

/-- In a zoomed grid the nodes from the focused panel up are displayed. -/
theorem style_zoomCurrent (g : ContextGrid F C) (hn : n ∈ g.tree.collectTreeNodes g.rootNode) :
    (g.zoomCurrent.tree.style n).display =
      if n = g.rootNode ∨ n ∈ g.tree.collectPathToRoot g.rootNode g.current then .flex else .none := by
  have hstyle : g.zoomCurrent.tree.style n = _ := style_setStyles _ _ _
  rw [hstyle, if_pos hn, lookup_captureTreeStyles, if_pos hn, Option.map_some, Option.getD_some]
  by_cases hpath : n = g.rootNode ∨ n ∈ g.tree.collectPathToRoot g.rootNode g.current
  · rw [if_pos hpath, if_pos hpath]
    by_cases hroot : n ≠ g.rootNode
    · rw [if_pos hroot]
      rfl
    · rw [if_neg hroot]
  · rw [if_neg hpath, if_neg hpath]

theorem Held.zoomCurrent (h : g.Held) (hzoom : g.zoomedPanelStyles = none) :
    g.zoomCurrent.Sound := by
  have hsame := g.sameNodes_zoomCurrent
  obtain ⟨kids, hshaped⟩ := h.shaped
  obtain ⟨r, hr, hmem⟩ := h.root_mem
  refine ⟨⟨⟨kids, hsame.shaped hshaped⟩, hsame.mem_inner.mpr h.current_mem,
    ⟨r, hr, hsame.mem_inner.mpr hmem⟩, nofun, fun snapshot hsnapshot n hn => ?_⟩,
    fun _ _ k hk => ?_⟩
  · obtain rfl : g.tree.captureTreeStyles g.rootNode = snapshot := Option.some_inj.mp hsnapshot
    rw [hsame.collect] at hn
    refine ⟨g.tree.style n, ?_, h.unzoomed hzoom n hn⟩
    rw [lookup_captureTreeStyles, if_pos hn]
  · have hk : k ∈ g.inner := hsame.mem_inner.mp hk
    obtain ⟨hkNode, hkLeaf⟩ := hshaped.mem_inner_iff.mp hk
    have hcurrent := (hshaped.mem_inner_iff.mp h.current_mem).1
    have hkRoot : k ≠ g.rootNode := fun heq => hshaped.root_notMem (heq ▸ hk)
    rw [isNodeVisible_iff, style_zoomCurrent g (hshaped.mem_collect.mpr hkNode)]
    change _ ↔ k = g.current
    constructor
    · intro hdisplay
      by_contra hne
      have hpath : ¬ (k = g.rootNode ∨ k ∈ g.tree.collectPathToRoot g.rootNode g.current) := by
        rw [mem_collectPathToRoot]
        rintro (hroot | hup | hroot)
        · exact hkRoot hroot
        · exact (hshaped.holding.mem_pathUp hcurrent hup).elim hne fun hchildren => hchildren hkLeaf
        · exact hkRoot hroot
      rw [if_neg hpath] at hdisplay
      exact absurd hdisplay nofun
    · rintro rfl
      exact if_pos (.inr (mem_collectPathToRoot.mpr (.inl (self_mem_pathUp _ _ _ _))))

theorem Held.toggleCurrentSplitZoom (h : g.Held) : (g.toggleCurrentSplitZoom taffy).Sound := by
  cases hzoom : g.zoomedPanelStyles with
  | some snapshot =>
    rw [toggleCurrentSplitZoom_of_some hzoom]
    exact (h.ensureUnzoomed taffy).1
  | none =>
    rw [toggleCurrentSplitZoom_of_none hzoom]
    by_cases hsingle : g.panelCount ≤ 1 ∨ g.current ∉ g.inner
    · rw [if_pos hsingle]
      exact h.sound hzoom
    · rw [if_neg hsingle]
      exact (h.zoomCurrent hzoom).restyled (restyled_computeLayout _ _)

/-! ### Splitting -/

theorem perm_split {l : List NodeId} {new : NodeId} (h : l.Nodup) (hn : n ∈ l) :
    (l.flatMap fun c => if c = n then [n, new] else [c]).Perm (new :: l) := by
  induction l with
  | nil => exact absurd hn List.not_mem_nil
  | cons c l ih =>
    obtain ⟨hc, hl⟩ := List.nodup_cons.mp h
    rw [List.flatMap_cons]
    by_cases hcn : c = n
    · subst hcn
      have hsame : ∀ d ∈ l, (if d = c then [c, new] else [d]) = [d] := fun d hd =>
        if_neg fun heq : d = c => hc (heq ▸ hd)
      rw [if_pos rfl, List.flatMap_congr hsame, List.flatMap_singleton']
      exact .swap new c l
    · have hmem := (List.mem_cons.mp hn).resolve_left (Ne.symm hcn)
      rw [if_neg hcn]
      exact ((ih hl hmem).cons c).trans (.swap new c l)

/-- The grid after a split, before its layout is computed. -/
def splitInto (g : ContextGrid F C) (direction : FlexDirection) (context : C) : ContextGrid F C :=
  { (g.splitPanel direction).2 with
    inner := g.inner.insert (g.tree.next + 1) ⟨context, ⟨0, 0, 0, 0⟩, ⟨0, 0, 0, 0⟩⟩
    current := g.tree.next + 1 }

theorem split_eq (g : ContextGrid F C) (direction : FlexDirection) (context : C) :
    g.split taffy direction context =
      if g.current ∉ g.inner then g
      else ((g.ensureUnzoomed taffy).splitInto direction context).computeLayout taffy := rfl

omit [Number F] in
/-- The nodes of a tree are older than the next one. -/
theorem Held.ne_next (h : g.Held) (hk : k ∈ g.inner) : k ≠ g.tree.next ∧ k ≠ g.tree.next + 1 := by
  obtain ⟨kids, hshaped⟩ := h.shaped
  have hbelow := hshaped.holding.below k (hshaped.mem_inner_iff.mp hk).1
  exact ⟨Nat.ne_of_lt hbelow, Nat.ne_of_lt (Nat.lt_succ_of_lt hbelow)⟩

theorem Held.splitInto (h : g.Held) (hzoom : g.zoomedPanelStyles = none)
    (direction : FlexDirection) (context : C) : (g.splitInto direction context).Sound := by
  obtain ⟨kids, hshaped⟩ := h.shaped
  obtain ⟨hcurrent, hleaf⟩ := hshaped.mem_inner_iff.mp h.current_mem
  have hholding := hshaped.holding
  obtain ⟨p, -, hparent, -⟩ := hholding.exists_parent hcurrent (hshaped.ne_root h.current_mem)
  have hroot : g.rootNode ≠ g.current := fun heq => hshaped.root_notMem (heq ▸ h.current_mem)
  have hfresh (n : NodeId) (hn : n ∈ (cons g.rootNode kids nil).nodes) :
      n ≠ g.tree.next ∧ n ≠ g.tree.next + 1 := by
    have hbelow := hholding.below n hn
    exact ⟨Nat.ne_of_lt hbelow, Nat.ne_of_lt (Nat.lt_succ_of_lt hbelow)⟩
  have hnewKey : g.tree.next + 1 ∉ g.inner.keys := fun hmem =>
    (h.ne_next (AList.mem_keys.mpr hmem)).2 rfl
  have htree : (g.splitInto direction context).tree = (g.tree.splitLeaf p g.current
      (g.containerStyle direction) (g.tree.style g.current).flexible g.createPanelStyle).2 := by
    change (g.tree.splitLeaf ((g.tree.parent g.current).getD g.rootNode) _ _ _ _).2 = _
    rw [hparent]
    rfl
  have hsplit : (cons g.rootNode kids nil).split g.current g.tree.next (g.tree.next + 1) =
      cons g.rootNode (kids.split g.current g.tree.next (g.tree.next + 1)) nil := by
    rw [split_cons, if_neg hroot]
    rfl
  have hnodes : ((cons g.rootNode kids nil).split g.current g.tree.next
      (g.tree.next + 1)).nodes = _ := hholding.represents.nodes_split hholding.nodup hleaf
  have hleaves : ((cons g.rootNode kids nil).split g.current g.tree.next
      (g.tree.next + 1)).leaves = _ := hholding.represents.leaves_split hholding.nodup hleaf
  have hholding' := hholding.splitLeaf (g.containerStyle direction)
    (g.tree.style g.current).flexible g.createPanelStyle hcurrent hparent hleaf
  rw [hsplit] at hnodes hleaves hholding'
  have hmem {n : NodeId} (hn : n ∈ (cons g.rootNode (kids.split g.current g.tree.next
      (g.tree.next + 1)) nil).nodes) :
      n = g.tree.next ∨ n = g.tree.next + 1 ∨ n ∈ (cons g.rootNode kids nil).nodes := by
    rw [hnodes] at hn
    obtain ⟨c, hc, hnc⟩ := List.mem_flatMap.mp hn
    by_cases hcn : c = g.current
    · rw [if_pos hcn] at hnc
      simp only [List.mem_cons, List.not_mem_nil, or_false] at hnc
      obtain rfl | rfl | rfl := hnc
      · exact .inl rfl
      · exact .inr (.inr hcurrent)
      · exact .inr (.inl rfl)
    · rw [if_neg hcn] at hnc
      exact .inr (.inr (List.mem_singleton.mp hnc ▸ hc))
  obtain ⟨hp, hchild⟩ := hholding.mem_children_of_parent hcurrent hparent
  have hchildren := splitLeaf_children (g.containerStyle direction)
    (g.tree.style g.current).flexible g.createPanelStyle hchild (hholding.below p hp)
    (hholding.represents.nodup_children hholding.nodup hp)
  have hkeys : (g.splitInto direction context).inner.keys = (g.tree.next + 1) :: g.inner.keys :=
    (AList.keys_insert _).trans (congrArg _ (List.erase_of_not_mem hnewKey))
  have hmemInner {k : NodeId} : k ∈ (g.splitInto direction context).inner ↔
      k = g.tree.next + 1 ∨ k ∈ g.inner := AList.mem_insert _
  have hshaped' : (g.splitInto direction context).Shaped
      (kids.split g.current g.tree.next (g.tree.next + 1)) := by
    refine ⟨?_, ?_, fun n hn hnRoot hpanel => ?_, ?_⟩
    · rw [htree]
      exact hholding'
    · change (cons g.rootNode _ nil).leaves.Perm _
      rw [hleaves, hkeys]
      have hnodup := hshaped.leaves.nodup_iff.mpr g.inner.keys_nodup
      exact (perm_split hnodup (hshaped.mem_inner.mp h.current_mem)).trans (hshaped.leaves.cons _)
    · rw [htree, hchildren]
      have hnotInner : n ∉ (g.splitInto direction context).inner := isPanel_eq_false.mp hpanel
      obtain rfl | rfl | hn := hmem hn
      · rw [if_neg (hfresh p hp).1.symm, if_pos rfl]
        exact Nat.le_refl 2
      · exact absurd (hmemInner.mpr (.inl rfl)) hnotInner
      · have hbranching := hshaped.branching n hn hnRoot
          (isPanel_eq_false.mpr fun hmem => hnotInner (hmemInner.mpr (.inr hmem)))
        by_cases hnp : n = p
        · rw [if_pos hnp, List.length_map, ← hnp]
          exact hbranching
        · rw [if_neg hnp, if_neg (hfresh n hn).1, if_neg (hfresh n hn).2]
          exact hbranching
    · intro hmem
      obtain hroot | hmem := hmemInner.mp hmem
      · exact (hfresh g.rootNode List.mem_cons_self).2 hroot
      · exact hshaped.root_notMem hmem
  refine Held.sound ⟨⟨_, hshaped'⟩, hmemInner.mpr (.inl rfl), ?_, fun _ n hn => ?_,
    fun snapshot hsnapshot => absurd (hzoom.symm.trans hsnapshot) nofun⟩ hzoom
  · obtain ⟨r, hr, hmem⟩ := h.root_mem
    exact ⟨r, hr, hmemInner.mpr (.inr hmem)⟩
  · rw [htree, splitLeaf_style]
    by_cases hnew : n = g.tree.next + 1
    · rw [if_pos hnew]
      rfl
    · rw [if_neg hnew]
      have hflex (m : NodeId) (hm : m ∈ (cons g.rootNode kids nil).nodes) :=
        h.unzoomed hzoom m (hshaped.mem_collect.mpr hm)
      by_cases hcur : n = g.current
      · rw [if_pos hcur]
        exact hflex _ hcurrent
      · rw [if_neg hcur]
        by_cases hcontainer : n = g.tree.next
        · rw [if_pos hcontainer]
          rfl
        · rw [if_neg hcontainer]
          obtain hn | hn | hn := hmem (hshaped'.mem_collect.mp hn)
          · exact absurd hn hcontainer
          · exact absurd hn hnew
          · exact hflex n hn

theorem Held.split (h : g.Held) (direction : FlexDirection) (context : C) :
    (g.split taffy direction context).Sound := by
  rw [split_eq, if_neg (not_not.mpr h.current_mem)]
  obtain ⟨hsound, hzoom, -⟩ := h.ensureUnzoomed taffy
  exact (hsound.splitInto hzoom direction context).restyled (restyled_computeLayout _ _)

end Rio.Layout.ContextGrid
