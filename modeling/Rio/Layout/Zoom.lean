import Rio.Layout.Removal

/-! Zooming a panel and unzooming it again changes nothing, and neither does what is done to the
zoomed grid. -/

set_option linter.dupNamespace false

namespace Rio.Layout.ContextGrid
open Forest TaffyTree

variable {F C : Type} [Number F] {taffy : Taffy F} {g g' z : ContextGrid F C}
  {kids : Forest NodeId} {n k : NodeId}

/-! ### Layouts -/

theorem positions_map_fst {children : NodeId → List NodeId} {layout : NodeId → NodeLayout F} :
    ∀ (fuel : ℕ) (stack : List (NodeId × F × F)),
      (positions children layout fuel stack).map Prod.fst =
        Forest.walk children fuel (stack.map Prod.fst)
  | 0, _ => rfl
  | _ + 1, [] => rfl
  | fuel + 1, (node, x, y) :: stack => by
    have ih : (positions children layout fuel ((children node).reverse.map
        (fun child => (child, x + (layout node).x, y + (layout node).y)) ++ stack)).map Prod.fst =
          _ := positions_map_fst fuel _
    rw [List.map_append, List.map_map] at ih
    have hfst : ((children node).reverse.map (Prod.fst ∘ fun child =>
        (child, x + (layout node).x, y + (layout node).y))) = (children node).reverse :=
      List.map_id' _
    rw [hfst] at ih
    exact congrArg (node :: ·) ih

/-- What is at the place of a panel does not depend on where it was before. -/
theorem foldl_place (layout : NodeId → NodeLayout F) (useContentBox : Bool) (k : NodeId) :
    ∀ (l : List (NodeId × F × F)) (v v' : ContextGridItem F C), v.val = v'.val → k ∈ l.map Prod.fst →
      l.foldl (fun v p => if k = p.1 then place (layout p.1) useContentBox p.2.1 p.2.2 v else v) v =
        l.foldl (fun v p => if k = p.1 then place (layout p.1) useContentBox p.2.1 p.2.2 v else v) v'
  | [], _, _, _, hk => absurd hk List.not_mem_nil
  | p :: l, v, v', hv, hk => by
    rw [List.foldl_cons, List.foldl_cons]
    by_cases hp : k = p.1
    · rw [if_pos hp, if_pos hp]
      unfold place
      rw [hv]
    · rw [if_neg hp, if_neg hp]
      exact foldl_place layout useContentBox k l v v' hv
        ((List.mem_cons.mp hk).resolve_left hp)

theorem val_foldl_place (layout : NodeId → NodeLayout F) (useContentBox : Bool) (k : NodeId) :
    ∀ (l : List (NodeId × F × F)) (v : ContextGridItem F C),
      (l.foldl (fun v p => if k = p.1 then place (layout p.1) useContentBox p.2.1 p.2.2 v else v)
        v).val = v.val
  | [], _ => rfl
  | p :: l, v => by
    rw [List.foldl_cons, val_foldl_place layout useContentBox k l]
    by_cases hp : k = p.1
    · rw [if_pos hp]
      rfl
    · rw [if_neg hp]

/-- The panels without their places. -/
def contexts (t : Table NodeId (ContextGridItem F C)) : List (NodeId × C) :=
  t.entries.map fun e => (e.1, e.2.val)

theorem contexts_computeLayout (g : ContextGrid F C) :
    contexts (g.computeLayout taffy).inner = contexts g.inner := by
  unfold contexts
  rw [show (g.computeLayout taffy).inner.entries = _ from Table.entries_foldl_adjust Prod.fst _ _ _,
    List.map_map]
  exact List.map_congr_left fun e _ => Prod.ext rfl (val_foldl_place _ _ _ _ _)

/-- Two grids that differ in the places of panels and the last layout only. -/
def Replaced (g g' : ContextGrid F C) : Prop :=
  ∃ inner layout, g' = { g with inner, layout } ∧ contexts inner = contexts g.inner

theorem replaced_computeLayout (g : ContextGrid F C) : g.Replaced (g.computeLayout taffy) :=
  ⟨_, _, rfl, g.contexts_computeLayout⟩

omit [Number F] in
theorem keys_of_contexts {t t' : Table NodeId (ContextGridItem F C)}
    (h : contexts t = contexts t') : t.keys = t'.keys := by
  have hfst := congrArg (List.map Prod.fst) h
  unfold contexts at hfst
  rwa [List.map_map, List.map_map] at hfst

/-- The layout of a grid does not depend on the one before it. -/
theorem Replaced.computeLayout (h : g.Replaced g') (hg : g.Held) :
    g'.computeLayout taffy = g.computeLayout taffy := by
  obtain ⟨inner, layout, rfl, hcontexts⟩ := h
  obtain ⟨kids, hshaped⟩ := hg.shaped
  have hkeys := keys_of_contexts hcontexts
  have hcount : ({ g with inner, layout } : ContextGrid F C).visiblePanelCount =
      g.visiblePanelCount := by
    unfold visiblePanelCount visibleContextKeys
    rw [hkeys]
    rfl
  let visited := positions g.tree.children (taffy.computeLayout g.tree g.rootNode) g.tree.next
    [(g.rootNode, 0, 0)]
  have hvisited : ∀ k ∈ g.inner.keys, k ∈ visited.map Prod.fst := by
    intro k hk
    rw [positions_map_fst]
    exact hshaped.mem_collect.mpr (hshaped.mem_inner_iff.mp (AList.mem_keys.mpr hk)).1
  let put (k : NodeId) (v : ContextGridItem F C) : ContextGridItem F C :=
    visited.foldl (fun v p => if k = p.1 then place (taffy.computeLayout g.tree g.rootNode p.1)
      (decide (1 < g.visiblePanelCount)) p.2.1 p.2.2 v else v) v
  -- A panel is put at a place that only depends on its key.
  have hplaces (t : Table NodeId (ContextGridItem F C)) (ht : t.keys = g.inner.keys) :
      (t.entries.map fun e => (⟨e.1, put e.1 e.2⟩ : Σ _ : NodeId, ContextGridItem F C)) =
        (contexts t).map fun p => ⟨p.1, put p.1 ⟨p.2, ⟨0, 0, 0, 0⟩, ⟨0, 0, 0, 0⟩⟩⟩ := by
    unfold contexts
    rw [List.map_map]
    refine List.map_congr_left fun e he => ?_
    have hk : e.1 ∈ visited.map Prod.fst := hvisited _ (ht ▸ List.mem_map_of_mem he)
    exact Sigma.ext rfl (heq_of_eq (foldl_place _ _ _ _ _ _ rfl hk))
  have hinner : (({ g with inner, layout } : ContextGrid F C).computeLayout taffy).inner =
      (g.computeLayout taffy).inner := by
    apply AList.ext
    have hleft : (({ g with inner, layout } : ContextGrid F C).computeLayout taffy).inner.entries =
        inner.entries.map fun e => ⟨e.1, put e.1 e.2⟩ := by
      refine (Table.entries_foldl_adjust Prod.fst _ _ _).trans ?_
      dsimp only [put]
      rw [← hcount]
      rfl
    have hright : (g.computeLayout taffy).inner.entries =
        g.inner.entries.map fun e => ⟨e.1, put e.1 e.2⟩ :=
      Table.entries_foldl_adjust Prod.fst _ _ _
    rw [hleft, hright, hplaces inner hkeys, hplaces g.inner rfl, hcontexts]
  exact congrArg (fun inner => { g.computeLayout taffy with inner }) hinner

theorem Held.computeLayout_idem (h : g.Held) :
    (g.computeLayout taffy).computeLayout taffy = g.computeLayout taffy :=
  g.replaced_computeLayout.computeLayout h

/-! ### A zoomed grid -/

/-- The layout is that of the styles. -/
def UpToDate (taffy : Taffy F) (g : ContextGrid F C) : Prop := g.computeLayout taffy = g

theorem UpToDate.ite {a b : ContextGrid F C} {c : Prop} [Decidable c] (ha : a.UpToDate taffy)
    (hb : b.UpToDate taffy) : (if c then a else b).UpToDate taffy := by
  by_cases h : c
  · rw [if_pos h]
    exact ha
  · rw [if_neg h]
    exact hb

/-- A grid with its focused panel zoomed. -/
def zoomedIn (taffy : Taffy F) (g : ContextGrid F C) : ContextGrid F C :=
  g.zoomCurrent.computeLayout taffy

theorem Held.zoomedIn (h : g.Held) (hzoom : g.zoomedPanelStyles = none) :
    (g.zoomedIn taffy).Sound :=
  (h.zoomCurrent hzoom).restyled (restyled_computeLayout _ _)

/-- The styles of a zoomed grid are restored as they were. -/
theorem restoreStyles_zoomCurrent (g : ContextGrid F C) :
    (g.zoomCurrent.restoreStyles (g.tree.captureTreeStyles g.rootNode)).tree = g.tree := by
  have hsame := g.sameNodes_zoomCurrent
  have hsame' := g.zoomCurrent.sameNodes_restoreStyles (g.tree.captureTreeStyles g.rootNode)
  have hstyle : (g.zoomCurrent.restoreStyles (g.tree.captureTreeStyles g.rootNode)).tree.style =
      g.tree.style := by
    funext n
    refine (style_setStyles _ _ _).trans ?_
    rw [hsame.collect, lookup_captureTreeStyles]
    by_cases hn : n ∈ g.tree.collectTreeNodes g.rootNode
    · rw [if_pos hn, if_pos hn]
      rfl
    · rw [if_neg hn]
      refine (style_setStyles _ _ _).trans ?_
      rw [if_neg hn]
  have hchildren := hsame'.children.trans hsame.children
  have hparent := hsame'.parent.trans hsame.parent
  have hnext := hsame'.next.trans hsame.next
  generalize (g.zoomCurrent.restoreStyles (g.tree.captureTreeStyles g.rootNode)).tree = t at *
  cases t
  cases htree : g.tree
  rw [htree] at hstyle hchildren hparent hnext
  subst hstyle hchildren hparent hnext
  rfl

/-- A grid that is zoomed and unzoomed is what it was. -/
theorem Held.ensureUnzoomed_zoomedIn (h : g.Held) (hzoom : g.zoomedPanelStyles = none)
    (hlayout : g.UpToDate taffy) : (g.zoomedIn taffy).ensureUnzoomed taffy = g := by
  have hsnapshot : (g.zoomedIn taffy).zoomedPanelStyles =
      some (g.tree.captureTreeStyles g.rootNode) := rfl
  rw [ensureUnzoomed_of_some hsnapshot]
  have hreplaced : g.Replaced
      ((g.zoomedIn taffy).restoreStyles (g.tree.captureTreeStyles g.rootNode)) := by
    refine ⟨(g.zoomedIn taffy).inner, (g.zoomedIn taffy).layout, ?_,
      g.zoomCurrent.contexts_computeLayout⟩
    change { g with
      inner := (g.zoomedIn taffy).inner
      layout := (g.zoomedIn taffy).layout
      zoomedPanelStyles := none
      tree := (g.zoomCurrent.restoreStyles (g.tree.captureTreeStyles g.rootNode)).tree } = _
    rw [g.restoreStyles_zoomCurrent, ← hzoom]
  exact (hreplaced.computeLayout h).trans hlayout

omit [Number F] in
/-- The panel that is selected in a zoomed grid is the zoomed one. -/
theorem Sound.eq_of_selects (h : z.Sound) (hzoom : z.zoomedPanelStyles ≠ none)
    (hselects : z.Selects g') : g' = z := by
  obtain rfl | ⟨k, hk, hvisible, rfl⟩ := hselects
  · rfl
  · obtain ⟨snapshot, hsnapshot⟩ := Option.ne_none_iff_exists'.mp hzoom
    obtain rfl := (h.zoomed snapshot hsnapshot k hk).mp hvisible
    rfl

/-! ### Steps -/

/-- The operations that only select a panel. -/
def isSelection : Op F C → Bool
  | .selectNextSplit | .selectNextSplitNoLoop | .selectPrevSplit | .selectPrevSplitNoLoop
  | .selectSplit _ | .selectCurrentBasedOnMouse _ _ | .selectRoot | .selectLast => true
  | _ => false

/-- The operations that change styles of a zoomed grid. -/
def editsStyles : Op F C → Bool
  | .resizeBorder _ _ _ _ | .updateScaledMargin _ | .updateScale _ | .updatePanelConfig _
  | .resize _ _ => true
  | _ => false

def isToggle : Op F C → Bool
  | .toggleCurrentSplitZoom => true
  | _ => false

/-- What is left out of a run that does not zoom: the toggles, and what is selected while a panel
is zoomed. -/
def skipped (g : ContextGrid F C) (op : Op F C) : Bool :=
  isToggle op || g.zoomedPanelStyles.isSome && isSelection op

/-- The operations of a run without zoom. -/
def withoutZoom (taffy : Taffy F) : ContextGrid F C → List (Op F C) → List (Op F C)
  | _, [] => []
  | g, op :: ops =>
    if g.skipped op then withoutZoom taffy (step taffy g op) ops
    else op :: withoutZoom taffy (step taffy g op) ops

/-- Styles are not edited while a panel is zoomed, no hidden root panel is focused, and the layout
is up to date where zoom is switched on. -/
def Transparent (taffy : Taffy F) (g : ContextGrid F C) (op : Op F C) : Prop :=
  (editsStyles op = true → g.zoomedPanelStyles = none) ∧ g.Permits op ∧
    (isToggle op = true → g.zoomedPanelStyles = none → g.UpToDate taffy)

theorem Held.removeCurrent_unzoomed (h : g.Held) (hzoom : g.zoomedPanelStyles = none) :
    (g.removeCurrent taffy).zoomedPanelStyles = none := by
  rw [h.removeCurrent_eq, ensureUnzoomed_of_none hzoom]
  by_cases hsingle : g.panelCount = 1
  · rw [if_pos hsingle]
    exact hzoom
  · rw [if_neg hsingle]
    exact g.restyled_reduced.zoomedPanelStyles.trans hzoom

/-- The operations after which the layout is not computed. -/
def updatesOnly : Op F C → Bool
  | .updateScaledMargin _ | .updateScale _ | .updatePanelConfig _ => true
  | _ => false

theorem Held.upToDate_computeLayout (h : g.Held) : (g.computeLayout taffy).UpToDate taffy :=
  h.computeLayout_idem

theorem Held.ensureUnzoomed_upToDate (h : g.Held) (hlayout : g.UpToDate taffy) :
    (g.ensureUnzoomed taffy).UpToDate taffy := by
  cases hzoom : g.zoomedPanelStyles with
  | none =>
    rw [ensureUnzoomed_of_none hzoom]
    exact hlayout
  | some snapshot =>
    rw [ensureUnzoomed_of_some hzoom]
    exact (h.restoreStyles hzoom).toHeld.upToDate_computeLayout

theorem Held.removeCurrent_upToDate (h : g.Held) (hlayout : g.UpToDate taffy) :
    (g.removeCurrent taffy).UpToDate taffy := by
  obtain ⟨hsound, hzoom, -⟩ := h.ensureUnzoomed taffy
  rw [h.removeCurrent_eq]
  by_cases hsingle : (g.ensureUnzoomed taffy).panelCount = 1
  · rw [if_pos hsingle]
    exact h.ensureUnzoomed_upToDate hlayout
  · have hpos := hsound.panelCount_pos
    have hcollapse := (hsound.collapse hzoom (by omega)).2.1
    rw [if_neg hsingle]
    exact (hcollapse.toHeld.restyled (restyled_reduced _)).upToDate_computeLayout

/-- The other operations leave the layout up to date. -/
theorem Held.step_upToDate (h : g.Held) (hlayout : g.UpToDate taffy) {op : Op F C}
    (hpermits : g.Permits op) (hop : updatesOnly op = false) :
    (Layout.step taffy g op).UpToDate taffy := by
  have hselects {g' : ContextGrid F C} (hs : g.Selects g') : g'.UpToDate taffy := by
    obtain rfl | ⟨k, -, -, rfl⟩ := hs
    · exact hlayout
    · exact congrArg (fun g : ContextGrid F C => { g with current := k }) hlayout
  have hunzoomed := h.ensureUnzoomed_upToDate hlayout
  have hsound := h.ensureUnzoomed taffy
  have hsplit (direction : FlexDirection) (context : C) :
      (g.split taffy direction context).UpToDate taffy := by
    rw [split_eq, if_neg (not_not.mpr h.current_mem)]
    exact (hsound.1.splitInto hsound.2.1 direction context).toHeld.upToDate_computeLayout
  have hdivider (axis : Axis) (neighbors) (minSize amount : F) (grow : Bool) :
      (g.moveDivider taffy axis neighbors minSize amount grow).2.UpToDate taffy := by
    obtain heq | ⟨first, second, x, y, heq⟩ :=
      g.moveDivider_cases taffy axis neighbors minSize amount grow
    · rw [heq]
      exact hunzoomed
    · rw [heq]
      exact (hsound.1.toHeld.restyled ((restyled_setPanelSize _ first x).trans
        (restyled_setPanelSize _ second y))).upToDate_computeLayout
  cases op with
  | splitRight context => exact hsplit .row context
  | splitDown context => exact hsplit .column context
  | removeCurrent => exact h.removeCurrent_upToDate hlayout
  | selectNextSplit => exact hselects (selects_selectNextSplit _)
  | selectNextSplitNoLoop => exact hselects (selects_selectNextSplitNoLoop _)
  | selectPrevSplit => exact hselects (selects_selectPrevSplit _)
  | selectPrevSplitNoLoop => exact hselects (selects_selectPrevSplitNoLoop _)
  | selectSplit direction => exact hselects (selects_selectSplit _ direction)
  | selectCurrentBasedOnMouse x y => exact hselects (selects_selectCurrentBasedOnMouse _ x y)
  | selectRoot => exact hselects (h.selects_selectRoot hpermits)
  | selectLast => exact hselects (selects_selectLast _)
  | toggleCurrentSplitZoom =>
    change (g.toggleCurrentSplitZoom taffy).UpToDate taffy
    cases hzoom : g.zoomedPanelStyles with
    | some snapshot =>
      rw [toggleCurrentSplitZoom_of_some hzoom]
      exact hunzoomed
    | none =>
      rw [toggleCurrentSplitZoom_of_none hzoom]
      exact UpToDate.ite hlayout (h.zoomCurrent hzoom).toHeld.upToDate_computeLayout
  | moveDividerUp amount => exact hdivider _ _ _ _ _
  | moveDividerDown amount => exact hdivider _ _ _ _ _
  | moveDividerLeft amount => exact hdivider _ _ _ _ _
  | moveDividerRight amount => exact hdivider _ _ _ _ _
  | resizeBorder a b originalSizes delta =>
    exact (h.restyled ((g.restyled_setPanelSize a _).trans
      (restyled_setPanelSize _ b _))).upToDate_computeLayout
  | updateDimensions => exact h.upToDate_computeLayout
  | resize newWidth newHeight =>
    exact (h.restyled (g.restyled_size newWidth newHeight)).upToDate_computeLayout
  | updateScaledMargin _ => exact absurd hop nofun
  | updateScale _ => exact absurd hop nofun
  | updatePanelConfig _ => exact absurd hop nofun

/-- Operations other than the toggle do not zoom. -/
theorem Held.step_unzoomed (h : g.Held) (hzoom : g.zoomedPanelStyles = none) :
    ∀ {op : Op F C}, isToggle op = false → (Layout.step taffy g op).zoomedPanelStyles = none := by
  have hunzoomed : g.ensureUnzoomed taffy = g := ensureUnzoomed_of_none hzoom
  have hselects {g' : ContextGrid F C} (hs : g.Selects g') : g'.zoomedPanelStyles = none := by
    obtain rfl | ⟨k, -, -, rfl⟩ := hs
    · exact hzoom
    · exact hzoom
  have hrestyled {g' : ContextGrid F C} (hr : g.Restyled g') : g'.zoomedPanelStyles = none :=
    hr.zoomedPanelStyles.trans hzoom
  have hsplit (direction : FlexDirection) (context : C) :
      (g.split taffy direction context).zoomedPanelStyles = none := by
    rw [split_eq, hunzoomed]
    by_cases hcurrent : g.current ∉ g.inner
    · rw [if_pos hcurrent]
      exact hzoom
    · rw [if_neg hcurrent]
      exact hzoom
  have hdivider (axis : Axis) (neighbors) (minSize amount : F) (grow : Bool) :
      (g.moveDivider taffy axis neighbors minSize amount grow).2.zoomedPanelStyles = none := by
    refine hrestyled ?_
    have hr := g.restyled_moveDivider taffy axis neighbors minSize amount grow
    rwa [hunzoomed] at hr
  intro op hop
  cases op with
  | splitRight context => exact hsplit .row context
  | splitDown context => exact hsplit .column context
  | removeCurrent => exact h.removeCurrent_unzoomed hzoom
  | selectNextSplit => exact hselects (selects_selectNextSplit _)
  | selectNextSplitNoLoop => exact hselects (selects_selectNextSplitNoLoop _)
  | selectPrevSplit => exact hselects (selects_selectPrevSplit _)
  | selectPrevSplitNoLoop => exact hselects (selects_selectPrevSplitNoLoop _)
  | selectSplit direction => exact hselects (selects_selectSplit _ direction)
  | selectCurrentBasedOnMouse x y => exact hselects (selects_selectCurrentBasedOnMouse _ x y)
  | selectRoot => exact hselects (h.selects_selectRoot (.inl hzoom))
  | selectLast => exact hselects (selects_selectLast _)
  | toggleCurrentSplitZoom => exact absurd hop nofun
  | moveDividerUp amount => exact hdivider _ _ _ _ _
  | moveDividerDown amount => exact hdivider _ _ _ _ _
  | moveDividerLeft amount => exact hdivider _ _ _ _ _
  | moveDividerRight amount => exact hdivider _ _ _ _ _
  | resizeBorder a b originalSizes delta => exact hrestyled (g.restyled_resizeBorder _ _ _ _)
  | updateScaledMargin scaledMargin => exact hrestyled (g.restyled_updateScaledMargin _)
  | updateScale scale => exact hrestyled (g.restyled_updateScale _)
  | updatePanelConfig panelConfig => exact hrestyled (g.restyled_updatePanelConfig _)
  | updateDimensions => exact hrestyled (g.restyled_computeLayout taffy)
  | resize newWidth newHeight => exact hrestyled (g.restyled_resize _ _)

/-- A grid and one without zoom: either they are the same, or the first is zoomed. -/
structure Simulates (taffy : Taffy F) (z g : ContextGrid F C) : Prop where
  sound : g.Sound
  unzoomed : g.zoomedPanelStyles = none
  same : z = g ∨ g.UpToDate taffy ∧ z = g.zoomedIn taffy

theorem Simulates.ensureUnzoomed (h : Simulates taffy z g) : z.ensureUnzoomed taffy = g := by
  obtain ⟨hsound, hzoom, rfl | ⟨hlayout, rfl⟩⟩ := h
  · exact ensureUnzoomed_of_none hzoom
  · exact hsound.ensureUnzoomed_zoomedIn hzoom hlayout

/-- Selecting in a zoomed grid does nothing. -/
theorem Sound.step_selection (h : z.Sound) (hzoom : z.zoomedPanelStyles ≠ none) {op : Op F C}
    (hop : isSelection op = true) (hpermits : z.Permits op) : Layout.step taffy z op = z := by
  cases op with
  | selectNextSplit => exact h.eq_of_selects hzoom (selects_selectNextSplit _)
  | selectNextSplitNoLoop => exact h.eq_of_selects hzoom (selects_selectNextSplitNoLoop _)
  | selectPrevSplit => exact h.eq_of_selects hzoom (selects_selectPrevSplit _)
  | selectPrevSplitNoLoop => exact h.eq_of_selects hzoom (selects_selectPrevSplitNoLoop _)
  | selectSplit direction => exact h.eq_of_selects hzoom (selects_selectSplit _ direction)
  | selectCurrentBasedOnMouse x y =>
    exact h.eq_of_selects hzoom (selects_selectCurrentBasedOnMouse _ x y)
  | selectRoot => exact h.eq_of_selects hzoom (h.selects_selectRoot hpermits)
  | selectLast => exact h.eq_of_selects hzoom (selects_selectLast _)
  | _ => exact absurd hop Bool.false_ne_true

/-- The other operations unzoom first. -/
theorem Held.step_zoomedIn (h : g.Held) (hzoom : g.zoomedPanelStyles = none)
    (hlayout : g.UpToDate taffy) {op : Op F C} (hop : isSelection op = false)
    (hedits : editsStyles op = false) (htoggle : isToggle op = false)
    (hdimensions : op ≠ .updateDimensions) :
    Layout.step taffy (g.zoomedIn taffy) op = Layout.step taffy g op := by
  have hback := h.ensureUnzoomed_zoomedIn hzoom hlayout
  have hself : g.ensureUnzoomed taffy = g := ensureUnzoomed_of_none hzoom
  have hz : (g.zoomedIn taffy).Sound := h.zoomedIn hzoom
  have hsplit (direction : FlexDirection) (context : C) :
      (g.zoomedIn taffy).split taffy direction context = g.split taffy direction context := by
    rw [split_eq, split_eq, hback, hself, if_neg (not_not.mpr hz.current_mem),
      if_neg (not_not.mpr h.current_mem)]
  have hdivider (axis : Axis) (neighbors) (minSize amount : F) (grow : Bool) :
      (g.zoomedIn taffy).moveDivider taffy axis neighbors minSize amount grow =
        g.moveDivider taffy axis neighbors minSize amount grow := by
    unfold ContextGrid.moveDivider
    rw [hback, hself]
  cases op with
  | splitRight context => exact hsplit .row context
  | splitDown context => exact hsplit .column context
  | removeCurrent =>
    change (g.zoomedIn taffy).removeCurrent taffy = g.removeCurrent taffy
    rw [hz.removeCurrent_eq, h.removeCurrent_eq, hback, hself]
  | moveDividerUp amount => exact congrArg Prod.snd (hdivider _ _ _ _ _)
  | moveDividerDown amount => exact congrArg Prod.snd (hdivider _ _ _ _ _)
  | moveDividerLeft amount => exact congrArg Prod.snd (hdivider _ _ _ _ _)
  | moveDividerRight amount => exact congrArg Prod.snd (hdivider _ _ _ _ _)
  | updateDimensions => exact absurd rfl hdimensions
  | toggleCurrentSplitZoom => exact absurd htoggle nofun
  | resizeBorder _ _ _ _ => exact absurd hedits nofun
  | updateScaledMargin _ => exact absurd hedits nofun
  | updateScale _ => exact absurd hedits nofun
  | updatePanelConfig _ => exact absurd hedits nofun
  | resize _ _ => exact absurd hedits nofun
  | _ => exact absurd hop nofun

omit [Number F] in
theorem permits_of_unzoomed (hzoom : g.zoomedPanelStyles = none) : ∀ op : Op F C, g.Permits op
  | .selectRoot => .inl hzoom
  | .splitRight _ | .splitDown _ | .removeCurrent | .selectNextSplit | .selectNextSplitNoLoop
  | .selectPrevSplit | .selectPrevSplitNoLoop | .selectSplit _ | .selectCurrentBasedOnMouse _ _
  | .selectLast | .toggleCurrentSplitZoom | .moveDividerUp _ | .moveDividerDown _
  | .moveDividerLeft _ | .moveDividerRight _ | .resizeBorder _ _ _ _ | .updateScaledMargin _
  | .updateScale _ | .updatePanelConfig _ | .updateDimensions | .resize _ _ => trivial

omit [Number F] in
theorem eq_toggle : ∀ {op : Op F C}, isToggle op = true → op = .toggleCurrentSplitZoom
  | .toggleCurrentSplitZoom, _ => rfl

theorem Simulates.step (h : Simulates taffy z g) {op : Op F C} (hop : z.Transparent taffy op) :
    Simulates taffy (Layout.step taffy z op)
      (if z.skipped op then g else Layout.step taffy g op) := by
  obtain ⟨hedits, hpermits, htoggle⟩ := hop
  obtain ⟨hsound, hzoom, rfl | ⟨hlayout, rfl⟩⟩ := h
  · have hskipped : z.skipped op = isToggle op := by
      unfold skipped
      rw [hzoom]
      exact Bool.or_false _
    rw [hskipped]
    cases hop : isToggle op with
    | true =>
      rw [if_pos rfl]
      refine ⟨hsound, hzoom, ?_⟩
      rw [eq_toggle hop]
      have htoggled : Layout.step taffy z .toggleCurrentSplitZoom = _ :=
        toggleCurrentSplitZoom_of_none hzoom
      rw [htoggled]
      by_cases hsingle : z.panelCount ≤ 1 ∨ z.current ∉ z.inner
      · exact .inl (if_pos hsingle)
      · exact .inr ⟨htoggle hop hzoom, if_neg hsingle⟩
    | false =>
      rw [if_neg Bool.false_ne_true]
      exact ⟨hsound.step hpermits, hsound.step_unzoomed hzoom hop, .inl rfl⟩
  · have hz : (g.zoomedIn taffy).zoomedPanelStyles =
        some (g.tree.captureTreeStyles g.rootNode) := rfl
    have hzNe : (g.zoomedIn taffy).zoomedPanelStyles ≠ none := nofun
    have hskipped : (g.zoomedIn taffy).skipped op = (isToggle op || isSelection op) := by
      unfold skipped
      rw [hz]
      rfl
    rw [hskipped]
    cases hop : isToggle op with
    | true =>
      refine ⟨hsound, hzoom, .inl ?_⟩
      rw [eq_toggle hop]
      exact (toggleCurrentSplitZoom_of_some hz).trans (hsound.ensureUnzoomed_zoomedIn hzoom hlayout)
    | false =>
      cases hselection : isSelection op with
      | true =>
        refine ⟨hsound, hzoom, .inr ⟨hlayout, ?_⟩⟩
        exact (hsound.zoomedIn hzoom).step_selection hzNe hselection hpermits
      | false =>
        have hedits' : editsStyles op = false :=
          Bool.eq_false_iff.mpr fun hedit => hzNe (hedits hedit)
        change Simulates taffy _ (Layout.step taffy g op)
        refine ⟨hsound.step (permits_of_unzoomed hzoom op), hsound.step_unzoomed hzoom hop, ?_⟩
        by_cases hdimensions : op = .updateDimensions
        · rw [hdimensions]
          have hself : Layout.step taffy g .updateDimensions = g := hlayout
          rw [hself]
          exact .inr ⟨hlayout, (hsound.zoomCurrent hzoom).computeLayout_idem⟩
        · exact .inl (hsound.step_zoomedIn hzoom hlayout hselection hedits' hop hdimensions)

theorem Simulates.run : ∀ {ops : List (Op F C)} {z g : ContextGrid F C}, Simulates taffy z g →
    Runs.Permitted (Layout.step taffy) (Transparent taffy) z ops →
      Simulates taffy (ops.foldl (Layout.step taffy) z)
        ((withoutZoom taffy z ops).foldl (Layout.step taffy) g)
  | [], _, _, h, _ => h
  | op :: ops, z, g, h, hok => by
    have hstep := h.step hok.1
    have hrun := Simulates.run hstep hok.2
    unfold withoutZoom
    cases hskip : z.skipped op with
    | true =>
      rw [hskip, if_pos rfl] at hrun
      rw [if_pos rfl]
      exact hrun
    | false =>
      rw [hskip, if_neg Bool.false_ne_true] at hrun
      rw [if_neg Bool.false_ne_true]
      exact hrun

/-- Unzoomed at the end, a grid is the one that the run without zoom leads to, with all its panels
on screen. -/
theorem run_ensureUnzoomed (taffy : Taffy F) (context : C) (width height scale : F)
    (scaledMargin : Sides F) (panelConfig : Panel F) (ops : List (Op F C))
    (hops : Runs.Permitted (Layout.step taffy) (Transparent taffy)
      (new taffy context width height scale scaledMargin panelConfig) ops) :
    let g := new taffy context width height scale scaledMargin panelConfig
    let unzoomed := (ops.foldl (Layout.step taffy) g).ensureUnzoomed taffy
    unzoomed = (withoutZoom taffy g ops).foldl (Layout.step taffy) g ∧
      ∀ k ∈ unzoomed.inner, unzoomed.isNodeVisible k = true := by
  intro g unzoomed
  have hstart : Simulates taffy g g := ⟨sound_new _ _ _ _ _ _ _, rfl, .inl rfl⟩
  have hend := hstart.run hops
  refine ⟨hend.ensureUnzoomed, fun k hk => ?_⟩
  have hunzoomed : unzoomed = _ := hend.ensureUnzoomed
  rw [hunzoomed] at hk ⊢
  exact hend.sound.isNodeVisible hend.unzoomed hk

/-- A divider is moved while a panel is zoomed. -/
theorem run_ensureUnzoomed_divider :
    let ops : List (Op ℤ ℕ) :=
      [.splitRight 1, .toggleCurrentSplitZoom, .selectSplit .left, .moveDividerRight 100]
    let unzoomed := (ops.foldl (Layout.step shares) (window 0)).ensureUnzoomed shares
    unzoomed = ([.splitRight 1, .moveDividerRight 100] : List (Op ℤ ℕ)).foldl (Layout.step shares)
      (window 0) ∧ ∀ k ∈ unzoomed.inner, unzoomed.isNodeVisible k = true := by
  have hwindow : (window 0).Sound := sound_new _ _ _ _ _ _ _
  have hupToDate : (window 0).UpToDate shares := (sound_single _ _ _ _ _ _).upToDate_computeLayout
  have hlayout : (Layout.step shares (window 0) (.splitRight 1)).UpToDate shares :=
    hwindow.step_upToDate hupToDate trivial rfl
  refine run_ensureUnzoomed shares 0 800 600 1 ⟨0, 0, 0, 0⟩ ⟨⟨0, 0, 0, 0⟩, ⟨0, 0, 0, 0⟩, 0, 0⟩ _ ?_
  exact ⟨⟨nofun, trivial, nofun⟩, ⟨nofun, trivial, fun _ _ => hlayout⟩, ⟨nofun, trivial, nofun⟩,
    ⟨nofun, trivial, nofun⟩, trivial⟩

/-- A panel is selected, and the window resized, while a panel is zoomed. -/
theorem zoom_changes_styles :
    let run (ops : List (Op ℤ ℕ)) := (ops.foldl (Layout.step shares) (window 0)).tree.style
    run [.splitRight 1, .toggleCurrentSplitZoom, .selectSplit .left, .toggleCurrentSplitZoom,
        .moveDividerRight 100] ≠ run [.splitRight 1, .selectSplit .left, .moveDividerRight 100] ∧
      run [.splitRight 1, .toggleCurrentSplitZoom, .resize 400 300, .toggleCurrentSplitZoom] ≠
        run [.splitRight 1, .resize 400 300] := by
  refine ⟨fun h => ?_, fun h => ?_⟩
  · exact absurd (congrFun h 1) (by decide +kernel)
  · exact absurd (congrFun h 0) (by decide +kernel)

end Rio.Layout.ContextGrid
