import Rio.Window.Tabs

/-! The focus of a window: the current tab, its focused panel, and the route that goes with them. -/

set_option linter.dupNamespace false

namespace Rio.Window
open Layout

variable {F : Type} {m m' : ContextManager F} {g g' : ContextGrid F Context} {c c' : Context}
  {i j : ℕ}

namespace ContextManager

/-- The route is that of the focused context. -/
def InStep (m : ContextManager F) : Prop := m.current.map (·.routeId) = some m.currentRoute

/-- The current tab exists, and the route is that of its focused context. -/
structure Focused (m : ContextManager F) : Prop where
  index : m.currentIndex < m.contexts.length
  route : m.InStep

/-- One tab with one panel. -/
def Alone (m : ContextManager F) : Prop := m.currentIndex = 0 ∧ ∃ g, m.contexts = [g] ∧ g.panelCount = 1

/-- Two states with the same focus. -/
structure SameFocus (m m' : ContextManager F) : Prop where
  current : m'.current = m.current
  currentRoute : m'.currentRoute = m.currentRoute

theorem SameFocus.refl (m : ContextManager F) : m.SameFocus m := ⟨rfl, rfl⟩

theorem SameFocus.inStep_iff (h : m.SameFocus m') : m'.InStep ↔ m.InStep := by
  unfold InStep
  rw [h.current, h.currentRoute]

theorem lt_of_current (h : m.current = some c) : m.currentIndex < m.contexts.length := by
  obtain ⟨g, hg, -⟩ := Option.bind_eq_some_iff.mp h
  exact lt_of_currentGrid hg

theorem InStep.lt (h : m.InStep) : m.currentIndex < m.contexts.length := by
  obtain ⟨c, hc, -⟩ := Option.map_eq_some_iff.mp h
  exact lt_of_current hc

theorem InStep.focused (h : m.InStep) : m.Focused := ⟨h.lt, h⟩

/-! ### Routes -/

theorem Held.eq_of_routeId (h : m.Held) (hc : c ∈ m.vals) (hc' : c' ∈ m.vals)
    (hroute : c.routeId = c'.routeId) : c = c' :=
  List.inj_on_of_nodup_map h.nodup hc hc' hroute

theorem Held.pairwise (h : m.Held) :
    m.contexts.Pairwise fun g g' => List.Disjoint g.vals g'.vals :=
  (List.nodup_flatMap.mp (List.Nodup.of_map _ h.nodup)).2

/-- A context is in one tab. -/
theorem Held.index_eq (h : m.Held) (hi : m.contexts[i]? = some g) (hj : m.contexts[j]? = some g')
    (hc : c ∈ g.vals) (hc' : c ∈ g'.vals) : i = j := by
  obtain ⟨hilt, rfl⟩ := List.getElem?_eq_some_iff.mp hi
  obtain ⟨hjlt, rfl⟩ := List.getElem?_eq_some_iff.mp hj
  have hpairs := List.pairwise_iff_getElem.mp h.pairwise
  obtain hlt | heq | hlt := Nat.lt_trichotomy i j
  · exact absurd hc' (hpairs i j hilt hjlt hlt hc)
  · exact heq
  · exact absurd hc (hpairs j i hjlt hilt hlt hc')

theorem mem_vals_of_getElem? (hi : m.contexts[i]? = some g) (hc : c ∈ g.vals) : c ∈ m.vals :=
  mem_vals.mpr ⟨g, List.mem_of_getElem? hi, hc⟩

/-- When one context is taken out, those with other routes are left. -/
theorem Held.perm_filter (h : m.Held) {l : List Context} (hperm : m.vals.Perm (c :: l)) :
    l.Perm (m.vals.filter fun c' => c'.routeId ≠ c.routeId) := by
  have hnodup := (hperm.map (·.routeId)).nodup_iff.mp h.nodup
  have hfilter := hperm.filter fun c' => c'.routeId ≠ c.routeId
  have hothers : l.filter (fun c' => decide (c'.routeId ≠ c.routeId)) = l := by
    refine List.filter_eq_self.mpr fun c' hc' => decide_eq_true fun heq => ?_
    have hmem : c'.routeId ∈ l.map (·.routeId) := List.mem_map_of_mem hc'
    rw [heq] at hmem
    exact (List.nodup_cons.mp hnodup).1 hmem
  rw [List.filter_cons_of_neg (by simp), hothers] at hfilter
  exact hfilter.symm

theorem Held.filter_of_notMem {r : ℕ} (hr : ∀ c ∈ m.vals, c.routeId ≠ r) :
    m.vals.filter (fun c => c.routeId ≠ r) = m.vals :=
  List.filter_eq_self.mpr fun c hc => decide_eq_true (hr c hc)

/-! ### The focus after each operation -/

theorem inStep_selectRoute (hgrids : ∀ g ∈ m.contexts, g.Held)
    (hi : m.currentIndex < m.contexts.length) : m.selectRouteFromCurrentGrid.InStep := by
  obtain ⟨c, hc, -⟩ := exists_current hgrids hi
  unfold selectRouteFromCurrentGrid
  rw [hc]
  exact congrArg (Option.map (·.routeId)) hc

theorem inStep_setCurrent (hgrids : ∀ g ∈ m.contexts, g.Held) (hi : i < m.contexts.length) :
    (m.setCurrent i).InStep := by
  unfold setCurrent
  rw [if_pos hi]
  exact inStep_selectRoute hgrids hi

theorem inStep_modifyCurrentGrid (h : m.Held) (hi : m.currentIndex < m.contexts.length)
    {f : ContextGrid F Context → ContextGrid F Context} (hf : ∀ g, g.Held → (f g).Held) :
    (m.modifyCurrentGrid f).selectRouteFromCurrentGrid.InStep :=
  inStep_selectRoute (grids_modifyCurrentGrid h.grids hf) ((length_modifyCurrentGrid m f).symm ▸ hi)

theorem currentGrid_modifyCurrentGrid (m : ContextManager F)
    (f : ContextGrid F Context → ContextGrid F Context) :
    (m.modifyCurrentGrid f).currentGrid = m.currentGrid.map f := List.getElem?_modify_eq ..

theorem sameFocus_modifyCurrentGrid {f : ContextGrid F Context → ContextGrid F Context}
    (hf : ∀ g, m.currentGrid = some g → (f g).focused = g.focused) :
    m.SameFocus (m.modifyCurrentGrid f) := by
  refine ⟨?_, rfl⟩
  unfold current
  rw [currentGrid_modifyCurrentGrid]
  cases hgrid : m.currentGrid with
  | none => rfl
  | some g => exact hf g hgrid

theorem Alone.lt (h : m.Alone) : m.currentIndex < m.contexts.length := by
  obtain ⟨hindex, g, hcontexts, -⟩ := h
  rw [hindex, hcontexts]
  exact Nat.zero_lt_one

theorem sameFocus_eraseIdx (hi : m.currentIndex < i) :
    m.SameFocus { m with contexts := m.contexts.eraseIdx i } := by
  refine ⟨?_, rfl⟩
  unfold current currentGrid
  dsimp only
  rw [List.getElem?_eraseIdx_of_lt hi]

/-- The tab that gets the focus when another one is removed is focused. -/
theorem Held.inStep_removeTab (h : m.Held) (hi : i < m.contexts.length)
    (hlen : 1 < m.contexts.length) : (m.removeTab i true).InStep := by
  unfold ContextManager.removeTab
  dsimp only
  by_cases hfirst : 1 < i
  · have hset : (m.setCurrent (i - 1)).currentIndex = i - 1 := by
      unfold setCurrent
      rw [if_pos (by omega), currentIndex_selectRouteFromCurrentGrid]
    rw [decide_eq_true hfirst, Bool.and_self, if_pos rfl, Bool.not_true, Bool.and_false,
      if_neg Bool.false_ne_true]
    refine (sameFocus_eraseIdx ?_).inStep_iff.mpr (inStep_setCurrent h.grids (by omega))
    omega
  · rw [decide_eq_false hfirst, Bool.and_false, if_neg Bool.false_ne_true, Bool.not_false,
      Bool.and_self, if_pos rfl]
    refine inStep_setCurrent (fun g hg => h.grids g ((List.eraseIdx_sublist ..).subset hg)) ?_
    change 0 < (m.contexts.eraseIdx i).length
    rw [List.length_eraseIdx_of_lt hi]
    omega

theorem nextIndex_lt (hi : m.currentIndex < m.contexts.length) : m.nextIndex < m.contexts.length := by
  unfold nextIndex
  split <;> omega

theorem prevIndex_lt (hi : m.currentIndex < m.contexts.length) : m.prevIndex < m.contexts.length := by
  unfold prevIndex
  split <;> omega

theorem switchToNext_lt (hi : m.currentIndex < m.contexts.length) :
    m.switchToNext.currentIndex < m.switchToNext.contexts.length := by
  rw [m.sameTabs_switchToNext.contexts]
  unfold switchToNext
  split
  · exact hi
  · rw [currentIndex_selectRouteFromCurrentGrid]
    exact nextIndex_lt hi

theorem switchToPrev_lt (hi : m.currentIndex < m.contexts.length) :
    m.switchToPrev.currentIndex < m.switchToPrev.contexts.length := by
  rw [m.sameTabs_switchToPrev.contexts]
  unfold switchToPrev
  split
  · exact hi
  · rw [currentIndex_selectRouteFromCurrentGrid]
    exact prevIndex_lt hi

/-- The operations that look up the route of the focused context anew. -/
def Refreshes (m : ContextManager F) : Op F → Prop
  | .addContext redirect spawned _ =>
    m.isNative = false ∧ m.contexts.length < m.capacity ∧ redirect = true ∧ spawned = true
  | .split _ spawned _ => spawned = true
  | .setCurrent contextId => contextId < m.contexts.length
  | .selectTab tabIndex => m.isNative = false ∧ tabIndex < m.contexts.length
  | .selectLastTab | .switchToNext | .switchToPrev => m.isNative = false
  | .moveCurrentToPrev | .moveCurrentToNext | .closeCurrentContext => 1 < m.contexts.length
  | .closeTerminal routeId => m.current.map (·.routeId) = some routeId
  | .selectSplit _ | .selectCurrentBasedOnMouse _ _ | .moveDivider _ _ | .resizeAllGrids _ _
  | .spawnElsewhere => False
  | .selectNextSplit | .selectPrevSplit | .switchToNextSplitOrTab | .switchToPrevSplitOrTab
  | .toggleCurrentSplitZoom | .removeCurrentGrid | .closeUnfocusedTabs => True

/-- What an operation does to the focus: the route is looked up, or both are left as they were. -/
structure FocusOf (m : ContextManager F) (op : Op F) (m' : ContextManager F) : Prop where
  refreshed : m.Refreshes op → m'.InStep
  kept : ¬ m.Refreshes op → m.SameFocus m' ∨ m'.InStep ∧ ¬ m.Alone

theorem FocusOf.of_inStep {op : Op F} (h : m'.InStep) (hop : m.Refreshes op) : m.FocusOf op m' :=
  ⟨fun _ => h, fun hnot => absurd hop hnot⟩

theorem FocusOf.of_sameFocus {op : Op F} (h : m.SameFocus m') (hop : ¬ m.Refreshes op) :
    m.FocusOf op m' := ⟨fun hrefresh => absurd hrefresh hop, fun _ => .inl h⟩

theorem Held.focusOf_selectIn (h : m.Held) (hi : m.currentIndex < m.contexts.length)
    {f : ContextGrid F Context → ContextGrid F Context} (hf : ContextGrid.Keeps f)
    (hone : ∀ g, g.panelCount = 1 → f g = g) {op : Op F} (hop : ¬ m.Refreshes op) :
    m.FocusOf op (m.selectIn f).2 := by
  obtain heq | heq := m.selectIn_cases f
  · rw [heq]
    refine ⟨fun hrefresh => absurd hrefresh hop, fun _ => ?_⟩
    by_cases halone : m.Alone
    · -- A single panel stays the focused one, so that nothing is said to have changed.
      obtain ⟨hindex, g, hcontexts, hcount⟩ := halone
      have hgrid : m.currentGrid = some g := by
        unfold currentGrid
        rw [hindex, hcontexts]
        rfl
      have hfalse : m.selectIn f = (false, m) := by
        unfold ContextManager.selectIn
        rw [hgrid]
        dsimp only
        rw [hone g hcount, if_neg (not_not.mpr rfl)]
      exact absurd (congrArg Prod.fst (heq.symm.trans hfalse)) nofun
    · exact .inr ⟨inStep_modifyCurrentGrid h hi fun g hg => (hf g hg).1, halone⟩
  · rw [heq]
    exact .of_sameFocus (.refl m) hop

theorem visiblePanelCount_le (g : ContextGrid F Context) : g.visiblePanelCount ≤ g.panelCount :=
  List.length_filter_le ..

theorem Held.inStep_moveCurrentTo (h : m.Held) (hi : m.currentIndex < m.contexts.length)
    (hj : j < m.contexts.length) (hlen : 1 < m.contexts.length) : (m.moveCurrentTo j).InStep := by
  have hnative : m.isNative = false :=
    Bool.eq_false_of_not_eq_true fun hnative => absurd (h.native hnative) (by omega)
  have hswapped : ((m.contexts.set m.currentIndex m.contexts[j]).set j
      m.contexts[m.currentIndex]).Perm m.contexts := List.set_set_perm hi hj
  unfold ContextManager.moveCurrentTo selectTab
  rw [if_neg (by omega), currentGrid_eq hi, List.getElem?_eq_getElem hj]
  dsimp only
  rw [hnative, if_neg Bool.false_ne_true]
  refine inStep_setCurrent (fun g hg => h.grids g (hswapped.subset hg)) ?_
  exact hj.trans_eq hswapped.length_eq.symm

/-- The focused tab is the only one left. -/
theorem Held.closeUnfocusedTabs_focus (h : m.Held) (hi : m.currentIndex < m.contexts.length) :
    m.closeUnfocusedTabs.InStep ∧ m.closeUnfocusedTabs.current = m.current := by
  obtain ⟨c, hc, hmem⟩ := exists_current h.grids hi
  have hroute : routeOf m.contexts[m.currentIndex] = some c.routeId := by
    unfold routeOf
    rw [← current_of_currentGrid (currentGrid_eq hi), hc]
    rfl
  have hpos : 0 < (m.contexts.filter fun g => routeOf g = some c.routeId).length :=
    List.length_pos_of_mem (List.mem_filter.mpr ⟨List.getElem_mem hi, decide_eq_true hroute⟩)
  unfold ContextManager.closeUnfocusedTabs
  rw [hc]
  dsimp only
  generalize hleft : m.contexts.filter (fun g => decide (routeOf g = some c.routeId)) = left at hpos
  have hsub : left.Sublist m.contexts := hleft ▸ List.filter_sublist
  have hstep : (({ m with contexts := left } : ContextManager F).setCurrent 0).InStep :=
    inStep_setCurrent (fun g hg => h.grids g (hsub.subset hg)) hpos
  refine ⟨hstep, ?_⟩
  have hfirst : (({ m with contexts := left } : ContextManager F).setCurrent 0).currentGrid =
      some left[0] := by
    unfold setCurrent currentGrid
    rw [if_pos hpos, currentIndex_selectRouteFromCurrentGrid, (sameTabs_focus _ 0).contexts]
    exact List.getElem?_eq_getElem hpos
  have hleftmem : left[0] ∈ m.contexts.filter fun g => routeOf g = some c.routeId :=
    hleft ▸ List.getElem_mem hpos
  obtain ⟨hold, hsame⟩ := List.mem_filter.mp hleftmem
  obtain ⟨c', hc', hmem'⟩ := (h.grids _ hold).focused
  have hsame : routeOf left[0] = some c.routeId := of_decide_eq_true hsame
  unfold routeOf at hsame
  rw [hc'] at hsame
  rw [current_of_currentGrid hfirst, hc', h.eq_of_routeId (mem_vals.mpr ⟨_, hold, hmem'⟩) hmem
    (Option.some_inj.mp hsame)]

theorem FocusOf.of_eq {op : Op F} (heq : m' = m) (hop : ¬ m.Refreshes op) : m.FocusOf op m' :=
  .of_sameFocus (heq ▸ .refl m) hop

theorem focusOf_selectTab (h : m.Held) {tabIndex : ℕ} :
    m.FocusOf (.selectTab tabIndex) (m.selectTab tabIndex) := by
  unfold selectTab setCurrent
  cases hnative : m.isNative with
  | true => exact .of_sameFocus (.refl m) fun hop => absurd (hnative.symm.trans hop.1) nofun
  | false =>
    rw [if_neg Bool.false_ne_true]
    by_cases hlt : tabIndex < m.contexts.length
    · rw [if_pos hlt]
      exact .of_inStep (inStep_selectRoute h.grids hlt) ⟨hnative, hlt⟩
    · rw [if_neg hlt]
      exact .of_sameFocus (.refl m) fun hop => hlt hop.2

theorem focusOf_selectLastTab (h : m.Held) (hi : m.currentIndex < m.contexts.length) :
    m.FocusOf .selectLastTab m.selectLastTab := by
  unfold selectLastTab
  cases hnative : m.isNative with
  | true => exact .of_sameFocus (.refl m) fun hop => absurd (hnative.symm.trans hop) nofun
  | false =>
    rw [if_neg Bool.false_ne_true]
    exact .of_inStep (inStep_setCurrent h.grids (by omega)) hnative

theorem focusOf_switch (h : m.Held) (hi : i < m.contexts.length) {op : Op F}
    (hop : m.Refreshes op ↔ m.isNative = false) : m.FocusOf op
      (if m.isNative then m else { m with currentIndex := i }.selectRouteFromCurrentGrid) := by
  cases hnative : m.isNative with
  | true =>
    exact .of_sameFocus (.refl m) fun hrefresh => absurd (hnative.symm.trans (hop.mp hrefresh)) nofun
  | false => exact .of_inStep (inStep_selectRoute h.grids hi) (hop.mpr hnative)

variable [Number F] {taffy : Taffy F}

theorem focusOf_addContext (h : m.Held) (hi : m.currentIndex < m.contexts.length)
    (redirect spawned : Bool) (richTextId : ℕ) : m.FocusOf (.addContext redirect spawned richTextId)
      (m.addContext taffy redirect spawned richTextId) := by
  unfold addContext
  rw [currentGrid_eq hi]
  dsimp only
  cases hnative : m.isNative with
  | true => exact .of_sameFocus (.refl m) fun hop => absurd (hnative.symm.trans hop.1) nofun
  | false =>
    rw [if_neg Bool.false_ne_true]
    by_cases hcapacity : m.contexts.length < m.capacity
    · rw [if_pos hcapacity]
      cases spawned with
      | false => exact .of_sameFocus ⟨rfl, rfl⟩ fun hop => absurd hop.2.2.2 nofun
      | true =>
        cases redirect with
        | false =>
          refine .of_sameFocus ⟨?_, rfl⟩ fun hop => absurd hop.2.2.1 nofun
          unfold current currentGrid
          exact congrArg (Option.bind · ContextGrid.focused) (List.getElem?_append_left hi)
        | true =>
          refine .of_inStep (inStep_selectRoute ?_ ?_) ⟨hnative, hcapacity, rfl, rfl⟩
          · intro g hg
            obtain hg | hg := List.mem_append.mp hg
            · exact h.grids g hg
            · obtain rfl := List.mem_singleton.mp hg
              exact (ContextGrid.sound_new ..).toHeld
          · change m.contexts.length < (m.contexts ++ [_]).length
            rw [List.length_append]
            exact Nat.lt_succ_self _
    · rw [if_neg hcapacity]
      exact .of_sameFocus (.refl m) fun hop => hcapacity hop.2.1

theorem focusOf_split (h : m.Held) (hi : m.currentIndex < m.contexts.length)
    (splitDown spawned : Bool) (richTextId : ℕ) : m.FocusOf (.split splitDown spawned richTextId)
      (m.split taffy splitDown spawned richTextId) := by
  unfold split createContext
  cases spawned with
  | false => exact .of_sameFocus ⟨rfl, rfl⟩ Bool.false_ne_true
  | true =>
    refine .of_inStep ?_ rfl
    have hgrid := currentGrid_eq hi
    have hg := h.grids _ (List.getElem_mem hi)
    have hsplit (direction : FlexDirection) :=
      (hg.vals_split taffy direction ⟨m.routeIdCounter, richTextId⟩).2
    rw [if_pos rfl]
    unfold InStep current
    dsimp only
    have hmodify (f : ContextGrid F Context → ContextGrid F Context) :
        ({ ({ m with routeIdCounter := m.routeIdCounter + 1 } :
          ContextManager F).modifyCurrentGrid f with
            currentRoute := m.routeIdCounter } : ContextManager F).currentGrid =
          m.currentGrid.map f := currentGrid_modifyCurrentGrid m f
    rw [hmodify, hgrid]
    cases splitDown with
    | false => exact congrArg (Option.map (·.routeId)) (hsplit .row)
    | true => exact congrArg (Option.map (·.routeId)) (hsplit .column)

theorem sameFocus_resizeAllGrids (m : ContextManager F) (width height : F) :
    m.SameFocus (m.resizeAllGrids taffy width height) := by
  refine ⟨?_, rfl⟩
  unfold current currentGrid resizeAllGrids
  dsimp only
  rw [List.getElem?_map]
  cases hgrid : m.contexts[m.currentIndex]? with
  | none => rfl
  | some g =>
    refine ContextGrid.SameContexts.focused ⟨ContextGrid.contexts_computeLayout _, rfl⟩

/-- Operations other than the exit of a shell. -/
theorem Held.step_focus (h : m.Held) (hi : m.currentIndex < m.contexts.length) {op : Op F}
    (hop : ∀ r, op ≠ .closeTerminal r) : m.FocusOf op (Window.step taffy m op) := by
  have hne : ¬ m.contexts.isEmpty = true := by
    rw [List.isEmpty_iff_length_eq_zero]
    omega
  have hroute {f : ContextGrid F Context → ContextGrid F Context} (hf : ContextGrid.Keeps f) :
      (m.modifyCurrentGrid f).selectRouteFromCurrentGrid.InStep :=
    inStep_modifyCurrentGrid h hi fun g hg => (hf g hg).1
  have hone (g : ContextGrid F Context) (hcount : g.panelCount = 1) : g.visiblePanelCount ≤ 1 :=
    (visiblePanelCount_le g).trans_eq hcount
  unfold Window.step
  rw [if_neg hne]
  cases op with
  | addContext redirect spawned richTextId => exact focusOf_addContext h hi _ _ _
  | split splitDown spawned richTextId => exact focusOf_split h hi _ _ _
  | selectNextSplit =>
    exact .of_inStep (hroute (ContextGrid.keeps_of_selects fun g => g.selects_selectNextSplit))
      trivial
  | selectPrevSplit =>
    exact .of_inStep (hroute (ContextGrid.keeps_of_selects fun g => g.selects_selectPrevSplit))
      trivial
  | selectSplit direction =>
    exact h.focusOf_selectIn hi (ContextGrid.keeps_of_selects fun g => g.selects_selectSplit _)
      (fun g hcount => if_pos (hone g hcount)) id
  | selectCurrentBasedOnMouse x y =>
    exact h.focusOf_selectIn hi
      (ContextGrid.keeps_of_selects fun g => g.selects_selectCurrentBasedOnMouse x y)
      (fun g hcount => if_pos (hone g hcount)) id
  | switchToNextSplitOrTab =>
    refine .of_inStep ?_ trivial
    unfold ContextManager.switchToNextSplitOrTab
    obtain heq | heq := m.selectIn_cases (·.selectNextSplitNoLoop)
    · rw [heq]
      exact hroute (ContextGrid.keeps_of_selects fun g => g.selects_selectNextSplitNoLoop)
    · rw [heq]
      exact inStep_modifyCurrentGrid (m.sameTabs_switchToNext.held h) (switchToNext_lt hi)
        fun g hg => hg.selectRoot
  | switchToPrevSplitOrTab =>
    refine .of_inStep ?_ trivial
    unfold ContextManager.switchToPrevSplitOrTab
    obtain heq | heq := m.selectIn_cases (·.selectPrevSplitNoLoop)
    · rw [heq]
      exact hroute (ContextGrid.keeps_of_selects fun g => g.selects_selectPrevSplitNoLoop)
    · rw [heq]
      exact inStep_modifyCurrentGrid (m.sameTabs_switchToPrev.held h) (switchToPrev_lt hi)
        fun g hg => hg.selects g.selects_selectLast
  | toggleCurrentSplitZoom =>
    exact .of_inStep (hroute (ContextGrid.keeps_toggleCurrentSplitZoom taffy)) trivial
  | moveDivider direction amount =>
    refine .of_sameFocus (sameFocus_modifyCurrentGrid fun g hg => ?_) id
    exact (keeps_moveDivider taffy direction amount g (h.grids g (mem_of_currentGrid hg))).2.focused
  | removeCurrentGrid =>
    exact .of_inStep (inStep_modifyCurrentGrid h hi fun g hg => hg.removeCurrent.1.toHeld) trivial
  | resizeAllGrids width height => exact .of_sameFocus (m.sameFocus_resizeAllGrids _ _) id
  | setCurrent contextId =>
    by_cases hlt : contextId < m.contexts.length
    · exact .of_inStep (inStep_setCurrent h.grids hlt) hlt
    · exact .of_eq (if_neg hlt) hlt
  | selectTab tabIndex => exact focusOf_selectTab h
  | selectLastTab => exact focusOf_selectLastTab h hi
  | switchToNext => exact focusOf_switch h (nextIndex_lt hi) Iff.rfl
  | switchToPrev => exact focusOf_switch h (prevIndex_lt hi) Iff.rfl
  | moveCurrentToPrev =>
    by_cases hlen : 1 < m.contexts.length
    · exact .of_inStep (h.inStep_moveCurrentTo hi (prevIndex_lt hi) hlen) hlen
    · exact .of_eq (if_pos (not_lt.mp hlen)) hlen
  | moveCurrentToNext =>
    by_cases hlen : 1 < m.contexts.length
    · exact .of_inStep (h.inStep_moveCurrentTo hi (nextIndex_lt hi) hlen) hlen
    · exact .of_eq (if_pos (not_lt.mp hlen)) hlen
  | closeCurrentContext =>
    by_cases hlen : m.contexts.length = 1
    · exact .of_eq (if_pos hlen) (not_lt_of_ge hlen.le)
    · refine .of_inStep ?_ (show 1 < m.contexts.length by omega)
      unfold ContextManager.closeCurrentContext
      rw [if_neg hlen]
      exact h.inStep_removeTab hi (by omega)
  | closeUnfocusedTabs => exact .of_inStep (h.closeUnfocusedTabs_focus hi).1 trivial
  | closeTerminal routeId => exact absurd rfl (hop routeId)
  | spawnElsewhere => exact .of_sameFocus ⟨rfl, rfl⟩ id

end ContextManager

end Rio.Window
