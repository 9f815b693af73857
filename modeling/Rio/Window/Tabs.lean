import Rio.Window.Manager

/-! The contexts of a window keep routes of their own, whatever is done to its tabs. -/

set_option linter.dupNamespace false

namespace Rio.Window
open Layout

variable {F : Type} {m m' : ContextManager F} {g : ContextGrid F Context}

namespace ContextManager

/-- What holds of the tabs in every state. -/
structure Held (m : ContextManager F) : Prop where
  grids : ∀ g ∈ m.contexts, g.Held
  nodup : (m.vals.map (·.routeId)).Nodup
  fresh : ∀ c ∈ m.vals, c.routeId < m.routeIdCounter
  native : m.isNative = true → m.contexts.length ≤ 1

/-! ### Contexts -/

theorem currentGrid_eq (hi : m.currentIndex < m.contexts.length) :
    m.currentGrid = some m.contexts[m.currentIndex] := List.getElem?_eq_getElem hi

theorem lt_of_currentGrid (h : m.currentGrid = some g) : m.currentIndex < m.contexts.length :=
  (List.getElem?_eq_some_iff.mp h).1

theorem mem_of_currentGrid (h : m.currentGrid = some g) : g ∈ m.contexts :=
  List.mem_of_getElem? h

theorem mem_vals {c : Context} : c ∈ m.vals ↔ ∃ g ∈ m.contexts, c ∈ g.vals := List.mem_flatMap

theorem current_of_currentGrid (h : m.currentGrid = some g) : m.current = g.focused := by
  unfold current
  rw [h]
  rfl

theorem exists_current (hgrids : ∀ g ∈ m.contexts, g.Held)
    (hi : m.currentIndex < m.contexts.length) : ∃ c, m.current = some c ∧ c ∈ m.vals := by
  obtain ⟨c, hc, hmem⟩ := (hgrids _ (List.getElem_mem hi)).focused
  exact ⟨c, (current_of_currentGrid (currentGrid_eq hi)).trans hc,
    mem_vals.mpr ⟨_, List.getElem_mem hi, hmem⟩⟩

/-- The contexts of the other tabs stay when the current tab is changed. -/
theorem vals_modifyCurrentGrid (h : m.currentGrid = some g) : ∃ rest, m.vals.Perm (g.vals ++ rest) ∧
    ∀ f, (m.modifyCurrentGrid f).vals.Perm ((f g).vals ++ rest) := by
  obtain ⟨hi, hg⟩ := List.getElem?_eq_some_iff.mp h
  have hperm (f : ContextGrid F Context → ContextGrid F Context) :
      ((m.contexts.modify m.currentIndex f).flatMap (·.vals)).Perm ((f g).vals ++
        (m.contexts.take m.currentIndex ++ m.contexts.drop (m.currentIndex + 1)).flatMap
          (·.vals)) := by
    rw [List.modify_eq_take_cons_drop hi, hg]
    exact List.perm_middle.flatMap_right _
  refine ⟨_, ?_, hperm⟩
  have hself := hperm id
  rw [List.modify_id] at hself
  exact hself

theorem Held.of_subperm (h : m.Held) (hgrids : ∀ g ∈ m'.contexts, g.Held)
    (hvals : m'.vals.Subperm m.vals) (hcounter : m.routeIdCounter ≤ m'.routeIdCounter)
    (hnative : m'.isNative = true → m'.contexts.length ≤ 1) : m'.Held := by
  obtain ⟨l, hperm, hsub⟩ := hvals
  refine ⟨hgrids, ?_, fun c hc => ?_, hnative⟩
  · exact (hperm.map _).nodup_iff.mp (h.nodup.sublist (hsub.map _))
  · exact (h.fresh c (hsub.subset (hperm.symm.subset hc))).trans_le hcounter

/-- A new context has a route of its own. -/
theorem Held.of_cons (h : m.Held) (context : Context) (hroute : context.routeId = m.routeIdCounter)
    (hgrids : ∀ g ∈ m'.contexts, g.Held) (hvals : m'.vals.Perm (context :: m.vals))
    (hcounter : m'.routeIdCounter = m.routeIdCounter + 1)
    (hnative : m'.isNative = true → m'.contexts.length ≤ 1) : m'.Held := by
  refine ⟨hgrids, ?_, fun c hc => ?_, hnative⟩
  · refine (hvals.map _).nodup_iff.mpr (List.nodup_cons.mpr ⟨fun hmem => ?_, h.nodup⟩)
    obtain ⟨c, hc, heq⟩ := List.mem_map.mp hmem
    exact absurd (h.fresh c hc) (not_lt_of_ge (heq.trans hroute).ge)
  · obtain rfl | hc := List.mem_cons.mp (hvals.subset hc)
    · omega
    · exact (h.fresh c hc).trans (by omega)

/-- Two states with the same tabs, in which another one may be focused. -/
structure SameTabs (m m' : ContextManager F) : Prop where
  contexts : m'.contexts = m.contexts
  isNative : m'.isNative = m.isNative
  routeIdCounter : m'.routeIdCounter = m.routeIdCounter

theorem SameTabs.refl (m : ContextManager F) : m.SameTabs m := ⟨rfl, rfl, rfl⟩

theorem SameTabs.vals (h : m.SameTabs m') : m'.vals = m.vals :=
  congrArg (List.flatMap ContextGrid.vals) h.contexts

theorem SameTabs.held (hm : m.Held) (h : m.SameTabs m') : m'.Held := by
  refine hm.of_subperm ?_ ?_ h.routeIdCounter.ge ?_
  · rw [h.contexts]
    exact hm.grids
  · rw [h.vals]
  · rw [h.isNative, h.contexts]
    exact hm.native

theorem SameTabs.trans {m'' : ContextManager F} (h : m.SameTabs m') (h' : m'.SameTabs m'') :
    m.SameTabs m'' :=
  ⟨h'.contexts.trans h.contexts, h'.isNative.trans h.isNative,
    h'.routeIdCounter.trans h.routeIdCounter⟩

theorem SameTabs.selectRouteFromCurrentGrid (h : m.SameTabs m') :
    m.SameTabs m'.selectRouteFromCurrentGrid := by
  unfold ContextManager.selectRouteFromCurrentGrid
  split
  · exact ⟨h.contexts, h.isNative, h.routeIdCounter⟩
  · exact h

theorem currentIndex_selectRouteFromCurrentGrid (m : ContextManager F) :
    m.selectRouteFromCurrentGrid.currentIndex = m.currentIndex := by
  unfold selectRouteFromCurrentGrid
  split <;> rfl

/-- Another tab is focused. -/
theorem sameTabs_focus (m : ContextManager F) (i : ℕ) :
    m.SameTabs { m with currentIndex := i }.selectRouteFromCurrentGrid :=
  SameTabs.selectRouteFromCurrentGrid ⟨rfl, rfl, rfl⟩

theorem sameTabs_setCurrent (m : ContextManager F) (contextId : ℕ) :
    m.SameTabs (m.setCurrent contextId) := by
  unfold setCurrent
  split
  · exact m.sameTabs_focus contextId
  · exact .refl m

theorem sameTabs_selectTab (m : ContextManager F) (tabIndex : ℕ) :
    m.SameTabs (m.selectTab tabIndex) := by
  unfold selectTab
  split
  · exact .refl m
  · exact m.sameTabs_setCurrent tabIndex

theorem sameTabs_selectLastTab (m : ContextManager F) : m.SameTabs m.selectLastTab := by
  unfold selectLastTab
  split
  · exact .refl m
  · exact m.sameTabs_setCurrent _

theorem sameTabs_switchToNext (m : ContextManager F) : m.SameTabs m.switchToNext := by
  unfold switchToNext
  split
  · exact .refl m
  · exact m.sameTabs_focus m.nextIndex

theorem sameTabs_switchToPrev (m : ContextManager F) : m.SameTabs m.switchToPrev := by
  unfold switchToPrev
  split
  · exact .refl m
  · exact m.sameTabs_focus m.prevIndex

theorem grids_modifyCurrentGrid (hgrids : ∀ g ∈ m.contexts, g.Held)
    {f : ContextGrid F Context → ContextGrid F Context} (hf : ∀ g : ContextGrid F Context, g.Held →
      (f g).Held) : ∀ g ∈ (m.modifyCurrentGrid f).contexts, g.Held := by
  intro g hg
  obtain ⟨i, hi, heq⟩ := List.mem_iff_getElem.mp
    (show g ∈ m.contexts.modify m.currentIndex f from hg)
  rw [← heq, List.getElem_modify]
  split
  · exact hf _ (hgrids _ (List.getElem_mem _))
  · exact hgrids _ (List.getElem_mem _)

theorem length_modifyCurrentGrid (m : ContextManager F)
    (f : ContextGrid F Context → ContextGrid F Context) :
    (m.modifyCurrentGrid f).contexts.length = m.contexts.length := List.length_modify ..

/-- Without a current tab nothing is changed. -/
theorem modifyCurrentGrid_of_none (h : m.currentGrid = none)
    (f : ContextGrid F Context → ContextGrid F Context) : m.modifyCurrentGrid f = m := by
  unfold modifyCurrentGrid
  rw [List.modify_eq_self (List.getElem?_eq_none_iff.mp h)]

theorem Held.modifyCurrentGrid (h : m.Held) {f : ContextGrid F Context → ContextGrid F Context}
    (hf : ContextGrid.Keeps f) : (m.modifyCurrentGrid f).Held := by
  cases hgrid : m.currentGrid with
  | none => exact (modifyCurrentGrid_of_none hgrid f).symm ▸ h
  | some g =>
    obtain ⟨rest, hvals, hmodify⟩ := vals_modifyCurrentGrid hgrid
    refine h.of_subperm (grids_modifyCurrentGrid h.grids fun g hg => (hf g hg).1) ?_ le_rfl ?_
    · have heq := (hf g (h.grids g (mem_of_currentGrid hgrid))).2
      exact (heq ▸ hmodify f).trans hvals.symm |>.subperm
    · rw [length_modifyCurrentGrid]
      exact h.native

/-- The focus moved in the current tab, or nothing changed. -/
theorem selectIn_cases (m : ContextManager F)
    (f : ContextGrid F Context → ContextGrid F Context) :
    m.selectIn f = (true, (m.modifyCurrentGrid f).selectRouteFromCurrentGrid) ∨
      m.selectIn f = (false, m) := by
  unfold selectIn
  cases m.currentGrid with
  | none => exact .inr rfl
  | some g => exact (ite_eq_or_eq _ _ _)

theorem Held.selectIn (h : m.Held) {f : ContextGrid F Context → ContextGrid F Context}
    (hf : ContextGrid.Keeps f) : (m.selectIn f).2.Held := by
  obtain heq | heq := m.selectIn_cases f
  · rw [heq]
    exact (SameTabs.refl _).selectRouteFromCurrentGrid.held (h.modifyCurrentGrid hf)
  · rw [heq]
    exact h

theorem Held.selectRoute {f : ContextGrid F Context → ContextGrid F Context} (h : m.Held)
    (hf : ContextGrid.Keeps f) : (m.modifyCurrentGrid f).selectRouteFromCurrentGrid.Held :=
  (SameTabs.refl _).selectRouteFromCurrentGrid.held (h.modifyCurrentGrid hf)

/-- The tabs left when one is removed. -/
theorem contexts_removeTab (m : ContextManager F) (indexToRemove : ℕ) (losesFocus : Bool) :
    (m.removeTab indexToRemove losesFocus).contexts = m.contexts.eraseIdx indexToRemove ∧
      (m.removeTab indexToRemove losesFocus).isNative = m.isNative ∧
      (m.removeTab indexToRemove losesFocus).routeIdCounter = m.routeIdCounter := by
  have hset (m' : ContextManager F) (i : ℕ) := m'.sameTabs_setCurrent i
  unfold removeTab
  dsimp only
  by_cases hfirst : (losesFocus && decide (1 < indexToRemove)) = true
  · rw [if_pos hfirst]
    split
    · refine ⟨(hset _ 0).contexts.trans ?_, (hset _ 0).isNative.trans ?_,
        (hset _ 0).routeIdCounter.trans ?_⟩
      · exact congrArg (List.eraseIdx · indexToRemove) (hset m _).contexts
      · exact (hset m _).isNative
      · exact (hset m _).routeIdCounter
    · exact ⟨congrArg (List.eraseIdx · indexToRemove) (hset m _).contexts, (hset m _).isNative,
        (hset m _).routeIdCounter⟩
  · rw [if_neg hfirst]
    split
    · exact ⟨(hset _ 0).contexts, (hset _ 0).isNative, (hset _ 0).routeIdCounter⟩
    · exact ⟨rfl, rfl, rfl⟩

theorem Held.of_sublist (h : m.Held) (hsub : m'.contexts.Sublist m.contexts)
    (hnative : m'.isNative = m.isNative) (hcounter : m'.routeIdCounter = m.routeIdCounter) :
    m'.Held :=
  h.of_subperm (fun g hg => h.grids g (hsub.subset hg)) (hsub.flatMap _).subperm hcounter.ge
    fun hm => hsub.length_le.trans (h.native (hnative ▸ hm))

theorem Held.removeTab (h : m.Held) (indexToRemove : ℕ) (losesFocus : Bool) :
    (m.removeTab indexToRemove losesFocus).Held := by
  obtain ⟨hcontexts, hnative, hcounter⟩ := m.contexts_removeTab indexToRemove losesFocus
  exact h.of_sublist (hcontexts ▸ List.eraseIdx_sublist ..) hnative hcounter

theorem perm_flatMap_append (l : List (ContextGrid F Context)) (g : ContextGrid F Context) :
    ((l ++ [g]).flatMap (·.vals)).Perm (g.vals ++ l.flatMap (·.vals)) := by
  rw [List.flatMap_append, List.flatMap_singleton]
  exact List.perm_append_comm

/-- Exchanging two tabs. -/
theorem perm_set_set {α : Type*} {l : List α} {i j : ℕ} {a b : α} (ha : l[i]? = some a)
    (hb : l[j]? = some b) : ((l.set i b).set j a).Perm l := by
  obtain ⟨hi, rfl⟩ := List.getElem?_eq_some_iff.mp ha
  obtain ⟨hj, rfl⟩ := List.getElem?_eq_some_iff.mp hb
  exact List.set_set_perm hi hj

theorem Held.moveCurrentTo (h : m.Held) (targetIndex : ℕ) : (m.moveCurrentTo targetIndex).Held := by
  unfold ContextManager.moveCurrentTo
  split
  · exact h
  · split
    · rename_i current target hcurrent htarget
      have hperm : ((m.contexts.set m.currentIndex target).set targetIndex current).Perm
        m.contexts := perm_set_set hcurrent htarget
      refine SameTabs.held ?_ (sameTabs_selectTab _ _)
      refine h.of_subperm (fun g hg => ?_) ?_ le_rfl ?_
      · exact h.grids g (hperm.subset hg)
      · exact (hperm.flatMap_right _).subperm
      · exact fun hm => hperm.length_eq.trans_le (h.native hm)
    · exact h

theorem Held.closeCurrentContext (h : m.Held) : m.closeCurrentContext.Held := by
  unfold ContextManager.closeCurrentContext
  split
  · exact h
  · exact h.removeTab _ _

theorem Held.closeUnfocusedTabs (h : m.Held) : m.closeUnfocusedTabs.Held := by
  unfold ContextManager.closeUnfocusedTabs
  split
  · refine SameTabs.held ?_ (sameTabs_setCurrent _ _)
    exact h.of_sublist List.filter_sublist rfl rfl
  · exact h

variable [Number F] {taffy : Taffy F}

theorem keeps_moveDivider (taffy : Taffy F) (direction : FocusDirection) (amount : F)
    (g : ContextGrid F Context) (h : g.Held) : ((match direction with
      | .left => (g.moveDividerLeft taffy amount).2
      | .right => (g.moveDividerRight taffy amount).2
      | .up => (g.moveDividerUp taffy amount).2
      | .down => (g.moveDividerDown taffy amount).2) : ContextGrid F Context).Held ∧
    g.SameContexts (match direction with
      | .left => (g.moveDividerLeft taffy amount).2
      | .right => (g.moveDividerRight taffy amount).2
      | .up => (g.moveDividerUp taffy amount).2
      | .down => (g.moveDividerDown taffy amount).2) := by
  cases direction <;> exact ⟨(h.moveDivider ..).toHeld, g.sameContexts_moveDivider ..⟩

theorem Held.moveDivider (h : m.Held) (direction : FocusDirection) (amount : F) :
    (m.moveDivider taffy direction amount).Held :=
  h.modifyCurrentGrid fun g hg =>
    ⟨(keeps_moveDivider taffy direction amount g hg).1,
      (keeps_moveDivider taffy direction amount g hg).2.vals⟩

theorem Held.switchToNextSplitOrTab (h : m.Held) : m.switchToNextSplitOrTab.Held := by
  have hkeeps : ContextGrid.Keeps fun g : ContextGrid F Context => g.selectNextSplitNoLoop :=
    ContextGrid.keeps_of_selects fun g => g.selects_selectNextSplitNoLoop
  unfold ContextManager.switchToNextSplitOrTab
  obtain heq | heq := m.selectIn_cases (·.selectNextSplitNoLoop)
  · rw [heq]
    exact h.selectRoute hkeeps
  · rw [heq]
    exact (m.sameTabs_switchToNext.held h).selectRoute ContextGrid.keeps_selectRoot

theorem Held.switchToPrevSplitOrTab (h : m.Held) : m.switchToPrevSplitOrTab.Held := by
  have hkeeps : ContextGrid.Keeps fun g : ContextGrid F Context => g.selectPrevSplitNoLoop :=
    ContextGrid.keeps_of_selects fun g => g.selects_selectPrevSplitNoLoop
  unfold ContextManager.switchToPrevSplitOrTab
  obtain heq | heq := m.selectIn_cases (·.selectPrevSplitNoLoop)
  · rw [heq]
    exact h.selectRoute hkeeps
  · rw [heq]
    exact (m.sameTabs_switchToPrev.held h).selectRoute
      (ContextGrid.keeps_of_selects fun g => g.selects_selectLast)

theorem Held.addContext (h : m.Held) (redirect spawned : Bool) (richTextId : ℕ) :
    (m.addContext taffy redirect spawned richTextId).Held := by
  unfold ContextManager.addContext
  cases m.currentGrid with
  | none => exact h
  | some g =>
    dsimp only
    cases hnative : m.isNative with
    | true => exact h
    | false =>
      rw [if_neg Bool.false_ne_true]
      by_cases hcapacity : m.contexts.length < m.capacity
      · rw [if_pos hcapacity]
        cases spawned with
        | false =>
          exact h.of_subperm h.grids (.refl _) (Nat.le_succ _) h.native
        | true =>
          have hadd : ({ m with
              contexts := m.contexts ++ [.new taffy ⟨m.routeIdCounter, richTextId⟩ g.width g.height
                g.scale g.scaledMargin m.panel]
              routeIdCounter := m.routeIdCounter + 1 } : ContextManager F).Held := by
            refine h.of_cons ⟨m.routeIdCounter, richTextId⟩ rfl ?_ ?_ rfl ?_
            · intro g' hg'
              obtain hg' | hg' := List.mem_append.mp hg'
              · exact h.grids g' hg'
              · obtain rfl := List.mem_singleton.mp hg'
                exact (ContextGrid.sound_new ..).toHeld
            · have hlast := perm_flatMap_append m.contexts (.new taffy ⟨m.routeIdCounter,
                richTextId⟩ g.width g.height g.scale g.scaledMargin m.panel)
              rw [ContextGrid.vals_new] at hlast
              exact hlast
            · exact fun hm => absurd (hnative.symm.trans hm) Bool.false_ne_true
          cases redirect with
          | false => exact hadd
          | true => exact (sameTabs_focus _ _).held hadd
      · rw [if_neg hcapacity]
        exact h

theorem Held.split (h : m.Held) (splitDown spawned : Bool) (richTextId : ℕ) :
    (m.split taffy splitDown spawned richTextId).Held := by
  unfold ContextManager.split createContext
  cases spawned with
  | false => exact h.of_subperm h.grids (.refl _) (Nat.le_succ _) h.native
  | true =>
    rw [if_pos rfl]
    dsimp only
    have hsplit (direction : FlexDirection) (g : ContextGrid F Context) (hg : g.Held) :=
      hg.vals_split taffy direction ⟨m.routeIdCounter, richTextId⟩
    generalize hf : (fun g : ContextGrid F Context => if splitDown = true then
      g.splitDown taffy ⟨m.routeIdCounter, richTextId⟩ else
      g.splitRight taffy ⟨m.routeIdCounter, richTextId⟩) = f
    have hkeep (g : ContextGrid F Context) (hg : g.Held) : (f g).Held ∧
        (f g).vals = ⟨m.routeIdCounter, richTextId⟩ :: g.vals := by
      subst hf
      cases splitDown with
      | false => exact ⟨(hg.split .row _).toHeld, (hsplit .row g hg).1⟩
      | true => exact ⟨(hg.split .column _).toHeld, (hsplit .column g hg).1⟩
    have hcounter : ({ m with routeIdCounter := m.routeIdCounter + 1 } : ContextManager F).Held :=
      h.of_subperm h.grids (.refl _) (Nat.le_succ _) h.native
    cases hgrid : ({ m with routeIdCounter := m.routeIdCounter + 1 } : ContextManager F).currentGrid with
    | none =>
      rw [modifyCurrentGrid_of_none hgrid]
      exact hcounter.of_subperm h.grids (.refl _) le_rfl h.native
    | some g =>
      obtain ⟨rest, hvals, hmodify⟩ := vals_modifyCurrentGrid hgrid
      refine h.of_cons ⟨m.routeIdCounter, richTextId⟩ rfl
        (grids_modifyCurrentGrid h.grids fun g hg => (hkeep g hg).1) ?_ rfl ?_
      · have hf := hmodify f
        rw [(hkeep g (h.grids g (mem_of_currentGrid hgrid))).2] at hf
        exact hf.trans ((hvals.cons _).symm)
      · change m.isNative = true → (m.contexts.modify m.currentIndex f).length ≤ 1
        rw [List.length_modify]
        exact h.native

theorem Held.removeCurrentGrid (h : m.Held) : (m.removeCurrentGrid taffy).Held := by
  refine (SameTabs.refl _).selectRouteFromCurrentGrid.held ?_
  cases hgrid : m.currentGrid with
  | none => exact (modifyCurrentGrid_of_none hgrid _).symm ▸ h
  | some g =>
    obtain ⟨rest, hvals, hmodify⟩ := vals_modifyCurrentGrid hgrid
    have hg := h.grids g (mem_of_currentGrid hgrid)
    refine h.of_subperm (grids_modifyCurrentGrid h.grids fun g hg => hg.removeCurrent.1.toHeld) ?_
      le_rfl ?_
    · refine ((hmodify _).subperm.trans ?_).trans hvals.symm.subperm
      exact (List.subperm_append_right rest).mpr (hg.subperm_removeCurrent taffy)
    · rw [length_modifyCurrentGrid]
      exact h.native

theorem Held.resizeAllGrids (h : m.Held) (width height : F) :
    (m.resizeAllGrids taffy width height).Held := by
  have hresize := ContextGrid.keeps_resize (C := Context) taffy width height
  refine h.of_subperm (fun g hg => ?_) ?_ le_rfl ?_
  · obtain ⟨a, ha, rfl⟩ := List.mem_map.mp hg
    exact (hresize a (h.grids a ha)).1
  · change ((m.contexts.map fun g => g.resize taffy width height).flatMap (·.vals)).Subperm _
    rw [List.flatMap_map, List.flatMap_congr fun g hg => (hresize g (h.grids g hg)).2]
    exact .refl _
  · change m.isNative = true → (m.contexts.map _).length ≤ 1
    rw [List.length_map]
    exact h.native

theorem Held.shouldCloseContextManager (h : m.Held) (routeId : ℕ) :
    (m.shouldCloseContextManager taffy routeId).2.Held := by
  unfold ContextManager.shouldCloseContextManager
  dsimp only
  split
  · exact h
  · split
    · dsimp only
      split
      · exact h.removeCurrentGrid
      · exact h
    · split
      · exact h.removeTab _ _
      · exact h

theorem held_start (taffy : Taffy F) (spawned : Bool) (routeIdCounter richTextId : ℕ)
    (width height scale : F) (scaledMargin : Sides F) (panel : Panel F) (isNative : Bool) :
    (start taffy spawned (routeIdCounter + 1) 0 richTextId width height scale scaledMargin panel
      isNative).Held := by
  have hnew (context : Context) (width height scale : F) (hroute : context.routeId <
      routeIdCounter + 2) : ({ currentIndex := 0
                               currentRoute := 0
                               contexts := [.new taffy context width height scale scaledMargin panel]
                               capacity := defaultContextCapacity
                               isNative
                               panel
                               routeIdCounter := routeIdCounter + 2 } : ContextManager F).Held := by
    have hvals : [ContextGrid.new taffy context width height scale scaledMargin panel].flatMap
        (·.vals) = [context] := by
      rw [List.flatMap_singleton, ContextGrid.vals_new]
    refine ⟨fun g hg => ?_, ?_, fun c hc => ?_, fun _ => le_rfl⟩
    · obtain rfl := List.mem_singleton.mp hg
      exact (ContextGrid.sound_new ..).toHeld
    · unfold vals
      rw [hvals]
      exact List.nodup_singleton _
    · unfold vals at hc
      rw [hvals] at hc
      exact List.mem_singleton.mp hc ▸ hroute
  unfold start
  cases spawned with
  | false => exact hnew _ _ _ _ (Nat.succ_pos _)
  | true => exact hnew _ _ _ _ (Nat.lt_succ_self _)

end ContextManager

theorem ContextManager.Held.step [Number F] {taffy : Taffy F} (h : m.Held) (op : Op F) : (Window.step taffy m op).Held := by
  unfold Window.step
  split
  · exact h
  · cases op with
    | addContext redirect spawned richTextId => exact h.addContext redirect spawned richTextId
    | split splitDown spawned richTextId => exact h.split splitDown spawned richTextId
    | selectNextSplit =>
      exact h.selectRoute (ContextGrid.keeps_of_selects fun g => g.selects_selectNextSplit)
    | selectPrevSplit =>
      exact h.selectRoute (ContextGrid.keeps_of_selects fun g => g.selects_selectPrevSplit)
    | selectSplit direction =>
      exact h.selectIn (ContextGrid.keeps_of_selects fun g => g.selects_selectSplit direction)
    | selectCurrentBasedOnMouse x y =>
      exact h.selectIn (ContextGrid.keeps_of_selects fun g =>
        g.selects_selectCurrentBasedOnMouse x y)
    | switchToNextSplitOrTab => exact h.switchToNextSplitOrTab
    | switchToPrevSplitOrTab => exact h.switchToPrevSplitOrTab
    | toggleCurrentSplitZoom =>
      exact h.selectRoute (ContextGrid.keeps_toggleCurrentSplitZoom taffy)
    | moveDivider direction amount => exact h.moveDivider direction amount
    | removeCurrentGrid => exact h.removeCurrentGrid
    | resizeAllGrids width height => exact h.resizeAllGrids width height
    | setCurrent contextId => exact (m.sameTabs_setCurrent contextId).held h
    | selectTab tabIndex => exact (m.sameTabs_selectTab tabIndex).held h
    | selectLastTab => exact m.sameTabs_selectLastTab.held h
    | switchToNext => exact m.sameTabs_switchToNext.held h
    | switchToPrev => exact m.sameTabs_switchToPrev.held h
    | moveCurrentToPrev => exact h.moveCurrentTo _
    | moveCurrentToNext => exact h.moveCurrentTo _
    | closeCurrentContext => exact h.closeCurrentContext
    | closeUnfocusedTabs => exact h.closeUnfocusedTabs
    | closeTerminal routeId => exact h.shouldCloseContextManager routeId
    | spawnElsewhere => exact h.of_subperm h.grids (.refl _) (Nat.le_succ _) h.native

end Rio.Window
