import Rio.Window.Focus

/-! Shells that exit on their own, whichever tab they are in. -/

set_option linter.dupNamespace false

namespace Rio.Window
open Layout

variable {F : Type} {m m' : ContextManager F} {g g' : ContextGrid F Context} {c c' : Context}
  {i j r : ℕ}

namespace ContextManager

/-- The contexts with other routes. -/
def others (m : ContextManager F) (r : ℕ) : List Context := m.vals.filter fun c => c.routeId ≠ r

theorem Held.others_eq (h : m.Held) (hperm : m.vals.Perm (c :: m'.vals)) :
    m'.vals.Perm (m.others c.routeId) := h.perm_filter hperm

theorem currentGridLen_eq (h : m.currentGrid = some g) : m.currentGridLen = g.vals.length := by
  unfold currentGridLen
  rw [h, g.length_vals]
  rfl

theorem perm_eraseIdx (hi : m.contexts[i]? = some g) :
    m.vals.Perm (g.vals ++ (m.contexts.eraseIdx i).flatMap (·.vals)) := by
  obtain ⟨hlt, rfl⟩ := List.getElem?_eq_some_iff.mp hi
  have hperm : m.contexts.Perm (m.contexts[i] :: m.contexts.eraseIdx i) :=
    (List.getElem_cons_eraseIdx_perm hlt).symm
  exact hperm.flatMap_right _

/-- A tab with one panel is removed. -/
theorem Held.others_eraseIdx (h : m.Held) (hi : m.contexts[i]? = some g)
    (hvals : g.vals.map (·.routeId) = [r]) (hcontexts : m'.contexts = m.contexts.eraseIdx i) :
    m'.vals.Perm (m.others r) := by
  obtain ⟨c, hc, rfl⟩ := List.map_eq_singleton_iff.mp hvals
  have hperm := perm_eraseIdx hi
  rw [hc] at hperm
  refine h.others_eq (hperm.trans ?_)
  unfold vals
  rw [hcontexts]
  exact .refl _

theorem routeOf_of_focused (h : g.focused = some c) : routeOf g = some c.routeId := by
  unfold routeOf
  rw [h]
  rfl

theorem mem_of_focused (hg : g.Held) (hc : g.focused = some c) : c ∈ g.vals := by
  obtain ⟨c', hc', hmem⟩ := hg.focused
  exact Option.some_inj.mp (hc'.symm.trans hc) ▸ hmem

/-- The focused context is in the current tab. -/
theorem Held.of_current (h : m.Held) (hc : m.current = some c) :
    ∃ g, m.contexts[m.currentIndex]? = some g ∧ g.Held ∧ g.focused = some c ∧ c ∈ g.vals ∧
      c ∈ m.vals := by
  obtain ⟨g, hg, hfocused⟩ := Option.bind_eq_some_iff.mp hc
  have hheld := h.grids g (mem_of_currentGrid hg)
  have hmem := mem_of_focused hheld hfocused
  exact ⟨g, hg, hheld, hfocused, hmem, mem_vals_of_getElem? hg hmem⟩

/-- The focused context of a tab is one of its contexts. -/
theorem exists_of_routeOf (h : m.Held) (hi : m.contexts[i]? = some g) (hr : routeOf g = some r) :
    ∃ c ∈ g.vals, c ∈ m.vals ∧ c.routeId = r := by
  obtain ⟨c, hc, rfl⟩ := Option.map_eq_some_iff.mp hr
  have hmem := mem_of_focused (h.grids g (List.mem_of_getElem? hi)) hc
  exact ⟨c, hmem, mem_vals_of_getElem? hi hmem, rfl⟩

/-- The route in step is not that of a context in another tab. -/
theorem Held.currentRoute_ne (h : m.Held) (hstep : m.InStep) (hi : m.contexts[i]? = some g)
    (hc : c ∈ g.vals) (hne : i ≠ m.currentIndex) : m.currentRoute ≠ c.routeId := by
  intro hsame
  obtain ⟨c', hc', hroute⟩ := Option.map_eq_some_iff.mp hstep
  obtain ⟨g', hgrid, -, -, hcurrent, hmem⟩ := h.of_current hc'
  obtain rfl := h.eq_of_routeId hmem (mem_vals_of_getElem? hi hc) (hroute.trans hsame)
  exact hne (h.index_eq hi hgrid hc hcurrent)

theorem ne_nil_of_lt (hi : i < m.contexts.length) : m.contexts ≠ [] :=
  List.ne_nil_of_length_pos (Nat.zero_lt_of_lt hi)

variable [Number F] {taffy : Taffy F}

/-- The state after the shell of a route exited. -/
def exit (taffy : Taffy F) (m : ContextManager F) (r : ℕ) : ContextManager F :=
  (m.shouldCloseContextManager taffy r).2

/-- Of a tab with several panels only the current one is looked at, and only its focused panel. -/
theorem exit_several (hne : m.contexts ≠ []) (hlen : 1 < m.currentGridLen) (r : ℕ) :
    m.exit taffy r =
      if m.current.map (·.routeId) = some r then m.removeCurrentGrid taffy else m := by
  unfold exit shouldCloseContextManager
  dsimp only
  rw [if_neg (mt List.isEmpty_iff.mp hne), if_pos hlen]

/-- Otherwise the tab that has the route in focus is removed as a whole. -/
theorem exit_single (taffy : Taffy F) (hne : m.contexts ≠ []) (hlen : ¬ 1 < m.currentGridLen) (r : ℕ) :
    (∃ i g, m.contexts[i]? = some g ∧ routeOf g = some r ∧
      m.exit taffy r = m.removeTab i (decide (m.currentRoute = r))) ∨
    (∀ g ∈ m.contexts, routeOf g ≠ some r) ∧ m.exit taffy r = m := by
  unfold exit shouldCloseContextManager
  dsimp only
  rw [if_neg (mt List.isEmpty_iff.mp hne), if_neg hlen]
  cases hfind : m.contexts.findIdx? fun g => decide (routeOf g = some r) with
  | some i =>
    obtain ⟨hi, hroute, -⟩ := List.findIdx?_eq_some_iff_getElem.mp hfind
    exact .inl ⟨i, _, List.getElem?_eq_getElem hi, of_decide_eq_true hroute, rfl⟩
  | none =>
    exact .inr ⟨fun g hg => of_decide_eq_false (List.findIdx?_eq_none_iff.mp hfind g hg), rfl⟩

/-- A route without a context is ignored. -/
theorem Held.exit_of_notMem (h : m.Held) (hr : ∀ c ∈ m.vals, c.routeId ≠ r) :
    m.exit taffy r = m := by
  by_cases hne : m.contexts = []
  · unfold ContextManager.exit ContextManager.shouldCloseContextManager
    dsimp only
    rw [if_pos (List.isEmpty_iff.mpr hne)]
  by_cases hlen : 1 < m.currentGridLen
  · rw [exit_several hne hlen, if_neg]
    intro hroute
    obtain ⟨c, hc, hroute⟩ := Option.map_eq_some_iff.mp hroute
    obtain ⟨g, -, -, -, -, hmem⟩ := h.of_current hc
    exact hr c hmem hroute
  · obtain ⟨i, g, hi, hroute, -⟩ | ⟨-, heq⟩ := exit_single taffy hne hlen r
    · obtain ⟨c, -, hmem, hc⟩ := exists_of_routeOf h hi hroute
      exact absurd hc (hr c hmem)
    · exact heq

/-- The shell of the focused context exits. -/
theorem Held.exit_focused (h : m.Held) (taffy : Taffy F) (hfocus : m.InStep ∨ m.Alone)
    (hr : m.current.map (·.routeId) = some r) : (m.exit taffy r).vals.Perm (m.others r) ∧
      ((m.exit taffy r).contexts ≠ [] → (m.exit taffy r).InStep) := by
  obtain ⟨c, hc, rfl⟩ := Option.map_eq_some_iff.mp hr
  have hi := lt_of_current hc
  have hne := ne_nil_of_lt hi
  obtain ⟨g, hgrid, hheld, hfocused, hcurrent, hmem⟩ := h.of_current hc
  by_cases hlen : 1 < m.currentGridLen
  · rw [exit_several hne hlen, if_pos hr]
    constructor
    · obtain ⟨rest, hvals, hmodify⟩ := vals_modifyCurrentGrid hgrid
      rw [currentGridLen_eq hgrid, ContextGrid.length_vals] at hlen
      obtain ⟨c', hc', hperm⟩ := hheld.vals_removeCurrent taffy hlen
      obtain rfl : c' = c := Option.some_inj.mp (hc'.symm.trans hfocused)
      refine h.others_eq (hvals.trans ((hperm.append_right rest).trans ?_))
      refine ((hmodify _).symm.cons c').trans ?_
      exact .of_eq (congrArg (c' :: ·) (SameTabs.refl _).selectRouteFromCurrentGrid.vals.symm)
    · exact fun _ => inStep_modifyCurrentGrid h hi fun g hg => hg.removeCurrent.1.toHeld
  · obtain ⟨i, g', hindex, hroute, heq⟩ | ⟨hnone, -⟩ := exit_single taffy hne hlen c.routeId
    · obtain ⟨c', hc', hmem', hr'⟩ := exists_of_routeOf h hindex hroute
      obtain rfl := h.eq_of_routeId hmem' hmem hr'
      obtain rfl := h.index_eq hindex hgrid hc' hcurrent
      obtain rfl : g = g' := Option.some_inj.mp (hgrid.symm.trans hindex)
      have hone : g.vals = [c'] := by
        rw [currentGridLen_eq hgrid] at hlen
        obtain ⟨a, ha⟩ := List.length_eq_one_iff.mp
          (le_antisymm (not_lt.mp hlen) (List.length_pos_of_mem hcurrent))
        rw [ha] at hcurrent ⊢
        rw [List.mem_singleton.mp hcurrent]
      rw [heq]
      have hcontexts := m.contexts_removeTab m.currentIndex (decide (m.currentRoute = c'.routeId))
      refine ⟨h.others_eraseIdx hindex (congrArg (List.map (·.routeId)) hone) hcontexts.1,
        fun hleft => ?_⟩
      rw [hcontexts.1] at hleft
      have hmany : 1 < m.contexts.length := by
        have hpos := List.length_pos_iff.mpr hleft
        rw [List.length_eraseIdx_of_lt hi] at hpos
        omega
      obtain hstep | ⟨-, g, hcontexts, -⟩ := hfocus
      · have hsame : m.currentRoute = c'.routeId := Option.some_inj.mp (hstep.symm.trans hr)
        rw [decide_eq_true hsame]
        exact h.inStep_removeTab hi hmany
      · rw [hcontexts] at hmany
        exact absurd hmany (lt_irrefl 1)
    · exact absurd (routeOf_of_focused hfocused) (hnone g (List.mem_of_getElem? hgrid))

/-- The shell of a tab with one panel, after the current tab, exits. -/
theorem Held.exit_later (h : m.Held) (taffy : Taffy F) (hstep : m.InStep) (hlen : ¬ 1 < m.currentGridLen)
    (hlater : m.currentIndex < i) (hi : m.contexts[i]? = some g)
    (hvals : g.vals.map (·.routeId) = [r]) :
    (m.exit taffy r).vals.Perm (m.others r) ∧ m.SameFocus (m.exit taffy r) := by
  have hne := ne_nil_of_lt hstep.lt
  obtain ⟨c, hc, rfl⟩ := List.map_eq_singleton_iff.mp hvals
  have hmem : c ∈ g.vals := hc ▸ List.mem_singleton_self c
  have hroute : routeOf g = some c.routeId := by
    obtain ⟨c', hc', hmem'⟩ := (h.grids g (List.mem_of_getElem? hi)).focused
    rw [hc] at hmem'
    exact List.mem_singleton.mp hmem' ▸ routeOf_of_focused hc'
  obtain ⟨j, g', hj, hroute', heq⟩ | ⟨hnone, -⟩ := exit_single taffy hne hlen c.routeId
  · obtain ⟨c', hc', hmem', hr'⟩ := exists_of_routeOf h hj hroute'
    obtain rfl := h.eq_of_routeId hmem' (mem_vals_of_getElem? hi hmem) hr'
    obtain rfl := h.index_eq hj hi hc' hmem
    rw [heq, decide_eq_false (h.currentRoute_ne hstep hi hmem hlater.ne')]
    exact ⟨h.others_eraseIdx hi hvals (contexts_removeTab ..).1, sameFocus_eraseIdx hlater⟩
  · exact absurd hroute (hnone g (List.mem_of_getElem? hi))

/-- A context that is not focused is removed alone, and the focus stays, only when its tab comes
after the current one and neither has other panels. -/
theorem Held.later_of_exit (h : m.Held) (hfocus : m.InStep ∨ m.Alone) (hc : c ∈ m.vals)
    (hother : m.current.map (·.routeId) ≠ some c.routeId)
    (hremoved : (m.exit taffy c.routeId).vals.Perm (m.others c.routeId))
    (hkept : (m.exit taffy c.routeId).current = m.current) :
    ¬ 1 < m.currentGridLen ∧ ∃ i g, m.currentIndex < i ∧ m.contexts[i]? = some g ∧
      g.vals.map (·.routeId) = [c.routeId] := by
  have hchanged : m.exit taffy c.routeId ≠ m := by
    intro heq
    rw [heq] at hremoved
    exact absurd rfl (of_decide_eq_true (List.mem_filter.mp (hremoved.subset hc)).2)
  have hne : m.contexts ≠ [] := by
    obtain ⟨g, hg, -⟩ := mem_vals.mp hc
    exact List.ne_nil_of_mem hg
  have hlen : ¬ 1 < m.currentGridLen := by
    intro hlen
    rw [exit_several hne hlen, if_neg hother] at hchanged
    exact hchanged rfl
  obtain ⟨i, g, hi, hroute, heq⟩ | ⟨-, heq⟩ := exit_single taffy hne hlen c.routeId
  · obtain ⟨c', hc', hmem, hr'⟩ := exists_of_routeOf h hi hroute
    obtain rfl := h.eq_of_routeId hmem hc hr'
    have hindex : m.currentIndex ≠ i := by
      rintro rfl
      refine hother ?_
      rw [current_of_currentGrid hi]
      exact hroute
    rw [heq] at hremoved hkept
    refine ⟨hlen, i, g, ?_, hi, ?_⟩
    · -- A tab before the current one would have moved it, and the index would point elsewhere.
      by_contra hle
      have hlt : i < m.currentIndex := lt_of_le_of_ne (not_lt.mp hle) hindex.symm
      have hstep : m.InStep := hfocus.resolve_right fun halone => by
        rw [halone.1] at hlt
        exact absurd hlt (Nat.not_lt_zero i)
      rw [decide_eq_false (h.currentRoute_ne hstep hi hc' hindex.symm)] at hkept
      have hnext : (m.contexts.eraseIdx i)[m.currentIndex]? = m.contexts[m.currentIndex + 1]? :=
        List.getElem?_eraseIdx_of_ge hlt.le
      obtain ⟨c, hcurrent, -⟩ := Option.map_eq_some_iff.mp hstep
      obtain ⟨g₁, hg₁, -, -, hmem₁, -⟩ := h.of_current hcurrent
      rw [hcurrent] at hkept
      obtain ⟨g₂, hg₂, hfocused⟩ := Option.bind_eq_some_iff.mp hkept
      have hg₂ : m.contexts[m.currentIndex + 1]? = some g₂ := hnext.symm.trans hg₂
      have hmem₂ := mem_of_focused (h.grids _ (List.mem_of_getElem? hg₂)) hfocused
      exact absurd (h.index_eq hg₂ hg₁ hmem₂ hmem₁) (Nat.succ_ne_self _)
    · -- As many contexts are gone as the tab had.
      have hcount := (perm_eraseIdx hi).length_eq
      have hcount' := hremoved.length_eq
      have hleft := (h.perm_filter (List.perm_cons_erase hc)).length_eq
      have hpos := List.length_pos_of_mem hc
      rw [List.length_erase_of_mem hc] at hleft
      have hvals : (m.removeTab i (decide (m.currentRoute = c'.routeId))).vals =
          (m.contexts.eraseIdx i).flatMap (·.vals) :=
        congrArg (List.flatMap ContextGrid.vals) (contexts_removeTab ..).1
      rw [hvals] at hcount'
      rw [List.length_append] at hcount
      have hone : g.vals.length = 1 := by
        unfold others at hcount'
        omega
      obtain ⟨a, ha⟩ := List.length_eq_one_iff.mp hone
      rw [ha] at hc' ⊢
      rw [List.mem_singleton.mp hc']
      rfl
  · exact absurd heq hchanged

/-! ### Runs -/

/-- What a step has to lead to. -/
structure StepOk (taffy : Taffy F) (m : ContextManager F) (op : Op F) : Prop where
  focused : (Window.step taffy m op).contexts ≠ [] → (Window.step taffy m op).Focused
  removed : ∀ r, op = .closeTerminal r → (Window.step taffy m op).vals.Perm (m.others r)
  kept : (op = .closeUnfocusedTabs ∨
      ∃ r, op = .closeTerminal r ∧ m.current.map (·.routeId) ≠ some r) →
    (Window.step taffy m op).current = m.current

omit [Number F] in
/-- The exit of a shell is noticed and leaves the focus: its context is gone already, it is the
focused one, or it is that of a tab with one panel, after the current tab, which has one as well. -/
def Noticed (m : ContextManager F) (r : ℕ) : Prop :=
  (∀ c ∈ m.vals, c.routeId ≠ r) ∨ m.current.map (·.routeId) = some r ∨
    ¬ 1 < m.currentGridLen ∧ ∃ i g, m.currentIndex < i ∧ m.contexts[i]? = some g ∧
      g.vals.map (·.routeId) = [r]

omit [Number F] in
/-- Until the route is looked up for the first time, it is not that of the focused context. -/
def Permits (m : ContextManager F) (op : Op F) : Prop :=
  m.contexts ≠ [] → (m.InStep ∨ m.Refreshes op) ∧ ∀ r, op = .closeTerminal r → m.Noticed r

omit [Number F] in
/-- The route is in step, unless it was never looked up. -/
structure Inv (m : ContextManager F) : Prop extends m.Held where
  focus : m.contexts ≠ [] → m.InStep ∨ m.Alone

theorem step_of_nil (taffy : Taffy F) (h : m.contexts = []) (op : Op F) : Window.step taffy m op = m :=
  if_pos (List.isEmpty_iff.mpr h)

theorem step_closeTerminal (m : ContextManager F) (r : ℕ) :
    Window.step taffy m (.closeTerminal r) = m.exit taffy r := by
  by_cases h : m.contexts = []
  · rw [step_of_nil taffy h]
    unfold exit shouldCloseContextManager
    dsimp only
    rw [if_pos (List.isEmpty_iff.mpr h)]
  · exact if_neg (mt List.isEmpty_iff.mp h)

theorem Inv.step (h : m.Inv) {op : Op F} (hok : StepOk taffy m op) :
    (Window.step taffy m op).Inv :=
  ⟨h.toHeld.step op, fun hne => .inl (hok.focused hne).route⟩

omit [Number F] in
theorem Inv.lt (h : m.Inv) (hne : m.contexts ≠ []) : m.currentIndex < m.contexts.length := by
  obtain hstep | halone := h.focus hne
  · exact hstep.lt
  · exact halone.lt

omit [Number F] in
/-- The only panel is the focused one. -/
theorem Alone.routeId_ne (halone : m.Alone) (h : m.Held)
    (hr : m.current.map (·.routeId) ≠ some r) : ∀ c ∈ m.vals, c.routeId ≠ r := by
  obtain ⟨c, hcurrent, hmem⟩ := exists_current h.grids halone.lt
  obtain ⟨-, g, hcontexts, hcount⟩ := halone
  have hlen : m.vals.length = 1 := by
    unfold vals
    rw [hcontexts, List.flatMap_singleton, g.length_vals, hcount]
  obtain ⟨a, ha⟩ := List.length_eq_one_iff.mp hlen
  rw [ha] at hmem ⊢
  obtain rfl := List.mem_singleton.mp hmem
  intro c' hc' hroute
  obtain rfl := List.mem_singleton.mp hc'
  rw [hcurrent] at hr
  exact hr (congrArg some hroute)

omit [Number F] in
theorem SameFocus.ne_nil (h : m.SameFocus m') (hc : m.current = some c) : m'.contexts ≠ [] :=
  ne_nil_of_lt (lt_of_current (h.current.trans hc))

theorem Inv.permits_of_stepOk (h : m.Inv) {op : Op F} (hok : StepOk taffy m op) :
    m.Permits op := by
  intro hne
  have hi := h.lt hne
  obtain ⟨c₀, hcurrent, -⟩ := exists_current h.grids hi
  constructor
  · by_contra hstale
    obtain ⟨hstep, hrefresh⟩ := not_or.mp hstale
    have halone := (h.focus hne).resolve_left hstep
    have hsame : m.SameFocus (Window.step taffy m op) := by
      by_cases hop : ∃ r, op = .closeTerminal r
      · obtain ⟨r, rfl⟩ := hop
        rw [step_closeTerminal, h.exit_of_notMem (halone.routeId_ne h.toHeld hrefresh)]
        exact .refl m
      · obtain hsame | hmoved := (h.step_focus hi (not_exists.mp hop)).kept hrefresh
        · exact hsame
        · exact absurd halone hmoved.2
    exact hstep (hsame.inStep_iff.mp (hok.focused (hsame.ne_nil hcurrent)).route)
  · rintro r rfl
    by_cases hr : ∀ c ∈ m.vals, c.routeId ≠ r
    · exact .inl hr
    by_cases hfocused : m.current.map (·.routeId) = some r
    · exact .inr (.inl hfocused)
    simp only [not_forall, not_not] at hr
    obtain ⟨c, hc, rfl⟩ := hr
    have hremoved := hok.removed _ rfl
    have hkept := hok.kept (.inr ⟨_, rfl, hfocused⟩)
    rw [step_closeTerminal] at hremoved hkept
    exact .inr (.inr (h.later_of_exit (h.focus hne) hc hfocused hremoved hkept))

theorem Inv.stepOk_of_permits (h : m.Inv) {op : Op F} (hpermits : m.Permits op) :
    StepOk taffy m op := by
  by_cases hne : m.contexts = []
  · have hvals : m.vals = [] := congrArg (List.flatMap ContextGrid.vals) hne
    have hstep := step_of_nil taffy hne op
    refine ⟨fun hleft => absurd (hstep.symm ▸ hne) hleft, fun r _ => ?_, fun _ => by rw [hstep]⟩
    unfold others
    rw [hstep, hvals]
    exact .refl _
  have hi := h.lt hne
  obtain ⟨hfocus, hexit⟩ := hpermits hne
  by_cases hop : ∃ r, op = .closeTerminal r
  · obtain ⟨r, rfl⟩ := hop
    suffices hexited : (m.exit taffy r).vals.Perm (m.others r) ∧
        ((m.exit taffy r).contexts ≠ [] → (m.exit taffy r).InStep) ∧
        (m.current.map (·.routeId) ≠ some r → (m.exit taffy r).current = m.current) by
      rw [← step_closeTerminal] at hexited
      refine ⟨fun hleft => (hexited.2.1 hleft).focused, fun r' heq => ?_, fun hkept => ?_⟩
      · obtain rfl := Op.closeTerminal.inj heq
        exact hexited.1
      · obtain heq | ⟨r', heq, hr'⟩ := hkept
        · exact absurd heq nofun
        · obtain rfl := Op.closeTerminal.inj heq
          exact hexited.2.2 hr'
    by_cases hr : m.current.map (·.routeId) = some r
    · obtain ⟨hremoved, hstep⟩ := h.exit_focused taffy (h.focus hne) hr
      exact ⟨hremoved, hstep, fun hother => absurd hr hother⟩
    · have hstep : m.InStep := hfocus.resolve_right hr
      obtain hgone | hfocused | ⟨hlen, i, g, hlater, hindex, hvals⟩ := hexit r rfl
      · rw [h.exit_of_notMem hgone]
        unfold others
        rw [Held.filter_of_notMem hgone]
        exact ⟨.refl _, fun _ => hstep, fun _ => rfl⟩
      · exact absurd hfocused hr
      · obtain ⟨hremoved, hsame⟩ := h.exit_later taffy hstep hlen hlater hindex hvals
        exact ⟨hremoved, fun _ => hsame.inStep_iff.mpr hstep, fun _ => hsame.current⟩
  · have hop := not_exists.mp hop
    have hnext : m.FocusOf op (Window.step taffy m op) := h.step_focus hi hop
    have hstep : (Window.step taffy m op).InStep := by
      by_cases hrefresh : m.Refreshes op
      · exact hnext.refreshed hrefresh
      · obtain hsame | hmoved := hnext.kept hrefresh
        · exact hsame.inStep_iff.mpr (hfocus.resolve_right hrefresh)
        · exact hmoved.1
    refine ⟨fun _ => hstep.focused, fun r heq => absurd heq (hop r), fun hkept => ?_⟩
    obtain rfl | ⟨r, heq, -⟩ := hkept
    · exact (congrArg current (if_neg (mt List.isEmpty_iff.mp hne))).trans
        (h.closeUnfocusedTabs_focus hi).2
    · exact absurd heq (hop r)

theorem inv_start (taffy : Taffy F) (spawned : Bool) (routeIdCounter richTextId : ℕ)
    (width height scale : F) (scaledMargin : Sides F) (panel : Panel F) (isNative : Bool) :
    (start taffy spawned (routeIdCounter + 1) 0 richTextId width height scale scaledMargin panel
      isNative).Inv := by
  refine ⟨held_start .., fun _ => .inr ⟨rfl, _, rfl, ?_⟩⟩
  split <;> rw [← ContextGrid.length_vals, ContextGrid.vals_new] <;> rfl

theorem current_start (taffy : Taffy F) (spawned : Bool) (routeIdCounter richTextId : ℕ)
    (width height scale : F) (scaledMargin : Sides F) (panel : Panel F) (isNative : Bool) :
    (start taffy spawned routeIdCounter 0 richTextId width height scale scaledMargin panel
      isNative).current =
        some (if spawned then ⟨routeIdCounter, richTextId⟩ else ⟨0, 0⟩) := by
  unfold start current
  cases spawned with
  | false => exact ContextGrid.focused_new taffy _ 0 0 1 scaledMargin panel
  | true => exact ContextGrid.focused_new taffy _ width height scale scaledMargin panel

/-- At the start the route is that of the focused context only when no shell could be spawned. In a
run the focus is where it should be, and exactly the contexts of exited shells are removed, as long
as the route has been looked up and every exit is noticed. -/
theorem run_focused_iff (taffy : Taffy F) (spawned : Bool) (routeIdCounter richTextId : ℕ)
    (width height scale : F) (scaledMargin : Sides F) (panel : Panel F) (isNative : Bool)
    (ops : List (Op F)) :
    let m := start taffy spawned (routeIdCounter + 1) 0 richTextId width height scale scaledMargin
      panel isNative
    (m.Focused ↔ spawned = false) ∧ (Runs.Permitted (Window.step taffy) (StepOk taffy) m ops ↔
      Runs.Permitted (Window.step taffy) Permits m ops) := by
  refine ⟨⟨fun h => ?_, fun h => ?_⟩, Runs.permitted_congr (p := fun _ => True) (I := Inv)
    (fun m op hm _ hok => hm.step hok)
    (fun m op hm _ => ⟨hm.permits_of_stepOk, hm.stepOk_of_permits⟩) ops _ (fun _ _ => trivial)
    (inv_start ..)⟩
  · cases spawned with
    | false => rfl
    | true =>
      have hroute := h.route
      unfold InStep at hroute
      rw [current_start] at hroute
      exact absurd (Option.some_inj.mp hroute) (Nat.succ_ne_zero _)
  · subst h
    refine InStep.focused ?_
    unfold InStep
    rw [current_start]
    rfl

/-- The shell of the first tab exits while the second one is focused: no tab is current. -/
theorem exit_loses_focus :
    let m := [Op.addContext true true 1, .closeTerminal 1].foldl (Window.step shares) firstWindow
    m.contexts.length = 1 ∧ ¬ m.Focused :=
  ⟨by decide +kernel, fun h => absurd h.index (by decide +kernel)⟩

end ContextManager

end Rio.Window
