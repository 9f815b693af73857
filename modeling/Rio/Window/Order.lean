import Rio.Window.Exits

/-! The order of the tabs: which tab after an operation continues which one before it. -/

set_option linter.dupNamespace false

namespace Rio.Window
open Layout

variable {F : Type} {m m' : ContextManager F} {g g' : ContextGrid F Context} {c : Context}
  {i j r : ℕ}

/-- A tab that continues another one has a context of it, and none of other tabs. -/
structure Continues (m : ContextManager F) (g g' : ContextGrid F Context) : Prop where
  shared : ∃ c ∈ g.vals, c ∈ g'.vals
  own : ∀ c ∈ g'.vals, c ∈ m.vals → c ∈ g.vals

/-- Whether two tabs have a context in common. -/
def shares (g g' : ContextGrid F Context) : Bool := g.vals.any fun c => decide (c ∈ g'.vals)

theorem shares_iff : shares g g' = true ↔ ∃ c ∈ g.vals, c ∈ g'.vals := by
  unfold shares
  rw [List.any_eq_true]
  exact exists_congr fun c => and_congr_right fun _ => decide_eq_true_iff

/-- The tabs have names; a tab that continues another one keeps the name, others get a new one. -/
def follow (names : List ℕ) (next : ℕ) (before after : List (ContextGrid F Context)) : List ℕ :=
  after.map fun g' =>
    match before.findIdx? (shares · g') with
    | some i => names.getD i next
    | none => next

namespace ContextManager

theorem length_follow (names : List ℕ) (next : ℕ) (before after : List (ContextGrid F Context)) :
    (follow names next before after).length = after.length := List.length_map ..

/-- The name of a tab that continues another one. -/
theorem Held.follow_of_continues (h : m.Held) {names : List ℕ} {next : ℕ}
    (hnames : names.length = m.contexts.length) {after : List (ContextGrid F Context)}
    (hj : after[j]? = some g') (hi : m.contexts[i]? = some g) (hcont : Continues m g g') :
    (follow names next m.contexts after)[j]? = names[i]? := by
  obtain ⟨hilt, -⟩ := List.getElem?_eq_some_iff.mp hi
  obtain ⟨c, hc, hc'⟩ := hcont.shared
  have hfind : m.contexts.findIdx? (shares · g') = some i := by
    cases hfind : m.contexts.findIdx? (shares · g') with
    | none =>
      have hnone := List.findIdx?_eq_none_iff.mp hfind g (List.mem_of_getElem? hi)
      rw [shares_iff.mpr ⟨c, hc, hc'⟩] at hnone
      exact absurd hnone nofun
    | some k =>
      obtain ⟨hk, hshares, -⟩ := List.findIdx?_eq_some_iff_getElem.mp hfind
      obtain ⟨d, hd, hd'⟩ := shares_iff.mp hshares
      have hk' := List.getElem?_eq_getElem hk
      have hown := hcont.own d hd' (mem_vals_of_getElem? hk' hd)
      exact congrArg some (h.index_eq hk' hi hd hown)
  unfold follow
  rw [List.getElem?_map, hj]
  dsimp only [Option.map_some]
  rw [hfind, List.getElem?_eq_getElem (hnames ▸ hilt)]
  exact congrArg some (List.getD_eq_getElem ..)

/-- The name of a new tab. -/
theorem follow_of_new {names : List ℕ} {next : ℕ} {after : List (ContextGrid F Context)}
    (hj : after[j]? = some g') (hnew : ∀ c ∈ g'.vals, c ∉ m.vals) :
    (follow names next m.contexts after)[j]? = some next := by
  have hfind : m.contexts.findIdx? (shares · g') = none := by
    refine List.findIdx?_eq_none_iff.mpr fun g hg => Bool.eq_false_of_not_eq_true fun hshares => ?_
    obtain ⟨c, hc, hc'⟩ := shares_iff.mp hshares
    exact hnew c hc' (mem_vals.mpr ⟨g, hg, hc⟩)
  unfold follow
  rw [List.getElem?_map, hj]
  dsimp only [Option.map_some]
  rw [hfind]

theorem continues_of_vals (hg : g.Held) (hvals : g'.vals = g.vals) : Continues m g g' := by
  obtain ⟨c, -, hc⟩ := hg.focused
  exact ⟨⟨c, hc, hvals.symm ▸ hc⟩, fun c hc _ => hvals ▸ hc⟩

/-- Every tab is continued at its place. -/
structure SameOrder (m : ContextManager F) (after : List (ContextGrid F Context)) : Prop where
  length : after.length = m.contexts.length
  continued : ∀ (i : ℕ) (g : ContextGrid F Context), m.contexts[i]? = some g →
    ∃ g', after[i]? = some g' ∧ Continues m g g'

theorem Held.sameOrder_refl (h : m.Held) : m.SameOrder m.contexts :=
  ⟨rfl, fun _ g hi => ⟨g, hi, continues_of_vals (h.grids g (List.mem_of_getElem? hi)) rfl⟩⟩

theorem Held.sameOrder_of_sameTabs (h : m.Held) (hsame : m.SameTabs m') : m.SameOrder m'.contexts :=
  hsame.contexts ▸ h.sameOrder_refl

theorem Held.sameOrder_modifyCurrentGrid (h : m.Held)
    {f : ContextGrid F Context → ContextGrid F Context}
    (hf : ∀ g, m.currentGrid = some g → Continues m g (f g)) :
    m.SameOrder (m.modifyCurrentGrid f).contexts := by
  refine ⟨length_modifyCurrentGrid m f, fun i g hi => ?_⟩
  by_cases hindex : m.currentIndex = i
  · subst hindex
    exact ⟨f g, (currentGrid_modifyCurrentGrid m f).trans (congrArg (Option.map f) hi), hf g hi⟩
  · refine ⟨g, (List.getElem?_modify_ne f m.contexts hindex).trans hi, ?_⟩
    exact continues_of_vals (h.grids g (List.mem_of_getElem? hi)) rfl

theorem Held.sameOrder_of_keeps (h : m.Held)
    {f : ContextGrid F Context → ContextGrid F Context} (hf : ContextGrid.Keeps f) :
    m.SameOrder (m.modifyCurrentGrid f).contexts :=
  h.sameOrder_modifyCurrentGrid fun g hg =>
    have hg := h.grids g (mem_of_currentGrid hg)
    continues_of_vals hg (hf g hg).2

/-- The names stay. -/
theorem Held.follow_of_sameOrder (h : m.Held) {names : List ℕ} {next : ℕ}
    (hnames : names.length = m.contexts.length) {after : List (ContextGrid F Context)}
    (hsame : m.SameOrder after) : follow names next m.contexts after = names := by
  refine List.ext_getElem? fun i => ?_
  cases hi : m.contexts[i]? with
  | none =>
    have hlen := List.getElem?_eq_none_iff.mp hi
    rw [List.getElem?_eq_none, List.getElem?_eq_none]
    · exact hnames.trans_le hlen
    · exact ((length_follow ..).trans hsame.length).trans_le hlen
  | some g =>
    obtain ⟨g', hg', hcont⟩ := hsame.continued i g hi
    exact h.follow_of_continues hnames hg' hi hcont

/-- A tab that is taken over as it is. -/
theorem Held.follow_of_eq (h : m.Held) {names : List ℕ} {next : ℕ}
    (hnames : names.length = m.contexts.length) {after : List (ContextGrid F Context)}
    (hlt : i < m.contexts.length) (hj : after[j]? = m.contexts[i]?) :
    (follow names next m.contexts after)[j]? = names[i]? := by
  have hi := List.getElem?_eq_getElem hlt
  exact h.follow_of_continues hnames (hj.trans hi) hi
    (continues_of_vals (h.grids _ (List.getElem_mem hlt)) rfl)

theorem Held.follow_eraseIdx (h : m.Held) {names : List ℕ} {next : ℕ}
    (hnames : names.length = m.contexts.length) (i : ℕ) :
    follow names next m.contexts (m.contexts.eraseIdx i) = names.eraseIdx i := by
  refine List.ext_getElem? fun j => ?_
  by_cases hj : j < (m.contexts.eraseIdx i).length
  · have hsource := List.getElem?_eraseIdx (l := m.contexts) (i := i) (j := j)
    rw [List.getElem?_eraseIdx]
    obtain ⟨k, hk⟩ : ∃ k, m.contexts[k]? = (m.contexts.eraseIdx i)[j]? ∧
        names[k]? = if j < i then names[j]? else names[j + 1]? := by
      by_cases hji : j < i
      · rw [if_pos hji] at hsource ⊢
        exact ⟨j, hsource.symm, rfl⟩
      · rw [if_neg hji] at hsource ⊢
        exact ⟨j + 1, hsource.symm, rfl⟩
    have hlt : k < m.contexts.length := by
      rw [List.getElem?_eq_getElem hj] at hk
      exact (List.getElem?_eq_some_iff.mp hk.1).1
    rw [← hk.2]
    exact h.follow_of_eq hnames hlt hk.1.symm
  · rw [List.getElem?_eq_none, List.getElem?_eq_none]
    · rw [List.length_eraseIdx] at hj ⊢
      rw [hnames]
      exact not_lt.mp hj
    · rw [length_follow]
      exact not_lt.mp hj

theorem getElem?_set_set {α : Type*} {l : List α} (hi : i < l.length) (hj : j < l.length) (k : ℕ) :
    ((l.set i l[j]).set j l[i])[k]? = l[if k = j then i else if k = i then j else k]? := by
  by_cases hkj : k = j
  · subst hkj
    rw [if_pos rfl, List.getElem?_set_self (by rwa [List.length_set]), List.getElem?_eq_getElem hi]
  · rw [if_neg hkj, List.getElem?_set_ne (Ne.symm hkj)]
    by_cases hki : k = i
    · subst hki
      rw [if_pos rfl, List.getElem?_set_self hi, List.getElem?_eq_getElem hj]
    · rw [if_neg hki, List.getElem?_set_ne (Ne.symm hki)]

/-- The names are exchanged with the tabs. -/
theorem Held.follow_swap (h : m.Held) {names : List ℕ} {next : ℕ}
    (hnames : names.length = m.contexts.length) (hi : i < names.length) (hj : j < names.length)
    {after : List (ContextGrid F Context)} (hafter : ∀ k : ℕ, after[k]? =
      m.contexts[if k = j then i else if k = i then j else k]?) :
    follow names next m.contexts after = (names.set i names[j]).set j names[i] := by
  refine List.ext_getElem? fun k => ?_
  rw [getElem?_set_set hi hj]
  have hk := hafter k
  generalize (if k = j then i else if k = i then j else k) = source at hk
  by_cases hlt : source < m.contexts.length
  · exact h.follow_of_eq hnames hlt hk
  · rw [List.getElem?_eq_none (not_lt.mp hlt)] at hk
    rw [List.getElem?_eq_none, List.getElem?_eq_none]
    · omega
    · rw [length_follow]
      exact List.getElem?_eq_none_iff.mp hk

theorem filter_eq_singleton {α : Type*} {p : α → Bool} {a : α} :
    ∀ {l : List α} {i : ℕ}, l[i]? = some a → p a = true →
      (∀ (j : ℕ) b, l[j]? = some b → p b = true → j = i) → l.filter p = [a]
  | [], _, hi, _, _ => absurd hi nofun
  | b :: l, 0, hi, ha, honly => by
    obtain rfl : b = a := Option.some_inj.mp hi
    have hrest : l.filter p = [] := by
      refine List.filter_eq_nil_iff.mpr fun x hx hp => ?_
      obtain ⟨j, hj⟩ := List.mem_iff_getElem?.mp hx
      exact absurd (honly (j + 1) x hj hp) (Nat.succ_ne_zero j)
    rw [List.filter_cons_of_pos ha, hrest]
  | b :: l, i + 1, hi, ha, honly => by
    have hb : ¬ p b = true := fun hb => absurd (honly 0 b rfl hb) (Nat.succ_ne_zero i).symm
    rw [List.filter_cons_of_neg hb]
    exact filter_eq_singleton hi ha fun j x hj hp => Nat.succ_inj.mp (honly (j + 1) x hj hp)

/-- Only the current tab has its focused context. -/
theorem Held.filter_eq (h : m.Held) (hi : m.currentIndex < m.contexts.length)
    (hc : m.current = some c) :
    m.contexts.filter (fun g => routeOf g = some c.routeId) = [m.contexts[m.currentIndex]] := by
  obtain ⟨g, hg, -, hfocused, hmem, hvals⟩ := h.of_current hc
  have heq : m.contexts[m.currentIndex] = g :=
    Option.some_inj.mp ((List.getElem?_eq_getElem hi).symm.trans hg)
  have honly (j : ℕ) (hj : j < m.contexts.length)
      (hroute : routeOf m.contexts[j] = some c.routeId) : j = m.currentIndex := by
    obtain ⟨c', hc', hmem', hr⟩ := exists_of_routeOf h (List.getElem?_eq_getElem hj) hroute
    obtain rfl := h.eq_of_routeId hmem' hvals hr
    exact h.index_eq (List.getElem?_eq_getElem hj) hg hc' hmem
  exact filter_eq_singleton (List.getElem?_eq_getElem hi)
    (decide_eq_true (heq ▸ routeOf_of_focused hfocused)) fun j g' hj hroute => by
      obtain ⟨hlt, rfl⟩ := List.getElem?_eq_some_iff.mp hj
      exact honly j hlt (of_decide_eq_true hroute)

theorem contexts_moveCurrentTo (hi : m.currentIndex < m.contexts.length)
    (hj : j < m.contexts.length) (hlen : 1 < m.contexts.length) (k : ℕ) :
    (m.moveCurrentTo j).contexts[k]? =
      m.contexts[if k = j then m.currentIndex else if k = m.currentIndex then j else k]? := by
  unfold moveCurrentTo
  rw [if_neg (by omega), currentGrid_eq hi, List.getElem?_eq_getElem hj]
  dsimp only
  rw [(sameTabs_selectTab _ _).contexts]
  exact getElem?_set_set hi hj k

theorem Held.contexts_closeUnfocusedTabs (h : m.Held) (hi : m.currentIndex < m.contexts.length) :
    m.closeUnfocusedTabs.contexts = [m.contexts[m.currentIndex]] := by
  obtain ⟨c, hc, -⟩ := exists_current h.grids hi
  unfold ContextManager.closeUnfocusedTabs
  rw [hc]
  dsimp only
  rw [(sameTabs_setCurrent _ _).contexts]
  exact h.filter_eq hi hc

/-! ### The order after each operation -/

/-- The operations that change the order of the tabs, or their number. -/
def reorders : Op F → Bool
  | .addContext _ _ _ | .moveCurrentToPrev | .moveCurrentToNext | .closeCurrentContext
  | .closeUnfocusedTabs | .closeTerminal _ => true
  | _ => false

theorem Held.sameOrder_selectIn (h : m.Held)
    {f : ContextGrid F Context → ContextGrid F Context} (hf : ContextGrid.Keeps f) :
    m.SameOrder (m.selectIn f).2.contexts := by
  obtain heq | heq := m.selectIn_cases f
  · rw [heq]
    dsimp only
    rw [(SameTabs.refl _).selectRouteFromCurrentGrid.contexts]
    exact h.sameOrder_of_keeps hf
  · rw [heq]
    exact h.sameOrder_refl

theorem Held.sameOrder_selectRoute (h : m.Held)
    {f : ContextGrid F Context → ContextGrid F Context} (hf : ContextGrid.Keeps f)
    (hsame : m.SameTabs m') :
    m.SameOrder (m'.modifyCurrentGrid f).selectRouteFromCurrentGrid.contexts := by
  rw [(SameTabs.refl _).selectRouteFromCurrentGrid.contexts]
  have horder := (hsame.held h).sameOrder_of_keeps hf
  refine ⟨horder.length.trans (congrArg List.length hsame.contexts), fun i g hi => ?_⟩
  rw [← hsame.contexts] at hi
  obtain ⟨g', hg', hcont⟩ := horder.continued i g hi
  exact ⟨g', hg', hcont.shared, fun c hc hmem => hcont.own c hc (hsame.vals.symm ▸ hmem)⟩

/-- A panel that is removed leaves others in its tab. -/
theorem continues_of_subperm (hg' : g'.Held) (hsub : g'.vals.Subperm g.vals) : Continues m g g' := by
  obtain ⟨c, -, hc⟩ := hg'.focused
  exact ⟨⟨c, hsub.subset hc, hc⟩, fun c hc _ => hsub.subset hc⟩

variable [Number F] {taffy : Taffy F}

theorem Held.sameOrder_split (h : m.Held) (splitDown spawned : Bool) (richTextId : ℕ) :
    m.SameOrder (m.split taffy splitDown spawned richTextId).contexts := by
  unfold ContextManager.split createContext
  cases spawned with
  | false => exact h.sameOrder_refl
  | true =>
    rw [if_pos rfl]
    refine h.sameOrder_modifyCurrentGrid fun g hgrid => ?_
    have hg := h.grids g (mem_of_currentGrid hgrid)
    have hvals : (if splitDown = true then g.splitDown taffy ⟨m.routeIdCounter, richTextId⟩ else
        g.splitRight taffy ⟨m.routeIdCounter, richTextId⟩).vals =
          ⟨m.routeIdCounter, richTextId⟩ :: g.vals := by
      cases splitDown with
      | false => exact (hg.vals_split taffy .row _).1
      | true => exact (hg.vals_split taffy .column _).1
    obtain ⟨c, -, hc⟩ := hg.focused
    refine ⟨⟨c, hc, ?_⟩, fun c hc hmem => ?_⟩
    · rw [hvals]
      exact List.mem_cons_of_mem _ hc
    · rw [hvals] at hc
      obtain rfl | hc := List.mem_cons.mp hc
      · exact absurd (h.fresh _ hmem) (lt_irrefl _)
      · exact hc

theorem Held.sameOrder_step (h : m.Held) {op : Op F} (hop : reorders op = false) :
    m.SameOrder (Window.step taffy m op).contexts := by
  unfold Window.step
  split
  · exact h.sameOrder_refl
  · cases op with
    | split splitDown spawned richTextId => exact h.sameOrder_split _ _ _
    | selectNextSplit =>
      exact h.sameOrder_selectRoute (ContextGrid.keeps_of_selects fun g =>
        g.selects_selectNextSplit) (.refl m)
    | selectPrevSplit =>
      exact h.sameOrder_selectRoute (ContextGrid.keeps_of_selects fun g =>
        g.selects_selectPrevSplit) (.refl m)
    | selectSplit direction =>
      exact h.sameOrder_selectIn (ContextGrid.keeps_of_selects fun g => g.selects_selectSplit _)
    | selectCurrentBasedOnMouse x y =>
      exact h.sameOrder_selectIn (ContextGrid.keeps_of_selects fun g =>
        g.selects_selectCurrentBasedOnMouse x y)
    | switchToNextSplitOrTab =>
      dsimp only
      unfold ContextManager.switchToNextSplitOrTab
      obtain heq | heq := m.selectIn_cases (·.selectNextSplitNoLoop)
      · rw [heq]
        exact h.sameOrder_selectRoute (ContextGrid.keeps_of_selects fun g =>
          g.selects_selectNextSplitNoLoop) (.refl m)
      · rw [heq]
        exact h.sameOrder_selectRoute ContextGrid.keeps_selectRoot m.sameTabs_switchToNext
    | switchToPrevSplitOrTab =>
      dsimp only
      unfold ContextManager.switchToPrevSplitOrTab
      obtain heq | heq := m.selectIn_cases (·.selectPrevSplitNoLoop)
      · rw [heq]
        exact h.sameOrder_selectRoute (ContextGrid.keeps_of_selects fun g =>
          g.selects_selectPrevSplitNoLoop) (.refl m)
      · rw [heq]
        exact h.sameOrder_selectRoute (ContextGrid.keeps_of_selects fun g =>
          g.selects_selectLast) m.sameTabs_switchToPrev
    | toggleCurrentSplitZoom =>
      exact h.sameOrder_selectRoute (ContextGrid.keeps_toggleCurrentSplitZoom taffy) (.refl m)
    | moveDivider direction amount =>
      exact h.sameOrder_of_keeps fun g hg =>
        have hkeeps := keeps_moveDivider taffy direction amount g hg
        ⟨hkeeps.1, hkeeps.2.vals⟩
    | removeCurrentGrid =>
      dsimp only
      unfold ContextManager.removeCurrentGrid
      rw [(SameTabs.refl _).selectRouteFromCurrentGrid.contexts]
      refine h.sameOrder_modifyCurrentGrid fun g hgrid => ?_
      have hg := h.grids g (mem_of_currentGrid hgrid)
      exact continues_of_subperm hg.removeCurrent.1.toHeld (hg.subperm_removeCurrent taffy)
    | resizeAllGrids width height =>
      have hresize := ContextGrid.keeps_resize (C := Context) taffy width height
      refine ⟨List.length_map .., fun i g hi => ⟨g.resize taffy width height, ?_, ?_⟩⟩
      · exact (List.getElem?_map ..).trans (congrArg (Option.map _) hi)
      · have hg := h.grids g (List.mem_of_getElem? hi)
        exact continues_of_vals hg (hresize g hg).2
    | setCurrent contextId => exact h.sameOrder_of_sameTabs (m.sameTabs_setCurrent contextId)
    | selectTab tabIndex => exact h.sameOrder_of_sameTabs (m.sameTabs_selectTab tabIndex)
    | selectLastTab => exact h.sameOrder_of_sameTabs m.sameTabs_selectLastTab
    | switchToNext => exact h.sameOrder_of_sameTabs m.sameTabs_switchToNext
    | switchToPrev => exact h.sameOrder_of_sameTabs m.sameTabs_switchToPrev
    | spawnElsewhere => exact h.sameOrder_refl
    | addContext | moveCurrentToPrev | moveCurrentToNext | closeCurrentContext
    | closeUnfocusedTabs | closeTerminal => exact absurd hop nofun

/-- A new tab is the last one. -/
theorem Held.addContext_contexts (h : m.Held) (redirect spawned : Bool) (richTextId : ℕ) :
    (m.addContext taffy redirect spawned richTextId).contexts = m.contexts ∨
      ∃ g : ContextGrid F Context, (∀ c ∈ g.vals, c ∉ m.vals) ∧
        (m.addContext taffy redirect spawned richTextId).contexts = m.contexts ++ [g] := by
  unfold ContextManager.addContext
  cases m.currentGrid with
  | none => exact .inl rfl
  | some g =>
    dsimp only
    split
    · exact .inl rfl
    · split
      · cases spawned with
        | false => exact .inl rfl
        | true =>
          refine .inr ⟨.new taffy ⟨m.routeIdCounter, richTextId⟩ g.width g.height g.scale
            g.scaledMargin m.panel, fun c hc hmem => ?_, ?_⟩
          · rw [ContextGrid.vals_new] at hc
            obtain rfl := List.mem_singleton.mp hc
            exact absurd (h.fresh _ hmem) (lt_irrefl _)
          · cases redirect with
            | false => rfl
            | true => exact (SameTabs.refl _).selectRouteFromCurrentGrid.contexts
      · exact .inl rfl

end ContextManager

end Rio.Window
