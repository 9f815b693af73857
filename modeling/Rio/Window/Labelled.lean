import Rio.Window.Labels

/-! In a run the tab bar shows for each tab what was given to it, unless shells exit. -/

set_option linter.dupNamespace false

namespace Rio.Window
open Layout

variable {F K : Type}


/-- A window along with what was given to its tabs. -/
structure Labelled (F K : Type) where
  screen : Screen F K
  labels : Labels K

namespace Labelled
open ContextManager

/-- The tabs of the window. -/
def tabs (t : Labelled F K) : List (ContextGrid F Context) := t.screen.contextManager.contexts

/-- The names after tabs were changed. -/
def followed (t : Labelled F K) (after : List (ContextGrid F Context)) : List ℕ :=
  follow t.labels.names t.labels.next t.tabs after

/-- What holds in every state as long as the tab bar shows what was given to tabs. -/
structure Inv (t : Labelled F K) : Prop where
  held : t.screen.contextManager.Held
  length : t.labels.names.length = t.tabs.length
  nodup : t.labels.names.Nodup
  lt : ∀ n ∈ t.labels.names, n < t.labels.next
  colors : ∀ n, t.labels.next ≤ n → t.labels.colors n = none
  titles : ∀ n, t.labels.next ≤ n → t.labels.titles n = none
  attached : t.tabs ≠ [] → Attached t.screen.island t.labels

/-- A tab operation orders the tabs and the tab bar alike. -/
structure InOrder (t : Labelled F K) (after : List (ContextGrid F Context)) (island : Island K) :
    Prop where
  names : (t.followed after).Subperm (t.labels.names ++ [t.labels.next])
  attached : Attached island (t.labels.reorder (t.followed after))

variable {t : Labelled F K} {after : List (ContextGrid F Context)} {i j r : ℕ}

theorem InOrder.of_eq {names : List ℕ} {island : Island K} (heq : t.followed after = names)
    (hnames : names.Subperm (t.labels.names ++ [t.labels.next]))
    (hattached : Attached island (t.labels.reorder names)) : t.InOrder after island := by
  subst heq
  exact ⟨hnames, hattached⟩

namespace Inv

theorem subperm_of_sublist {names : List ℕ} (h : names.Sublist t.labels.names) :
    names.Subperm (t.labels.names ++ [t.labels.next]) :=
  (h.trans (List.sublist_append_left ..)).subperm

theorem inOrder_of_sameOrder (h : t.Inv) (hne : t.tabs ≠ [])
    (hsame : t.screen.contextManager.SameOrder after) : t.InOrder after t.screen.island :=
  .of_eq (h.held.follow_of_sameOrder h.length hsame) (subperm_of_sublist (.refl _))
    (h.attached hne).same

theorem inOrder_append (h : t.Inv) (hne : t.tabs ≠ []) {g : ContextGrid F Context}
    (hg : ∀ c ∈ g.vals, c ∉ t.screen.contextManager.vals) :
    t.InOrder (t.tabs ++ [g]) t.screen.island := by
  refine .of_eq (?_ : t.followed (t.tabs ++ [g]) = t.labels.names ++ [t.labels.next]) (.refl _)
    ((h.attached hne).append (h.colors _ le_rfl) (h.titles _ le_rfl))
  refine List.ext_getElem? fun j => ?_
  obtain hlt | heq | hgt := Nat.lt_trichotomy j t.tabs.length
  · rw [List.getElem?_append_left (h.length ▸ hlt)]
    exact h.held.follow_of_eq h.length hlt (List.getElem?_append_left hlt)
  · subst heq
    rw [← h.length, List.getElem?_concat_length, h.length]
    exact follow_of_new List.getElem?_concat_length hg
  · have hlen := h.length
    rw [List.getElem?_eq_none, List.getElem?_eq_none]
    · rw [List.length_append, List.length_singleton]
      omega
    · unfold followed
      rw [length_follow, List.length_append, List.length_singleton]
      omega

theorem inOrder_eraseIdx (h : t.Inv) (hne : t.tabs ≠ []) (i : ℕ) :
    t.InOrder (t.tabs.eraseIdx i) (t.screen.island.handleTabClosed i) :=
  .of_eq (h.held.follow_eraseIdx h.length i) (subperm_of_sublist (List.eraseIdx_sublist ..))
    ((h.attached hne).closed h.nodup i)

theorem inOrder_swap (h : t.Inv) (hne : t.tabs ≠ []) (hi : i < t.tabs.length)
    (hj : j < t.tabs.length) (hafter : ∀ k : ℕ, after[k]? =
      t.tabs[if k = j then i else if k = i then j else k]?) :
    t.InOrder after (t.screen.island.handleTabsSwapped i j) := by
  have hi' : i < t.labels.names.length := h.length ▸ hi
  have hj' : j < t.labels.names.length := h.length ▸ hj
  refine .of_eq (h.held.follow_swap h.length hi' hj' hafter) ?_
    ((h.attached hne).swapped h.nodup hi' hj')
  exact (List.set_set_perm hi' hj').subperm.trans (subperm_of_sublist (.refl _))

theorem inOrder_retain (h : t.Inv) (hne : t.tabs ≠ []) (hi : i < t.tabs.length) :
    t.InOrder [t.tabs[i]] (t.screen.island.handleCloseUnfocusedTabs i) := by
  have hi' : i < t.labels.names.length := h.length ▸ hi
  refine .of_eq (?_ : t.followed [t.tabs[i]] = [t.labels.names[i]])
    (subperm_of_sublist (List.singleton_sublist.mpr (List.getElem_mem hi')))
    ((h.attached hne).retained h.nodup hi')
  refine List.ext_getElem? fun k => ?_
  cases k with
  | zero =>
    have hfirst : (t.followed [t.tabs[i]])[0]? = t.labels.names[i]? :=
      h.held.follow_of_eq h.length hi (List.getElem?_eq_getElem hi).symm
    exact hfirst.trans (List.getElem?_eq_getElem hi')
  | succ k => rfl

end Inv

variable [Number F] {taffy : Taffy F}

def step (taffy : Taffy F) (t : Labelled F K) (op : ScreenOp F K) : Labelled F K :=
  if t.screen.contextManager.currentGrid.isNone then t
  else
    { screen := t.screen.step taffy op
      labels := t.labels.step t.screen (t.screen.step taffy op).contextManager.contexts op }

/-- What a step has to lead to, as long as there are tabs. -/
def StepOk (taffy : Taffy F) (t : Labelled F K) (op : ScreenOp F K) : Prop :=
  (t.step taffy op).tabs ≠ [] → Attached (t.step taffy op).screen.island (t.step taffy op).labels

omit [Number F] in
/-- The shell of a tab exits, and the tab is removed while others are left, only when nothing was
given to it and the tabs after it. -/
def Permits (t : Labelled F K) (op : ScreenOp F K) : Prop :=
  ∀ r, op = .tab (.closeTerminal r) → t.screen.contextManager.currentGridLen = 1 →
    1 < t.tabs.length → ∀ (i : ℕ) (g : ContextGrid F Context), t.tabs[i]? = some g →
      routeOf g = some r →
      (∀ j, i ≤ j → t.screen.island.tabColors.lookup j = none ∧
        t.screen.island.tabCustomTitles.lookup j = none) ∧
      ∀ p, t.screen.island.colorPickerTab = some p → p < i

namespace Inv

omit [Number F] in
theorem tabs_ne_nil {g : ContextGrid F Context}
    (hgrid : t.screen.contextManager.currentGrid = some g) : t.tabs ≠ [] := ne_nil_of_lt (lt_of_currentGrid hgrid)

omit [Number F] in
theorem inOrder_move (h : t.Inv) (hi : t.screen.contextManager.currentIndex < t.tabs.length)
    (hj : j < t.tabs.length) {m : ContextManager F}
    (hm : m = t.screen.contextManager.moveCurrentTo j) :
    t.InOrder m.contexts
      (t.screen.island.handleTabsSwapped t.screen.contextManager.currentIndex j) := by
  subst hm
  have hne : t.tabs ≠ [] := ne_nil_of_lt hi
  by_cases hlen : 1 < t.tabs.length
  · exact h.inOrder_swap hne hi hj (contexts_moveCurrentTo hi hj hlen)
  · have hself : t.screen.contextManager.moveCurrentTo j = t.screen.contextManager :=
      if_pos (not_lt.mp hlen)
    have hindex : t.screen.contextManager.currentIndex = j := by omega
    have hisland : t.screen.island.handleTabsSwapped t.screen.contextManager.currentIndex j =
        t.screen.island := if_pos hindex
    rw [hself, hisland]
    exact h.inOrder_of_sameOrder hne h.held.sameOrder_refl

/-- All operations on tabs but the exit of a shell. -/
theorem inOrder_step (h : t.Inv) {g : ContextGrid F Context}
    (hgrid : t.screen.contextManager.currentGrid = some g) {op : Op F}
    (hop : ∀ r, op ≠ .closeTerminal r) :
    t.InOrder (t.screen.step taffy (.tab op)).contextManager.contexts
      (t.screen.step taffy (.tab op)).island := by
  have hi : t.screen.contextManager.currentIndex < t.tabs.length := lt_of_currentGrid hgrid
  have hne := tabs_ne_nil hgrid
  have hopen (op : Op F) : Window.step taffy t.screen.contextManager op = _ :=
    if_neg (mt List.isEmpty_iff.mp hne)
  unfold Screen.step
  rw [hgrid, if_neg (show ¬ (some g).isNone = true from Bool.false_ne_true)]
  by_cases horder : reorders op = false
  · have hsame : t.screen.contextManager.SameOrder
        (Window.step taffy t.screen.contextManager op).contexts := h.held.sameOrder_step horder
    cases op <;> first | exact h.inOrder_of_sameOrder hne hsame | exact Bool.noConfusion horder
  · cases op with
    | addContext redirect spawned richTextId =>
      dsimp only
      rw [hopen]
      have hcontexts (m : ContextManager F)
          (hm : m = t.screen.contextManager.addContext taffy redirect spawned richTextId) :
          m.contexts = t.tabs ∨ ∃ g : ContextGrid F Context,
            (∀ c ∈ g.vals, c ∉ t.screen.contextManager.vals) ∧ m.contexts = t.tabs ++ [g] :=
        hm ▸ h.held.addContext_contexts redirect spawned richTextId
      obtain heq | ⟨g, hg, heq⟩ := hcontexts _ rfl
      · rw [heq]
        exact h.inOrder_of_sameOrder hne h.held.sameOrder_refl
      · rw [heq]
        exact h.inOrder_append hne hg
    | moveCurrentToPrev =>
      dsimp only
      unfold Screen.moveCurrentTabToPrev
      exact h.inOrder_move hi (prevIndex_lt hi) (hopen .moveCurrentToPrev)
    | moveCurrentToNext =>
      dsimp only
      unfold Screen.moveCurrentTabToNext
      exact h.inOrder_move hi (nextIndex_lt hi) (hopen .moveCurrentToNext)
    | closeCurrentContext =>
      dsimp only
      unfold Screen.closeTab
      rw [hopen]
      dsimp only
      unfold ContextManager.closeCurrentContext
      by_cases hlen : t.screen.contextManager.contexts.length = 1
      · rw [if_pos hlen, if_neg (by omega)]
        exact h.inOrder_of_sameOrder hne h.held.sameOrder_refl
      · rw [if_neg hlen, if_pos (by unfold tabs at hi; omega), (contexts_removeTab ..).1]
        exact h.inOrder_eraseIdx hne _
    | closeUnfocusedTabs =>
      dsimp only
      unfold Screen.tabCloseUnfocused
      by_cases hlen : t.screen.contextManager.contexts.length ≤ 1
      · rw [if_pos hlen]
        exact h.inOrder_of_sameOrder hne h.held.sameOrder_refl
      · rw [if_neg hlen, hopen]
        dsimp only
        rw [h.held.contexts_closeUnfocusedTabs hi]
        exact h.inOrder_retain hne hi
    | closeTerminal r => exact absurd rfl (hop r)
    | _ => exact absurd rfl horder

/-- The shell of a tab exits: its panel is removed from the tab, or the whole tab is. -/
theorem closeTerminal_cases (h : t.Inv) (taffy : Taffy F) {g : ContextGrid F Context}
    (hgrid : t.screen.contextManager.currentGrid = some g) (r : ℕ) :
    (t.screen.contextManager.SameOrder (t.screen.contextManager.exit taffy r).contexts ∧
      (t.screen.contextManager.currentGridLen = 1 → ∀ g ∈ t.tabs, routeOf g ≠ some r)) ∨
    t.screen.contextManager.currentGridLen = 1 ∧ ∃ (i : ℕ) (g : ContextGrid F Context),
      t.tabs[i]? = some g ∧ routeOf g = some r ∧
        (t.screen.contextManager.exit taffy r).contexts = t.tabs.eraseIdx i := by
  have hne := tabs_ne_nil hgrid
  by_cases hlen : 1 < t.screen.contextManager.currentGridLen
  · refine .inl ⟨?_, fun hone => absurd hone hlen.ne'⟩
    rw [exit_several hne hlen]
    split
    · have hsame : t.screen.contextManager.SameOrder
          (Window.step taffy t.screen.contextManager .removeCurrentGrid).contexts :=
        h.held.sameOrder_step rfl
      have hopen : ¬ t.screen.contextManager.contexts.isEmpty = true := mt List.isEmpty_iff.mp hne
      rwa [Window.step, if_neg hopen] at hsame
    · exact h.held.sameOrder_refl
  · have hpos : 0 < t.screen.contextManager.currentGridLen := by
      rw [currentGridLen_eq hgrid]
      obtain ⟨c, -, hc⟩ := (h.held.grids g (mem_of_currentGrid hgrid)).focused
      exact List.length_pos_of_mem hc
    obtain ⟨i, g, hi, hroute, heq⟩ | ⟨hnone, heq⟩ := exit_single taffy hne hlen r
    · exact .inr ⟨by omega, i, g, hi, hroute, heq ▸ (contexts_removeTab ..).1⟩
    · exact .inl ⟨heq.symm ▸ h.held.sameOrder_refl, fun _ => hnone⟩

theorem step_tab {g : ContextGrid F Context}
    (hgrid : t.screen.contextManager.currentGrid = some g) (op : Op F) :
    t.step taffy (.tab op) = ⟨t.screen.step taffy (.tab op),
      t.labels.reorder (t.followed (t.screen.step taffy (.tab op)).contextManager.contexts)⟩ := by
  unfold step
  rw [hgrid, if_neg (show ¬ (some g).isNone = true from Bool.false_ne_true)]
  rfl

theorem step_exit {g : ContextGrid F Context}
    (hgrid : t.screen.contextManager.currentGrid = some g) (r : ℕ) :
    t.step taffy (.tab (.closeTerminal r)) =
      ⟨⟨t.screen.contextManager.exit taffy r, t.screen.island⟩,
        t.labels.reorder (t.followed (t.screen.contextManager.exit taffy r).contexts)⟩ := by
  have hscreen : t.screen.step taffy (.tab (.closeTerminal r)) =
      ⟨t.screen.contextManager.exit taffy r, t.screen.island⟩ := by
    unfold Screen.step
    rw [hgrid, if_neg (show ¬ (some g).isNone = true from Bool.false_ne_true)]
    dsimp only
    rw [step_closeTerminal]
  rw [step_tab hgrid, hscreen]

/-- The tab bar shows the labels after the exit of a shell only where there was none to move. -/
theorem stepOk_exit_iff (h : t.Inv) {g : ContextGrid F Context}
    (hgrid : t.screen.contextManager.currentGrid = some g) (r : ℕ) :
    t.StepOk taffy (.tab (.closeTerminal r)) ↔ t.Permits (.tab (.closeTerminal r)) := by
  have hne := tabs_ne_nil hgrid
  unfold StepOk
  rw [step_exit hgrid]
  obtain ⟨hsame, hnone⟩ | ⟨hlen, i, g, hi, hroute, heq⟩ := h.closeTerminal_cases taffy hgrid r
  · refine iff_of_true (fun _ => (h.inOrder_of_sameOrder hne hsame).attached) ?_
    rintro r' hop hlen - i g hi hroute
    cases hop
    exact absurd hroute (hnone hlen g (List.mem_of_getElem? hi))
  · have hattached : Attached t.screen.island (t.labels.reorder
        (t.followed (t.screen.contextManager.exit taffy r).contexts)) ↔ _ :=
      heq ▸ (h.held.follow_eraseIdx h.length i).symm ▸ (h.attached hne).erased_iff h.nodup i
    obtain ⟨hlt, -⟩ := List.getElem?_eq_some_iff.mp hi
    have hlength : (t.tabs.eraseIdx i).length = t.tabs.length - 1 := List.length_eraseIdx_of_lt hlt
    constructor
    · rintro hok r' hop - hseveral i' g' hi' hroute'
      cases hop
      obtain ⟨c, hc, hmem, hcr⟩ := exists_of_routeOf h.held hi hroute
      obtain ⟨c', hc', hmem', hcr'⟩ := exists_of_routeOf h.held hi' hroute'
      obtain rfl := h.held.eq_of_routeId hmem hmem' (hcr.trans hcr'.symm)
      obtain rfl := h.held.index_eq hi hi' hc hc'
      refine hattached.mp (hok ?_)
      dsimp only [tabs]
      rw [heq]
      exact List.ne_nil_of_length_pos (by omega)
    · intro hpermits hleft
      refine hattached.mpr (hpermits r rfl hlen ?_ i g hi hroute)
      dsimp only [tabs] at hleft
      rw [heq] at hleft
      have hpos := List.length_pos_iff.mpr hleft
      omega

/-- Whatever is done but to the tabs is shown for the tab it is about. -/
theorem attached_step (h : t.Inv) (taffy : Taffy F) {g : ContextGrid F Context}
    (hgrid : t.screen.contextManager.currentGrid = some g) {op : ScreenOp F K}
    (hop : ∀ op', op ≠ .tab op') :
    (t.screen.step taffy op).contextManager = t.screen.contextManager ∧
      ∀ after, Attached (t.screen.step taffy op).island (t.labels.step t.screen after op) := by
  have hattached := h.attached (tabs_ne_nil hgrid)
  have hi : t.screen.contextManager.currentIndex < t.labels.names.length :=
    h.length ▸ lt_of_currentGrid hgrid
  unfold Screen.step
  rw [hgrid, if_neg (show ¬ (some g).isNone = true from Bool.false_ne_true)]
  cases op with
  | tab op' => exact absurd rfl (hop op')
  | toggleColorPicker clickedTab title =>
    dsimp only
    by_cases hclicked : clickedTab < t.screen.contextManager.contexts.length
    · rw [if_pos hclicked]
      exact ⟨rfl, fun _ => hattached.toggle h.nodup (h.length ▸ hclicked) title⟩
    · have hnone : t.labels.names[clickedTab]? = none :=
        List.getElem?_eq_none (h.length ▸ not_lt.mp hclicked)
      have hstep (after : List (ContextGrid F Context)) :
          t.labels.step t.screen after (.toggleColorPicker clickedTab title) = t.labels := by
        unfold Labels.step Labels.pick
        dsimp only
        rw [hnone]
        exact if_neg fun hpicked => hpicked.1 hpicked.2.symm
      rw [if_neg hclicked]
      exact ⟨rfl, fun after => (hstep after).symm ▸ hattached⟩
  | renameTab title => exact ⟨rfl, fun _ => hattached.openRename h.nodup hi title⟩
  | closeColorPicker => exact ⟨rfl, fun _ => hattached.rename h.nodup⟩
  | colorPickerClick click => exact ⟨rfl, fun _ => hattached.click h.nodup click⟩
  | renameInput key => exact ⟨rfl, fun _ => hattached.renameInput h.nodup key⟩

theorem held_step (h : t.Inv) {g : ContextGrid F Context}
    (hgrid : t.screen.contextManager.currentGrid = some g) (op : Op F) :
    (t.screen.step taffy (.tab op)).contextManager.Held := by
  have hstep : (Window.step taffy t.screen.contextManager op).Held := h.held.step op
  unfold Screen.step
  rw [hgrid, if_neg (show ¬ (some g).isNone = true from Bool.false_ne_true)]
  cases op with
  | closeUnfocusedTabs =>
    dsimp only
    unfold Screen.tabCloseUnfocused
    split
    · exact h.held
    · exact hstep
  | _ => exact hstep

omit [Number F] in
theorem reorder (h : t.Inv) {m : ContextManager F} (hheld : m.Held) {island : Island K}
    (hnames : (t.followed m.contexts).Subperm (t.labels.names ++ [t.labels.next]))
    (hattached : m.contexts ≠ [] → Attached island (t.labels.reorder (t.followed m.contexts))) :
    Inv ⟨⟨m, island⟩, t.labels.reorder (t.followed m.contexts)⟩ where
  held := hheld
  length := length_follow ..
  nodup := by
    have happend : (t.labels.names ++ [t.labels.next]).Nodup := by
      refine List.nodup_append.mpr ⟨h.nodup, List.nodup_singleton _, ?_⟩
      rintro a ha b hb rfl
      exact absurd (h.lt a ha) (List.mem_singleton.mp hb ▸ lt_irrefl _)
    obtain ⟨names, hperm, hsub⟩ := hnames
    exact hperm.nodup_iff.mp (happend.sublist hsub)
  lt := by
    intro n hn
    obtain hn | hn := List.mem_append.mp (hnames.subset hn)
    · exact (h.lt n hn).trans (Nat.lt_succ_self _)
    · exact List.mem_singleton.mp hn ▸ Nat.lt_succ_self _
  colors n hn := h.colors n (Nat.le_of_succ_le hn)
  titles n hn := h.titles n (Nat.le_of_succ_le hn)
  attached := hattached

theorem step (h : t.Inv) {op : ScreenOp F K} (hok : t.StepOk taffy op) : (t.step taffy op).Inv := by
  cases hgrid : t.screen.contextManager.currentGrid with
  | none =>
    have hsame : t.step taffy op = t := if_pos (by rw [hgrid]; rfl)
    exact hsame.symm ▸ h
  | some g =>
    by_cases hop : ∃ op', op = .tab op'
    · obtain ⟨op, rfl⟩ := hop
      unfold StepOk at hok
      by_cases hexit : ∃ r, op = .closeTerminal r
      · obtain ⟨r, rfl⟩ := hexit
        rw [step_exit hgrid] at hok ⊢
        have hheld : (t.screen.contextManager.exit taffy r).Held := h.held.shouldCloseContextManager r
        refine h.reorder hheld ?_ hok
        obtain ⟨hsame, -⟩ | ⟨-, i, g, -, -, heq⟩ := h.closeTerminal_cases taffy hgrid r
        · exact (h.inOrder_of_sameOrder (tabs_ne_nil hgrid) hsame).names
        · rw [heq]
          exact (h.inOrder_eraseIdx (tabs_ne_nil hgrid) i).names
      · have horder : t.InOrder (t.screen.step taffy (.tab op)).contextManager.contexts
            (t.screen.step taffy (.tab op)).island := h.inOrder_step hgrid (not_exists.mp hexit)
        rw [step_tab hgrid]
        exact h.reorder (h.held_step hgrid _) horder.names fun _ => horder.attached
    · have hop := not_exists.mp hop
      obtain ⟨hmanager, hattached⟩ := h.attached_step taffy hgrid hop
      have hgiven := Labels.given_step (h.attached (tabs_ne_nil hgrid)).picked_mem t.screen
        (t.screen.step taffy op).contextManager.contexts hop
      have hstep : t.step taffy op = ⟨t.screen.step taffy op, t.labels.step t.screen
          (t.screen.step taffy op).contextManager.contexts op⟩ := by
        unfold Labelled.step
        rw [hgrid, if_neg (show ¬ (some g).isNone = true from Bool.false_ne_true)]
      have hfresh (n : ℕ) (hn : t.labels.next ≤ n) : n ∉ t.labels.names :=
        fun hmem => absurd (h.lt n hmem) (not_lt.mpr hn)
      rw [hstep]
      refine ⟨hmanager.symm ▸ h.held, ?_, ?_, fun n hn => ?_, fun n hn => ?_, fun n hn => ?_,
        fun _ => hattached _⟩
      · dsimp only [tabs]
        rw [hgiven.names, hmanager]
        exact h.length
      · exact hgiven.names.symm ▸ h.nodup
      · rw [hgiven.names] at hn
        exact (h.lt n hn).trans_eq hgiven.next.symm
      · rw [hgiven.next] at hn
        exact (hgiven.colors n (hfresh n hn)).trans (h.colors n hn)
      · rw [hgiven.next] at hn
        exact (hgiven.titles n (hfresh n hn)).trans (h.titles n hn)

theorem stepOk_iff (h : t.Inv) (op : ScreenOp F K) : t.StepOk taffy op ↔ t.Permits op := by
  cases hgrid : t.screen.contextManager.currentGrid with
  | none =>
    have hsame : t.step taffy op = t := if_pos (by rw [hgrid]; rfl)
    refine iff_of_true ?_ fun r _ hlen => ?_
    · unfold StepOk
      rw [hsame]
      exact h.attached
    · unfold currentGridLen at hlen
      rw [hgrid] at hlen
      exact absurd hlen Nat.zero_ne_one
  | some g =>
    by_cases hexit : ∃ r, op = .tab (.closeTerminal r)
    · obtain ⟨r, rfl⟩ := hexit
      exact h.stepOk_exit_iff hgrid r
    · have hexit := not_exists.mp hexit
      refine iff_of_true (fun _ => ?_) fun r hop => absurd hop (hexit r)
      by_cases hop : ∃ op', op = .tab op'
      · obtain ⟨op, rfl⟩ := hop
        rw [step_tab hgrid]
        exact (h.inOrder_step hgrid fun r hr => hexit r (congrArg _ hr)).attached
      · unfold Labelled.step
        rw [hgrid, if_neg (show ¬ (some g).isNone = true from Bool.false_ne_true)]
        exact (h.attached_step taffy hgrid (not_exists.mp hop)).2 _

end Inv

/-- A window with one tab, to which nothing was given. -/
def start (taffy : Taffy F) (spawned : Bool) (routeIdCounter richTextId : ℕ)
    (width height scale : F) (scaledMargin : Sides F) (panel : Panel F) (isNative : Bool) :
    Labelled F K :=
  { screen :=
      { contextManager := .start taffy spawned (routeIdCounter + 1) 0 richTextId width height scale
          scaledMargin panel isNative
        island := .new }
    labels := ⟨[0], 1, fun _ => none, fun _ => none, none⟩ }

theorem inv_start (taffy : Taffy F) (spawned : Bool) (routeIdCounter richTextId : ℕ)
    (width height scale : F) (scaledMargin : Sides F) (panel : Panel F) (isNative : Bool) :
    (start taffy spawned routeIdCounter richTextId width height scale scaledMargin panel
      isNative : Labelled F K).Inv := by
  refine ⟨held_start .., rfl, List.nodup_singleton _, fun n hn => ?_, fun _ _ => rfl,
    fun _ _ => rfl, fun _ => ⟨fun j => ?_, fun j => ?_, rfl⟩⟩
  · exact List.mem_singleton.mp hn ▸ Nat.one_pos
  · cases j <;> rfl
  · cases j <;> rfl

/-- Colors, titles and the open picker stay with their tabs as long as no shell exits whose tab, or
one after it, has something that the tab bar then shows at another one. -/
theorem run_attached_iff (taffy : Taffy F) (spawned : Bool) (routeIdCounter richTextId : ℕ)
    (width height scale : F) (scaledMargin : Sides F) (panel : Panel F) (isNative : Bool)
    (ops : List (ScreenOp F K)) :
    let t := start taffy spawned routeIdCounter richTextId width height scale scaledMargin panel
      isNative
    Runs.Permitted (step taffy) (StepOk taffy) t ops ↔ Runs.Permitted (step taffy) Permits t ops :=
  Runs.permitted_congr (p := fun _ => True) (I := Inv) (fun _ _ h _ hok => h.step hok)
    (fun _ op h _ => h.stepOk_iff op) ops _ (fun _ _ => trivial) (inv_start ..)

/-- The second tab is painted red, and the shell of the first one exits: no tab has the color. -/
theorem exit_loses_color :
    let t := [.tab (.addContext false true 1), .toggleColorPicker 1 "",
      .colorPickerClick (.swatch "red"), .tab (.closeTerminal 1)].foldl (step Layout.shares)
        (start Layout.shares true 0 0 (800 : ℤ) 600 1 ⟨0, 0, 0, 0⟩
          ⟨⟨0, 0, 0, 0⟩, ⟨0, 0, 0, 0⟩, 0, 0⟩ false)
    t.tabs.length = 1 ∧ t.labels.colors 1 = some "red" ∧ ¬ Attached t.screen.island t.labels := by
  refine ⟨by decide +kernel, by decide +kernel, fun h => ?_⟩
  exact absurd (h.colors 0) (by decide +kernel)

end Labelled

end Rio.Window
