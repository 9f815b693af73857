import Rio.Window.Island
import Rio.Window.Order

/-! Colors and titles are given to tabs, not to places in the tab bar. -/

set_option linter.dupNamespace false

namespace Rio.Window
open Layout

/-- What was given to tabs, by their names. -/
structure Labels (K : Type) where
  /-- The names of the tabs, in their order. -/
  names : List ℕ
  /-- The name of the next new tab. -/
  next : ℕ
  colors : ℕ → Option K
  titles : ℕ → Option String
  /-- The tab that is renamed. -/
  picked : Option ℕ

variable {F K : Type}

namespace Labels

def rename (l : Labels K) (text : String) : Labels K :=
  match l.picked with
  | some name =>
    { l with
      titles := Function.update l.titles name
        (if (trim text).isEmpty then none else some (trim text))
      picked := none }
  | none => l

def paint (l : Labels K) (color : Option K) : Labels K :=
  match l.picked with
  | some name => { l with colors := Function.update l.colors name color }
  | none => l

/-- The tabs are ordered anew. -/
def reorder (l : Labels K) (names : List ℕ) : Labels K :=
  { l with names, next := l.next + 1, picked := l.picked.filter fun name => decide (name ∈ names) }

/-- The tab at a place is picked. -/
def pick (l : Labels K) (tabIndex : ℕ) : Labels K :=
  match l.names[tabIndex]? with
  | some name => { l with picked := some name }
  | none => l

/-- What is given to tabs when something is done to a window; `after` are the tabs it leads to. -/
def step (s : Screen F K) (after : List (ContextGrid F Context)) (l : Labels K) :
    ScreenOp F K → Labels K
  | .tab _ => l.reorder (follow l.names l.next s.contextManager.contexts after)
  | .toggleColorPicker clickedTab _ =>
    if l.picked ≠ none ∧ l.names[clickedTab]? = l.picked then l.rename s.island.renameInput
    else l.pick clickedTab
  | .renameTab _ => l.pick s.contextManager.currentIndex
  | .closeColorPicker => l.rename s.island.renameInput
  | .colorPickerClick click =>
    match click with
    | .outside => l.rename s.island.renameInput
    | .swatch color => (l.paint (some color)).rename s.island.renameInput
    | .reset => (l.paint none).rename s.island.renameInput
    | .inside => l
  | .renameInput key =>
    match key with
    | .escape => { l with picked := none }
    | .enter => l.rename s.island.renameInput
    | .edit _ => l

/-- Something is given to the tabs of the window: they stay, and so does what other tabs have. -/
structure Given (l l' : Labels K) : Prop where
  names : l'.names = l.names
  next : l'.next = l.next
  colors : ∀ n, n ∉ l.names → l'.colors n = l.colors n
  titles : ∀ n, n ∉ l.names → l'.titles n = l.titles n

variable {l l' : Labels K}

theorem Given.refl (l : Labels K) : l.Given l := ⟨rfl, rfl, fun _ _ => rfl, fun _ _ => rfl⟩

theorem Given.trans {l'' : Labels K} (h : l.Given l') (h' : l'.Given l'') : l.Given l'' := by
  refine ⟨h'.names.trans h.names, h'.next.trans h.next, fun n hn => ?_, fun n hn => ?_⟩
  · exact (h'.colors n (h.names.symm ▸ hn)).trans (h.colors n hn)
  · exact (h'.titles n (h.names.symm ▸ hn)).trans (h.titles n hn)

theorem given_rename (hpicked : ∀ n, l.picked = some n → n ∈ l.names) (text : String) :
    l.Given (l.rename text) := by
  unfold rename
  split
  · next name hp =>
    refine ⟨rfl, rfl, fun _ _ => rfl, fun n hn => Function.update_of_ne ?_ ..⟩
    rintro rfl
    exact hn (hpicked n hp)
  · exact .refl l

theorem given_paint (hpicked : ∀ n, l.picked = some n → n ∈ l.names) (color : Option K) :
    l.Given (l.paint color) ∧ (l.paint color).picked = l.picked := by
  unfold paint
  split
  · next name hp =>
    refine ⟨⟨rfl, rfl, fun n hn => Function.update_of_ne ?_ .., fun _ _ => rfl⟩, rfl⟩
    rintro rfl
    exact hn (hpicked n hp)
  · exact ⟨.refl l, rfl⟩

theorem given_pick (l : Labels K) (tabIndex : ℕ) : l.Given (l.pick tabIndex) := by
  unfold pick
  split
  · exact ⟨rfl, rfl, fun _ _ => rfl, fun _ _ => rfl⟩
  · exact .refl l

/-- Whatever is done but to the tabs gives something to one of them, or nothing. -/
theorem given_step (hpicked : ∀ n, l.picked = some n → n ∈ l.names) (s : Screen F K)
    (after : List (ContextGrid F Context)) {op : ScreenOp F K} (hop : ∀ op', op ≠ .tab op') :
    l.Given (l.step s after op) := by
  have hrename := given_rename hpicked s.island.renameInput
  have hpaint (color : Option K) : l.Given ((l.paint color).rename s.island.renameInput) := by
    obtain ⟨hgiven, heq⟩ := given_paint hpicked color
    refine hgiven.trans (given_rename (fun n hn => ?_) _)
    exact hgiven.names.symm ▸ hpicked n (heq.symm.trans hn)
  unfold step
  cases op with
  | tab op' => exact absurd rfl (hop op')
  | toggleColorPicker clickedTab title =>
    dsimp only
    split
    · exact hrename
    · exact given_pick l clickedTab
  | renameTab title => exact given_pick l _
  | closeColorPicker => exact hrename
  | colorPickerClick click =>
    cases click with
    | outside => exact hrename
    | swatch color => exact hpaint (some color)
    | reset => exact hpaint none
    | inside => exact .refl l
  | renameInput key =>
    cases key with
    | escape => exact ⟨rfl, rfl, fun _ _ => rfl, fun _ _ => rfl⟩
    | enter => exact hrename
    | edit text => exact .refl l

end Labels

/-- The tab bar shows for each tab what was given to it. -/
structure Attached (island : Island K) (l : Labels K) : Prop where
  colors : ∀ j, island.tabColors.lookup j = l.names[j]?.bind l.colors
  titles : ∀ j, island.tabCustomTitles.lookup j = l.names[j]?.bind l.titles
  picker : island.colorPickerTab.map (l.names[·]?) = l.picked.map some

namespace Attached
open ContextManager

variable {island island' : Island K} {l : Labels K}

theorem picked_of_some (h : Attached island l) {p : ℕ} (hp : island.colorPickerTab = some p) :
    ∃ n, l.names[p]? = some n ∧ l.picked = some n := by
  have hpicker := h.picker
  rw [hp] at hpicker
  cases hpicked : l.picked with
  | none =>
    rw [hpicked] at hpicker
    exact absurd hpicker nofun
  | some n =>
    rw [hpicked] at hpicker
    exact ⟨n, Option.some_inj.mp hpicker, rfl⟩

theorem picked_of_none (h : Attached island l) (hp : island.colorPickerTab = none) :
    l.picked = none := by
  have hpicker := h.picker
  rw [hp] at hpicker
  exact Option.map_eq_none_iff.mp hpicker.symm

theorem picked_mem (h : Attached island l) (n : ℕ) (hn : l.picked = some n) : n ∈ l.names := by
  cases hp : island.colorPickerTab with
  | none => exact absurd (hn.symm.trans (h.picked_of_none hp)) nofun
  | some p =>
    obtain ⟨n', hn', hpicked⟩ := h.picked_of_some hp
    obtain rfl := Option.some_inj.mp (hn.symm.trans hpicked)
    exact List.mem_of_getElem? hn'

/-- The places of the tabs change: `source` says where the tab at a place was before, and `target`
where the tab of a place is then. -/
theorem reindex (h : Attached island l) (hnodup : l.names.Nodup) {names : List ℕ}
    (source target : ℕ → Option ℕ) (htarget : ∀ k j, target k = some j ↔ source j = some k)
    (hnames : ∀ j : ℕ, names[j]? = (source j).bind (l.names[·]?))
    (hcolors : ∀ j, island'.tabColors.lookup j = (source j).bind fun k => island.tabColors.lookup k)
    (htitles : ∀ j, island'.tabCustomTitles.lookup j =
      (source j).bind fun k => island.tabCustomTitles.lookup k)
    (hpicker : island'.colorPickerTab = island.colorPickerTab.bind target) :
    Attached island' (l.reorder names) := by
  have hlabel {V : Type} (value : ℕ → Option V) (j : ℕ) :
      ((source j).bind fun k => l.names[k]?.bind value) = names[j]?.bind value := by
    rw [hnames, Option.bind_assoc]
  refine ⟨fun j => ?_, fun j => ?_, ?_⟩
  · exact (hcolors j).trans ((congrArg _ (funext h.colors)).trans (hlabel l.colors j))
  · exact (htitles j).trans ((congrArg _ (funext h.titles)).trans (hlabel l.titles j))
  · cases hp : island.colorPickerTab with
    | none =>
      rw [hpicker, hp]
      unfold Labels.reorder
      rw [h.picked_of_none hp]
      rfl
    | some p =>
      obtain ⟨n, hn, hpicked⟩ := h.picked_of_some hp
      rw [hpicker, hp]
      unfold Labels.reorder
      rw [hpicked, Option.filter_some]
      dsimp only [Option.bind_some]
      cases hplace : target p with
      | some j =>
        have hj : names[j]? = some n := by
          rw [hnames, (htarget p j).mp hplace]
          exact hn
        rw [if_pos (decide_eq_true (List.mem_of_getElem? hj))]
        exact congrArg some hj
      | none =>
        have hgone : n ∉ names := by
          intro hmem
          obtain ⟨j, hj⟩ := List.mem_iff_getElem?.mp hmem
          rw [hnames] at hj
          obtain ⟨k, hk, hkn⟩ := Option.bind_eq_some_iff.mp hj
          obtain ⟨hlt, hpn⟩ := List.getElem?_eq_some_iff.mp hn
          obtain rfl := (List.getElem?_inj hlt hnodup).mp (hn.trans hkn.symm)
          rw [(htarget p j).mpr hk] at hplace
          exact absurd hplace nofun
        rw [if_neg (by rw [decide_eq_true_eq]; exact hgone)]
        rfl

/-- A value is given to the picked tab, or taken from it. -/
theorem label_update {V : Type} {entries entries' : Table ℕ V} {value : ℕ → Option V}
    (hnodup : l.names.Nodup) (h : ∀ j, entries.lookup j = l.names[j]?.bind value) {p n : ℕ}
    (hn : l.names[p]? = some n) {v : Option V}
    (hentries : ∀ j, entries'.lookup j = if j = p then v else entries.lookup j) (j : ℕ) :
    entries'.lookup j = l.names[j]?.bind (Function.update value n v) := by
  obtain ⟨hlt, -⟩ := List.getElem?_eq_some_iff.mp hn
  rw [hentries]
  by_cases hj : j = p
  · subst hj
    rw [if_pos rfl, hn]
    exact (Function.update_self n v value).symm
  · rw [if_neg hj, h]
    cases hname : l.names[j]? with
    | none => rfl
    | some name =>
      have hne : name ≠ n := by
        rintro rfl
        exact hj ((List.getElem?_inj hlt hnodup).mp (hn.trans hname.symm)).symm
      exact (Function.update_of_ne hne v value).symm

theorem rename (h : Attached island l) (hnodup : l.names.Nodup) :
    Attached { island.applyRename with colorPickerTab := none } (l.rename island.renameInput) := by
  unfold Island.applyRename Labels.rename
  cases hp : island.colorPickerTab with
  | none =>
    rw [h.picked_of_none hp]
    refine ⟨h.colors, h.titles, ?_⟩
    rw [h.picked_of_none hp]
    rfl
  | some p =>
    obtain ⟨n, hn, hpicked⟩ := h.picked_of_some hp
    rw [hpicked]
    refine ⟨h.colors, label_update hnodup h.titles hn fun j => ?_, rfl⟩
    dsimp only
    by_cases hempty : (trim island.renameInput).isEmpty = true
    · rw [if_pos hempty, if_pos hempty, Table.lookup_erase_of]
    · rw [if_neg hempty, if_neg hempty, Table.lookup_insert_of]

theorem paint (h : Attached island l) (hnodup : l.names.Nodup) {p : ℕ}
    (hp : island.colorPickerTab = some p) {color : Option K} {tabColors : Table ℕ K}
    (hcolors : ∀ j, tabColors.lookup j = if j = p then color else island.tabColors.lookup j) :
    Attached { island with tabColors } (l.paint color) := by
  obtain ⟨n, hn, hpicked⟩ := h.picked_of_some hp
  have hpaint : l.paint color = { l with colors := Function.update l.colors n color } := by
    unfold Labels.paint
    rw [hpicked]
  rw [hpaint]
  exact ⟨label_update hnodup h.colors hn hcolors, h.titles, h.picker⟩

theorem pick (h : Attached island l) {i : ℕ} (hi : i < l.names.length) (title : String) :
    Attached (island.openPickerForTab i title) (l.pick i) := by
  unfold Labels.pick
  rw [List.getElem?_eq_getElem hi]
  exact ⟨h.colors, h.titles, congrArg some (List.getElem?_eq_getElem hi)⟩

/-- The picked tab is the one at a place. -/
theorem picked_iff (h : Attached island l) (hnodup : l.names.Nodup) {i : ℕ}
    (hi : i < l.names.length) :
    island.colorPickerTab = some i ↔ l.picked ≠ none ∧ l.names[i]? = l.picked := by
  constructor
  · intro hp
    obtain ⟨n, hn, hpicked⟩ := h.picked_of_some hp
    rw [hpicked]
    exact ⟨nofun, hn⟩
  · rintro ⟨hpicked, hn⟩
    cases hp : island.colorPickerTab with
    | none => exact absurd (h.picked_of_none hp) hpicked
    | some p =>
      obtain ⟨n, hpn, hpicked⟩ := h.picked_of_some hp
      exact congrArg some ((List.getElem?_inj hi hnodup).mp
        ((hn.trans hpicked).trans hpn.symm)).symm

theorem toggle (h : Attached island l) (hnodup : l.names.Nodup) {i : ℕ} (hi : i < l.names.length)
    (title : String) : Attached (island.toggleColorPicker i title)
      (if l.picked ≠ none ∧ l.names[i]? = l.picked then l.rename island.renameInput
      else l.pick i) := by
  unfold Island.toggleColorPicker
  have hiff := h.picked_iff hnodup hi
  by_cases hp : island.colorPickerTab = some i
  · rw [if_pos hp, if_pos (hiff.mp hp)]
    exact h.rename hnodup
  · rw [if_neg hp, if_neg (mt hiff.mpr hp)]
    exact h.pick hi title

theorem openRename (h : Attached island l) (hnodup : l.names.Nodup) {i : ℕ}
    (hi : i < l.names.length) (title : String) :
    Attached (island.openRenameForTab i title) (l.pick i) := by
  unfold Island.openRenameForTab
  by_cases hp : island.colorPickerTab = some i
  · obtain ⟨hsome, hn⟩ := (h.picked_iff hnodup hi).mp hp
    have hpick : l.pick i = l := by
      unfold Labels.pick
      rw [hn]
      cases hpicked : l.picked with
      | none => exact absurd hpicked hsome
      | some n =>
        cases l
        dsimp only at hpicked
        rw [hpicked]
    rw [if_pos hp, hpick]
    exact h
  · rw [if_neg hp]
    exact h.pick hi title

theorem rename_of_none (h : l.picked = none) (text : String) : l.rename text = l := by
  unfold Labels.rename
  rw [h]

theorem paint_of_none (h : l.picked = none) (color : Option K) : l.paint color = l := by
  unfold Labels.paint
  rw [h]

theorem names_paint (l : Labels K) (color : Option K) : (l.paint color).names = l.names := by
  unfold Labels.paint
  split <;> rfl

theorem click (h : Attached island l) (hnodup : l.names.Nodup) (click : PickerClick K) :
    Attached (island.handleColorPickerClick click)
      (match click with
      | .outside => l.rename island.renameInput
      | .swatch color => (l.paint (some color)).rename island.renameInput
      | .reset => (l.paint none).rename island.renameInput
      | .inside => l) := by
  have hpaint (color : Option K) : (l.paint color).names.Nodup := names_paint l color ▸ hnodup
  obtain ⟨colorPickerTab, text, tabColors, tabCustomTitles⟩ := island
  cases colorPickerTab with
  | none =>
    have hnone := h.picked_of_none rfl
    cases click with
    | outside => exact (rename_of_none hnone text).symm ▸ h
    | swatch color =>
      dsimp only
      rw [paint_of_none hnone, rename_of_none hnone]
      exact h
    | reset =>
      dsimp only
      rw [paint_of_none hnone, rename_of_none hnone]
      exact h
    | inside => exact h
  | some p =>
    cases click with
    | outside => exact h.rename hnodup
    | swatch color =>
      exact (h.paint hnodup rfl fun j => Table.lookup_insert_of ..).rename (hpaint _)
    | reset => exact (h.paint hnodup rfl fun j => Table.lookup_erase_of ..).rename (hpaint _)
    | inside => exact h

theorem renameInput (h : Attached island l) (hnodup : l.names.Nodup) (key : RenameKey) :
    Attached (island.handleRenameInput key)
      (match key with
      | .escape => { l with picked := none }
      | .enter => l.rename island.renameInput
      | .edit _ => l) := by
  obtain ⟨colorPickerTab, text, tabColors, tabCustomTitles⟩ := island
  cases colorPickerTab with
  | none =>
    have hnone := h.picked_of_none rfl
    cases key with
    | escape => exact ⟨h.colors, h.titles, rfl⟩
    | enter => exact (rename_of_none hnone text).symm ▸ h
    | edit text => exact h
  | some p =>
    cases key with
    | escape => exact ⟨h.colors, h.titles, rfl⟩
    | enter => exact h.rename hnodup
    | edit text => exact ⟨h.colors, h.titles, h.picker⟩

/-! ### Tabs that move -/

theorem same (h : Attached island l) : Attached island (l.reorder l.names) := by
  refine ⟨h.colors, h.titles, ?_⟩
  unfold Labels.reorder
  cases hp : island.colorPickerTab with
  | none =>
    rw [h.picked_of_none hp]
    rfl
  | some p =>
    obtain ⟨n, hn, hpicked⟩ := h.picked_of_some hp
    rw [hpicked, Option.filter_some, if_pos (decide_eq_true (List.mem_of_getElem? hn))]
    exact congrArg some hn

/-- A new tab has no color and no title. -/
theorem append (h : Attached island l) {name : ℕ} (hcolor : l.colors name = none)
    (htitle : l.titles name = none) : Attached island (l.reorder (l.names ++ [name])) := by
  have hlabel {V : Type} {value : ℕ → Option V} (hnone : value name = none) (j : ℕ) :
      (l.names ++ [name])[j]?.bind value = l.names[j]?.bind value := by
    obtain hlt | heq | hgt := Nat.lt_trichotomy j l.names.length
    · rw [List.getElem?_append_left hlt]
    · subst heq
      rw [List.getElem?_concat_length, List.getElem?_eq_none le_rfl]
      exact hnone
    · rw [List.getElem?_eq_none, List.getElem?_eq_none hgt.le]
      rw [List.length_append]
      exact hgt
  refine ⟨fun j => (h.colors j).trans (hlabel hcolor j).symm,
    fun j => (h.titles j).trans (hlabel htitle j).symm, ?_⟩
  unfold Labels.reorder
  cases hp : island.colorPickerTab with
  | none =>
    rw [h.picked_of_none hp]
    rfl
  | some p =>
    obtain ⟨n, hn, hpicked⟩ := h.picked_of_some hp
    have hmem : n ∈ l.names ++ [name] := List.mem_append_left _ (List.mem_of_getElem? hn)
    rw [hpicked, Option.filter_some, if_pos (decide_eq_true hmem)]
    have hlt := (List.getElem?_eq_some_iff.mp hn).1
    exact congrArg some ((List.getElem?_append_left hlt).trans hn)

/-- Where a tab was before one is removed. -/
def indexBeforeRemoval (removedIndex index : ℕ) : ℕ :=
  if index < removedIndex then index else index + 1

theorem indexAfterRemoval_iff {i k j : ℕ} :
    indexAfterRemoval i k = some j ↔ k = indexBeforeRemoval i j := by
  unfold indexAfterRemoval indexBeforeRemoval
  by_cases hk : k = i
  · rw [if_pos hk]
    refine iff_of_false nofun ?_
    split <;> omega
  · rw [if_neg hk, Option.some_inj]
    split <;> split <;> omega

theorem closed (h : Attached island l) (hnodup : l.names.Nodup) (i : ℕ) :
    Attached (island.handleTabClosed i) (l.reorder (l.names.eraseIdx i)) := by
  refine h.reindex hnodup (fun j => some (indexBeforeRemoval i j)) (indexAfterRemoval i)
    (fun k j => ?_) (fun j => ?_)
    (fun j => Table.lookup_rekey (fun _ _ => indexAfterRemoval_iff) ..)
    (fun j => Table.lookup_rekey (fun _ _ => indexAfterRemoval_iff) ..) rfl
  · rw [indexAfterRemoval_iff, Option.some_inj]
    exact eq_comm
  · rw [List.getElem?_eraseIdx]
    unfold indexBeforeRemoval
    split <;> rfl

theorem lookup_insert_option {V : Type} {entries : Table ℕ V} {k : ℕ} {value : Option V}
    (hk : entries.lookup k = none) (j : ℕ) :
    (match value with
      | some value => entries.insert k value
      | none => entries).lookup j = if j = k then value else entries.lookup j := by
  cases value with
  | some value => exact Table.lookup_insert_of ..
  | none =>
    by_cases hj : j = k
    · rw [if_pos hj, hj]
      exact hk
    · rw [if_neg hj]

theorem lookup_swapEntries {V : Type} (entries : Table ℕ V) {a b : ℕ} (hab : a ≠ b) (j : ℕ) :
    (swapEntries entries a b).lookup j =
      entries.lookup (if j = b then a else if j = a then b else j) := by
  have hb : ((entries.erase a).erase b).lookup b = none := AList.lookup_erase ..
  have ha : (match entries.lookup a with
      | some value => ((entries.erase a).erase b).insert b value
      | none => (entries.erase a).erase b).lookup a = none := by
    rw [lookup_insert_option hb, if_neg hab, AList.lookup_erase_ne hab]
    exact AList.lookup_erase ..
  refine (lookup_insert_option ha j).trans ?_
  rw [lookup_insert_option hb, Table.lookup_erase_of, Table.lookup_erase_of]
  by_cases hjb : j = b
  · subst hjb
    rw [if_neg hab.symm, if_pos rfl, if_pos rfl]
  · by_cases hja : j = a
    · rw [if_pos hja, if_neg hjb, if_pos hja]
    · rw [if_neg hja, if_neg hjb, if_neg hjb, if_neg hja, if_neg hjb, if_neg hja]

/-- Where the tab of a place is after two are exchanged. -/
def indexSwapped (a b index : ℕ) : ℕ := if index = a then b else if index = b then a else index

theorem swapped (h : Attached island l) (hnodup : l.names.Nodup) {a b : ℕ}
    (ha : a < l.names.length) (hb : b < l.names.length) :
    Attached (island.handleTabsSwapped a b)
      (l.reorder ((l.names.set a l.names[b]).set b l.names[a])) := by
  unfold Island.handleTabsSwapped
  by_cases hab : a = b
  · subst hab
    rw [if_pos rfl, List.set_getElem_self, List.set_getElem_self]
    exact h.same
  · rw [if_neg hab]
    refine h.reindex hnodup (fun j => some (indexSwapped b a j))
      (fun k => some (indexSwapped a b k)) (fun k j => ?_)
      (fun j => getElem?_set_set ha hb j) (fun j => lookup_swapEntries _ hab j)
      (fun j => lookup_swapEntries _ hab j) ?_
    · rw [Option.some_inj, Option.some_inj]
      unfold indexSwapped
      split_ifs <;> omega
    · cases island.colorPickerTab <;> rfl

theorem lookup_retainSingleEntry {V : Type} (entries : Table ℕ V) (i j : ℕ) :
    (retainSingleEntry entries i).lookup j = if j = 0 then entries.lookup i else none := by
  unfold retainSingleEntry
  cases entries.lookup i with
  | none =>
    rw [ite_self]
    rfl
  | some value =>
    dsimp only
    rw [← AList.insert_empty, Table.lookup_insert_of, AList.lookup_empty]

theorem retained (h : Attached island l) (hnodup : l.names.Nodup) {i : ℕ}
    (hi : i < l.names.length) :
    Attached (island.handleCloseUnfocusedTabs i) (l.reorder [l.names[i]]) := by
  refine h.reindex hnodup (fun j => if j = 0 then some i else none)
    (fun k => if k = i then some 0 else none) (fun k j => ?_) (fun j => ?_)
    (fun j => ?_) (fun j => ?_) ?_
  · split_ifs with hk hj hj
    · exact iff_of_true (congrArg some hj.symm) (congrArg some hk.symm)
    · exact iff_of_false (fun heq => hj (Option.some_inj.mp heq).symm) nofun
    · exact iff_of_false nofun fun heq => hk (Option.some_inj.mp heq).symm
    · exact iff_of_false nofun nofun
  · by_cases hj : j = 0
    · subst hj
      exact (List.getElem?_eq_getElem hi).symm
    · rw [if_neg hj]
      exact List.getElem?_eq_none (Nat.one_le_iff_ne_zero.mpr hj)
  · refine (lookup_retainSingleEntry _ i j).trans ?_
    split <;> rfl
  · refine (lookup_retainSingleEntry _ i j).trans ?_
    split <;> rfl
  · unfold Island.handleCloseUnfocusedTabs
    cases island.colorPickerTab with
    | none => rfl
    | some p =>
      dsimp only [Option.bind_some]
      by_cases hp : p = i
      · rw [if_pos hp, if_pos (congrArg some hp)]
      · rw [if_neg hp, if_neg (mt Option.some_inj.mp hp)]

/-- The tabs after a removed one move up, and the tab bar is not told: nothing may have been given
to the removed tab and those after it. -/
theorem erased_iff (h : Attached island l) (hnodup : l.names.Nodup) (i : ℕ) :
    Attached island (l.reorder (l.names.eraseIdx i)) ↔
      (∀ j, i ≤ j → island.tabColors.lookup j = none ∧ island.tabCustomTitles.lookup j = none) ∧
        ∀ p, island.colorPickerTab = some p → p < i := by
  have hshift (j : ℕ) (hj : i ≤ j) : (l.names.eraseIdx i)[j]? = l.names[j + 1]? :=
    List.getElem?_eraseIdx_of_ge hj
  have hbefore (j : ℕ) (hj : j < i) : (l.names.eraseIdx i)[j]? = l.names[j]? :=
    List.getElem?_eraseIdx_of_lt hj
  constructor
  · intro hafter
    -- From the removed tab on, every label is that of the next place; there is none after the last.
    have hnone {V : Type} {entries : Table ℕ V} {value : ℕ → Option V}
        (hold : ∀ j, entries.lookup j = l.names[j]?.bind value)
        (hnew : ∀ j, entries.lookup j = (l.names.eraseIdx i)[j]?.bind value) (j : ℕ)
        (hj : i ≤ j) : entries.lookup j = none := by
      by_cases hlt : j < l.names.length
      · induction hk : l.names.length - j generalizing j with
        | zero => omega
        | succ k ih =>
          have hnext : entries.lookup j = entries.lookup (j + 1) := by
            rw [hnew, hshift j hj, hold]
          by_cases hlast : j + 1 < l.names.length
          · rw [hnext]
            exact ih (j + 1) (by omega) hlast (by omega)
          · rw [hnext, hold, List.getElem?_eq_none (not_lt.mp hlast)]
            rfl
      · rw [hold, List.getElem?_eq_none (not_lt.mp hlt)]
        rfl
    refine ⟨fun j hj => ⟨hnone h.colors hafter.colors j hj, hnone h.titles hafter.titles j hj⟩,
      fun p hp => ?_⟩
    by_contra hle
    obtain ⟨n, hn, hpicked⟩ := h.picked_of_some hp
    obtain ⟨n', hn', hpicked'⟩ := hafter.picked_of_some hp
    unfold Labels.reorder at hpicked' hn'
    dsimp only at hpicked' hn'
    rw [hpicked] at hpicked'
    obtain rfl : n = n' := (Option.filter_eq_some_iff.mp hpicked').1 |> Option.some_inj.mp
    rw [hshift p (not_lt.mp hle)] at hn'
    have hlt := (List.getElem?_eq_some_iff.mp hn).1
    exact absurd ((List.getElem?_inj hlt hnodup).mp (hn.trans hn'.symm)) (Nat.succ_ne_self p).symm
  · rintro ⟨hnone, hpicker⟩
    have hlabel {V : Type} {entries : Table ℕ V} {value : ℕ → Option V}
        (hold : ∀ j, entries.lookup j = l.names[j]?.bind value)
        (hnone : ∀ j, i ≤ j → entries.lookup j = none) (j : ℕ) :
        entries.lookup j = (l.names.eraseIdx i)[j]?.bind value := by
      by_cases hj : j < i
      · rw [hbefore j hj, hold]
      · have hj := not_lt.mp hj
        rw [hshift j hj, ← hold, hnone j hj, hnone (j + 1) (by omega)]
    refine ⟨hlabel h.colors fun j hj => (hnone j hj).1,
      hlabel h.titles fun j hj => (hnone j hj).2, ?_⟩
    unfold Labels.reorder
    cases hp : island.colorPickerTab with
    | none =>
      rw [h.picked_of_none hp]
      rfl
    | some p =>
      obtain ⟨n, hn, hpicked⟩ := h.picked_of_some hp
      have hplace := (hbefore p (hpicker p hp)).trans hn
      rw [hpicked, Option.filter_some, if_pos (decide_eq_true (List.mem_of_getElem? hplace))]
      exact congrArg some hplace

end Attached

end Rio.Window
