import Rio.Layout.Neighbors

/-! Which way dividers move, and which sizes the panels at them are given. -/

set_option linter.dupNamespace false

namespace Rio.Layout

namespace FocusDirection

def axis : FocusDirection → Axis
  | .left | .right => .horizontal
  | .up | .down => .vertical

/-- Right and down are the directions in which positions grow. -/
def forward : FocusDirection → Bool
  | .right | .down => true
  | .left | .up => false

/-- How far a divider moves on its axis. -/
def signed (direction : FocusDirection) (amount : ℚ) : ℚ :=
  if direction.forward then amount else -amount

end FocusDirection

namespace ContextGrid
open Forest TaffyTree

variable {C : Type} {taffy : Taffy ℚ} {g g' u : ContextGrid ℚ C} {axis : Axis}
  {direction : FocusDirection} {amount : ℚ} {other first second a b n : NodeId}

def moveDividerOn (taffy : Taffy ℚ) (g : ContextGrid ℚ C) :
    FocusDirection → ℚ → Bool × ContextGrid ℚ C
  | .left, amount => g.moveDividerLeft taffy amount
  | .right, amount => g.moveDividerRight taffy amount
  | .up, amount => g.moveDividerUp taffy amount
  | .down, amount => g.moveDividerDown taffy amount

/-- The least size of a panel at a divider that is moved. -/
def minSize : Axis → ℚ
  | .horizontal => 100
  | .vertical => 50

theorem moveDividerOn_eq (taffy : Taffy ℚ) (g : ContextGrid ℚ C) (direction : FocusDirection)
    (amount : ℚ) : g.moveDividerOn taffy direction amount =
      g.moveDivider taffy direction.axis (neighborsOn direction.axis) (minSize direction.axis)
        amount direction.forward := by
  cases direction <;> rfl

/-- A panel asks for a size, in proportion to those of the others in its container. -/
def Asks (g : ContextGrid ℚ C) (n : NodeId) (size : ℚ) : Prop :=
  (g.tree.style n).flexBasis = .length 0 ∧ (g.tree.style n).flexGrow = size

def shownSize (g : ContextGrid ℚ C) (axis : Axis) (n : NodeId) : ℚ := (g.layout n).size axis

/-- The grid after two panels are given sizes. -/
def resized (taffy : Taffy ℚ) (g : ContextGrid ℚ C) (a : NodeId) (x : ℚ) (b : NodeId) (y : ℚ) :
    ContextGrid ℚ C :=
  ((g.setPanelSize a x).setPanelSize b y).computeLayout taffy

theorem asks_setPanelSize (g : ContextGrid ℚ C) (a : NodeId) (x : ℚ) :
    (g.setPanelSize a x).Asks a x := by
  have hstyle : (g.setPanelSize a x).tree.style a = _ := Function.update_self a _ _
  unfold Asks
  rw [hstyle]
  exact ⟨rfl, rfl⟩

theorem Asks.setPanelSize {x : ℚ} (h : g.Asks a x) (hne : a ≠ b) (y : ℚ) :
    (g.setPanelSize b y).Asks a x := by
  have hstyle : (g.setPanelSize b y).tree.style a = g.tree.style a := Function.update_of_ne hne _ _
  unfold Asks
  rw [hstyle]
  exact h

theorem asks_resized (g : ContextGrid ℚ C) (taffy : Taffy ℚ) (hne : a ≠ b) (x y : ℚ) :
    (g.resized taffy a x b y).Asks a x ∧ (g.resized taffy a x b y).Asks b y :=
  ⟨(asks_setPanelSize g a x).setPanelSize hne y, asks_setPanelSize (g.setPanelSize a x) b y⟩

theorem Asks.unique {x y : ℚ} (hx : g.Asks n x) (hy : g.Asks n y) : x = y :=
  hx.2.symm.trans hy.2

/-- The sizes of the focused panel and another one after the divider between them is moved are at
least the minimum. -/
def Room (g : ContextGrid ℚ C) (direction : FocusDirection) (amount : ℚ) (other : NodeId) : Prop :=
  minSize direction.axis ≤ g.shownSize direction.axis g.current + direction.signed amount ∧
    minSize direction.axis ≤ g.shownSize direction.axis other - direction.signed amount

instance (g : ContextGrid ℚ C) (direction : FocusDirection) (amount : ℚ) (other : NodeId) :
    Decidable (g.Room direction amount other) := inferInstanceAs (Decidable (_ ∧ _))

theorem moveDividerOn_of_none (hnone : (g.ensureUnzoomed taffy).panelCount ≤ 1 ∨
      neighborsOn direction.axis (g.ensureUnzoomed taffy) (g.ensureUnzoomed taffy).current = none) :
    g.moveDividerOn taffy direction amount = (false, g.ensureUnzoomed taffy) := by
  rw [moveDividerOn_eq]
  unfold moveDivider
  dsimp only
  generalize g.ensureUnzoomed taffy = u at hnone
  by_cases hcount : u.panelCount ≤ 1
  · rw [if_pos hcount]
  · rw [if_neg hcount, hnone.resolve_left hcount]

theorem grown_eq (direction : FocusDirection) (size amount : ℚ) :
    (if direction.forward then size + amount else size - amount) =
      size + direction.signed amount := by
  unfold FocusDirection.signed
  cases direction.forward with
  | false => exact sub_eq_add_neg size amount
  | true => rfl

theorem shrunk_eq (direction : FocusDirection) (size amount : ℚ) :
    (if direction.forward then size - amount else size + amount) =
      size - direction.signed amount := by
  unfold FocusDirection.signed
  cases direction.forward with
  | false => exact (sub_neg_eq_add size amount).symm
  | true => rfl

theorem ite_room {α : Type*} (x y : α) :
    (if u.shownSize direction.axis u.current + direction.signed amount < minSize direction.axis ∨
        u.shownSize direction.axis other - direction.signed amount < minSize direction.axis
      then x else y) = if u.Room direction amount other then y else x := by
  by_cases hroom : u.Room direction amount other
  · rw [if_pos hroom, if_neg (not_or.mpr ⟨not_lt.mpr hroom.1, not_lt.mpr hroom.2⟩)]
  · rw [if_neg hroom, if_pos]
    by_contra hboth
    exact hroom ⟨not_lt.mp (not_or.mp hboth).1, not_lt.mp (not_or.mp hboth).2⟩

/-- The focused panel grows where the divider is to move right or down, also on its other side. -/
theorem moveDividerOn_before (direction : FocusDirection) (amount : ℚ)
    (hu : g.ensureUnzoomed taffy = u) (hcount : 1 < u.panelCount)
    (hfound : neighborsOn direction.axis u u.current = some (other, u.current)) :
    g.moveDividerOn taffy direction amount =
      if u.Room direction amount other then
        (true, u.resized taffy other
          (u.shownSize direction.axis other - direction.signed amount) u.current
          (u.shownSize direction.axis u.current + direction.signed amount))
      else (false, u) := by
  rw [← ite_room, ← grown_eq, ← shrunk_eq, moveDividerOn_eq]
  unfold moveDivider
  rw [hu]
  dsimp only
  rw [if_neg (Nat.not_le.mpr hcount), hfound]
  dsimp only
  rw [if_pos rfl]
  refine (if_congr or_comm rfl rfl).trans ?_
  cases direction.forward with
  | false => rfl
  | true => rfl

theorem moveDividerOn_after (direction : FocusDirection) (amount : ℚ)
    (hu : g.ensureUnzoomed taffy = u) (hcount : 1 < u.panelCount)
    (hfound : neighborsOn direction.axis u u.current = some (u.current, other))
    (hne : u.current ≠ other) :
    g.moveDividerOn taffy direction amount =
      if u.Room direction amount other then
        (true, u.resized taffy u.current
          (u.shownSize direction.axis u.current + direction.signed amount) other
          (u.shownSize direction.axis other - direction.signed amount))
      else (false, u) := by
  rw [← ite_room, ← grown_eq, ← shrunk_eq, moveDividerOn_eq]
  unfold moveDivider
  rw [hu]
  dsimp only
  rw [if_neg (Nat.not_le.mpr hcount), hfound]
  dsimp only
  rw [if_neg hne]
  rfl

/-! ### Divider moves -/

/-- The sizes that the panels at a divider ask for have the same sum as those on screen and are
at least the minimum, and the first panel grows if the divider moves right or down. -/
structure DividerMoved (g g' : ContextGrid ℚ C) (direction : FocusDirection)
    (first second : NodeId) (x y : ℚ) : Prop where
  asked : g'.Asks first x ∧ g'.Asks second y
  sum : x + y = g.shownSize direction.axis first + g.shownSize direction.axis second
  least : minSize direction.axis ≤ x ∧ minSize direction.axis ≤ y
  edge : if direction.forward then g.shownSize direction.axis first < x
    else x < g.shownSize direction.axis first

/-- A divider is moved as its direction says, or nothing is changed, in whatever order the panels
are listed. -/
def MovesDivider (taffy : Taffy ℚ) (g : ContextGrid ℚ C) (direction : FocusDirection)
    (amount : ℚ) : Prop :=
  ∀ g', g.Reordered g' →
    (∃ moved first second x y, g'.moveDividerOn taffy direction amount = (true, moved) ∧
      neighborsOn direction.axis (g'.ensureUnzoomed taffy) g.current = some (first, second) ∧
      (g'.ensureUnzoomed taffy).DividerMoved moved direction first second x y) ∨
    g'.moveDividerOn taffy direction amount = (false, g')

/-- No panel is left of or above the focused one, by positions, unless the divider between them
stays where it is; and the grid is not zoomed where a divider stays. -/
structure DividerFree (taffy : Taffy ℚ) (g : ContextGrid ℚ C) (direction : FocusDirection)
    (amount : ℚ) : Prop where
  before : ∀ other, (g.ensureUnzoomed taffy).PanelBefore direction.axis other →
    ¬ (g.ensureUnzoomed taffy).Room direction amount other ∧ g.zoomedPanelStyles = none
  after : (∀ other, ¬ (g.ensureUnzoomed taffy).PanelBefore direction.axis other) →
    ∀ other, (g.ensureUnzoomed taffy).PanelAfter direction.axis other →
      (g.ensureUnzoomed taffy).Room direction amount other ∨ g.zoomedPanelStyles = none
  alone : (∀ other, ¬ (g.ensureUnzoomed taffy).PanelBefore direction.axis other ∧
      ¬ (g.ensureUnzoomed taffy).PanelAfter direction.axis other) →
    g.zoomedPanelStyles = none

theorem visiblePanelCount_of_reordered (h : g.Reordered g') :
    g'.visiblePanelCount = g.visiblePanelCount := by
  obtain ⟨inner, hperm, rfl⟩ := h
  exact ((hperm.map Sigma.fst).filter _).length_eq

theorem Reordered.updateLayoutRects (h : g.Reordered g') :
    g.updateLayoutRects.Reordered g'.updateLayoutRects := by
  have hcount := visiblePanelCount_of_reordered h
  obtain ⟨inner, hperm, rfl⟩ := h
  have hplaced : ContextGrid.placed { g with inner } = g.placed := by
    unfold placed
    rw [hcount]
  have hentries := entries_updateLayoutRects { g with inner }
  rw [hplaced] at hentries
  refine ⟨_, (List.Perm.of_eq hentries).trans ?_, rfl⟩
  rw [entries_updateLayoutRects]
  exact hperm.map _

theorem Reordered.ensureUnzoomed (h : g.Reordered g') (taffy : Taffy ℚ) :
    (g.ensureUnzoomed taffy).Reordered (g'.ensureUnzoomed taffy) := by
  cases hzoom : g.zoomedPanelStyles with
  | none =>
    have hzoom' : g'.zoomedPanelStyles = none := by
      obtain ⟨inner, hperm, rfl⟩ := h
      exact hzoom
    rw [ensureUnzoomed_of_none hzoom, ensureUnzoomed_of_none hzoom']
    exact h
  | some snapshot =>
    have hzoom' : g'.zoomedPanelStyles = some snapshot := by
      obtain ⟨inner, hperm, rfl⟩ := h
      exact hzoom
    rw [ensureUnzoomed_of_some hzoom, ensureUnzoomed_of_some hzoom']
    obtain ⟨inner, hperm, rfl⟩ := h
    unfold computeLayout
    exact Reordered.updateLayoutRects ⟨inner, hperm, rfl⟩

theorem sameNodes_ensureUnzoomed (g : ContextGrid ℚ C) (taffy : Taffy ℚ) :
    g.SameNodes (g.ensureUnzoomed taffy) := by
  cases hzoom : g.zoomedPanelStyles with
  | none =>
    rw [ensureUnzoomed_of_none hzoom]
    exact .refl g
  | some snapshot =>
    rw [ensureUnzoomed_of_some hzoom]
    exact (g.sameNodes_restoreStyles snapshot).trans (restyled_computeLayout _ taffy).toSameNodes

theorem one_lt_panelCount (hcurrent : g.current ∈ g.inner) (hother : g.IsOther g.current other) :
    1 < g.panelCount := by
  have hnodup : [g.current, other].Nodup := by simpa using hother.2.2.symm
  have hsub : [g.current, other] ⊆ g.inner.keys := by
    intro n hn
    obtain rfl | hn := List.mem_cons.mp hn
    · exact AList.mem_keys.mp hcurrent
    · rw [List.mem_singleton.mp hn]
      exact AList.mem_keys.mp hother.1
  exact (hnodup.subperm hsub).length_le

/-- Where nothing moves, nothing is changed if the grid was not zoomed. -/
theorem Reordered.ensureUnzoomed_eq_iff (h : g.Reordered g') (taffy : Taffy ℚ) :
    g'.ensureUnzoomed taffy = g' ↔ g.zoomedPanelStyles = none := by
  have hsame : g'.zoomedPanelStyles = g.zoomedPanelStyles := by
    obtain ⟨inner, hperm, rfl⟩ := h
    rfl
  rw [← hsame]
  constructor
  · intro hself
    rw [← hself]
    cases hzoom : g'.zoomedPanelStyles with
    | none => rw [ensureUnzoomed_of_none hzoom, hzoom]
    | some snapshot =>
      rw [ensureUnzoomed_of_some hzoom]
      rfl
  · exact ensureUnzoomed_of_none

/-- A divider that is left of or above the focused panel moves the other way. -/
theorem not_dividerMoved_before {x y : ℚ} (hamount : 0 < amount)
    (hother : other ≠ u.current)
    (h : u.DividerMoved (u.resized taffy other
      (u.shownSize direction.axis other - direction.signed amount) u.current
      (u.shownSize direction.axis u.current + direction.signed amount)) direction other u.current
      x y) : False := by
  have hx := h.asked.1.unique (asks_resized u taffy hother _ _).1
  have hedge := h.edge
  rw [hx] at hedge
  unfold FocusDirection.signed at hedge
  cases hforward : direction.forward with
  | false =>
    simp only [hforward, Bool.false_eq_true, if_false] at hedge
    linarith
  | true =>
    simp only [hforward, if_true] at hedge
    linarith

theorem dividerMoved_after (taffy : Taffy ℚ) (hamount : 0 < amount) (hother : u.current ≠ other)
    (hroom : u.Room direction amount other) :
    u.DividerMoved (u.resized taffy u.current
      (u.shownSize direction.axis u.current + direction.signed amount) other
      (u.shownSize direction.axis other - direction.signed amount)) direction u.current other
      (u.shownSize direction.axis u.current + direction.signed amount)
      (u.shownSize direction.axis other - direction.signed amount) := by
  refine ⟨asks_resized u taffy hother _ _, by ring, hroom, ?_⟩
  unfold FocusDirection.signed
  cases direction.forward with
  | false => simpa using hamount
  | true => simpa using hamount

/-- What a request to move a divider does, by where the panel that is found is. -/
theorem Held.moveDividerOn_cases (h : g.Held) (taffy : Taffy ℚ) (direction : FocusDirection)
    (hamount : 0 < amount) (hreordered : g.Reordered g') :
    (∃ other, (g.ensureUnzoomed taffy).PanelBefore direction.axis other ∧
      neighborsOn direction.axis (g'.ensureUnzoomed taffy) g.current = some (other, g.current) ∧
      ((g.ensureUnzoomed taffy).Room direction amount other →
        ∃ moved, g'.moveDividerOn taffy direction amount = (true, moved) ∧
          ∀ x y, ¬ (g'.ensureUnzoomed taffy).DividerMoved moved direction other g.current x y) ∧
      (¬ (g.ensureUnzoomed taffy).Room direction amount other →
        g'.moveDividerOn taffy direction amount = (false, g'.ensureUnzoomed taffy))) ∨
    (∀ other, ¬ (g.ensureUnzoomed taffy).PanelBefore direction.axis other) ∧
      ((∃ other, (g.ensureUnzoomed taffy).PanelAfter direction.axis other ∧
        neighborsOn direction.axis (g'.ensureUnzoomed taffy) g.current = some (g.current, other) ∧
        ((g.ensureUnzoomed taffy).Room direction amount other →
          ∃ moved x y, g'.moveDividerOn taffy direction amount = (true, moved) ∧
            (g'.ensureUnzoomed taffy).DividerMoved moved direction g.current other x y) ∧
        (¬ (g.ensureUnzoomed taffy).Room direction amount other →
          g'.moveDividerOn taffy direction amount = (false, g'.ensureUnzoomed taffy))) ∨
      (∀ other, ¬ (g.ensureUnzoomed taffy).PanelAfter direction.axis other) ∧
        g'.moveDividerOn taffy direction amount = (false, g'.ensureUnzoomed taffy)) := by
  have hfocused := (h.ensureUnzoomed taffy).1.wellFormed.focused
  have hself : (g.ensureUnzoomed taffy).current = g.current :=
    (sameNodes_ensureUnzoomed g taffy).current
  have hreordered' := hreordered.ensureUnzoomed taffy
  have hcases := hreordered'.neighborsOn_cases direction.axis hfocused.1 hfocused.2
  have hmem' := hreordered'.mem_inner.mpr hfocused.1
  have hothers := fun other =>
    hreordered'.isOther_iff (g.ensureUnzoomed taffy).current other
  obtain ⟨inner, hperm, hu'⟩ := hreordered'
  rw [hself] at hcases
  generalize g.ensureUnzoomed taffy = u at *
  have hcurrent' : (g'.ensureUnzoomed taffy).current = u.current := by rw [hu']
  have hmem : (g'.ensureUnzoomed taffy).current ∈ (g'.ensureUnzoomed taffy).inner := by
    rwa [hcurrent']
  have hroom (other : NodeId) : (g'.ensureUnzoomed taffy).Room direction amount other ↔
      u.Room direction amount other := by rw [hu']; rfl
  obtain ⟨other, hother, hfound⟩ | ⟨hnone, ⟨other, hother, hfound⟩ | ⟨hnone', hfound⟩⟩ := hcases
  · have hcount := one_lt_panelCount hmem (hcurrent' ▸ (hothers other).mpr hother.1)
    have hmove := moveDividerOn_before direction amount rfl hcount
      (by rwa [hcurrent', hself])
    refine .inl ⟨other, hother, hfound, fun hyes => ?_, fun hno => ?_⟩
    · rw [if_pos ((hroom other).mpr hyes)] at hmove
      refine ⟨_, hmove, fun x y hmoved => ?_⟩
      rw [← hself, ← hcurrent'] at hmoved
      exact not_dividerMoved_before hamount (hcurrent' ▸ hother.1.2.2) hmoved
    · rwa [if_neg fun hyes => hno ((hroom other).mp hyes)] at hmove
  · have hcount := one_lt_panelCount hmem (hcurrent' ▸ (hothers other).mpr hother.1)
    have hne : (g'.ensureUnzoomed taffy).current ≠ other := hcurrent' ▸ hother.1.2.2.symm
    have hmove := moveDividerOn_after direction amount rfl hcount
      (by rwa [hcurrent', hself]) hne
    refine .inr ⟨hnone, .inl ⟨other, hother, hfound, fun hyes => ?_, fun hno => ?_⟩⟩
    · rw [if_pos ((hroom other).mpr hyes)] at hmove
      have hmoved := dividerMoved_after taffy hamount hne ((hroom other).mpr hyes)
      rw [hcurrent', hself] at hmove hmoved
      exact ⟨_, _, _, hmove, hmoved⟩
    · rwa [if_neg fun hyes => hno ((hroom other).mp hyes)] at hmove
  · refine .inr ⟨hnone, .inr ⟨hnone', moveDividerOn_of_none (.inr ?_)⟩⟩
    rwa [hcurrent', hself]

/-- Dividers move as their direction says if and only if the focused panel is the first one at
them. -/
theorem Held.movesDivider_iff (h : g.Held) (hamount : 0 < amount) :
    g.MovesDivider taffy direction amount ↔ g.DividerFree taffy direction amount := by
  have hnodes := sameNodes_ensureUnzoomed g taffy
  have hfocused := (h.ensureUnzoomed taffy).1.wellFormed.focused
  constructor
  · intro hmoves
    -- A request that is refused has to leave the grid as it is.
    have hrefused {g' : ContextGrid ℚ C} (hreordered : g.Reordered g')
        (hmove : g'.moveDividerOn taffy direction amount = (false, g'.ensureUnzoomed taffy)) :
        g.zoomedPanelStyles = none := by
      obtain ⟨moved, _, _, _, _, htrue, -⟩ | hfalse := hmoves g' hreordered
      · exact absurd (congrArg Prod.fst (hmove.symm.trans htrue)) Bool.false_ne_true
      · exact (hreordered.ensureUnzoomed_eq_iff taffy).mp
          (congrArg Prod.snd (hmove.symm.trans hfalse))
    refine ⟨fun other hother => ?_, fun hnone other hother => ?_, fun hnone => ?_⟩
    · -- The panel is found where it is listed first.
      obtain ⟨g', keys, hreordered, hkeys⟩ := exists_reordered_first
        (hnodes.mem_inner.mp hother.1.1)
      have hkeys' : (g'.ensureUnzoomed taffy).inner.keys = other :: keys :=
        (sameNodes_ensureUnzoomed g' taffy).keys.trans hkeys
      have hfirst := (hreordered.ensureUnzoomed taffy).neighborsOn_before hkeys' hfocused.1
        hfocused.2 hother
      rw [hnodes.current] at hfirst
      obtain ⟨o, ho, hfound, hyes, hno⟩ | ⟨hnone, -⟩ :=
        h.moveDividerOn_cases taffy direction hamount hreordered
      · obtain rfl := (Prod.mk.inj (Option.some.inj (hfound.symm.trans hfirst))).1
        have hroom : ¬ (g.ensureUnzoomed taffy).Room direction amount o := by
          intro hroom
          obtain ⟨moved, htrue, hnot⟩ := hyes hroom
          obtain ⟨moved', first, second, x, y, htrue', hpair, hmoved⟩ | hfalse :=
            hmoves g' hreordered
          · obtain rfl := (Prod.mk.inj (htrue.symm.trans htrue')).2
            obtain ⟨rfl, rfl⟩ := Prod.mk.inj (Option.some.inj (hfound.symm.trans hpair))
            exact hnot x y hmoved
          · exact absurd (congrArg Prod.fst (htrue.symm.trans hfalse)).symm Bool.false_ne_true
        exact ⟨hroom, hrefused hreordered (hno hroom)⟩
      · exact absurd hother (hnone other)
    · obtain ⟨g', keys, hreordered, hkeys⟩ := exists_reordered_first
        (hnodes.mem_inner.mp hother.1.1)
      have hkeys' : (g'.ensureUnzoomed taffy).inner.keys = other :: keys :=
        (sameNodes_ensureUnzoomed g' taffy).keys.trans hkeys
      have hfirst := (hreordered.ensureUnzoomed taffy).neighborsOn_after hkeys' hfocused.1
        hfocused.2 hother hnone
      rw [hnodes.current] at hfirst
      obtain ⟨o, ho, -⟩ | ⟨-, ⟨o, -, hfound, -, hno⟩ | ⟨hnone', -⟩⟩ :=
        h.moveDividerOn_cases taffy direction hamount hreordered
      · exact absurd ho (hnone o)
      · obtain rfl := (Prod.mk.inj (Option.some.inj (hfound.symm.trans hfirst))).2
        by_cases hroom : (g.ensureUnzoomed taffy).Room direction amount o
        · exact .inl hroom
        · exact .inr (hrefused hreordered (hno hroom))
      · exact absurd hother (hnone' other)
    · obtain ⟨o, ho, -⟩ | ⟨-, ⟨o, ho, -⟩ | ⟨-, hno⟩⟩ :=
        h.moveDividerOn_cases taffy direction hamount (.refl g)
      · exact absurd ho (hnone o).1
      · exact absurd ho (hnone o).2
      · exact hrefused (.refl g) hno
  · intro hfree g' hreordered
    have hstays := hreordered.ensureUnzoomed_eq_iff taffy
    obtain ⟨other, hother, hfound, hyes, hno⟩ |
        ⟨hnone, ⟨other, hother, hfound, hyes, hno⟩ | ⟨hnone', hno⟩⟩ :=
      h.moveDividerOn_cases taffy direction hamount hreordered
    · obtain ⟨hroom, hzoom⟩ := hfree.before other hother
      rw [hno hroom, hstays.mpr hzoom]
      exact .inr rfl
    · by_cases hroom : (g.ensureUnzoomed taffy).Room direction amount other
      · obtain ⟨moved, x, y, hmove, hmoved⟩ := hyes hroom
        exact .inl ⟨moved, _, _, x, y, hmove, hfound, hmoved⟩
      · rw [hno hroom, hstays.mpr ((hfree.after hnone other hother).resolve_left hroom)]
        exact .inr rfl
    · rw [hno, hstays.mpr (hfree.alone fun o => ⟨hnone o, hnone' o⟩)]
      exact .inr rfl

/-! ### Borders -/

/-- The least size of a panel at a border that is dragged. -/
def minBorderSize (g : ContextGrid ℚ C) : ℚ := 50 * g.scale

/-- Dragging a border keeps the sum of the two sizes, each at least the minimum, if there is room
for two of the minimum. -/
def DragsBorder (taffy : Taffy ℚ) (g : ContextGrid ℚ C) (a b : NodeId) (sizes : ℚ × ℚ)
    (delta : ℚ) : Prop :=
  2 * g.minBorderSize ≤ sizes.1 + sizes.2 →
    ∃ x y, (g.resizeBorder taffy a b sizes delta).Asks a x ∧
      (g.resizeBorder taffy a b sizes delta).Asks b y ∧ x + y = sizes.1 + sizes.2 ∧
      g.minBorderSize ≤ x ∧ g.minBorderSize ≤ y

/-- The sum is kept if and only if neither size has to be raised to the minimum. -/
theorem dragsBorder_iff (taffy : Taffy ℚ) (hne : a ≠ b) (sizes : ℚ × ℚ) (delta : ℚ) :
    g.DragsBorder taffy a b sizes delta ↔ sizes.1 + sizes.2 < 2 * g.minBorderSize ∨
      g.minBorderSize ≤ sizes.1 + delta ∧ g.minBorderSize ≤ sizes.2 - delta := by
  have hasks : (g.resizeBorder taffy a b sizes delta).Asks a
      (max (sizes.1 + delta) g.minBorderSize) ∧
      (g.resizeBorder taffy a b sizes delta).Asks b (max (sizes.2 - delta) g.minBorderSize) :=
    asks_resized g taffy hne _ _
  constructor
  · intro h
    by_cases hroom : sizes.1 + sizes.2 < 2 * g.minBorderSize
    · exact .inl hroom
    · obtain ⟨x, y, hx, hy, hsum, -, -⟩ := h (not_lt.mp hroom)
      rw [hx.unique hasks.1, hy.unique hasks.2] at hsum
      have hfirst := le_max_left (sizes.1 + delta) g.minBorderSize
      have hsecond := le_max_left (sizes.2 - delta) g.minBorderSize
      have hleast := le_max_right (sizes.1 + delta) g.minBorderSize
      have hleast' := le_max_right (sizes.2 - delta) g.minBorderSize
      exact .inr ⟨by linarith, by linarith⟩
  · rintro (hroom | ⟨hx, hy⟩) hsizes
    · exact absurd hsizes (not_le.mpr hroom)
    · rw [max_eq_left hx, max_eq_left hy] at hasks
      exact ⟨_, _, hasks.1, hasks.2, by ring, hx, hy⟩

/-! ### All dividers of a grid -/

/-- Neighbors of the focused panel are found as they are on screen, dividers are moved as their
directions say, and the sizes at a border that is dragged keep their sum. -/
structure DividersRight (taffy : Taffy ℚ) (g : ContextGrid ℚ C) (amount : ℚ) (a b : NodeId)
    (sizes : ℚ × ℚ) (delta : ℚ) : Prop where
  neighbors : ∀ axis, g.NeighborsFound axis
  moves : ∀ direction, g.MovesDivider taffy direction amount
  drags : g.DragsBorder taffy a b sizes delta

/-- Two panels that fill the halves of a window of 800 by 600 pixels. -/
def sideBySide : Taffy ℚ :=
  ⟨fun _ _ n =>
    let box (x width : ℚ) : NodeLayout ℚ := ⟨x, 0, width, 600, x, 0, width, 600⟩
    if n = 1 then box 0 400 else if n = 3 then box 400 400 else box 0 800⟩

def halves : ContextGrid ℚ ℕ :=
  (ContextGrid.new sideBySide 0 800 600 1 ⟨0, 0, 0, 0⟩
    ⟨⟨0, 0, 0, 0⟩, ⟨0, 0, 0, 0⟩, 0, 0⟩).splitRight sideBySide 1

theorem halves_sound : halves.Sound := by
  unfold halves splitRight
  have hnew := sound_new sideBySide 0 800 600 1 ⟨0, 0, 0, 0⟩ ⟨⟨0, 0, 0, 0⟩, ⟨0, 0, 0, 0⟩, 0, 0⟩
  exact hnew.toHeld.split .row 1

theorem mem_halves : n ∈ halves.inner ↔ n = 3 ∨ n = 1 := by
  rw [AList.mem_keys, show halves.inner.keys = [3, 1] from rfl]
  simp

theorem before_halves : halves.LocalBefore .horizontal (halves.panelGap .horizontal) 1 3 := by
  have hgap : halves.panelGap .horizontal = 0 * 1 := rfl
  have hfirst : (halves.layout 1).rect = ⟨0, 0, 400, 600⟩ := rfl
  have hsecond : (halves.layout 3).rect = ⟨400, 0, 400, 600⟩ := rfl
  unfold LocalBefore
  rw [hgap, hfirst, hsecond]
  constructor <;> norm_num [Rect.start, Rect.size, Axis.cross]

/-- The left panel is focused. -/
def leftHalf : ContextGrid ℚ ℕ := { halves with current := 1 }

theorem leftHalf_sound : leftHalf.Sound :=
  halves_sound.selects (.inr ⟨1, mem_halves.mpr (.inr rfl), rfl, rfl⟩)

theorem not_panelBefore_leftHalf (axis : Axis) (other : NodeId) :
    ¬ leftHalf.PanelBefore axis other := by
  rintro ⟨⟨hmem, -, hne⟩, hlocal⟩
  obtain rfl : other = 3 := (mem_halves.mp hmem).resolve_right hne
  have hfirst : (leftHalf.layout 1).rect = ⟨0, 0, 400, 600⟩ := rfl
  have hsecond : (leftHalf.layout 3).rect = ⟨400, 0, 400, 600⟩ := rfl
  unfold LocalBefore at hlocal
  rw [show leftHalf.current = 1 from rfl, hfirst, hsecond] at hlocal
  cases axis with
  | horizontal => exact absurd hlocal.apart (by norm_num [Rect.start, Rect.size])
  | vertical => exact absurd hlocal.low (by norm_num [Rect.start, Rect.size, Axis.cross])

end ContextGrid
end Rio.Layout
