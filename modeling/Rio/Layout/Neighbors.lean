import Rio.Layout.Zoom
import Mathlib.Algebra.Order.Ring.Rat
import Mathlib.Tactic.Linarith

/-! Which panels are beside each other: on screen, and in the coordinates of their containers. -/

set_option linter.dupNamespace false

namespace Rio.Layout

instance : Number ℚ where
  ofNat n := n
  abs x := |x|
  decidableLT := inferInstance
  decidableLE := inferInstance

/-- The box of a node, in the coordinates of its container. -/
def NodeLayout.rect {F : Type} (l : NodeLayout F) : Rect F := ⟨l.x, l.y, l.width, l.height⟩

namespace Rect

def start {F : Type} (r : Rect F) : Axis → F
  | .horizontal => r.x
  | .vertical => r.y

def size {F : Type} (r : Rect F) : Axis → F
  | .horizontal => r.width
  | .vertical => r.height

/-- A rectangle is left of another, or above it: they overlap on the other axis and are a gap
apart, up to a pixel. -/
structure Before (axis : Axis) (gap : ℚ) (a b : Rect ℚ) : Prop where
  low : a.start axis.cross < b.start axis.cross + b.size axis.cross
  high : b.start axis.cross < a.start axis.cross + a.size axis.cross
  apart : 0 ≤ b.start axis - (a.start axis + a.size axis)
  near : b.start axis - (a.start axis + a.size axis) ≤ gap + 1

instance (axis : Axis) (gap : ℚ) (a b : Rect ℚ) : Decidable (Before axis gap a b) :=
  decidable_of_iff (_ ∧ _ ∧ _ ∧ _)
    ⟨fun h => ⟨h.1, h.2.1, h.2.2.1, h.2.2.2⟩, fun h => ⟨h.low, h.high, h.apart, h.near⟩⟩

/-- A rectangle that is moved. -/
def shift (r : Rect ℚ) (x y : ℚ) : Rect ℚ := ⟨x + r.x, y + r.y, r.width, r.height⟩

variable {axis : Axis} {gap : ℚ} {a b : Rect ℚ}

theorem before_shift_iff (x y : ℚ) :
    Before axis gap (a.shift x y) (b.shift x y) ↔ Before axis gap a b := by
  cases axis with
  | horizontal =>
    constructor
    · rintro ⟨hlow, hhigh, hapart, hnear⟩
      simp only [shift, start, size, Axis.cross] at hlow hhigh hapart hnear
      constructor <;> simp only [start, size, Axis.cross] <;> linarith
    · rintro ⟨hlow, hhigh, hapart, hnear⟩
      simp only [start, size, Axis.cross] at hlow hhigh hapart hnear
      constructor <;> simp only [shift, start, size, Axis.cross] <;> linarith
  | vertical =>
    constructor
    · rintro ⟨hlow, hhigh, hapart, hnear⟩
      simp only [shift, start, size, Axis.cross] at hlow hhigh hapart hnear
      constructor <;> simp only [start, size, Axis.cross] <;> linarith
    · rintro ⟨hlow, hhigh, hapart, hnear⟩
      simp only [start, size, Axis.cross] at hlow hhigh hapart hnear
      constructor <;> simp only [shift, start, size, Axis.cross] <;> linarith

end Rect

namespace ContextGrid
open Forest TaffyTree

/-! ### Where panels are on screen -/

section Screen
variable {F C : Type} [Number F] {g : ContextGrid F C} {kids : Forest NodeId} {n : NodeId} {x y : F}

/-- Where the container of a node is: at the corner of the window, moved by the positions of the
nodes above it. -/
inductive Corner (g : ContextGrid F C) : NodeId → F → F → Prop
  | root : Corner g g.rootNode 0 0
  | child {p n : NodeId} {x y : F} : Corner g p x y → n ∈ g.tree.children p →
      Corner g n (x + (g.layout p).x) (y + (g.layout p).y)

/-- The walk over the tree carries the corners along. -/
theorem corner_of_mem_positions : ∀ {fuel : ℕ} {stack : List (NodeId × F × F)},
    (∀ e ∈ stack, g.Corner e.1 e.2.1 e.2.2) →
      ∀ e ∈ positions g.tree.children g.layout fuel stack, g.Corner e.1 e.2.1 e.2.2
  | 0, _, _, _, he => absurd he List.not_mem_nil
  | _ + 1, [], _, _, he => absurd he List.not_mem_nil
  | fuel + 1, (node, x, y) :: stack, hstack, e, he => by
    obtain ⟨hnode, hstack⟩ := List.forall_mem_cons.mp hstack
    obtain rfl | he := List.mem_cons.mp he
    · exact hnode
    refine corner_of_mem_positions (fun e' he' => ?_) e he
    obtain hchild | hbelow := List.mem_append.mp he'
    · obtain ⟨child, hmem, rfl⟩ := List.mem_map.mp hchild
      exact .child hnode (List.mem_reverse.mp hmem)
    · exact hstack e' hbelow

/-- What holds of all places that a panel is put at holds of the last one. -/
theorem foldl_place_layoutRect {P : Rect F → Prop} {layout : NodeId → NodeLayout F}
    {useContentBox : Bool} {k : NodeId} :
    ∀ {l : List (NodeId × F × F)} (v : ContextGridItem F C),
      (∀ e ∈ l, e.1 = k → P (place (layout e.1) useContentBox e.2.1 e.2.2 v).layoutRect) →
      k ∈ l.map Prod.fst ∨ P v.layoutRect →
        P (l.foldl (fun v p =>
          if k = p.1 then place (layout p.1) useContentBox p.2.1 p.2.2 v else v) v).layoutRect
  | [], v, _, hk => hk.resolve_left List.not_mem_nil
  | p :: l, v, hplaces, hk => by
    obtain ⟨hfirst, hrest⟩ := List.forall_mem_cons.mp hplaces
    rw [List.foldl_cons]
    by_cases hp : k = p.1
    · rw [if_pos hp]
      exact foldl_place_layoutRect _ hrest (.inr (hfirst hp.symm))
    · rw [if_neg hp]
      refine foldl_place_layoutRect v hrest (hk.imp_left fun hmem => ?_)
      exact (List.mem_cons.mp hmem).resolve_left hp

/-- The rectangle of a panel on screen. -/
def screenRect (g : ContextGrid F C) (n : NodeId) : Rect F :=
  match g.updateLayoutRects.inner.lookup n with
  | some item => item.layoutRect
  | none => (g.layout n).rect

/-- A panel after the walk over the tree. -/
def placed (g : ContextGrid F C) (n : NodeId) (item : ContextGridItem F C) :
    ContextGridItem F C :=
  (positions g.tree.children g.layout g.tree.next [(g.rootNode, 0, 0)]).foldl
    (fun v p => if n = p.1 then
      place (g.layout p.1) (decide (1 < g.visiblePanelCount)) p.2.1 p.2.2 v else v) item

theorem entries_updateLayoutRects (g : ContextGrid F C) :
    g.updateLayoutRects.inner.entries = g.inner.entries.map (Sigma.map id g.placed) :=
  Table.entries_foldl_adjust Prod.fst _ _ g.inner

theorem lookup_updateLayoutRects (g : ContextGrid F C) (n : NodeId) :
    g.updateLayoutRects.inner.lookup n = (g.inner.lookup n).map (g.placed n) := by
  unfold AList.lookup
  rw [entries_updateLayoutRects]
  exact List.dlookup_map₂ n

/-- A panel is at the corner of its container, moved by its position there. -/
theorem Held.screenRect_eq (h : g.Held) (hn : n ∈ g.inner) :
    ∃ x y, g.Corner n x y ∧ g.screenRect n =
      ⟨x + (g.layout n).x, y + (g.layout n).y, (g.layout n).width, (g.layout n).height⟩ := by
  obtain ⟨kids, hshaped⟩ := h.shaped
  obtain ⟨item, hitem⟩ := Option.isSome_iff_exists.mp (AList.lookup_isSome.mpr hn)
  have hvisited : n ∈ (positions g.tree.children g.layout g.tree.next
      [(g.rootNode, 0, 0)]).map Prod.fst := by
    rw [positions_map_fst]
    exact hshaped.mem_collect.mpr (hshaped.mem_inner_iff.mp hn).1
  have hcorners : ∀ e ∈ positions g.tree.children g.layout g.tree.next [(g.rootNode, 0, 0)],
      g.Corner e.1 e.2.1 e.2.2 :=
    corner_of_mem_positions fun e he => List.mem_singleton.mp he ▸ .root
  unfold screenRect
  rw [lookup_updateLayoutRects, hitem]
  refine foldl_place_layoutRect (P := fun r => ∃ x y, g.Corner n x y ∧ r =
    ⟨x + (g.layout n).x, y + (g.layout n).y, (g.layout n).width, (g.layout n).height⟩) item
    (fun e he hen => ?_) (.inl hvisited)
  subst hen
  exact ⟨e.2.1, e.2.2, hcorners e he, rfl⟩

namespace Corner

theorem mem_nodes (hshaped : g.Shaped kids) (h : g.Corner n x y) :
    n ∈ (cons g.rootNode kids nil).nodes := by
  induction h with
  | root => exact List.mem_cons_self
  | child _ hmem ih => exact (hshaped.holding.mem_children ih hmem).1

/-- The panels of one container have the same corner. -/
theorem eq_of_parent (hshaped : g.Shaped kids) (h : g.Corner n x y) :
    ∀ {n' : NodeId} {x' y' : F}, g.Corner n' x' y' → g.tree.parent n' = g.tree.parent n →
      x' = x ∧ y' = y := by
  have hroot : g.tree.parent g.rootNode = none :=
    hshaped.holding.parent_eq_none (List.mem_singleton_self _)
  induction h with
  | root =>
    rintro n' x' y' (_ | ⟨hp', hmem'⟩) hparent
    · exact ⟨rfl, rfl⟩
    · have hsome := (hshaped.holding.mem_children (hp'.mem_nodes hshaped) hmem').2
      exact absurd (hsome.symm.trans (hparent.trans hroot)) nofun
  | child hp hmem ih =>
    have hself := (hshaped.holding.mem_children (hp.mem_nodes hshaped) hmem).2
    rintro n' x' y' (_ | ⟨hp', hmem'⟩) hparent
    · exact absurd (hself.symm.trans (hparent.symm.trans hroot)) nofun
    · have hsome := (hshaped.holding.mem_children (hp'.mem_nodes hshaped) hmem').2
      obtain rfl := Option.some.inj (hsome.symm.trans (hparent.trans hself))
      obtain ⟨rfl, rfl⟩ := ih hp' rfl
      exact ⟨rfl, rfl⟩

end Corner

end Screen

/-! ### Neighbors -/

variable {C : Type} {g g' : ContextGrid ℚ C} {axis : Axis} {gap : ℚ} {node other a b : NodeId}

/-- Another panel that is not hidden. -/
def IsOther (g : ContextGrid ℚ C) (node other : NodeId) : Prop :=
  other ∈ g.inner ∧ g.isNodeVisible other = true ∧ other ≠ node

/-- A panel is before another one on screen. -/
def ScreenBefore (g : ContextGrid ℚ C) (axis : Axis) (gap : ℚ) (a b : NodeId) : Prop :=
  (g.screenRect a).Before axis gap (g.screenRect b)

/-- A panel is before another one where both containers are put at the same corner. -/
def LocalBefore (g : ContextGrid ℚ C) (axis : Axis) (gap : ℚ) (a b : NodeId) : Prop :=
  (g.layout a).rect.Before axis gap (g.layout b).rect

/-- In one container, the positions there tell what is on screen. -/
theorem Held.screenBefore_iff (h : g.Held) (axis : Axis) (gap : ℚ) (ha : a ∈ g.inner)
    (hb : b ∈ g.inner) (hparent : g.tree.parent a = g.tree.parent b) :
    g.ScreenBefore axis gap a b ↔ g.LocalBefore axis gap a b := by
  obtain ⟨kids, hshaped⟩ := h.shaped
  obtain ⟨x, y, hcorner, hrect⟩ := h.screenRect_eq hb
  obtain ⟨x', y', hcorner', hrect'⟩ := h.screenRect_eq ha
  obtain ⟨rfl, rfl⟩ := hcorner.eq_of_parent hshaped hcorner' hparent
  unfold ScreenBefore LocalBefore
  rw [hrect, hrect']
  exact Rect.before_shift_iff (a := (g.layout a).rect) (b := (g.layout b).rect) x' y'

/-- The test that a search for neighbors makes of a panel. -/
def touches (g : ContextGrid ℚ C) (axis : Axis) (gap : ℚ) (node other : NodeId) (distance : ℚ) :
    Bool :=
  decide (other ≠ node) && g.isNodeVisible other &&
    decide ((g.layout node).start axis.cross <
      (g.layout other).start axis.cross + (g.layout other).size axis.cross) &&
    decide ((g.layout other).start axis.cross <
      (g.layout node).start axis.cross + (g.layout node).size axis.cross) &&
    decide (0 ≤ distance) && decide (distance ≤ gap + 1)

theorem touches_iff {distance : ℚ} (hmem : other ∈ g.inner) :
    g.touches axis gap node other distance = true ↔ g.IsOther node other ∧
      (g.layout node).rect.start axis.cross <
        (g.layout other).rect.start axis.cross + (g.layout other).rect.size axis.cross ∧
      (g.layout other).rect.start axis.cross <
        (g.layout node).rect.start axis.cross + (g.layout node).rect.size axis.cross ∧
      0 ≤ distance ∧ distance ≤ gap + 1 := by
  unfold touches IsOther
  simp only [Bool.and_eq_true, decide_eq_true_iff]
  cases axis <;> constructor
  · rintro ⟨⟨⟨⟨⟨hne, hvisible⟩, hlow⟩, hhigh⟩, hapart⟩, hnear⟩
    exact ⟨⟨hmem, hvisible, hne⟩, hlow, hhigh, hapart, hnear⟩
  · rintro ⟨⟨-, hvisible, hne⟩, hlow, hhigh, hapart, hnear⟩
    exact ⟨⟨⟨⟨⟨hne, hvisible⟩, hlow⟩, hhigh⟩, hapart⟩, hnear⟩
  · rintro ⟨⟨⟨⟨⟨hne, hvisible⟩, hlow⟩, hhigh⟩, hapart⟩, hnear⟩
    exact ⟨⟨hmem, hvisible, hne⟩, hlow, hhigh, hapart, hnear⟩
  · rintro ⟨⟨-, hvisible, hne⟩, hlow, hhigh, hapart, hnear⟩
    exact ⟨⟨⟨⟨⟨hne, hvisible⟩, hlow⟩, hhigh⟩, hapart⟩, hnear⟩

theorem start_rect {F : Type} (l : NodeLayout F) (axis : Axis) :
    l.rect.start axis = l.start axis := by
  cases axis <;> rfl

theorem size_rect {F : Type} (l : NodeLayout F) (axis : Axis) : l.rect.size axis = l.size axis := by
  cases axis <;> rfl

/-- How far a panel is from the focused one, if it is before it. -/
def distanceBefore (g : ContextGrid ℚ C) (axis : Axis) (node other : NodeId) : ℚ :=
  (g.layout node).start axis - ((g.layout other).start axis + (g.layout other).size axis)

def touchesBefore (g : ContextGrid ℚ C) (axis : Axis) (gap : ℚ) (node other : NodeId) : Bool :=
  g.touches axis gap node other (g.distanceBefore axis node other)

def touchesAfter (g : ContextGrid ℚ C) (axis : Axis) (gap : ℚ) (node other : NodeId) : Bool :=
  g.touches axis gap node other (g.distanceBefore axis other node)

theorem touchesBefore_iff (hmem : other ∈ g.inner) :
    g.touchesBefore axis gap node other = true ↔
      g.IsOther node other ∧ g.LocalBefore axis gap other node := by
  unfold touchesBefore
  rw [touches_iff hmem]
  unfold distanceBefore LocalBefore
  rw [← start_rect, ← start_rect, ← size_rect]
  exact and_congr_right fun _ =>
    ⟨fun ⟨hlow, hhigh, hapart, hnear⟩ => ⟨hhigh, hlow, hapart, hnear⟩,
      fun h => ⟨h.high, h.low, h.apart, h.near⟩⟩

theorem touchesAfter_iff (hmem : other ∈ g.inner) :
    g.touchesAfter axis gap node other = true ↔
      g.IsOther node other ∧ g.LocalBefore axis gap node other := by
  unfold touchesAfter
  rw [touches_iff hmem]
  unfold distanceBefore LocalBefore
  rw [← start_rect, ← start_rect, ← size_rect]
  exact and_congr_right fun _ =>
    ⟨fun ⟨hlow, hhigh, hapart, hnear⟩ => ⟨hlow, hhigh, hapart, hnear⟩,
      fun h => ⟨h.low, h.high, h.apart, h.near⟩⟩

/-- The first panel that passes the test is found, on the left or above if there is one. -/
theorem findNeighbors_eq (hnode : node ∈ g.inner) (hvisible : g.isNodeVisible node = true) :
    g.findNeighbors axis gap node =
      ((g.inner.keys.find? (g.touchesBefore axis gap node)).map (·, node)).or
        ((g.inner.keys.find? (g.touchesAfter axis gap node)).map (node, ·)) := by
  unfold findNeighbors
  rw [if_pos ⟨hnode, hvisible⟩]
  dsimp only
  split
  · rename_i other hfind
    have hfirst : g.inner.keys.find? (g.touchesBefore axis gap node) = some other := hfind
    rw [hfirst]
    rfl
  · rename_i hfind
    have hfirst : g.inner.keys.find? (g.touchesBefore axis gap node) = none := hfind
    rw [hfirst]
    split
    · rename_i other hfind
      exact (congrArg (Option.map (node, ·)) hfind).symm
    · rename_i hfind
      exact (congrArg (Option.map (node, ·)) hfind).symm

/-- A panel is found on the left or above if there is one, else on the right or below. -/
theorem findNeighbors_cases (axis : Axis) (gap : ℚ) (hnode : node ∈ g.inner)
    (hvisible : g.isNodeVisible node = true) :
    (∃ other, g.IsOther node other ∧ g.LocalBefore axis gap other node ∧
      g.findNeighbors axis gap node = some (other, node)) ∨
    (∀ other, g.IsOther node other → ¬ g.LocalBefore axis gap other node) ∧
      ((∃ other, g.IsOther node other ∧ g.LocalBefore axis gap node other ∧
        g.findNeighbors axis gap node = some (node, other)) ∨
      (∀ other, g.IsOther node other → ¬ g.LocalBefore axis gap node other) ∧
        g.findNeighbors axis gap node = none) := by
  rw [findNeighbors_eq hnode hvisible]
  cases hbefore : g.inner.keys.find? (g.touchesBefore axis gap node) with
  | some other =>
    have hmem := AList.mem_keys.mpr (List.mem_of_find?_eq_some hbefore)
    obtain ⟨hother, hlocal⟩ := (touchesBefore_iff hmem).mp (List.find?_some hbefore)
    exact .inl ⟨other, hother, hlocal, rfl⟩
  | none =>
    refine .inr ⟨fun other hother hlocal => ?_, ?_⟩
    · exact List.find?_eq_none.mp hbefore other (AList.mem_keys.mp hother.1)
        ((touchesBefore_iff hother.1).mpr ⟨hother, hlocal⟩)
    cases hafter : g.inner.keys.find? (g.touchesAfter axis gap node) with
    | some other =>
      have hmem := AList.mem_keys.mpr (List.mem_of_find?_eq_some hafter)
      obtain ⟨hother, hlocal⟩ := (touchesAfter_iff hmem).mp (List.find?_some hafter)
      exact .inl ⟨other, hother, hlocal, rfl⟩
    | none =>
      refine .inr ⟨fun other hother hlocal => ?_, rfl⟩
      exact List.find?_eq_none.mp hafter other (AList.mem_keys.mp hother.1)
        ((touchesAfter_iff hother.1).mpr ⟨hother, hlocal⟩)

theorem findNeighbors_of_first_before (hnode : node ∈ g.inner)
    (hvisible : g.isNodeVisible node = true) {keys : List NodeId}
    (hkeys : g.inner.keys = other :: keys) (hother : g.IsOther node other)
    (hlocal : g.LocalBefore axis gap other node) :
    g.findNeighbors axis gap node = some (other, node) := by
  rw [findNeighbors_eq hnode hvisible, hkeys,
    List.find?_cons_of_pos ((touchesBefore_iff hother.1).mpr ⟨hother, hlocal⟩)]
  rfl

theorem findNeighbors_of_first_after (hnode : node ∈ g.inner)
    (hvisible : g.isNodeVisible node = true) {keys : List NodeId}
    (hkeys : g.inner.keys = other :: keys) (hother : g.IsOther node other)
    (hlocal : g.LocalBefore axis gap node other)
    (hnone : ∀ other, g.IsOther node other → ¬ g.LocalBefore axis gap other node) :
    g.findNeighbors axis gap node = some (node, other) := by
  have hbefore : g.inner.keys.find? (g.touchesBefore axis gap node) = none := by
    refine List.find?_eq_none.mpr fun o ho htouches => ?_
    obtain ⟨ho, hlocal⟩ := (touchesBefore_iff (AList.mem_keys.mpr ho)).mp htouches
    exact hnone o ho hlocal
  rw [findNeighbors_eq hnode hvisible, hbefore, hkeys,
    List.find?_cons_of_pos ((touchesAfter_iff hother.1).mpr ⟨hother, hlocal⟩)]
  rfl

/-! ### The order of the panels -/

/-- Two grids that list the same panels, each in the order of its table. -/
def Reordered (g g' : ContextGrid ℚ C) : Prop :=
  ∃ inner : Table NodeId (ContextGridItem ℚ C),
    inner.entries.Perm g.inner.entries ∧ g' = { g with inner }

theorem Reordered.refl (g : ContextGrid ℚ C) : g.Reordered g := ⟨g.inner, .refl _, rfl⟩

theorem Reordered.mem_inner (h : g.Reordered g') : other ∈ g'.inner ↔ other ∈ g.inner := by
  obtain ⟨inner, hperm, rfl⟩ := h
  rw [AList.mem_keys, AList.mem_keys]
  exact (hperm.map Sigma.fst).mem_iff

theorem Reordered.isOther_iff (h : g.Reordered g') (node other : NodeId) :
    g'.IsOther node other ↔ g.IsOther node other := by
  have hmem : other ∈ g'.inner ↔ other ∈ g.inner := h.mem_inner
  obtain ⟨inner, hperm, rfl⟩ := h
  exact and_congr_left fun _ => hmem

/-- Any panel may be the first one. -/
theorem exists_reordered_first (h : other ∈ g.inner) :
    ∃ g' keys, g.Reordered g' ∧ g'.inner.keys = other :: keys := by
  obtain ⟨item, hitem⟩ := Option.isSome_iff_exists.mp (AList.lookup_isSome.mpr h)
  have hperm := Table.perm_erase hitem
  let inner : Table NodeId (ContextGridItem ℚ C) :=
    ⟨⟨other, item⟩ :: (g.inner.erase other).entries,
      (List.perm_nodupKeys hperm).mp g.inner.nodupKeys⟩
  exact ⟨{ g with inner }, (g.inner.erase other).keys, ⟨inner, hperm.symm, rfl⟩, rfl⟩

/-! ### Neighbors on screen -/

def panelGap (g : ContextGrid ℚ C) : Axis → ℚ
  | .horizontal => g.panelConfig.columnGap * g.scale
  | .vertical => g.panelConfig.rowGap * g.scale

def neighborsOn : Axis → ContextGrid ℚ C → NodeId → Option (NodeId × NodeId)
  | .horizontal => findHorizontalNeighbors
  | .vertical => findVerticalNeighbors

theorem neighborsOn_eq (axis : Axis) (g : ContextGrid ℚ C) (node : NodeId) :
    neighborsOn axis g node = g.findNeighbors axis (g.panelGap axis) node := by
  cases axis <;> rfl

/-- The search from the focused panel finds panels that are beside it on screen only, and one
whenever there is one, in whatever order the panels are listed. -/
structure NeighborsFound (g : ContextGrid ℚ C) (axis : Axis) : Prop where
  sound : ∀ g', g.Reordered g' → ∀ a b, neighborsOn axis g' g.current = some (a, b) →
    (a = g.current ∧ g.IsOther g.current b ∨ b = g.current ∧ g.IsOther g.current a) ∧
      g.ScreenBefore axis (g.panelGap axis) a b
  complete : ∀ other, g.IsOther g.current other →
    g.ScreenBefore axis (g.panelGap axis) other g.current ∨
      g.ScreenBefore axis (g.panelGap axis) g.current other →
    ∀ g', g.Reordered g' → (neighborsOn axis g' g.current).isSome = true

/-- A panel is left of or above the focused one, by their positions in their containers. -/
def PanelBefore (g : ContextGrid ℚ C) (axis : Axis) (other : NodeId) : Prop :=
  g.IsOther g.current other ∧ g.LocalBefore axis (g.panelGap axis) other g.current

/-- A panel is right of or below the focused one, by their positions in their containers. -/
def PanelAfter (g : ContextGrid ℚ C) (axis : Axis) (other : NodeId) : Prop :=
  g.IsOther g.current other ∧ g.LocalBefore axis (g.panelGap axis) g.current other

/-- The panels that are beside the focused one by their positions in their containers are beside it
on screen, and there are some if any are on screen. -/
structure FramesAgree (g : ContextGrid ℚ C) (axis : Axis) : Prop where
  before : ∀ other, g.PanelBefore axis other → g.ScreenBefore axis (g.panelGap axis) other g.current
  after : (∀ other, ¬ g.PanelBefore axis other) →
    ∀ other, g.PanelAfter axis other → g.ScreenBefore axis (g.panelGap axis) g.current other
  alone : (∀ other, ¬ g.PanelBefore axis other ∧ ¬ g.PanelAfter axis other) →
    ∀ other, g.IsOther g.current other →
      ¬ g.ScreenBefore axis (g.panelGap axis) other g.current ∧
        ¬ g.ScreenBefore axis (g.panelGap axis) g.current other

theorem Reordered.neighborsOn_cases (h : g.Reordered g') (axis : Axis)
    (hcurrent : g.current ∈ g.inner) (hvisible : g.isNodeVisible g.current = true) :
    (∃ other, g.PanelBefore axis other ∧
      neighborsOn axis g' g.current = some (other, g.current)) ∨
    (∀ other, ¬ g.PanelBefore axis other) ∧
      ((∃ other, g.PanelAfter axis other ∧
        neighborsOn axis g' g.current = some (g.current, other)) ∨
      (∀ other, ¬ g.PanelAfter axis other) ∧ neighborsOn axis g' g.current = none) := by
  have hmem := h.mem_inner.mpr hcurrent
  have hothers := fun other => h.isOther_iff g.current other
  obtain ⟨inner, hperm, rfl⟩ := h
  rw [neighborsOn_eq]
  obtain ⟨o, ho, hlocal, heq⟩ | ⟨hnone, ⟨o, ho, hlocal, heq⟩ | ⟨hnone', heq⟩⟩ :=
    findNeighbors_cases (g := { g with inner }) axis (g.panelGap axis) hmem hvisible
  · exact .inl ⟨o, ⟨(hothers o).mp ho, hlocal⟩, heq⟩
  · exact .inr ⟨fun o ho => hnone o ((hothers o).mpr ho.1) ho.2,
      .inl ⟨o, ⟨(hothers o).mp ho, hlocal⟩, heq⟩⟩
  · exact .inr ⟨fun o ho => hnone o ((hothers o).mpr ho.1) ho.2,
      .inr ⟨fun o ho => hnone' o ((hothers o).mpr ho.1) ho.2, heq⟩⟩

/-- The panel that is listed first is found if it is before the focused one by its position. -/
theorem Reordered.neighborsOn_before (h : g.Reordered g') {keys : List NodeId}
    (hkeys : g'.inner.keys = other :: keys) (hcurrent : g.current ∈ g.inner)
    (hvisible : g.isNodeVisible g.current = true) (hother : g.PanelBefore axis other) :
    neighborsOn axis g' g.current = some (other, g.current) := by
  have hmem := h.mem_inner.mpr hcurrent
  have hother' := (h.isOther_iff _ _).mpr hother.1
  obtain ⟨inner, hperm, rfl⟩ := h
  rw [neighborsOn_eq]
  exact findNeighbors_of_first_before hmem hvisible hkeys hother' hother.2

theorem Reordered.neighborsOn_after (h : g.Reordered g') {keys : List NodeId}
    (hkeys : g'.inner.keys = other :: keys) (hcurrent : g.current ∈ g.inner)
    (hvisible : g.isNodeVisible g.current = true) (hother : g.PanelAfter axis other)
    (hnone : ∀ other, ¬ g.PanelBefore axis other) :
    neighborsOn axis g' g.current = some (g.current, other) := by
  have hmem := h.mem_inner.mpr hcurrent
  have hothers := fun other => h.isOther_iff g.current other
  obtain ⟨inner, hperm, rfl⟩ := h
  rw [neighborsOn_eq]
  exact findNeighbors_of_first_after hmem hvisible hkeys ((hothers other).mpr hother.1) hother.2
    fun o ho hlocal => hnone o ⟨(hothers o).mp ho, hlocal⟩

theorem neighborsFound_iff (hcurrent : g.current ∈ g.inner)
    (hvisible : g.isNodeVisible g.current = true) :
    g.NeighborsFound axis ↔ g.FramesAgree axis := by
  constructor
  · intro h
    refine ⟨fun other hother => ?_, fun hnone other hother => ?_, fun hnone other hother => ?_⟩
    · obtain ⟨g', keys, hreordered, hkeys⟩ := exists_reordered_first hother.1.1
      exact (h.sound g' hreordered _ _
        (hreordered.neighborsOn_before hkeys hcurrent hvisible hother)).2
    · obtain ⟨g', keys, hreordered, hkeys⟩ := exists_reordered_first hother.1.1
      exact (h.sound g' hreordered _ _
        (hreordered.neighborsOn_after hkeys hcurrent hvisible hother hnone)).2
    · have hnothing : ¬ (neighborsOn axis g g.current).isSome = true := by
        obtain ⟨o, ho, -⟩ | ⟨-, ⟨o, ho, -⟩ | ⟨-, hfound⟩⟩ :=
          (Reordered.refl g).neighborsOn_cases axis hcurrent hvisible
        · exact absurd ho (hnone o).1
        · exact absurd ho (hnone o).2
        · rw [hfound]
          exact nofun
      exact ⟨fun hscreen => hnothing (h.complete other hother (.inl hscreen) g (.refl g)),
        fun hscreen => hnothing (h.complete other hother (.inr hscreen) g (.refl g))⟩
  · intro h
    constructor
    · intro g' hreordered a b hfound
      obtain ⟨o, ho, heq⟩ | ⟨hnone, ⟨o, ho, heq⟩ | ⟨-, heq⟩⟩ :=
        hreordered.neighborsOn_cases axis hcurrent hvisible
      · obtain ⟨rfl, rfl⟩ := Prod.mk.inj (Option.some.inj (heq.symm.trans hfound))
        exact ⟨.inr ⟨rfl, ho.1⟩, h.before o ho⟩
      · obtain ⟨rfl, rfl⟩ := Prod.mk.inj (Option.some.inj (heq.symm.trans hfound))
        exact ⟨.inl ⟨rfl, ho.1⟩, h.after hnone o ho⟩
      · exact absurd (heq.symm.trans hfound) nofun
    · intro other hother hscreen g' hreordered
      obtain ⟨o, -, heq⟩ | ⟨hleft, ⟨o, -, heq⟩ | ⟨hright, -⟩⟩ :=
        hreordered.neighborsOn_cases axis hcurrent hvisible
      · rw [heq]
        rfl
      · rw [heq]
        rfl
      · have halone := h.alone (fun o => ⟨hleft o, hright o⟩) other hother
        exact hscreen.elim (fun hbefore => absurd hbefore halone.1)
          fun hafter => absurd hafter halone.2

/-- Where all panels are in one container, neighbors are found. -/
theorem Held.framesAgree_of_siblings (h : g.Held)
    (hparent : ∀ k ∈ g.inner, g.tree.parent k = g.tree.parent g.current) :
    g.FramesAgree axis := by
  have hbefore (other : NodeId) (hother : g.IsOther g.current other) :=
    h.screenBefore_iff axis (g.panelGap axis) hother.1 h.current_mem
      (hparent other hother.1)
  have hafter (other : NodeId) (hother : g.IsOther g.current other) :=
    h.screenBefore_iff axis (g.panelGap axis) h.current_mem hother.1
      (hparent other hother.1).symm
  refine ⟨fun other hother => (hbefore other hother.1).mpr hother.2,
    fun _ other hother => (hafter other hother.1).mpr hother.2, fun hnone other hother => ?_⟩
  rw [hbefore other hother, hafter other hother]
  exact ⟨fun hlocal => (hnone other).1 ⟨hother, hlocal⟩,
    fun hlocal => (hnone other).2 ⟨hother, hlocal⟩⟩

end ContextGrid
end Rio.Layout
