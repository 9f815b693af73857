import Rio.Layout.Tree

/-! The forest of a layout tree: how splitting, removing and collapsing nodes change it. -/

set_option linter.dupNamespace false

namespace Rio.Layout.TaffyTree
open Forest

variable {F : Type} {t t' : TaffyTree F} {f kids : Forest NodeId} {root n x : NodeId}

/-- The nodes of the tree form a forest. -/
structure Holding (t : TaffyTree F) (f : Forest NodeId) : Prop where
  represents : Represents t.children t.parent none f
  nodup : f.nodes.Nodup
  below : ∀ n ∈ f.nodes, n < t.next

namespace Holding

theorem length_le (h : Holding t f) : f.nodes.length ≤ t.next := by
  have hsub : f.nodes ⊆ List.range t.next := fun n hn => List.mem_range.mpr (h.below n hn)
  have hle := (h.nodup.subperm hsub).length_le
  rwa [List.length_range] at hle

theorem collectTreeNodes_perm (h : Holding t (cons root kids nil)) :
    (t.collectTreeNodes root).Perm (root :: kids.nodes) := by
  have hwalk := walk_perm h.represents.holds h.length_le
  rwa [nodes_cons, show (nil : Forest NodeId).nodes = [] from rfl, List.append_nil] at hwalk

theorem leaves_eq (h : Holding t (cons root kids nil)) :
    t.leaves root = (cons root kids nil).leaves := by
  have hleaves := leavesFrom_eq h.represents.holds h.length_le
  rwa [roots_cons, show (nil : Forest NodeId).roots = [] from rfl, List.flatMap_singleton]
    at hleaves

theorem congr (h : Holding t f) (hchildren : t'.children = t.children)
    (hparent : t'.parent = t.parent) (hnext : t'.next = t.next) : Holding t' f :=
  ⟨hchildren ▸ hparent ▸ h.represents, h.nodup, hnext ▸ h.below⟩

theorem setStyle (h : Holding t f) (node : NodeId) (style : Style F) :
    Holding (t.setStyle node style) f := ⟨h.represents, h.nodup, h.below⟩

theorem mem_children (h : Holding t f) (hn : n ∈ f.nodes) (hx : x ∈ t.children n) :
    x ∈ f.nodes ∧ t.parent x = some n := h.represents.mem_children hn hx

theorem exists_parent (h : Holding t f) (hn : n ∈ f.nodes) (hroot : n ∉ f.roots) :
    ∃ i ∈ f.nodes, t.parent n = some i ∧ n ∈ t.children i :=
  (h.represents.exists_parent hn).resolve_left hroot

theorem parent_eq_none (h : Holding t f) (hroot : n ∈ f.roots) : t.parent n = none :=
  h.represents.parent_of_mem_roots hroot

/-- A node whose parent is `x` is a child of `x`. -/
theorem mem_children_of_parent (h : Holding t f) (hn : n ∈ f.nodes) (hx : t.parent n = some x) :
    x ∈ f.nodes ∧ n ∈ t.children x := by
  have hroot : n ∉ f.roots := fun hmem =>
    Option.some_ne_none _ (hx.symm.trans (h.parent_eq_none hmem))
  obtain ⟨i, hi, hparent, hchild⟩ := h.exists_parent hn hroot
  obtain rfl : i = x := Option.some_inj.mp (hparent.symm.trans hx)
  exact ⟨hi, hchild⟩

/-- Nodes are on one child list only. -/
theorem notMem_children (h : Holding t f) {i j : NodeId} (hi : i ∈ f.nodes) (hj : j ∈ f.nodes)
    (hx : x ∈ t.children j) (hne : i ≠ j) : x ∉ t.children i := fun hmem =>
  hne (Option.some_inj.mp ((h.mem_children hi hmem).2.symm.trans (h.mem_children hj hx).2))

/-- A tree that has lost a node only. -/
theorem splice (h : Holding t f) (hnext : t'.next = t.next)
    (hchildren : ∀ i ∈ f.nodes, i ≠ x → t'.children i = Represents.childrenWithout t.children x i)
    (hparent : ∀ i ∈ f.nodes, i ≠ x → t'.parent i = Represents.parentWithout t.parent x i) :
    Holding t' (f.splice x) := by
  have hnodes : (f.splice x).nodes = f.nodes.erase x := nodes_splice h.nodup
  have hmem : ∀ i ∈ (f.splice x).nodes, i ∈ f.nodes ∧ i ≠ x := by
    intro i hi
    rw [hnodes, h.nodup.mem_erase_iff] at hi
    exact hi.symm
  refine ⟨(h.represents.splice h.nodup nofun).congr
    (fun i hi => hchildren i (hmem i hi).1 (hmem i hi).2)
    (fun i hi => hparent i (hmem i hi).1 (hmem i hi).2), ?_, fun i hi => ?_⟩
  · rw [hnodes]
    exact h.nodup.erase x
  · rw [hnext]
    exact h.below i (hmem i hi).1

end Holding

/-- The nodes above a node have children. -/
theorem Holding.mem_pathUp (h : Holding t f) : ∀ {fuel : ℕ} {n m : NodeId}, n ∈ f.nodes →
    m ∈ t.pathUp root fuel n → m = n ∨ t.children m ≠ []
  | 0, _, _, _, hm => .inl (List.mem_singleton.mp hm)
  | fuel + 1, n, m, hn, hm => by
    unfold pathUp at hm
    by_cases hroot : n = root
    · rw [if_pos hroot] at hm
      exact .inl (List.mem_singleton.mp hm)
    · rw [if_neg hroot] at hm
      cases hparent : t.parent n with
      | none =>
        rw [hparent] at hm
        exact .inl (List.mem_singleton.mp hm)
      | some p =>
        rw [hparent] at hm
        obtain ⟨hp, hchild⟩ := h.mem_children_of_parent hn hparent
        obtain rfl | hm := List.mem_cons.mp hm
        · exact .inl rfl
        · obtain rfl | hm := h.mem_pathUp hp hm
          · exact .inr fun hnil => List.not_mem_nil (hnil ▸ hchild)
          · exact .inr hm

theorem self_mem_pathUp (t : TaffyTree F) (root n : NodeId) : ∀ fuel, n ∈ t.pathUp root fuel n
  | 0 => List.mem_singleton_self n
  | fuel + 1 => by
    unfold pathUp
    by_cases hroot : n = root
    · rw [if_pos hroot]
      exact List.mem_singleton_self n
    · rw [if_neg hroot]
      cases t.parent n with
      | none => exact List.mem_singleton_self n
      | some p => exact List.mem_cons_self

theorem mem_collectPathToRoot {m : NodeId} : m ∈ t.collectPathToRoot root n ↔
    m ∈ t.pathUp root t.next n ∨ m = root := by
  unfold collectPathToRoot
  rw [List.mem_reverse]
  by_cases hroot : root ∈ t.pathUp root t.next n
  · rw [if_pos hroot]
    exact ⟨.inl, fun h => h.elim id fun heq => heq ▸ hroot⟩
  · rw [if_neg hroot, List.mem_append, List.mem_singleton]

/-! ### Lists of children -/

theorem flatMap_nil_eq_filter (l : List NodeId) (x : NodeId) :
    (l.flatMap fun c => if c = x then [] else [c]) = l.filter (· ≠ x) := by
  induction l with
  | nil => rfl
  | cons c l ih =>
    rw [List.flatMap_cons, ih]
    by_cases hc : c = x
    · simp [hc]
    · simp [hc]

theorem flatMap_singleton_eq_map (l : List NodeId) (x y : NodeId) :
    (l.flatMap fun c => if c = x then [y] else [c]) = l.map fun c => if c = x then y else c := by
  induction l with
  | nil => rfl
  | cons c l ih =>
    rw [List.flatMap_cons, List.map_cons, ih]
    by_cases hc : c = x
    · rw [if_pos hc, if_pos hc]
      rfl
    · rw [if_neg hc, if_neg hc]
      rfl

theorem map_replace_of_notMem {l : List NodeId} {y : NodeId} (h : x ∉ l) :
    (l.map fun c => if c = x then y else c) = l := by
  have hsame : ∀ c ∈ l, (if c = x then y else c) = c := fun c hc =>
    if_neg fun heq : c = x => h (heq ▸ hc)
  exact (List.map_congr_left hsame).trans (List.map_id' l)

/-- Another child put at the index of one that is removed. -/
theorem insertIdx_erase {l : List NodeId} {y : NodeId} (h : l.Nodup) (hx : x ∈ l) :
    (l.erase x).insertIdx (l.idxOf x) y = l.map fun c => if c = x then y else c := by
  induction l with
  | nil => exact absurd hx List.not_mem_nil
  | cons c l ih =>
    obtain ⟨hc, hl⟩ := List.nodup_cons.mp h
    by_cases hcx : c = x
    · subst hcx
      rw [List.erase_cons_head, List.idxOf_cons_self, List.map_cons, if_pos rfl,
        map_replace_of_notMem hc]
      rfl
    · have hmem : x ∈ l := (List.mem_cons.mp hx).resolve_left (Ne.symm hcx)
      rw [List.erase_cons_tail (by simpa using hcx), List.idxOf_cons_ne _ hcx, List.map_cons,
        if_neg hcx, List.insertIdx_succ_cons, ih hl hmem]

/-! ### Removing a panel -/

theorem Holding.remove (h : Holding t f) (hx : x ∈ f.nodes) (hroot : x ∉ f.roots)
    (hleaf : t.children x = []) : Holding (t.remove x) (f.splice x) := by
  obtain ⟨p, hp, hparent, hchild⟩ := h.exists_parent hx hroot
  refine h.splice rfl (fun i hi hix => ?_) (fun i hi hix => ?_)
  · have hchildren : (t.remove x).children i =
        (Function.update t.children p ((t.children p).filter (· ≠ x))) i := by
      unfold TaffyTree.remove
      rw [hparent]
      exact Function.update_of_ne hix _ _
    rw [hchildren]
    by_cases hip : i = p
    · subst hip
      rw [Function.update_self]
      unfold Represents.childrenWithout
      rw [hleaf]
      exact (flatMap_nil_eq_filter _ _).symm
    · rw [Function.update_of_ne hip,
        Represents.childrenWithout_of_notMem (h.notMem_children hi hp hchild hip)]
  · have hne : t.parent i ≠ some x := fun heq =>
      List.not_mem_nil (hleaf ▸ (h.mem_children_of_parent hi heq).2)
    change (if i = x ∨ t.parent i = some x then none else t.parent i) = _
    unfold Represents.parentWithout
    rw [if_neg (by simp [hix, hne]), if_neg hne]

/-! ### Collapsing a container -/

theorem Holding.promote {node child grandchild : NodeId} (h : Holding t f) (hnode : node ∈ f.nodes)
    (hchild : child ∈ t.children node) (hgrandchild : t.children child = [grandchild]) :
    Holding (t.promote node child grandchild) (f.splice child) := by
  obtain ⟨hchildMem, hchildParent⟩ := h.mem_children hnode hchild
  have hgrand : grandchild ∈ t.children child := hgrandchild ▸ List.mem_singleton_self _
  obtain ⟨hgrandMem, hgrandParent⟩ := h.mem_children hchildMem hgrand
  have hself := h.represents.notMem_children_self h.nodup hchildMem
  have hne : child ≠ node := fun heq => hself (heq ▸ hchild)
  refine h.splice rfl (fun i hi hix => ?_) (fun i hi hix => ?_)
  · unfold TaffyTree.promote TaffyTree.insertChildAtIndex TaffyTree.removeChild
      TaffyTree.setStyle
    dsimp only
    rw [Function.update_of_ne hne.symm, Function.update_self]
    by_cases hin : i = node
    · subst hin
      rw [Function.update_self, insertIdx_erase (h.represents.nodup_children h.nodup hi) hchild]
      unfold Represents.childrenWithout
      rw [hgrandchild]
      exact (flatMap_singleton_eq_map _ _ _).symm
    · rw [Function.update_of_ne hin, Function.update_of_ne hin, Function.update_of_ne hix,
        Represents.childrenWithout_of_notMem (h.notMem_children hi hnode hchild hin)]
  · unfold TaffyTree.promote TaffyTree.insertChildAtIndex TaffyTree.removeChild
      TaffyTree.setStyle Represents.parentWithout
    dsimp only
    by_cases hig : i = grandchild
    · subst hig
      rw [Function.update_self, if_pos hgrandParent, hchildParent]
    · have hother : t.parent i ≠ some child := fun heq =>
        hig (List.mem_singleton.mp (hgrandchild ▸ (h.mem_children_of_parent hi heq).2))
      rw [Function.update_of_ne hig, Function.update_of_ne hix, Function.update_of_ne hig,
        if_neg hother]

theorem display_promote (t : TaffyTree F) (node child grandchild n : NodeId) :
    ((t.promote node child grandchild).style n).display = (t.style n).display := by
  change (Function.update t.style grandchild _ n).display = _
  by_cases hn : n = grandchild
  · subst hn
    rw [Function.update_self]
    rfl
  · rw [Function.update_of_ne hn]

/-! ### Splitting a panel -/

section SplitLeaf
variable {p : NodeId} (containerStyle currentStyle newStyle : Style F)

theorem splitLeaf_children (hn : n ∈ t.children p) (hp : p < t.next)
    (hnodup : (t.children p).Nodup) (i : NodeId) :
    (t.splitLeaf p n containerStyle currentStyle newStyle).2.children i =
      if i = p then (t.children p).map fun c => if c = n then t.next else c
      else if i = t.next then [n, t.next + 1]
      else if i = t.next + 1 then [] else t.children i := by
  have hnext : p ≠ t.next := Nat.ne_of_lt hp
  have hnext' : p ≠ t.next + 1 := Nat.ne_of_lt (Nat.lt_succ_of_lt hp)
  have hnew : t.next ≠ t.next + 1 := Nat.ne_of_lt (Nat.lt_succ_self _)
  unfold splitLeaf newLeaf setStyle removeChild addChild insertChildAtIndex
  simp only [Function.update_apply, if_neg hnext, if_neg hnext', if_neg hnext.symm, if_neg hnew,
    if_pos hn, if_true, List.nil_append, List.cons_append]
  rw [insertIdx_erase hnodup hn]
  by_cases hip : i = p
  · rw [if_pos hip, if_pos hip]
  · rw [if_neg hip, if_neg hip]
    by_cases hi : i = t.next
    · rw [if_pos hi, if_neg hip, if_pos hi]
    · rw [if_neg hi, if_neg hip, if_neg hi, if_neg hi]
      exact (if_neg hi).symm

theorem splitLeaf_parent (hn : n ∈ t.children p) (hp : p < t.next) (i : NodeId) :
    (t.splitLeaf p n containerStyle currentStyle newStyle).2.parent i =
      if i = t.next then some p
      else if i = n ∨ i = t.next + 1 then some t.next else t.parent i := by
  have hnext : p ≠ t.next := Nat.ne_of_lt hp
  have hnext' : p ≠ t.next + 1 := Nat.ne_of_lt (Nat.lt_succ_of_lt hp)
  unfold splitLeaf newLeaf setStyle removeChild addChild insertChildAtIndex
  simp only [Function.update_apply, if_neg hnext, if_neg hnext', if_pos hn]
  by_cases hi : i = t.next
  · rw [if_pos hi, if_pos hi]
  · rw [if_neg hi, if_neg hi]
    by_cases hi' : i = t.next + 1
    · rw [if_pos hi', if_neg hi, if_pos (Or.inr hi')]
    · rw [if_neg hi', if_neg hi]
      by_cases hin : i = n
      · rw [if_pos hin, if_pos (Or.inl hin)]
      · rw [if_neg hin, if_neg hin, if_neg hi', if_neg (not_or.mpr ⟨hin, hi'⟩)]

theorem splitLeaf_next (t : TaffyTree F) (p n : NodeId) :
    (t.splitLeaf p n containerStyle currentStyle newStyle).2.next = t.next + 2 := by
  unfold splitLeaf
  dsimp only
  rw [apply_ite TaffyTree.next]
  exact ite_self _

theorem splitLeaf_style (t : TaffyTree F) (p n i : NodeId) :
    (t.splitLeaf p n containerStyle currentStyle newStyle).2.style i =
      if i = t.next + 1 then newStyle else if i = n then currentStyle
      else if i = t.next then containerStyle else t.style i := by
  unfold splitLeaf
  dsimp only
  rw [apply_ite TaffyTree.style]
  refine (congrFun (ite_self _) i).trans ?_
  change Function.update (Function.update (Function.update t.style t.next containerStyle) n
    currentStyle) (t.next + 1) newStyle i = _
  rw [Function.update_apply, Function.update_apply, Function.update_apply]

theorem Holding.splitLeaf (h : Holding t f) (hn : n ∈ f.nodes) (hp : t.parent n = some p)
    (hleaf : t.children n = []) :
    Holding (t.splitLeaf p n containerStyle currentStyle newStyle).2
      (f.split n t.next (t.next + 1)) := by
  obtain ⟨hpMem, hnChild⟩ := h.mem_children_of_parent hn hp
  have hpn : n ≠ p := by
    intro heq
    rw [← heq, hleaf] at hnChild
    exact List.not_mem_nil hnChild
  have hlt {i : NodeId} (hi : i ∈ f.nodes) : i ≠ t.next := Nat.ne_of_lt (h.below i hi)
  have hlt' {i : NodeId} (hi : i ∈ f.nodes) : i ≠ t.next + 1 :=
    Nat.ne_of_lt (Nat.lt_succ_of_lt (h.below i hi))
  have hnew : t.next + 1 ≠ t.next := Nat.succ_ne_self _
  have hchildren := splitLeaf_children containerStyle currentStyle newStyle hnChild
    (h.below p hpMem) (h.represents.nodup_children h.nodup hpMem)
  have hparent := splitLeaf_parent containerStyle currentStyle newStyle hnChild
    (h.below p hpMem)
  have hnodes : (f.split n t.next (t.next + 1)).nodes = _ :=
    h.represents.nodes_split h.nodup hleaf
  refine ⟨h.represents.split h.nodup hleaf ⟨?_, ?_⟩ ⟨?_, ?_⟩ ⟨?_, ?_⟩ (fun i hi => ?_)
    (fun i hi hin => ?_), ?_, fun i hi => ?_⟩
  · rw [hchildren, if_neg (hlt hpMem).symm, if_pos rfl]
  · rw [hparent, if_pos rfl, hp]
  · rw [hchildren, if_neg hpn, if_neg (hlt hn), if_neg (hlt' hn), hleaf]
  · rw [hparent, if_neg (hlt hn), if_pos (Or.inl rfl)]
  · rw [hchildren, if_neg (hlt' hpMem).symm, if_neg hnew, if_pos rfl]
  · rw [hparent, if_neg hnew, if_pos (Or.inr rfl)]
  · rw [hchildren]
    by_cases hip : i = p
    · rw [if_pos hip, hip]
    · rw [if_neg hip, if_neg (hlt hi), if_neg (hlt' hi),
        map_replace_of_notMem (h.notMem_children hi hpMem hnChild hip)]
  · rw [hparent, if_neg (hlt hi), if_neg (not_or.mpr ⟨hin, hlt' hi⟩)]
  · exact h.represents.nodup_split h.nodup hleaf hn (fun hmem => hlt hmem rfl)
      (fun hmem => hlt' hmem rfl) hnew.symm
  · rw [hnodes] at hi
    obtain ⟨c, hc, hic⟩ := List.mem_flatMap.mp hi
    have hcNext := h.below c hc
    rw [splitLeaf_next]
    by_cases hcn : c = n
    · rw [if_pos hcn] at hic
      simp only [List.mem_cons, List.not_mem_nil, or_false] at hic
      obtain rfl | rfl | rfl := hic
      · exact Nat.lt_succ_of_lt (Nat.lt_succ_self _)
      · exact Nat.lt_succ_of_lt (Nat.lt_succ_of_lt (h.below _ hn))
      · exact Nat.lt_succ_self _
    · rw [if_neg hcn] at hic
      obtain rfl := List.mem_singleton.mp hic
      exact Nat.lt_succ_of_lt (Nat.lt_succ_of_lt hcNext)

end SplitLeaf

/-! ### Passes over the containers -/

section Collapse
variable {isPanel : NodeId → Bool} {node : NodeId}

theorem scanChildren_inr : ∀ {cs stack stack' : List NodeId},
    scanChildren isPanel t node cs stack = .inr stack' →
      stack' = (cs.filter fun c => !isPanel c).reverse ++ stack ∧
        ∀ c ∈ cs, isPanel c = false → 2 ≤ (t.children c).length
  | [], _, _, h => ⟨(Sum.inr.inj h).symm, nofun⟩
  | c :: cs, stack, stack', h => by
    unfold scanChildren at h
    by_cases hc : isPanel c = true
    · rw [if_pos hc] at h
      obtain ⟨hstack, hrest⟩ := scanChildren_inr h
      refine ⟨?_, fun d hd hpanel => ?_⟩
      · rw [hstack, List.filter_cons_of_neg (by simp [hc])]
      · obtain rfl | hd := List.mem_cons.mp hd
        · exact absurd hc (by simp [hpanel])
        · exact hrest d hd hpanel
    · rw [if_neg hc] at h
      match hchildren : t.children c with
      | [] =>
        rw [hchildren] at h
        exact absurd h nofun
      | [_] =>
        rw [hchildren] at h
        exact absurd h nofun
      | a :: b :: l =>
        rw [hchildren] at h
        obtain ⟨hstack, hrest⟩ := scanChildren_inr h
        refine ⟨?_, fun d hd hpanel => ?_⟩
        · rw [hstack, List.filter_cons_of_pos (by simp [hc]), List.reverse_cons,
            List.append_assoc]
          rfl
        · obtain rfl | hd := List.mem_cons.mp hd
          · rw [hchildren]
            exact Nat.le_add_left 2 l.length
          · exact hrest d hd hpanel

/-- A container with less than two children that is collapsed. -/
theorem scanChildren_inl : ∀ {cs stack : List NodeId},
    scanChildren isPanel t node cs stack = .inl t' →
      ∃ c ∈ cs, isPanel c = false ∧ (t.children c = [] ∨
        ∃ grandchild, t.children c = [grandchild] ∧ t' = t.promote node c grandchild)
  | [], _, h => absurd h nofun
  | c :: cs, stack, h => by
    unfold scanChildren at h
    by_cases hc : isPanel c = true
    · rw [if_pos hc] at h
      obtain ⟨d, hd, hrest⟩ := scanChildren_inl h
      exact ⟨d, List.mem_cons_of_mem c hd, hrest⟩
    · rw [if_neg hc] at h
      match hchildren : t.children c with
      | [] => exact ⟨c, List.mem_cons_self, Bool.eq_false_iff.mpr hc, .inl hchildren⟩
      | [a] =>
        rw [hchildren] at h
        exact ⟨c, List.mem_cons_self, Bool.eq_false_iff.mpr hc,
          .inr ⟨a, hchildren, (Sum.inl.inj h).symm⟩⟩
      | a :: b :: l =>
        rw [hchildren] at h
        obtain ⟨d, hd, hrest⟩ := scanChildren_inl h
        exact ⟨d, List.mem_cons_of_mem c hd, hrest⟩

/-- The nodes below a forest have at least two children, its panels apart. -/
def Branching (isPanel : NodeId → Bool) (t : TaffyTree F) (f : Forest NodeId) : Prop :=
  ∀ n ∈ f.nodes, n ∉ f.roots → isPanel n = false → 2 ≤ (t.children n).length

/-- A pass collapses a container below the nodes on the stack, or finds none. -/
theorem collapsePass_spec (hleaf : ∀ i, isPanel i = true → t.children i = []) :
    ∀ {fuel : ℕ} {f : Forest NodeId}, Holds t.children f → f.nodes.length ≤ fuel →
      (collapsePass isPanel t fuel f.roots = some none ∧ Branching isPanel t f) ∨
        ∃ t' node c, collapsePass isPanel t fuel f.roots = some (some t') ∧ node ∈ f.nodes ∧
          c ∈ t.children node ∧ isPanel c = false ∧ (t.children c = [] ∨
            ∃ grandchild, t.children c = [grandchild] ∧ t' = t.promote node c grandchild)
  | _, nil, _, _ => by
    refine .inl ⟨?_, nofun⟩
    unfold collapsePass
    rfl
  | 0, cons _ _ _, _, hfuel => absurd hfuel (Nat.not_succ_le_zero _)
  | fuel + 1, cons i kids rest, ⟨hroots, hkids, hrest⟩, hfuel => by
    rw [roots_cons, collapsePass]
    cases hscan : scanChildren isPanel t i (t.children i) rest.roots with
    | inl t' =>
      obtain ⟨c, hc, hpanel, hshape⟩ := scanChildren_inl hscan
      exact .inr ⟨t', i, c, rfl, List.mem_cons_self, hc, hpanel, hshape⟩
    | inr stack =>
      obtain ⟨hstack, hbranching⟩ := scanChildren_inr hscan
      let below := (kids.keep fun c => !isPanel c).rev
      have hbelow : below.nodes.Perm (kids.keep fun c => !isPanel c).nodes := nodes_rev _
      have hsub := nodes_keep_sublist (p := fun c => !isPanel c) kids
      have hroots' : (below.append rest).roots = stack := by
        rw [hstack, roots_append, roots_rev, roots_keep, hroots]
      have hlength : (below.append rest).nodes.length ≤ fuel := by
        rw [nodes_append, List.length_append, hbelow.length_eq]
        rw [nodes_cons, List.length_cons, List.length_append] at hfuel
        have := hsub.length_le
        omega
      have ih := collapsePass_spec hleaf ((hkids.keep.rev).append hrest) hlength
      rw [hroots'] at ih
      obtain ⟨hpass, hbranching'⟩ | ⟨t', node, c, hpass, hnode, hshape⟩ := ih
      · refine .inl ⟨hpass, fun n hn hnRoot hpanel => ?_⟩
        obtain rfl | hn := List.mem_cons.mp hn
        · exact absurd List.mem_cons_self hnRoot
        · by_cases hchild : n ∈ t.children i
          · exact hbranching n hchild hpanel
          · refine hbranching' n ?_ ?_ hpanel
            · rw [nodes_append, List.mem_append]
              refine (List.mem_append.mp hn).imp_left fun hn => hbelow.mem_iff.mpr ?_
              refine mem_nodes_keep hkids (fun j hj => hleaf j ?_) hn (by simp [hpanel])
              simpa using hj
            · rw [hroots', hstack]
              intro hmem
              obtain hmem | hmem := List.mem_append.mp hmem
              · exact hchild (List.mem_of_mem_filter (List.mem_reverse.mp hmem))
              · exact hnRoot (List.mem_cons_of_mem i hmem)
      · refine .inr ⟨t', node, c, hpass, List.mem_cons_of_mem i ?_, hshape⟩
        rw [nodes_append, List.mem_append] at hnode
        rw [List.mem_append]
        exact hnode.imp_left fun hmem => hsub.subset (hbelow.mem_iff.mp hmem)

/-- The passes end, with a tree that keeps the leaves and has no container with less than two
children. -/
theorem collapseLoop_spec : ∀ {fuel : ℕ} {t : TaffyTree F} {kids : Forest NodeId},
    Holding t (cons root kids nil) → kids.nodes.length < fuel →
      (∀ i, isPanel i = true ↔ i ∈ (cons root kids nil).leaves) →
      ∃ t' kids', collapseLoop isPanel root fuel t = some t' ∧ Holding t' (cons root kids' nil) ∧
        (cons root kids' nil).leaves = (cons root kids nil).leaves ∧
        kids'.nodes.Sublist kids.nodes ∧ Branching isPanel t' (cons root kids' nil) ∧
        (∀ n, (t'.style n).display = (t.style n).display)
  | 0, _, _, _, hfuel, _ => absurd hfuel (Nat.not_lt_zero _)
  | fuel + 1, t, kids, h, hfuel, hpanel => by
    have hleaf (i : NodeId) (hi : isPanel i = true) : t.children i = [] := by
      have hmem := (hpanel i).mp hi
      rw [h.represents.leaves_eq, List.mem_filter] at hmem
      exact List.isEmpty_iff.mp hmem.2
    obtain ⟨hpass, hbranching⟩ | ⟨t', node, c, hpass, hnode, hc, hnotPanel, hshape⟩ :=
      collapsePass_spec hleaf h.represents.holds h.length_le
    · refine ⟨t, kids, ?_, h, rfl, .refl _, hbranching, fun n => rfl⟩
      have hroots : collapsePass isPanel t t.next [root] = some none := hpass
      rw [collapseLoop, hroots]
    · obtain ⟨hcMem, hcParent⟩ := h.mem_children hnode hc
      have hinner : t.children c ≠ [] := by
        intro hnil
        have hmem : c ∈ (cons root kids nil).leaves := by
          rw [h.represents.leaves_eq, List.mem_filter]
          exact ⟨hcMem, List.isEmpty_iff.mpr hnil⟩
        exact absurd ((hpanel c).mpr hmem) (by simp [hnotPanel])
      obtain ⟨grandchild, hgrandchild, rfl⟩ := hshape.resolve_left hinner
      have hroot : root ≠ c := by
        rintro rfl
        exact Option.some_ne_none _ (hcParent.symm.trans (h.parent_eq_none List.mem_cons_self))
      have hsplice : (cons root kids nil).splice c = cons root (kids.splice c) nil := by
        rw [splice_cons, if_neg hroot]
        rfl
      have hkidsMem : c ∈ kids.nodes := by
        have hmem := (List.mem_cons.mp hcMem).resolve_left hroot.symm
        rwa [show (nil : Forest NodeId).nodes = [] from rfl, List.append_nil] at hmem
      have hkidsNodup : kids.nodes.Nodup :=
        (List.nodup_append.mp (List.nodup_cons.mp h.nodup).2).1
      have hnodes : (kids.splice c).nodes = kids.nodes.erase c := nodes_splice hkidsNodup
      have hpromoted := h.promote hnode hc hgrandchild
      have hleaves := h.represents.leaves_splice h.nodup nofun hinner
      rw [hsplice] at hpromoted hleaves
      have hlength : (kids.splice c).nodes.length < fuel := by
        rw [hnodes, List.length_erase_of_mem hkidsMem]
        have := List.length_pos_of_mem hkidsMem
        omega
      obtain ⟨t', kids', hloop, hholding, hleaves', hsub, hbranching, hdisplay⟩ :=
        collapseLoop_spec hpromoted hlength (by rw [hleaves]; exact hpanel)
      refine ⟨t', kids', ?_, hholding, hleaves'.trans hleaves,
        hsub.trans (hnodes ▸ List.erase_sublist), hbranching, fun n => (hdisplay n).trans ?_⟩
      · have hroots : collapsePass isPanel t t.next [root] = some (some _) := hpass
        rw [collapseLoop, hroots]
        exact hloop
      · exact display_promote t node c grandchild n

end Collapse

end Rio.Layout.TaffyTree
