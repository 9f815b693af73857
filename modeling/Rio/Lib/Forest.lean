import Mathlib.Data.List.Perm.Basic
import Mathlib.Data.List.Nodup
import Mathlib.Tactic

/-! Ordered forests, and stores of nodes that represent them: a node knows its children and its
parent. -/
namespace Rio

/-- An ordered forest: a first tree with its root and its children, and the other trees. -/
inductive Forest (ι : Type*)
  | nil
  | cons (root : ι) (kids rest : Forest ι)
  deriving DecidableEq, Repr

namespace Forest
variable {ι : Type*} {f kids rest : Forest ι} {i n : ι}

def append : Forest ι → Forest ι → Forest ι
  | nil, g => g
  | cons i kids rest, g => cons i kids (rest.append g)

def roots : Forest ι → List ι
  | nil => []
  | cons i _ rest => i :: rest.roots

/-- All nodes, each before its children. -/
def nodes : Forest ι → List ι
  | nil => []
  | cons i kids rest => i :: (kids.nodes ++ rest.nodes)

/-- The nodes without children, from left to right. -/
def leaves : Forest ι → List ι
  | nil => []
  | cons i nil rest => i :: rest.leaves
  | cons _ (cons j kids' rest') rest => (cons j kids' rest').leaves ++ rest.leaves

@[simp] theorem roots_cons (i : ι) (kids rest : Forest ι) :
    (cons i kids rest).roots = i :: rest.roots := rfl

@[simp] theorem nodes_cons (i : ι) (kids rest : Forest ι) :
    (cons i kids rest).nodes = i :: (kids.nodes ++ rest.nodes) := rfl

theorem roots_eq_nil : f.roots = [] ↔ f = nil := by
  cases f with
  | nil => exact iff_of_true rfl rfl
  | cons i kids rest => exact iff_of_false (List.cons_ne_nil _ _) nofun

@[simp] theorem roots_append (f g : Forest ι) : (f.append g).roots = f.roots ++ g.roots := by
  induction f with
  | nil => rfl
  | cons i kids rest _ ih => exact congrArg (i :: ·) ih

@[simp] theorem nodes_append (f g : Forest ι) : (f.append g).nodes = f.nodes ++ g.nodes := by
  induction f with
  | nil => rfl
  | cons i kids rest _ ih =>
    change i :: (kids.nodes ++ (rest.append g).nodes) = i :: (kids.nodes ++ rest.nodes) ++ g.nodes
    rw [ih, List.cons_append, List.append_assoc]

theorem roots_sublist (f : Forest ι) : f.roots.Sublist f.nodes := by
  induction f with
  | nil => exact .slnil
  | cons i kids rest _ ih => exact (ih.trans (List.sublist_append_right _ _)).cons_cons i

/-! ### Taking a node out -/

section Splice
variable [DecidableEq ι]

/-- Put the children of a node in its place. -/
def splice (n : ι) : Forest ι → Forest ι
  | nil => nil
  | cons i kids rest => if i = n then kids.append (rest.splice n) else cons i (kids.splice n) (rest.splice n)

/-- Put a node with two children, a leaf and a new one, in the place of the leaf. -/
def split (n container new : ι) : Forest ι → Forest ι
  | nil => nil
  | cons i kids rest =>
    if i = n then cons container (cons i kids (cons new nil nil)) (rest.split n container new)
    else cons i (kids.split n container new) (rest.split n container new)

theorem splice_cons (n i : ι) (kids rest : Forest ι) :
    (cons i kids rest).splice n =
      if i = n then kids.append (rest.splice n) else cons i (kids.splice n) (rest.splice n) := rfl

theorem split_cons (n container new i : ι) (kids rest : Forest ι) :
    (cons i kids rest).split n container new =
      if i = n then cons container (cons i kids (cons new nil nil)) (rest.split n container new)
      else cons i (kids.split n container new) (rest.split n container new) := rfl

theorem splice_of_notMem (h : n ∉ f.nodes) : f.splice n = f := by
  induction f with
  | nil => rfl
  | cons i kids rest ihkids ihrest =>
    have hne : i ≠ n := fun heq => h (heq ▸ List.mem_cons_self)
    rw [splice_cons]
    rw [if_neg hne, ihkids fun hmem => h (List.mem_cons_of_mem _ (List.mem_append_left _ hmem)),
      ihrest fun hmem => h (List.mem_cons_of_mem _ (List.mem_append_right _ hmem))]

theorem nodes_splice (h : f.nodes.Nodup) : (f.splice n).nodes = f.nodes.erase n := by
  induction f with
  | nil => rfl
  | cons i kids rest ihkids ihrest =>
    obtain ⟨hi, hboth⟩ := List.nodup_cons.mp h
    obtain ⟨hkids, hrest, hapart⟩ := List.nodup_append.mp hboth
    rw [splice_cons]
    by_cases hin : i = n
    · subst hin
      rw [if_pos rfl, nodes_append,
        splice_of_notMem fun hmem => hi (List.mem_append_right _ hmem)]
      exact (List.erase_cons_head i _).symm
    · rw [if_neg hin]
      change i :: ((kids.splice n).nodes ++ (rest.splice n).nodes) = _
      rw [ihkids hkids, ihrest hrest]
      change _ = (i :: (kids.nodes ++ rest.nodes)).erase n
      rw [List.erase_cons_tail (by simpa using hin)]
      by_cases hn : n ∈ kids.nodes
      · have hnrest : n ∉ rest.nodes := fun hmem => hapart n hn n hmem rfl
        rw [List.erase_append_left _ hn, List.erase_of_not_mem hnrest]
      · rw [List.erase_append_right _ hn, List.erase_of_not_mem hn]

end Splice

/-! ### Stores of nodes -/

/-- The store holds the forest, under some parent. -/
def Represents (children : ι → List ι) (parent : ι → Option ι) : Option ι → Forest ι → Prop
  | _, nil => True
  | p, cons i kids rest =>
    parent i = p ∧ children i = kids.roots ∧ Represents children parent (some i) kids ∧
      Represents children parent p rest

namespace Represents
variable {children children' : ι → List ι} {parent parent' : ι → Option ι} {p : Option ι}

theorem congr (h : Represents children parent p f)
    (hchildren : ∀ i ∈ f.nodes, children' i = children i)
    (hparent : ∀ i ∈ f.nodes, parent' i = parent i) : Represents children' parent' p f := by
  induction f generalizing p with
  | nil => trivial
  | cons i kids rest ihkids ihrest =>
    obtain ⟨hp, hroots, hkids, hrest⟩ := h
    have hmem := List.mem_cons_self (a := i) (l := kids.nodes ++ rest.nodes)
    refine ⟨(hparent i hmem).trans hp, (hchildren i hmem).trans hroots,
      ihkids hkids (fun j hj => ?_) (fun j hj => ?_), ihrest hrest (fun j hj => ?_) fun j hj => ?_⟩
    · exact hchildren j (List.mem_cons_of_mem i (List.mem_append_left _ hj))
    · exact hparent j (List.mem_cons_of_mem i (List.mem_append_left _ hj))
    · exact hchildren j (List.mem_cons_of_mem i (List.mem_append_right _ hj))
    · exact hparent j (List.mem_cons_of_mem i (List.mem_append_right _ hj))

theorem parent_of_mem_roots (h : Represents children parent p f) (hi : i ∈ f.roots) :
    parent i = p := by
  induction f with
  | nil => exact absurd hi List.not_mem_nil
  | cons j kids rest _ ihrest =>
    obtain rfl | hi := List.mem_cons.mp hi
    · exact h.1
    · exact ihrest h.2.2.2 hi

/-- The children of a node, in the forest, know their parent. -/
theorem mem_children (h : Represents children parent p f) (hi : i ∈ f.nodes) (hn : n ∈ children i) :
    n ∈ f.nodes ∧ parent n = some i := by
  induction f generalizing p with
  | nil => exact absurd hi List.not_mem_nil
  | cons j kids rest ihkids ihrest =>
    obtain ⟨-, hroots, hkids, hrest⟩ := h
    obtain rfl | hi := List.mem_cons.mp hi
    · rw [hroots] at hn
      have hmem := (roots_sublist kids).subset hn
      exact ⟨List.mem_cons_of_mem _ (List.mem_append_left _ hmem), hkids.parent_of_mem_roots hn⟩
    · obtain hi | hi := List.mem_append.mp hi
      · obtain ⟨hmem, hparent⟩ := ihkids hkids hi
        exact ⟨List.mem_cons_of_mem _ (List.mem_append_left _ hmem), hparent⟩
      · obtain ⟨hmem, hparent⟩ := ihrest hrest hi
        exact ⟨List.mem_cons_of_mem _ (List.mem_append_right _ hmem), hparent⟩

/-- A node that is no root is a child of its parent. -/
theorem exists_parent (h : Represents children parent p f) (hn : n ∈ f.nodes) :
    n ∈ f.roots ∨ ∃ i ∈ f.nodes, parent n = some i ∧ n ∈ children i := by
  induction f generalizing p with
  | nil => exact absurd hn List.not_mem_nil
  | cons j kids rest ihkids ihrest =>
    obtain ⟨-, hroots, hkids, hrest⟩ := h
    obtain rfl | hn := List.mem_cons.mp hn
    · exact .inl List.mem_cons_self
    · obtain hn | hn := List.mem_append.mp hn
      · obtain hroot | ⟨i, hi, hparent, hchild⟩ := ihkids hkids hn
        · exact .inr ⟨j, List.mem_cons_self, hkids.parent_of_mem_roots hroot, hroots ▸ hroot⟩
        · exact .inr ⟨i, List.mem_cons_of_mem _ (List.mem_append_left _ hi), hparent, hchild⟩
      · obtain hroot | ⟨i, hi, hparent, hchild⟩ := ihrest hrest hn
        · exact .inl (List.mem_cons_of_mem _ hroot)
        · exact .inr ⟨i, List.mem_cons_of_mem _ (List.mem_append_right _ hi), hparent, hchild⟩

theorem nodup_children (h : Represents children parent p f) (hnodup : f.nodes.Nodup)
    (hi : i ∈ f.nodes) : (children i).Nodup := by
  induction f generalizing p with
  | nil => exact absurd hi List.not_mem_nil
  | cons j kids rest ihkids ihrest =>
    obtain ⟨-, hroots, hkids, hrest⟩ := h
    obtain ⟨hkidsNodup, hrestNodup, -⟩ := List.nodup_append.mp (List.nodup_cons.mp hnodup).2
    obtain rfl | hi := List.mem_cons.mp hi
    · rw [hroots]
      exact hkidsNodup.sublist (roots_sublist kids)
    · obtain hi | hi := List.mem_append.mp hi
      · exact ihkids hkids hkidsNodup hi
      · exact ihrest hrest hrestNodup hi

theorem notMem_children_self (h : Represents children parent p f) (hnodup : f.nodes.Nodup)
    (hi : i ∈ f.nodes) : i ∉ children i := by
  induction f generalizing p with
  | nil => exact absurd hi List.not_mem_nil
  | cons j kids rest ihkids ihrest =>
    obtain ⟨-, hroots, hkids, hrest⟩ := h
    obtain ⟨hj, hboth⟩ := List.nodup_cons.mp hnodup
    obtain ⟨hkidsNodup, hrestNodup, -⟩ := List.nodup_append.mp hboth
    obtain rfl | hi := List.mem_cons.mp hi
    · rw [hroots]
      exact fun hmem => hj (List.mem_append_left _ ((roots_sublist kids).subset hmem))
    · obtain hi | hi := List.mem_append.mp hi
      · exact ihkids hkids hkidsNodup hi
      · exact ihrest hrest hrestNodup hi

/-- The leaves are the nodes that the store knows no children of. -/
theorem leaves_eq (h : Represents children parent p f) :
    f.leaves = f.nodes.filter fun i => (children i).isEmpty := by
  induction f generalizing p with
  | nil => rfl
  | cons i kids rest ihkids ihrest =>
    obtain ⟨-, hroots, hkids, hrest⟩ := h
    rw [nodes_cons]
    cases kids with
    | nil =>
      have hempty : (children i).isEmpty = true := by rw [hroots]; rfl
      rw [List.filter_cons_of_pos (p := fun i => (children i).isEmpty) hempty]
      exact congrArg (i :: ·) (ihrest hrest)
    | cons j kids' rest' =>
      have hnonempty : ¬ (children i).isEmpty = true := by rw [hroots]; exact Bool.false_ne_true
      rw [List.filter_cons_of_neg (p := fun i => (children i).isEmpty) hnonempty,
        List.filter_append, ← ihkids hkids, ← ihrest hrest]
      rfl

theorem notMem_children (h : Represents children parent p f) (hi : i ∈ f.nodes)
    (hn : n ∉ f.nodes) : n ∉ children i := fun hmem => hn (h.mem_children hi hmem).1

theorem append {g : Forest ι} (h : Represents children parent p f)
    (h' : Represents children parent p g) : Represents children parent p (f.append g) := by
  induction f with
  | nil => exact h'
  | cons i kids rest _ ih => exact ⟨h.1, h.2.1, h.2.2.1, ih h.2.2.2⟩

/-! ### Taking a node out of a store -/

variable [DecidableEq ι] {x : ι}

/-- The children of a node after `x` is taken out. -/
def childrenWithout (children : ι → List ι) (x i : ι) : List ι :=
  (children i).flatMap fun c => if c = x then children x else [c]

/-- The parent of a node after `x` is taken out. -/
def parentWithout (parent : ι → Option ι) (x i : ι) : Option ι :=
  if parent i = some x then parent x else parent i

theorem childrenWithout_of_notMem {i : ι} (h : x ∉ children i) :
    childrenWithout children x i = children i := by
  have hsame : ∀ c ∈ children i, (if c = x then children x else [c]) = [c] :=
    fun c hc => if_neg fun heq : c = x => h (heq ▸ hc)
  unfold childrenWithout
  rw [List.flatMap_congr hsame, List.flatMap_singleton']

/-- The trees below `x`, or beside it, when it is taken out. -/
theorem reparent (h : Represents children parent p f) (hx : x ∉ f.nodes) :
    Represents (childrenWithout children x) (parentWithout parent x)
      (if p = some x then parent x else p) f := by
  induction f generalizing p with
  | nil => trivial
  | cons i kids rest ihkids ihrest =>
    have hchildren := childrenWithout_of_notMem (h.notMem_children List.mem_cons_self hx)
    obtain ⟨hp, hroots, hkids, hrest⟩ := h
    have hne : i ≠ x := fun heq => hx (heq ▸ List.mem_cons_self)
    have hkids' := ihkids hkids fun hmem => hx (List.mem_cons_of_mem _ (List.mem_append_left _ hmem))
    rw [if_neg (by simpa using hne)] at hkids'
    refine ⟨?_, hchildren.trans hroots, hkids',
      ihrest hrest fun hmem => hx (List.mem_cons_of_mem _ (List.mem_append_right _ hmem))⟩
    unfold parentWithout
    rw [hp]

theorem roots_splice_eq (h : Represents children parent p f) (hnodup : f.nodes.Nodup) :
    (f.splice x).roots = f.roots.flatMap fun c => if c = x then children x else [c] := by
  induction f with
  | nil => rfl
  | cons i kids rest _ ihrest =>
    obtain ⟨hi, hboth⟩ := List.nodup_cons.mp hnodup
    have hrest := ihrest h.2.2.2 (List.nodup_append.mp hboth).2.1
    rw [splice_cons, roots_cons, List.flatMap_cons, ← hrest]
    by_cases hix : i = x
    · subst hix
      rw [if_pos rfl, if_pos rfl, roots_append, h.2.1]
    · rw [if_neg hix, if_neg hix]
      rfl

/-- A node is taken out. -/
theorem splice (h : Represents children parent p f) (hnodup : f.nodes.Nodup) (hp : p ≠ some x) :
    Represents (childrenWithout children x) (parentWithout parent x) p (f.splice x) := by
  induction f generalizing p with
  | nil => trivial
  | cons i kids rest ihkids ihrest =>
    obtain ⟨hi, hboth⟩ := List.nodup_cons.mp hnodup
    obtain ⟨hkidsNodup, hrestNodup, -⟩ := List.nodup_append.mp hboth
    obtain ⟨hparent, hroots, hkids, hrest⟩ := h
    rw [splice_cons]
    by_cases hix : i = x
    · subst hix
      have hkids' := hkids.reparent fun hmem => hi (List.mem_append_left _ hmem)
      rw [if_pos rfl, hparent] at hkids'
      rw [if_pos rfl]
      exact hkids'.append (ihrest hrest hrestNodup hp)
    · rw [if_neg hix]
      refine ⟨?_, ?_, ihkids hkids hkidsNodup (by simpa using hix), ihrest hrest hrestNodup hp⟩
      · unfold parentWithout
        rw [hparent, if_neg hp]
      · rw [hkids.roots_splice_eq hkidsNodup, ← hroots]
        rfl

theorem childrenWithout_eq_nil {i : ι} (hx : children x ≠ []) :
    childrenWithout children x i = [] ↔ children i = [] := by
  unfold childrenWithout
  rw [List.flatMap_eq_nil_iff]
  constructor
  · intro h
    refine List.eq_nil_iff_forall_not_mem.mpr fun c hc => ?_
    have hnil := h c hc
    by_cases hcx : c = x
    · rw [if_pos hcx] at hnil
      exact hx hnil
    · rw [if_neg hcx] at hnil
      exact List.cons_ne_nil _ _ hnil
  · intro h c hc
    rw [h] at hc
    exact absurd hc List.not_mem_nil

/-- Taking out an inner node leaves the leaves as they are. -/
theorem leaves_splice (h : Represents children parent p f) (hnodup : f.nodes.Nodup)
    (hp : p ≠ some x) (hx : children x ≠ []) : (f.splice x).leaves = f.leaves := by
  rw [(h.splice hnodup hp).leaves_eq, h.leaves_eq, nodes_splice hnodup, hnodup.erase_eq_filter,
    List.filter_filter]
  refine List.filter_congr fun i _ => ?_
  have hsame : (childrenWithout children x i).isEmpty = (children i).isEmpty := by
    rw [Bool.eq_iff_iff, List.isEmpty_iff, List.isEmpty_iff]
    exact childrenWithout_eq_nil hx
  rw [hsame]
  by_cases hi : (children i).isEmpty = true
  · have hne : i ≠ x := fun heq => hx (List.isEmpty_iff.mp (heq ▸ hi))
    simp [hi, hne]
  · simp [hi]

/-- Taking out a leaf that is no only child leaves the other leaves in their order. -/
theorem leaves_splice_leaf (h : Represents children parent p f) (hnodup : f.nodes.Nodup)
    (hp : p ≠ some x)
    (hsibling : ∀ i ∈ f.nodes, x ∈ children i → ∃ c ∈ children i, c ≠ x) :
    (f.splice x).leaves = f.leaves.erase x := by
  rw [(h.splice hnodup hp).leaves_eq, h.leaves_eq, nodes_splice hnodup, hnodup.erase_eq_filter,
    (hnodup.filter _).erase_eq_filter, List.filter_filter, List.filter_filter]
  refine List.filter_congr fun i hi => ?_
  have hsame : (childrenWithout children x i).isEmpty = (children i).isEmpty := by
    by_cases hmem : x ∈ children i
    · obtain ⟨c, hc, hcx⟩ := hsibling i hi hmem
      have hc' : c ∈ childrenWithout children x i :=
        List.mem_flatMap.mpr ⟨c, hc, by rw [if_neg hcx]; exact List.mem_cons_self⟩
      rw [List.isEmpty_eq_false_iff_exists_mem.mpr ⟨c, hc⟩,
        List.isEmpty_eq_false_iff_exists_mem.mpr ⟨c, hc'⟩]
    · rw [childrenWithout_of_notMem hmem]
  rw [hsame]
  exact Bool.and_comm _ _

/-! ### Splitting a leaf of a store -/

variable {container new : ι}

theorem roots_split (f : Forest ι) : (f.split n container new).roots =
    f.roots.map fun c => if c = n then container else c := by
  induction f with
  | nil => rfl
  | cons i kids rest _ ih =>
    rw [split_cons, roots_cons, List.map_cons, ← ih]
    by_cases hin : i = n
    · rw [if_pos hin, if_pos hin]
      rfl
    · rw [if_neg hin, if_neg hin]
      rfl

/-- The nodes from left to right, with the new ones around the leaf. -/
theorem nodes_split (h : Represents children parent p f) (hnodup : f.nodes.Nodup)
    (hleaf : children n = []) :
    (f.split n container new).nodes =
      f.nodes.flatMap fun c => if c = n then [container, n, new] else [c] := by
  induction f generalizing p with
  | nil => rfl
  | cons i kids rest ihkids ihrest =>
    obtain ⟨hi, hboth⟩ := List.nodup_cons.mp hnodup
    obtain ⟨hkidsNodup, hrestNodup, -⟩ := List.nodup_append.mp hboth
    obtain ⟨-, hroots, hkids, hrest⟩ := h
    rw [nodes_cons, List.flatMap_cons, List.flatMap_append, ← ihkids hkids hkidsNodup,
      ← ihrest hrest hrestNodup, split_cons]
    by_cases hin : i = n
    · subst hin
      have hnil : kids = nil := roots_eq_nil.mp (hroots.symm.trans hleaf)
      subst hnil
      rw [if_pos rfl, if_pos rfl]
      rfl
    · rw [if_neg hin, if_neg hin]
      rfl

/-- New nodes, put around a leaf, are on no list twice. -/
theorem nodup_split (h : Represents children parent p f) (hnodup : f.nodes.Nodup)
    (hleaf : children n = []) (hn : n ∈ f.nodes) (hcontainer : container ∉ f.nodes)
    (hnew : new ∉ f.nodes) (hne : container ≠ new) : (f.split n container new).nodes.Nodup := by
  rw [h.nodes_split hnodup hleaf, List.nodup_flatMap]
  have hcn : container ≠ n := fun heq => hcontainer (heq ▸ hn)
  have hnn : n ≠ new := fun heq => hnew (heq ▸ hn)
  constructor
  · intro c _
    by_cases hc : c = n
    · rw [if_pos hc]
      simp [hcn, hnn, hne]
    · rw [if_neg hc]
      exact List.nodup_singleton c
  · refine hnodup.imp_of_mem fun {a b} ha hb hab => ?_
    have hapart {c : ι} (hc : c ∈ f.nodes) (hcne : c ≠ n) : c ∉ [container, n, new] := by
      simp only [List.mem_cons, List.not_mem_nil, or_false, not_or]
      exact ⟨fun heq => hcontainer (heq ▸ hc), hcne, fun heq => hnew (heq ▸ hc)⟩
    intro c hca hcb
    dsimp only at hca hcb
    by_cases han : a = n
    · rw [if_pos han] at hca
      have hbn : b ≠ n := fun hbn => hab (han.trans hbn.symm)
      rw [if_neg hbn] at hcb
      exact hapart hb hbn (List.mem_singleton.mp hcb ▸ hca)
    · rw [if_neg han] at hca
      have hcEq := List.mem_singleton.mp hca
      by_cases hbn : b = n
      · rw [if_pos hbn] at hcb
        exact hapart ha han (hcEq ▸ hcb)
      · rw [if_neg hbn] at hcb
        exact hab (hcEq.symm.trans (List.mem_singleton.mp hcb))

theorem leaves_cons (i : ι) (kids rest : Forest ι) :
    (cons i kids rest).leaves = (if kids = nil then [i] else kids.leaves) ++ rest.leaves := by
  cases kids with
  | nil => rfl
  | cons j kids' rest' => rfl

/-- The leaves from left to right, with the new one beside the leaf. -/
theorem leaves_split (h : Represents children parent p f) (hnodup : f.nodes.Nodup)
    (hleaf : children n = []) :
    (f.split n container new).leaves =
      f.leaves.flatMap fun c => if c = n then [n, new] else [c] := by
  induction f generalizing p with
  | nil => rfl
  | cons i kids rest ihkids ihrest =>
    obtain ⟨hi, hboth⟩ := List.nodup_cons.mp hnodup
    obtain ⟨hkidsNodup, hrestNodup, -⟩ := List.nodup_append.mp hboth
    obtain ⟨-, hroots, hkids, hrest⟩ := h
    have hrest' := ihrest hrest hrestNodup
    have hkids' := ihkids hkids hkidsNodup
    rw [leaves_cons, List.flatMap_append, ← hrest', split_cons]
    by_cases hin : i = n
    · subst hin
      have hnil : kids = nil := roots_eq_nil.mp (hroots.symm.trans hleaf)
      subst hnil
      rw [if_pos rfl, if_pos rfl, List.flatMap_singleton, if_pos rfl]
      rfl
    · rw [if_neg hin, leaves_cons]
      by_cases hnil : kids = nil
      · subst hnil
        rw [if_pos rfl, List.flatMap_singleton, if_neg hin]
        rfl
      · have hsplit : kids.split n container new ≠ nil := by
          cases kids with
          | nil => exact absurd rfl hnil
          | cons j kids' rest' =>
            rw [split_cons]
            by_cases hj : j = n
            · rw [if_pos hj]
              exact nofun
            · rw [if_neg hj]
              exact nofun
        rw [if_neg hnil, if_neg hsplit, hkids']

/-- A leaf is split. -/
theorem split (h : Represents children parent p f) (hnodup : f.nodes.Nodup)
    (hleaf : children n = [])
    (hcontainer : children' container = [n, new] ∧ parent' container = parent n)
    (hn : children' n = [] ∧ parent' n = some container)
    (hnew : children' new = [] ∧ parent' new = some container)
    (hchildren : ∀ i ∈ f.nodes, children' i =
      (children i).map fun c => if c = n then container else c)
    (hparent : ∀ i ∈ f.nodes, i ≠ n → parent' i = parent i) :
    Represents children' parent' p (f.split n container new) := by
  induction f generalizing p with
  | nil => trivial
  | cons i kids rest ihkids ihrest =>
    obtain ⟨hi, hboth⟩ := List.nodup_cons.mp hnodup
    obtain ⟨hkidsNodup, hrestNodup, -⟩ := List.nodup_append.mp hboth
    obtain ⟨hp, hroots, hkids, hrest⟩ := h
    have hrest' := ihrest hrest hrestNodup
      (fun j hj => hchildren j (List.mem_cons_of_mem i (List.mem_append_right _ hj)))
      fun j hj => hparent j (List.mem_cons_of_mem i (List.mem_append_right _ hj))
    rw [split_cons]
    by_cases hin : i = n
    · subst hin
      have hnil : kids = nil := roots_eq_nil.mp (hroots.symm.trans hleaf)
      subst hnil
      rw [if_pos rfl]
      exact ⟨hcontainer.2.trans hp, hcontainer.1, ⟨hn.2, hn.1, trivial, hnew.2, hnew.1, trivial,
        trivial⟩, hrest'⟩
    · rw [if_neg hin]
      refine ⟨(hparent i List.mem_cons_self hin).trans hp, ?_, ?_, hrest'⟩
      · rw [hchildren i List.mem_cons_self, hroots, roots_split]
      · exact ihkids hkids hkidsNodup
          (fun j hj => hchildren j (List.mem_cons_of_mem i (List.mem_append_left _ hj)))
          fun j hj => hparent j (List.mem_cons_of_mem i (List.mem_append_left _ hj))

end Represents

/-! ### Walking through a store -/

/-- The store knows the children of the nodes of the forest. -/
def Holds (children : ι → List ι) : Forest ι → Prop
  | nil => True
  | cons i kids rest => children i = kids.roots ∧ Holds children kids ∧ Holds children rest

/-- The trees in the opposite order. -/
def rev : Forest ι → Forest ι
  | nil => nil
  | cons i kids rest => rest.rev.append (cons i kids nil)

theorem roots_rev (f : Forest ι) : f.rev.roots = f.roots.reverse := by
  induction f with
  | nil => rfl
  | cons i kids rest _ ih =>
    unfold rev
    rw [roots_append, ih, roots_cons, roots_cons, List.reverse_cons]
    rfl

theorem nodes_rev (f : Forest ι) : f.rev.nodes.Perm f.nodes := by
  induction f with
  | nil => exact .refl _
  | cons i kids rest _ ih =>
    unfold rev
    rw [nodes_append, nodes_cons, nodes_cons]
    refine List.perm_append_comm.trans ?_
    change ((i :: (kids.nodes ++ [])) ++ rest.rev.nodes).Perm (i :: (kids.nodes ++ rest.nodes))
    rw [List.append_nil]
    exact ih.append_left (i :: kids.nodes)

namespace Holds
variable {children : ι → List ι} {g : Forest ι}

theorem append (h : Holds children f) (h' : Holds children g) : Holds children (f.append g) := by
  induction f with
  | nil => exact h'
  | cons i kids rest _ ih => exact ⟨h.1, h.2.1, ih h.2.2⟩

theorem rev (h : Holds children f) : Holds children f.rev := by
  induction f with
  | nil => trivial
  | cons i kids rest _ ih => exact (ih h.2.2).append ⟨h.1, h.2.1, trivial⟩

end Holds

theorem Represents.holds {children : ι → List ι} {parent : ι → Option ι} {p : Option ι}
    (h : Represents children parent p f) : Holds children f := by
  induction f generalizing p with
  | nil => trivial
  | cons i kids rest ihkids ihrest => exact ⟨h.2.1, ihkids h.2.2.1, ihrest h.2.2.2⟩

/-- The nodes below those on a stack, whose top is its head. -/
def walk (children : ι → List ι) : ℕ → List ι → List ι
  | 0, _ => []
  | _ + 1, [] => []
  | fuel + 1, n :: stack => n :: walk children fuel ((children n).reverse ++ stack)

/-- The walk comes to all nodes below the stack, each once. -/
theorem walk_perm {children : ι → List ι} :
    ∀ {fuel : ℕ} {f : Forest ι}, Holds children f → f.nodes.length ≤ fuel →
      (walk children fuel f.roots).Perm f.nodes
  | 0, nil, _, _ => .refl _
  | 0, cons _ _ _, _, hfuel => absurd hfuel (Nat.not_succ_le_zero _)
  | _ + 1, nil, _, _ => .refl _
  | fuel + 1, cons i kids rest, ⟨hroots, hkids, hrest⟩, hfuel => by
    have hnodes : (kids.rev.append rest).nodes.Perm (kids.nodes ++ rest.nodes) := by
      rw [nodes_append]
      exact (nodes_rev kids).append_right _
    have hlength : (kids.rev.append rest).nodes.length ≤ fuel := by
      rw [hnodes.length_eq]
      rw [nodes_cons, List.length_cons] at hfuel
      omega
    have hwalk := walk_perm (hkids.rev.append hrest) hlength
    rw [roots_append, roots_rev] at hwalk
    rw [roots_cons, walk, hroots, nodes_cons]
    exact (hwalk.trans hnodes).cons i

/-- The leaves below a node, from left to right. -/
def leavesFrom (children : ι → List ι) : ℕ → ι → List ι
  | 0, n => [n]
  | fuel + 1, n =>
    if (children n).isEmpty then [n] else (children n).flatMap (leavesFrom children fuel)

theorem leavesFrom_eq {children : ι → List ι} :
    ∀ {fuel : ℕ} {f : Forest ι}, Holds children f → f.nodes.length ≤ fuel →
      f.roots.flatMap (leavesFrom children fuel) = f.leaves
  | _, nil, _, _ => rfl
  | 0, cons _ _ _, _, hfuel => absurd hfuel (Nat.not_succ_le_zero _)
  | fuel + 1, cons i kids rest, ⟨hroots, hkids, hrest⟩, hfuel => by
    rw [nodes_cons, List.length_cons, List.length_append] at hfuel
    have hkids' : kids.roots.flatMap (leavesFrom children fuel) = kids.leaves :=
      leavesFrom_eq hkids (by omega)
    have hrest' : rest.roots.flatMap (leavesFrom children (fuel + 1)) = rest.leaves :=
      leavesFrom_eq hrest (by omega)
    rw [roots_cons, List.flatMap_cons, hrest', leavesFrom, hroots, hkids']
    cases kids with
    | nil => rfl
    | cons j kids' rest' => rfl

/-! ### Keeping some trees -/

/-- The trees whose roots satisfy a predicate. -/
def keep (p : ι → Bool) : Forest ι → Forest ι
  | nil => nil
  | cons i kids rest => if p i then cons i kids (rest.keep p) else rest.keep p

variable {p : ι → Bool}

theorem keep_cons (p : ι → Bool) (i : ι) (kids rest : Forest ι) :
    (cons i kids rest).keep p = if p i then cons i kids (rest.keep p) else rest.keep p := rfl

theorem roots_keep (f : Forest ι) : (f.keep p).roots = f.roots.filter p := by
  induction f with
  | nil => rfl
  | cons i kids rest _ ih =>
    rw [keep_cons, roots_cons, List.filter_cons, ← ih]
    by_cases h : p i = true
    · rw [if_pos h, if_pos h]
      rfl
    · rw [if_neg h, if_neg h]

theorem nodes_keep_sublist (f : Forest ι) : (f.keep p).nodes.Sublist f.nodes := by
  induction f with
  | nil => exact .slnil
  | cons i kids rest _ ih =>
    rw [keep_cons]
    by_cases h : p i = true
    · rw [if_pos h]
      exact (ih.append_left kids.nodes).cons_cons i
    · rw [if_neg h]
      exact (ih.trans (List.sublist_append_right _ _)).cons i

theorem Holds.keep {children : ι → List ι} (h : Holds children f) : Holds children (f.keep p) := by
  induction f with
  | nil => trivial
  | cons i kids rest _ ih =>
    rw [keep_cons]
    by_cases hp : p i = true
    · rw [if_pos hp]
      exact ⟨h.1, h.2.1, ih h.2.2⟩
    · rw [if_neg hp]
      exact ih h.2.2

/-- The nodes that satisfy the predicate are kept, if no node below one that does not is lost. -/
theorem mem_nodes_keep {children : ι → List ι} (h : Holds children f)
    (hleaf : ∀ i, p i = false → children i = []) (hn : n ∈ f.nodes) (hp : p n = true) :
    n ∈ (f.keep p).nodes := by
  induction f with
  | nil => exact hn
  | cons i kids rest _ ih =>
    obtain ⟨hroots, -, hrest⟩ := h
    rw [keep_cons]
    by_cases hi : p i = true
    · rw [if_pos hi]
      obtain rfl | hn := List.mem_cons.mp hn
      · exact List.mem_cons_self
      · obtain hn | hn := List.mem_append.mp hn
        · exact List.mem_cons_of_mem _ (List.mem_append_left _ hn)
        · exact List.mem_cons_of_mem _ (List.mem_append_right _ (ih hrest hn))
    · rw [if_neg hi]
      have hkids : kids = nil :=
        roots_eq_nil.mp (hroots.symm.trans (hleaf i (Bool.eq_false_iff.mpr hi)))
      subst hkids
      obtain rfl | hn := List.mem_cons.mp hn
      · exact absurd hp hi
      · exact ih hrest hn

end Forest
end Rio
