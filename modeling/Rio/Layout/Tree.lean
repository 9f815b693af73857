import Rio.Lib.Forest
import Rio.Lib.Table

/-! Styles of layout nodes, and the tree of the layout library that holds them. -/

set_option linter.dupNamespace false

namespace Rio.Layout

/-- Floating-point numbers, whose arithmetic is not interpreted. -/
class Number (F : Type) extends Zero F, One F, Add F, Sub F, Mul F, Div F, Min F, Max F, LT F,
    LE F where
  ofNat : ℕ → F
  abs : F → F
  decidableLT : DecidableLT F
  decidableLE : DecidableLE F

instance instDecidableLT {F : Type} [Number F] : DecidableLT F := Number.decidableLT
instance instDecidableLE {F : Type} [Number F] : DecidableLE F := Number.decidableLE

abbrev NodeId := ℕ

inductive Display
  | flex | none
  deriving DecidableEq, Repr

inductive FlexDirection
  | row | column
  deriving DecidableEq, Repr

inductive Dimension (F : Type)
  | auto
  | length (x : F)
  deriving DecidableEq, Repr

structure Sides (F : Type) where
  left : F
  right : F
  top : F
  bottom : F
  deriving DecidableEq, Repr

structure Style (F : Type) where
  display : Display
  flexDirection : FlexDirection
  flexBasis : Dimension F
  flexGrow : F
  flexShrink : F
  width : Dimension F
  height : Dimension F
  columnGap : F
  rowGap : F
  padding : Sides F
  margin : Sides F
  deriving DecidableEq, Repr

/-- Where the library puts a node, in its parent, and the box of its content. -/
structure NodeLayout (F : Type) where
  x : F
  y : F
  width : F
  height : F
  contentBoxX : F
  contentBoxY : F
  contentBoxWidth : F
  contentBoxHeight : F
  deriving DecidableEq, Repr

/-- The tree of the layout library. -/
structure TaffyTree (F : Type) where
  /-- The id of the next node. -/
  next : NodeId
  style : NodeId → Style F
  children : NodeId → List NodeId
  parent : NodeId → Option NodeId

/-- The layout algorithm of the library. -/
structure Taffy (F : Type) where
  computeLayout : TaffyTree F → NodeId → NodeId → NodeLayout F

namespace Style
variable {F : Type} [Number F]

def default : Style F where
  display := .flex
  flexDirection := .row
  flexBasis := .auto
  flexGrow := 0
  flexShrink := 1
  width := .auto
  height := .auto
  columnGap := 0
  rowGap := 0
  padding := ⟨0, 0, 0, 0⟩
  margin := ⟨0, 0, 0, 0⟩

/-- Flexible sizing. -/
def flexible (s : Style F) : Style F := { s with flexBasis := .auto, flexGrow := 1, flexShrink := 1 }

/-- The flex sizing of another style. -/
def inheritFlex (s from_ : Style F) : Style F :=
  { s with
    flexBasis := from_.flexBasis
    flexGrow := from_.flexGrow
    flexShrink := from_.flexShrink }

end Style

namespace TaffyTree
variable {F : Type}

def empty [Number F] : TaffyTree F := ⟨0, fun _ => .default, fun _ => [], fun _ => none⟩

def setStyle (t : TaffyTree F) (node : NodeId) (style : Style F) : TaffyTree F :=
  { t with style := Function.update t.style node style }

/-- Set the styles of some nodes, where they are given. -/
def setStyles (t : TaffyTree F) (nodes : List NodeId) (style : NodeId → Option (Style F)) :
    TaffyTree F :=
  nodes.foldl (fun t node => (style node).elim t (t.setStyle node)) t

/-- Change the styles of some nodes. -/
def mapStyles (t : TaffyTree F) (nodes : List NodeId) (change : NodeId → Style F → Style F) :
    TaffyTree F :=
  nodes.foldl (fun t node => t.setStyle node (change node (t.style node))) t

/-- A new node without children, and its id. -/
def newLeaf (t : TaffyTree F) (style : Style F) : NodeId × TaffyTree F :=
  (t.next,
    { next := t.next + 1
      style := Function.update t.style t.next style
      children := Function.update t.children t.next []
      parent := Function.update t.parent t.next none })

def addChild (t : TaffyTree F) (parent child : NodeId) : TaffyTree F :=
  { t with
    children := Function.update t.children parent (t.children parent ++ [child])
    parent := Function.update t.parent child (some parent) }

def insertChildAtIndex (t : TaffyTree F) (parent index child : NodeId) : TaffyTree F :=
  { t with
    children := Function.update t.children parent ((t.children parent).insertIdx index child)
    parent := Function.update t.parent child (some parent) }

def removeChild (t : TaffyTree F) (parent child : NodeId) : TaffyTree F :=
  { t with
    children := Function.update t.children parent ((t.children parent).erase child)
    parent := Function.update t.parent child none }

/-- Remove a node from the tree; its children lose their parent. -/
def remove (t : TaffyTree F) (node : NodeId) : TaffyTree F :=
  let children :=
    match t.parent node with
    | some parent => Function.update t.children parent ((t.children parent).filter (· ≠ node))
    | none => t.children
  { t with
    children := Function.update children node []
    parent := fun n => if n = node ∨ t.parent n = some node then none else t.parent n }

/-- The nodes below a node. -/
def collectTreeNodes (t : TaffyTree F) (root : NodeId) : List NodeId :=
  Forest.walk t.children t.next [root]

/-- The nodes from a node up to the root. -/
def pathUp (t : TaffyTree F) (root : NodeId) : ℕ → NodeId → List NodeId
  | 0, n => [n]
  | fuel + 1, n =>
    if n = root then [n]
    else
      match t.parent n with
      | some parent => n :: t.pathUp root fuel parent
      | none => [n]

/-- The nodes from the root to a node. -/
def collectPathToRoot (t : TaffyTree F) (root node : NodeId) : List NodeId :=
  let path := t.pathUp root t.next node
  (if root ∈ path then path else path ++ [root]).reverse

/-- The nodes without children below a node, from left to right. -/
def leaves (t : TaffyTree F) (root : NodeId) : List NodeId :=
  Forest.leavesFrom t.children t.next root

def captureTreeStyles (t : TaffyTree F) (root : NodeId) : Table NodeId (Style F) :=
  (t.collectTreeNodes root).foldl (fun styles node => styles.insert node (t.style node)) ∅

/-- Let one node and those above it fill the tree, and hide the rest. -/
def applyZoomedPanelStyles [Number F] (t : TaffyTree F) (root current : NodeId)
    (snapshot : Table NodeId (Style F)) : TaffyTree F :=
  let path := t.collectPathToRoot root current
  t.setStyles (t.collectTreeNodes root) fun node =>
    (snapshot.lookup node).map fun style =>
      if node = root ∨ node ∈ path then
        let style := { style with display := .flex }
        if node ≠ root then style.flexible else style
      else { style with display := .none }

/-- Put a leaf and a new node in a container, which takes the place of the leaf. -/
def splitLeaf (t : TaffyTree F) (parentNode currentNode : NodeId)
    (containerStyle currentStyle newStyle : Style F) : NodeId × TaffyTree F :=
  let (containerNode, t) := t.newLeaf containerStyle
  let t := t.setStyle currentNode currentStyle
  let (newNode, t) := t.newLeaf newStyle
  let children := t.children parentNode
  let t := t.removeChild parentNode currentNode
  let t := t.addChild containerNode currentNode
  let t := t.addChild containerNode newNode
  (newNode,
    if currentNode ∈ children then
      t.insertChildAtIndex parentNode (children.idxOf currentNode) containerNode
    else t.addChild parentNode containerNode)

/-! ### Containers with less than two children -/

/-- Put the only child of a container in its place, with the sizing of the container. -/
def promote (t : TaffyTree F) (node child grandchild : NodeId) : TaffyTree F :=
  let idx := (t.children node).idxOf child
  let t := t.setStyle grandchild ((t.style grandchild).inheritFlex (t.style child))
  let t := t.removeChild child grandchild
  let t := t.removeChild node child
  t.insertChildAtIndex node idx grandchild

/-- Collapse the first of some children of a node that is a container with less than two
children, or put the containers among them on a stack. -/
def scanChildren (isPanel : NodeId → Bool) (t : TaffyTree F) (node : NodeId) :
    List NodeId → List NodeId → TaffyTree F ⊕ List NodeId
  | [], stack => .inr stack
  | child :: rest, stack =>
    if isPanel child then scanChildren isPanel t node rest stack
    else
      match t.children child with
      | [] => .inl (t.removeChild node child)
      | [grandchild] => .inl (t.promote node child grandchild)
      | _ :: _ :: _ => scanChildren isPanel t node rest (child :: stack)

/-- A pass over the containers below those on a stack, up to the first that is collapsed; `none`
where the fuel is not enough. -/
def collapsePass (isPanel : NodeId → Bool) (t : TaffyTree F) :
    ℕ → List NodeId → Option (Option (TaffyTree F))
  | _, [] => some none
  | 0, _ :: _ => none
  | fuel + 1, node :: stack =>
    match scanChildren isPanel t node (t.children node) stack with
    | .inl t' => some (some t')
    | .inr stack' => collapsePass isPanel t fuel stack'

/-- Passes until one collapses nothing; `none` where the fuel is not enough. -/
def collapseLoop (isPanel : NodeId → Bool) (root : NodeId) :
    ℕ → TaffyTree F → Option (TaffyTree F)
  | 0, _ => none
  | fuel + 1, t =>
    match collapsePass isPanel t t.next [root] with
    | none => none
    | some none => some t
    | some (some t') => collapseLoop isPanel root fuel t'

/-! ### Styles that are set -/

variable {n : NodeId}

theorem style_setStyle (t : TaffyTree F) (node : NodeId) (style : Style F) (n : NodeId) :
    (t.setStyle node style).style n = if n = node then style else t.style n := by
  change Function.update t.style node style n = _
  rw [Function.update_apply]

/-- Setting styles leaves the nodes as they are. -/
theorem setStyles_nodes (style : NodeId → Option (Style F)) :
    ∀ (nodes : List NodeId) (t : TaffyTree F), (t.setStyles nodes style).children = t.children ∧
      (t.setStyles nodes style).parent = t.parent ∧ (t.setStyles nodes style).next = t.next
  | [], _ => ⟨rfl, rfl, rfl⟩
  | node :: nodes, t => by
    have ih := setStyles_nodes style nodes ((style node).elim t (t.setStyle node))
    unfold setStyles at ih ⊢
    rw [List.foldl_cons]
    cases hstyle : style node with
    | none =>
      rw [hstyle] at ih
      exact ih
    | some s =>
      rw [hstyle] at ih
      exact ih

theorem style_setStyles (style : NodeId → Option (Style F)) :
    ∀ (nodes : List NodeId) (t : TaffyTree F), (t.setStyles nodes style).style n =
      if n ∈ nodes then (style n).getD (t.style n) else t.style n
  | [], _ => rfl
  | node :: nodes, t => by
    have ih := style_setStyles style nodes ((style node).elim t (t.setStyle node))
    have hhead : ((style node).elim t (t.setStyle node)).style n =
        if n = node then (style n).getD (t.style n) else t.style n := by
      cases hstyle : style node with
      | none =>
        by_cases hn : n = node
        · subst hn
          rw [if_pos rfl, hstyle]
          rfl
        · rw [if_neg hn]
          rfl
      | some s =>
        refine (style_setStyle t node s n).trans ?_
        by_cases hn : n = node
        · subst hn
          rw [if_pos rfl, if_pos rfl, hstyle]
          rfl
        · rw [if_neg hn, if_neg hn]
    unfold setStyles at ih ⊢
    rw [List.foldl_cons, ih, hhead]
    by_cases hn : n = node
    · rw [if_pos hn, if_pos (List.mem_cons.mpr (Or.inl hn))]
      by_cases hmem : n ∈ nodes
      · rw [if_pos hmem]
        cases style n with
        | none => rfl
        | some s => rfl
      · rw [if_neg hmem]
    · rw [if_neg hn]
      by_cases hmem : n ∈ nodes
      · rw [if_pos hmem, if_pos (List.mem_cons_of_mem _ hmem)]
      · rw [if_neg hmem, if_neg (by simp [hn, hmem])]

/-- Changing styles, but not what is displayed. -/
theorem mapStyles_frame {change : NodeId → Style F → Style F}
    (hchange : ∀ n s, (change n s).display = s.display) :
    ∀ (nodes : List NodeId) (t : TaffyTree F), (t.mapStyles nodes change).children = t.children ∧
      (t.mapStyles nodes change).parent = t.parent ∧ (t.mapStyles nodes change).next = t.next ∧
      ∀ n, ((t.mapStyles nodes change).style n).display = (t.style n).display
  | [], _ => ⟨rfl, rfl, rfl, fun _ => rfl⟩
  | node :: nodes, t => by
    obtain ⟨hchildren, hparent, hnext, hdisplay⟩ :=
      mapStyles_frame hchange nodes (t.setStyle node (change node (t.style node)))
    refine ⟨hchildren, hparent, hnext, fun n => (hdisplay n).trans ?_⟩
    rw [style_setStyle]
    by_cases hn : n = node
    · rw [if_pos hn, hn]
      exact hchange node _
    · rw [if_neg hn]

/-- The styles that a snapshot holds. -/
theorem lookup_captureTreeStyles (t : TaffyTree F) (root n : NodeId) :
    (t.captureTreeStyles root).lookup n =
      if n ∈ t.collectTreeNodes root then some (t.style n) else none := by
  have hfold : ∀ (nodes : List NodeId) (styles : Table NodeId (Style F)),
      (nodes.foldl (fun styles node => styles.insert node (t.style node)) styles).lookup n =
        if n ∈ nodes then some (t.style n) else styles.lookup n := by
    intro nodes
    induction nodes with
    | nil => exact fun _ => rfl
    | cons node nodes ih =>
      intro styles
      rw [List.foldl_cons, ih, Table.lookup_insert_of]
      by_cases hmem : n ∈ nodes
      · rw [if_pos hmem, if_pos (List.mem_cons_of_mem _ hmem)]
      · rw [if_neg hmem]
        by_cases hn : n = node
        · rw [if_pos hn, if_pos (List.mem_cons.mpr (Or.inl hn)), hn]
        · rw [if_neg hn, if_neg (by simp [hn, hmem])]
  exact hfold _ _

end TaffyTree
end Rio.Layout
