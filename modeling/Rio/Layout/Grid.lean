import Rio.Layout.Tree
import Mathlib.Data.List.Sort

/-! The panels of a tab, in a tree of layout nodes. -/

set_option linter.dupNamespace false

namespace Rio.Layout

structure Rect (F : Type) where
  x : F
  y : F
  width : F
  height : F
  deriving DecidableEq, Repr

/-- How panels are set apart. -/
structure Panel (F : Type) where
  padding : Sides F
  margin : Sides F
  rowGap : F
  columnGap : F
  deriving DecidableEq, Repr

structure ContextGridItem (F C : Type) where
  val : C
  layoutRect : Rect F
  terminalRect : Rect F
  deriving DecidableEq, Repr

structure ContextGrid (F C : Type) where
  width : F
  height : F
  /-- The focused panel. -/
  current : NodeId
  scaledMargin : Sides F
  scale : F
  /-- The panels, under their layout nodes. -/
  inner : Table NodeId (ContextGridItem F C)
  root : Option NodeId
  panelConfig : Panel F
  tree : TaffyTree F
  rootNode : NodeId
  /-- The styles that a zoomed panel hides. -/
  zoomedPanelStyles : Option (Table NodeId (Style F))
  /-- The layout computed last. -/
  layout : NodeId → NodeLayout F

inductive FocusDirection
  | left | right | up | down
  deriving DecidableEq, Repr

inductive Axis
  | horizontal | vertical
  deriving DecidableEq, Repr

variable {F C : Type} [Number F]

def Sides.scaled (s : Sides F) (scale : F) : Sides F :=
  ⟨s.left * scale, s.right * scale, s.top * scale, s.bottom * scale⟩

/-- The position of a node on an axis. -/
def NodeLayout.start (l : NodeLayout F) : Axis → F
  | .horizontal => l.x
  | .vertical => l.y

/-- The size of a node on an axis. -/
def NodeLayout.size (l : NodeLayout F) : Axis → F
  | .horizontal => l.width
  | .vertical => l.height

def Axis.cross : Axis → Axis
  | .horizontal => .vertical
  | .vertical => .horizontal

namespace ContextGrid

/-- The style of a panel. -/
def panelStyle (config : Panel F) (scale : F) : Style F :=
  { (Style.default : Style F) with
    flexGrow := 1
    flexShrink := 1
    padding := config.padding.scaled scale
    margin := config.margin.scaled scale }

def panelCount (g : ContextGrid F C) : ℕ := g.inner.keys.length

def isNodeVisible (g : ContextGrid F C) (node : NodeId) : Bool :=
  (g.tree.style node).display != .none

def visibleContextKeys (g : ContextGrid F C) : List NodeId := g.inner.keys.filter g.isNodeVisible

def visiblePanelCount (g : ContextGrid F C) : ℕ := g.visibleContextKeys.length

def isPanel (g : ContextGrid F C) (node : NodeId) : Bool := decide (node ∈ g.inner)

/-! ### Layout -/

def tryUpdateSize (g : ContextGrid F C) (width height : F) : ContextGrid F C :=
  let availableWidth := width - g.scaledMargin.left - g.scaledMargin.right
  let availableHeight := height - g.scaledMargin.top - g.scaledMargin.bottom
  { g with
    tree := g.tree.setStyle g.rootNode
      { g.tree.style g.rootNode with
        width := .length availableWidth, height := .length availableHeight } }

/-- The nodes below those on a stack, each with the position of its parent. -/
def positions (children : NodeId → List NodeId) (layout : NodeId → NodeLayout F) :
    ℕ → List (NodeId × F × F) → List (NodeId × F × F)
  | 0, _ => []
  | _ + 1, [] => []
  | fuel + 1, (node, parentX, parentY) :: stack =>
    let absX := parentX + (layout node).x
    let absY := parentY + (layout node).y
    (node, parentX, parentY) :: positions children layout fuel
      ((children node).reverse.map (fun child => (child, absX, absY)) ++ stack)

/-- A panel at the place of its node. -/
def place (l : NodeLayout F) (useContentBox : Bool) (parentX parentY : F)
    (item : ContextGridItem F C) : ContextGridItem F C :=
  let layoutRect := ⟨parentX + l.x, parentY + l.y, l.width, l.height⟩
  { item with
    layoutRect
    terminalRect :=
      if useContentBox then
        ⟨parentX + l.contentBoxX, parentY + l.contentBoxY, max l.contentBoxWidth 0,
          max l.contentBoxHeight 0⟩
      else layoutRect }

def updateLayoutRects (g : ContextGrid F C) : ContextGrid F C :=
  let useContentBox := decide (1 < g.visiblePanelCount)
  { g with
    inner := (positions g.tree.children g.layout g.tree.next [(g.rootNode, 0, 0)]).foldl
      (fun inner p => inner.adjust p.1 (place (g.layout p.1) useContentBox p.2.1 p.2.2)) g.inner }

/-- Compute the layout anew, and place the panels. -/
def computeLayout (taffy : Taffy F) (g : ContextGrid F C) : ContextGrid F C :=
  { g with layout := taffy.computeLayout g.tree g.rootNode }.updateLayoutRects

/-- A grid with one panel, whose layout is not computed. -/
def single (context : C) (width height scale : F) (scaledMargin : Sides F)
    (panelConfig : Panel F) : ContextGrid F C :=
  let availableWidth := width - scaledMargin.left - scaledMargin.right
  let availableHeight := height - scaledMargin.top - scaledMargin.bottom
  let rootStyle : Style F :=
    { (Style.default : Style F) with
      columnGap := panelConfig.columnGap * scale
      rowGap := panelConfig.rowGap * scale
      width := .length availableWidth
      height := .length availableHeight }
  let (rootNode, tree) := TaffyTree.empty.newLeaf rootStyle
  let (panelNode, tree) := tree.newLeaf (panelStyle panelConfig scale)
  let tree := tree.addChild rootNode panelNode
  { width, height
    current := panelNode
    scaledMargin, scale
    inner := AList.singleton panelNode ⟨context, ⟨0, 0, 0, 0⟩, ⟨0, 0, 0, 0⟩⟩
    root := some panelNode
    panelConfig, tree, rootNode
    zoomedPanelStyles := none
    layout := fun _ => ⟨0, 0, 0, 0, 0, 0, 0, 0⟩ }

def new (taffy : Taffy F) (context : C) (width height scale : F) (scaledMargin : Sides F)
    (panelConfig : Panel F) : ContextGrid F C :=
  (single context width height scale scaledMargin panelConfig).computeLayout taffy

/-! ### Zoom -/

def restoreStyles (g : ContextGrid F C) (snapshot : Table NodeId (Style F)) : ContextGrid F C :=
  { g with
    zoomedPanelStyles := none
    tree := g.tree.setStyles (g.tree.collectTreeNodes g.rootNode) snapshot.lookup }

/-- Give the nodes their styles back; says whether a panel was zoomed. -/
def restoreZoomedPanelStyles (g : ContextGrid F C) : Bool × ContextGrid F C :=
  match g.zoomedPanelStyles with
  | none => (false, g)
  | some snapshot => (true, g.restoreStyles snapshot)

def ensureUnzoomed (taffy : Taffy F) (g : ContextGrid F C) : ContextGrid F C :=
  match g.restoreZoomedPanelStyles with
  | (true, g) => g.computeLayout taffy
  | (false, g) => g

/-- Hide all panels but the focused one. -/
def zoomCurrent (g : ContextGrid F C) : ContextGrid F C :=
  let snapshot := g.tree.captureTreeStyles g.rootNode
  { g with
    tree := g.tree.applyZoomedPanelStyles g.rootNode g.current snapshot
    zoomedPanelStyles := some snapshot }

def toggleCurrentSplitZoom (taffy : Taffy F) (g : ContextGrid F C) : ContextGrid F C :=
  match g.restoreZoomedPanelStyles with
  | (true, g) => g.computeLayout taffy
  | (false, g) =>
    if g.panelCount ≤ 1 ∨ g.current ∉ g.inner then g else g.zoomCurrent.computeLayout taffy

/-! ### Splitting and removing panels -/

def createPanelStyle (g : ContextGrid F C) : Style F := panelStyle g.panelConfig g.scale

/-- The style of a container that takes the place of the focused panel. -/
def containerStyle (g : ContextGrid F C) (direction : FlexDirection) : Style F :=
  { (Style.default : Style F).inheritFlex (g.tree.style g.current) with
    flexDirection := direction
    columnGap := g.panelConfig.columnGap * g.scale
    rowGap := g.panelConfig.rowGap * g.scale }

/-- Put a new panel beside the focused one, in a container of their own. -/
def splitPanel (g : ContextGrid F C) (direction : FlexDirection) : NodeId × ContextGrid F C :=
  let parentNode := (g.tree.parent g.current).getD g.rootNode
  let (newNode, tree) := g.tree.splitLeaf parentNode g.current (g.containerStyle direction)
    (g.tree.style g.current).flexible g.createPanelStyle
  (newNode, { g with tree })

def split (taffy : Taffy F) (g : ContextGrid F C) (direction : FlexDirection) (context : C) :
    ContextGrid F C :=
  if g.current ∉ g.inner then g
  else
    let g := g.ensureUnzoomed taffy
    let (newNode, g) := g.splitPanel direction
    let g := { g with inner := g.inner.insert newNode ⟨context, ⟨0, 0, 0, 0⟩, ⟨0, 0, 0, 0⟩⟩ }
    { g.computeLayout taffy with current := newNode }

def splitRight (taffy : Taffy F) (g : ContextGrid F C) (context : C) : ContextGrid F C :=
  g.split taffy .row context

def splitDown (taffy : Taffy F) (g : ContextGrid F C) (context : C) : ContextGrid F C :=
  g.split taffy .column context

/-- Let all nodes fill the space. -/
def resetPanelStylesToFlexible (g : ContextGrid F C) : ContextGrid F C :=
  { g with
    tree := g.tree.mapStyles (g.tree.collectTreeNodes g.rootNode) fun _ style => style.flexible }

/-- The tree after the containers with less than two children are collapsed; `none` where that
does not end within the given number of passes. -/
def collapsed (g : ContextGrid F C) (fuel : ℕ) : Option (TaffyTree F) :=
  g.tree.collapseLoop g.isPanel g.rootNode fuel

def collapseSingleChildContainers (g : ContextGrid F C) : ContextGrid F C :=
  { g with tree := (g.collapsed (g.tree.next + 1)).getD g.tree }

/-- The panels on screen, from top to bottom and then from left to right. -/
def getOrderedKeys (g : ContextGrid F C) : List NodeId :=
  let panels := g.inner.entries.filter fun e => g.isNodeVisible e.1
  let before (a b : ContextGridItem F C) : Prop :=
    a.layoutRect.y < b.layoutRect.y ∨
      ¬ b.layoutRect.y < a.layoutRect.y ∧ ¬ b.layoutRect.x < a.layoutRect.x
  letI : DecidableRel before := fun _ _ => inferInstanceAs (Decidable (_ ∨ _))
  (panels.insertionSort fun a b => before a.2 b.2).map Sigma.fst

/-- The panel that is focused after the focused one is removed. -/
def nextCurrent (g : ContextGrid F C) : NodeId :=
  let toRemove := g.current
  let orderedKeys := g.getOrderedKeys
  match orderedKeys.idxOf? toRemove with
  | some pos =>
    if pos + 1 < orderedKeys.length then orderedKeys.getD (pos + 1) toRemove
    else if 0 < pos then orderedKeys.getD (pos - 1) toRemove
    else (orderedKeys.find? (· ≠ toRemove)).getD toRemove
  | none => (g.inner.keys.find? (· ≠ toRemove)).getD toRemove

/-- The tree after the focused panel is taken out, before containers are collapsed. -/
def withoutCurrent (g : ContextGrid F C) : ContextGrid F C :=
  let inner := g.inner.erase g.current
  { g with
    tree := g.tree.remove g.current
    inner
    root := if some g.current = g.root then inner.keys.head? else g.root
    current := g.nextCurrent }

def removeCurrent (taffy : Taffy F) (g : ContextGrid F C) : ContextGrid F C :=
  if g.panelCount = 0 then g
  else
    let g := g.ensureUnzoomed taffy
    if g.panelCount = 1 then g
    else if g.current ∉ g.inner then g
    else
      let g := g.withoutCurrent.collapseSingleChildContainers
      if 0 < g.panelCount then
        let g := if g.panelCount = 1 then g.resetPanelStylesToFlexible else g
        g.computeLayout taffy
      else g

/-! ### Selecting panels -/

/-- Select the next panel on screen; `wrapped` is selected after the last. -/
def selectNext (g : ContextGrid F C) (wrapped : List NodeId → NodeId) : ContextGrid F C :=
  if g.visiblePanelCount ≤ 1 then g
  else
    let keys := g.getOrderedKeys
    match keys.idxOf? g.current with
    | some pos =>
      { g with
        current :=
          if keys.length - 1 ≤ pos then wrapped keys else keys.getD (pos + 1) g.current }
    | none => g

/-- Select the previous panel on screen; `wrapped` is selected before the first. -/
def selectPrev (g : ContextGrid F C) (wrapped : List NodeId → NodeId) : ContextGrid F C :=
  if g.visiblePanelCount ≤ 1 then g
  else
    let keys := g.getOrderedKeys
    match keys.idxOf? g.current with
    | some pos =>
      { g with current := if pos = 0 then wrapped keys else keys.getD (pos - 1) g.current }
    | none => g

def selectNextSplit (g : ContextGrid F C) : ContextGrid F C :=
  g.selectNext fun keys => keys.headD g.current

def selectNextSplitNoLoop (g : ContextGrid F C) : ContextGrid F C := g.selectNext fun _ => g.current

def selectPrevSplit (g : ContextGrid F C) : ContextGrid F C :=
  g.selectPrev fun keys => keys.getD (keys.length - 1) g.current

def selectPrevSplitNoLoop (g : ContextGrid F C) : ContextGrid F C := g.selectPrev fun _ => g.current

def findContextAtPosition (g : ContextGrid F C) (x y : F) : Option NodeId :=
  let adjX := x - g.scaledMargin.left
  let adjY := y - g.scaledMargin.top
  (g.inner.entries.find? fun e =>
    let rect := e.2.layoutRect
    g.isNodeVisible e.1 && decide (rect.x ≤ adjX) && decide (adjX < rect.x + rect.width) &&
      decide (rect.y ≤ adjY) && decide (adjY < rect.y + rect.height)).map Sigma.fst

def selectCurrentBasedOnMouse (g : ContextGrid F C) (x y : F) : ContextGrid F C :=
  if g.visiblePanelCount ≤ 1 then g
  else
    match g.findContextAtPosition x y with
    | some node => { g with current := node }
    | none => g

/-- How well a panel continues another in a direction: the overlap of their sides, their
distance, that of their centers, and a tie breaker. -/
structure Adjacency (F : Type) where
  overlap : F
  distance : F
  centerDelta : F
  tieBreaker : F

def adjacency (current other : Rect F) (direction : FocusDirection) : Adjacency F :=
  let two : F := Number.ofNat 2
  let rows := max (min (current.y + current.height) (other.y + other.height) -
    max current.y other.y) 0
  let columns := max (min (current.x + current.width) (other.x + other.width) -
    max current.x other.x) 0
  let centerY := Number.abs (current.y + current.height / two - (other.y + other.height / two))
  let centerX := Number.abs (current.x + current.width / two - (other.x + other.width / two))
  match direction with
  | .left => ⟨rows, current.x - (other.x + other.width), centerY, other.y⟩
  | .right => ⟨rows, other.x - (current.x + current.width), centerY, other.y⟩
  | .up => ⟨columns, current.y - (other.y + other.height), centerX, other.x⟩
  | .down => ⟨columns, other.y - (current.y + current.height), centerX, other.x⟩

def shouldReplace (a : Adjacency F) (best : Option (NodeId × Adjacency F)) : Bool :=
  match best with
  | none => true
  | some (_, b) =>
    let half : F := Number.ofNat 1 / Number.ofNat 2
    let sameOverlap := decide (Number.abs (a.overlap - b.overlap) ≤ half)
    let sameDistance := decide (Number.abs (a.distance - b.distance) ≤ half)
    let sameCenter := decide (Number.abs (a.centerDelta - b.centerDelta) ≤ half)
    decide (b.overlap + half < a.overlap) ||
      sameOverlap && decide (a.distance < b.distance - half) ||
      sameOverlap && sameDistance && decide (a.centerDelta < b.centerDelta - half) ||
      sameOverlap && sameDistance && sameCenter && decide (a.tieBreaker < b.tieBreaker)

def maxDistance (g : ContextGrid F C) : FocusDirection → F
  | .left | .right =>
    (g.panelConfig.columnGap + g.panelConfig.margin.left + g.panelConfig.margin.right) * g.scale
  | .up | .down =>
    (g.panelConfig.rowGap + g.panelConfig.margin.top + g.panelConfig.margin.bottom) * g.scale

def findAdjacentPanel (g : ContextGrid F C) (node : NodeId) (direction : FocusDirection) :
    Option NodeId :=
  match g.inner.lookup node with
  | none => none
  | some item =>
    if g.isNodeVisible node then
      (g.inner.entries.foldl
        (fun best e =>
          if e.1 = node ∨ ¬ g.isNodeVisible e.1 then best
          else
            let a := adjacency item.layoutRect e.2.layoutRect direction
            if a.overlap ≤ 0 ∨ a.distance < 0 ∨ g.maxDistance direction + 1 < a.distance then best
            else if shouldReplace a best then some (e.1, a) else best) none).map Prod.fst
    else none

def selectSplit (g : ContextGrid F C) (direction : FocusDirection) : ContextGrid F C :=
  if g.visiblePanelCount ≤ 1 then g
  else
    match g.findAdjacentPanel g.current direction with
    | some next => { g with current := next }
    | none => g

def selectSplitLeft (g : ContextGrid F C) : ContextGrid F C := g.selectSplit .left
def selectSplitRight (g : ContextGrid F C) : ContextGrid F C := g.selectSplit .right
def selectSplitUp (g : ContextGrid F C) : ContextGrid F C := g.selectSplit .up
def selectSplitDown (g : ContextGrid F C) : ContextGrid F C := g.selectSplit .down

/-- Focus the root panel, when the tab is reached from the one before it. -/
def selectRoot (g : ContextGrid F C) : ContextGrid F C :=
  match g.root with
  | some root => { g with current := root }
  | none => g

/-- Focus the last panel on screen, when the tab is reached from the one after it. -/
def selectLast (g : ContextGrid F C) : ContextGrid F C :=
  match g.getOrderedKeys.getLast? with
  | some key => { g with current := key }
  | none => g

/-! ### Moving dividers -/

/-- A panel that touches the node on an axis, the first of the two being before the other. -/
def findNeighbors (g : ContextGrid F C) (axis : Axis) (gap : F) (node : NodeId) :
    Option (NodeId × NodeId) :=
  let current := g.layout node
  let touches (other : NodeId) (distance : F) : Bool :=
    other ≠ node && g.isNodeVisible other &&
      decide (current.start axis.cross < (g.layout other).start axis.cross +
        (g.layout other).size axis.cross) &&
      decide ((g.layout other).start axis.cross < current.start axis.cross +
        current.size axis.cross) &&
      decide (0 ≤ distance) && decide (distance ≤ gap + 1)
  if node ∈ g.inner ∧ g.isNodeVisible node then
    match g.inner.keys.find? fun other =>
      touches other (current.start axis - ((g.layout other).start axis +
        (g.layout other).size axis)) with
    | some other => some (other, node)
    | none =>
      match g.inner.keys.find? fun other =>
        touches other ((g.layout other).start axis - (current.start axis + current.size axis)) with
      | some other => some (node, other)
      | none => none
  else none

def findHorizontalNeighbors (g : ContextGrid F C) (node : NodeId) : Option (NodeId × NodeId) :=
  g.findNeighbors .horizontal (g.panelConfig.columnGap * g.scale) node

def findVerticalNeighbors (g : ContextGrid F C) (node : NodeId) : Option (NodeId × NodeId) :=
  g.findNeighbors .vertical (g.panelConfig.rowGap * g.scale) node

def setPanelSize (g : ContextGrid F C) (node : NodeId) (size : F) : ContextGrid F C :=
  { g with
    tree := g.tree.setStyle node
      { g.tree.style node with flexBasis := .length 0, flexGrow := size, flexShrink := 1 } }

/-- Move the divider beside the focused panel, which grows or shrinks; says whether it moved. -/
def moveDivider (taffy : Taffy F) (g : ContextGrid F C) (axis : Axis)
    (neighbors : ContextGrid F C → NodeId → Option (NodeId × NodeId)) (minSize amount : F)
    (grow : Bool) : Bool × ContextGrid F C :=
  let g := g.ensureUnzoomed taffy
  if g.panelCount ≤ 1 then (false, g)
  else
    match neighbors g g.current with
    | none => (false, g)
    | some (first, second) =>
      let firstGrows := if g.current = second then !grow else grow
      let firstSize := (g.layout first).size axis
      let secondSize := (g.layout second).size axis
      let newFirst := if firstGrows then firstSize + amount else firstSize - amount
      let newSecond := if firstGrows then secondSize - amount else secondSize + amount
      if newFirst < minSize ∨ newSecond < minSize then (false, g)
      else
        (true, ((g.setPanelSize first newFirst).setPanelSize second newSecond).computeLayout taffy)

def moveDividerUp (taffy : Taffy F) (g : ContextGrid F C) (amount : F) : Bool × ContextGrid F C :=
  g.moveDivider taffy .vertical findVerticalNeighbors (Number.ofNat 50) amount false

def moveDividerDown (taffy : Taffy F) (g : ContextGrid F C) (amount : F) : Bool × ContextGrid F C :=
  g.moveDivider taffy .vertical findVerticalNeighbors (Number.ofNat 50) amount true

def moveDividerLeft (taffy : Taffy F) (g : ContextGrid F C) (amount : F) : Bool × ContextGrid F C :=
  g.moveDivider taffy .horizontal findHorizontalNeighbors (Number.ofNat 100) amount false

def moveDividerRight (taffy : Taffy F) (g : ContextGrid F C) (amount : F) :
    Bool × ContextGrid F C :=
  g.moveDivider taffy .horizontal findHorizontalNeighbors (Number.ofNat 100) amount true

/-- Resize the panels at a border that is dragged. -/
def resizeBorder (taffy : Taffy F) (g : ContextGrid F C) (leftOrTop rightOrBottom : NodeId)
    (originalSizes : F × F) (delta : F) : ContextGrid F C :=
  let minSize := Number.ofNat 50 * g.scale
  let newA := max (originalSizes.1 + delta) minSize
  let newB := max (originalSizes.2 - delta) minSize
  ((g.setPanelSize leftOrTop newA).setPanelSize rightOrBottom newB).computeLayout taffy

/-! ### Updates from the window and the configuration -/

def updateScaledMargin (g : ContextGrid F C) (scaledMargin : Sides F) : ContextGrid F C :=
  { g with scaledMargin }.tryUpdateSize g.width g.height

def updatePanelConfig (g : ContextGrid F C) (panelConfig : Panel F) : ContextGrid F C :=
  { g with
    panelConfig
    tree := g.tree.mapStyles (g.tree.collectTreeNodes g.rootNode) fun node style =>
      if node ∈ g.inner then
        { style with
          padding := panelConfig.padding.scaled g.scale
          margin := panelConfig.margin.scaled g.scale }
      else
        { style with
          columnGap := panelConfig.columnGap * g.scale
          rowGap := panelConfig.rowGap * g.scale } }

def updateScale (g : ContextGrid F C) (scale : F) : ContextGrid F C :=
  { g with scale }.updatePanelConfig g.panelConfig

def resize (taffy : Taffy F) (g : ContextGrid F C) (newWidth newHeight : F) : ContextGrid F C :=
  ({ g with width := newWidth, height := newHeight }.tryUpdateSize newWidth newHeight).computeLayout
    taffy

end ContextGrid

/-! ### Runs -/

/-- What is done to a grid. -/
inductive Op (F C : Type)
  | splitRight (context : C)
  | splitDown (context : C)
  | removeCurrent
  | selectNextSplit
  | selectNextSplitNoLoop
  | selectPrevSplit
  | selectPrevSplitNoLoop
  | selectSplit (direction : FocusDirection)
  | selectCurrentBasedOnMouse (x y : F)
  | selectRoot
  | selectLast
  | toggleCurrentSplitZoom
  | moveDividerUp (amount : F)
  | moveDividerDown (amount : F)
  | moveDividerLeft (amount : F)
  | moveDividerRight (amount : F)
  | resizeBorder (leftOrTop rightOrBottom : NodeId) (originalSizes : F × F) (delta : F)
  | updateScaledMargin (scaledMargin : Sides F)
  | updateScale (scale : F)
  | updatePanelConfig (panelConfig : Panel F)
  | updateDimensions
  | resize (newWidth newHeight : F)

def step (taffy : Taffy F) (g : ContextGrid F C) : Op F C → ContextGrid F C
  | .splitRight context => g.splitRight taffy context
  | .splitDown context => g.splitDown taffy context
  | .removeCurrent => g.removeCurrent taffy
  | .selectNextSplit => g.selectNextSplit
  | .selectNextSplitNoLoop => g.selectNextSplitNoLoop
  | .selectPrevSplit => g.selectPrevSplit
  | .selectPrevSplitNoLoop => g.selectPrevSplitNoLoop
  | .selectSplit direction => g.selectSplit direction
  | .selectCurrentBasedOnMouse x y => g.selectCurrentBasedOnMouse x y
  | .selectRoot => g.selectRoot
  | .selectLast => g.selectLast
  | .toggleCurrentSplitZoom => g.toggleCurrentSplitZoom taffy
  | .moveDividerUp amount => (g.moveDividerUp taffy amount).2
  | .moveDividerDown amount => (g.moveDividerDown taffy amount).2
  | .moveDividerLeft amount => (g.moveDividerLeft taffy amount).2
  | .moveDividerRight amount => (g.moveDividerRight taffy amount).2
  | .resizeBorder a b originalSizes delta => g.resizeBorder taffy a b originalSizes delta
  | .updateScaledMargin scaledMargin => g.updateScaledMargin scaledMargin
  | .updateScale scale => g.updateScale scale
  | .updatePanelConfig panelConfig => g.updatePanelConfig panelConfig
  | .updateDimensions => g.computeLayout taffy
  | .resize newWidth newHeight => g.resize taffy newWidth newHeight

/-! ### A layout algorithm -/

instance : Number ℤ where
  ofNat := Int.ofNat
  abs x := |x|
  decidableLT := inferInstance
  decidableLE := inferInstance

/-- The box of a node without padding that has a share of its parent by its growth, as that of
nodes with neither gaps nor content. -/
def shareLayout (t : TaffyTree ℤ) (root : NodeId) : ℕ → NodeId → NodeLayout ℤ
  | 0, _ => ⟨0, 0, 0, 0, 0, 0, 0, 0⟩
  | fuel + 1, n =>
    let box (x y w h : ℤ) : NodeLayout ℤ := ⟨x, y, w, h, x, y, w, h⟩
    let length : Dimension ℤ → ℤ
      | .length x => x
      | .auto => 0
    let grow (nodes : List NodeId) : ℤ := (nodes.map fun c => (t.style c).flexGrow).sum
    if n = root then box 0 0 (length (t.style root).width) (length (t.style root).height)
    else
      match t.parent n with
      | none => box 0 0 0 0
      | some p =>
        let shown := (t.children p).filter fun c => (t.style c).display != .none
        let part (size : ℤ) (nodes : List NodeId) : ℤ := size * grow nodes / grow shown
        let l := shareLayout t root fuel p
        if n ∈ shown then
          match (t.style p).flexDirection with
          | .row => box (part l.width (shown.takeWhile (· ≠ n))) 0 (part l.width [n]) l.height
          | .column => box 0 (part l.height (shown.takeWhile (· ≠ n))) l.width (part l.height [n])
        else box 0 0 0 0

/-- Shares of a window. -/
def shares : Taffy ℤ := ⟨fun t root n => shareLayout t root t.next n⟩

/-- A panel that fills a window of 800 by 600 pixels. -/
def window (context : ℕ) : ContextGrid ℤ ℕ :=
  .new shares context 800 600 1 ⟨0, 0, 0, 0⟩ ⟨⟨0, 0, 0, 0⟩, ⟨0, 0, 0, 0⟩, 0, 0⟩

end Rio.Layout
