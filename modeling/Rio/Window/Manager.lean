import Rio.Layout.Contexts

/-! The tabs of a window, each a grid of panels with a shell. -/

set_option linter.dupNamespace false

namespace Rio.Window
open Layout

/-- A shell: its route, and the text area that shows it. -/
structure Context where
  routeId : ℕ
  richTextId : ℕ
  deriving DecidableEq, Repr

structure ContextManager (F : Type) where
  currentIndex : ℕ
  /-- The route that renders and other events of the focused shell are scheduled for. -/
  currentRoute : ℕ
  contexts : List (ContextGrid F Context)
  capacity : ℕ
  /-- Tabs are those of the desktop, a window each. -/
  isNative : Bool
  panel : Panel F
  /-- The route of the next shell; the counter is shared by all windows. -/
  routeIdCounter : ℕ

variable {F : Type}

/-- The route of the focused shell of a tab. -/
def routeOf (g : ContextGrid F Context) : Option ℕ := g.focused.map (·.routeId)

variable [Number F]

namespace ContextManager

def defaultContextCapacity : ℕ := 28

/-- A shell, unless it can not be spawned; the counter advances in any case. -/
def createContext (m : ContextManager F) (spawned : Bool) (richTextId : ℕ) :
    Option Context × ContextManager F :=
  (if spawned then some ⟨m.routeIdCounter, richTextId⟩ else none,
    { m with routeIdCounter := m.routeIdCounter + 1 })

/-- A window with one tab. Where no shell can be spawned, a dead context reports the error. -/
def start (taffy : Taffy F) (spawned : Bool) (routeIdCounter routeId richTextId : ℕ)
    (width height scale : F) (scaledMargin : Sides F) (panel : Panel F) (isNative : Bool) :
    ContextManager F :=
  { currentIndex := 0
    currentRoute := 0
    contexts :=
      [if spawned then
        .new taffy ⟨routeIdCounter, richTextId⟩ width height scale scaledMargin panel
      else .new taffy ⟨routeId, 0⟩ 0 0 1 scaledMargin panel]
    capacity := defaultContextCapacity
    isNative
    panel
    routeIdCounter := routeIdCounter + 1 }

def currentGrid (m : ContextManager F) : Option (ContextGrid F Context) :=
  m.contexts[m.currentIndex]?

def currentGridLen (m : ContextManager F) : ℕ := (m.currentGrid.map (·.panelCount)).getD 0

/-- The focused context; `none` where the source fails, as the current tab does not exist. -/
def current (m : ContextManager F) : Option Context := m.currentGrid.bind (·.focused)

/-- The contexts of all tabs. -/
def vals (m : ContextManager F) : List Context := m.contexts.flatMap (·.vals)

def modifyCurrentGrid (m : ContextManager F) (f : ContextGrid F Context → ContextGrid F Context) :
    ContextManager F :=
  { m with contexts := m.contexts.modify m.currentIndex f }

def selectRouteFromCurrentGrid (m : ContextManager F) : ContextManager F :=
  match m.current with
  | some context => { m with currentRoute := context.routeId }
  | none => m

/-- Move the focus in the current tab; the route follows when the focus moved. -/
def selectIn (m : ContextManager F) (f : ContextGrid F Context → ContextGrid F Context) :
    Bool × ContextManager F :=
  match m.currentGrid with
  | some g =>
    if (f g).current ≠ g.current then (true, (m.modifyCurrentGrid f).selectRouteFromCurrentGrid)
    else (false, m)
  | none => (false, m)

/-! ### Tabs -/

def setCurrent (m : ContextManager F) (contextId : ℕ) : ContextManager F :=
  if contextId < m.contexts.length then
    { m with currentIndex := contextId }.selectRouteFromCurrentGrid
  else m

/-- Open a tab as large as the current one. -/
def addContext (taffy : Taffy F) (m : ContextManager F) (redirect spawned : Bool)
    (richTextId : ℕ) : ContextManager F :=
  match m.currentGrid with
  | none => m
  | some g =>
    if m.isNative then m
    else if m.contexts.length < m.capacity then
      match m.createContext spawned richTextId with
      | (some context, m') =>
        let m' := { m' with
          contexts :=
            m.contexts ++ [.new taffy context g.width g.height g.scale g.scaledMargin m.panel] }
        if redirect then
          { m' with currentIndex := m.contexts.length }.selectRouteFromCurrentGrid
        else m'
      | (none, m') => m'
    else m

/-- A native tab is selected by the desktop. -/
def selectTab (m : ContextManager F) (tabIndex : ℕ) : ContextManager F :=
  if m.isNative then m else m.setCurrent tabIndex

def selectLastTab (m : ContextManager F) : ContextManager F :=
  if m.isNative then m else m.setCurrent (m.contexts.length - 1)

/-- The tab before the current one, the last one before the first. -/
def prevIndex (m : ContextManager F) : ℕ :=
  if m.currentIndex = 0 then m.contexts.length - 1 else m.currentIndex - 1

/-- The tab after the current one, the first one after the last. -/
def nextIndex (m : ContextManager F) : ℕ :=
  if m.currentIndex = m.contexts.length - 1 then 0 else m.currentIndex + 1

def switchToNext (m : ContextManager F) : ContextManager F :=
  if m.isNative then m else { m with currentIndex := m.nextIndex }.selectRouteFromCurrentGrid

def switchToPrev (m : ContextManager F) : ContextManager F :=
  if m.isNative then m else { m with currentIndex := m.prevIndex }.selectRouteFromCurrentGrid

/-- Exchange the current tab with another one, and follow it. -/
def moveCurrentTo (m : ContextManager F) (targetIndex : ℕ) : ContextManager F :=
  if m.contexts.length ≤ 1 then m
  else
    match m.currentGrid, m.contexts[targetIndex]? with
    | some current, some target =>
      { m with
        contexts :=
          (m.contexts.set m.currentIndex target).set targetIndex current }.selectTab targetIndex
    | _, _ => m

def moveCurrentToPrev (m : ContextManager F) : ContextManager F := m.moveCurrentTo m.prevIndex

def moveCurrentToNext (m : ContextManager F) : ContextManager F := m.moveCurrentTo m.nextIndex

/-! ### Splits -/

def split (taffy : Taffy F) (m : ContextManager F) (splitDown spawned : Bool) (richTextId : ℕ) :
    ContextManager F :=
  match m.createContext spawned richTextId with
  | (some context, m) =>
    { m.modifyCurrentGrid fun g =>
        if splitDown then g.splitDown taffy context else g.splitRight taffy context with
      currentRoute := context.routeId }
  | (none, m) => m

def selectNextSplit (m : ContextManager F) : ContextManager F :=
  (m.modifyCurrentGrid (·.selectNextSplit)).selectRouteFromCurrentGrid

def selectPrevSplit (m : ContextManager F) : ContextManager F :=
  (m.modifyCurrentGrid (·.selectPrevSplit)).selectRouteFromCurrentGrid

def selectSplit (m : ContextManager F) (direction : FocusDirection) : ContextManager F :=
  (m.selectIn (·.selectSplit direction)).2

def selectCurrentBasedOnMouse (m : ContextManager F) (x y : F) : ContextManager F :=
  (m.selectIn (·.selectCurrentBasedOnMouse x y)).2

def switchToNextSplitOrTab (m : ContextManager F) : ContextManager F :=
  match m.selectIn (·.selectNextSplitNoLoop) with
  | (true, m) => m
  | (false, m) => (m.switchToNext.modifyCurrentGrid (·.selectRoot)).selectRouteFromCurrentGrid

def switchToPrevSplitOrTab (m : ContextManager F) : ContextManager F :=
  match m.selectIn (·.selectPrevSplitNoLoop) with
  | (true, m) => m
  | (false, m) => (m.switchToPrev.modifyCurrentGrid (·.selectLast)).selectRouteFromCurrentGrid

def toggleCurrentSplitZoom (taffy : Taffy F) (m : ContextManager F) : ContextManager F :=
  (m.modifyCurrentGrid (·.toggleCurrentSplitZoom taffy)).selectRouteFromCurrentGrid

def moveDivider (taffy : Taffy F) (m : ContextManager F) (direction : FocusDirection)
    (amount : F) : ContextManager F :=
  m.modifyCurrentGrid fun g =>
    match direction with
    | .left => (g.moveDividerLeft taffy amount).2
    | .right => (g.moveDividerRight taffy amount).2
    | .up => (g.moveDividerUp taffy amount).2
    | .down => (g.moveDividerDown taffy amount).2

def removeCurrentGrid (taffy : Taffy F) (m : ContextManager F) : ContextManager F :=
  (m.modifyCurrentGrid (·.removeCurrent taffy)).selectRouteFromCurrentGrid

def resizeAllGrids (taffy : Taffy F) (m : ContextManager F) (width height : F) :
    ContextManager F :=
  { m with contexts := m.contexts.map fun g => g.resize taffy width height }

/-! ### Closing tabs -/

/-- Remove a tab. The focus goes to the tab before it, from the second tab to the first, when the
tab removed is to lose the focus. -/
def removeTab (m : ContextManager F) (indexToRemove : ℕ) (losesFocus : Bool) : ContextManager F :=
  let m := if losesFocus && decide (1 < indexToRemove) then m.setCurrent (indexToRemove - 1) else m
  let m := { m with contexts := m.contexts.eraseIdx indexToRemove }
  if losesFocus && !decide (1 < indexToRemove) then m.setCurrent 0 else m

def closeCurrentContext (m : ContextManager F) : ContextManager F :=
  if m.contexts.length = 1 then m else m.removeTab m.currentIndex true

def closeUnfocusedTabs (m : ContextManager F) : ContextManager F :=
  match m.current with
  | some context =>
    { m with
      contexts := m.contexts.filter fun g => routeOf g = some context.routeId }.setCurrent 0
  | none => m

/-- The shell of a route exited. Says whether the window has no tabs left. -/
def shouldCloseContextManager (taffy : Taffy F) (m : ContextManager F) (routeId : ℕ) :
    Bool × ContextManager F :=
  let requiresChangeRoute := decide (m.currentRoute = routeId)
  if m.contexts.isEmpty then (true, m)
  else if 1 < m.currentGridLen then
    (false, if m.current.map (·.routeId) = some routeId then m.removeCurrentGrid taffy else m)
  else
    match m.contexts.findIdx? fun g => routeOf g = some routeId with
    | some indexToRemove =>
      let m := m.removeTab indexToRemove requiresChangeRoute
      (m.contexts.isEmpty, m)
    | none => (false, m)

def getByRouteId (m : ContextManager F) (routeId : ℕ) : Option Context :=
  m.currentGrid.bind fun g => g.vals.find? fun context : Context => context.routeId = routeId

end ContextManager

/-! ### Runs -/

/-- What is done to the tabs of a window. -/
inductive Op (F : Type)
  | addContext (redirect spawned : Bool) (richTextId : ℕ)
  | split (splitDown spawned : Bool) (richTextId : ℕ)
  | selectNextSplit
  | selectPrevSplit
  | selectSplit (direction : FocusDirection)
  | selectCurrentBasedOnMouse (x y : F)
  | switchToNextSplitOrTab
  | switchToPrevSplitOrTab
  | toggleCurrentSplitZoom
  | moveDivider (direction : FocusDirection) (amount : F)
  | removeCurrentGrid
  | resizeAllGrids (width height : F)
  | setCurrent (contextId : ℕ)
  | selectTab (tabIndex : ℕ)
  | selectLastTab
  | switchToNext
  | switchToPrev
  | moveCurrentToPrev
  | moveCurrentToNext
  | closeCurrentContext
  | closeUnfocusedTabs
  | closeTerminal (routeId : ℕ)
  /-- A shell is spawned in another window. -/
  | spawnElsewhere
  deriving DecidableEq

/-- Once all tabs are closed the window is gone. -/
def step (taffy : Taffy F) (m : ContextManager F) (op : Op F) : ContextManager F :=
  if m.contexts.isEmpty then m
  else
    match op with
    | .addContext redirect spawned richTextId => m.addContext taffy redirect spawned richTextId
    | .split splitDown spawned richTextId => m.split taffy splitDown spawned richTextId
    | .selectNextSplit => m.selectNextSplit
    | .selectPrevSplit => m.selectPrevSplit
    | .selectSplit direction => m.selectSplit direction
    | .selectCurrentBasedOnMouse x y => m.selectCurrentBasedOnMouse x y
    | .switchToNextSplitOrTab => m.switchToNextSplitOrTab
    | .switchToPrevSplitOrTab => m.switchToPrevSplitOrTab
    | .toggleCurrentSplitZoom => m.toggleCurrentSplitZoom taffy
    | .moveDivider direction amount => m.moveDivider taffy direction amount
    | .removeCurrentGrid => m.removeCurrentGrid taffy
    | .resizeAllGrids width height => m.resizeAllGrids taffy width height
    | .setCurrent contextId => m.setCurrent contextId
    | .selectTab tabIndex => m.selectTab tabIndex
    | .selectLastTab => m.selectLastTab
    | .switchToNext => m.switchToNext
    | .switchToPrev => m.switchToPrev
    | .moveCurrentToPrev => m.moveCurrentToPrev
    | .moveCurrentToNext => m.moveCurrentToNext
    | .closeCurrentContext => m.closeCurrentContext
    | .closeUnfocusedTabs => m.closeUnfocusedTabs
    | .closeTerminal routeId => (m.shouldCloseContextManager taffy routeId).2
    | .spawnElsewhere => { m with routeIdCounter := m.routeIdCounter + 1 }

/-- The first window, of 800 by 600 pixels; its shell has the route 1. -/
def firstWindow : ContextManager ℤ :=
  .start shares true 1 0 0 800 600 1 ⟨0, 0, 0, 0⟩ ⟨⟨0, 0, 0, 0⟩, ⟨0, 0, 0, 0⟩, 0, 0⟩ false

end Rio.Window
