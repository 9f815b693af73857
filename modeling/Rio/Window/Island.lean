import Rio.Window.Manager

/-! The tab bar of a window, with the colors and titles that were given to tabs. -/

set_option linter.dupNamespace false

namespace Rio.Window
open Layout

structure Island (K : Type) where
  /-- The tab that the color picker with its rename field is open for. -/
  colorPickerTab : Option ℕ
  renameInput : String
  tabColors : Table ℕ K
  tabCustomTitles : Table ℕ String

/-- The characters that are trimmed off a title. -/
def isWhitespace (c : Char) : Bool :=
  let n := c.toNat
  (9 ≤ n && n ≤ 13) || n = 0x20 || n = 0x85 || n = 0xA0 || n = 0x1680 ||
    (0x2000 ≤ n && n ≤ 0x200A) || n = 0x2028 || n = 0x2029 || n = 0x202F || n = 0x205F || n = 0x3000

def trim (s : String) : String :=
  String.ofList (((s.toList.dropWhile isWhitespace).reverse.dropWhile isWhitespace).reverse)

/-- Where a click on the color picker goes. -/
inductive PickerClick (K : Type)
  | outside
  | swatch (color : K)
  | reset
  | inside

/-- A key in the rename field; text is typed, pasted, cut and deleted. -/
inductive RenameKey
  | escape
  | enter
  | edit (text : String)

/-- The place of an entry after an index is removed. -/
def indexAfterRemoval (removedIndex index : ℕ) : Option ℕ :=
  if index = removedIndex then none
  else some (if removedIndex < index then index - 1 else index)

def shiftEntriesAfterRemoval {V : Type} (entries : Table ℕ V) (removedIndex : ℕ) : Table ℕ V :=
  entries.rekey (indexAfterRemoval removedIndex)

def swapEntries {V : Type} (entries : Table ℕ V) (firstIndex secondIndex : ℕ) : Table ℕ V :=
  let firstEntry := entries.lookup firstIndex
  let secondEntry := entries.lookup secondIndex
  let entries := (entries.erase firstIndex).erase secondIndex
  let entries := match firstEntry with
    | some value => entries.insert secondIndex value
    | none => entries
  match secondEntry with
  | some value => entries.insert firstIndex value
  | none => entries

def retainSingleEntry {V : Type} (entries : Table ℕ V) (retainedIndex : ℕ) : Table ℕ V :=
  match entries.lookup retainedIndex with
  | some value => AList.singleton 0 value
  | none => ∅

namespace Island
variable {K : Type}

def new : Island K := ⟨none, "", ∅, ∅⟩

/-- The custom title of a tab, or the one that its program sets. -/
def getTitleForTab (island : Island K) (tabIndex : ℕ) (title : String) : String :=
  (island.tabCustomTitles.lookup tabIndex).getD title

def applyRename (island : Island K) : Island K :=
  match island.colorPickerTab with
  | some tab =>
    let trimmed := trim island.renameInput
    { island with
      tabCustomTitles :=
        if trimmed.isEmpty then island.tabCustomTitles.erase tab
        else island.tabCustomTitles.insert tab trimmed }
  | none => island

def openPickerForTab (island : Island K) (tabIndex : ℕ) (title : String) : Island K :=
  { island with
    colorPickerTab := some tabIndex
    renameInput := island.getTitleForTab tabIndex title }

def toggleColorPicker (island : Island K) (tabIndex : ℕ) (title : String) : Island K :=
  if island.colorPickerTab = some tabIndex then { island.applyRename with colorPickerTab := none }
  else island.openPickerForTab tabIndex title

def openRenameForTab (island : Island K) (tabIndex : ℕ) (title : String) : Island K :=
  if island.colorPickerTab = some tabIndex then island else island.openPickerForTab tabIndex title

def closeColorPicker (island : Island K) : Island K :=
  { island.applyRename with colorPickerTab := none }

def handleRenameInput (island : Island K) (key : RenameKey) : Island K :=
  if island.colorPickerTab.isNone then island
  else
    match key with
    | .escape => { island with colorPickerTab := none }
    | .enter => { island.applyRename with colorPickerTab := none }
    | .edit text => { island with renameInput := text }

def handleColorPickerClick (island : Island K) (click : PickerClick K) : Island K :=
  match island.colorPickerTab with
  | none => island
  | some pickerTab =>
    match click with
    | .outside => { island.applyRename with colorPickerTab := none }
    | .swatch color =>
      { { island with tabColors := island.tabColors.insert pickerTab color }.applyRename with
        colorPickerTab := none }
    | .reset =>
      { { island with tabColors := island.tabColors.erase pickerTab }.applyRename with
        colorPickerTab := none }
    | .inside => island

def handleTabClosed (island : Island K) (removedIndex : ℕ) : Island K :=
  { island with
    tabColors := shiftEntriesAfterRemoval island.tabColors removedIndex
    tabCustomTitles := shiftEntriesAfterRemoval island.tabCustomTitles removedIndex
    colorPickerTab := island.colorPickerTab.bind (indexAfterRemoval removedIndex) }

def handleTabsSwapped (island : Island K) (firstIndex secondIndex : ℕ) : Island K :=
  if firstIndex = secondIndex then island
  else
    { island with
      tabColors := swapEntries island.tabColors firstIndex secondIndex
      tabCustomTitles := swapEntries island.tabCustomTitles firstIndex secondIndex
      colorPickerTab := island.colorPickerTab.map fun tabIndex =>
        if tabIndex = firstIndex then secondIndex
        else if tabIndex = secondIndex then firstIndex
        else tabIndex }

def handleCloseUnfocusedTabs (island : Island K) (retainedIndex : ℕ) : Island K :=
  { island with
    tabColors := retainSingleEntry island.tabColors retainedIndex
    tabCustomTitles := retainSingleEntry island.tabCustomTitles retainedIndex
    colorPickerTab := if island.colorPickerTab = some retainedIndex then some 0 else none }

end Island

/-! ### The screen -/

structure Screen (F K : Type) where
  contextManager : ContextManager F
  island : Island K

/-- What is done to a window with a tab bar. -/
inductive ScreenOp (F K : Type)
  | tab (op : Op F)
  | toggleColorPicker (clickedTab : ℕ) (title : String)
  | renameTab (title : String)
  | closeColorPicker
  | colorPickerClick (click : PickerClick K)
  | renameInput (key : RenameKey)

namespace Screen
variable {F K : Type} [Number F]

def closeTab (taffy : Taffy F) (s : Screen F K) : Screen F K :=
  { contextManager := Window.step taffy s.contextManager .closeCurrentContext
    island :=
      if 1 < s.contextManager.contexts.length then
        s.island.handleTabClosed s.contextManager.currentIndex
      else s.island }

def tabCloseUnfocused (taffy : Taffy F) (s : Screen F K) : Screen F K :=
  if s.contextManager.contexts.length ≤ 1 then s
  else
    { contextManager := Window.step taffy s.contextManager .closeUnfocusedTabs
      island := s.island.handleCloseUnfocusedTabs s.contextManager.currentIndex }

def moveCurrentTabToPrev (taffy : Taffy F) (s : Screen F K) : Screen F K :=
  { contextManager := Window.step taffy s.contextManager .moveCurrentToPrev
    island :=
      s.island.handleTabsSwapped s.contextManager.currentIndex s.contextManager.prevIndex }

def moveCurrentTabToNext (taffy : Taffy F) (s : Screen F K) : Screen F K :=
  { contextManager := Window.step taffy s.contextManager .moveCurrentToNext
    island :=
      s.island.handleTabsSwapped s.contextManager.currentIndex s.contextManager.nextIndex }

/-- A window without a current tab is closed, or fails when it looks the tab up. -/
def step (taffy : Taffy F) (s : Screen F K) (op : ScreenOp F K) : Screen F K :=
  if s.contextManager.currentGrid.isNone then s
  else
    match op with
    | .tab .closeCurrentContext => s.closeTab taffy
    | .tab .closeUnfocusedTabs => s.tabCloseUnfocused taffy
    | .tab .moveCurrentToPrev => s.moveCurrentTabToPrev taffy
    | .tab .moveCurrentToNext => s.moveCurrentTabToNext taffy
    | .tab op => { s with contextManager := Window.step taffy s.contextManager op }
    | .toggleColorPicker clickedTab title =>
      if clickedTab < s.contextManager.contexts.length then
        { s with island := s.island.toggleColorPicker clickedTab title }
      else s
    | .renameTab title =>
      { s with island := s.island.openRenameForTab s.contextManager.currentIndex title }
    | .closeColorPicker => { s with island := s.island.closeColorPicker }
    | .colorPickerClick click => { s with island := s.island.handleColorPickerClick click }
    | .renameInput key => { s with island := s.island.handleRenameInput key }

end Screen

end Rio.Window
