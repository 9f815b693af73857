import Rio.Crosswords.Handler
import Rio.Lib.Runs

/-! The operations on a terminal as data, and what a terminal does over a run of them. -/

set_option linter.dupNamespace false

namespace Rio

/-- An operation of the handler, of the user, or of the window. -/
inductive Op
  | input (c : Char)
  | goto (line : ℤ) (col : ℕ)
  | gotoLine (line : ℤ)
  | gotoCol (col : ℕ)
  | moveUp (rows : ℕ)
  | moveDown (rows : ℕ)
  | moveForward (cols : ℕ)
  | moveBackward (cols : ℕ)
  | moveDownAndCr (rows : ℕ)
  | moveUpAndCr (lines : ℕ)
  | moveForwardTabs (count : ℕ)
  | moveBackwardTabs (count : ℕ)
  | putTab (count : ℕ)
  | backspace
  | carriageReturn
  | linefeed
  | newline
  | reverseIndex
  | saveCursorPosition
  | restoreCursorPosition
  | setScrollingRegion (top : ℕ) (bottom : Option ℕ)
  | scrollUp (lines : ℕ)
  | scrollDown (lines : ℕ)
  | insertBlankLines (lines : ℕ)
  | deleteLines (lines : ℕ)
  | insertBlank (count : ℕ)
  | deleteChars (count : ℕ)
  | eraseChars (count : ℕ)
  | clearLine (mode : LineClearMode)
  | clearScreen (mode : ClearMode)
  | decaln
  | resetState
  | clearTabs (mode : TabulationClearMode)
  | setHorizontalTabstop
  | terminalAttribute (attr : Attr)
  | setHyperlink (hyperlink : Option Hyperlink)
  | configureCharset (index : CharsetIndex) (charset : StandardCharset)
  | setActiveCharset (index : CharsetIndex)
  | setMode (mode : NamedMode)
  | unsetMode (mode : NamedMode)
  | setPrivateMode (mode : PrivateMode)
  | unsetPrivateMode (mode : PrivateMode)
  | setKeypadApplicationMode
  | unsetKeypadApplicationMode
  | setKeyboardMode (mode : UInt8) (apply : KeyboardModesApplyBehavior)
  | pushKeyboardMode (mode : UInt8)
  | popKeyboardModes (toPop : ℕ)
  | setColor (index : ℕ) (color : ColorRgb)
  | resetColor (index : ℕ)
  | insertGraphic (textureId graphicWidth displayW displayH : ℕ) (cursorMovement : Option UInt8)
  | placeKittyOverlay (rows : ℕ) (cursorMovement : UInt8)
  | deleteGraphics (action : Char) (x y : ℕ)
  | scrollDisplay (scroll : Scroll)
  | updateHistory (historySize : ℕ)
  | toggleViMode
  | resize (numCols numLines cellWidth cellHeight : ℕ)
  deriving DecidableEq, Repr

namespace Crosswords

def step (u : Unicode) (t : Crosswords) : Op → Crosswords
  | .input c => t.input u c
  | .goto line col => t.goto line col
  | .gotoLine line => t.gotoLine line
  | .gotoCol col => t.gotoCol col
  | .moveUp rows => t.moveUp rows
  | .moveDown rows => t.moveDown rows
  | .moveForward cols => t.moveForward cols
  | .moveBackward cols => t.moveBackward cols
  | .moveDownAndCr rows => t.moveDownAndCr rows
  | .moveUpAndCr lines => t.moveUpAndCr lines
  | .moveForwardTabs count => t.moveForwardTabs count
  | .moveBackwardTabs count => t.moveBackwardTabs count
  | .putTab count => t.putTab count
  | .backspace => t.backspace
  | .carriageReturn => t.carriageReturn
  | .linefeed => t.linefeed
  | .newline => t.newline
  | .reverseIndex => t.reverseIndex
  | .saveCursorPosition => t.saveCursorPosition
  | .restoreCursorPosition => t.restoreCursorPosition
  | .setScrollingRegion top bottom => t.setScrollingRegion top bottom
  | .scrollUp lines => t.scrollUp lines
  | .scrollDown lines => t.scrollDown lines
  | .insertBlankLines lines => t.insertBlankLines lines
  | .deleteLines lines => t.deleteLines lines
  | .insertBlank count => t.insertBlank count
  | .deleteChars count => t.deleteChars count
  | .eraseChars count => t.eraseChars count
  | .clearLine mode => t.clearLine mode
  | .clearScreen mode => t.clearScreen mode
  | .decaln => t.decaln
  | .resetState => t.resetState
  | .clearTabs mode => t.clearTabs mode
  | .setHorizontalTabstop => t.setHorizontalTabstop
  | .terminalAttribute attr => t.terminalAttribute attr
  | .setHyperlink hyperlink => t.setHyperlink hyperlink
  | .configureCharset index charset => t.configureCharset index charset
  | .setActiveCharset index => t.setActiveCharset index
  | .setMode mode => t.setMode mode
  | .unsetMode mode => t.unsetMode mode
  | .setPrivateMode mode => t.setPrivateMode mode
  | .unsetPrivateMode mode => t.unsetPrivateMode mode
  | .setKeypadApplicationMode => t.setKeypadApplicationMode
  | .unsetKeypadApplicationMode => t.unsetKeypadApplicationMode
  | .setKeyboardMode mode apply => t.setKeyboardMode mode apply
  | .pushKeyboardMode mode => t.pushKeyboardMode mode
  | .popKeyboardModes toPop => t.popKeyboardModes toPop
  | .setColor index color => t.setColor index color
  | .resetColor index => t.resetColor index
  | .insertGraphic textureId graphicWidth displayW displayH cursorMovement =>
    t.insertGraphic textureId graphicWidth displayW displayH cursorMovement
  | .placeKittyOverlay rows cursorMovement => t.placeKittyOverlay rows cursorMovement
  | .deleteGraphics action x y => t.deleteGraphics action x y
  | .scrollDisplay scroll => t.scrollDisplay scroll
  | .updateHistory historySize => t.updateHistory historySize
  | .toggleViMode => t.toggleViMode
  | .resize numCols numLines cellWidth cellHeight =>
    t.resize numCols numLines cellWidth cellHeight

def run (u : Unicode) (t : Crosswords) (ops : List Op) : Crosswords := ops.foldl (step u) t

end Crosswords

/-- The sizes that a window gives to a terminal. -/
def Op.Sized : Op → Prop
  | .resize numCols numLines _ _ => 2 ≤ numCols ∧ 1 ≤ numLines
  | _ => True

end Rio
