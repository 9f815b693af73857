import Rio.Crosswords.State
import Rio.Lib.Ring

/-! The handler: what the terminal does for each control function. -/

set_option linter.dupNamespace false

namespace Rio
open Rio.Ring

/-- Cells `start..` and `stop..` exchanged pairwise, `count` times from the left. -/
def swapCells (start stop count : ℕ) (cells : List Square) : List Square :=
  (List.range count).foldl (fun cells offset => swapAt cells (start + offset) (stop + offset)) cells

/-- Cells `start..` and `stop..` exchanged pairwise, `count` times from the right. -/
def swapCellsBack (start stop count : ℕ) (cells : List Square) : List Square :=
  (List.range count).reverse.foldl
    (fun cells offset => swapAt cells (stop + offset) (start + offset)) cells

/-- The next tab stop right of a column, or the last column. -/
def nextTab (tabs : List Bool) (columns : ℕ) : ℕ → ℕ → ℕ
  | 0, col => col
  | fuel + 1, col =>
    if col + 1 = columns then col
    else if tabs.getD (col + 1) false then col + 1
    else nextTab tabs columns fuel (col + 1)

/-- The next tab stop left of a column, or the column itself. -/
def prevTab (tabs : List Bool) (col : ℕ) : ℕ :=
  ((List.range col).reverse.find? fun i => tabs.getD i false).getD col

namespace Crosswords

/-- Enter a blank cell with the background color of the template, for use by `f`. -/
def withBlank (t : Crosswords) (f : Crosswords → Square → Crosswords) : Crosswords :=
  let (grid, blank) := t.grid.templateBlank
  f { t with grid := grid } blank

/-! ### Cursor -/

def goto (t : Crosswords) (line : ℤ) (col : ℕ) : Crosswords :=
  let (yOffset, maxY) :=
    if t.mode.origin then (t.scrollRegion.start, t.scrollRegion.stop - 1)
    else (0, t.grid.bottommostLine)
  let t := t.damageCursor
  let t := t.mapGrid fun g =>
    (g.setLine (max (min (line + yOffset) maxY) 0)).setCol (min col g.lastColumn)
  t.damageCursor.mapGrid (·.setShouldWrap false)

def setActiveCharset (t : Crosswords) (index : CharsetIndex) : Crosswords :=
  { t with activeCharset := index }

def moveForward (t : Crosswords) (cols : ℕ) : Crosswords :=
  let lastColumn := min (t.pos.col + cols) t.grid.lastColumn
  t.damageCursor.mapGrid fun g => (g.setCol lastColumn).setShouldWrap false

def moveBackward (t : Crosswords) (cols : ℕ) : Crosswords :=
  let column := t.pos.col - cols
  t.damageCursor.mapGrid fun g => (g.setCol column).setShouldWrap false

def moveBackwardTabs (t : Crosswords) (count : ℕ) : Crosswords :=
  (t.mapGrid (·.setCol ((prevTab t.tabs)^[count] t.pos.col))).damageCursor

def moveForwardTabs (t : Crosswords) (count : ℕ) : Crosswords :=
  let next := nextTab t.tabs t.grid.columns t.grid.columns
  (t.mapGrid (·.setCol (next^[count] t.pos.col))).damageCursor

def gotoLine (t : Crosswords) (line : ℤ) : Crosswords := t.goto line t.pos.col

def gotoCol (t : Crosswords) (col : ℕ) : Crosswords := t.goto t.pos.row col

def moveUp (t : Crosswords) (rows : ℕ) : Crosswords := t.goto (t.pos.row - rows) t.pos.col

def moveDown (t : Crosswords) (rows : ℕ) : Crosswords := t.goto (t.pos.row + rows) t.pos.col

def moveDownAndCr (t : Crosswords) (rows : ℕ) : Crosswords := t.goto (t.pos.row + rows) 0

def moveUpAndCr (t : Crosswords) (lines : ℕ) : Crosswords := t.goto (t.pos.row - lines) 0

def carriageReturn (t : Crosswords) : Crosswords :=
  t.damageCursor.mapGrid fun g => (g.setCol 0).setShouldWrap false

def newline (t : Crosswords) : Crosswords :=
  let t := t.linefeed
  if t.mode.lineFeedNewLine then t.carriageReturn else t

def backspace (t : Crosswords) : Crosswords :=
  if 0 < t.pos.col then
    (t.mapGrid fun g => (g.setCol (t.pos.col - 1)).setShouldWrap false).damageCursor
  else t

def saveCursorPosition (t : Crosswords) : Crosswords :=
  t.mapGrid fun g => { g with savedCursor := g.cursor }

def restoreCursorPosition (t : Crosswords) : Crosswords :=
  (t.damageCursor.mapGrid fun g => { g with cursor := g.savedCursor }).damageCursor

def setScrollingRegion (t : Crosswords) (top : ℕ) (bottom : Option ℕ) : Crosswords :=
  let bottom := bottom.getD t.grid.lines
  if bottom ≤ top then t
  else
    let screenLines : ℤ := t.grid.lines
    let t :=
      { t with scrollRegion := ⟨min ((top : ℤ) - 1) screenLines, min (bottom : ℤ) screenLines⟩ }
    t.goto 0 0

/-! ### Scrolling -/

def scrollUp (t : Crosswords) (lines : ℕ) : Crosswords :=
  t.scrollUpRelative t.scrollRegion.start lines

def scrollDown (t : Crosswords) (lines : ℕ) : Crosswords :=
  t.scrollDownRelative t.scrollRegion.start lines

def deleteLines (t : Crosswords) (lines : ℕ) : Crosswords :=
  let origin := t.pos.row
  let lines := min (t.grid.lines - origin.toNat) lines
  if 0 < lines ∧ t.scrollRegion.start ≤ origin ∧ origin < t.scrollRegion.stop then
    t.scrollUpRelative origin lines
  else t

def insertBlankLines (t : Crosswords) (lines : ℕ) : Crosswords :=
  let origin := t.pos.row
  if t.scrollRegion.start ≤ origin ∧ origin < t.scrollRegion.stop then
    t.scrollDownRelative origin lines
  else t

def reverseIndex (t : Crosswords) : Crosswords :=
  if t.pos.row = t.scrollRegion.start then t.scrollDown 1
  else
    let t := t.damageCursor
    (t.mapGrid (·.setLine (max (t.pos.row - 1) 0))).damageCursor

/-! ### Editing a line -/

def eraseChars (t : Crosswords) (count : ℕ) : Crosswords :=
  let start := t.pos.col
  let stop := min (start + count) t.grid.columns
  t.withBlank fun t blank =>
    t.damageCursor.mapGrid (·.modifyRow t.pos.row (·.fill start stop blank))

def deleteChars (t : Crosswords) (count : ℕ) : Crosswords :=
  let columns := t.grid.columns
  -- ensure deleting within terminal bounds
  let count := min count columns
  let start := t.pos.col
  let stop := min (start + count) (columns - 1)
  let numCells := columns - stop
  t.withBlank fun t blank =>
    t.damageCursor.mapGrid (·.modifyRow t.pos.row fun row =>
      -- clear the last `count` cells in the row
      (row.modifyAll (swapCells start stop numCells)).fillFrom (columns - count) blank)

def insertBlank (t : Crosswords) (count : ℕ) : Crosswords :=
  let columns := t.grid.columns
  -- ensure inserting within terminal bounds
  let count := min count (columns - t.pos.col)
  let source := t.pos.col
  let destination := source + count
  let numCells := columns - destination
  t.withBlank fun t blank =>
    t.damageCursor.mapGrid (·.modifyRow t.pos.row fun row =>
      (row.modifyAll (swapCellsBack source destination numCells)).fill source destination blank)

def clearLine (t : Crosswords) (mode : LineClearMode) : Crosswords :=
  let columns := t.grid.columns
  let col := t.pos.col
  t.withBlank fun t blank =>
    let clear (left right : ℕ) : Crosswords :=
      t.damageCursor.mapGrid (·.modifyRow t.pos.row (·.fill left right blank))
    match mode with
    | .right => if t.grid.cursor.shouldWrap then t else clear col columns
    | .left => clear 0 (col + 1)
    | .all => clear 0 columns

/-! ### Clearing the screen -/

def decaln (t : Crosswords) : Crosswords :=
  (t.mapGrid fun g =>
    (lineRange 0 g.lines).foldl
      (fun g line => g.modifyRow line fun row =>
        row.fill 0 g.columns (Square.setC default 'E')) g).markFullyDamaged

def deccolm (t : Crosswords) : Crosswords :=
  let t := t.setScrollingRegion 1 none
  (t.mapGrid fun g => g.resetRegion ⟨0, g.lines⟩).markFullyDamaged

def clearScreen (t : Crosswords) (mode : ClearMode) : Crosswords :=
  t.withBlank fun t blank =>
    let p := t.pos
    match mode with
    | .above =>
      let t := if 1 < p.row then t.mapGrid (·.resetRegion ⟨0, p.row⟩) else t
      -- clear up to the current column in the current line
      let stop := min (p.col + 1) t.grid.columns
      let t := t.mapGrid (·.modifyRow p.row (·.fill 0 stop blank))
      t.damageLines (lineRange 0 (p.row + 1))
    | .below =>
      let t := t.mapGrid (·.modifyRow p.row (·.fillFrom p.col blank))
      let t :=
        if p.row.toNat < t.grid.lines - 1 then
          t.mapGrid fun g => g.resetRegion ⟨p.row + 1, g.lines⟩
        else t
      t.damageLines (lineRange p.row t.grid.lines)
    | .all =>
      let t :=
        if t.mode.altScreen then t.mapGrid fun g => g.resetRegion ⟨0, g.lines⟩
        else
          let oldOffset := t.grid.displayOffset
          let t := t.mapGrid (·.clearViewport)
          let lines := t.grid.displayOffset - oldOffset
          let row := Pos.gridClampLine (t.viModeCursor.row - lines) t.grid.dimensions .grid
          { t with viModeCursor := { t.viModeCursor with row := row } }
      t.markFullyDamaged
    | .saved =>
      let t :=
        if 0 < t.grid.historySize then
          let t := t.mapGrid (·.clearHistory)
          let row := Pos.gridClampLine t.viModeCursor.row t.grid.dimensions .cursor
          { t with viModeCursor := { t.viModeCursor with row := row } }
        else t
      t.markFullyDamaged

def resetState (t : Crosswords) : Crosswords :=
  let t :=
    if t.mode.altScreen then { t with grid := t.inactiveGrid, inactiveGrid := t.grid } else t
  let t :=
    { t with
      activeCharset := .g0
      grid := t.grid.reset
      inactiveGrid := t.inactiveGrid.reset
      scrollRegion := ⟨0, t.grid.lines⟩
      tabs := newTabs 0 t.grid.columns
      keyboardModeStack := List.replicate keyboardModeStackMaxDepth 0
      inactiveKeyboardModeStack := List.replicate keyboardModeStackMaxDepth 0
      keyboardModeIdx := 0
      inactiveKeyboardModeIdx := 0
      viModeCursor := {}
      mode := t.mode.reset }
  t.markFullyDamaged

/-! ### Tabs -/

def clearTabs (t : Crosswords) : TabulationClearMode → Crosswords
  | .current => { t with tabs := t.tabs.set t.pos.col false }
  | .all => { t with tabs := t.tabs.map fun _ => false }

def setHorizontalTabstop (t : Crosswords) : Crosswords :=
  { t with tabs := t.tabs.set t.pos.col true }

/-- One tab of `putTab`: mark the cell, unless it holds a character, and move on. -/
def putOneTab (t : Crosswords) : Crosswords :=
  let c := (t.grid.cursor.charsets.get t.activeCharset).map '\t'
  let next := nextTab t.tabs t.grid.columns t.grid.columns t.pos.col
  t.mapGrid fun g =>
    (g.modifyCursorCell fun cell => if cell.c = '\x00' then cell.setC c else cell).setCol next

def putTab (t : Crosswords) (count : ℕ) : Crosswords :=
  -- a tab after the last column is the same as a linebreak
  if t.grid.cursor.shouldWrap then t.wrapline
  else
    let t := putOneTab^[count] t
    if count ≠ 0 then t.damageCursor else t

/-! ### Attributes and modes -/

def terminalAttribute (t : Crosswords) (attr : Attr) : Crosswords :=
  match attr.apply with
  | some f => t.mapGrid (·.updateTemplateStyle f)
  | none => t

def configureCharset (t : Crosswords) (index : CharsetIndex) (charset : StandardCharset) :
    Crosswords :=
  t.mapGrid (·.modifyCursor fun c => { c with charsets := c.charsets.set charset index })

def setHyperlink (t : Crosswords) (hyperlink : Option Hyperlink) : Crosswords :=
  t.mapGrid fun g =>
    let template := g.cursor.template
    match hyperlink with
    | some hl =>
      let (extrasTable, id) := g.extrasTable.alloc { hyperlink := some hl }
      { g with extrasTable := extrasTable }.setTemplate
        { template.setExtrasId (some id) with flags := { template.flags with hyperlink := true } }
    | none =>
      g.setTemplate
        { template.setExtrasId none with flags := { template.flags with hyperlink := false } }

def setMode (t : Crosswords) : NamedMode → Crosswords
  | .insert => { t with mode := { t.mode with insert := true } }
  | .lineFeedNewLine => { t with mode := { t.mode with lineFeedNewLine := true } }

def unsetMode (t : Crosswords) : NamedMode → Crosswords
  | .insert => { t with mode := { t.mode with insert := false } }.markFullyDamaged
  | .lineFeedNewLine => { t with mode := { t.mode with lineFeedNewLine := false } }

/-- The bit that a private mode with no other effect stands for, and its value. -/
def withPrivateMode (m : Mode) (on : Bool) : NamedPrivateMode → Mode
  | .urgencyHints => { m with urgencyHints := on }
  | .showCursor => { m with showCursor := on }
  | .cursorKeys => { m with appCursor := on }
  | .reportMouseClicks =>
    { (if on then m.withoutMouse else m) with mouseReportClick := on }
  | .reportCellMouseMotion => { (if on then m.withoutMouse else m) with mouseDrag := on }
  | .reportAllMouseMotion => { (if on then m.withoutMouse else m) with mouseMotion := on }
  | .reportFocusInOut => { m with focusInOut := on }
  | .bracketedPaste => { m with bracketedPaste := on }
  | .sgrMouse => { m with sgrMouse := on, utf8Mouse := if on then false else m.utf8Mouse }
  | .utf8Mouse => { m with utf8Mouse := on, sgrMouse := if on then false else m.sgrMouse }
  | .alternateScroll => { m with alternateScroll := on }
  | .lineWrap => { m with lineWrap := on }
  | .origin => { m with origin := on }
  | .swapScreenAndSetRestoreCursor | .columnMode | .blinkingCursor | .syncUpdate
  | .win32InputMode => m

/-- Private modes that have no name. -/
def withUnknownMode (m : Mode) (on : Bool) (mode : UInt16) : Mode :=
  if mode = 80 then { m with sixelDisplay := on }
  else if mode = 1070 then { m with sixelPrivPalette := on }
  else if mode = 8452 then { m with sixelCursorToTheRight := on }
  else m

def setPrivateMode (t : Crosswords) : PrivateMode → Crosswords
  | .unknown mode => { t with mode := withUnknownMode t.mode true mode }
  | .named .swapScreenAndSetRestoreCursor => if t.mode.altScreen then t else t.swapAlt
  | .named .columnMode => t.deccolm
  | .named mode => { t with mode := withPrivateMode t.mode true mode }

def unsetPrivateMode (t : Crosswords) : PrivateMode → Crosswords
  | .unknown mode => { t with mode := withUnknownMode t.mode false mode }
  | .named .swapScreenAndSetRestoreCursor => if t.mode.altScreen then t.swapAlt else t
  | .named .columnMode => t.deccolm
  | .named mode => { t with mode := withPrivateMode t.mode false mode }

def setKeypadApplicationMode (t : Crosswords) : Crosswords :=
  { t with mode := { t.mode with appKeypad := true } }

def unsetKeypadApplicationMode (t : Crosswords) : Crosswords :=
  { t with mode := { t.mode with appKeypad := false } }

/-- The mode on top of the keyboard mode stack. -/
def activeKeyboardMode (t : Crosswords) : UInt8 := t.keyboardModeStack.getD t.keyboardModeIdx 0

def setKeyboardMode (t : Crosswords) (mode : UInt8) (apply : KeyboardModesApplyBehavior) :
    Crosswords :=
  let newMode :=
    match apply with
    | .replace => mode
    | .union => t.activeKeyboardMode ||| mode
    | .difference => t.activeKeyboardMode &&& ~~~mode
  { t with
    keyboardModeStack := t.keyboardModeStack.set t.keyboardModeIdx newMode
    mode := t.mode.withKeyboard newMode }

def pushKeyboardMode (t : Crosswords) (mode : UInt8) : Crosswords :=
  let idx := (t.keyboardModeIdx + 1) % keyboardModeStackMaxDepth
  { t with
    keyboardModeIdx := idx
    keyboardModeStack := t.keyboardModeStack.set idx mode
    mode := t.mode.withKeyboard mode }

/-- Clear the top of the keyboard mode stack and go one down; below the bottom is the top. -/
def popKeyboardMode (t : Crosswords) : Crosswords :=
  { t with
    keyboardModeStack := t.keyboardModeStack.set t.keyboardModeIdx 0
    keyboardModeIdx :=
      (t.keyboardModeIdx + (2 ^ 64 - 1)) % 2 ^ 64 % keyboardModeStackMaxDepth }

def popKeyboardModes (t : Crosswords) (toPop : ℕ) : Crosswords :=
  if keyboardModeStackMaxDepth ≤ toPop then
    { t with
      keyboardModeStack := t.keyboardModeStack.map fun _ => 0
      keyboardModeIdx := 0
      mode := t.mode.withKeyboard 0 }
  else
    let t := popKeyboardMode^[toPop] t
    { t with mode := t.mode.withKeyboard t.activeKeyboardMode }

def setColor (t : Crosswords) (index : ℕ) (color : ColorRgb) : Crosswords :=
  let t :=
    if index ≠ NamedColor.cursor.toNat ∧ t.colors.getD index none ≠ some color then
      t.markFullyDamaged
    else t
  { t with colors := t.colors.set index (some color) }

def resetColor (t : Crosswords) (index : ℕ) : Crosswords :=
  let t :=
    if index ≠ NamedColor.cursor.toNat ∧ (t.colors.getD index none).isSome then
      t.markFullyDamaged
    else t
  { t with colors := t.colors.set index none }

/-! ### Printing -/

/-- Attach a character without width to a cell. -/
def pushZeroWidth (g : Grid Square) (p : Pos) (c : Char) : Grid Square :=
  match (g.cell p).extrasId with
  | some id =>
    { g.modifyCell p (fun cell => cell) with
      extrasTable := g.extrasTable.modify id fun e => { e with zerowidth := e.zerowidth ++ [c] } }
  | none =>
    let (extrasTable, id) := g.extrasTable.alloc { zerowidth := [c] }
    { g.modifyCell p fun cell =>
        { cell.setExtrasId (some id) with flags := { cell.flags with grapheme := true } } with
      extrasTable := extrasTable }

/-- Attach a character without width to the character before the cursor. -/
def inputZeroWidth (u : Unicode) (t : Crosswords) (c : Char) : Crosswords :=
  let t :=
    if c = '\ufe0f' then t.applyEmojiVs16 u
    else if c = '\ufe0e' then t.applyEmojiVs15 u
    else t
  let column := t.baseColumn
  let row := t.pos.row
  let column := if (t.grid.cell ⟨row, column⟩).wide = .spacer then column - 1 else column
  (t.mapGrid (pushZeroWidth · ⟨row, column⟩ c)).damageLine row.toNat

/-- Shift the rest of the row in insert mode. -/
def shiftForInsert (t : Crosswords) (width : ℕ) : Crosswords :=
  let columns := t.grid.columns
  let col := t.pos.col
  if t.mode.insert ∧ col + width < columns then
    t.mapGrid (·.modifyRow t.pos.row
      (·.modifyAll (swapCellsBack col (col + width) (columns - width - col))))
  else t

/-- The kitty graphics placeholder. -/
def kittyPlaceholder : Char := Char.ofNat 0x10eeee

/-- Mark the row that a placeholder goes to. -/
def markPlaceholder (t : Crosswords) (c : Char) : Crosswords :=
  if c = kittyPlaceholder then
    t.mapGrid (·.modifyRow t.pos.row fun row => { row with kittyVirtualPlaceholder := true })
  else t

/-- Make room for a wide character, which may not start in the last column. -/
def fitWide (t : Crosswords) : Crosswords :=
  if t.grid.columns ≤ t.pos.col + 1 then (t.writeTagged ' ' .leadingSpacer).wrapline else t

def inputWide (t : Crosswords) (c : Char) : Crosswords :=
  if t.grid.columns ≤ t.pos.col + 1 ∧ !t.mode.lineWrap then
    -- prevent an out of bounds crash when linewrapping is disabled
    t.mapGrid (·.setShouldWrap true)
  else
    let t := t.fitWide.writeTagged c .wide
    let t := t.mapGrid (·.setCol (t.pos.col + 1))
    ((t.writeTagged ' ' .spacer).damageCursor).advance

/-- Print a character of some width. -/
def inputVisible (t : Crosswords) (c : Char) (width : ℕ) : Crosswords :=
  let t := if t.grid.cursor.shouldWrap then t.wrapline else t
  let t := (t.shiftForInsert width).markPlaceholder c
  if width = 1 then (t.writeAtCursor c).damageCursor.advance else t.inputWide c

def input (u : Unicode) (t : Crosswords) (c : Char) : Crosswords :=
  match u.width c with
  | none => t
  | some width => if width = 0 then t.inputZeroWidth u c else t.inputVisible c width

/-! ### Graphics in cells -/

/-- Largest width and height of a graphic. -/
def maxGraphicDimension : ℕ := 4096

/-- The offsets of the cells that cover a length. -/
def cellOffsets (length cell : ℕ) : List ℕ := (List.range ((length + cell - 1) / cell)).map (· * cell)

/-- Store a graphic in a cell. -/
def placeGraphicCell (g : Grid Square) (p : Pos) (graphic : GraphicCell) : Grid Square :=
  -- the extras slot of a cell with only a background is not usable
  let cell := if (g.cell p).isBgOnly then (g.cell p).clear else g.cell p
  let (extrasTable, cell) :=
    match cell.extrasId with
    | some eid => (g.extrasTable.modify eid fun e => { e with graphic := some [graphic] }, cell)
    | none =>
      let (extrasTable, eid) := g.extrasTable.alloc { graphic := some [graphic] }
      (extrasTable, cell.setExtrasId (some eid))
  let cell := { cell with flags := { cell.flags with graphics := true } }
  { g.modifyCell p fun _ => cell with extrasTable := extrasTable }

/-- Store one row of a graphic in a line of the grid. -/
def placeGraphicRow (g : Grid Square) (line : ℤ) (leftmost offsetY : ℕ) (texture : TextureRef)
    (offsets : List ℕ) : Grid Square :=
  offsets.zipIdx.foldl
    (fun g (offsetX, i) =>
      let left := leftmost + i
      if left < (g.row line).len then
        placeGraphicCell g ⟨line, left⟩ ⟨texture, offsetX.toUInt16, offsetY.toUInt16⟩
      else g) g

/-- One row of a graphic: its cells at the line of the cursor, and a line feed if more follow;
or, for a graphic that does not scroll, at the line `top` of the screen. -/
def fillGraphicRow (scrolling : Bool) (leftmost : ℕ) (texture : TextureRef)
    (width height cellWidth cellHeight : ℕ) (t : Crosswords) (row : ℕ × ℕ) : Crosswords :=
  let (offsetY, top) := row
  if !scrolling ∧ t.grid.lines ≤ top then t
  else
    let line : ℤ := if scrolling then t.pos.row else top
    let t := t.mapGrid fun g =>
      placeGraphicRow g line leftmost offsetY texture (cellOffsets width cellWidth)
    let t := t.damageLine line.toNat
    if scrolling ∧ offsetY < height - cellHeight.toUInt16.toNat then t.linefeed else t

/-- Fill the cells under a graphic of `width` by `height` pixels, line feeds included. -/
def fillGraphic (t : Crosswords) (texture : TextureRef) (width height : ℕ) : Crosswords :=
  let scrolling := !t.mode.sixelDisplay
  let leftmost := if scrolling then t.pos.col else 0
  (cellOffsets height t.cellHeight).zipIdx.foldl
    (fillGraphicRow scrolling leftmost texture width height t.cellWidth t.cellHeight) t

/-- Insert a graphic that is `graphicWidth` pixels wide and shown as `displayW` by `displayH`
pixels, under the texture number that the store of graphics gives it. -/
def insertGraphic (t : Crosswords) (textureId graphicWidth displayW displayH : ℕ)
    (cursorMovement : Option UInt8) : Crosswords :=
  if maxGraphicDimension < displayW ∨ maxGraphicDimension < displayH then t
  else if displayW = 0 ∨ displayH = 0 then t
  else
    let scrolling := !t.mode.sixelDisplay
    let texture : TextureRef :=
      ⟨textureId, displayW.toUInt16, displayH.toUInt16, t.cellHeight⟩
    let t := t.fillGraphic texture displayW displayH
    let right (t : Crosswords) : Crosswords :=
      t.moveForward ((graphicWidth + t.cellWidth - 1) / t.cellWidth)
    match cursorMovement with
    | none | some 0 =>
      if t.mode.sixelCursorToTheRight then right t
      else if scrolling then t.carriageReturn
      else t
    | some 1 => t
    | some _ =>
      if scrolling ∧ !t.mode.sixelCursorToTheRight then t.carriageReturn else t

/-- What placing an overlay of some rows of cells does to the cursor. -/
def placeKittyOverlay (t : Crosswords) (rows : ℕ) (cursorMovement : UInt8) : Crosswords :=
  if cursorMovement = 1 then t else (linefeed^[rows - 1] t).carriageReturn

def deleteAllGraphics (t : Crosswords) : Crosswords :=
  (lineRange 0 t.grid.lines).foldl
    (fun t line =>
      let t := t.mapGrid fun g =>
        (List.range g.columns).foldl (fun g col => g.clearGraphicAt ⟨line, col⟩) g
      t.damageLine line.toNat) t

def deleteGraphicAtPosition (t : Crosswords) (col : ℕ) (row : ℤ) : Crosswords :=
  if 0 ≤ row ∧ row.toNat < t.grid.lines ∧ col < t.grid.columns then
    let graphics := (t.grid.cell ⟨row, col⟩).flags.graphics
    let t := t.mapGrid (·.clearGraphicAt ⟨row, col⟩)
    if graphics then t.damageLine row.toNat else t
  else t

def deleteGraphicsInColumn (t : Crosswords) (col : ℕ) : Crosswords :=
  if col < t.grid.columns then
    (lineRange 0 t.grid.lines).foldl (fun t line => t.deleteGraphicAtPosition col line) t
  else t

def deleteGraphicsInRow (t : Crosswords) (row : ℤ) : Crosswords :=
  if 0 ≤ row ∧ row.toNat < t.grid.lines then
    let t := t.mapGrid fun g =>
      (List.range g.columns).foldl (fun g col => g.clearGraphicAt ⟨row, col⟩) g
    t.damageLine row.toNat
  else t

/-- What deleting graphics does to the cells, by the action of the request. -/
def deleteGraphics (t : Crosswords) (action : Char) (x y : ℕ) : Crosswords :=
  if action = 'a' ∨ action = 'A' then t.deleteAllGraphics
  else if action = 'c' ∨ action = 'C' then t.deleteGraphicAtPosition t.pos.col t.pos.row
  else if action = 'p' ∨ action = 'P' then
    if 0 < x ∧ 0 < y then t.deleteGraphicAtPosition (x - 1) ((y : ℤ) - 1) else t
  else if action = 'x' ∨ action = 'X' then
    if 0 < x then t.deleteGraphicsInColumn (x - 1) else t
  else if action = 'y' ∨ action = 'Y' then
    if 0 < y then t.deleteGraphicsInRow ((y : ℤ) - 1) else t
  else t

end Crosswords
end Rio
