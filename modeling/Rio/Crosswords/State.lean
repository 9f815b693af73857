import Rio.Crosswords.Modes
import Rio.Grid.Resize
import Rio.Grid.Template

/-! The state of a terminal, and the operations below the handler. -/

set_option linter.dupNamespace false

namespace Rio

/-- Damage since the last reset. -/
structure TermDamageState where
  full : Bool
  lines : List Bool
  lastCursor : Pos
  deriving DecidableEq, Repr

namespace TermDamageState

def new (numLines : ℕ) : TermDamageState := ⟨true, List.replicate numLines false, {}⟩

def resize (_ : TermDamageState) (numLines : ℕ) : TermDamageState := new numLines

def damageLine (d : TermDamageState) (line : ℕ) : TermDamageState :=
  { d with lines := d.lines.set line true }

def reset (d : TermDamageState) : TermDamageState :=
  { d with full := false, lines := d.lines.map fun _ => false }

end TermDamageState

/-- Default tab interval. -/
def initialTabstops : ℕ := 8

/-- The tab stops of the columns `start..stop`. -/
def newTabs (start stop : ℕ) : List Bool :=
  (List.range' start (stop - start)).map fun i => i % initialTabstops == 0

/-- Max size of the keyboard modes. -/
def keyboardModeStackMaxDepth : ℕ := 8

structure ColorRgb where
  r : UInt8
  g : UInt8
  b : UInt8
  deriving DecidableEq, Repr

/-- Number of terminal colors. -/
def termColorsCount : ℕ := 269

structure Crosswords where
  activeCharset : CharsetIndex
  mode : Mode
  viModeCursor : Pos
  grid : Grid Square
  inactiveGrid : Grid Square
  scrollRegion : Region
  tabs : List Bool
  colors : List (Option ColorRgb)
  damage : TermDamageState
  keyboardModeStack : List UInt8
  keyboardModeIdx : ℕ
  inactiveKeyboardModeStack : List UInt8
  inactiveKeyboardModeIdx : ℕ
  /-- Cell size in pixels, for graphics. -/
  cellWidth : ℕ
  cellHeight : ℕ
  deriving DecidableEq, Repr

namespace Crosswords

def new (columns screenLines scrollbackHistoryLimit : ℕ) : Crosswords :=
  { activeCharset := .g0
    mode := .initial
    viModeCursor := {}
    grid := Grid.new screenLines columns scrollbackHistoryLimit
    inactiveGrid := Grid.new screenLines columns 0
    scrollRegion := ⟨0, screenLines⟩
    tabs := newTabs 0 columns
    colors := List.replicate termColorsCount none
    damage := .new screenLines
    keyboardModeStack := List.replicate keyboardModeStackMaxDepth 0
    keyboardModeIdx := 0
    inactiveKeyboardModeStack := List.replicate keyboardModeStackMaxDepth 0
    inactiveKeyboardModeIdx := 0
    cellWidth := 0
    cellHeight := 0 }

/-- Change the active grid. -/
def mapGrid (t : Crosswords) (f : Grid Square → Grid Square) : Crosswords :=
  { t with grid := f t.grid }

/-- The position of the cursor. -/
def pos (t : Crosswords) : Pos := t.grid.cursor.pos

/-! ### Damage -/

def markFullyDamaged (t : Crosswords) : Crosswords :=
  { t with damage := { t.damage with full := true } }

def damageLine (t : Crosswords) (line : ℕ) : Crosswords :=
  { t with damage := t.damage.damageLine line }

/-- Damage the line of the cursor. -/
def damageCursor (t : Crosswords) : Crosswords := t.damageLine t.pos.row.toNat

/-- Damage lines. -/
def damageLines (t : Crosswords) (lines : List ℤ) : Crosswords :=
  lines.foldl (fun t line => t.damageLine line.toNat) t

def resetDamage (t : Crosswords) : Crosswords := { t with damage := t.damage.reset }

/-! ### The user's view -/

def scrollDisplay (t : Crosswords) (scroll : Scroll) : Crosswords :=
  let oldDisplayOffset := t.grid.displayOffset
  let t := t.mapGrid (·.scrollDisplay scroll)
  -- clamp the vi mode cursor to the viewport
  let viewportStart := -(t.grid.displayOffset : ℤ)
  let viewportEnd := viewportStart + t.grid.bottommostLine
  let row := min viewportEnd (max viewportStart t.viModeCursor.row)
  let t := { t with viModeCursor := { t.viModeCursor with row := row } }
  if oldDisplayOffset ≠ t.grid.displayOffset then t.markFullyDamaged else t

/-- Update the size of the scrollback history of the active grid. -/
def updateHistory (t : Crosswords) (historySize : ℕ) : Crosswords :=
  t.mapGrid (·.updateHistory historySize)

def toggleViMode (t : Crosswords) : Crosswords :=
  let t := { t with mode := { t.mode with vi := !t.mode.vi } }
  if t.mode.vi then
    let displayOffset : ℤ := t.grid.displayOffset
    if t.grid.bottommostLine - displayOffset < t.pos.row then
      { t with viModeCursor := ⟨-displayOffset, 0⟩ }
    else { t with viModeCursor := t.pos }
  else t

def resize (t : Crosswords) (numCols numLines cellWidth cellHeight : ℕ) : Crosswords :=
  let oldCols := t.grid.columns
  let oldLines := t.grid.lines
  if oldCols = numCols ∧ oldLines = numLines then t
  else
    -- move the vi mode cursor with the content
    let minDelta := min 0 ((numLines : ℤ) - t.pos.row - 1)
    let delta := min (max ((numLines : ℤ) - oldLines) minDelta) t.grid.historySize
    let viPos := { t.viModeCursor with row := t.viModeCursor.row + delta }
    let isAlt := t.mode.altScreen
    let grid := t.grid.resize (!isAlt) numLines numCols
    let inactiveGrid := t.inactiveGrid.resize isAlt numLines numCols
    let tabs :=
      if oldCols ≠ numCols then t.tabs.take numCols ++ newTabs t.tabs.length numCols else t.tabs
    -- clamp the vi cursor to the viewport
    let viewportTop := -(grid.displayOffset : ℤ)
    let viewportBottom := viewportTop + grid.bottommostLine
    { t with
      viModeCursor :=
        ⟨max (min viPos.row viewportBottom) viewportTop, min viPos.col grid.lastColumn⟩
      grid := grid
      inactiveGrid := inactiveGrid
      tabs := tabs
      scrollRegion := ⟨0, grid.lines⟩
      damage := t.damage.resize numLines
      cellWidth := cellWidth
      cellHeight := cellHeight }

def swapAlt (t : Crosswords) : Crosswords :=
  let t :=
    if t.mode.altScreen then t
    else
      { t with
        -- the cursor of the alternate screen starts where the primary one is
        inactiveGrid :=
          { t.inactiveGrid with cursor := t.grid.cursor }.resetRegion ⟨0, t.inactiveGrid.lines⟩
        -- drop the saved cursor of the primary screen
        grid := { t.grid with savedCursor := t.grid.cursor } }
  let t :=
    { t with
      keyboardModeStack := t.inactiveKeyboardModeStack
      inactiveKeyboardModeStack := t.keyboardModeStack
      keyboardModeIdx := t.inactiveKeyboardModeIdx
      inactiveKeyboardModeIdx := t.keyboardModeIdx
      grid := t.inactiveGrid
      inactiveGrid := t.grid
      mode := { t.mode with altScreen := !t.mode.altScreen } }
  t.markFullyDamaged

/-! ### Scrolling -/

/-- Scroll the lines from `origin` to the end of the scroll region down. -/
def scrollDownRelative (t : Crosswords) (origin : ℤ) (lines : ℕ) : Crosswords :=
  let lines := min lines (t.scrollRegion.stop - t.scrollRegion.start).toNat
  let lines := min lines (t.scrollRegion.stop - origin).toNat
  let region : Region := ⟨origin, t.scrollRegion.stop⟩
  let row := t.viModeCursor.row
  let row :=
    if region.start ≤ row ∧ row < region.stop then min (row + lines) (region.stop - 1) else row
  let t := { t with viModeCursor := { t.viModeCursor with row := row } }
  (t.mapGrid (·.scrollDown region lines)).markFullyDamaged

/-- Scroll the lines from `origin` to the end of the scroll region up. -/
def scrollUpRelative (t : Crosswords) (origin : ℤ) (lines : ℕ) : Crosswords :=
  let lines := min lines (t.scrollRegion.stop - t.scrollRegion.start).toNat
  let region : Region := ⟨origin, t.scrollRegion.stop⟩
  let t := t.mapGrid (·.scrollUp region lines)
  let top := if region.start = 0 then -(t.grid.displayOffset : ℤ) else region.start
  let row := t.viModeCursor.row
  let row := if top ≤ row ∧ row < region.stop then max (row - lines) top else row
  let t := { t with viModeCursor := { t.viModeCursor with row := row } }
  -- not full damage
  t.damageLines (lineRange region.start region.stop)

def linefeed (t : Crosswords) : Crosswords :=
  let next := t.pos.row + 1
  if next = t.scrollRegion.stop then t.scrollUpRelative t.scrollRegion.start 1
  else if next < t.grid.lines then
    let t := t.damageCursor
    (t.mapGrid (·.setLine (t.pos.row + 1))).damageCursor
  else t

/-- Wrap the line of the cursor. -/
def wrapline (t : Crosswords) : Crosswords :=
  if !t.mode.lineWrap then t
  else
    let t := t.mapGrid (·.modifyCursorCell (·.setWrapline true))
    let t :=
      if t.scrollRegion.stop ≤ t.pos.row + 1 then t.linefeed
      else
        let t := t.damageCursor
        t.mapGrid (·.setLine (t.pos.row + 1))
    (t.mapGrid fun g => (g.setCol 0).setShouldWrap false).damageCursor

/-! ### Writing -/

/-- Undo the wide character that the cell at the cursor is a part of, except for the cell
itself. -/
def clearWide (g : Grid Square) : Grid Square :=
  let p := g.cursor.pos
  let tag := (g.cell p).wide
  if tag = .wide ∨ tag = .spacer then
    let g :=
      if tag = .wide ∧ p.col < g.lastColumn then
        g.modifyCell { p with col := p.col + 1 } (·.setWide .narrow)
      else if 0 < p.col then g.modifyCell { p with col := p.col - 1 } Square.clear
      else g
    -- remove leading spacers
    if p.col ≤ 1 ∧ p.row ≠ g.topmostLine then
      g.modifyCell ⟨p.row - 1, g.lastColumn⟩ fun prev =>
        if prev.wide = .leadingSpacer then prev.setWide .narrow else prev
    else g
  else g

def writeAtCursor (t : Crosswords) (c : Char) : Crosswords :=
  let c := (t.grid.cursor.charsets.get t.activeCharset).map c
  let template := t.grid.cursor.template
  let cell : Square :=
    { (((Square.fromChar c).setStyleId template.styleId).setExtrasId template.extrasId) with
      flags := template.flags }
  t.mapGrid fun g => (clearWide g).modifyCursorCell fun _ => cell

/-- Write a character and tag its cell. -/
def writeTagged (t : Crosswords) (c : Char) (tag : Wide) : Crosswords :=
  (t.writeAtCursor c).mapGrid (·.modifyCursorCell (·.setWide tag))

/-- Move the cursor past the cell it is on. -/
def advance (t : Crosswords) : Crosswords :=
  if t.pos.col + 1 < t.grid.columns then t.mapGrid (·.setCol (t.pos.col + 1))
  else t.mapGrid (·.setShouldWrap true)

/-- The column of the character before the cursor. -/
def baseColumn (t : Crosswords) : ℕ :=
  if t.grid.cursor.shouldWrap then t.pos.col else t.pos.col - 1

/-- Widen a character in the last column: it moves to the next row. -/
def widenOnNextRow (t : Crosswords) (baseCol : ℕ) (base : Square) : Crosswords :=
  let columns := t.grid.columns
  let row := t.pos.row
  let t := t.mapGrid fun g => (g.setCol baseCol).setShouldWrap false
  let t := (t.writeTagged ' ' .leadingSpacer).wrapline
  let newRow := t.pos.row
  let t := t.mapGrid fun g =>
    (g.modifyCell ⟨newRow, 0⟩ fun _ => base.setWide .wide).setCol 1
  let t := t.writeTagged ' ' .spacer
  let t := if 2 < columns then t.mapGrid (·.setCol 2) else t.mapGrid (·.setShouldWrap true)
  (t.damageLine row.toNat).damageLine newRow.toNat

/-- Widen a character where it is. -/
def widenInPlace (t : Crosswords) (baseCol : ℕ) : Crosswords :=
  let row := t.pos.row
  let t := t.mapGrid fun g =>
    ((g.modifyCell ⟨row, baseCol⟩ (·.setWide .wide)).setCol (baseCol + 1)).setShouldWrap false
  ((t.writeTagged ' ' .spacer).advance).damageLine row.toNat

/-- Widen the character before the cursor if U+FE0F applies to it. -/
def applyEmojiVs16 (u : Unicode) (t : Crosswords) : Crosswords :=
  let baseCol := t.baseColumn
  let base := t.grid.cell ⟨t.pos.row, baseCol⟩
  if ¬ t.grid.cursor.shouldWrap ∧ t.pos.col = 0 then t
  else if base.wide ≠ .narrow ∨ !u.vsIsValidBase base.c '\ufe0f' then t
  else if t.grid.columns ≤ baseCol + 1 then
    -- no room for a spacer on this row
    if !t.mode.lineWrap then t else t.widenOnNextRow baseCol base
  else t.widenInPlace baseCol

/-- Narrow the wide character before the cursor if U+FE0E applies to it. -/
def applyEmojiVs15 (u : Unicode) (t : Crosswords) : Crosswords :=
  let row := t.pos.row
  let spacerCol := t.baseColumn
  if spacerCol = 0 then t
  else
    let base := t.grid.cell ⟨row, spacerCol - 1⟩
    if base.wide ≠ .wide ∨ !u.vsIsValidBase base.c '\ufe0e' then t
    else
      let t := t.mapGrid fun g =>
        ((g.modifyCell ⟨row, spacerCol - 1⟩ (·.setWide .narrow)).modifyCell ⟨row, spacerCol⟩
          fun _ => default).setCol spacerCol
      (t.mapGrid (·.setShouldWrap false)).damageLine row.toNat

end Crosswords
end Rio
