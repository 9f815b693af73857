import Rio.Grid.Resize
import Rio.Grid.StorageRing
import Rio.Lib.Loop

/-! Resizing a grid with the checks of the code: reads and writes of rows and cells have to be in
range, differences of unsigned numbers must not be negative, and loops run for at most `fuel`
turns. -/

set_option linter.dupNamespace false

namespace Rio
open Rio.Checked

instance (s : Storage Square) (op : StorageOp Square) : Decidable (s.Asserted op) := by
  unfold Storage.Asserted
  cases op <;> exact inferInstance

namespace Reflow

/-! ### Rows -/

/-- An operation of the storage, with what it asserts. -/
def storageStep (s : Storage Square) (op : StorageOp Square) : Outcome (Storage Square) :=
  if s.Asserted op then .ok (s.step op) else .error .index

def modifyLine (f : Row Square → Row Square) (s : Storage Square) (line : ℤ) :
    Outcome (Storage Square) :=
  if s.InBounds line then .ok (s.modify line f) else .error .index

def modifyLines (f : Row Square → Row Square) (s : Storage Square) (lines : List ℤ) :
    Outcome (Storage Square) := lines.foldlM (modifyLine f) s

def swapLines (s : Storage Square) (shift : ℤ) (lines : List ℤ) : Outcome (Storage Square) :=
  lines.foldlM (fun s line => storageStep s (.swap line (line + shift))) s

/-- Write to the cell in a column. -/
def modifyCell (r : Row Square) (col : ℕ) (f : Square → Square) : Outcome (Row Square) :=
  if col < r.len then .ok (r.modify col f) else .error .index

/-- The row without its first cells, and these cells. -/
def frontSplitOff (r : Row Square) (at_ : ℕ) : Outcome (Row Square × List Square) :=
  if at_ ≤ r.len then .ok (r.frontSplitOff at_) else .error .index

/-- How many lines the cursor is above the bottom of the screen. -/
def cursorBufferLine (lines : ℕ) (cursor : Cursor Square) : Outcome ℕ :=
  if 0 ≤ cursor.pos.row then do
    let above ← sub lines cursor.pos.row.toNat
    sub above 1
  else .error .overflow

def posSub (p : Pos) (lines columns rhs : ℕ) : Outcome Pos :=
  if columns = 0 then .error .divideByZero else .ok (p.sub ⟨0, lines, columns⟩ .cursor rhs)

/-! ### Scrolling -/

/-- Rotate the entire line buffer upward. -/
def rotateUp (g : Grid Square) (region : Region) (positions : ℕ) : Outcome (Storage Square) := do
  let room ← sub g.maxScrollLimit g.historySize
  let raw := if min positions room ≠ 0 then g.raw.initializeRows (min positions room) g.columns
    else g.raw
  let raw ← swapLines raw positions (lineRange 0 region.start).reverse
  let raw ← storageStep raw (.rotate (-(positions : ℤ)))
  swapLines raw (-(positions : ℤ)) (lineRange region.stop g.lines).reverse

def moveUp (g : Grid Square) (region : Region) (positions : ℕ) : Outcome (Storage Square) :=
  if region.start = 0 then rotateUp g region positions
  else swapLines g.raw positions (lineRange region.start (region.stop - positions))

/-- Move lines at the bottom toward the top. -/
def scrollUp (g : Grid Square) (region : Region) (positions : ℕ) : Outcome (Grid Square) :=
  let reset (r : Row Square) := r.reset g.cursor.template
  if region.stop - region.start ≤ positions ∧ region.start ≠ 0 then do
    let raw ← modifyLines reset g.raw (lineRange region.start region.stop)
    return { g with raw := raw }
  else do
    let raw ← moveUp g region positions
    let raw ← modifyLines reset raw (lineRange (region.stop - positions) region.stop)
    let raw ← modifyLines Row.markDirty raw (lineRange region.start region.stop)
    return { g.holdDisplay positions with raw := raw }

/-! ### More or fewer lines -/

def decreaseScrollLimit (g : Grid Square) (count : ℕ) : Outcome (Grid Square) :=
  let count := min count g.historySize
  if count ≠ 0 then do
    let raw ← storageStep g.raw (.shrinkLines (min count g.historySize))
    let g := { g with raw := raw }
    return { g with displayOffset := min g.displayOffset g.historySize }
  else .ok g

/-- Move existing lines up for every line that could not be pulled from history. -/
def makeRoom (g : Grid Square) (target linesAdded fromHistory : ℕ) : Outcome (Grid Square) :=
  if fromHistory ≠ linesAdded then do
    let delta ← sub linesAdded fromHistory
    scrollUp g ⟨0, target⟩ delta
  else .ok g

/-- Add lines to the visible area. -/
def growLines (g : Grid Square) (target : ℕ) : Outcome (Grid Square) := do
  let linesAdded ← sub target g.lines
  let raw ← storageStep g.raw (.growVisibleLines target)
  let g := { g with raw := raw, lines := target }
  let fromHistory := min g.historySize linesAdded
  let g ← makeRoom g target linesAdded fromHistory
  let g :=
    { g with
      savedCursor :=
        { g.savedCursor with
          pos := { g.savedCursor.pos with row := g.savedCursor.pos.row + fromHistory } }
      cursor :=
        { g.cursor with pos := { g.cursor.pos with row := g.cursor.pos.row + fromHistory } }
      displayOffset := g.displayOffset - linesAdded }
  decreaseScrollLimit g linesAdded

/-- Scroll up to keep content inside the window. -/
def keepInside (g : Grid Square) (target required : ℕ) : Outcome (Grid Square) :=
  if 0 < required then do
    let g ← scrollUp g ⟨0, g.lines⟩ required
    return { g with
      cursor :=
        { g.cursor with
          pos := { g.cursor.pos with row := min g.cursor.pos.row (target - 1) } } }
  else .ok g

/-- Remove lines from the visible area. -/
def shrinkLines (g : Grid Square) (target : ℕ) : Outcome (Grid Square) := do
  let g ← keepInside g target (g.cursor.pos.row.toNat + 1 - target)
  let g :=
    { g with
      savedCursor :=
        { g.savedCursor with
          pos := { g.savedCursor.pos with row := min g.savedCursor.pos.row (target - 1) } } }
  let fewer ← sub g.lines target
  let raw ← storageStep g.raw (.rotate fewer)
  let raw ← storageStep raw (.shrinkVisibleLines target)
  return { g with raw := raw, lines := target }

/-! ### More columns -/

/-- Whether a row needs to be wrapped. -/
def shouldReflow (reflow : Bool) (columns : ℕ) (row : Row Square) : Outcome Bool :=
  if reflow && 0 < row.len && row.len < columns then do
    let last ← read row.inner (row.len - 1)
    return last.wrapline
  else .ok false

/-- The row to append to, without its wrap flag and its leading spacer. -/
def openLastRow (lastRow : Row Square) : Outcome (Row Square) :=
  let lastRow := lastRow.modifyLast (·.setWrapline false)
  if 1 ≤ lastRow.len then do
    let last ← read lastRow.inner (lastRow.len - 1)
    return if last.wide = .leadingSpacer then (lastRow.shrink (lastRow.len - 1)).1 else lastRow
  else .ok lastRow

/-- What of a row fits into the free columns of the row before it. -/
def pullCells (row : Row Square) (numWrapped : ℕ) : Outcome (ℕ × Row Square × List Square) := do
  let len := min row.len numWrapped
  let before ← sub len 1
  let cell ← read row.inner before
  if cell.wide = .wide then
    let numWrapped ← sub numWrapped 1
    let (row, cells) ← frontSplitOff row before
    return (numWrapped, row, cells ++ [Square.newLeadingSpacer])
  else
    let (row, cells) ← frontSplitOff row len
    return (numWrapped, row, cells)

/-- A difference of lines, as an unsigned number. -/
def lineCount (delta : ℤ) : Outcome ℕ := if 0 ≤ delta then .ok delta.toNat else .error .overflow

/-- Where the cursor goes, and whether it stays at the end of a line that lost all its cells. -/
def cursorTarget (st : GrowState) (lines columns numWrapped : ℕ) (row : Row Square) :
    Outcome (Bool × Pos) := do
  let target ← posSub st.cursor.pos lines columns numWrapped
  if target.col = 0 ∧ row.isClear then
    let target ← posSub target lines columns 1
    return (true, target)
  else return (false, target)

def growStep (reflow : Bool) (lines columns : ℕ) (st : GrowState) (i : ℕ) (row : Row Square) :
    Outcome GrowState :=
  match st.reversed with
  | [] => .ok { st with reversed := [row] }
  | lastRow :: rest => do
    let reflows ← shouldReflow reflow columns lastRow
    if !reflows then return { st with reversed := row :: lastRow :: rest }
    else
      let lastRow ← openLastRow lastRow
      let free ← sub columns lastRow.len
      let (numWrapped, row, cells) ← pullCells row free
      let lastRow := lastRow.append cells
      let keep (st : GrowState) : GrowState :=
        { st with reversed := row :: lastRow.modifyLast (·.setWrapline true) :: rest }
      let drop (st : GrowState) : GrowState := { st with reversed := lastRow :: rest }
      let bufferLine ← cursorBufferLine lines st.cursor
      if i = bufferLine ∧ reflow then
        let (clamped, target) ← cursorTarget st lines columns numWrapped row
        let lineDelta := st.cursor.pos.row - target.row
        let st :=
          { st with
            cursor :=
              { st.cursor with
                shouldWrap := if clamped then true else st.cursor.shouldWrap
                pos := { st.cursor.pos with col := target.col } } }
        if lineDelta ≠ 0 ∧ row.isClear then return drop st
        else
          let delta ← lineCount lineDelta
          return keep { st with cursorLineDelta := st.cursorLineDelta + delta }
      else if row.isClear then
        let st := if i < st.displayOffset then
            { st with displayOffset := st.displayOffset - 1 } else st
        let st := if i < bufferLine then
            { st with
              cursor :=
                { st.cursor with
                  pos := { st.cursor.pos with row := st.cursor.pos.row + 1 } } } else st
        return drop st
      else return keep st

/-- Pull content down to put the cursor in the correct position. -/
def pullDown (st : GrowState) (lines : ℕ) : Outcome GrowState :=
  if st.cursorLineDelta ≠ 0 then do
    let bufferLine ← cursorBufferLine lines st.cursor
    let excess ← sub st.reversed.length lines
    let overflow := st.cursorLineDelta - min bufferLine excess
    let kept ← sub (st.reversed.length + overflow) st.cursorLineDelta
    return { st with
      cursor :=
        { st.cursor with
          pos := { st.cursor.pos with row := max (st.cursor.pos.row - overflow) 0 } }
      -- the row pushed last is the first one of the list
      reversed := st.reversed.drop (st.reversed.length - kept) }
  else .ok st

/-- Grow the number of columns in each row, reflowing if necessary. -/
def growColumns (g : Grid Square) (reflow : Bool) (columns : ℕ) : Outcome (Grid Square) := do
  let (raw, rows) := g.raw.takeAll
  let st ← (Grid.oldestFirst rows).foldlM
    (fun st (row, i) => growStep reflow g.lines columns st i row)
    { cursor := Grid.unwrapCursor reflow g.cursor
      displayOffset := g.displayOffset
      cursorLineDelta := 0
      reversed := [] }
  let st ← pullDown (Grid.fillViewport st g.lines columns) g.lines
  let g :=
    { g with
      cursor := st.cursor
      columns := columns
      raw := raw.replaceInner (st.reversed.map (Row.grow · columns)) }
  return { g with displayOffset := min st.displayOffset g.historySize }

/-! ### Fewer columns -/

/-- Insert a spacer if a wide character would be wrapped into the last column. -/
def insertSpacer (columns : ℕ) (row : Row Square) (wrapped : List Square) :
    Outcome (Row Square × List Square) :=
  if columns ≤ row.len then do
    let last ← sub columns 1
    let cell ← read row.inner last
    if cell.wide = .wide then
      let row ← modifyCell row last fun _ => Square.newLeadingSpacer
      return (row, cell :: wrapped)
    else return (row, wrapped)
  else .ok (row, wrapped)

/-- The end of the cells that have to leave a row: a leading spacer stays behind. -/
def dropSpacer (columns : ℕ) (row : Row Square) (wrapped : List Square) :
    Outcome (Row Square × Option (List Square)) :=
  if 0 < wrapped.length then do
    let last ← read wrapped (wrapped.length - 1)
    if last.wide = .leadingSpacer then
      if wrapped.length = 1 then
        let col ← sub columns 1
        let row ← modifyCell row col (·.setWrapline true)
        return (row, none)
      else
        let before ← sub wrapped.length 2
        let _ ← read wrapped before
        return (row.modifyLast (·.setWrapline true),
          some ((wrapped.modify before (·.setWrapline true)).take (wrapped.length - 1)))
    else return (row.modifyLast (·.setWrapline true), some wrapped)
  else .ok (row.modifyLast (·.setWrapline true), some wrapped)

/-- A row that has been cut to `columns` cells and has to wrap, and the cells that go on to the
next row, if any. -/
def splitRow (columns : ℕ) (row : Row Square) (wrapped : List Square) :
    Outcome (Row Square × Option (List Square)) := do
  let (row, wrapped) ← insertSpacer columns row wrapped
  dropSpacer columns row wrapped

def colAfterSplit (columns col : ℕ) (onLine : Bool) : Outcome ℕ :=
  if onLine ∧ columns ≤ col then sub col columns else .ok col

/-- Where the cursor goes when a line is added below row `i`. -/
def cursorAfterSplit (lines columns i : ℕ) (cursor : Cursor Square) : Outcome (Cursor Square) := do
  let bufferLine ← cursorBufferLine lines cursor
  let col ← colAfterSplit columns cursor.pos.col (i = bufferLine)
  return { cursor with
    pos :=
      { row :=
          if (i = bufferLine ∧ cursor.pos.col < columns) ∨ i < bufferLine then
            max (cursor.pos.row - 1) 0
          else cursor.pos.row
        col := col } }

/-- One turn of the loop over a row: the row is pushed, and another turn goes on with the cells
that have to leave it. -/
def shrinkTurn (reflow : Bool) (lines columns i : ℕ) :
    ShrinkState × Row Square → Outcome (ShrinkState × Row Square ⊕ ShrinkState)
  | (st, row) => do
    let (row, cut) := row.shrink columns
    let cut := if reflow then cut else none
    let bufferLine ← cursorBufferLine lines st.cursor
    let whitespace := reflow ∧ i = bufferLine ∧ columns < st.cursor.pos.col
    if cut = none ∧ ¬ whitespace then return .inr { st with newRaw := row :: st.newRaw }
    else
      match ← splitRow columns row (cut.getD []) with
      | (row, none) => return .inr { st with newRaw := row :: st.newRaw }
      | (row, some wrapped) =>
        let st := { st with newRaw := row :: st.newRaw }
        if (wrapped.getLast?.any Square.wrapline) ∧ 1 ≤ i ∧ wrapped.length < columns then
          return .inr { st with
            buffered := some (wrapped.modify (wrapped.length - 1) (·.setWrapline false)) }
        else
          let cursor ← cursorAfterSplit lines columns i st.cursor
          let st :=
            { st with
              cursor := cursor
              displayOffset :=
                if i < st.displayOffset then st.displayOffset + 1 else st.displayOffset }
          return .inl (st, Row.fromVec
            (wrapped ++ List.replicate (columns - wrapped.length) default) wrapped.length)

/-- The row after the cells left over from the previous one. -/
def takeBuffered (lines i : ℕ) (st : ShrinkState) (row : Row Square) :
    Outcome (ShrinkState × Row Square) :=
  match st.buffered with
  | none => .ok (st, row)
  | some buffered => do
    let bufferLine ← cursorBufferLine lines st.cursor
    let col := if i = bufferLine then st.cursor.pos.col + buffered.length else st.cursor.pos.col
    return ({ st with
        buffered := none
        cursor := { st.cursor with pos := { st.cursor.pos with col := col } } },
      row.appendFront buffered)

def shrinkStep (reflow : Bool) (lines columns fuel : ℕ) (st : ShrinkState) (i : ℕ)
    (row : Row Square) : Outcome ShrinkState := do
  let start ← takeBuffered lines i st row
  loop (shrinkTurn reflow lines columns i) fuel start

def readLine (s : Storage Square) (line : ℤ) : Outcome (Row Square) :=
  if s.InBounds line then .ok (s.row line) else .error .index

/-- Reflow the primary cursor, or clamp it if reflow is disabled. -/
def placeCursor (g : Grid Square) (reflow : Bool) : Outcome (Cursor Square) := do
  let cursor := g.cursor
  let last ← sub g.columns 1
  if !reflow then
    return { cursor with pos := { cursor.pos with col := min cursor.pos.col last } }
  else if cursor.pos.col = g.columns then
    let row ← readLine g.raw cursor.pos.row
    let cell ← read row.inner last
    if !cell.wrapline then
      let col ← sub cursor.pos.col 1
      return { cursor with shouldWrap := true, pos := { cursor.pos with col := col } }
    else return { cursor with pos := cursor.pos.gridClamp g.dimensions .cursor }
  else return { cursor with pos := cursor.pos.gridClamp g.dimensions .cursor }

/-- Shrink the number of columns in each row, reflowing if necessary. -/
def shrinkColumns (g : Grid Square) (reflow : Bool) (columns fuel : ℕ) : Outcome (Grid Square) := do
  let (raw, rows) := g.raw.takeAll
  let st ← (Grid.oldestFirst rows).foldlM
    (fun st (row, i) => shrinkStep reflow g.lines columns fuel st i row)
    { cursor := Grid.unwrapCursor reflow g.cursor
      displayOffset := g.displayOffset
      newRaw := []
      buffered := none }
  let g :=
    { g with
      cursor := st.cursor
      columns := columns
      raw := raw.replaceInner (st.newRaw.take (g.maxScrollLimit + g.lines)) }
  let g := { g with displayOffset := min st.displayOffset g.historySize }
  let cursor ← placeCursor g reflow
  let last ← sub columns 1
  return { g with
    cursor := cursor
    savedCursor :=
      { g.savedCursor with
        pos := { g.savedCursor.pos with col := min g.savedCursor.pos.col last } } }

def resizeLines (g : Grid Square) (lines : ℕ) : Outcome (Grid Square) :=
  if g.lines < lines then growLines g lines
  else if lines < g.lines then shrinkLines g lines
  else .ok g

def resizeColumns (g : Grid Square) (reflow : Bool) (columns fuel : ℕ) : Outcome (Grid Square) :=
  if g.columns < columns then growColumns g reflow columns
  else if columns < g.columns then shrinkColumns g reflow columns fuel
  else .ok g

/-- Resize the grid's width and height. -/
def resize (g : Grid Square) (reflow : Bool) (lines columns fuel : ℕ) : Outcome (Grid Square) := do
  let template := g.cursor.template
  let g ← resizeLines { g with cursor := { g.cursor with template := default } } lines
  let g ← resizeColumns g reflow columns fuel
  return { g with cursor := { g.cursor with template := template } }

end Reflow
end Rio
