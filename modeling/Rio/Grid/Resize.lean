import Rio.Grid.Grid

/-! Resizing a grid. The reflow goes over the rows from the oldest down to the one at the bottom,
where row `i` is the one `i` lines above the bottom of the screen. -/

set_option linter.dupNamespace false

namespace Rio

/-- The cell at the end of a row that a wide character did not fit into. -/
def Square.newLeadingSpacer : Square := Square.setWide default .leadingSpacer

/-- The state of the loop of `growColumns`. `reversed` has the row pushed last at its head. -/
structure GrowState where
  cursor : Cursor Square
  displayOffset : ℕ
  cursorLineDelta : ℕ
  reversed : List (Row Square)
  deriving DecidableEq, Repr

/-- The state of the loop of `shrinkColumns`. `newRaw` has the row pushed last at its head;
`buffered` is what is left over for the next row. -/
structure ShrinkState where
  cursor : Cursor Square
  displayOffset : ℕ
  newRaw : List (Row Square)
  buffered : Option (List Square)
  deriving DecidableEq, Repr

namespace Grid

/-- How many lines the cursor is above the bottom of the screen. -/
def cursorBufferLine (lines : ℕ) (cursor : Cursor Square) : ℕ :=
  lines - cursor.pos.row.toNat - 1

/-- Remove the linewrap special case, by moving the cursor outside of the grid. -/
def unwrapCursor (reflow : Bool) (cursor : Cursor Square) : Cursor Square :=
  if cursor.shouldWrap && reflow then
    { cursor with
      shouldWrap := false
      pos := { cursor.pos with col := cursor.pos.col + 1 } }
  else cursor

/-- Whether a row needs to be wrapped. -/
def shouldReflow (reflow : Bool) (columns : ℕ) (row : Row Square) : Bool :=
  reflow && decide (0 < row.len) && decide (row.len < columns) &&
    (row.cell (row.len - 1)).wrapline

/-- The row to append to, without its wrap flag and its leading spacer. -/
def openLastRow (lastRow : Row Square) : Row Square :=
  let lastRow := lastRow.modifyLast (·.setWrapline false)
  if 1 ≤ lastRow.len ∧ (lastRow.cell (lastRow.len - 1)).wide = .leadingSpacer then
    (lastRow.shrink (lastRow.len - 1)).1
  else lastRow

/-- What of a row fits into the `numWrapped` free columns of the row before it: the number of
these columns, the rest of the row, and the cells to append. -/
def pullCells (row : Row Square) (numWrapped : ℕ) : ℕ × Row Square × List Square :=
  let len := min row.len numWrapped
  -- insert a leading spacer when there is not enough room for a wide char
  if (row.cell (len - 1)).wide = .wide then
    let (row, cells) := row.frontSplitOff (len - 1)
    (numWrapped - 1, row, cells ++ [Square.newLeadingSpacer])
  else
    let (row, cells) := row.frontSplitOff len
    (numWrapped, row, cells)

def growStep (reflow : Bool) (lines columns : ℕ) (st : GrowState) (i : ℕ) (row : Row Square) :
    GrowState :=
  match st.reversed with
  | [] => { st with reversed := [row] }
  | lastRow :: rest =>
    if !shouldReflow reflow columns lastRow then { st with reversed := row :: lastRow :: rest }
    else
      let lastRow := openLastRow lastRow
      let (numWrapped, row, cells) := pullCells row (columns - lastRow.len)
      let lastRow := lastRow.append cells
      -- set the wrap flag if the next line still has cells
      let keep (st : GrowState) : GrowState :=
        { st with reversed := row :: lastRow.modifyLast (·.setWrapline true) :: rest }
      let drop (st : GrowState) : GrowState := { st with reversed := lastRow :: rest }
      let cursorBufferLine := cursorBufferLine lines st.cursor
      if i = cursorBufferLine ∧ reflow then
        let target := st.cursor.pos.sub ⟨0, lines, columns⟩ .cursor numWrapped
        -- clamp to the last column, if no content was reflown with the cursor
        let clamped := target.col = 0 ∧ row.isClear
        let target := if clamped then target.sub ⟨0, lines, columns⟩ .cursor 1 else target
        let lineDelta := st.cursor.pos.row - target.row
        let st :=
          { st with
            cursor :=
              { st.cursor with
                shouldWrap := if clamped then true else st.cursor.shouldWrap
                pos := { st.cursor.pos with col := target.col } } }
        if lineDelta ≠ 0 ∧ row.isClear then drop st
        else keep { st with cursorLineDelta := st.cursorLineDelta + lineDelta.toNat }
      else if row.isClear then
        let st := if i < st.displayOffset then
            { st with displayOffset := st.displayOffset - 1 } else st
        -- rotate the cursor down if content below it was pulled from history
        let st := if i < cursorBufferLine then
            { st with
              cursor :=
                { st.cursor with
                  pos := { st.cursor.pos with row := st.cursor.pos.row + 1 } } } else st
        drop st
      else keep st

/-- Rows from the oldest to the one at the bottom, each with its index. -/
def oldestFirst (rows : List (Row Square)) : List (Row Square × ℕ) := rows.zipIdx.reverse

/-- Make sure there is at least the viewport filled. -/
def fillViewport (st : GrowState) (lines columns : ℕ) : GrowState :=
  if st.reversed.length < lines then
    let delta := lines - st.reversed.length
    { st with
      cursor :=
        { st.cursor with pos := { st.cursor.pos with row := max (st.cursor.pos.row - delta) 0 } }
      reversed := List.replicate delta (Row.new columns) ++ st.reversed }
  else st

/-- Pull content down to put the cursor in the correct position, or move the cursor up if there
are no more lines to delete below the cursor. -/
def pullDown (st : GrowState) (lines : ℕ) : GrowState :=
  if st.cursorLineDelta ≠ 0 then
    let available := min (cursorBufferLine lines st.cursor) (st.reversed.length - lines)
    let overflow := st.cursorLineDelta - available
    { st with
      cursor :=
        { st.cursor with
          pos := { st.cursor.pos with row := max (st.cursor.pos.row - overflow) 0 } }
      reversed := st.reversed.drop (st.cursorLineDelta - overflow) }
  else st

/-- The loop of `growColumns`. -/
def growLoop (reflow : Bool) (lines columns : ℕ) (rows : List (Row Square × ℕ))
    (st : GrowState) : GrowState :=
  rows.foldl (fun st (row, i) => growStep reflow lines columns st i row) st

/-- Grow the number of columns in each row, reflowing if necessary. -/
def growColumns (g : Grid Square) (reflow : Bool) (columns : ℕ) : Grid Square :=
  let (raw, rows) := g.raw.takeAll
  let st := growLoop reflow g.lines columns (oldestFirst rows)
    { cursor := unwrapCursor reflow g.cursor
      displayOffset := g.displayOffset
      cursorLineDelta := 0
      reversed := [] }
  let st := pullDown (fillViewport st g.lines columns) g.lines
  let g :=
    { g with
      cursor := st.cursor
      columns := columns
      raw := raw.replaceInner (st.reversed.map (Row.grow · columns)) }
  { g with displayOffset := min st.displayOffset g.historySize }

/-- The end of the cells that have to leave a row: without a leading spacer, whose row wraps. -/
def dropLeadingSpacer (wrapped : List Square) : List Square :=
  if (wrapped.getLast?.map Square.wide) = some .leadingSpacer then
    (wrapped.modify (wrapped.length - 2) (·.setWrapline true)).take (wrapped.length - 1)
  else wrapped

/-- A row that has been cut to `columns` cells and has to wrap, and the cells that go on to the
next row, if any. -/
def splitRow (columns : ℕ) (row : Row Square) (wrapped : List Square) :
    Row Square × Option (List Square) :=
  -- insert a spacer if a wide char would be wrapped into the last column
  let splits := columns ≤ row.len ∧ (row.cell (columns - 1)).wide = .wide
  let wrapped := if splits then row.cell (columns - 1) :: wrapped else wrapped
  let row := if splits then row.set (columns - 1) Square.newLeadingSpacer else row
  if wrapped.map Square.wide = [.leadingSpacer] then
    (row.modify (columns - 1) (·.setWrapline true), none)
  else (row.modifyLast (·.setWrapline true), some (dropLeadingSpacer wrapped))

/-- Where the cursor goes when a line is added below row `i`. -/
def cursorAfterSplit (lines columns i : ℕ) (cursor : Cursor Square) : Cursor Square :=
  let cursorLine := cursorBufferLine lines cursor
  let col := cursor.pos.col
  { cursor with
    pos :=
      { row :=
          -- reflow the cursor if a line below it is deleted
          if (i = cursorLine ∧ col < columns) ∨ i < cursorLine then max (cursor.pos.row - 1) 0
          else cursor.pos.row
        -- reflow the cursor if it is on this line beyond the width
        col := if i = cursorLine ∧ columns ≤ col then col - columns else col } }

/-- One row of the loop of `shrinkColumns`: as many rows as its cells need. -/
def shrinkRow (reflow : Bool) (lines columns i : ℕ) : ℕ → ShrinkState → Row Square → ShrinkState
  | 0, st, _ => st
  | fuel + 1, st, row =>
    let (row, cut) := row.shrink columns
    let cut := if reflow then cut else none
    -- empty cells before the cursor are explicit whitespace and wrap like normal content
    let whitespace :=
      reflow ∧ i = cursorBufferLine lines st.cursor ∧ columns < st.cursor.pos.col
    if cut = none ∧ ¬ whitespace then { st with newRaw := row :: st.newRaw }
    else
      match splitRow columns row (cut.getD []) with
      | (row, none) => { st with newRaw := row :: st.newRaw }
      | (row, some wrapped) =>
        let st := { st with newRaw := row :: st.newRaw }
        if (wrapped.getLast?.any Square.wrapline) ∧ 1 ≤ i ∧ wrapped.length < columns then
          -- add the removed cells to the start of the next row
          { st with
            buffered := some (wrapped.modify (wrapped.length - 1) (·.setWrapline false)) }
        else
          let st :=
            { st with
              cursor := cursorAfterSplit lines columns i st.cursor
              displayOffset :=
                if i < st.displayOffset then st.displayOffset + 1 else st.displayOffset }
          -- make sure the new row is at least as long as the new width
          shrinkRow reflow lines columns i fuel st
            (Row.fromVec (wrapped ++ List.replicate (columns - wrapped.length) default)
              wrapped.length)

def shrinkStep (reflow : Bool) (lines columns : ℕ) (st : ShrinkState) (i : ℕ)
    (row : Row Square) : ShrinkState :=
  -- append the cells left over from the previous row
  let (st, row) :=
    match st.buffered with
    | none => (st, row)
    | some buffered =>
      let col :=
        if i = cursorBufferLine lines st.cursor then st.cursor.pos.col + buffered.length
        else st.cursor.pos.col
      ({ st with
          buffered := none
          cursor := { st.cursor with pos := { st.cursor.pos with col := col } } },
        row.appendFront buffered)
  -- every round takes a cell from the row or moves the cursor left
  shrinkRow reflow lines columns i (row.len + st.cursor.pos.col + 1) st row

/-- The loop of `shrinkColumns`. -/
def shrinkLoop (reflow : Bool) (lines columns : ℕ) (rows : List (Row Square × ℕ))
    (st : ShrinkState) : ShrinkState :=
  rows.foldl (fun st (row, i) => shrinkStep reflow lines columns st i row) st

/-- Reflow the primary cursor, or clamp it if reflow is disabled. -/
def placeCursor (g : Grid Square) (reflow : Bool) : Cursor Square :=
  let cursor := g.cursor
  if !reflow then
    { cursor with pos := { cursor.pos with col := min cursor.pos.col (g.columns - 1) } }
  else if cursor.pos.col = g.columns ∧
      ¬ ((g.row cursor.pos.row).cell (g.columns - 1)).wrapline then
    { cursor with
      shouldWrap := true
      pos := { cursor.pos with col := cursor.pos.col - 1 } }
  else { cursor with pos := cursor.pos.gridClamp g.dimensions .cursor }

/-- Shrink the number of columns in each row, reflowing if necessary. -/
def shrinkColumns (g : Grid Square) (reflow : Bool) (columns : ℕ) : Grid Square :=
  let (raw, rows) := g.raw.takeAll
  let st := shrinkLoop reflow g.lines columns (oldestFirst rows)
    { cursor := unwrapCursor reflow g.cursor
      displayOffset := g.displayOffset
      newRaw := []
      buffered := none }
  let g :=
    { g with
      cursor := st.cursor
      columns := columns
      raw := raw.replaceInner (st.newRaw.take (g.maxScrollLimit + g.lines)) }
  let g := { g with displayOffset := min st.displayOffset g.historySize }
  let g := { g with cursor := g.placeCursor reflow }
  -- clamp the saved cursor to the grid
  { g with
    savedCursor :=
      { g.savedCursor with
        pos := { g.savedCursor.pos with col := min g.savedCursor.pos.col (columns - 1) } } }

/-- Add lines to the visible area. -/
def growLines (g : Grid Square) (target : ℕ) : Grid Square :=
  let linesAdded := target - g.lines
  let g := { g with raw := g.raw.growVisibleLines target, lines := target }
  let fromHistory := min g.historySize linesAdded
  -- move existing lines up for every line that could not be pulled from history
  let g := if fromHistory ≠ linesAdded then
      g.scrollUp ⟨0, target⟩ (linesAdded - fromHistory) else g
  -- move the cursor down for every line pulled from history
  let g :=
    { g with
      savedCursor :=
        { g.savedCursor with
          pos := { g.savedCursor.pos with row := g.savedCursor.pos.row + fromHistory } }
      cursor :=
        { g.cursor with pos := { g.cursor.pos with row := g.cursor.pos.row + fromHistory } }
      displayOffset := g.displayOffset - linesAdded }
  g.decreaseScrollLimit linesAdded

/-- Remove lines from the visible area. -/
def shrinkLines (g : Grid Square) (target : ℕ) : Grid Square :=
  -- scroll up to keep content inside the window
  let requiredScrolling := g.cursor.pos.row.toNat + 1 - target
  let g :=
    if 0 < requiredScrolling then
      let g := g.scrollUp ⟨0, g.lines⟩ requiredScrolling
      { g with
        cursor :=
          { g.cursor with
            pos := { g.cursor.pos with row := min g.cursor.pos.row (target - 1) } } }
    else g
  let g :=
    { g with
      savedCursor :=
        { g.savedCursor with
          pos := { g.savedCursor.pos with row := min g.savedCursor.pos.row (target - 1) } } }
  { g with
    raw := (g.raw.rotate ((g.lines - target : ℕ) : ℤ)).shrinkVisibleLines target
    lines := target }

/-- Resize the grid's width and height. -/
def resize (g : Grid Square) (reflow : Bool) (lines columns : ℕ) : Grid Square :=
  -- the empty template cell resets cells during the resize
  let template := g.cursor.template
  let g := { g with cursor := { g.cursor with template := default } }
  let g :=
    if g.lines < lines then g.growLines lines
    else if lines < g.lines then g.shrinkLines lines
    else g
  let g :=
    if g.columns < columns then g.growColumns reflow columns
    else if columns < g.columns then g.shrinkColumns reflow columns
    else g
  { g with cursor := { g.cursor with template := template } }

end Grid
end Rio
