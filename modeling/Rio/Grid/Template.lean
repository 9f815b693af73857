import Rio.Grid.Grid

/-! The template of the cursor, and the tables of a grid of terminal cells. -/

set_option linter.dupNamespace false

namespace Rio.Grid

def modifyCursor {α : Type} (g : Grid α) (f : Cursor α → Cursor α) : Grid α :=
  { g with cursor := f g.cursor }

/-- Move the cursor to a column. -/
def setCol {α : Type} (g : Grid α) (col : ℕ) : Grid α :=
  g.modifyCursor fun c => { c with pos := { c.pos with col := col } }

/-- Move the cursor to a line. -/
def setLine {α : Type} (g : Grid α) (row : ℤ) : Grid α :=
  g.modifyCursor fun c => { c with pos := { c.pos with row := row } }

def setShouldWrap {α : Type} (g : Grid α) (on : Bool) : Grid α :=
  g.modifyCursor fun c => { c with shouldWrap := on }

def setTemplate {α : Type} (g : Grid α) (template : α) : Grid α :=
  g.modifyCursor fun c => { c with template := template }

/-- Write to the cell at the cursor. -/
def modifyCursorCell {α : Type} (g : Grid α) (f : α → α) : Grid α :=
  g.modifyCell g.cursor.pos f

/-- The style of a cell. -/
def styleOf (g : Grid Square) (square : Square) : Style := g.styleSet.get square.styleId

def setTemplateStyle (g : Grid Square) (style : Style) : Grid Square :=
  let (styleSet, id) := g.styleSet.intern style
  { g with styleSet := styleSet }.setTemplate (g.cursor.template.setStyleId id)

def updateTemplateStyle (g : Grid Square) (f : Style → Style) : Grid Square :=
  g.setTemplateStyle (f (g.styleOf g.cursor.template))

/-- A blank cell with a background color, and the grid with the style entered where the color
has no encoding of its own. -/
def blankWithBg (g : Grid Square) (bg : AnsiColor) : Grid Square × Square :=
  let intern : Grid Square × Square :=
    let (styleSet, id) := g.styleSet.intern { bg := bg }
    ({ g with styleSet := styleSet }, Square.setStyleId default id)
  match bg with
  | .indexed idx => (g, Square.setBgPalette default idx)
  | .spec r g' b => (g, Square.setBgRgb default r g' b)
  | .named named =>
    if named = .background then (g, default)
    else if named.toNat < 16 then (g, Square.setBgPalette default named.toNat.toUInt8)
    else intern

/-- A blank cell with the background color of the template. -/
def templateBlank (g : Grid Square) : Grid Square × Square :=
  g.blankWithBg (g.styleOf g.cursor.template).bg

/-- Drop the graphic of a cell, and the slot of its extras if nothing else is left there. -/
def clearCellGraphic (t : ExtrasTable) (cell : Square) : ExtrasTable × Square :=
  let (t, cell) :=
    match cell.extrasId with
    | none => (t, cell)
    | some eid =>
      match t.get eid with
      | none => (t, cell)
      | some extras =>
        let extras := { extras with graphic := none }
        let t := t.modify eid fun _ => extras
        if extras.isEmpty then (t.free eid, cell.setExtrasId none) else (t, cell)
  (t, { cell with flags := { cell.flags with graphics := false } })

/-- Drop the graphic of the cell at a position, if it has one. -/
def clearGraphicAt (g : Grid Square) (p : Pos) : Grid Square :=
  if (g.cell p).flags.graphics then
    let (extrasTable, cell) := clearCellGraphic g.extrasTable (g.cell p)
    { g.modifyCell p fun _ => cell with extrasTable := extrasTable }
  else g.modifyCell p id

end Rio.Grid
