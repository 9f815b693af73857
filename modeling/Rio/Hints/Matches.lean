import Rio.Crosswords.Copy
import Rio.Crosswords.ViMode
import Rio.Window.Island

/-! The matches of a hint: texts on the screen that a regular expression finds, and hyperlinks. -/

set_option linter.dupNamespace false

namespace Rio.Hints
open Rio.Checked

/-- Individual hint configuration. -/
structure Hint where
  regex : Option String
  /-- Whether to include hyperlinks. -/
  hyperlinks : Bool
  /-- Whether to shorten what was matched. -/
  postProcessing : Bool
  /-- Whether hints stay after a selection. -/
  persist : Bool
  deriving DecidableEq, Repr

structure HintMatch where
  text : List Char
  start : Pos
  stop : Pos
  hint : Hint
  deriving DecidableEq, Repr

/-! ### Regular expressions -/

/-- The bytes of a text. -/
def utf8Len (text : List Char) : ℕ := (text.map Char.utf8Size).sum

/-- A range of bytes of a text that begins and ends between characters. -/
structure ByteRange (text : List Char) where
  before : List Char
  matched : List Char
  after : List Char
  split : before ++ matched ++ after = text

namespace ByteRange

variable {text : List Char}

def start (r : ByteRange text) : ℕ := utf8Len r.before

def stop (r : ByteRange text) : ℕ := utf8Len (r.before ++ r.matched)

end ByteRange

/-- What the library finds in a text with a regular expression. -/
abbrev Regex := (text : List Char) → List (ByteRange text)

/-! ### Texts -/

def trimEnd (text : List Char) : List Char := text.rdropWhile Window.isWhitespace

/-- The text of a line, with a character for each column. -/
def extractLineText (g : Grid Square) (line : ℤ) : List Char :=
  trimEnd ((List.range g.columns).map fun col => (g.cell ⟨line, col⟩).c)

def isDelimiter (c : Char) : Bool := c ∈ ['.', ',', ':', ';', '?', '!', '(', '[', '\'']

/-- Where a text ends before a closing bracket that was not opened. -/
def unmatchedBracket : ℕ → ℕ → ℕ → List Char → Option ℕ
  | _, _, _, [] => none
  | i, openParents, openBrackets, c :: chars =>
    if c = '(' then unmatchedBracket (i + 1) (openParents + 1) openBrackets chars
    else if c = '[' then unmatchedBracket (i + 1) openParents (openBrackets + 1) chars
    else if c = ')' then
      if openParents = 0 then some (i - 1)
      else unmatchedBracket (i + 1) (openParents - 1) openBrackets chars
    else if c = ']' then
      if openBrackets = 0 then some (i - 1)
      else unmatchedBracket (i + 1) openParents (openBrackets - 1) chars
    else unmatchedBracket (i + 1) openParents openBrackets chars

/-- The last index without the delimiters at the end. -/
def trimDelimiters (chars : List Char) : ℕ → ℕ
  | 0 => 0
  | endIdx + 1 =>
    if isDelimiter (chars.getD (endIdx + 1) '\x00') then trimDelimiters chars endIdx
    else endIdx + 1

/-- Handle uneven brackets and delimiters at the end. -/
def postProcessHyperlinkUri (chars : List Char) : List Char :=
  if chars = [] then []
  else
    let endIdx := (unmatchedBracket 0 0 0 chars).getD (chars.length - 1)
    chars.take (trimDelimiters chars endIdx + 1)

/-! ### Label mode -/

def visibleLines (g : Grid Square) : List ℤ :=
  (List.range g.lines).map fun lineIdx : ℕ => (lineIdx : ℤ) - g.displayOffset

/-- A visible line is scanned, and not skipped. -/
def scanned (g : Grid Square) (line : ℤ) : Bool := !(line < 0 || (g.raw.len : ℤ) ≤ line)

def scannedLines (g : Grid Square) : List ℤ := (visibleLines g).filter (scanned g)

def regexMatch (hint : Hint) (line : ℤ) {text : List Char} (r : ByteRange text) : HintMatch :=
  let matchText := if hint.postProcessing then postProcessHyperlinkUri r.matched else r.matched
  { text := matchText
    start := ⟨line, r.start⟩
    stop := ⟨line, r.start + (utf8Len matchText - 1)⟩
    hint := hint }

def findRegexMatches (g : Grid Square) (regex : Regex) (hint : Hint) : List HintMatch :=
  (scannedLines g).flatMap fun line => (regex (extractLineText g line)).map (regexMatch hint line)

def cellHyperlinkId (g : Grid Square) (line : ℤ) (col : ℕ) : Option ExtrasId :=
  let cell := g.cell ⟨line, col⟩
  if cell.flags.hyperlink then cell.extrasId else none

def cellHyperlink (g : Grid Square) (line : ℤ) (col : ℕ) : Option Hyperlink :=
  ((cellHyperlinkId g line col).bind g.extrasTable.get).bind (·.hyperlink)

/-- The first column behind a span of cells with the same id. -/
def spanEnd (ids : ℕ → Option ExtrasId) (cols col : ℕ) : ℕ :=
  col + 1 + ((List.range' (col + 1) (cols - (col + 1))).takeWhile fun c => ids c = ids col).length

def hyperlinkSpans (ids : ℕ → Option ExtrasId) (cols col : ℕ) : List (ℕ × ℕ) :=
  if col < cols then
    if (ids col).isSome then
      (col, spanEnd ids cols col) :: hyperlinkSpans ids cols (spanEnd ids cols col)
    else hyperlinkSpans ids cols (col + 1)
  else []
termination_by cols - col
decreasing_by
  · unfold spanEnd
    omega
  · omega

def hyperlinkMatch (g : Grid Square) (hint : Hint) (line : ℤ) (span : ℕ × ℕ) :
    Option HintMatch :=
  (cellHyperlink g line span.1).map fun hyperlink =>
    let uri := hyperlink.uri.toList
    { text := if hint.postProcessing then postProcessHyperlinkUri uri else uri
      start := ⟨line, span.1⟩
      stop := ⟨line, span.2 - 1⟩
      hint := hint }

def findHyperlinkMatches (g : Grid Square) (hint : Hint) : List HintMatch :=
  (scannedLines g).flatMap fun line =>
    (hyperlinkSpans (cellHyperlinkId g line) g.columns 0).filterMap (hyperlinkMatch g hint line)

/-! ### The match under the mouse pointer -/

/-- Brackets that are open where the iterator stands. -/
structure OpenBrackets where
  current : Pos
  parents : ℕ
  brackets : ℕ

/-- What a character does to the count of open brackets; there is no count below `0`. -/
def countBracket (parents brackets : ℕ) (c : Char) : Option (ℕ × ℕ) :=
  if c = '(' then some (parents + 1, brackets)
  else if c = '[' then some (parents, brackets + 1)
  else if c = ')' then if parents = 0 then none else some (parents - 1, brackets)
  else if c = ']' then if brackets = 0 then none else some (parents, brackets - 1)
  else some (parents, brackets)

/-- A turn of the loop that looks for uneven brackets. It ends with the last column before one, or
with no column. -/
def bracketTurn (g : Grid Square) (stop : Pos) (s : OpenBrackets) :
    Outcome (OpenBrackets ⊕ Option ℕ) :=
  if stop < s.current then .ok (.inr none)
  else do
    match ← Vi.next g s.current with
    | none => return .inr none
    | some current =>
      match countBracket s.parents s.brackets (g.cell current).c with
      | none => return .inr ((← Vi.prev g current).map (·.col))
      | some (parents, brackets) =>
        if current = stop then return .inr none
        else return .inl ⟨current, parents, brackets⟩

/-- A turn of the loop that drops delimiters at the end; the iterator stands on the second of the
positions. -/
def delimiterTurn (g : Grid Square) (start : Pos) (s : Pos × Pos) : Outcome ((Pos × Pos) ⊕ Pos) :=
  let (finalEnd, current) := s
  if ¬ start < finalEnd then .ok (.inr finalEnd)
  else do
    match ← Vi.next g current with
    | none => return .inr finalEnd
    | some current =>
      if !isDelimiter (g.cell current).c then return .inr finalEnd
      else
        match ← Vi.prev g current with
        | none => return .inr finalEnd
        | some prev => return .inl (prev, (← Vi.prev g prev).getD prev)

/-- The columns that are left of a match. -/
def hintPostProcessing (g : Grid Square) (startCol endCol : ℕ) (row : ℤ) (fuel : ℕ) :
    Outcome (ℕ × ℕ) := do
  let startPos : Pos := ⟨row, startCol⟩
  let endPos : Pos := ⟨row, endCol⟩
  match ← loop (bracketTurn g endPos) fuel ⟨startPos, 0, 0⟩ with
  | some col => return (startCol, col)
  | none =>
    let finalEnd ← loop (delimiterTurn g startPos) fuel (endPos, endPos)
    return (startCol, finalEnd.col)

/-- The first range that has a column, taken for a byte. -/
def rangeAtColumn {text : List Char} (ranges : List (ByteRange text)) (col : ℕ) :
    Option (ByteRange text) :=
  ranges.find? fun r => r.start ≤ col && col ≤ r.stop - 1

/-- The characters of the columns from `start` up to and with `stop`. -/
def readColumns (g : Grid Square) (row : ℤ) (start stop : ℕ) : Outcome (List Char) :=
  collect (fun col => do return [(← Vi.readCell g ⟨row, col⟩).c])
    (List.range' start (stop + 1 - start))

/-- The match of a range; shortening reads its text from the grid. -/
def pointMatch (g : Grid Square) (row : ℤ) (hint : Hint) {text : List Char} (r : ByteRange text)
    (fuel : ℕ) : Outcome HintMatch :=
  let startCol := r.start
  let endCol := r.stop - 1
  if hint.postProcessing then do
    let (processedStart, processedEnd) ← hintPostProcessing g startCol endCol row fuel
    let processedText ← readColumns g row processedStart processedEnd
    return ⟨trimEnd processedText, ⟨row, processedStart⟩, ⟨row, processedEnd⟩, hint⟩
  else .ok ⟨r.matched, ⟨row, startCol⟩, ⟨row, endCol⟩, hint⟩

def findRegexMatchAtPoint (g : Grid Square) (point : Pos) (regex : Regex) (hint : Hint)
    (fuel : ℕ) : Outcome (Option HintMatch) :=
  if (g.raw.len : ℤ) ≤ point.row ∨ g.columns ≤ point.col then .ok none
  else do
    let _ ← g.readRow point.row
    match rangeAtColumn (regex (extractLineText g point.row)) point.col with
    | none => return none
    | some r => return some (← pointMatch g point.row hint r fuel)

end Rio.Hints
