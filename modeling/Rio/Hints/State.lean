import Rio.Hints.Matches
import Rio.Lib.Odometer

/-! The hint mode: matches with labels, and the keys that choose one. -/

set_option linter.dupNamespace false

namespace Rio.Hints
open Rio.Checked

/-- Generates hint labels using the specified alphabet. The first index is the one of the last
character. -/
structure LabelGenerator where
  alphabet : List Char
  indices : List ℕ
  deriving DecidableEq, Repr

namespace LabelGenerator

def new (alphabet : List Char) : LabelGenerator := ⟨alphabet, [0]⟩

def currentLabel (g : LabelGenerator) : Outcome (List Char) :=
  collect (fun i => do return [← read g.alphabet i]) g.indices.reverse

def increment (g : LabelGenerator) : LabelGenerator :=
  { g with indices := Odometer.increment g.alphabet.length g.indices }

def next (g : LabelGenerator) : Outcome (List Char × LabelGenerator) := do
  let label ← g.currentLabel
  return (label, g.increment)

/-- The next `n` labels. -/
def labels : ℕ → LabelGenerator → Outcome (List (List Char))
  | 0, _ => .ok []
  | n + 1, g => do
    let (label, g) ← g.next
    return label :: (← labels n g)

end LabelGenerator

/-- State for hint selection mode. -/
structure HintState where
  activeHint : Option Hint
  /-- Visible matches for the current hint. -/
  hintMatches : List HintMatch
  labels : List (List Char)
  /-- Keys pressed so far. -/
  keys : List Char
  alphabet : List Char
  deriving DecidableEq, Repr

/-- Matches in the order of the screen. -/
def startsBefore (m m' : HintMatch) : Prop :=
  m.start.row < m'.start.row ∨ m.start.row = m'.start.row ∧ m.start.col ≤ m'.start.col

instance : DecidableRel startsBefore := fun m m' =>
  inferInstanceAs (Decidable (m.start.row < m'.start.row ∨
    m.start.row = m'.start.row ∧ m.start.col ≤ m'.start.col))

/-- Drop matches that start where the one before starts, at `last`. -/
def dedupAfter (last : Pos) : List HintMatch → List HintMatch
  | [] => []
  | m :: ms => if m.start = last then dedupAfter last ms else m :: dedupAfter m.start ms

def dedupByStart : List HintMatch → List HintMatch
  | [] => []
  | m :: ms => m :: dedupAfter m.start ms

namespace HintState

def new (alphabet : List Char) : HintState := ⟨none, [], [], [], alphabet⟩

/-- Start hint mode with the given hint. -/
def start (s : HintState) (hint : Hint) : HintState := { s with activeHint := some hint, keys := [] }

/-- Stop hint mode. -/
def stop (s : HintState) : HintState := ⟨none, [], [], [], s.alphabet⟩

def generateLabels (s : HintState) : Outcome HintState := do
  let labels ← (LabelGenerator.new s.alphabet).labels s.hintMatches.length
  return { s with labels := labels }

/-- What a hint finds; a pattern that does not compile finds nothing. -/
def findMatches (compile : String → Option Regex) (g : Grid Square) (hint : Hint) :
    List HintMatch :=
  let regexMatches := match hint.regex.bind compile with
    | some regex => findRegexMatches g regex hint
    | none => []
  regexMatches ++ if hint.hyperlinks then findHyperlinkMatches g hint else []

/-- Update visible matches for the current hint; hint mode ends if there are none. -/
def updateMatches (compile : String → Option Regex) (g : Grid Square) (s : HintState) :
    Outcome HintState :=
  match s.activeHint with
  | none => .ok { s with hintMatches := [] }
  | some hint =>
    let hintMatches := findMatches compile g hint
    if hintMatches = [] then .ok s.stop
    else
      { s with hintMatches := dedupByStart (hintMatches.insertionSort startsBefore) }.generateLabels

/-- What is left of each label that begins with the keys pressed so far. -/
def visibleLabels (s : HintState) : List (ℕ × List Char) :=
  s.labels.zipIdx.filterMap fun (label, i) =>
    if s.keys.length ≤ label.length && label.take s.keys.length = s.keys then
      some (i, label.drop s.keys.length)
    else none

/-- The last visible label that goes on with a character. -/
def lastLabel (s : HintState) (c : Char) : Option (ℕ × List Char) :=
  s.visibleLabels.reverse.find? fun (_, remaining) => remaining.head? = some c

def chooseLabel (s : HintState) (hint : Hint) (c : Char) : HintState × Option HintMatch :=
  match s.lastLabel c with
  | none => (s, none)
  | some (index, remaining) =>
    if remaining.length = 1 then
      match s.hintMatches[index]? with
      | none => (s, none)
      -- hint mode ends unless it requires explicit dismissal
      | some hintMatch => (if hint.persist then { s with keys := [] } else s.stop, some hintMatch)
    else ({ s with keys := s.keys ++ [c] }, none)

/-- Handle keyboard input during hint selection. -/
def keyboardInput (compile : String → Option Regex) (g : Grid Square) (s : HintState) (c : Char) :
    Outcome (HintState × Option HintMatch) :=
  if c = '\x08' ∨ c = '\x1f' then do
    -- backspace removes the last character pressed
    let s ← { s with keys := s.keys.dropLast }.updateMatches compile g
    return (s, none)
  else if c = '\x1b' ∨ c = '\x03' then .ok (s.stop, none)
  else
    match s.activeHint with
    | none => .ok (s, none)
    | some hint => .ok (s.chooseLabel hint c)

end HintState
end Rio.Hints
