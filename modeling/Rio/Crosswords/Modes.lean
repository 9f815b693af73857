import Rio.Grid.Style

/-! The modes of the terminal and the arguments of the handler. -/

set_option linter.dupNamespace false

namespace Rio

structure Mode where
  showCursor : Bool := false
  appCursor : Bool := false
  appKeypad : Bool := false
  mouseReportClick : Bool := false
  bracketedPaste : Bool := false
  sgrMouse : Bool := false
  mouseMotion : Bool := false
  lineWrap : Bool := false
  lineFeedNewLine : Bool := false
  origin : Bool := false
  insert : Bool := false
  focusInOut : Bool := false
  altScreen : Bool := false
  mouseDrag : Bool := false
  utf8Mouse : Bool := false
  alternateScroll : Bool := false
  vi : Bool := false
  urgencyHints : Bool := false
  disambiguateEscCodes : Bool := false
  reportEventTypes : Bool := false
  reportAlternateKeys : Bool := false
  reportAllKeysAsEsc : Bool := false
  reportAssociatedText : Bool := false
  sixelDisplay : Bool := false
  sixelPrivPalette : Bool := false
  sixelCursorToTheRight : Bool := false
  deriving DecidableEq, Repr, Inhabited

namespace Mode

/-- The modes of a new terminal. -/
def initial : Mode :=
  { showCursor := true, lineWrap := true, alternateScroll := true, urgencyHints := true }

/-- The modes after a reset, of which vi mode is preserved. -/
def reset (m : Mode) : Mode := { initial with sixelPrivPalette := true, vi := m.vi }

/-- The bits of the keyboard protocol, from the lowest. -/
def withKeyboard (m : Mode) (bits : UInt8) : Mode :=
  { m with
    disambiguateEscCodes := bits &&& 0x01 != 0
    reportEventTypes := bits &&& 0x02 != 0
    reportAlternateKeys := bits &&& 0x04 != 0
    reportAllKeysAsEsc := bits &&& 0x08 != 0
    reportAssociatedText := bits &&& 0x10 != 0 }

/-- The mouse protocols are mutually exclusive. -/
def withoutMouse (m : Mode) : Mode :=
  { m with mouseReportClick := false, mouseMotion := false, mouseDrag := false }

end Mode

inductive KeyboardModesApplyBehavior
  | replace | union | difference
  deriving DecidableEq, Repr

inductive NamedMode
  | insert
  | lineFeedNewLine
  deriving DecidableEq, Repr

inductive NamedPrivateMode
  | cursorKeys | columnMode | origin | lineWrap | blinkingCursor | showCursor
  | reportMouseClicks | reportCellMouseMotion | reportAllMouseMotion | reportFocusInOut
  | utf8Mouse | sgrMouse | alternateScroll | urgencyHints | swapScreenAndSetRestoreCursor
  | bracketedPaste | syncUpdate | win32InputMode
  deriving DecidableEq, Repr

inductive PrivateMode
  | named (mode : NamedPrivateMode)
  | unknown (mode : UInt16)
  deriving DecidableEq, Repr

inductive ClearMode
  | below | above | all | saved
  deriving DecidableEq, Repr

inductive LineClearMode
  | right | left | all
  deriving DecidableEq, Repr

inductive TabulationClearMode
  | current | all
  deriving DecidableEq, Repr

inductive Attr
  | reset | bold | dim | italic | underline | doubleUnderline | undercurl | dottedUnderline
  | dashedUnderline | blinkSlow | blinkFast | reverse | hidden | strike | cancelBold
  | cancelBoldDim | cancelItalic | cancelUnderline | cancelBlink | cancelReverse | cancelHidden
  | cancelStrike
  | foreground (color : AnsiColor)
  | background (color : AnsiColor)
  | underlineColor (color : Option AnsiColor)
  deriving DecidableEq, Repr

/-- What an attribute does to the style of the template; nothing for blinking. -/
def Attr.apply (attr : Attr) : Option (Style → Style) :=
  let insert (f : StyleFlags) : Style → Style := fun s => { s with flags := s.flags.insert f }
  let remove (f : StyleFlags) : Style → Style := fun s => { s with flags := s.flags.remove f }
  let underlined (f : StyleFlags) : Style → Style := fun s =>
    { s with flags := (s.flags.remove .allUnderlines).insert f }
  match attr with
  | .foreground color => some fun s => { s with fg := color }
  | .background color => some fun s => { s with bg := color }
  | .underlineColor color => some fun s => { s with underlineColor := color }
  | .reset => some fun _ => {}
  | .reverse => some (insert .inverse)
  | .cancelReverse => some (remove .inverse)
  | .bold => some (insert .bold)
  | .cancelBold => some (remove .bold)
  | .dim => some (insert .dim)
  | .cancelBoldDim => some (remove (StyleFlags.bold.insert .dim))
  | .italic => some (insert .italic)
  | .cancelItalic => some (remove .italic)
  | .underline => some (underlined .underline)
  | .doubleUnderline => some (underlined .doubleUnderline)
  | .undercurl => some (underlined .undercurl)
  | .dottedUnderline => some (underlined .dottedUnderline)
  | .dashedUnderline => some (underlined .dashedUnderline)
  | .blinkSlow | .blinkFast | .cancelBlink => none
  | .cancelUnderline => some (remove .allUnderlines)
  | .hidden => some (insert .hidden)
  | .cancelHidden => some (remove .hidden)
  | .strike => some (insert .strikeout)
  | .cancelStrike => some (remove .strikeout)

/-- What the terminal asks of Unicode tables: the columns a character takes, none for control
characters, and whether a variation selector applies to a character. -/
structure Unicode where
  width : Char → Option ℕ
  width_le : ∀ c w, width c = some w → w ≤ 2
  vsIsValidBase : Char → Char → Bool

/-- Tables that know control characters, a zero-width joiner, the variation selectors and one
block of wide characters. -/
def Unicode.basic : Unicode where
  width c :=
    if c < ' ' then none
    else if c = '\u200d' ∨ c = '\ufe0e' ∨ c = '\ufe0f' then some 0
    else if '\u3040' ≤ c ∧ c ≤ '\u309f' then some 2
    else some 1
  width_le c w := by
    split_ifs <;> simp <;> omega
  vsIsValidBase c _ := c = '\u2600'

end Rio
