import Rio.Copa.Parser
import Rio.Lib.Utf8Stream

/-! The ground state, which takes a slice up to the next escape character at a time, the carry
of a UTF-8 sequence cut off by the end of a read, and the loop over a read. -/

set_option linter.dupNamespace false

namespace Rio.Copa
open Rio.Utf8 Rio.Transducer

/-- The replacement character. -/
def replacement : Char := Char.ofNat 0xFFFD

/-- `\x00..=\x1f` and `\u{80}..=\u{9f}`. -/
def isControl (c : Char) : Bool := c.toNat ≤ 0x1F || (0x80 ≤ c.toNat && c.toNat ≤ 0x9F)

/-- What the ground state does with one character of a valid text. -/
def groundCall (c : Char) : Call :=
  if isControl c then .execute (UInt8.ofNat c.toNat) else .print c

def groundDispatch (text : List Char) : List Call := text.map groundCall

namespace Parser

/-- Leave the ground state at an escape character. -/
def enterEscape (p : Parser) : Parser := { p.resetParams with state := .escape }

/-- The parser, the calls, and the number of bytes taken. -/
def advanceGround (p : Parser) (bytes : List UInt8) : Parser × List Call × ℕ :=
  let numBytes := bytes.length
  -- `memchr` of the escape character, or the length
  let plainChars := bytes.findIdx (· == 0x1B)
  if plainChars = 0 then (p.enterEscape, [], 1)
  else
    let parsed := fromUtf8 (bytes.take plainChars)
    let calls := groundDispatch parsed.chars
    match parsed.error with
    | none =>
      if plainChars < numBytes then (p.enterEscape, calls, plainChars + 1)
      else (p, calls, plainChars)
    | some (some len) =>
      let bad := bytes.getD parsed.validUpTo 0
      -- a lone C1 byte is executed
      let call := if len = 1 ∧ bad ≤ 0x9F then .execute bad else .print replacement
      (p, calls ++ [call], parsed.validUpTo + len)
    | some none =>
      if plainChars < numBytes then (p.enterEscape, calls ++ [.print replacement], plainChars + 1)
      else
        ({ p with partialUtf8 := p.partialUtf8 ++ bytes.drop parsed.validUpTo }, calls, numBytes)

/-- Bytes of the carry buffer. -/
def partialCapacity : ℕ := 4

/-- Complete the carried sequence with the first bytes of a read. -/
def advancePartialUtf8 (p : Parser) (bytes : List UInt8) : Parser × List Call × ℕ :=
  let oldBytes := p.partialUtf8.length
  let toCopy := min bytes.length (partialCapacity - oldBytes)
  let buffer := p.partialUtf8 ++ bytes.take toCopy
  let parsed := fromUtf8 buffer
  let c := parsed.chars.headD replacement
  let done := { p with partialUtf8 := [] }
  match parsed.error with
  | none => (done, [.print c], c.utf8Size - oldBytes)
  | some error =>
    if 0 < parsed.validUpTo then (done, [.print c], parsed.validUpTo - oldBytes)
    else
      match error with
      | some invalidLen => (done, [.print replacement], invalidLen - oldBytes)
      | none => ({ p with partialUtf8 := buffer }, [], toCopy)

/-- The loop over the bytes of a read. Every round takes at least one byte. -/
def advanceLoop : ℕ → Parser → List UInt8 → Out
  | 0, p, _ => (p, [])
  | _ + 1, p, [] => (p, [])
  | fuel + 1, p, b :: bs =>
    if p.state = .ground then
      let r := p.advanceGround (b :: bs)
      emit r.2.1 (advanceLoop fuel r.1 ((b :: bs).drop r.2.2))
    else
      let r := p.changeState b
      emit r.2 (advanceLoop fuel r.1 bs)

def advance (p : Parser) (bytes : List UInt8) : Out :=
  if p.partialUtf8.length ≠ 0 then
    let r := p.advancePartialUtf8 bytes
    emit r.2.1 (advanceLoop bytes.length r.1 (bytes.drop r.2.2))
  else advanceLoop bytes.length p bytes

/-! ### The byte machine

The same language read one byte at a time, with no slices. -/

/-- The calls for an unfinished sequence that is broken off. -/
def flushCalls (carry : List UInt8) : List Call :=
  if carry = [] then [] else [.print replacement]

def itemCalls : Item → List Call
  | .char c => [groundCall c]
  | .bad [b] => if b ≤ 0x9F then [.execute b] else [.print replacement]
  | .bad _ => [.print replacement]

def stepByte (p : Parser) (b : UInt8) : Out :=
  if p.state = .ground then
    if b = 0x1B then ({ p with partialUtf8 := [] }.enterEscape, flushCalls p.partialUtf8)
    else
      let r := feedByte p.partialUtf8 b
      ({ p with partialUtf8 := r.1 }, r.2.flatMap itemCalls)
  else p.changeState b

end Parser
end Rio.Copa
