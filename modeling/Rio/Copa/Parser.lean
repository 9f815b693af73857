import Rio.Copa.Params
import Rio.Lib.Utf8

/-! The escape-sequence parser: its state, one transition for each state and byte, and the
slice-at-a-time handling of the ground state. A call the parser makes on its `Perform`
argument is a value of `Call`, and every step returns the calls in the order made. -/

set_option linter.dupNamespace false

namespace Rio.Copa
open Rio.Utf8

def maxIntermediates : ℕ := 2
def maxOscParams : ℕ := 16

inductive State
  | csiEntry | csiIgnore | csiIntermediate | csiParam
  | dcsEntry | dcsIgnore | dcsIntermediate | dcsParam | dcsPassthrough
  | escape | escapeIntermediate
  | oscString | sosString | apcString | pmString
  | ground
  deriving DecidableEq, Repr

/-- The methods of the `Perform` trait. Parameter lists are given as the groups their
iterator yields. -/
inductive Call
  | print (c : Char)
  | execute (byte : UInt8)
  | hook (params : List (List UInt16)) (intermediates : List UInt8) (ignore : Bool)
      (action : UInt8)
  | put (byte : UInt8)
  | unhook
  | oscDispatch (params : List (List UInt8)) (bellTerminated : Bool)
  | csiDispatch (params : List (List UInt16)) (intermediates : List UInt8) (ignore : Bool)
      (action : UInt8)
  | escDispatch (intermediates : List UInt8) (ignore : Bool) (byte : UInt8)
  | sosStart
  | sosPut (byte : UInt8)
  | sosEnd
  | pmStart
  | pmPut (byte : UInt8)
  | pmEnd
  | apcStart
  | apcPut (byte : UInt8)
  | apcEnd
  deriving DecidableEq, Repr

/-- The parser. `partialUtf8` is the live part of the four-byte carry buffer, that is its
first `partial_utf8_len` bytes; the parser never reads the bytes behind it. -/
structure Parser where
  state : State := .ground
  intermediates : List UInt8 := List.replicate maxIntermediates 0
  intermediateIdx : ℕ := 0
  params : Params := default
  param : UInt16 := 0
  oscRaw : List UInt8 := []
  oscParams : List (ℕ × ℕ) := List.replicate maxOscParams (0, 0)
  oscNumParams : ℕ := 0
  ignoring : Bool := false
  partialUtf8 : List UInt8 := []
  deriving DecidableEq, Repr

/-- What an advance of the parser yields: the parser after it and the calls it made. -/
abbrev Out := Parser × List Call

namespace Parser

/-- The parser as created. -/
def new : Parser := {}

/-- The intermediates collected so far. -/
def activeIntermediates (p : Parser) : List UInt8 := p.intermediates.take p.intermediateIdx

/-- Reset escape sequence parameters and intermediates. -/
def resetParams (p : Parser) : Parser :=
  { p with intermediateIdx := 0, ignoring := false, param := 0, params := p.params.clear }

def actionCollect (p : Parser) (byte : UInt8) : Parser :=
  if p.intermediateIdx = maxIntermediates then { p with ignoring := true }
  else
    { p with
      intermediates := p.intermediates.set p.intermediateIdx byte
      intermediateIdx := p.intermediateIdx + 1 }

def actionSubparam (p : Parser) : Parser :=
  if p.params.isFull then { p with ignoring := true }
  else { p with params := p.params.extend p.param, param := 0 }

def actionParam (p : Parser) : Parser :=
  if p.params.isFull then { p with ignoring := true }
  else { p with params := p.params.push p.param, param := 0 }

/-- Saturating `param * 10 + digit` on sixteen bits. -/
def addDigit (param : UInt16) (byte : UInt8) : UInt16 :=
  UInt16.ofNat (min 65535 (min 65535 (param.toNat * 10) + (byte.toNat - 0x30)))

def actionParamnext (p : Parser) (byte : UInt8) : Parser :=
  if p.params.isFull then { p with ignoring := true }
  else { p with param := addDigit p.param byte }

/-- Close the last parameter before a dispatch. -/
def finishParams (p : Parser) : Parser :=
  if p.params.isFull then { p with ignoring := true }
  else { p with params := p.params.push p.param }

def actionCsiDispatch (p : Parser) (byte : UInt8) : Out :=
  let p := p.finishParams
  ({ p with state := .ground },
    [.csiDispatch p.params.iter p.activeIntermediates p.ignoring byte])

def actionHook (p : Parser) (byte : UInt8) : Out :=
  let p := p.finishParams
  ({ p with state := .dcsPassthrough },
    [.hook p.params.iter p.activeIntermediates p.ignoring byte])

/-- Add OSC param separator. -/
def actionOscPutParam (p : Parser) : Parser :=
  let idx := p.oscRaw.length
  let paramIdx := p.oscNumParams
  if paramIdx = 0 then
    { p with oscParams := p.oscParams.set paramIdx (0, idx), oscNumParams := paramIdx + 1 }
  else if paramIdx = maxOscParams then p
  else
    let begin_ := (p.oscParams.getD (paramIdx - 1) (0, 0)).2
    { p with
      oscParams := p.oscParams.set paramIdx (begin_, idx), oscNumParams := paramIdx + 1 }

def actionOscPut (p : Parser) (byte : UInt8) : Parser :=
  { p with oscRaw := p.oscRaw ++ [byte] }

/-- The slices of the raw OSC buffer between the recorded parameter boundaries. -/
def oscSlices (p : Parser) : List (List UInt8) :=
  (p.oscParams.take p.oscNumParams).map fun indices =>
    (p.oscRaw.drop indices.1).take (indices.2 - indices.1)

def clearOsc (p : Parser) : Parser := { p with oscRaw := [], oscNumParams := 0 }

def oscEnd (p : Parser) (byte : UInt8) : Out :=
  let p := p.actionOscPutParam
  (p.clearOsc, [.oscDispatch p.oscSlices (byte == 0x07)])

def actionApcPut (p : Parser) (byte : UInt8) : Out :=
  ({ p with oscRaw := p.oscRaw ++ [byte] }, [.apcPut byte])

/-- Dispatch an escape sequence and return to the ground state. -/
def escDispatch (p : Parser) (byte : UInt8) : Out :=
  ({ p with state := .ground }, [.escDispatch p.activeIntermediates p.ignoring byte])

/-- The C0 controls that no state but the string states treats specially. -/
def isPlainC0 (byte : UInt8) : Bool := byte ≤ 0x17 || byte == 0x19 || inRange 0x1C 0x1F byte

/-- `CAN` and `SUB`. -/
def isCancel (byte : UInt8) : Bool := byte == 0x18 || byte == 0x1A

def anywhere (p : Parser) (byte : UInt8) : Out :=
  if isCancel byte then ({ p with state := .ground }, [.execute byte])
  else if byte = 0x1B then ({ p.resetParams with state := .escape }, [])
  else (p, [])

def advanceCsiEntry (p : Parser) (byte : UInt8) : Out :=
  if isPlainC0 byte then (p, [.execute byte])
  else if inRange 0x20 0x2F byte then
    ({ p.actionCollect byte with state := .csiIntermediate }, [])
  else if inRange 0x30 0x39 byte then ({ p.actionParamnext byte with state := .csiParam }, [])
  else if byte = 0x3A then ({ p.actionSubparam with state := .csiParam }, [])
  else if byte = 0x3B then ({ p.actionParam with state := .csiParam }, [])
  else if inRange 0x3C 0x3F byte then ({ p.actionCollect byte with state := .csiParam }, [])
  else if inRange 0x40 0x7E byte then p.actionCsiDispatch byte
  else p.anywhere byte

def advanceCsiIgnore (p : Parser) (byte : UInt8) : Out :=
  if isPlainC0 byte then (p, [.execute byte])
  else if inRange 0x20 0x3F byte then (p, [])
  else if inRange 0x40 0x7E byte then ({ p with state := .ground }, [])
  else if byte = 0x7F then (p, [])
  else p.anywhere byte

def advanceCsiIntermediate (p : Parser) (byte : UInt8) : Out :=
  if isPlainC0 byte then (p, [.execute byte])
  else if inRange 0x20 0x2F byte then (p.actionCollect byte, [])
  else if inRange 0x30 0x3F byte then ({ p with state := .csiIgnore }, [])
  else if inRange 0x40 0x7E byte then p.actionCsiDispatch byte
  else p.anywhere byte

def advanceCsiParam (p : Parser) (byte : UInt8) : Out :=
  if isPlainC0 byte then (p, [.execute byte])
  else if inRange 0x20 0x2F byte then
    ({ p.actionCollect byte with state := .csiIntermediate }, [])
  else if inRange 0x30 0x39 byte then (p.actionParamnext byte, [])
  else if byte = 0x3A then (p.actionSubparam, [])
  else if byte = 0x3B then (p.actionParam, [])
  else if inRange 0x3C 0x3F byte then ({ p with state := .csiIgnore }, [])
  else if inRange 0x40 0x7E byte then p.actionCsiDispatch byte
  else if byte = 0x7F then (p, [])
  else p.anywhere byte

def advanceDcsEntry (p : Parser) (byte : UInt8) : Out :=
  if isPlainC0 byte then (p, [])
  else if inRange 0x20 0x2F byte then
    ({ p.actionCollect byte with state := .dcsIntermediate }, [])
  else if inRange 0x30 0x39 byte then ({ p.actionParamnext byte with state := .dcsParam }, [])
  else if byte = 0x3A then ({ p.actionSubparam with state := .dcsParam }, [])
  else if byte = 0x3B then ({ p.actionParam with state := .dcsParam }, [])
  else if inRange 0x3C 0x3F byte then ({ p.actionCollect byte with state := .dcsParam }, [])
  else if inRange 0x40 0x7E byte then p.actionHook byte
  else if byte = 0x7F then (p, [])
  else p.anywhere byte

def advanceDcsIntermediate (p : Parser) (byte : UInt8) : Out :=
  if isPlainC0 byte then (p, [])
  else if inRange 0x20 0x2F byte then (p.actionCollect byte, [])
  else if inRange 0x30 0x3F byte then ({ p with state := .dcsIgnore }, [])
  else if inRange 0x40 0x7E byte then p.actionHook byte
  else if byte = 0x7F then (p, [])
  else p.anywhere byte

def advanceDcsParam (p : Parser) (byte : UInt8) : Out :=
  if isPlainC0 byte then (p, [])
  else if inRange 0x20 0x2F byte then
    ({ p.actionCollect byte with state := .dcsIntermediate }, [])
  else if inRange 0x30 0x39 byte then (p.actionParamnext byte, [])
  else if byte = 0x3A then (p.actionSubparam, [])
  else if byte = 0x3B then (p.actionParam, [])
  else if inRange 0x3C 0x3F byte then ({ p with state := .dcsIgnore }, [])
  else if inRange 0x40 0x7E byte then p.actionHook byte
  else if byte = 0x7F then (p, [])
  else p.anywhere byte

def advanceDcsPassthrough (p : Parser) (byte : UInt8) : Out :=
  if byte ≤ 0x17 || byte == 0x19 || inRange 0x1C 0x7E byte then (p, [.put byte])
  else if isCancel byte then ({ p with state := .ground }, [.unhook, .execute byte])
  else if byte = 0x1B then ({ p.resetParams with state := .escape }, [.unhook])
  else if byte = 0x7F then (p, [])
  else if byte = 0x9C then ({ p with state := .ground }, [.unhook])
  else (p, [])

def advanceEsc (p : Parser) (byte : UInt8) : Out :=
  if isPlainC0 byte then (p, [.execute byte])
  else if inRange 0x20 0x2F byte then
    ({ p.actionCollect byte with state := .escapeIntermediate }, [])
  else if inRange 0x30 0x4F byte then p.escDispatch byte
  else if byte = 0x50 then ({ p.resetParams with state := .dcsEntry }, [])
  else if inRange 0x51 0x57 byte then p.escDispatch byte
  else if byte = 0x58 then ({ p with state := .sosString }, [.sosStart])
  else if inRange 0x59 0x5A byte then p.escDispatch byte
  else if byte = 0x5B then ({ p.resetParams with state := .csiEntry }, [])
  else if byte = 0x5C then p.escDispatch byte
  else if byte = 0x5D then ({ p.clearOsc with state := .oscString }, [])
  else if byte = 0x5E then ({ p with state := .pmString }, [.pmStart])
  else if byte = 0x5F then ({ p with state := .apcString }, [.apcStart])
  else if inRange 0x60 0x7E byte then p.escDispatch byte
  else if isCancel byte then ({ p with state := .ground }, [.execute byte])
  else (p, [])

def advanceEscIntermediate (p : Parser) (byte : UInt8) : Out :=
  if isPlainC0 byte then (p, [.execute byte])
  else if inRange 0x20 0x2F byte then (p.actionCollect byte, [])
  else if inRange 0x30 0x7E byte then p.escDispatch byte
  else if byte = 0x7F then (p, [])
  else p.anywhere byte

def advanceOscString (p : Parser) (byte : UInt8) : Out :=
  if byte ≤ 0x06 || inRange 0x08 0x17 byte || byte == 0x19 || inRange 0x1C 0x1F byte then
    (p, [])
  else if byte = 0x07 then
    let (p, calls) := p.oscEnd byte
    ({ p with state := .ground }, calls)
  else if isCancel byte then
    let (p, calls) := p.oscEnd byte
    ({ p with state := .ground }, calls ++ [.execute byte])
  else if byte = 0x1B then
    let (p, calls) := p.oscEnd byte
    ({ p.resetParams with state := .escape }, calls)
  else if byte = 0x3B then (p.actionOscPutParam, [])
  else (p.actionOscPut byte, [])

def advanceApcString (p : Parser) (byte : UInt8) : Out :=
  if byte ≤ 0x06 || inRange 0x08 0x17 byte || byte == 0x19 || inRange 0x1C 0x1F byte then
    (p, [])
  else if byte = 0x07 then ({ p.clearOsc with state := .ground }, [.apcEnd])
  else if isCancel byte then
    let (p, calls) := p.actionApcPut byte
    ({ p.clearOsc with state := .ground }, calls ++ [.apcEnd, .execute byte])
  else if byte = 0x1B then ({ p.clearOsc with state := .escape }, [.apcEnd])
  else if byte = 0x3B then
    let (p, calls) := p.actionApcPut byte
    (p.actionOscPutParam, calls)
  else p.actionApcPut byte

/-- An SOS or PM string; `put` and `fin` are the calls of the dispatcher in use. -/
def advanceOpaqueString (put : UInt8 → Call) (fin : Call) (p : Parser) (byte : UInt8) : Out :=
  if byte = 0x07 then ({ p with state := .ground }, [fin])
  else if isCancel byte then ({ p with state := .ground }, [fin, .execute byte])
  else if byte = 0x1B then ({ p with state := .escape }, [fin])
  else if 0x20 ≤ byte then (p, [put byte])
  else (p, [])

/-- One byte in any state but the ground state, which is handled a slice at a time. -/
def changeState (p : Parser) (byte : UInt8) : Out :=
  match p.state with
  | .csiEntry => p.advanceCsiEntry byte
  | .csiIgnore => p.advanceCsiIgnore byte
  | .csiIntermediate => p.advanceCsiIntermediate byte
  | .csiParam => p.advanceCsiParam byte
  | .dcsEntry => p.advanceDcsEntry byte
  | .dcsIgnore => p.anywhere byte
  | .dcsIntermediate => p.advanceDcsIntermediate byte
  | .dcsParam => p.advanceDcsParam byte
  | .dcsPassthrough => p.advanceDcsPassthrough byte
  | .escape => p.advanceEsc byte
  | .escapeIntermediate => p.advanceEscIntermediate byte
  | .oscString => p.advanceOscString byte
  | .sosString => advanceOpaqueString .sosPut .sosEnd p byte
  | .apcString => p.advanceApcString byte
  | .pmString => advanceOpaqueString .pmPut .pmEnd p byte
  | .ground => (p, [])

end Parser
end Rio.Copa
