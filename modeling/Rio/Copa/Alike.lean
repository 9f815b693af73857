import Rio.Copa.Faults
import Rio.Copa.Delivered

/-! Parsers that differ only in what they never read again, and that an escape character leaves
any parser as one of these: nothing of a control sequence is left for the next one. -/

set_option linter.dupNamespace false

namespace Rio.Copa
open Rio.Utf8 Rio.Transducer

/-- Lists that agree up to an index agree up to the next one after the same is put there. -/
theorem take_succ_set {α : Type*} {xs ys : List α} {i : ℕ} (h : xs.take i = ys.take i)
    (hlen : xs.length = ys.length) (x : α) :
    (xs.set i x).take (i + 1) = (ys.set i x).take (i + 1) := by
  rw [List.take_add_one, List.take_add_one, List.take_set_of_le le_rfl,
    List.take_set_of_le le_rfl, h, List.getElem?_set, List.getElem?_set, if_pos rfl, if_pos rfl,
    hlen]

namespace Parser

/-- Two parsers with the same live contents. -/
structure Alike (p q : Parser) : Prop where
  state : p.state = q.state
  intermediates : p.activeIntermediates = q.activeIntermediates
  intermediateIdx : p.intermediateIdx = q.intermediateIdx
  fits : p.intermediates.length = maxIntermediates ∧ q.intermediates.length = maxIntermediates
  params : ∃ groups current, p.params.Holds groups current ∧ q.params.Holds groups current
  param : p.param = q.param
  oscRaw : p.oscRaw = q.oscRaw
  oscNumParams : p.oscNumParams = q.oscNumParams
  oscParams : p.oscParams.take p.oscNumParams = q.oscParams.take q.oscNumParams
  oscFits : p.oscParams.length = maxOscParams ∧ q.oscParams.length = maxOscParams
  oscBound : p.oscNumParams ≤ maxOscParams
  ignoring : p.ignoring = q.ignoring
  partialUtf8 : p.partialUtf8 = q.partialUtf8

variable {p q : Parser}

theorem Alike.isFull (h : p.Alike q) : p.params.isFull = q.params.isFull := by
  obtain ⟨groups, current, hp, hq⟩ := h.params
  unfold Params.isFull
  rw [hp.len, hq.len]

theorem Alike.iter (h : p.Alike q) : p.params.iter = q.params.iter := by
  obtain ⟨groups, current, hp, hq⟩ := h.params
  rw [hp.iter, hq.iter]

theorem Alike.withState (h : p.Alike q) (state : State) :
    Alike { p with state := state } { q with state := state } :=
  { h with state := rfl }

theorem Alike.withCarry (h : p.Alike q) (carry : List UInt8) :
    Alike { p with partialUtf8 := carry } { q with partialUtf8 := carry } :=
  { h with partialUtf8 := rfl }

theorem Alike.resetParams (h : p.Alike q) : p.resetParams.Alike q.resetParams := by
  obtain ⟨groups, current, hp, hq⟩ := h.params
  exact { h with
    intermediates := rfl
    intermediateIdx := rfl
    params := ⟨[], [], hp.clear, hq.clear⟩
    param := rfl
    ignoring := rfl }

theorem Alike.enterEscape (h : p.Alike q) : p.enterEscape.Alike q.enterEscape :=
  h.resetParams.withState .escape

theorem Alike.actionCollect (h : p.Alike q) (b : UInt8) :
    (p.actionCollect b).Alike (q.actionCollect b) := by
  have hidx := h.intermediateIdx
  by_cases hfull : p.intermediateIdx = maxIntermediates
  · unfold Parser.actionCollect
    rw [if_pos hfull, if_pos (hidx.symm.trans hfull)]
    exact { h with ignoring := rfl }
  · unfold Parser.actionCollect
    rw [if_neg hfull, if_neg (fun hq => hfull (hidx.trans hq))]
    refine { h with intermediates := ?_, intermediateIdx := congrArg (· + 1) hidx, fits := ?_ }
    · have htake := h.intermediates
      unfold activeIntermediates at htake ⊢
      dsimp only
      rw [hidx] at htake ⊢
      exact take_succ_set htake (h.fits.1.trans h.fits.2.symm) b
    · exact ⟨(List.length_set ..).trans h.fits.1, (List.length_set ..).trans h.fits.2⟩

theorem Alike.actionSubparam (h : p.Alike q) : p.actionSubparam.Alike q.actionSubparam := by
  unfold Parser.actionSubparam
  rw [h.isFull]
  split_ifs with hfull
  · exact { h with ignoring := rfl }
  · obtain ⟨groups, current, hp, hq⟩ := h.params
    have hq' : q.params.isFull = false := by simpa using hfull
    rw [h.param]
    exact { h with
      params := ⟨_, _, hp.extend (h.isFull.trans hq') _, hq.extend hq' _⟩
      param := rfl }

theorem Alike.actionParam (h : p.Alike q) : p.actionParam.Alike q.actionParam := by
  unfold Parser.actionParam
  rw [h.isFull]
  split_ifs with hfull
  · exact { h with ignoring := rfl }
  · obtain ⟨groups, current, hp, hq⟩ := h.params
    have hq' : q.params.isFull = false := by simpa using hfull
    rw [h.param]
    exact { h with
      params := ⟨_, _, hp.push (h.isFull.trans hq') _, hq.push hq' _⟩
      param := rfl }

theorem Alike.actionParamnext (h : p.Alike q) (b : UInt8) :
    (p.actionParamnext b).Alike (q.actionParamnext b) := by
  unfold Parser.actionParamnext
  rw [h.isFull]
  split_ifs
  · exact { h with ignoring := rfl }
  · rw [h.param]
    exact { h with param := rfl }

theorem Alike.finishParams (h : p.Alike q) : p.finishParams.Alike q.finishParams := by
  unfold Parser.finishParams
  rw [h.isFull]
  split_ifs with hfull
  · exact { h with ignoring := rfl }
  · obtain ⟨groups, current, hp, hq⟩ := h.params
    have hq' : q.params.isFull = false := by simpa using hfull
    exact { h with
      params := ⟨_, _, h.param ▸ hp.push (h.isFull.trans hq') _, hq.push hq' _⟩ }

theorem Alike.clearOsc (h : p.Alike q) : p.clearOsc.Alike q.clearOsc :=
  { h with
    oscRaw := rfl
    oscNumParams := rfl
    oscParams := rfl
    oscBound := Nat.zero_le _ }

theorem Alike.actionOscPut (h : p.Alike q) (b : UInt8) :
    (p.actionOscPut b).Alike (q.actionOscPut b) :=
  { h with oscRaw := congrArg (· ++ [b]) h.oscRaw }

/-- Both record the same boundary. -/
theorem Alike.recordOsc (h : p.Alike q) (hroom : p.oscNumParams < maxOscParams)
    (entry : ℕ × ℕ) :
    Alike { p with
        oscParams := p.oscParams.set p.oscNumParams entry
        oscNumParams := p.oscNumParams + 1 }
      { q with
        oscParams := q.oscParams.set q.oscNumParams entry
        oscNumParams := q.oscNumParams + 1 } := by
  have hnum := h.oscNumParams
  have htake := h.oscParams
  refine { h with
    oscNumParams := congrArg (· + 1) hnum, oscParams := ?_, oscFits := ?_, oscBound := hroom }
  · dsimp only
    rw [hnum] at htake ⊢
    exact take_succ_set htake (h.oscFits.1.trans h.oscFits.2.symm) entry
  · exact ⟨(List.length_set ..).trans h.oscFits.1, (List.length_set ..).trans h.oscFits.2⟩

theorem Alike.actionOscPutParam (h : p.Alike q) :
    p.actionOscPutParam.Alike q.actionOscPutParam := by
  have hbound := h.oscBound
  have hentry (hn : p.oscNumParams ≠ 0) :
      p.oscParams.getD (p.oscNumParams - 1) (0, 0) =
        q.oscParams.getD (p.oscNumParams - 1) (0, 0) := by
    have hget := congrArg (·[p.oscNumParams - 1]?) h.oscParams
    rw [← h.oscNumParams] at hget
    rw [List.getElem?_take_of_lt (by omega), List.getElem?_take_of_lt (by omega)] at hget
    rw [List.getD_eq_getElem?_getD, hget, ← List.getD_eq_getElem?_getD]
  have hraw := congrArg List.length h.oscRaw
  unfold Parser.actionOscPutParam
  dsimp only
  rw [← h.oscNumParams, ← hraw]
  split_ifs with hzero hmax
  · have hrecord := h.recordOsc (by rw [hzero]; decide) (0, p.oscRaw.length)
    rwa [← h.oscNumParams] at hrecord
  · exact h
  · rw [← hentry hzero]
    have hrecord := h.recordOsc (by omega)
      ((p.oscParams.getD (p.oscNumParams - 1) (0, 0)).2, p.oscRaw.length)
    rwa [← h.oscNumParams] at hrecord

theorem Alike.oscSlices (h : p.Alike q) : p.oscSlices = q.oscSlices := by
  unfold Parser.oscSlices
  rw [h.oscParams, h.oscRaw]

/-! ### The transitions -/

/-- The same calls, and parsers alike after them. -/
def AlikeOut {α : Type} (x y : Parser × α) : Prop := x.1.Alike y.1 ∧ x.2 = y.2

private theorem ite_alike {α : Type} {c : Prop} [Decidable c] {x x' y y' : Parser × α}
    (hx : AlikeOut x x') (hy : AlikeOut y y') : AlikeOut (if c then x else y) (if c then x' else y') := by
  split
  · exact hx
  · exact hy

theorem Alike.calls (h : p.Alike q) (calls : List Call) : AlikeOut (p, calls) (q, calls) :=
  ⟨h, rfl⟩

theorem Alike.anywhere (h : p.Alike q) (b : UInt8) : AlikeOut (p.anywhere b) (q.anywhere b) := by
  refine ite_alike ?_ (ite_alike ?_ (h.calls []))
  · exact (h.withState _).calls _
  · exact (h.resetParams.withState _).calls []

theorem Alike.escDispatch (h : p.Alike q) (b : UInt8) :
    AlikeOut (p.escDispatch b) (q.escDispatch b) := by
  refine ⟨h.withState _, ?_⟩
  unfold Parser.escDispatch
  rw [h.intermediates, h.ignoring]

theorem Alike.actionCsiDispatch (h : p.Alike q) (b : UInt8) :
    AlikeOut (p.actionCsiDispatch b) (q.actionCsiDispatch b) := by
  have hfinish := h.finishParams
  refine ⟨hfinish.withState _, ?_⟩
  unfold Parser.actionCsiDispatch
  dsimp only
  rw [hfinish.iter, hfinish.intermediates, hfinish.ignoring]

theorem Alike.actionHook (h : p.Alike q) (b : UInt8) :
    AlikeOut (p.actionHook b) (q.actionHook b) := by
  have hfinish := h.finishParams
  refine ⟨hfinish.withState _, ?_⟩
  unfold Parser.actionHook
  dsimp only
  rw [hfinish.iter, hfinish.intermediates, hfinish.ignoring]

theorem Alike.oscEnd (h : p.Alike q) (b : UInt8) : AlikeOut (p.oscEnd b) (q.oscEnd b) := by
  have hput := h.actionOscPutParam
  refine ⟨hput.clearOsc, ?_⟩
  unfold Parser.oscEnd
  dsimp only
  rw [hput.oscSlices]

theorem Alike.advanceCsi (h : p.Alike q) (b : UInt8) :
    AlikeOut (p.advanceCsiEntry b) (q.advanceCsiEntry b) ∧
      AlikeOut (p.advanceCsiIgnore b) (q.advanceCsiIgnore b) ∧
      AlikeOut (p.advanceCsiIntermediate b) (q.advanceCsiIntermediate b) ∧
      AlikeOut (p.advanceCsiParam b) (q.advanceCsiParam b) := by
  have hcollect := h.actionCollect b
  have hnext := h.actionParamnext b
  refine ⟨?_, ?_, ?_, ?_⟩
  all_goals
    repeat' apply ite_alike
  all_goals
    first
    | exact h.calls _
    | exact (h.withState _).calls _
    | exact hcollect.calls _
    | exact (hcollect.withState _).calls _
    | exact hnext.calls _
    | exact (hnext.withState _).calls _
    | exact h.actionSubparam.calls _
    | exact (h.actionSubparam.withState _).calls _
    | exact h.actionParam.calls _
    | exact (h.actionParam.withState _).calls _
    | exact h.actionCsiDispatch b
    | exact (h.resetParams.withState _).calls _

theorem Alike.advanceDcs (h : p.Alike q) (b : UInt8) :
    AlikeOut (p.advanceDcsEntry b) (q.advanceDcsEntry b) ∧
      AlikeOut (p.advanceDcsIntermediate b) (q.advanceDcsIntermediate b) ∧
      AlikeOut (p.advanceDcsParam b) (q.advanceDcsParam b) ∧
      AlikeOut (p.advanceDcsPassthrough b) (q.advanceDcsPassthrough b) := by
  have hcollect := h.actionCollect b
  have hnext := h.actionParamnext b
  refine ⟨?_, ?_, ?_, ?_⟩
  all_goals
    repeat' apply ite_alike
  all_goals
    first
    | exact h.calls _
    | exact (h.withState _).calls _
    | exact hcollect.calls _
    | exact (hcollect.withState _).calls _
    | exact hnext.calls _
    | exact (hnext.withState _).calls _
    | exact h.actionSubparam.calls _
    | exact (h.actionSubparam.withState _).calls _
    | exact h.actionParam.calls _
    | exact (h.actionParam.withState _).calls _
    | exact h.actionHook b
    | exact (h.resetParams.withState _).calls _

theorem Alike.advanceEsc (h : p.Alike q) (b : UInt8) :
    AlikeOut (p.advanceEsc b) (q.advanceEsc b) ∧
      AlikeOut (p.advanceEscIntermediate b) (q.advanceEscIntermediate b) := by
  have hcollect := h.actionCollect b
  constructor
  all_goals
    repeat' apply ite_alike
  all_goals
    first
    | exact h.calls _
    | exact (h.withState _).calls _
    | exact hcollect.calls _
    | exact (hcollect.withState _).calls _
    | exact h.escDispatch b
    | exact (h.resetParams.withState _).calls _
    | exact (h.clearOsc.withState _).calls _

theorem Alike.advanceOscString (h : p.Alike q) (b : UInt8) :
    AlikeOut (p.advanceOscString b) (q.advanceOscString b) := by
  obtain ⟨hend, hcalls⟩ := h.oscEnd b
  repeat' apply ite_alike
  · exact h.calls []
  · exact ⟨hend.withState _, hcalls⟩
  · exact ⟨hend.withState _, congrArg (· ++ _) hcalls⟩
  · exact ⟨hend.resetParams.withState _, hcalls⟩
  · exact h.actionOscPutParam.calls []
  · exact (h.actionOscPut b).calls []

theorem Alike.advanceApcString (h : p.Alike q) (b : UInt8) :
    AlikeOut (p.advanceApcString b) (q.advanceApcString b) := by
  have hput : (p.actionApcPut b).1.Alike (q.actionApcPut b).1 := h.actionOscPut b
  repeat' apply ite_alike
  · exact h.calls []
  · exact (h.clearOsc.withState _).calls _
  · exact (hput.clearOsc.withState _).calls _
  · exact (h.clearOsc.withState _).calls _
  · exact hput.actionOscPutParam.calls _
  · exact hput.calls _

theorem Alike.advanceOpaqueString (h : p.Alike q) (put : UInt8 → Call) (fin : Call) (b : UInt8) :
    AlikeOut (advanceOpaqueString put fin p b) (advanceOpaqueString put fin q b) := by
  repeat' apply ite_alike
  · exact (h.withState _).calls _
  · exact (h.withState _).calls _
  · exact (h.withState _).calls _
  · exact h.calls _
  · exact h.calls []

theorem Alike.changeState (h : p.Alike q) (b : UInt8) :
    AlikeOut (p.changeState b) (q.changeState b) := by
  obtain ⟨hce, hci, hcm, hcp⟩ := h.advanceCsi b
  obtain ⟨hde, hdm, hdp, hdt⟩ := h.advanceDcs b
  obtain ⟨he, hei⟩ := h.advanceEsc b
  unfold Parser.changeState
  rw [← h.state]
  split
  · exact hce
  · exact hci
  · exact hcm
  · exact hcp
  · exact hde
  · exact h.anywhere b
  · exact hdm
  · exact hdp
  · exact hdt
  · exact he
  · exact hei
  · exact h.advanceOscString b
  · exact h.advanceOpaqueString .sosPut .sosEnd b
  · exact h.advanceApcString b
  · exact h.advanceOpaqueString .pmPut .pmEnd b
  · exact h.calls []

/-! ### Reads -/

theorem Alike.advanceGround (h : p.Alike q) (bytes : List UInt8) :
    AlikeOut (p.advanceGround bytes) (q.advanceGround bytes) := by
  refine ite_alike ⟨h.enterEscape, rfl⟩ ?_
  dsimp only
  split
  · exact ite_alike ⟨h.enterEscape, rfl⟩ ⟨h, rfl⟩
  · exact ⟨h, rfl⟩
  · rw [h.partialUtf8]
    exact ite_alike ⟨h.enterEscape, rfl⟩ ⟨h.withCarry _, rfl⟩

theorem Alike.advancePartialUtf8 (h : p.Alike q) (bytes : List UInt8) :
    AlikeOut (p.advancePartialUtf8 bytes) (q.advancePartialUtf8 bytes) := by
  unfold Parser.advancePartialUtf8
  dsimp only
  rw [h.partialUtf8]
  split
  · exact ⟨h.withCarry _, rfl⟩
  refine ite_alike ⟨h.withCarry _, rfl⟩ ?_
  split
  · exact ⟨h.withCarry _, rfl⟩
  · exact ⟨h.withCarry _, rfl⟩

theorem AlikeOut.emit {calls : List Call} {x y : Out} (h : AlikeOut x y) :
    AlikeOut (emit calls x) (emit calls y) := ⟨h.1, congrArg (calls ++ ·) h.2⟩

theorem Alike.advanceLoop (fuel : ℕ) (h : p.Alike q) (bytes : List UInt8) :
    AlikeOut (advanceLoop fuel p bytes) (advanceLoop fuel q bytes) := by
  induction fuel generalizing p q bytes with
  | zero => exact h.calls []
  | succ fuel ih =>
    rcases bytes with _ | ⟨b, bs⟩
    · exact h.calls []
    rw [Parser.advanceLoop, Parser.advanceLoop, ← h.state]
    split_ifs with hground
    · obtain ⟨hnext, hcalls⟩ := h.advanceGround (b :: bs)
      dsimp only
      rw [hcalls]
      exact (ih hnext _).emit
    · obtain ⟨hnext, hcalls⟩ := h.changeState b
      dsimp only
      rw [hcalls]
      exact (ih hnext _).emit

theorem Alike.advance (h : p.Alike q) (bytes : List UInt8) :
    AlikeOut (p.advance bytes) (q.advance bytes) := by
  unfold Parser.advance
  rw [← h.partialUtf8]
  split_ifs with hcarry
  · obtain ⟨hnext, hcalls⟩ := h.advancePartialUtf8 bytes
    dsimp only
    rw [hcalls]
    exact (hnext.advanceLoop _ _).emit
  · exact h.advanceLoop _ bytes

theorem Alike.run_advance (h : p.Alike q) (reads : List (List UInt8)) :
    AlikeOut (run Parser.advance p reads) (run Parser.advance q reads) := by
  induction reads generalizing p q with
  | nil => exact h.calls []
  | cons bytes reads ih =>
    obtain ⟨hnext, hcalls⟩ := h.advance bytes
    rw [run_cons, run_cons, hcalls]
    exact (ih hnext).emit

/-! ### What an escape character leaves -/

/-- Nothing of a control sequence has been collected. -/
structure Reset (p : Parser) : Prop where
  intermediateIdx : p.intermediateIdx = 0
  params : p.params.len = 0 ∧ p.params.currentSubparams = 0
  param : p.param = 0
  ignoring : p.ignoring = false

/-- The states that come right after an escape character, without parameters of their own. -/
def afterEscape : State → Bool
  | .escape | .oscString | .sosString | .apcString | .pmString => true
  | _ => false

/-- The states that gather bytes of a string. -/
def gathers : State → Bool
  | .oscString | .apcString => true
  | _ => false

/-- Nothing is left of a string, and nothing is collected where an escape character came last. -/
structure Tidy (p : Parser) : Prop where
  fits : p.intermediates.length = maxIntermediates
  reset : afterEscape p.state = true → p.Reset
  idle : gathers p.state = false → p.oscRaw = [] ∧ p.oscNumParams = 0

theorem new_tidy : new.Tidy := ⟨rfl, fun h => absurd h (by decide), fun _ => ⟨rfl, rfl⟩⟩

theorem Reset.holds (h : p.Reset) (hcollects : p.Collects) : p.params.Holds [] [] := by
  obtain ⟨groups, current, hholds⟩ := hcollects.params
  obtain ⟨hlen, hcount⟩ := h.params
  have hclear : p.params.clear = p.params := by
    unfold Params.clear
    rw [← hlen]
    nth_rewrite 1 [hlen, ← hcount]
    rfl
  rw [← hclear]
  exact hholds.clear

/-- Parsers of which nothing is live but the state are alike. -/
theorem Reset.alike (hp : p.Collects) (hq : q.Collects) (htidy : p.Tidy) (htidy' : q.Tidy)
    (hreset : p.Reset) (hreset' : q.Reset) (hstate : p.state = q.state)
    (hidle : gathers p.state = false) (hcarry : p.partialUtf8 = q.partialUtf8) : p.Alike q := by
  obtain ⟨hraw, hnum⟩ := htidy.idle hidle
  obtain ⟨hraw', hnum'⟩ := htidy'.idle (hstate ▸ hidle)
  refine ⟨hstate, ?_, hreset.intermediateIdx.trans hreset'.intermediateIdx.symm,
    ⟨htidy.fits, htidy'.fits⟩, ⟨[], [], hreset.holds hp, hreset'.holds hq⟩,
    hreset.param.trans hreset'.param.symm, hraw.trans hraw'.symm, hnum.trans hnum'.symm, ?_,
    ⟨hp.oscParams, hq.oscParams⟩, hp.oscNumParams,
    hreset.ignoring.trans hreset'.ignoring.symm, hcarry⟩
  · unfold activeIntermediates
    rw [hreset.intermediateIdx, hreset'.intermediateIdx]
    rfl
  · rw [hnum, hnum']
    rfl

/-- Nothing is left of a string. -/
structure Idle (p : Parser) : Prop where
  fits : p.intermediates.length = maxIntermediates
  oscRaw : p.oscRaw = []
  oscNumParams : p.oscNumParams = 0

theorem Tidy.toIdle (h : p.Tidy) (hstate : gathers p.state = false) : p.Idle :=
  ⟨h.fits, (h.idle hstate).1, (h.idle hstate).2⟩

theorem Idle.actionCollect (h : p.Idle) (b : UInt8) : (p.actionCollect b).Idle := by
  unfold Parser.actionCollect
  split_ifs
  · exact ⟨h.fits, h.oscRaw, h.oscNumParams⟩
  · exact ⟨(List.length_set ..).trans h.fits, h.oscRaw, h.oscNumParams⟩

theorem Idle.actionParamnext (h : p.Idle) (b : UInt8) : (p.actionParamnext b).Idle := by
  unfold Parser.actionParamnext
  split_ifs <;> exact ⟨h.fits, h.oscRaw, h.oscNumParams⟩

theorem Idle.actionSubparam (h : p.Idle) : p.actionSubparam.Idle := by
  unfold Parser.actionSubparam
  split_ifs <;> exact ⟨h.fits, h.oscRaw, h.oscNumParams⟩

theorem Idle.actionParam (h : p.Idle) : p.actionParam.Idle := by
  unfold Parser.actionParam
  split_ifs <;> exact ⟨h.fits, h.oscRaw, h.oscNumParams⟩

theorem Idle.finishParams (h : p.Idle) : p.finishParams.Idle := by
  unfold Parser.finishParams
  split_ifs <;> exact ⟨h.fits, h.oscRaw, h.oscNumParams⟩

theorem Idle.resetParams (h : p.Idle) : p.resetParams.Idle := ⟨h.fits, h.oscRaw, h.oscNumParams⟩

theorem Idle.tidy (h : p.Idle) (hstate : afterEscape p.state = false) : p.Tidy :=
  ⟨h.fits, fun hescape => absurd (hstate.symm.trans hescape) Bool.false_ne_true,
    fun _ => ⟨h.oscRaw, h.oscNumParams⟩⟩

theorem Idle.withState (h : p.Idle) {state : State} (hstate : afterEscape state = false) :
    Tidy { p with state := state } :=
  Idle.tidy ⟨h.fits, h.oscRaw, h.oscNumParams⟩ hstate

theorem Idle.enterEscape (h : p.Idle) : p.enterEscape.Tidy :=
  ⟨h.fits, fun _ => ⟨rfl, ⟨rfl, rfl⟩, rfl, rfl⟩, fun _ => ⟨h.oscRaw, h.oscNumParams⟩⟩

theorem clearOsc_idle (p : Parser) (hfits : p.intermediates.length = maxIntermediates) :
    p.clearOsc.Idle := ⟨hfits, rfl, rfl⟩

theorem Reset.clearOsc (h : p.Reset) : p.clearOsc.Reset :=
  ⟨h.intermediateIdx, h.params, h.param, h.ignoring⟩

/-- Of a parser that has collected nothing, only the state changes. -/
theorem Idle.escaped (h : p.Idle) (hreset : p.Reset) (state : State) :
    Tidy { p with state := state } :=
  ⟨h.fits, fun _ => ⟨hreset.intermediateIdx, hreset.params, hreset.param, hreset.ignoring⟩,
    fun _ => ⟨h.oscRaw, h.oscNumParams⟩⟩

private theorem ite_tidy {c : Prop} [Decidable c] {x y : Out} (hx : x.1.Tidy) (hy : y.1.Tidy) :
    (if c then x else y).1.Tidy := by
  split
  · exact hx
  · exact hy

theorem Tidy.anywhere (h : p.Tidy) (hgathers : gathers p.state = false) (b : UInt8) :
    (p.anywhere b).1.Tidy := by
  have hidle := h.toIdle hgathers
  refine ite_tidy ?_ (ite_tidy ?_ h)
  · exact hidle.withState rfl
  · exact hidle.enterEscape

theorem Tidy.advanceCsi (h : p.Tidy) (hgathers : gathers p.state = false)
    (hescape : afterEscape p.state = false) (b : UInt8) :
    (p.advanceCsiEntry b).1.Tidy ∧ (p.advanceCsiIgnore b).1.Tidy ∧
      (p.advanceCsiIntermediate b).1.Tidy ∧ (p.advanceCsiParam b).1.Tidy := by
  have hidle := h.toIdle hgathers
  have hcollect := hidle.actionCollect b
  have hnext := hidle.actionParamnext b
  refine ⟨?_, ?_, ?_, ?_⟩
  all_goals
    repeat' apply ite_tidy
  all_goals
    first
    | exact h
    | exact hidle.withState rfl
    | exact hcollect.withState rfl
    | exact hcollect.tidy ((congrArg _ (actionCollect_state p b)).trans hescape)
    | exact hnext.withState rfl
    | exact hnext.tidy ((congrArg _ (actionParamnext_state p b)).trans hescape)
    | exact hidle.actionSubparam.withState rfl
    | exact hidle.actionSubparam.tidy ((congrArg _ (actionSubparam_state p)).trans hescape)
    | exact hidle.actionParam.withState rfl
    | exact hidle.actionParam.tidy ((congrArg _ (actionParam_state p)).trans hescape)
    | exact hidle.finishParams.withState rfl
    | exact hidle.enterEscape

theorem Tidy.advanceDcs (h : p.Tidy) (hgathers : gathers p.state = false)
    (hescape : afterEscape p.state = false) (b : UInt8) :
    (p.advanceDcsEntry b).1.Tidy ∧ (p.advanceDcsIntermediate b).1.Tidy ∧
      (p.advanceDcsParam b).1.Tidy ∧ (p.advanceDcsPassthrough b).1.Tidy := by
  have hidle := h.toIdle hgathers
  have hcollect := hidle.actionCollect b
  have hnext := hidle.actionParamnext b
  refine ⟨?_, ?_, ?_, ?_⟩
  all_goals
    repeat' apply ite_tidy
  all_goals
    first
    | exact h
    | exact hidle.withState rfl
    | exact hcollect.withState rfl
    | exact hcollect.tidy ((congrArg _ (actionCollect_state p b)).trans hescape)
    | exact hnext.withState rfl
    | exact hnext.tidy ((congrArg _ (actionParamnext_state p b)).trans hescape)
    | exact hidle.actionSubparam.withState rfl
    | exact hidle.actionSubparam.tidy ((congrArg _ (actionSubparam_state p)).trans hescape)
    | exact hidle.actionParam.withState rfl
    | exact hidle.actionParam.tidy ((congrArg _ (actionParam_state p)).trans hescape)
    | exact hidle.finishParams.withState rfl
    | exact hidle.enterEscape

theorem Tidy.advanceEsc (h : p.Tidy) (hstate : p.state = .escape) (b : UInt8) :
    (p.advanceEsc b).1.Tidy := by
  have hidle := h.toIdle (by rw [hstate]; rfl)
  have hreset := h.reset (by rw [hstate]; rfl)
  have hcollect := hidle.actionCollect b
  have hclear := p.clearOsc_idle hidle.fits
  have hreset' := hreset.clearOsc
  repeat' apply ite_tidy
  all_goals
    first
    | exact h
    | exact hidle.withState rfl
    | exact hcollect.withState rfl
    | exact hidle.resetParams.withState rfl
    | exact hidle.escaped hreset _
    | exact hclear.escaped hreset' .oscString

theorem Tidy.advanceEscIntermediate (h : p.Tidy) (hstate : p.state = .escapeIntermediate)
    (b : UInt8) : (p.advanceEscIntermediate b).1.Tidy := by
  have hidle := h.toIdle (by rw [hstate]; rfl)
  have hcollect := hidle.actionCollect b
  repeat' apply ite_tidy
  all_goals
    first
    | exact h
    | exact hidle.withState rfl
    | exact hcollect.tidy (by rw [actionCollect_state, hstate]; rfl)
    | exact hidle.enterEscape

theorem actionOscPutParam_keeps (p : Parser) :
    p.actionOscPutParam.intermediates = p.intermediates ∧
      (p.Reset → p.actionOscPutParam.Reset) := by
  unfold Parser.actionOscPutParam
  dsimp only
  split_ifs
  · exact ⟨rfl, fun h => ⟨h.intermediateIdx, h.params, h.param, h.ignoring⟩⟩
  · exact ⟨rfl, id⟩
  · exact ⟨rfl, fun h => ⟨h.intermediateIdx, h.params, h.param, h.ignoring⟩⟩

/-- A string goes on. -/
theorem Tidy.gather (hfits : p.intermediates.length = maxIntermediates) (hreset : p.Reset)
    (hgathers : gathers p.state = true) : p.Tidy :=
  ⟨hfits, fun _ => hreset, fun hidle => absurd (hidle.symm.trans hgathers) Bool.false_ne_true⟩

theorem Tidy.advanceOscString (h : p.Tidy) (hstate : p.state = .oscString) (b : UInt8) :
    (p.advanceOscString b).1.Tidy := by
  have hreset := h.reset (by rw [hstate]; rfl)
  obtain ⟨hput, hputReset⟩ := p.actionOscPutParam_keeps
  have hend : (p.oscEnd b).1.Idle :=
    p.actionOscPutParam.clearOsc_idle ((congrArg List.length hput).trans h.fits)
  repeat' apply ite_tidy
  · exact h
  · exact hend.withState rfl
  · exact hend.withState rfl
  · exact hend.enterEscape
  · exact Tidy.gather ((congrArg List.length hput).trans h.fits) (hputReset hreset)
      (by rw [actionOscPutParam_state, hstate]; rfl)
  · exact Tidy.gather h.fits ⟨hreset.intermediateIdx, hreset.params, hreset.param, hreset.ignoring⟩
      ((congrArg gathers hstate).trans rfl)

theorem Tidy.advanceApcString (h : p.Tidy) (hstate : p.state = .apcString) (b : UInt8) :
    (p.advanceApcString b).1.Tidy := by
  have hreset := h.reset (by rw [hstate]; rfl)
  have hclear := p.clearOsc_idle h.fits
  have hgathers : gathers (p.actionApcPut b).1.state = true := (congrArg gathers hstate).trans rfl
  have hputs : (p.actionApcPut b).1.Reset :=
    ⟨hreset.intermediateIdx, hreset.params, hreset.param, hreset.ignoring⟩
  obtain ⟨hput, hputReset⟩ := (p.actionApcPut b).1.actionOscPutParam_keeps
  repeat' apply ite_tidy
  · exact h
  · exact hclear.withState rfl
  · exact ((p.actionApcPut b).1.clearOsc_idle h.fits).withState rfl
  · exact hclear.escaped hreset.clearOsc .escape
  · exact Tidy.gather ((congrArg List.length hput).trans h.fits) (hputReset hputs)
      (by rw [actionOscPutParam_state, hgathers])
  · exact Tidy.gather h.fits hputs hgathers

theorem Tidy.advanceOpaqueString (h : p.Tidy) (hgathers : gathers p.state = false)
    (hescape : afterEscape p.state = true) (put : UInt8 → Call) (fin : Call) (b : UInt8) :
    (advanceOpaqueString put fin p b).1.Tidy := by
  have hidle := h.toIdle hgathers
  repeat' apply ite_tidy
  · exact hidle.withState rfl
  · exact hidle.withState rfl
  · exact hidle.escaped (h.reset hescape) .escape
  · exact h
  · exact h

theorem Tidy.changeState (h : p.Tidy) (b : UInt8) : (p.changeState b).1.Tidy := by
  have hplain {state : State} (hstate : p.state = state) (hgathers : gathers state = false)
      (hescape : afterEscape state = false) :=
    And.intro (h.advanceCsi (hstate ▸ hgathers) (hstate ▸ hescape) b)
      (h.advanceDcs (hstate ▸ hgathers) (hstate ▸ hescape) b)
  unfold Parser.changeState
  split
  next hstate => exact (hplain hstate rfl rfl).1.1
  next hstate => exact (hplain hstate rfl rfl).1.2.1
  next hstate => exact (hplain hstate rfl rfl).1.2.2.1
  next hstate => exact (hplain hstate rfl rfl).1.2.2.2
  next hstate => exact (hplain hstate rfl rfl).2.1
  next hstate => exact h.anywhere (by rw [hstate]; rfl) b
  next hstate => exact (hplain hstate rfl rfl).2.2.1
  next hstate => exact (hplain hstate rfl rfl).2.2.2.1
  next hstate => exact (hplain hstate rfl rfl).2.2.2.2
  next hstate => exact h.advanceEsc hstate b
  next hstate => exact h.advanceEscIntermediate hstate b
  next hstate => exact h.advanceOscString hstate b
  next hstate => exact h.advanceOpaqueString (by rw [hstate]; rfl) (by rw [hstate]; rfl) _ _ b
  next hstate => exact h.advanceApcString hstate b
  next hstate => exact h.advanceOpaqueString (by rw [hstate]; rfl) (by rw [hstate]; rfl) _ _ b
  next hstate => exact h

theorem Tidy.advanceGround (h : p.Tidy) (hground : p.state = .ground) (bytes : List UInt8) :
    (p.advanceGround bytes).1.Tidy := by
  have hidle := h.toIdle (by rw [hground]; rfl)
  have hescape := hidle.enterEscape
  have hcarry (carry : List UInt8) : Tidy { p with partialUtf8 := carry } :=
    Idle.tidy ⟨hidle.fits, hidle.oscRaw, hidle.oscNumParams⟩ ((congrArg _ hground).trans rfl)
  unfold Parser.advanceGround
  dsimp only
  split
  · exact hescape
  split
  · split
    · exact hescape
    · exact h
  · exact h
  · split
    · exact hescape
    · exact hcarry _

theorem Tidy.advancePartialUtf8 (h : p.Tidy) (bytes : List UInt8) :
    (p.advancePartialUtf8 bytes).1.Tidy := by
  have hcarry (carry : List UInt8) : Tidy { p with partialUtf8 := carry } :=
    ⟨h.fits, fun hescape => ⟨(h.reset hescape).intermediateIdx, (h.reset hescape).params,
      (h.reset hescape).param, (h.reset hescape).ignoring⟩, h.idle⟩
  unfold Parser.advancePartialUtf8
  dsimp only
  split
  · exact hcarry _
  split
  · exact hcarry _
  split
  · exact hcarry _
  · exact hcarry _

theorem Tidy.advanceLoop (fuel : ℕ) (h : p.Tidy) (bytes : List UInt8) :
    (advanceLoop fuel p bytes).1.Tidy := by
  induction fuel generalizing p bytes with
  | zero => exact h
  | succ fuel ih =>
    rcases bytes with _ | ⟨b, bs⟩
    · exact h
    rw [Parser.advanceLoop]
    split
    next hground => exact ih (h.advanceGround hground _) _
    next => exact ih (h.changeState b) _

theorem Tidy.advance (h : p.Tidy) (bytes : List UInt8) : (p.advance bytes).1.Tidy := by
  unfold Parser.advance
  split
  · exact (h.advancePartialUtf8 bytes).advanceLoop _ _
  · exact h.advanceLoop _ _

/-! ### Sequences -/

/-- A read is made of a carry fault, or read as by the byte machine from somewhere on. -/
theorem advance_eq_drop (hp : p.WellFormed) (bytes : List UInt8) :
    ∃ calls q k, q.WellFormed ∧ p.advance bytes = emit calls (run stepByte q (bytes.drop k)) := by
  by_cases hne : p.partialUtf8 = []
  · exact ⟨[], p, 0, hp, advance_eq_run hp (by simp [carryFault, hne])⟩
  · cases h : head (p.partialUtf8 ++ bytes) with
    | incomplete => exact ⟨[], p, 0, hp, (advance_carry_incomplete hp hne h).1⟩
    | invalid n => exact ⟨[], p, 0, hp, advance_carry_invalid hp hne h⟩
    | char c n => exact ⟨_, _, _, wellFormed_of_nil rfl, advance_carry_char hp hne h⟩

theorem advance_wellFormed (hp : p.WellFormed) (bytes : List UInt8) :
    (p.advance bytes).1.WellFormed := by
  obtain ⟨calls, q, k, hq, heq⟩ := advance_eq_drop hp bytes
  rw [heq]
  exact run_stepByte_wellFormed _ hq

/-- What holds of a parser between two reads. -/
structure Settled (p : Parser) : Prop where
  wellFormed : p.WellFormed
  collects : p.Collects
  tidy : p.Tidy

theorem new_settled : new.Settled := ⟨new_wellFormed, new_collects, new_tidy⟩

theorem Settled.advance (h : p.Settled) (bytes : List UInt8) : (p.advance bytes).1.Settled :=
  ⟨advance_wellFormed h.wellFormed bytes, (h.collects.advance bytes).1, h.tidy.advance bytes⟩

theorem Settled.run_advance (h : p.Settled) (reads : List (List UInt8)) :
    (run Parser.advance p reads).1.Settled := by
  induction reads generalizing p with
  | nil => exact h
  | cons bytes reads ih => exact ih (h.advance bytes)

/-- The calls an escape character makes: what it breaks off is closed. -/
def closing (p : Parser) : List Call :=
  match p.state with
  | .ground => flushCalls p.partialUtf8
  | .dcsPassthrough => [.unhook]
  | .oscString => (p.oscEnd 0x1B).2
  | .sosString => [.sosEnd]
  | .apcString => [.apcEnd]
  | .pmString => [.pmEnd]
  | _ => []

theorem changeState_escape (p : Parser) (h : p.state ≠ .ground) :
    (p.changeState 0x1B).1.state = .escape ∧ (p.changeState 0x1B).2 = p.closing := by
  unfold closing changeState
  cases hstate : p.state
  case ground => exact absurd hstate h
  all_goals exact ⟨by first | rfl | exact hstate, rfl⟩

/-- An escape character leaves every parser like a new one. -/
theorem stepByte_escape (h : p.Settled) :
    (p.stepByte 0x1B).1.Alike new.enterEscape ∧ (p.stepByte 0x1B).2 = p.closing := by
  have hnew : new.enterEscape.Tidy := (new_tidy.toIdle rfl).enterEscape
  have hnew' : new.enterEscape.Reset := ⟨rfl, ⟨rfl, rfl⟩, rfl, rfl⟩
  have hcollects : new.enterEscape.Collects := new_collects.resetParams.withState _
  by_cases hground : p.state = .ground
  · have hstep : p.stepByte 0x1B =
        ({ p with partialUtf8 := [] }.enterEscape, flushCalls p.partialUtf8) := by
      rw [stepByte, if_pos hground, if_pos rfl]
    have hidle := h.tidy.toIdle (by rw [hground]; rfl)
    have htidy : { p with partialUtf8 := [] }.enterEscape.Tidy :=
      Idle.enterEscape ⟨hidle.fits, hidle.oscRaw, hidle.oscNumParams⟩
    have hcollects' : { p with partialUtf8 := [] }.enterEscape.Collects :=
      ⟨h.collects.params.clear, h.collects.oscParams, h.collects.oscNumParams⟩
    rw [hstep]
    refine ⟨Reset.alike hcollects' hcollects htidy hnew (htidy.reset rfl) hnew' rfl rfl rfl, ?_⟩
    unfold closing
    rw [hground]
  · have hstep : p.stepByte 0x1B = p.changeState 0x1B := by rw [stepByte, if_neg hground]
    obtain ⟨hstate, hcalls⟩ := changeState_escape p hground
    have htidy := h.tidy.changeState 0x1B
    have hcarry : p.partialUtf8 = [] := by
      by_contra hne
      exact hground (h.wellFormed.ground hne)
    rw [hstep]
    refine ⟨Reset.alike (h.collects.changeState 0x1B).1 hcollects htidy hnew
      (htidy.reset (by rw [hstate]; rfl)) hnew' hstate (by rw [hstate]; rfl) ?_, hcalls⟩
    rw [changeState_partialUtf8, hcarry]
    rfl

/-- Behind an unfinished character, an escape character is not part of it. -/
theorem head_escape {carry : List UInt8} (hne : carry ≠ []) (hcarry : head carry = .incomplete)
    (rest : List UInt8) : head (carry ++ 0x1B :: rest) = .invalid carry.length := by
  have hbreak : head (carry ++ [0x1B]) = .invalid carry.length := by
    by_contra hopen
    exact absurd (head_concat_ge hne hcarry hopen) (by decide)
  rw [← List.singleton_append, ← List.append_assoc]
  exact head_append_invalid hbreak rest

theorem losesByte_escape (carry text rest : List UInt8)
    (hrest : ∀ b ∈ rest.head?, b < 0x80) :
    losesByte carry (text ++ 0x1B :: rest) = losesByte carry text := by
  rcases carry with _ | ⟨b0, _ | ⟨b1, carry⟩⟩
  · rfl
  · rcases text with _ | ⟨b1, _ | ⟨a, _ | ⟨x, text⟩⟩⟩
    · rcases rest with _ | ⟨y, _ | ⟨z, rest⟩⟩
      · rfl
      · rfl
      · simp only [losesByte, List.nil_append]
        have hcont : isCont 0x1B = false := by decide
        rw [hcont, Bool.and_false, Bool.false_and, Bool.false_and]
    · rcases rest with _ | ⟨y, rest⟩
      · rfl
      · have hy := hrest y rfl
        have hlow : decide (0x80 ≤ y) = false := decide_eq_false (UInt8.not_le.mpr hy)
        simp only [losesByte, List.cons_append, List.nil_append]
        rw [hlow, Bool.and_false]
    · simp only [losesByte, List.cons_append, List.nil_append]
      rw [show decide ((0x80 : UInt8) ≤ 0x1B) = false by decide, Bool.and_false]
    · rfl
  · rfl

/-- A read up to an escape character is a read of its own. -/
theorem advance_escape (hp : p.WellFormed) (text rest : List UInt8)
    (hrest : ∀ b ∈ rest.head?, b < 0x80) :
    p.advance (text ++ 0x1B :: rest) =
      emit (p.advance text).2 (run stepByte (p.advance text).1 (0x1B :: rest)) := by
  have hplain (hwhole : p.carryFault (text ++ 0x1B :: rest) = false)
      (htext : p.carryFault text = false) : p.advance (text ++ 0x1B :: rest) =
        emit (p.advance text).2 (run stepByte (p.advance text).1 (0x1B :: rest)) := by
    rw [advance_eq_run hp hwhole, advance_eq_run hp htext, run_append]
  by_cases hne : p.partialUtf8 = []
  · exact hplain (by simp [carryFault, hne]) (by simp [carryFault, hne])
  have hlose := losesByte_escape p.partialUtf8 text rest hrest
  cases h : head (p.partialUtf8 ++ text) with
  | incomplete =>
    have hbreak := head_escape (by simp [hne]) h rest
    rw [List.append_assoc] at hbreak
    rw [advance_carry_invalid hp hne hbreak, (advance_carry_incomplete hp hne h).1, run_append]
  | invalid n =>
    have hwhole := head_append_invalid h (0x1B :: rest)
    rw [List.append_assoc] at hwhole
    rw [advance_carry_invalid hp hne hwhole, advance_carry_invalid hp hne h, run_append]
  | char c n =>
    have hwhole := head_append_char h (0x1B :: rest)
    rw [List.append_assoc] at hwhole
    have hn := (head_char_le h).2
    rw [List.length_append] at hn
    have hlost : n - p.partialUtf8.length + (if losesByte p.partialUtf8 text then 1 else 0) ≤
        text.length := by
      cases hfault : losesByte p.partialUtf8 text with
      | false => exact Nat.sub_le_iff_le_add'.mpr hn
      | true =>
        obtain ⟨b0, b1, a, x, text', hcarry, rfl, hwidth, -⟩ := losesByte_shape hfault
        rw [hcarry] at h ⊢
        have htwo := (head_char_width h).trans hwidth
        rw [htwo]
        simp
    rw [advance_carry_char hp hne hwhole, advance_carry_char hp hne h, hlose,
      List.drop_append_of_le_length hlost, run_append]
    rfl

/-- Whatever was read before, complete or broken off, what begins with an escape character is
read as by a new parser, behind the calls that close what the escape character breaks off. -/
theorem run_advance_escape (h : p.Settled) (text rest : List UInt8) (later : List (List UInt8))
    (hrest : ∀ b ∈ rest.head?, b < 0x80) :
    (run advance p ((text ++ 0x1B :: rest) :: later)).2 =
      (p.advance text).2 ++ (p.advance text).1.closing ++
        (run advance new ((0x1B :: rest) :: later)).2 := by
  obtain ⟨halike, hclosing⟩ := stepByte_escape (h.advance text)
  have hnil : (stepByte (p.advance text).1 0x1B).1.partialUtf8 = [] := halike.partialUtf8
  have hread (q : Parser) (hq : q.partialUtf8 = []) : run stepByte q rest = q.advance rest :=
    (advance_eq_run (wellFormed_of_nil hq) (by simp [carryFault, hq])).symm
  have hnew : new.advance (0x1B :: rest) = new.enterEscape.advance rest := by
    rw [advance_eq_run new_wellFormed rfl, run_cons, ← hread _ rfl]
    rfl
  obtain ⟨hnext, hcalls⟩ := halike.advance rest
  rw [run_cons, run_cons, advance_escape h.wellFormed text rest hrest, run_cons, hread _ hnil,
    hnew, hclosing]
  obtain ⟨-, hlater⟩ := hnext.run_advance later
  simp only [emit] at hlater ⊢
  rw [hcalls, hlater]
  simp only [List.append_assoc]

end Parser
end Rio.Copa
