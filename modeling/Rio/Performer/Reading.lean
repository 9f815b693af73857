import Rio.Performer.Sync

/-! Reading from the PTY: what is read waits until the terminal can be locked, and is then parsed.
The parser gets what the PTY gave. -/

set_option linter.dupNamespace false

namespace Rio.Performer.PtyRead
open Rio.Copa Rio.Performer.Sync

def readBufferSize : ℕ := 0x100000

/-- Max bytes to read from the PTY while the terminal is locked. -/
def maxLockedRead : ℕ := 65535

/-- The outcome of a read: the PTY gives these bytes, or as many of them as there is room for; or
none, with an error. -/
inductive Outcome
  | ok (bytes : List UInt8)
  | interrupted
  | wouldBlock
  | failed
  deriving DecidableEq, Repr

/-- One turn of the loop: what the read returns, and whether another thread has the terminal
locked. -/
structure Turn where
  outcome : Outcome
  contended : Bool
  deriving DecidableEq, Repr

inductive Status
  | done
  | failed
  /-- The loop goes on. -/
  | running
  deriving DecidableEq, Repr

/-- The locals of `pty_read`, with the processor and all bytes that the PTY has given. -/
structure Local where
  processor : Processor
  /-- `buf[..unprocessed]`. -/
  unprocessed : List UInt8 := []
  processed : ℕ := 0
  /-- The terminal is locked. -/
  locked : Bool := false
  given : List UInt8 := []
  effects : List Effect := []
  status : Status := .running
  deriving DecidableEq, Repr

namespace Local

/-- What a read adds to the buffer. -/
def received (s : Local) : Outcome → List UInt8
  | .ok bytes => bytes.take (readBufferSize - s.unprocessed.length)
  | .interrupted | .wouldBlock | .failed => []

/-- The part of the loop before the lock. -/
def receive (s : Local) (outcome : Outcome) : Local :=
  let got := s.received outcome
  if outcome = .failed then { s with status := .failed }
  else if s.unprocessed = [] ∧ got = [] then { s with status := .done }
  else { s with unprocessed := s.unprocessed ++ got, given := s.given ++ got }

/-- The terminal is locked, can be locked, or is waited for because the buffer is full. -/
def locks (s : Local) (contended : Bool) : Bool :=
  s.locked || !contended || decide (readBufferSize ≤ s.unprocessed.length)

/-- Parse the incoming bytes. -/
def parse (s : Local) : Local :=
  let r := s.processor.advance s.unprocessed
  let processed := s.processed + s.unprocessed.length
  { s with
    processor := r.1
    unprocessed := []
    processed := processed
    locked := true
    effects := s.effects ++ r.2
    status := if maxLockedRead ≤ processed then .done else .running }

def turn (s : Local) (t : Turn) : Local :=
  let s := s.receive t.outcome
  if s.status = .running ∧ s.locks t.contended = true then s.parse else s

/-- Turns until one ends the loop. -/
def loop : List Turn → Local → Local
  | [], s => s
  | t :: ts, s =>
    let s := s.turn t
    if s.status = .running then loop ts s else s

end Local

def ptyRead (p : Processor) (turns : List Turn) : Local := Local.loop turns { processor := p }

/-- Whether the renderer is to be told of damage, if the terminal has any. -/
def notifies (s : Local) : Bool :=
  decide (s.processor.buffer.length < s.processed) && decide (0 < s.processed)

/-- What the event loop does with the processor. -/
inductive Event
  /-- The PTY is readable. -/
  | readable (turns : List Turn)
  /-- The timeout of a synchronized update is reached. -/
  | timeout
  deriving DecidableEq, Repr

/-- The processor, all bytes that the PTY has given, and what was done to the terminal. -/
structure Session where
  processor : Processor := {}
  given : List UInt8 := []
  effects : List Effect := []
  deriving DecidableEq, Repr

def Session.step (s : Session) : Event → Session
  | .readable turns =>
    let r := ptyRead s.processor turns
    { processor := r.processor, given := s.given ++ r.given, effects := s.effects ++ r.effects }
  | .timeout =>
    let r := s.processor.stopSync
    { s with processor := r.1, effects := s.effects ++ r.2 }

def run (events : List Event) : Session := events.foldl Session.step {}

/-! ### What is given and what is parsed -/

namespace Local
variable {p : Processor} {s : Local}

/-- From the state `p` on, the bytes given have moved into the processor, up to the ones that are
not yet processed. -/
structure Keeps (p : Processor) (s : Local) : Prop where
  held : s.processor.Held
  moves : ∃ parsed, s.given = parsed ++ s.unprocessed ∧ parsed.length = s.processed ∧
    Moves p parsed (s.processor, s.effects) ∧
    Processor.Split p.buffer parsed (s.processor, s.effects)
  room : s.unprocessed.length ≤ readBufferSize
  processed : s.status = .running → s.processed < maxLockedRead
  bounded : s.processed < maxLockedRead + readBufferSize
  unlocked : s.locked = false → s.processed = 0
  done : s.status = .done → s.unprocessed = []

theorem start_keeps (h : p.Held) : Keeps p { processor := p } := by
  obtain ⟨q, hq⟩ := h.idle
  refine ⟨h, ⟨[], rfl, rfl, ⟨q, q, [], hq, hq, .nil q, by simp⟩, ?_⟩, ?_, ?_, ?_, fun _ => rfl, ?_⟩
  · exact .inl ⟨rfl, (List.append_nil _).symm⟩
  · exact Nat.zero_le _
  · intro _
    change 0 < maxLockedRead
    decide
  · change 0 < maxLockedRead + readBufferSize
    decide
  · intro hdone
    cases hdone

theorem receive_keeps (h : Keeps p s) (hrunning : s.status = .running) (outcome : Outcome) :
    Keeps p (s.receive outcome) := by
  unfold receive
  dsimp only
  split
  · exact { h with
      processed := fun hstatus => by cases hstatus
      done := fun hstatus => by cases hstatus }
  · split
    case isTrue hnone =>
      exact { h with
        processed := fun hstatus => by cases hstatus
        done := fun _ => hnone.1 }
    case isFalse =>
      obtain ⟨parsed, hgiven, hparsed⟩ := h.moves
      refine { h with moves := ⟨parsed, ?_, hparsed⟩, room := ?_, done := ?_ }
      · dsimp only
        rw [hgiven, List.append_assoc]
      · have hroom := h.room
        have hgot : (s.received outcome).length ≤ readBufferSize - s.unprocessed.length := by
          cases outcome with
          | ok bytes => exact List.length_take_le _ _
          | interrupted => exact Nat.zero_le _
          | wouldBlock => exact Nat.zero_le _
          | failed => exact Nat.zero_le _
        dsimp only
        rw [List.length_append]
        omega
      · intro hdone
        have : s.status = .done := hdone
        rw [hrunning] at this
        cases this

theorem parse_keeps (h : Keeps p s) (hrunning : s.status = .running) : Keeps p s.parse := by
  obtain ⟨parsed, hgiven, hcount, hmoves, hsplit⟩ := h.moves
  obtain ⟨hadvance, hheld⟩ := Processor.advance_moves h.held s.unprocessed
  have hlow := h.processed hrunning
  have hroom := h.room
  refine ⟨hheld, ⟨s.given, (List.append_nil _).symm, ?_, ?_, ?_⟩, Nat.zero_le _, ?_, ?_, ?_,
    fun _ => rfl⟩
  · rw [hgiven, List.length_append, hcount]
    rfl
  · rw [hgiven]
    exact hmoves.andThen hadvance
  · rw [hgiven]
    exact hsplit.andThen (Processor.advance_split h.held s.unprocessed)
  · intro hstatus
    by_contra hhigh
    have hdone : s.parse.status = .done := if_pos (Nat.le_of_not_lt hhigh)
    rw [hdone] at hstatus
    cases hstatus
  · change s.processed + s.unprocessed.length < maxLockedRead + readBufferSize
    omega
  · intro hlocked
    cases hlocked

theorem turn_keeps (h : Keeps p s) (hrunning : s.status = .running) (t : Turn) :
    Keeps p (s.turn t) := by
  have hreceive := receive_keeps h hrunning t.outcome
  unfold turn
  dsimp only
  split
  case isTrue hlock => exact parse_keeps hreceive hlock.1
  case isFalse => exact hreceive

theorem loop_keeps (turns : List Turn) :
    ∀ {s : Local}, Keeps p s → s.status = .running → Keeps p (loop turns s) := by
  induction turns with
  | nil => exact fun h _ => h
  | cons t ts ih =>
    intro s h hrunning
    have hturn := turn_keeps h hrunning t
    unfold loop
    dsimp only
    split
    case isTrue hstatus => exact ih hturn hstatus
    case isFalse => exact hturn

end Local

theorem ptyRead_keeps {p : Processor} (h : p.Held) (turns : List Turn) :
    Local.Keeps p (ptyRead p turns) :=
  Local.loop_keeps turns (Local.start_keeps h) rfl

/-- Every `pty_read` of the run ends, and none with an error of the PTY. -/
def Session.Ends (s : Session) : Event → Prop
  | .readable turns => (ptyRead s.processor turns).status = .done
  | .timeout => True

instance (s : Session) : ∀ event, Decidable (s.Ends event)
  | .readable _ => inferInstanceAs (Decidable (_ = _))
  | .timeout => isTrue trivial

/-- What the processor got of what the PTY gave. -/
structure Session.Complete (s : Session) : Prop where
  held : s.processor.Held
  moves : Moves {} s.given (s.processor, s.effects)

theorem Session.step_complete (s : Session) (event : Event) (h : s.Complete)
    (hends : s.Ends event) : (s.step event).Complete := by
  cases event with
  | readable turns =>
    have hkeeps := ptyRead_keeps h.held turns
    obtain ⟨parsed, hgiven, -, hmoves, -⟩ := hkeeps.moves
    rw [hkeeps.done hends, List.append_nil] at hgiven
    refine ⟨hkeeps.held, ?_⟩
    change Moves {} (s.given ++ (ptyRead s.processor turns).given) _
    rw [hgiven]
    exact h.moves.andThen hmoves
  | timeout =>
    obtain ⟨hmoves, hheld⟩ := Processor.step_moves h.held .stopSync
    refine ⟨hheld, ?_⟩
    have := h.moves.andThen hmoves
    rwa [Input.bytes, List.append_nil] at this

theorem run_complete (events : List Event)
    (h : Runs.Permitted Session.step Session.Ends {} events) : (run events).Complete := by
  have hstart : Session.Complete {} :=
    ⟨Processor.default_held, .new, .new, [], rfl, rfl, .nil _, rfl⟩
  exact Runs.invariant Session.step_complete events {} hstart h

/-- As long as no read fails, the parser gets what the PTY gives, in order and once, however the
terminal is contended and whenever updates time out, up to what a synchronized update holds
back. -/
theorem run_parses_given (events : List Event)
    (h : Runs.Permitted Session.step Session.Ends {} events) :
    ∃ pieces : List (List UInt8),
      pieces.flatten ++ (run events).processor.buffer = (run events).given ∧
      (Transducer.run Parser.advance .new pieces).2 = calls (run events).effects := by
  obtain ⟨q, q', handed, hq, -, ⟨pieces, rfl, hrun⟩, hbytes⟩ := (run_complete events h).moves
  have hnew : q = .new := (congrArg BatchedParser.parser hq).symm
  subst hnew
  exact ⟨pieces, hbytes.symm, by rw [hrun]⟩

/-- Two bytes are read while the renderer has the terminal locked, and a third behind them. -/
theorem run_parses_given_contended :
    ∃ pieces : List (List UInt8), pieces.flatten = [0x61, 0x62, 0x63] := by
  obtain ⟨pieces, hpieces, -⟩ := run_parses_given
    [.readable [⟨.ok [0x61, 0x62], true⟩, ⟨.ok [0x63], false⟩, ⟨.wouldBlock, false⟩], .timeout]
    (by decide +kernel)
  have hbuffer : (run [.readable [⟨.ok [0x61, 0x62], true⟩, ⟨.ok [0x63], false⟩,
      ⟨.wouldBlock, false⟩], .timeout]).processor.buffer = [] := by decide +kernel
  have hgiven : (run [.readable [⟨.ok [0x61, 0x62], true⟩, ⟨.ok [0x63], false⟩,
      ⟨.wouldBlock, false⟩], .timeout]).given = [0x61, 0x62, 0x63] := by decide +kernel
  rw [hbuffer, List.append_nil, hgiven] at hpieces
  exact ⟨pieces, hpieces⟩

/-- One `pty_read`, from any state that a run leads to: it parses what it was given up to a rest
that only an error can leave, and parses less than the two limits together before it lets the
terminal go. -/
theorem ptyRead_bounded (events : List Event)
    (h : Runs.Permitted Session.step Session.Ends {} events) (turns : List Turn) :
    let r := ptyRead (run events).processor turns
    r.processed < maxLockedRead + readBufferSize ∧
      r.unprocessed <:+ r.given ∧ (r.status = .done → r.unprocessed = []) ∧
      (r.locked = false → r.processed = 0) := by
  have hkeeps := ptyRead_keeps (run_complete events h).held turns
  obtain ⟨parsed, hgiven, -⟩ := hkeeps.moves
  exact ⟨hkeeps.bounded, ⟨parsed, hgiven.symm⟩, hkeeps.done, hkeeps.unlocked⟩

/-- The read fails with two bytes unparsed. -/
theorem ptyRead_bounded_failed :
    (ptyRead {} [⟨.ok [0x61, 0x62], true⟩, ⟨.failed, true⟩]).processed <
      maxLockedRead + readBufferSize :=
  (ptyRead_bounded [] trivial [⟨.ok [0x61, 0x62], true⟩, ⟨.failed, true⟩]).1

end Rio.Performer.PtyRead
