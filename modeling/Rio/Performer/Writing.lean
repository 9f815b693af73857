import Mathlib.Data.List.Basic
import Mathlib.Tactic

/-! The messages that wait to be written to the PTY: what the PTY accepts is what was queued. -/

set_option linter.dupNamespace false

namespace Rio.Performer.PtyWrite

/-- A message that is being written. -/
structure Writing where
  source : List UInt8
  written : ℕ
  deriving DecidableEq, Repr

namespace Writing

def new (c : List UInt8) : Writing := ⟨c, 0⟩

def advance (w : Writing) (n : ℕ) : Writing := { w with written := w.written + n }

def remainingBytes (w : Writing) : List UInt8 := w.source.drop w.written

def finished (w : Writing) : Bool := decide (w.source.length ≤ w.written)

end Writing

structure State where
  writeList : List (List UInt8)
  writing : Option Writing
  deriving DecidableEq, Repr

namespace State

def default : State := ⟨[], none⟩

def gotoNext (s : State) : State :=
  { writeList := s.writeList.tail, writing := s.writeList.head?.map Writing.new }

def ensureNext (s : State) : State := if s.writing.isNone then s.gotoNext else s

def needsWrite (s : State) : Bool := s.writing.isSome || !s.writeList.isEmpty

def setCurrent (s : State) (new : Option Writing) : State := { s with writing := new }

end State

/-- The outcome of a write: the PTY takes that many bytes, or all if there are fewer; or none, with
an error. -/
inductive Outcome
  | ok (n : ℕ)
  | interrupted
  | wouldBlock
  | failed
  deriving DecidableEq, Repr

/-- Write until an outcome ends that, as the last one does, or nothing is left; with the bytes that
were accepted. -/
def writeMany : List Outcome → State → State × List UInt8
  | [], s => (s, [])
  | outcome :: outcomes, s =>
    match s.writing with
    | none => (s, [])
    | some current =>
      match outcome with
      | .ok n =>
        let accepted := current.remainingBytes.take n
        if accepted.length = 0 then (s.setCurrent (some current), [])
        else
          let current := current.advance accepted.length
          let s := if current.finished then s.gotoNext else s.setCurrent (some current)
          let (s, later) := writeMany outcomes s
          (s, accepted ++ later)
      | .interrupted | .wouldBlock | .failed => (s.setCurrent (some current), [])

def ptyWrite (s : State) (outcomes : List Outcome) : State × List UInt8 :=
  writeMany outcomes s.ensureNext

/-- What happens to the queue: a message comes in, or the PTY is ready for writes. -/
inductive Event
  | input (message : List UInt8)
  | ready (outcomes : List Outcome)

/-- The queue, and the bytes that the PTY has accepted. -/
structure Session where
  state : State
  accepted : List UInt8
  deriving DecidableEq, Repr

def Session.step (s : Session) : Event → Session
  | .input message => { s with state.writeList := s.state.writeList ++ [message] }
  | .ready outcomes =>
    let (state, accepted) := ptyWrite s.state outcomes
    ⟨state, s.accepted ++ accepted⟩

def run (events : List Event) : Session := events.foldl Session.step ⟨.default, []⟩

/-- The messages that come in. -/
def messages (events : List Event) : List (List UInt8) :=
  events.flatMap fun event =>
    match event with
    | .input message => [message]
    | .ready _ => []

/-! ### What is queued -/

/-- The messages that are not dropped yet, the first of which may be written in part. -/
def State.pending (s : State) : List (List UInt8) :=
  (s.writing.map Writing.source).toList ++ s.writeList

/-- The part of the first message that is written. -/
def State.writtenBytes (s : State) : List UInt8 :=
  (s.writing.map fun w => w.source.take w.written).getD []

/-- All messages that came in are dropped or pending, the accepted bytes are those of the dropped
ones and of the written part of the next, and every pending message has bytes left. -/
structure Delivers (queued : List (List UInt8)) (s : State) (accepted : List UInt8) : Prop where
  split : ∃ dropped, queued = dropped ++ s.pending ∧ accepted = dropped.flatten ++ s.writtenBytes
  unfinished : ∀ w, s.writing = some w → w.written < w.source.length
  nonempty : ∀ message ∈ s.writeList, message ≠ []

namespace Delivers

variable {queued : List (List UInt8)} {s : State} {accepted : List UInt8}

theorem input (h : Delivers queued s accepted) {message : List UInt8} (hmessage : message ≠ []) :
    Delivers (queued ++ [message]) { s with writeList := s.writeList ++ [message] } accepted := by
  obtain ⟨dropped, hqueued, haccepted⟩ := h.split
  refine ⟨⟨dropped, ?_, haccepted⟩, h.unfinished, fun m hm => ?_⟩
  · rw [hqueued]
    simp [State.pending]
  · obtain hm | hm := List.mem_append.mp hm
    · exact h.nonempty m hm
    · rw [List.mem_singleton.mp hm]
      exact hmessage

/-- The next message is taken where none is being written. -/
theorem gotoNext (h : Delivers queued s accepted) (hnone : s.writing = none) :
    Delivers queued s.gotoNext accepted := by
  obtain ⟨dropped, hqueued, haccepted⟩ := h.split
  obtain ⟨writeList, writing⟩ := s
  obtain rfl : writing = none := hnone
  cases writeList with
  | nil => exact ⟨⟨dropped, hqueued, haccepted⟩, nofun, nofun⟩
  | cons message writeList =>
    obtain ⟨hmessage, hrest⟩ := List.forall_mem_cons.mp h.nonempty
    refine ⟨⟨dropped, hqueued, haccepted⟩, fun w hw => ?_, hrest⟩
    obtain rfl : Writing.new message = w := Option.some.inj hw
    exact List.length_pos_of_ne_nil hmessage

theorem ensureNext (h : Delivers queued s accepted) : Delivers queued s.ensureNext accepted := by
  unfold State.ensureNext
  cases hwriting : s.writing with
  | none => exact h.gotoNext hwriting
  | some current => exact h

/-- Some bytes of the message that is being written are accepted. -/
theorem advance (h : Delivers queued s accepted) {current : Writing}
    (hcurrent : s.writing = some current) (n : ℕ) :
    let taken := current.remainingBytes.take n
    let next := current.advance taken.length
    Delivers queued (if next.finished then s.gotoNext else s.setCurrent (some next))
      (accepted ++ taken) := by
  intro taken next
  obtain ⟨dropped, hqueued, haccepted⟩ := h.split
  obtain ⟨writeList, writing⟩ := s
  obtain rfl : writing = some current := hcurrent
  have hwritten : accepted ++ taken = dropped.flatten ++ current.source.take next.written := by
    have htaken : taken = (current.source.drop current.written).take taken.length := by
      conv_lhs => rw [← List.take_length (l := taken)]
      rw [List.take_take, min_eq_left]
      · rfl
      · exact List.length_take_le _ _
    rw [haccepted, List.append_assoc]
    refine congrArg (dropped.flatten ++ ·) ?_
    show current.source.take current.written ++ taken =
      current.source.take (current.written + taken.length)
    rw [List.take_add, ← htaken]
  by_cases hfinished : next.finished
  · -- All bytes of the message are accepted, and it is dropped.
    rw [if_pos hfinished]
    have hlength : current.source.length ≤ next.written := of_decide_eq_true hfinished
    rw [List.take_of_length_le hlength] at hwritten
    have hdropped : Delivers queued ⟨writeList, none⟩ (accepted ++ taken) := by
      refine ⟨⟨dropped ++ [current.source], ?_, ?_⟩, nofun, h.nonempty⟩
      · rw [hqueued]
        simp [State.pending]
      · rw [hwritten]
        simp [State.writtenBytes]
    exact hdropped.gotoNext rfl
  · rw [if_neg hfinished]
    refine ⟨⟨dropped, hqueued, hwritten⟩, fun w hw => ?_, h.nonempty⟩
    obtain rfl : next = w := Option.some.inj hw
    exact Nat.lt_of_not_le fun hle => hfinished (decide_eq_true hle)

theorem writeMany (outcomes : List Outcome) :
    ∀ {s : State} {accepted : List UInt8}, Delivers queued s accepted →
      Delivers queued (PtyWrite.writeMany outcomes s).1
        (accepted ++ (PtyWrite.writeMany outcomes s).2) := by
  induction outcomes with
  | nil =>
    intro s accepted h
    rwa [PtyWrite.writeMany, List.append_nil]
  | cons outcome outcomes ih =>
    intro s accepted h
    rw [PtyWrite.writeMany]
    cases hwriting : s.writing with
    | none => rwa [List.append_nil]
    | some current =>
      have hkept : s.setCurrent (some current) = s := by
        unfold State.setCurrent
        rw [← hwriting]
      cases outcome with
      | ok n =>
        dsimp only
        by_cases hzero : (current.remainingBytes.take n).length = 0
        · rw [if_pos hzero, hkept]
          rwa [List.append_nil]
        · rw [if_neg hzero]
          have hrest := ih (h.advance hwriting n)
          rwa [List.append_assoc] at hrest
      | interrupted =>
        dsimp only
        rwa [hkept, List.append_nil]
      | wouldBlock =>
        dsimp only
        rwa [hkept, List.append_nil]
      | failed =>
        dsimp only
        rwa [hkept, List.append_nil]

/-- What is accepted is the beginning of what was queued. -/
theorem exists_rest (h : Delivers queued s accepted) :
    ∃ rest, queued.flatten = accepted ++ rest ∧ (rest ≠ [] ↔ s.needsWrite = true) := by
  obtain ⟨dropped, hqueued, haccepted⟩ := h.split
  obtain ⟨writeList, writing⟩ := s
  cases writing with
  | none =>
    have hwritten : accepted = dropped.flatten := by
      rw [haccepted]
      exact List.append_nil _
    refine ⟨writeList.flatten, ?_, ?_⟩
    · rw [hqueued, hwritten, List.flatten_append]
      rfl
    · cases writeList with
      | nil => exact iff_of_false (fun hne => hne rfl) Bool.false_ne_true
      | cons message writeList =>
        have hmessage := h.nonempty message List.mem_cons_self
        exact iff_of_true (by simp [hmessage]) rfl
  | some current =>
    have hcurrent := h.unfinished current rfl
    refine ⟨current.remainingBytes ++ writeList.flatten, ?_, ?_⟩
    · rw [hqueued, haccepted, List.flatten_append, List.append_assoc]
      refine congrArg (dropped.flatten ++ ·) ?_
      show current.source ++ writeList.flatten = current.source.take current.written ++
        (current.source.drop current.written ++ writeList.flatten)
      rw [← List.append_assoc, List.take_append_drop]
    · have hleft : current.remainingBytes ≠ [] := by
        intro hnil
        have hlength := congrArg List.length hnil
        unfold Writing.remainingBytes at hlength
        rw [List.length_drop, List.length_nil] at hlength
        omega
      exact iff_of_true (by simp [hleft]) rfl

end Delivers

/-- The messages of some events are queued when the events are handled. -/
theorem delivers_foldl : ∀ (events : List Event) (session : Session) {queued : List (List UInt8)},
    (∀ message, Event.input message ∈ events → message ≠ []) →
      Delivers queued session.state session.accepted →
        Delivers (queued ++ messages events) (events.foldl Session.step session).state
          (events.foldl Session.step session).accepted
  | [], _, _, _, h => by rwa [show messages [] = [] from rfl, List.append_nil]
  | event :: events, session, _, hevents, h => by
    have hrest := fun message hmem => hevents message (List.mem_cons_of_mem event hmem)
    rw [List.foldl_cons]
    cases event with
    | input message =>
      have hinput := h.input (hevents message List.mem_cons_self)
      have hlater := delivers_foldl events (session.step (.input message)) hrest hinput
      rwa [List.append_assoc] at hlater
    | ready outcomes =>
      exact delivers_foldl events (session.step (.ready outcomes)) hrest
        (h.ensureNext.writeMany outcomes)

/-- The PTY accepts a beginning of the messages in their order, a message is dropped when it is
accepted to its end, and a write is needed if and only if bytes are left. -/
theorem run_delivers {events : List Event}
    (hevents : ∀ message, Event.input message ∈ events → message ≠ []) :
    ∃ dropped rest, messages events = dropped ++ (run events).state.pending ∧
      (run events).accepted = dropped.flatten ++ (run events).state.writtenBytes ∧
      (messages events).flatten = (run events).accepted ++ rest ∧
      (rest ≠ [] ↔ (run events).state.needsWrite = true) := by
  have hstart : Delivers [] State.default [] := ⟨⟨[], rfl, rfl⟩, nofun, nofun⟩
  have h := delivers_foldl events ⟨.default, []⟩ hevents hstart
  rw [List.nil_append] at h
  obtain ⟨dropped, hqueued, haccepted⟩ := h.split
  obtain ⟨rest, hrest, hneeds⟩ := h.exists_rest
  exact ⟨dropped, rest, hqueued, haccepted, hrest, hneeds⟩

/-- Two messages, the first of which is taken in parts. -/
theorem run_delivers_two :
    let events := [.input [104, 105], .ready [.ok 1, .wouldBlock], .input [33],
      .ready [.interrupted], .ready [.ok 1]]
    (run events).accepted = [104, 105] ∧ ∃ dropped rest,
      messages events = dropped ++ (run events).state.pending ∧
      (run events).accepted = dropped.flatten ++ (run events).state.writtenBytes ∧
      (messages events).flatten = (run events).accepted ++ rest ∧
      (rest ≠ [] ↔ (run events).state.needsWrite = true) :=
  ⟨by decide, run_delivers (by simp)⟩

end Rio.Performer.PtyWrite
