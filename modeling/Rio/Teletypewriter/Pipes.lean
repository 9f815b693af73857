import Rio.Lib.Runs

/-! The two ends of an anonymous pipe, each a worker thread that shares a buffer with the thread
that owns the end. The owner of the reading end takes bytes and the worker gives them; the owner
of the writing end takes room. The readiness tells the owner to come, a condition variable wakes
the worker. -/

set_option linter.dupNamespace false

namespace Rio.Teletypewriter

/-- The size both ends give to `spsc_buffer`. -/
def bufferSize : ℕ := 65536

inductive End where
  /-- `EventedAnonRead`. -/
  | read
  /-- `EventedAnonWrite`. -/
  | write
  deriving DecidableEq, Repr

inductive Worker where
  /-- In the call on the pipe itself. -/
  | away
  /-- About to ask whether there is anything to give. -/
  | checking
  /-- Found nothing to give and has not yet waited on the condition variable. -/
  | parking
  | waiting
  | giving
  /-- Gave, and is to look at the readiness. -/
  | signalling
  | setting
  deriving DecidableEq, Repr

inductive Owner where
  | idle
  /-- Took something, and is to ask whether that was all. -/
  | took
  | clearing
  | rechecking
  | restoring
  | notifying
  deriving DecidableEq, Repr

/-- `available` is what the owner can take: the bytes in the buffer of the reading end, the room
in the buffer of the writing end. -/
structure Evented where
  available : ℕ
  ready : Bool
  worker : Worker
  owner : Owner
  deriving DecidableEq, Repr

inductive PipeAction where
  /-- The worker comes back from the pipe. -/
  | begin
  /-- `is_full` of the producer, `is_empty` of the consumer. -/
  | check
  | wait
  | give (amount : ℕ)
  /-- `readiness()`. -/
  | signal
  | set
  | take (amount : ℕ)
  /-- `is_empty` of the consumer, `is_full` of the producer. -/
  | checkEnd
  | clear
  | recheck
  | restore
  /-- `notify_one`. -/
  | notify
  deriving DecidableEq, Repr

namespace Evented

/-- `new`. The worker of the writing end first makes it writable. -/
def new : End → Evented
  | .read => { available := 0, ready := false, worker := .away, owner := .idle }
  | .write => { available := bufferSize, ready := false, worker := .setting, owner := .idle }

/-- An action that its thread is not about to take changes nothing. -/
def step (s : Evented) : PipeAction → Evented
  | .begin => if s.worker = .away then { s with worker := .checking } else s
  | .check =>
    if s.worker = .checking then
      { s with worker := if s.available = bufferSize then .parking else .giving }
    else s
  | .wait => if s.worker = .parking then { s with worker := .waiting } else s
  | .give amount =>
    if s.worker = .giving ∧ s.available + amount ≤ bufferSize then
      { s with available := s.available + amount, worker := .signalling }
    else s
  | .signal =>
    if s.worker = .signalling then
      { s with worker := if s.ready then .away else .setting }
    else s
  | .set => if s.worker = .setting then { s with ready := true, worker := .away } else s
  | .take amount =>
    if s.owner = .idle ∧ amount ≤ s.available then
      { s with available := s.available - amount, owner := .took }
    else s
  | .checkEnd =>
    if s.owner = .took then
      { s with owner := if s.available = 0 then .clearing else .notifying }
    else s
  | .clear => if s.owner = .clearing then { s with ready := false, owner := .rechecking } else s
  | .recheck =>
    if s.owner = .rechecking then
      { s with owner := if s.available = 0 then .notifying else .restoring }
    else s
  | .restore => if s.owner = .restoring then { s with ready := true, owner := .notifying } else s
  | .notify =>
    -- A worker that has not yet waited does not hear it.
    if s.owner = .notifying then
      { s with owner := .idle, worker := if s.worker = .waiting then .giving else s.worker }
    else s

/-! ### Readiness -/

/-- Someone is about to make the readiness what it has to be. -/
def Mending (s : Evented) : Prop :=
  s.worker = .signalling ∨ s.worker = .setting ∨ s.owner = .rechecking ∨ s.owner = .restoring

/-- What can be taken is announced. -/
def Announced (s : Evented) : Prop := 0 < s.available → s.ready = true ∨ s.Mending

theorem new_announced (e : End) : (new e).Announced := by
  cases e with
  | read => simp [Announced, new]
  | write => exact fun _ => Or.inr (Or.inr (Or.inl rfl))

/-- A worker that was not about to touch the readiness goes on. -/
theorem Announced.worker {s : Evented} (h : s.Announced) (hsignalling : s.worker ≠ .signalling)
    (hsetting : s.worker ≠ .setting) (w : Worker) :
    ({ s with worker := w } : Evented).Announced := by
  intro hpos
  rcases h hpos with hready | hmend
  · exact Or.inl hready
  · have howner := (hmend.resolve_left hsignalling).resolve_left hsetting
    exact Or.inr (Or.inr (Or.inr howner))

/-- An owner that was not about to touch the readiness goes on, with no more to take. -/
theorem Announced.owner {s : Evented} (h : s.Announced) (hrechecking : s.owner ≠ .rechecking)
    (hrestoring : s.owner ≠ .restoring) {n : ℕ} (hn : n ≤ s.available) (o : Owner) :
    ({ s with available := n, owner := o } : Evented).Announced := by
  intro hpos
  have hpos : 0 < n := hpos
  rcases h (by omega) with hready | hworker | hworker | howner | howner
  · exact Or.inl hready
  · exact Or.inr (Or.inl hworker)
  · exact Or.inr (Or.inr (Or.inl hworker))
  · exact absurd howner hrechecking
  · exact absurd howner hrestoring

theorem step_announced (s : Evented) (a : PipeAction) (h : s.Announced) :
    (s.step a).Announced := by
  cases a with
  | begin =>
    simp only [step]
    split
    case isTrue hworker => exact h.worker (by simp [hworker]) (by simp [hworker]) _
    case isFalse => exact h
  | check =>
    simp only [step]
    split
    case isTrue hworker => exact h.worker (by simp [hworker]) (by simp [hworker]) _
    case isFalse => exact h
  | wait =>
    simp only [step]
    split
    case isTrue hworker => exact h.worker (by simp [hworker]) (by simp [hworker]) _
    case isFalse => exact h
  | give amount =>
    simp only [step]
    split
    · exact fun _ => Or.inr (Or.inl rfl)
    · exact h
  | signal =>
    simp only [step]
    split
    case isTrue hworker =>
      cases hready : s.ready with
      | true => exact fun _ => Or.inl rfl
      | false => exact fun _ => Or.inr (Or.inr (Or.inl rfl))
    case isFalse => exact h
  | set =>
    simp only [step]
    split
    · exact fun _ => Or.inl rfl
    · exact h
  | take amount =>
    simp only [step]
    split
    case isTrue howner =>
      exact h.owner (by simp [howner.1]) (by simp [howner.1]) (Nat.sub_le _ _) _
    case isFalse => exact h
  | checkEnd =>
    simp only [step]
    split
    case isTrue howner => exact h.owner (by simp [howner]) (by simp [howner]) le_rfl _
    case isFalse => exact h
  | clear =>
    simp only [step]
    split
    · exact fun _ => Or.inr (Or.inr (Or.inr (Or.inl rfl)))
    · exact h
  | recheck =>
    -- The owner asks again after it has cleared the readiness.
    simp only [step]
    split
    case isTrue howner =>
      intro hpos
      have hsome : s.available ≠ 0 := by
        have : 0 < s.available := hpos
        omega
      refine Or.inr (Or.inr (Or.inr (Or.inr ?_)))
      dsimp only
      rw [if_neg hsome]
    case isFalse => exact h
  | restore =>
    simp only [step]
    split
    · exact fun _ => Or.inl rfl
    · exact h
  | notify =>
    simp only [step]
    split
    case isTrue howner =>
      have hidle := h.owner (by simp [howner]) (by simp [howner]) le_rfl .idle
      by_cases hwaiting : s.worker = .waiting
      · simpa [hwaiting] using hidle.worker (by simp [hwaiting]) (by simp [hwaiting]) .giving
      · simpa [hwaiting] using hidle
    case isFalse => exact h

theorem run_announced (e : End) (actions : List PipeAction) :
    (actions.foldl step (new e)).Announced := by
  have hpermitted : Runs.Permitted step (fun _ _ => True) (new e) actions :=
    Runs.Permitted.of_always (fun _ _ => trivial) _ _
  exact Runs.invariant (fun s a h _ => step_announced s a h) actions (new e) (new_announced e)
    hpermitted

/-- Whatever the order of the steps of worker and owner, once neither is about to touch the
readiness, it tells whether there is something to take. -/
theorem run_ready_of_available (e : End) (actions : List PipeAction)
    (hpos : 0 < (actions.foldl step (new e)).available)
    (hmend : ¬ (actions.foldl step (new e)).Mending) :
    (actions.foldl step (new e)).ready = true :=
  (run_announced e actions hpos).resolve_right hmend

/-- Bytes arrive between the look at the empty buffer and the clearing of the readiness. -/
theorem run_ready_of_available_race :
    ([.begin, .check, .give 3, .signal, .set, .take 3, .checkEnd, .begin, .check, .give 2, .signal,
      .clear, .recheck, .restore, .notify].foldl step (new .read)).ready = true :=
  run_ready_of_available .read [.begin, .check, .give 3, .signal, .set, .take 3, .checkEnd, .begin,
      .check, .give 2, .signal, .clear, .recheck, .restore, .notify]
    (by decide) (by unfold Mending; decide)

/-! ### The condition variable -/

/-- The worker hears every notification: none falls between the look at the buffer and the wait. -/
def Heard (s : Evented) (a : PipeAction) : Prop := a = .notify → s.worker ≠ .parking

instance (s : Evented) (a : PipeAction) : Decidable (s.Heard a) :=
  inferInstanceAs (Decidable (_ → ¬ _))

/-- A worker at the condition variable has nothing to give, or the owner is about to notify. -/
def Watched (s : Evented) : Prop :=
  s.worker = .parking ∨ s.worker = .waiting → s.available = bufferSize ∨ s.owner ≠ .idle

theorem new_watched (e : End) : (new e).Watched := by
  cases e <;> simp [Watched, new]

theorem step_watched (s : Evented) (a : PipeAction) (h : s.Watched) (ha : s.Heard a) :
    (s.step a).Watched := by
  unfold Watched at *
  cases a with
  | begin | give amount | signal | set =>
    simp only [step]
    split_ifs
    all_goals first
      | exact h
      | simp
  | check =>
    simp only [step]
    split
    case isTrue =>
      intro hparked
      left
      by_contra hroom
      simp [if_neg hroom] at hparked
    case isFalse => exact h
  | wait =>
    simp only [step]
    split
    case isTrue hparking => exact fun _ => h (Or.inl hparking)
    case isFalse => exact h
  | take amount | checkEnd | clear | recheck | restore =>
    simp only [step]
    split_ifs
    all_goals first
      | exact h
      | simp
  | notify =>
    simp only [step]
    split
    case isTrue =>
      intro hparked
      have hheard := ha rfl
      dsimp only at hparked
      split at hparked
      · simp at hparked
      · exact absurd hparked (by simp_all)
    case isFalse => exact h

/-- If no notification falls between the look at the buffer and the wait, a worker that sleeps
while the owner is at rest has nothing it could give, and the owner has been told to come. -/
theorem run_asleep (e : End) (actions : List PipeAction)
    (h : Runs.Permitted step Heard (new e) actions)
    (hidle : (actions.foldl step (new e)).owner = .idle)
    (hwaiting : (actions.foldl step (new e)).worker = .waiting) :
    (actions.foldl step (new e)).available = bufferSize ∧
      (actions.foldl step (new e)).ready = true := by
  have hfull : (actions.foldl step (new e)).available = bufferSize :=
    (Runs.invariant step_watched actions (new e) (new_watched e) h (Or.inr hwaiting)).resolve_right
      (not_not_intro hidle)
  refine ⟨hfull, (run_announced e actions ?_).resolve_right ?_⟩
  · rw [hfull]
    decide
  · simp [Mending, hidle, hwaiting]

theorem run_asleep_full :
    ([.begin, .check, .give 65536, .signal, .set, .begin, .check, .wait].foldl step
      (new .read)).available = bufferSize :=
  (run_asleep .read [.begin, .check, .give 65536, .signal, .set, .begin, .check, .wait]
    (by decide) rfl rfl).1

/-- A notification that falls in between leaves the worker of the reading end asleep with an
empty buffer, and nobody told to come. -/
example : ([.begin, .check, .give 65536, .signal, .set, .begin, .check, .take 65536, .checkEnd,
    .clear, .recheck, .notify, .wait].foldl step (new .read)) =
    { available := 0, ready := false, worker := .waiting, owner := .idle } := by decide

end Evented
end Rio.Teletypewriter
