import Rio.Lib.Runs

/-! The channel that wakes a poll: a queue of messages beside a counter of pending ones, and
the readiness that senders and receiver toggle on what the counter was. -/

set_option linter.dupNamespace false

namespace Rio.Corcovado

/-- Where the receiver stands in `dec` or in `register`. -/
inductive ReceiverPhase where
  | idle
  /-- `try_recv` has taken a message. -/
  | received
  /-- The counter was loaded as 1. -/
  | unsetting
  | decrementing (first : Bool)
  /-- The counter was 1 when loaded and more when decremented. -/
  | resetting
  /-- The new readiness is not yet in its cell. -/
  | registering (readable : Bool)
  deriving DecidableEq, Repr

/-- Senders carry nothing but where they stand in `inc`, so how many stand at each place is all
there is to know of them. -/
structure Channel (α : Type*) where
  queue : List α
  /-- An `AtomicUsize`. -/
  pending : ℕ
  senders : ℕ
  /-- Whether the readiness is readable, once its cell is filled. -/
  setReadiness : Option Bool
  /-- Senders about to add to the counter. -/
  counting : ℕ
  /-- Senders that found the counter at zero and are to toggle the readiness. -/
  toggling : ℕ
  receiver : ReceiverPhase
  deriving DecidableEq, Repr

variable {α : Type*}

/-- `channel()`. -/
def channel : Channel α where
  queue := []
  pending := 0
  senders := 1
  setReadiness := none
  counting := 0
  toggling := 0
  receiver := .idle

/-- One atomic step of a sender or of the receiver. -/
inductive Action (α : Type*) where
  | send (t : α)
  /-- `fetch_add` of `inc`. -/
  | count
  /-- `set_readiness` of `inc`. -/
  | toggle
  | clone
  | drop
  | tryRecv
  /-- `load` of `dec`. -/
  | load
  | unset
  /-- `fetch_sub` of `dec`. -/
  | decrement
  | reset
  /-- `register` up to its load of the counter. -/
  | register
  | fill
  deriving DecidableEq, Repr

def usizeModulus : ℕ := 2 ^ 64

/-- `fetch_add(1)`, which wraps around. -/
def fetchAdd (pending : ℕ) : ℕ := if pending + 1 = usizeModulus then 0 else pending + 1

/-- `fetch_sub(1)`, which wraps around. -/
def fetchSub (pending : ℕ) : ℕ := if pending = 0 then usizeModulus - 1 else pending - 1

/-- The number stands for an integer, up to wrapping. -/
def Wraps (pending : ℕ) (x : ℤ) : Prop := (pending : ℤ) = x % usizeModulus

theorem Wraps.fetchAdd {pending : ℕ} {x : ℤ} (h : Wraps pending x) :
    Wraps (fetchAdd pending) (x + 1) := by
  unfold Wraps at h ⊢
  rw [← Int.emod_add_emod, ← h]
  have hlt : (pending : ℤ) < usizeModulus := h ▸ Int.emod_lt_of_pos x (by decide)
  unfold Corcovado.fetchAdd
  split
  case isTrue hwrap =>
    have hsum : (pending : ℤ) + 1 = usizeModulus := by exact_mod_cast hwrap
    rw [hsum, Int.emod_self]
    rfl
  case isFalse hwrap =>
    have hsum : (pending : ℤ) + 1 < usizeModulus := by omega
    rw [Int.emod_eq_of_lt (by omega) hsum]
    push_cast
    rfl

theorem Wraps.fetchSub {pending : ℕ} {x : ℤ} (h : Wraps pending x) :
    Wraps (fetchSub pending) (x - 1) := by
  unfold Wraps at h ⊢
  rw [sub_eq_add_neg, ← Int.emod_add_emod, ← h, ← sub_eq_add_neg]
  have hpos : 1 ≤ usizeModulus := by decide
  have hlt : (pending : ℤ) < usizeModulus := h ▸ Int.emod_lt_of_pos x (by decide)
  unfold Corcovado.fetchSub
  split
  case isTrue hzero =>
    rw [hzero, ← Int.add_emod_right, Int.emod_eq_of_lt (by omega) (by omega)]
    push_cast [hpos]
    ring
  case isFalse hzero =>
    rw [Int.emod_eq_of_lt (by omega) (by omega)]
    omega

namespace Channel

/-- `borrow` of the cell, and `set_readiness` on what is in it. -/
def mark (s : Channel α) (readable : Bool) : Channel α :=
  { s with setReadiness := s.setReadiness.map fun _ => readable }

/-- `fetch_add(1)` of `inc`, with its test for zero. -/
def count (s : Channel α) : Channel α :=
  { s with
    pending := fetchAdd s.pending
    counting := s.counting - 1
    toggling := if s.pending = 0 then s.toggling + 1 else s.toggling }

/-- `fetch_sub(1)` of `dec`, with the test of what it returns. -/
def decrement (s : Channel α) (first : Bool) : Channel α :=
  { s with
    pending := fetchSub s.pending
    receiver := if first && decide (1 < s.pending) then .resetting else .idle }

/-- Dropping the last handle counts once more, with no message. -/
def drop (s : Channel α) : Channel α :=
  { s with
    senders := s.senders - 1
    counting := if s.senders = 1 then s.counting + 1 else s.counting }

/-- An action that its party is not about to take changes nothing. -/
def step (s : Channel α) : Action α → Channel α
  | .send t =>
    if 0 < s.senders then { s with queue := s.queue ++ [t], counting := s.counting + 1 } else s
  | .count => if 0 < s.counting then s.count else s
  | .toggle => if 0 < s.toggling then { s.mark true with toggling := s.toggling - 1 } else s
  | .clone => if 0 < s.senders then { s with senders := s.senders + 1 } else s
  | .drop =>
    -- A send borrows its handle, so the last handle outlives every send.
    if 1 < s.senders ∨ s.senders = 1 ∧ s.counting = 0 ∧ s.toggling = 0 then s.drop else s
  | .tryRecv =>
    match s.receiver, s.queue with
    | .idle, _ :: rest => { s with queue := rest, receiver := .received }
    | _, _ => s
  | .load =>
    if s.receiver = .received then
      { s with receiver := if s.pending = 1 then .unsetting else .decrementing false }
    else s
  | .unset =>
    if s.receiver = .unsetting then { s.mark false with receiver := .decrementing true } else s
  | .decrement =>
    match s.receiver with
    | .decrementing first => s.decrement first
    | _ => s
  | .reset => if s.receiver = .resetting then { s.mark true with receiver := .idle } else s
  | .register =>
    if s.receiver = .idle ∧ s.setReadiness = none then
      { s with receiver := .registering (decide (0 < s.pending)) }
    else s
  | .fill =>
    match s.receiver with
    | .registering readable => { s with setReadiness := some readable, receiver := .idle }
    | _ => s

/-- No party is in the middle of an operation. -/
def Quiet (s : Channel α) : Prop := s.counting = 0 ∧ s.toggling = 0 ∧ s.receiver = .idle

instance (s : Channel α) : Decidable s.Quiet := inferInstanceAs (Decidable (_ ∧ _))

/-- There is something for the receiver to find: a message, or that every sender is gone. -/
def Due (s : Channel α) : Prop := s.queue ≠ [] ∨ s.senders = 0

/-! ### The counter -/

end Channel

/-- Messages the receiver has taken and not yet subtracted. -/
def ReceiverPhase.taken : ReceiverPhase → ℤ
  | .received | .unsetting | .decrementing _ => 1
  | .idle | .resetting | .registering _ => 0

theorem ReceiverPhase.taken_bounds (p : ReceiverPhase) : 0 ≤ p.taken ∧ p.taken ≤ 1 := by
  cases p <;> simp [taken]

/-- What the drop of the last handle adds to the counter. -/
def farewell (senders : ℕ) : ℤ := if senders = 0 then 1 else 0

theorem farewell_of_pos {n : ℕ} (h : 0 < n) : farewell n = 0 :=
  if_neg (by omega)

theorem farewell_bounds (senders : ℕ) : 0 ≤ farewell senders ∧ farewell senders ≤ 1 := by
  unfold farewell
  split <;> decide

namespace Channel

/-- The counter as it would be without wrapping. -/
def outstanding (s : Channel α) : ℤ :=
  s.queue.length + s.receiver.taken + farewell s.senders - s.counting

/-- The messages and the sends in progress are fewer than the counter can tell apart. -/
def Fits (s : Channel α) : Prop := s.queue.length + s.counting + 2 < usizeModulus

/-- The counter is the number of outstanding messages, up to wrapping. -/
def Counted (s : Channel α) : Prop := Wraps s.pending s.outstanding

theorem Counted.pending_eq {s : Channel α} (h : s.Counted) (hfits : s.Fits)
    (hpos : 0 ≤ s.outstanding) : (s.pending : ℤ) = s.outstanding := by
  unfold Counted Wraps at h
  unfold Fits at hfits
  rw [h]
  refine Int.emod_eq_of_lt hpos ?_
  unfold outstanding
  have htaken := s.receiver.taken_bounds
  have hfarewell := farewell_bounds s.senders
  omega

/-- A counter below the modulus that is small is not a wrapped one. -/
theorem Counted.outstanding_eq {s : Channel α} (h : s.Counted) (hfits : s.Fits) {n : ℕ}
    (hn : n ≤ 1) (heq : s.pending = n) : s.outstanding = n := by
  have hrange : -(usizeModulus - 2 : ℤ) < s.outstanding ∧ s.outstanding < usizeModulus := by
    unfold Fits at hfits
    unfold outstanding
    have htaken := s.receiver.taken_bounds
    have hfarewell := farewell_bounds s.senders
    omega
  unfold Counted Wraps at h
  rw [heq] at h
  unfold usizeModulus at h hrange
  omega

theorem count_counted {s : Channel α} (h : s.Counted) (hcounting : 0 < s.counting) :
    s.count.Counted ∧ s.count.outstanding = s.outstanding + 1 := by
  have hstep : s.count.outstanding = s.outstanding + 1 := by
    simp only [outstanding, count]
    omega
  refine ⟨?_, hstep⟩
  unfold Counted at h ⊢
  rw [hstep]
  exact h.fetchAdd

theorem decrement_counted {s : Channel α} (h : s.Counted) {first : Bool}
    (hreceiver : s.receiver = .decrementing first) (first' : Bool) :
    (s.decrement first').Counted ∧ (s.decrement first').outstanding = s.outstanding - 1 := by
  have hstep : (s.decrement first').outstanding = s.outstanding - 1 := by
    have htaken : (s.decrement first').receiver.taken = 0 := by
      unfold decrement
      dsimp only
      split <;> rfl
    have htook : s.receiver.taken = 1 := by rw [hreceiver]; rfl
    unfold outstanding
    rw [htaken, htook]
    change (s.queue.length : ℤ) + 0 + farewell s.senders - s.counting =
      s.queue.length + 1 + farewell s.senders - s.counting - 1
    ring
  refine ⟨?_, hstep⟩
  unfold Counted at h ⊢
  rw [hstep]
  exact h.fetchSub

/-! ### Readiness -/

/-- The readiness is about to be unset, or was unset and the message is not yet subtracted. -/
def Lowering (s : Channel α) : Prop :=
  s.receiver = .unsetting ∨ s.receiver = .decrementing true

/-- Someone is about to make the readiness readable, or to find out whether it has to be. -/
def Promised (s : Channel α) : Prop :=
  0 < s.toggling ∨ s.Lowering ∨ s.receiver = .resetting

/-- With a message outstanding the readiness is readable, or about to be. -/
structure Sound (s : Channel α) : Prop where
  counted : s.Counted
  lowering : s.Lowering → 1 ≤ s.outstanding
  registering : ∀ readable, s.receiver = .registering readable →
    s.setReadiness = none ∧ (readable = false → s.outstanding ≤ 0)
  ready : 1 ≤ s.outstanding → s.setReadiness ≠ none → s.setReadiness = some true ∨ s.Promised

theorem channel_sound : Sound (channel : Channel α) where
  counted := by simp [Counted, Wraps, farewell, outstanding, channel, ReceiverPhase.taken]
  lowering := by simp [Lowering, channel]
  registering := by simp [channel]
  ready := by simp [outstanding, channel, farewell, ReceiverPhase.taken]

/-- The step does not count a message between the load of `register` and the filling of the cell
that it loaded zero for. -/
def InTime (s : Channel α) (a : Action α) : Prop :=
  a = .count → s.receiver ≠ .registering false

@[simp] theorem mark_eq {s : Channel α} {readable : Bool} (h : s.setReadiness ≠ none) :
    (s.mark readable).setReadiness = some readable := by
  obtain ⟨r, hr⟩ := Option.ne_none_iff_exists'.mp h
  simp [mark, hr]

theorem mark_eq_none {s : Channel α} {readable : Bool} :
    (s.mark readable).setReadiness = none ↔ s.setReadiness = none := by
  simp [mark]

/-- A step that leaves the number of outstanding messages alone. -/
theorem Sound.of_outstanding_eq {s s' : Channel α} (h : s.Sound)
    (hpending : s'.pending = s.pending) (hout : s'.outstanding = s.outstanding)
    (hreceiver : s'.receiver = s.receiver) (hready : s'.setReadiness = s.setReadiness)
    (htoggling : s'.toggling = s.toggling) : s'.Sound where
  counted := by
    unfold Counted
    rw [hpending, hout]
    exact h.counted
  lowering := by
    unfold Lowering
    rw [hreceiver, hout]
    exact h.lowering
  registering := by
    rw [hreceiver, hready, hout]
    exact h.registering
  ready := by
    unfold Promised Lowering
    rw [hreceiver, hready, hout, htoggling]
    exact h.ready

theorem send_sound {s : Channel α} (h : s.Sound) (t : α) : (s.step (.send t)).Sound := by
  unfold step
  dsimp only
  split
  · refine h.of_outstanding_eq rfl ?_ rfl rfl rfl
    simp only [outstanding, List.length_append, List.length_singleton]
    omega
  · exact h

theorem clone_sound {s : Channel α} (h : s.Sound) : (s.step .clone).Sound := by
  unfold step
  dsimp only
  split
  · refine h.of_outstanding_eq rfl ?_ rfl rfl rfl
    have hfarewell : farewell (s.senders + 1) = farewell s.senders := by
      rw [farewell_of_pos (by omega), farewell_of_pos (by omega)]
    simp only [outstanding, hfarewell]
  · exact h

/-- The count that dropping the last handle owes stands against the one its absence is worth. -/
theorem drop_sound {s : Channel α} (h : s.Sound) : (s.step .drop).Sound := by
  unfold step
  dsimp only
  split
  case isTrue hlast =>
    refine h.of_outstanding_eq rfl ?_ rfl rfl rfl
    unfold outstanding
    by_cases hone : s.senders = 1
    · have hcounting : s.drop.counting = s.counting + 1 := if_pos hone
      have hafter : farewell s.drop.senders = 1 := by
        change farewell (s.senders - 1) = 1
        rw [hone]
        rfl
      rw [hafter, hcounting, farewell_of_pos (by omega)]
      change (s.queue.length : ℤ) + s.receiver.taken + 1 - ((s.counting + 1 : ℕ) : ℤ) = _
      push_cast
      ring
    · have hcounting : s.drop.counting = s.counting := if_neg hone
      have hafter : farewell s.drop.senders = 0 := farewell_of_pos (n := s.senders - 1) (by omega)
      rw [hafter, hcounting, farewell_of_pos (by omega)]
      rfl
  case isFalse => exact h

/-- A sender that finds zero toggles; one that does not finds what was there before. -/
theorem count_sound {s : Channel α} (h : s.Sound) (hfits : s.Fits)
    (htime : s.InTime .count) : (s.step .count).Sound := by
  unfold step
  dsimp only
  split
  case isFalse => exact h
  case isTrue hcounting =>
    obtain ⟨hcounted, hout⟩ := count_counted h.counted hcounting
    refine ⟨hcounted, ?_, ?_, ?_⟩
    · intro hlowering
      have := h.lowering hlowering
      omega
    · intro readable hreceiver
      obtain ⟨hcell, -⟩ := h.registering readable hreceiver
      refine ⟨hcell, fun hfalse => ?_⟩
      rw [hfalse] at hreceiver
      exact absurd hreceiver (htime rfl)
    · intro hone hcell
      by_cases hzero : s.pending = 0
      · right
        left
        change 0 < if s.pending = 0 then s.toggling + 1 else s.toggling
        rw [if_pos hzero]
        omega
      · have hne : s.outstanding ≠ 0 := by
          intro houtz
          have := h.counted.pending_eq hfits houtz.ge
          omega
        have htoggling : s.count.toggling = s.toggling := if_neg hzero
        unfold Promised
        rw [htoggling]
        exact h.ready (by omega) hcell

theorem toggle_sound {s : Channel α} (h : s.Sound) : (s.step .toggle).Sound := by
  unfold step
  dsimp only
  split
  · refine ⟨h.counted, h.lowering, fun readable hreceiver => ?_, fun _ hcell => ?_⟩
    · obtain ⟨hnone, hzero⟩ := h.registering readable hreceiver
      refine ⟨?_, hzero⟩
      change (s.mark true).setReadiness = none
      exact mark_eq_none.mpr hnone
    · left
      change (s.mark true).setReadiness = some true
      have hne : s.setReadiness ≠ none := fun hnone => hcell (mark_eq_none.mpr hnone)
      exact mark_eq hne
  · exact h

theorem tryRecv_sound {s : Channel α} (h : s.Sound) : (s.step .tryRecv).Sound := by
  unfold step
  dsimp only
  split
  case h_1 _ _ t rest hidle hqueue =>
    have hout : ({ s with queue := rest, receiver := .received } : Channel α).outstanding =
        s.outstanding := by
      simp only [outstanding, hqueue, hidle, List.length_cons, ReceiverPhase.taken]
      omega
    refine ⟨?_, by simp [Lowering], by simp, ?_⟩
    · unfold Counted
      rw [hout]
      exact h.counted
    · rw [hout]
      intro hone hcell
      refine (h.ready hone hcell).imp_right fun hpromised => ?_
      simpa [Promised, Lowering, hidle] using hpromised
  case h_2 => exact h

theorem load_sound {s : Channel α} (h : s.Sound) (hfits : s.Fits) : (s.step .load).Sound := by
  unfold step
  dsimp only
  split
  case isFalse => exact h
  case isTrue hreceived =>
    by_cases hone : s.pending = 1
    · rw [if_pos hone]
      have hout : ({ s with receiver := .unsetting } : Channel α).outstanding = s.outstanding := by
        simp only [outstanding, hreceived, ReceiverPhase.taken]
      have hvalue : s.outstanding = 1 := h.counted.outstanding_eq hfits le_rfl hone
      refine ⟨?_, fun _ => ?_, by simp, fun _ _ => Or.inr (Or.inr (Or.inl (Or.inl rfl)))⟩
      · unfold Counted
        rw [hout]
        exact h.counted
      · rw [hout, hvalue]
    · rw [if_neg hone]
      have hout : ({ s with receiver := .decrementing false } : Channel α).outstanding =
          s.outstanding := by
        simp only [outstanding, hreceived, ReceiverPhase.taken]
      refine ⟨?_, by simp [Lowering], by simp, ?_⟩
      · unfold Counted
        rw [hout]
        exact h.counted
      · rw [hout]
        intro hone hcell
        refine (h.ready hone hcell).imp_right fun hpromised => ?_
        simpa [Promised, Lowering, hreceived] using hpromised

theorem unset_sound {s : Channel α} (h : s.Sound) : (s.step .unset).Sound := by
  unfold step
  dsimp only
  split
  case isFalse => exact h
  case isTrue hunsetting =>
    have hout : ({ s.mark false with receiver := .decrementing true } : Channel α).outstanding =
        s.outstanding := by
      simp only [outstanding, mark, hunsetting, ReceiverPhase.taken]
    refine ⟨?_, fun _ => ?_, by simp, fun _ _ => Or.inr (Or.inr (Or.inl (Or.inr rfl)))⟩
    · unfold Counted
      rw [hout]
      exact h.counted
    · rw [hout]
      exact h.lowering (Or.inl hunsetting)

/-- If the readiness was unset and another message was counted since, it is set again. -/
theorem decrement_sound {s : Channel α} (h : s.Sound) (hfits : s.Fits) :
    (s.step .decrement).Sound := by
  unfold step
  dsimp only
  split
  case h_2 => exact h
  case h_1 first hreceiver =>
    obtain ⟨hcounted, hout⟩ := decrement_counted h.counted hreceiver first
    have hphase : (s.decrement first).receiver =
        if first && decide (1 < s.pending) then .resetting else .idle := rfl
    refine ⟨hcounted, ?_, ?_, ?_⟩
    · unfold Lowering
      rw [hphase]
      split <;> simp
    · intro readable
      rw [hphase]
      split <;> simp
    · intro hone hcell
      rw [hout] at hone
      unfold Promised Lowering
      rw [hphase]
      have hpending : (s.pending : ℤ) = s.outstanding :=
        h.counted.pending_eq hfits (by omega)
      cases first with
      | true =>
        right
        right
        right
        exact if_pos (by simp; omega)
      | false =>
        refine (h.ready (by omega) hcell).imp_right fun hpromised => ?_
        have htoggling : 0 < s.toggling := by
          simpa [Promised, Lowering, hreceiver] using hpromised
        exact Or.inl htoggling

theorem reset_sound {s : Channel α} (h : s.Sound) : (s.step .reset).Sound := by
  unfold step
  dsimp only
  split
  case isFalse => exact h
  case isTrue hresetting =>
    have hout : ({ s.mark true with receiver := .idle } : Channel α).outstanding =
        s.outstanding := by
      simp only [outstanding, mark, hresetting, ReceiverPhase.taken]
    refine ⟨?_, by simp [Lowering], by simp, fun _ hcell => Or.inl ?_⟩
    · unfold Counted
      rw [hout]
      exact h.counted
    · exact mark_eq fun hnone => hcell (mark_eq_none.mpr hnone)

theorem register_sound {s : Channel α} (h : s.Sound) (hfits : s.Fits) :
    (s.step .register).Sound := by
  unfold step
  dsimp only
  split
  case isFalse => exact h
  case isTrue hfree =>
    have hout : ({ s with receiver := .registering (decide (0 < s.pending)) } :
        Channel α).outstanding = s.outstanding := by
      simp only [outstanding, hfree.1, ReceiverPhase.taken]
    refine ⟨?_, by simp [Lowering], ?_, fun _ hcell => absurd hfree.2 hcell⟩
    · unfold Counted
      rw [hout]
      exact h.counted
    · intro readable hreceiver
      refine ⟨hfree.2, fun hfalse => ?_⟩
      rw [hout]
      have hzero : s.pending = 0 := by
        simp only [ReceiverPhase.registering.injEq, hfalse, decide_eq_false_iff_not] at hreceiver
        omega
      rw [h.counted.outstanding_eq hfits (n := 0) (by omega) hzero]
      rfl

theorem fill_sound {s : Channel α} (h : s.Sound) : (s.step .fill).Sound := by
  unfold step
  dsimp only
  split
  case h_2 => exact h
  case h_1 readable hreceiver =>
    have hout : ({ s with setReadiness := some readable, receiver := .idle } :
        Channel α).outstanding = s.outstanding := by
      simp only [outstanding, hreceiver, ReceiverPhase.taken]
    refine ⟨?_, by simp [Lowering], by simp, fun hone _ => Or.inl ?_⟩
    · unfold Counted
      rw [hout]
      exact h.counted
    · rw [hout] at hone
      cases readable with
      | true => rfl
      | false =>
        have := (h.registering false hreceiver).2 rfl
        omega

/-- What every step of a run has to meet. -/
def Admissible (s : Channel α) (a : Action α) : Prop := s.Fits ∧ s.InTime a

instance [DecidableEq α] (s : Channel α) (a : Action α) : Decidable (s.Admissible a) :=
  inferInstanceAs (Decidable (_ < _ ∧ (_ → ¬ _)))

theorem step_sound (s : Channel α) (a : Action α) (h : s.Sound) (ha : s.Admissible a) :
    (s.step a).Sound := by
  obtain ⟨hfits, htime⟩ := ha
  cases a with
  | send t => exact send_sound h t
  | count => exact count_sound h hfits htime
  | toggle => exact toggle_sound h
  | clone => exact clone_sound h
  | drop => exact drop_sound h
  | tryRecv => exact tryRecv_sound h
  | load => exact load_sound h hfits
  | unset => exact unset_sound h
  | decrement => exact decrement_sound h hfits
  | reset => exact reset_sound h
  | register => exact register_sound h hfits
  | fill => exact fill_sound h

theorem Sound.readable {s : Channel α} (h : s.Sound) (hquiet : s.Quiet) (hdue : s.Due)
    (hregistered : s.setReadiness ≠ none) : s.setReadiness = some true := by
  obtain ⟨hcounting, htoggling, hidle⟩ := hquiet
  have hone : 1 ≤ s.outstanding := by
    have hfarewell := farewell_bounds s.senders
    simp only [outstanding, hcounting, hidle, ReceiverPhase.taken]
    rcases hdue with hqueue | hgone
    · have := List.length_pos_iff.mpr hqueue
      omega
    · have : farewell s.senders = 1 := if_pos hgone
      omega
  refine (h.ready hone hregistered).resolve_right fun hpromised => ?_
  simp [Promised, Lowering, htoggling, hidle] at hpromised

/-- No wakeup is lost: whatever the order of the steps of all senders and the receiver, once no
one is in the middle of an operation, a queue with a message in it, or one that every sender has
left, has a readable readiness. -/
theorem run_readable (actions : List (Action α))
    (h : Runs.Permitted step Admissible channel actions)
    (hquiet : (actions.foldl step channel).Quiet) (hdue : (actions.foldl step channel).Due)
    (hregistered : (actions.foldl step channel).setReadiness ≠ none) :
    (actions.foldl step channel).setReadiness = some true :=
  (Runs.invariant step_sound actions channel channel_sound h).readable hquiet hdue hregistered

/-- A message sent while the last one is being received: the receiver, who has unset the
readiness, finds it counted and sets the readiness again. -/
theorem run_readable_race :
    ∃ s : Channel ℕ, s.setReadiness = some true ∧ s.queue = [2] := by
  have h := run_readable (α := ℕ)
    [.register, .fill, .send 1, .count, .toggle, .tryRecv, .load, .unset, .send 2, .count,
      .decrement, .reset]
    (by decide +kernel) (by decide) (Or.inl (by decide)) (by decide)
  exact ⟨_, h, by decide⟩

/-- A message counted after `register` has loaded zero and before it fills the cell goes
unnoticed. -/
example : ([.register, .send 1, .count, .toggle, .fill].foldl step
    (channel : Channel ℕ)).setReadiness = some false := by decide

end Channel
end Rio.Corcovado
