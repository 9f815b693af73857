import Rio.Lib.Runs

/-! Timers: events that are sent at a deadline, once or again after every interval. The queue is
ordered by deadline, and by the order of scheduling among equal deadlines. -/

set_option linter.dupNamespace false

namespace Rio.Rioterm

inductive Topic
  | render | renderRoute | resizeReconcile | updateConfig | cursorBlinking | updateTitles
  | selectionScrolling
  deriving DecidableEq, Repr

def Topic.isRouteScoped : Topic → Bool
  | .render | .renderRoute | .cursorBlinking | .selectionScrolling => true
  | .resizeReconcile | .updateConfig | .updateTitles => false

structure TimerId where
  topic : Topic
  id : ℕ
  deriving DecidableEq, Repr

def TimerId.shouldRemoveForRoute (t : TimerId) (routeId : ℕ) : Bool :=
  t.id = routeId && t.topic.isRouteScoped

/-- An event to be sent at a time of the clock. -/
structure Timer (α : Type*) where
  deadline : ℕ
  event : α
  id : TimerId
  interval : Option ℕ
  deriving DecidableEq, Repr

structure Scheduler (α : Type*) where
  timers : List (Timer α)
  deriving DecidableEq, Repr

variable {α : Type*}

namespace Scheduler

def new : Scheduler α := ⟨[]⟩

/-- The timer that `schedule` makes when it reads the clock at `now`. -/
def timer (now : ℕ) (event : α) (interval : ℕ) (rep : Bool) (id : TimerId) : Timer α where
  deadline := now + interval
  event := event
  id := id
  interval := if rep then some interval else none

/-- Behind all timers that are not later. -/
def insert (s : Scheduler α) (t : Timer α) : Scheduler α :=
  ⟨s.timers.insertIdx (s.timers.findIdx fun other => decide (t.deadline < other.deadline)) t⟩

def schedule (s : Scheduler α) (now : ℕ) (event : α) (interval : ℕ) (rep : Bool) (id : TimerId) :
    Scheduler α :=
  s.insert (timer now event interval rep id)

/-- What a step adds to the queue, sends, and drops unsent. -/
structure Report (α : Type*) where
  scheduled : List (Timer α) := []
  sent : List (Timer α) := []
  dropped : List (Timer α) := []
  deriving DecidableEq, Repr

def Report.append (r r' : Report α) : Report α :=
  ⟨r.scheduled ++ r'.scheduled, r.sent ++ r'.sent, r.dropped ++ r'.dropped⟩

/-- The timer that repeats a sent one, scheduled when the clock is read again. -/
def again (t : Timer α) (now : ℕ) : Option (Timer α) :=
  t.interval.map fun interval => timer now t.event interval true t.id

/-- The loop of `update`, with the readings of the clock in `schedule`; the fuel bounds its
turns. -/
def updateLoop (now : ℕ) : ℕ → List ℕ → Scheduler α → Scheduler α × Report α
  | 0, _, s => (s, {})
  | fuel + 1, clock, s =>
    match s.timers with
    | [] => (s, {})
    | t :: rest =>
      if t.deadline ≤ now then
        let repeated := again t (clock.headD now)
        let s' : Scheduler α := repeated.elim ⟨rest⟩ (⟨rest⟩ : Scheduler α).insert
        let (s', report) := updateLoop now fuel (if repeated.isSome then clock.tail else clock) s'
        (s', Report.append ⟨repeated.toList, [t], []⟩ report)
      else (s, {})

/-- Send what is due. Every turn sends a timer that was due at the start. -/
def update (s : Scheduler α) (now : ℕ) (clock : List ℕ) : Scheduler α × Report α :=
  updateLoop now s.timers.length clock s

/-- The closest deadline, which `update` returns. -/
def nextDeadline (s : Scheduler α) : Option ℕ := s.timers.head?.map Timer.deadline

def unschedule (s : Scheduler α) (id : TimerId) : Scheduler α × Report α :=
  (⟨s.timers.eraseP fun t => t.id = id⟩, { dropped := (s.timers.find? fun t => t.id = id).toList })

def scheduled (s : Scheduler α) (id : TimerId) : Bool := s.timers.any fun t => t.id = id

def unscheduleWindow (s : Scheduler α) (id : ℕ) : Scheduler α × Report α :=
  (⟨s.timers.filter fun t => !t.id.shouldRemoveForRoute id⟩,
    { dropped := s.timers.filter fun t => t.id.shouldRemoveForRoute id })

end Scheduler

inductive SchedulerOp (α : Type*)
  | schedule (now : ℕ) (event : α) (interval : ℕ) (rep : Bool) (id : TimerId)
  /-- The clock when `update` reads it, and every time it is read again for a repeated event. -/
  | update (now : ℕ) (clock : List ℕ)
  | unschedule (id : TimerId)
  | unscheduleWindow (id : ℕ)
  deriving DecidableEq, Repr

namespace Scheduler

def step (s : Scheduler α) : SchedulerOp α → Scheduler α × Report α
  | .schedule now event interval rep id =>
    (s.schedule now event interval rep id, { scheduled := [timer now event interval rep id] })
  | .update now clock => s.update now clock
  | .unschedule id => s.unschedule id
  | .unscheduleWindow id => s.unscheduleWindow id

/-- A scheduler with everything it has reported. -/
def stepReport (r : Scheduler α × Report α) (op : SchedulerOp α) : Scheduler α × Report α :=
  ((r.1.step op).1, r.2.append (r.1.step op).2)

def run (ops : List (SchedulerOp α)) : Scheduler α × Report α := ops.foldl stepReport (new, {})

/-- The clock does not run backwards inside an `update`, and what repeats does so after some
time. -/
def Admissible : SchedulerOp α → Prop
  | .schedule _ _ interval rep _ => rep = true → 0 < interval
  | .update now clock => ∀ t ∈ clock, now ≤ t
  | .unschedule _ | .unscheduleWindow _ => True

theorem find_append_eraseP {β : Type*} (p : β → Bool) (l : List β) :
    l.Perm ((l.find? p).toList ++ l.eraseP p) := by
  induction l with
  | nil => exact List.Perm.nil
  | cons x xs ih =>
    by_cases hx : p x = true
    · rw [List.find?_cons_of_pos hx, List.eraseP_cons_of_pos hx]
      exact List.Perm.refl _
    · rw [List.find?_cons_of_neg hx, List.eraseP_cons_of_neg hx]
      exact (ih.cons x).trans List.perm_middle.symm

/-! ### Insertion -/

/-- The timers with a deadline. -/
def group (d : ℕ) (timers : List (Timer α)) : List (Timer α) :=
  timers.filter fun t => t.deadline = d

theorem group_append (d : ℕ) (xs ys : List (Timer α)) :
    group d (xs ++ ys) = group d xs ++ group d ys :=
  List.filter_append xs ys

def Sorted (timers : List (Timer α)) : Prop :=
  timers.Pairwise fun a b => a.deadline ≤ b.deadline

theorem insertIdx_eq_append (t : Timer α) :
    ∀ {n : ℕ} {timers : List (Timer α)}, n ≤ timers.length →
      timers.insertIdx n t = timers.take n ++ t :: timers.drop n
  | 0, _, _ => rfl
  | n + 1, x :: xs, h => by
    rw [List.insertIdx_succ_cons, insertIdx_eq_append t (Nat.le_of_succ_le_succ h)]
    rfl

/-- In a sorted queue the timers that are not later stand before the ones that are. -/
theorem insert_split (s : Scheduler α) (h : Sorted s.timers) (t : Timer α) :
    ∃ early late, s.timers = early ++ late ∧ (s.insert t).timers = early ++ t :: late ∧
      (∀ e ∈ early, e.deadline ≤ t.deadline) ∧ ∀ l ∈ late, t.deadline < l.deadline := by
  let later : Timer α → Bool := fun other => decide (t.deadline < other.deadline)
  refine ⟨s.timers.take (s.timers.findIdx later), s.timers.drop (s.timers.findIdx later),
    (List.take_append_drop _ _).symm, ?_, ?_, ?_⟩
  · exact insertIdx_eq_append t List.findIdx_le_length
  · intro e he
    obtain ⟨i, hi, rfl⟩ := List.mem_take_iff_getElem.mp he
    have hnot := List.not_of_lt_findIdx (p := later) (show i < s.timers.findIdx later by omega)
    simpa [later] using hnot
  · intro l hl
    obtain ⟨i, hi, rfl⟩ := List.mem_drop_iff_getElem.mp hl
    have hfirst := List.findIdx_getElem (p := later) (w := show s.timers.findIdx later <
      s.timers.length by omega)
    have hle : s.timers[s.timers.findIdx later].deadline ≤
        s.timers[s.timers.findIdx later + i].deadline := by
      rcases Nat.eq_zero_or_pos i with rfl | hpos
      · exact le_rfl
      · exact List.pairwise_iff_getElem.mp h _ _ _ _ (by omega)
    have : t.deadline < s.timers[s.timers.findIdx later].deadline := by simpa [later] using hfirst
    omega

/-- A timer in front of later ones is the last with its deadline. -/
theorem group_behind (d : ℕ) {early late : List (Timer α)} {t : Timer α}
    (hlate : ∀ l ∈ late, t.deadline < l.deadline) :
    group d (early ++ t :: late) = group d (early ++ late ++ [t]) := by
  by_cases hd : t.deadline = d
  · have hnone : group d late = [] := by
      refine List.filter_eq_nil_iff.mpr fun l hl => ?_
      have := hlate l hl
      simp only [decide_eq_true_eq]
      omega
    rw [group_append, group_append, group_append, hnone, List.append_nil]
    congr 1
    change group d ([t] ++ late) = _
    rw [group_append, hnone, List.append_nil]
  · simp [group, hd]

/-! ### What a run keeps -/

/-- The queue is sorted; what was scheduled is sent, dropped or still queued, each timer once; and
among the timers of one deadline the ones scheduled first are sent first. -/
structure Keeps (s : Scheduler α) (r : Report α) : Prop where
  sorted : Sorted s.timers
  conserved : r.scheduled.Perm (r.sent ++ r.dropped ++ s.timers)
  fifo : ∀ d, (group d r.sent ++ group d s.timers).Sublist (group d r.scheduled)
  repeats : ∀ t ∈ s.timers, ∀ interval, t.interval = some interval → 0 < interval

section
variable {s : Scheduler α} {r : Report α}

theorem new_keeps : Keeps (new : Scheduler α) {} :=
  ⟨List.Pairwise.nil, List.Perm.nil, fun _ => List.Sublist.slnil, by simp [new]⟩

theorem insert_keeps (h : Keeps s r) (t : Timer α)
    (hrepeats : ∀ interval, t.interval = some interval → 0 < interval) :
    Keeps (s.insert t) (r.append ⟨[t], [], []⟩) := by
  obtain ⟨early, late, htimers, hinsert, hearly, hlate⟩ := insert_split s h.sorted t
  have hsorted := h.sorted
  rw [Sorted, htimers, List.pairwise_append] at hsorted
  obtain ⟨hearlySorted, hlateSorted, hacross⟩ := hsorted
  have hperm : (early ++ t :: late).Perm (s.timers ++ [t]) := by
    rw [htimers]
    exact List.perm_middle.trans (List.perm_append_singleton t (early ++ late)).symm
  refine ⟨?_, ?_, ?_, ?_⟩
  · rw [hinsert, Sorted, List.pairwise_append, List.pairwise_cons]
    refine ⟨hearlySorted, ⟨fun l hl => (hlate l hl).le, hlateSorted⟩, ?_⟩
    intro e he l hl
    rcases List.mem_cons.mp hl with rfl | hl
    · exact hearly e he
    · exact hacross e he l hl
  · rw [hinsert]
    simp only [Report.append, List.append_nil]
    calc r.scheduled ++ [t]
      _ |>.Perm (r.sent ++ r.dropped ++ s.timers ++ [t]) := h.conserved.append_right [t]
      _ |>.Perm (r.sent ++ r.dropped ++ (early ++ t :: late)) := by
        rw [List.append_assoc]
        exact hperm.symm.append_left _
  · intro d
    rw [hinsert]
    simp only [Report.append, List.append_nil]
    rw [group_behind d hlate, ← htimers, group_append, group_append, ← List.append_assoc]
    exact (h.fifo d).append_right _
  · intro other hother
    rw [hinsert] at hother
    rcases List.mem_append.mp (hperm.mem_iff.mp hother) with hold | hnew
    · exact h.repeats other hold
    · rw [List.mem_singleton.mp hnew]
      exact hrepeats

/-- The first timer leaves the queue and is sent. -/
theorem pop_keeps (h : Keeps s r) {t : Timer α} {rest : List (Timer α)}
    (htimers : s.timers = t :: rest) : Keeps ⟨rest⟩ (r.append ⟨[], [t], []⟩) := by
  refine ⟨?_, ?_, fun d => ?_, fun other hother => h.repeats other (by simp [htimers, hother])⟩
  · have hsorted := h.sorted
    rw [Sorted, htimers] at hsorted
    exact (List.pairwise_cons.mp hsorted).2
  · have hconserved := h.conserved
    rw [htimers] at hconserved
    simp only [Report.append, List.append_nil]
    refine hconserved.trans ?_
    rw [List.append_assoc, List.append_assoc, List.append_assoc]
    exact List.Perm.append_left _ (List.perm_middle.trans (List.Perm.refl _))
  · have hfifo := h.fifo d
    rw [htimers] at hfifo
    simp only [Report.append, List.append_nil, group_append]
    rw [List.append_assoc, ← group_append]
    exact hfifo

theorem append_assoc (r r' r'' : Report α) :
    (r.append r').append r'' = r.append (r'.append r'') := by
  simp [Report.append]

theorem append_nil (r : Report α) : r.append {} = r := by
  simp [Report.append]

theorem again_interval {t t' : Timer α} {now : ℕ} (h : again t now = some t') :
    t'.interval = t.interval ∧ ∃ interval, t.interval = some interval ∧
      t'.deadline = now + interval := by
  obtain ⟨interval, hinterval, rfl⟩ := Option.map_eq_some_iff.mp h
  exact ⟨hinterval.symm, interval, hinterval, rfl⟩

theorem updateLoop_keeps (now : ℕ) : ∀ (fuel : ℕ) (clock : List ℕ) {s : Scheduler α}
    {r : Report α}, Keeps s r →
    Keeps (updateLoop now fuel clock s).1 (r.append (updateLoop now fuel clock s).2)
  | 0, _, s, r, h => by
    rw [updateLoop, append_nil]
    exact h
  | fuel + 1, clock, s, r, h => by
    unfold updateLoop
    split
    case h_1 => exact (append_nil r).symm ▸ h
    case h_2 t rest htimers =>
      split
      case isFalse => exact (append_nil r).symm ▸ h
      case isTrue =>
        have hpop := pop_keeps h htimers
        have hmem : t ∈ s.timers := by simp [htimers]
        dsimp only
        rw [← append_assoc]
        refine updateLoop_keeps now fuel _ ?_
        cases hagain : again t (clock.headD now) with
        | none => exact hpop
        | some t' =>
          have hinsert := insert_keeps hpop t' fun interval hinterval =>
            h.repeats t hmem interval ((again_interval hagain).1 ▸ hinterval)
          simpa [Report.append] using hinsert

theorem unschedule_keeps (h : Keeps s r) (id : TimerId) :
    Keeps (s.unschedule id).1 (r.append (s.unschedule id).2) := by
  refine ⟨h.sorted.sublist List.eraseP_sublist, ?_, fun d => ?_,
    fun t ht => h.repeats t (List.eraseP_subset ht)⟩
  · have hsplit : s.timers.Perm ((s.timers.find? fun t => t.id = id).toList ++
        s.timers.eraseP fun t => t.id = id) := find_append_eraseP _ s.timers
    simp only [Report.append, unschedule, List.append_nil]
    refine h.conserved.trans ?_
    rw [← List.append_assoc, List.append_assoc (r.sent ++ r.dropped)]
    exact hsplit.append_left _
  · have hfewer := (List.eraseP_sublist (p := fun t => decide (t.id = id)) (l := s.timers)).filter
      fun t => decide (t.deadline = d)
    simp only [Report.append, unschedule, List.append_nil]
    exact (List.Sublist.append_left hfewer _).trans (h.fifo d)

theorem unscheduleWindow_keeps (h : Keeps s r) (id : ℕ) :
    Keeps (s.unscheduleWindow id).1 (r.append (s.unscheduleWindow id).2) := by
  refine ⟨h.sorted.sublist List.filter_sublist, ?_, fun d => ?_,
    fun t ht => h.repeats t (List.mem_of_mem_filter ht)⟩
  · simp only [Report.append, unscheduleWindow, List.append_nil]
    refine h.conserved.trans ?_
    rw [← List.append_assoc, List.append_assoc (r.sent ++ r.dropped)]
    exact (List.filter_append_perm _ s.timers).symm.append_left _
  · have hfewer := (List.filter_sublist (p := fun t : Timer α => !t.id.shouldRemoveForRoute id)
      (l := s.timers)).filter fun t => decide (t.deadline = d)
    simp only [Report.append, unscheduleWindow, List.append_nil]
    exact (List.Sublist.append_left hfewer _).trans (h.fifo d)

theorem step_keeps (h : Keeps s r) (op : SchedulerOp α) (hop : Admissible op) :
    Keeps (s.step op).1 (r.append (s.step op).2) := by
  cases op with
  | schedule now event interval rep id =>
    refine insert_keeps h (timer now event interval rep id) fun i hi => ?_
    cases rep with
    | true =>
      obtain rfl : interval = i := Option.some.inj hi
      exact hop rfl
    | false => cases hi
  | update now clock => exact updateLoop_keeps now _ clock h
  | unschedule id => exact unschedule_keeps h id
  | unscheduleWindow id => exact unscheduleWindow_keeps h id

end

theorem run_keeps (ops : List (SchedulerOp α)) (h : ∀ op ∈ ops, Admissible op) :
    Keeps (run ops).1 (run ops).2 := by
  have hpermitted : Runs.Permitted stepReport (fun _ op => Admissible op)
      ((new, {}) : Scheduler α × Report α) ops := Runs.Permitted.of_forall h
  have hstep : ∀ (r : Scheduler α × Report α) (op : SchedulerOp α), Keeps r.1 r.2 →
      Admissible op → Keeps (stepReport r op).1 (stepReport r op).2 :=
    fun _ op hr hop => step_keeps hr op hop
  exact Runs.invariant hstep ops (new, {}) new_keeps hpermitted

/-- Every timer that is ever scheduled, a repetition included, is sent once, or dropped by a
cancellation, or still queued; the queue is in the order of the deadlines, and of two timers with
one deadline the one scheduled first is sent first. -/
theorem run_conserved (ops : List (SchedulerOp α)) (h : ∀ op ∈ ops, Admissible op) :
    (run ops).2.scheduled.Perm ((run ops).2.sent ++ (run ops).2.dropped ++ (run ops).1.timers) ∧
      (run ops).1.timers.Pairwise (fun a b => a.deadline ≤ b.deadline) ∧
      ∀ d, (group d (run ops).2.sent ++ group d (run ops).1.timers).Sublist
        (group d (run ops).2.scheduled) :=
  have hkeeps := run_keeps ops h
  ⟨hkeeps.conserved, hkeeps.sorted, hkeeps.fifo⟩

/-! ### What an update sends -/

def due (now : ℕ) (timers : List (Timer α)) : List (Timer α) :=
  timers.filter fun t => t.deadline ≤ now

theorem due_eq_nil_of_sorted {now : ℕ} {t : Timer α} {rest : List (Timer α)}
    (hsorted : Sorted (t :: rest)) (hlate : ¬ t.deadline ≤ now) : due now (t :: rest) = [] := by
  refine List.filter_eq_nil_iff.mpr fun other hother => ?_
  have hle : t.deadline ≤ other.deadline := by
    rcases List.mem_cons.mp hother with rfl | hmem
    · exact le_rfl
    · exact (List.pairwise_cons.mp hsorted).1 other hmem
  simp only [decide_eq_true_eq]
  omega

theorem due_insert {now : ℕ} {s : Scheduler α} (hsorted : Sorted s.timers) {t : Timer α}
    (hlate : now < t.deadline) : due now (s.insert t).timers = due now s.timers := by
  obtain ⟨early, late, htimers, hinsert, -, -⟩ := insert_split s hsorted t
  rw [hinsert, htimers]
  unfold due
  rw [List.filter_append, List.filter_append, List.filter_cons_of_neg (by simpa using hlate)]

/-- What repeats is scheduled after the clock was read, so one turn for every timer that is due is
enough. -/
theorem updateLoop_sends (now : ℕ) : ∀ (fuel : ℕ) (clock : List ℕ) {s : Scheduler α}
    {r : Report α}, Keeps s r → (∀ t ∈ clock, now ≤ t) → (due now s.timers).length ≤ fuel →
    (updateLoop now fuel clock s).2.sent = due now s.timers ∧
      due now (updateLoop now fuel clock s).1.timers = []
  | 0, _, s, _, _, _, hfuel => by
    have hnil : due now s.timers = [] := List.length_eq_zero_iff.mp (by omega)
    exact ⟨hnil.symm, hnil⟩
  | fuel + 1, clock, s, r, h, hclock, hfuel => by
    unfold updateLoop
    split
    case h_1 htimers => simp [htimers, due]
    case h_2 t rest htimers =>
      split
      case isFalse hlate =>
        have hnil : due now s.timers = [] := by
          rw [htimers]
          exact due_eq_nil_of_sorted (htimers ▸ h.sorted) hlate
        exact ⟨hnil.symm, hnil⟩
      case isTrue hdue =>
        have hpop := pop_keeps h htimers
        have hcons : due now s.timers = t :: due now rest := by
          rw [htimers]
          exact List.filter_cons_of_pos (by simpa using hdue)
        have hhead : now ≤ clock.headD now := by
          cases clock with
          | nil => exact le_rfl
          | cons c cs => exact hclock c List.mem_cons_self
        rw [hcons, List.length_cons] at hfuel
        dsimp only
        rw [hcons]
        cases hagain : again t (clock.headD now) with
        | none =>
          obtain ⟨hsent, hdone⟩ :=
            updateLoop_sends now fuel clock hpop hclock (by simpa using hfuel)
          exact ⟨by simp [Report.append, hsent], hdone⟩
        | some t' =>
          obtain ⟨hinterval, interval, hsome, hdeadline⟩ := again_interval hagain
          have hpos := h.repeats t (by simp [htimers]) interval hsome
          have hsame : due now ((⟨rest⟩ : Scheduler α).insert t').timers = due now rest :=
            due_insert hpop.sorted (by omega)
          have hinsert := insert_keeps hpop t' fun i hi =>
            h.repeats t (by simp [htimers]) i (hinterval ▸ hi)
          have hrest : ∀ c ∈ clock.tail, now ≤ c := fun c hc => hclock c (List.mem_of_mem_tail hc)
          obtain ⟨hsent, hdone⟩ := updateLoop_sends now fuel clock.tail hinsert hrest
            (by rw [hsame]; simpa using hfuel)
          rw [hsame] at hsent
          exact ⟨by simp [Report.append, hsent], hdone⟩

/-- In every run an update sends exactly the timers whose deadline is reached, in the order of the
queue: none is sent early, none is left overdue, and the deadline returned is the closest one. -/
theorem run_update (ops : List (SchedulerOp α)) (h : ∀ op ∈ ops, Admissible op) (now : ℕ)
    (clock : List ℕ) (hclock : ∀ t ∈ clock, now ≤ t) :
    let r := (run ops).1.update now clock
    r.2.sent = due now (run ops).1.timers ∧ (∀ t ∈ r.1.timers, now < t.deadline) ∧
      ∀ deadline, r.1.nextDeadline = some deadline →
        now < deadline ∧ ∀ t ∈ r.1.timers, deadline ≤ t.deadline := by
  have hkeeps := run_keeps ops h
  obtain ⟨hsent, hdone⟩ := updateLoop_sends now (run ops).1.timers.length clock hkeeps hclock
    (List.length_filter_le _ _)
  have hafter : ∀ t ∈ ((run ops).1.update now clock).1.timers, now < t.deadline := by
    intro t ht
    have := List.filter_eq_nil_iff.mp hdone t ht
    simpa using this
  refine ⟨hsent, hafter, fun deadline hnext => ?_⟩
  have hsorted : Sorted ((run ops).1.update now clock).1.timers :=
    (updateLoop_keeps now (run ops).1.timers.length clock hkeeps).sorted
  obtain ⟨t, ht, rfl⟩ := Option.map_eq_some_iff.mp hnext
  obtain ⟨rest, hrest⟩ := List.head?_eq_some_iff.mp ht
  rw [hrest] at hafter hsorted
  refine ⟨hafter t List.mem_cons_self, fun other hother => ?_⟩
  rw [hrest] at hother
  rcases List.mem_cons.mp hother with rfl | hmem
  · exact le_rfl
  · exact (List.pairwise_cons.mp hsorted).1 other hmem

/-- A timer that blinks every ten, and one scheduled for the same time. -/
theorem run_update_twice :
    ((run [.schedule 0 'a' 10 true ⟨.cursorBlinking, 1⟩,
      .schedule 5 'b' 5 false ⟨.render, 1⟩]).1.update 12 [13]).2.sent.map Timer.event =
      ['a', 'b'] := by
  rw [(run_update [.schedule 0 'a' 10 true ⟨.cursorBlinking, 1⟩,
      .schedule 5 'b' 5 false ⟨.render, 1⟩] (by simp [Admissible]) 12 [13] (by decide)).1]
  decide

theorem run_conserved_twice :
    (run [.schedule 0 'a' 10 true ⟨.cursorBlinking, 1⟩, .update 12 [13],
      .unscheduleWindow 1]).2.scheduled.length = 2 := by
  have h := (run_conserved [.schedule 0 'a' 10 true ⟨.cursorBlinking, 1⟩, .update 12 [13],
    .unscheduleWindow 1] (by simp [Admissible])).1.length_eq
  exact h.trans (by decide)

end Scheduler
end Rio.Rioterm
