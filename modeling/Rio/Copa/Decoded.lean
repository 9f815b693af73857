import Rio.Copa.Alike

/-! What a sequence says: the values of its parameters, the fields of its string. The parser
hands out just these, however the sequence is cut into reads and whatever was read before. -/

set_option linter.dupNamespace false

namespace Rio.Copa
open Rio.Utf8 Rio.Transducer

/-! ### Splitting -/

theorem splitOn_append {xs : List UInt8} {sep : UInt8} (h : sep ∉ xs) (ys : List UInt8) :
    (xs ++ ys).splitOn sep = (ys.splitOn sep).modifyHead (xs ++ ·) := by
  induction xs with
  | nil => exact (congrFun List.modifyHead_id _).symm
  | cons x xs ih =>
    have hx : (x == sep) = false := beq_eq_false_iff_ne.mpr (fun hx => h (hx ▸ List.mem_cons_self))
    rw [List.cons_append, List.splitOn_cons_eq_if_modifyHead, hx,
      ih (fun hmem => h (List.mem_cons_of_mem x hmem)), List.modifyHead_modifyHead]
    rfl

/-- The groups cut off behind a number of values. -/
def firstValues {α : Type*} : List (List α) → ℕ → List (List α)
  | [], _ => []
  | group :: groups, n =>
    if n = 0 then [] else group.take n :: firstValues groups (n - group.length)

theorem firstValues_zero {α : Type*} (groups : List (List α)) : firstValues groups 0 = [] := by
  cases groups with
  | nil => rfl
  | cons group groups => rfl

theorem firstValues_append {α : Type*} {groups : List (List α)} (hne : ∀ g ∈ groups, g ≠ [])
    (rest : List (List α)) {n : ℕ} (hn : groups.flatten.length ≤ n) :
    firstValues (groups ++ rest) n = groups ++ firstValues rest (n - groups.flatten.length) := by
  induction groups generalizing n with
  | nil => rfl
  | cons g groups ih =>
    have hpos := List.length_pos_iff.mpr (hne g List.mem_cons_self)
    rw [List.flatten_cons, List.length_append] at hn ⊢
    rw [List.cons_append, firstValues, if_neg (by omega), List.take_of_length_le (by omega),
      ih (fun g' hg' => hne g' (List.mem_cons_of_mem g hg')) (by omega), Nat.sub_sub]
    rfl

theorem firstValues_of_le {α : Type*} {groups : List (List α)} (hne : ∀ g ∈ groups, g ≠ [])
    {n : ℕ} (hn : groups.flatten.length ≤ n) : firstValues groups n = groups := by
  have happend := firstValues_append hne [] hn
  rwa [List.append_nil, firstValues, List.append_nil] at happend

/-! ### Parameters -/

/-- A decimal number, saturated; no digits are zero. -/
def decimal (digits : List UInt8) : UInt16 :=
  UInt16.ofNat (min 65535 (digits.foldl (fun n b => 10 * n + (b.toNat - 0x30)) 0))

def values (group : List UInt8) : List UInt16 := (group.splitOn 0x3A).map decimal

/-- The values of a parameter string, in its groups. -/
def groups (params : List UInt8) : List (List UInt16) := (params.splitOn 0x3B).map values

def isDigit (b : UInt8) : Bool := inRange 0x30 0x39 b

theorem decimal_concat (digits : List UInt8) (b : UInt8) :
    decimal (digits ++ [b]) = Parser.addDigit (decimal digits) b := by
  unfold decimal Parser.addDigit
  rw [List.foldl_append]
  dsimp only [List.foldl_cons, List.foldl_nil]
  generalize digits.foldl (fun n b => 10 * n + (b.toNat - 0x30)) 0 = n
  have hn : (UInt16.ofNat (min 65535 n)).toNat = min 65535 n :=
    UInt16.toNat_ofNat_of_lt' (by rw [UInt16.size]; omega)
  rw [hn]
  congr 1
  omega

theorem separators_not_mem {digits : List UInt8} (h : ∀ b ∈ digits, isDigit b = true) :
    0x3A ∉ digits ∧ 0x3B ∉ digits :=
  ⟨fun hmem => absurd (h _ hmem) (by decide), fun hmem => absurd (h _ hmem) (by decide)⟩

theorem groups_digits {digits : List UInt8} (h : ∀ b ∈ digits, isDigit b = true) :
    groups digits = [[decimal digits]] := by
  obtain ⟨hcolon, hsemicolon⟩ := separators_not_mem h
  unfold groups
  rw [List.splitOn_eq_singleton hsemicolon, List.map_singleton]
  unfold values
  rw [List.splitOn_eq_singleton hcolon]
  rfl

theorem groups_semicolon {digits : List UInt8} (h : ∀ b ∈ digits, isDigit b = true)
    (rest : List UInt8) : groups (digits ++ 0x3B :: rest) = [decimal digits] :: groups rest := by
  have hdigits := groups_digits h
  unfold groups at hdigits ⊢
  rw [List.splitOn_append_cons_self, List.map_append, hdigits]
  rfl

theorem groups_colon {digits : List UInt8} (h : ∀ b ∈ digits, isDigit b = true)
    (rest : List UInt8) :
    groups (digits ++ 0x3A :: rest) = (groups rest).modifyHead (decimal digits :: ·) := by
  obtain ⟨hcolon, hsemicolon⟩ := separators_not_mem h
  have hpre : (0x3B : UInt8) ∉ digits ++ [0x3A] := by
    rw [List.mem_append, List.mem_singleton]
    exact not_or.mpr ⟨hsemicolon, by decide⟩
  unfold groups
  rw [← List.singleton_append, ← List.append_assoc, splitOn_append hpre]
  cases hsplit : rest.splitOn 0x3B with
  | nil => exact absurd hsplit (List.splitOn_ne_nil _ _)
  | cons group more =>
    rw [List.modifyHead_cons, List.map_cons, List.map_cons, List.modifyHead_cons]
    congr 1
    unfold values
    rw [List.append_assoc, List.singleton_append,
      List.splitOn_append_cons_self_of_not_mem hcolon]
    rfl

/-- There is a first value. -/
theorem groups_cons (params : List UInt8) :
    ∃ value more rest, groups params = (value :: more) :: rest := by
  unfold groups
  cases hsplit : params.splitOn 0x3B with
  | nil => exact absurd hsplit (List.splitOn_ne_nil _ _)
  | cons group rest =>
    rw [List.map_cons]
    unfold values
    cases hvalues : group.splitOn 0x3A with
    | nil => exact absurd hvalues (List.splitOn_ne_nil _ _)
    | cons digits more => exact ⟨_, _, _, rfl⟩

theorem groups_ne_nil (params : List UInt8) : ∀ group ∈ groups params, group ≠ [] := by
  intro group hgroup hnil
  obtain ⟨part, -, hpart⟩ := List.mem_map.mp hgroup
  have hsplit := List.map_eq_nil_iff.mp (hpart.trans hnil)
  exact List.splitOn_ne_nil _ _ hsplit

namespace Parser

variable {p : Parser}

/-- One byte of a parameter string. -/
def paramStep (p : Parser) (b : UInt8) : Parser :=
  if isDigit b then p.actionParamnext b
  else if b = 0x3A then p.actionSubparam
  else p.actionParam

/-- What differs after a step of the parameters. -/
theorem paramStep_keeps (p : Parser) (b : UInt8) :
    (p.paramStep b).state = p.state ∧ (p.paramStep b).intermediates = p.intermediates ∧
      (p.paramStep b).intermediateIdx = p.intermediateIdx := by
  unfold paramStep actionParamnext actionSubparam actionParam
  split_ifs <;> exact ⟨rfl, rfl, rfl⟩

theorem paramStep_full (h : p.params.isFull = true) (b : UInt8) :
    p.paramStep b = { p with ignoring := true } := by
  unfold paramStep actionParamnext actionSubparam actionParam
  rw [if_pos h, if_pos h, if_pos h]
  split_ifs <;> rfl

/-- Behind the last value there is no room, and the sequence is marked. -/
theorem finish_full (h : p.params.isFull = true) (rest : List UInt8) :
    (rest.foldl paramStep p).finishParams.params = p.params ∧
      (rest.foldl paramStep p).finishParams.ignoring = true := by
  induction rest generalizing p with
  | nil =>
    rw [List.foldl_nil]
    unfold finishParams
    rw [if_pos h]
    exact ⟨rfl, rfl⟩
  | cons b rest ih =>
    rw [List.foldl_cons, paramStep_full h]
    exact ih h

/-- The groups collected so far, with those of the rest behind them. -/
def joined (done : List (List UInt16)) (current : List UInt16) (rest : List (List UInt16)) :
    List (List UInt16) := done ++ rest.modifyHead (current ++ ·)

theorem joined_nil (rest : List (List UInt16)) : joined [] [] rest = rest :=
  congrFun List.modifyHead_id rest

theorem joined_cons (done : List (List UInt16)) (current value : List UInt16)
    (rest : List (List UInt16)) :
    joined done current (value :: rest) = joined (done ++ [current ++ value]) [] rest := by
  unfold joined
  rw [List.modifyHead_cons, List.append_assoc, List.singleton_append]
  cases rest <;> rfl

theorem joined_modifyHead (done : List (List UInt16)) (current : List UInt16) (value : UInt16)
    (rest : List (List UInt16)) :
    joined done current (rest.modifyHead (value :: ·)) = joined done (current ++ [value]) rest := by
  unfold joined
  rw [List.modifyHead_modifyHead]
  congr 2
  funext group
  exact (List.append_cons current value group)

variable {done : List (List UInt16)} {current : List UInt16}

/-- A full list holds the first values of what would be collected. -/
theorem firstValues_full (h : p.params.Holds done current) (hfull : p.params.isFull = true)
    (params : List UInt8) :
    p.params.iter = firstValues (joined done current (groups params)) maxParams ∧
      maxParams < (joined done current (groups params)).flatten.length := by
  have hlen : p.params.len = maxParams := by simpa [Params.isFull] using hfull
  have hcount := h.len
  obtain ⟨value, more, rest, hgroups⟩ := groups_cons params
  unfold joined
  rw [h.iter, hgroups, List.modifyHead_cons, firstValues_append h.nonempty _ (by omega),
    firstValues]
  constructor
  · congr 1
    have hleft : maxParams - done.flatten.length = current.length := by omega
    rw [hleft, List.take_left]
    by_cases hnil : current = []
    · rw [if_pos hnil, if_pos (List.length_eq_zero_iff.mpr hnil)]
    · rw [if_neg hnil, if_neg (fun hzero => hnil (List.length_eq_zero_iff.mp hzero)),
        List.length_append, Nat.sub_eq_zero_of_le (Nat.le_add_right _ _), firstValues_zero]
  · rw [List.flatten_append, List.length_append, List.flatten_cons, List.length_append,
      List.length_append, List.length_cons]
    omega

/-- The rest of a parameter string, read behind the digits of a value. -/
theorem finish_gather (rest : List UInt8) (hrest : ∀ b ∈ rest, inRange 0x30 0x3B b = true)
    (digits : List UInt8) (hdigits : ∀ b ∈ digits, isDigit b = true)
    (h : p.params.Holds done current)
    (hparam : p.params.isFull = false → p.param = decimal digits) :
    (rest.foldl paramStep p).finishParams.params.iter =
        firstValues (joined done current (groups (digits ++ rest))) maxParams ∧
      (rest.foldl paramStep p).finishParams.ignoring = (p.ignoring ||
        decide (maxParams < (joined done current (groups (digits ++ rest))).flatten.length)) := by
  induction rest generalizing p digits done current with
  | nil =>
    rw [List.append_nil, List.foldl_nil]
    cases hfull : p.params.isFull with
    | true =>
      obtain ⟨hparams, hignoring⟩ := finish_full hfull []
      obtain ⟨hiter, hmore⟩ := firstValues_full h hfull digits
      rw [List.foldl_nil] at hparams hignoring
      rw [hparams, hignoring, decide_eq_true hmore, Bool.or_true]
      exact ⟨hiter, rfl⟩
    | false =>
      have hroom := h.len_lt hfull
      have hlen := h.len
      have hpush := h.push hfull p.param
      have hlast : joined done current (groups digits) = done ++ [current ++ [p.param]] := by
        rw [groups_digits hdigits, hparam hfull]
        rfl
      have hcount : (done ++ [current ++ [p.param]]).flatten.length ≤ maxParams := by
        have hnext := hpush.len
        rw [List.length_nil, Nat.add_zero] at hnext
        rw [← hnext]
        exact hroom
      have hiter := hpush.iter
      rw [if_pos rfl, List.append_nil] at hiter
      unfold finishParams
      rw [if_neg (by rw [hfull]; exact Bool.false_ne_true), hlast,
        firstValues_of_le hpush.nonempty hcount, decide_eq_false (by omega), Bool.or_false]
      exact ⟨hiter, rfl⟩
  | cons b rest ih =>
    have htail := fun c hc => hrest c (List.mem_cons_of_mem b hc)
    cases hfull : p.params.isFull with
    | true =>
      obtain ⟨hparams, hignoring⟩ := finish_full hfull (b :: rest)
      obtain ⟨hiter, hmore⟩ := firstValues_full h hfull (digits ++ b :: rest)
      rw [hparams, hignoring, decide_eq_true hmore, Bool.or_true]
      exact ⟨hiter, rfl⟩
    | false =>
      have hparam := hparam hfull
      rw [List.foldl_cons]
      unfold paramStep
      by_cases hdigit : isDigit b = true
      · rw [if_pos hdigit]
        unfold actionParamnext
        rw [if_neg (by rw [hfull]; exact Bool.false_ne_true), List.append_cons digits b rest]
        refine ih htail (digits ++ [b]) (fun c hc => ?_) h (fun _ => ?_)
        · rcases List.mem_append.mp hc with hold | hnew
          · exact hdigits c hold
          · rw [List.mem_singleton.mp hnew]
            exact hdigit
        · rw [decimal_concat, ← hparam]
      rw [if_neg hdigit]
      by_cases hcolon : b = 0x3A
      · rw [if_pos hcolon, hcolon, groups_colon hdigits, joined_modifyHead, ← hparam]
        unfold actionSubparam
        rw [if_neg (by rw [hfull]; exact Bool.false_ne_true)]
        exact ih htail [] nofun (h.extend hfull p.param) (fun _ => rfl)
      · have hsemicolon : b = 0x3B := by
          have hb := hrest b List.mem_cons_self
          unfold isDigit at hdigit
          unfold inRange at hb hdigit
          simp only [Bool.and_eq_true, decide_eq_true_eq] at hb hdigit
          grind
        rw [if_neg hcolon, hsemicolon, groups_semicolon hdigits, joined_cons, ← hparam]
        unfold actionParam
        rw [if_neg (by rw [hfull]; exact Bool.false_ne_true)]
        exact ih htail [] nofun (h.push hfull p.param) (fun _ => rfl)

/-! ### Control sequences -/

def withState (p : Parser) (state : State) : Parser := { p with state := state }

theorem actionCollect_withState (p : Parser) (state : State) (b : UInt8) :
    (p.withState state).actionCollect b = (p.actionCollect b).withState state := by
  unfold actionCollect withState
  split_ifs <;> rfl

theorem paramStep_withState (p : Parser) (state : State) (b : UInt8) :
    (p.withState state).paramStep b = (p.paramStep b).withState state := by
  unfold paramStep actionParamnext actionSubparam actionParam withState
  split_ifs <;> rfl

theorem finishParams_withState (p : Parser) (state : State) :
    (p.withState state).finishParams = p.finishParams.withState state := by
  unfold finishParams withState
  split_ifs <;> rfl

theorem finishParams_actionCollect (p : Parser) (b : UInt8) :
    (p.actionCollect b).finishParams = p.finishParams.actionCollect b := by
  unfold finishParams actionCollect
  split_ifs <;> rfl

/-- What is collected beside the parameters. -/
theorem collect_all (bs : List UInt8) (hfits : p.intermediates.length = maxIntermediates)
    (hidx : p.intermediateIdx ≤ maxIntermediates) :
    (bs.foldl actionCollect p).activeIntermediates =
        (p.activeIntermediates ++ bs).take maxIntermediates ∧
      (bs.foldl actionCollect p).ignoring =
        (p.ignoring || decide (maxIntermediates < p.intermediateIdx + bs.length)) ∧
      (bs.foldl actionCollect p).params = p.params := by
  have hlen : p.activeIntermediates.length = p.intermediateIdx := by
    unfold activeIntermediates
    rw [List.length_take, hfits, min_eq_left hidx]
  induction bs generalizing p with
  | nil =>
    rw [List.foldl_nil, List.append_nil, List.take_of_length_le (by omega), List.length_nil,
      decide_eq_false (by omega), Bool.or_false]
    exact ⟨rfl, rfl, rfl⟩
  | cons b bs ih =>
    rw [List.foldl_cons, List.length_cons]
    by_cases hfull : p.intermediateIdx = maxIntermediates
    · have hstep : p.actionCollect b = { p with ignoring := true } := if_pos hfull
      rw [hstep]
      obtain ⟨hactive, hignoring, hparams⟩ := ih (p := { p with ignoring := true }) hfits hidx hlen
      have hmore : decide (maxIntermediates < p.intermediateIdx + (bs.length + 1)) = true :=
        decide_eq_true (by omega)
      refine ⟨hactive.trans ?_, hignoring.trans ?_, hparams⟩
      · change (p.activeIntermediates ++ bs).take maxIntermediates = _
        rw [← hfull, ← hlen, List.take_left, List.take_left]
      · rw [hmore, Bool.or_true]
        rfl
    · have hstep : p.actionCollect b = { p with
          intermediates := p.intermediates.set p.intermediateIdx b
          intermediateIdx := p.intermediateIdx + 1 } := if_neg hfull
      have hactive' : (p.actionCollect b).activeIntermediates = p.activeIntermediates ++ [b] := by
        rw [hstep]
        unfold activeIntermediates
        dsimp only
        rw [List.take_add_one, List.take_set_of_le le_rfl,
          List.getElem?_set_self (by rw [hfits]; omega)]
        rfl
      have hfits' : (p.actionCollect b).intermediates.length = maxIntermediates := by
        rw [hstep]
        exact (List.length_set ..).trans hfits
      have hidx' : (p.actionCollect b).intermediateIdx = p.intermediateIdx + 1 := by rw [hstep]
      obtain ⟨hactive, hignoring, hparams⟩ := ih (p := p.actionCollect b) hfits'
        (by omega) (by rw [hactive', hidx', List.length_append, hlen]; rfl)
      rw [hactive, hignoring, hparams, hactive', hidx', List.append_assoc, List.singleton_append,
        hstep]
      refine ⟨rfl, ?_, rfl⟩
      dsimp only
      congr 2
      rw [Nat.add_assoc, Nat.add_comm 1]

/-- How a control sequence is introduced. -/
inductive Introducer
  | csi | dcs
  deriving DecidableEq, Repr

namespace Introducer

def byte : Introducer → UInt8
  | .csi => 0x5B
  | .dcs => 0x50

def entry : Introducer → State
  | .csi => .csiEntry
  | .dcs => .dcsEntry

def param : Introducer → State
  | .csi => .csiParam
  | .dcs => .dcsParam

def intermediate : Introducer → State
  | .csi => .csiIntermediate
  | .dcs => .dcsIntermediate

/-- The call at the end of the sequence. -/
def call (params : List (List UInt16)) (intermediates : List UInt8) (ignore : Bool)
    (action : UInt8) : Introducer → Call
  | .csi => .csiDispatch params intermediates ignore action
  | .dcs => .hook params intermediates ignore action

end Introducer

variable {k : Introducer} {b : UInt8}

private theorem advance_marker (hb : inRange 0x3C 0x3F b = true) :
    p.advanceCsiEntry b = ((p.actionCollect b).withState .csiParam, []) ∧
      p.advanceDcsEntry b = ((p.actionCollect b).withState .dcsParam, []) := by
  unfold advanceCsiEntry advanceDcsEntry isPlainC0 withState
  unfold inRange at *
  simp only [Bool.and_eq_true, decide_eq_true_eq, Bool.or_eq_true, beq_iff_eq] at *
  constructor <;> grind

private theorem advance_params (hb : inRange 0x30 0x3B b = true) :
    (p.advanceCsiEntry b = ((p.paramStep b).withState .csiParam, []) ∧
      p.advanceCsiParam b = (p.paramStep b, [])) ∧
      p.advanceDcsEntry b = ((p.paramStep b).withState .dcsParam, []) ∧
        p.advanceDcsParam b = (p.paramStep b, []) := by
  unfold advanceCsiEntry advanceCsiParam advanceDcsEntry advanceDcsParam paramStep isDigit
    isPlainC0 withState
  unfold inRange at *
  simp only [Bool.and_eq_true, decide_eq_true_eq, Bool.or_eq_true, beq_iff_eq] at *
  refine ⟨⟨?_, ?_⟩, ?_, ?_⟩ <;> grind

private theorem advance_intermediates (hb : inRange 0x20 0x2F b = true) :
    (p.advanceCsiEntry b = ((p.actionCollect b).withState .csiIntermediate, []) ∧
      p.advanceCsiParam b = ((p.actionCollect b).withState .csiIntermediate, []) ∧
        p.advanceCsiIntermediate b = (p.actionCollect b, [])) ∧
      p.advanceDcsEntry b = ((p.actionCollect b).withState .dcsIntermediate, []) ∧
        p.advanceDcsParam b = ((p.actionCollect b).withState .dcsIntermediate, []) ∧
          p.advanceDcsIntermediate b = (p.actionCollect b, []) := by
  unfold advanceCsiEntry advanceCsiParam advanceCsiIntermediate advanceDcsEntry advanceDcsParam
    advanceDcsIntermediate isPlainC0 withState
  unfold inRange at *
  simp only [Bool.and_eq_true, decide_eq_true_eq, Bool.or_eq_true, beq_iff_eq] at *
  refine ⟨⟨?_, ?_, ?_⟩, ?_, ?_, ?_⟩ <;> grind

private theorem advance_action (hb : inRange 0x40 0x7E b = true) :
    (p.advanceCsiEntry b = p.actionCsiDispatch b ∧ p.advanceCsiParam b = p.actionCsiDispatch b ∧
        p.advanceCsiIntermediate b = p.actionCsiDispatch b) ∧
      p.advanceDcsEntry b = p.actionHook b ∧ p.advanceDcsParam b = p.actionHook b ∧
        p.advanceDcsIntermediate b = p.actionHook b := by
  unfold advanceCsiEntry advanceCsiParam advanceCsiIntermediate advanceDcsEntry advanceDcsParam
    advanceDcsIntermediate isPlainC0
  unfold inRange at *
  simp only [Bool.and_eq_true, decide_eq_true_eq, Bool.or_eq_true, beq_iff_eq] at *
  refine ⟨⟨?_, ?_, ?_⟩, ?_, ?_, ?_⟩ <;> grind

/-- The states in which the bytes of a control sequence are read. -/
def Introducer.Reads (k : Introducer) (state : State) : Prop :=
  state = k.entry ∨ state = k.param ∨ state = k.intermediate

theorem changeState_marker (hstate : p.state = k.entry) (hb : inRange 0x3C 0x3F b = true) :
    p.changeState b = ((p.actionCollect b).withState k.param, []) := by
  unfold changeState
  cases k with
  | csi =>
    rw [hstate]
    exact (advance_marker hb).1
  | dcs =>
    rw [hstate]
    exact (advance_marker hb).2

theorem changeState_params (hstate : p.state = k.entry ∨ p.state = k.param)
    (hb : inRange 0x30 0x3B b = true) :
    p.changeState b = ((p.paramStep b).withState k.param, []) := by
  obtain ⟨⟨hce, hcp⟩, hde, hdp⟩ := advance_params (p := p) hb
  have hkeep (state : State) (h : p.state = state) :
      (p.paramStep b).withState state = p.paramStep b := by
    rw [← h, ← (p.paramStep_keeps b).1]
    rfl
  unfold changeState
  cases k with
  | csi =>
    rcases hstate with h | h
    · rw [h]
      exact hce
    · rw [h, hkeep _ h]
      exact hcp
  | dcs =>
    rcases hstate with h | h
    · rw [h]
      exact hde
    · rw [h, hkeep _ h]
      exact hdp

theorem changeState_intermediates (hstate : k.Reads p.state) (hb : inRange 0x20 0x2F b = true) :
    p.changeState b = ((p.actionCollect b).withState k.intermediate, []) := by
  obtain ⟨⟨hce, hcp, hci⟩, hde, hdp, hdi⟩ := advance_intermediates (p := p) hb
  have hkeep (state : State) (h : p.state = state) :
      (p.actionCollect b).withState state = p.actionCollect b := by
    rw [← h, ← actionCollect_state p b]
    rfl
  unfold changeState
  cases k with
  | csi =>
    rcases hstate with h | h | h
    · rw [h]
      exact hce
    · rw [h]
      exact hcp
    · rw [h, hkeep _ h]
      exact hci
  | dcs =>
    rcases hstate with h | h | h
    · rw [h]
      exact hde
    · rw [h]
      exact hdp
    · rw [h, hkeep _ h]
      exact hdi

theorem changeState_action (hstate : k.Reads p.state) (hb : inRange 0x40 0x7E b = true) :
    (p.changeState b).2 = [k.call p.finishParams.params.iter p.finishParams.activeIntermediates
      p.finishParams.ignoring b] := by
  obtain ⟨⟨hce, hcp, hci⟩, hde, hdp, hdi⟩ := advance_action (p := p) hb
  unfold changeState
  cases k with
  | csi =>
    rcases hstate with h | h | h
    · rw [h]
      exact congrArg Prod.snd hce
    · rw [h]
      exact congrArg Prod.snd hcp
    · rw [h]
      exact congrArg Prod.snd hci
  | dcs =>
    rcases hstate with h | h | h
    · rw [h]
      exact congrArg Prod.snd hde
    · rw [h]
      exact congrArg Prod.snd hdp
    · rw [h]
      exact congrArg Prod.snd hdi

/-! ### Runs over sequences -/

theorem foldl_withState {f : Parser → UInt8 → Parser}
    (hf : ∀ (p : Parser) state b, f (p.withState state) b = (f p b).withState state)
    (bs : List UInt8) (p : Parser) (state : State) :
    bs.foldl f (p.withState state) = (bs.foldl f p).withState state := by
  induction bs generalizing p with
  | nil => rfl
  | cons b bs ih => rw [List.foldl_cons, List.foldl_cons, hf, ih]

/-- Bytes that are gathered without a call, in states of which each leads to one of them. -/
theorem run_gather {f : Parser → UInt8 → Parser} {ok : UInt8 → Bool} (inside : State → Prop)
    {next : State} (hf : ∀ (p : Parser) state b, f (p.withState state) b = (f p b).withState state)
    (hnext : inside next) (hground : ¬inside .ground)
    (hstep : ∀ (p : Parser) b, inside p.state → ok b = true →
      p.changeState b = ((f p b).withState next, []))
    (bs : List UInt8) (hbs : ∀ b ∈ bs, ok b = true) (hp : inside p.state) :
    ∃ state, inside state ∧ run stepByte p bs = ((bs.foldl f p).withState state, []) := by
  induction bs generalizing p with
  | nil => exact ⟨p.state, hp, rfl⟩
  | cons b bs ih =>
    have hbyte : p.stepByte b = ((f p b).withState next, []) := by
      rw [stepByte, if_neg (fun hg : p.state = .ground => hground (hg ▸ hp))]
      exact hstep p b hp (hbs b List.mem_cons_self)
    obtain ⟨state, hinside, hrun⟩ := ih (fun c hc => hbs c (List.mem_cons_of_mem b hc))
      (p := (f p b).withState next) hnext
    refine ⟨state, hinside, ?_⟩
    rw [run_cons, hbyte, hrun, foldl_withState hf]
    rfl

end Parser

/-- A control sequence behind its introducer. -/
structure ControlSequence where
  marker : List UInt8
  params : List UInt8
  intermediates : List UInt8
  action : UInt8
  marker_length : marker.length ≤ 1
  marker_range : ∀ b ∈ marker, inRange 0x3C 0x3F b = true
  params_range : ∀ b ∈ params, inRange 0x30 0x3B b = true
  intermediates_range : ∀ b ∈ intermediates, inRange 0x20 0x2F b = true
  action_range : inRange 0x40 0x7E action = true

namespace ControlSequence

variable (s : ControlSequence)

def bytes : List UInt8 := s.marker ++ s.params ++ s.intermediates ++ [s.action]

/-- The groups that are handed out. -/
def delivered : List (List UInt16) := firstValues (groups s.params) maxParams

/-- There was more than is handed out. -/
def exceeds : Bool :=
  decide (maxParams < (groups s.params).flatten.length) ||
    decide (maxIntermediates < s.marker.length + s.intermediates.length)

/-- All values are handed out where there are not too many. -/
theorem delivered_eq (h : (groups s.params).flatten.length ≤ maxParams) :
    s.delivered = groups s.params := firstValues_of_le (groups_ne_nil _) h

/-- The call of a sequence. -/
def call (k : Parser.Introducer) : Call :=
  k.call s.delivered ((s.marker ++ s.intermediates).take maxIntermediates) s.exceeds s.action

end ControlSequence

namespace Parser

variable {p : Parser} {k : Introducer}

/-- A new parser behind an introducer. -/
theorem run_introducer (k : Introducer) :
    run stepByte new [0x1B, k.byte] = (new.withState k.entry, []) := by
  cases k <;> rfl

/-- What is collected of a marker. -/
structure Marked (p : Parser) (marker : List UInt8) : Prop where
  fits : p.intermediates.length = maxIntermediates
  intermediateIdx : p.intermediateIdx = marker.length
  intermediates : p.activeIntermediates = marker
  ignoring : p.ignoring = false
  params : p.params = default
  param : p.param = 0

theorem run_marker {marker : List UInt8} (hlen : marker.length ≤ 1)
    (hmarker : ∀ b ∈ marker, inRange 0x3C 0x3F b = true) :
    (marker.foldl actionCollect new).Marked marker ∧ ∃ state, (state = k.entry ∨ state = k.param) ∧
      run stepByte (new.withState k.entry) marker =
        ((marker.foldl actionCollect new).withState state, []) := by
  rcases marker with _ | ⟨m, _ | ⟨m', marker⟩⟩
  · exact ⟨⟨rfl, rfl, rfl, rfl, rfl, rfl⟩, k.entry, .inl rfl, rfl⟩
  · refine ⟨⟨rfl, rfl, rfl, rfl, rfl, rfl⟩, k.param, .inr rfl, ?_⟩
    have hground : (new.withState k.entry).state ≠ .ground := by cases k <;> decide
    rw [run_singleton, stepByte, if_neg hground,
      changeState_marker (k := k) rfl (hmarker m List.mem_cons_self), actionCollect_withState]
    rfl
  · simp only [List.length_cons] at hlen
    omega

theorem finishParams_foldl (bs : List UInt8) (p : Parser) :
    (bs.foldl actionCollect p).finishParams = bs.foldl actionCollect p.finishParams := by
  induction bs generalizing p with
  | nil => rfl
  | cons b bs ih => rw [List.foldl_cons, List.foldl_cons, ih, finishParams_actionCollect]

/-- The parameters leave what else was collected. -/
theorem Marked.gathered {marker : List UInt8} (h : p.Marked marker) (params : List UInt8) :
    (params.foldl paramStep p).finishParams.intermediates.length = maxIntermediates ∧
      (params.foldl paramStep p).finishParams.intermediateIdx = marker.length ∧
        (params.foldl paramStep p).finishParams.activeIntermediates = marker := by
  have hparams (q : Parser) : (params.foldl paramStep q).intermediates = q.intermediates ∧
      (params.foldl paramStep q).intermediateIdx = q.intermediateIdx := by
    induction params generalizing q with
    | nil => exact ⟨rfl, rfl⟩
    | cons b params ih =>
      obtain ⟨-, hbytes, hidx⟩ := q.paramStep_keeps b
      rw [List.foldl_cons, (ih _).1, (ih _).2]
      exact ⟨hbytes, hidx⟩
  have hfinish (q : Parser) : q.finishParams.intermediates = q.intermediates ∧
      q.finishParams.intermediateIdx = q.intermediateIdx := by
    unfold finishParams
    split_ifs <;> exact ⟨rfl, rfl⟩
  have hbytes := (hfinish _).1.trans (hparams p).1
  have hidx := (hfinish _).2.trans (hparams p).2
  refine ⟨(congrArg List.length hbytes).trans h.fits, hidx.trans h.intermediateIdx, ?_⟩
  unfold activeIntermediates
  rw [hbytes, hidx]
  exact h.intermediates

/-- Behind its introducer, a control sequence is handed out. -/
theorem run_controlSequence (s : ControlSequence) :
    (run stepByte (new.withState k.entry) s.bytes).2 = [s.call k] := by
  obtain ⟨hmarked, entered, hentered, hmarker⟩ := run_marker (k := k) s.marker_length s.marker_range
  set p := s.marker.foldl actionCollect new
  obtain ⟨read, hread, hparams⟩ := run_gather (p := p.withState entered)
    (fun state => state = k.entry ∨ state = k.param) paramStep_withState (.inr rfl)
    (by cases k <;> decide) (fun q b hq hb => changeState_params hq hb) s.params s.params_range
    hentered
  set q := s.params.foldl paramStep p
  obtain ⟨last, hlast, hintermediates⟩ := run_gather (p := q.withState read) k.Reads
    actionCollect_withState (.inr (.inr rfl)) (by cases k <;> unfold Introducer.Reads <;> decide)
    (fun q b hq hb => changeState_intermediates hq hb) s.intermediates s.intermediates_range
    (hread.elim .inl fun h => .inr (.inl h))
  rw [foldl_withState paramStep_withState] at hparams
  rw [foldl_withState actionCollect_withState] at hintermediates
  set r := s.intermediates.foldl actionCollect q
  have haction : stepByte (r.withState last) s.action = (r.withState last).changeState s.action :=
    if_neg (fun hg => by subst hg; cases k <;> rcases hlast with h | h | h <;> cases h)
  have hrun : run stepByte (new.withState k.entry) s.bytes =
      (r.withState last).changeState s.action := by
    have hparams' : run stepByte (p.withState entered) s.params = (q.withState read, []) := hparams
    have hlast' : run stepByte (q.withState read) s.intermediates = (r.withState last, []) :=
      hintermediates
    unfold ControlSequence.bytes
    rw [run_append, run_append, run_append, hmarker, hparams']
    dsimp only [emit]
    rw [hlast', run_singleton, haction]
    rfl
  have hfinish : (r.withState last).finishParams =
      (s.intermediates.foldl actionCollect q.finishParams).withState last := by
    rw [finishParams_withState, finishParams_foldl]
  obtain ⟨hfits, hidx, hactive⟩ := hmarked.gathered s.params
  have hle : q.finishParams.intermediateIdx ≤ maxIntermediates :=
    hidx.le.trans (s.marker_length.trans (by decide))
  obtain ⟨hcollected, hmore, hkept⟩ := collect_all s.intermediates hfits hle
  have hstart : p.params.Holds [] [] := hmarked.params ▸ Params.default_holds
  obtain ⟨hiter, hignoring⟩ := finish_gather s.params s.params_range [] nofun hstart
    (fun _ => hmarked.param)
  rw [List.nil_append, joined_nil] at hiter hignoring
  rw [hrun, changeState_action (p := r.withState last) hlast s.action_range, hfinish]
  unfold ControlSequence.call ControlSequence.delivered ControlSequence.exceeds
  have hcalls {groups groups' : List (List UInt16)} {bytes bytes' : List UInt8}
      {ignore ignore' : Bool} (hg : groups = groups') (hb : bytes = bytes')
      (hi : ignore = ignore') : [k.call groups bytes ignore s.action] =
        [k.call groups' bytes' ignore' s.action] := by rw [hg, hb, hi]
  refine hcalls ((congrArg Params.iter hkept).trans hiter) (hcollected.trans ?_) (hmore.trans ?_)
  · rw [hactive]
  · rw [hignoring, hidx, hmarked.ignoring, Bool.false_or]

end Parser

/-! ### OSC strings -/

/-- The control characters that an OSC string does not collect. -/
def isSkipped (b : UInt8) : Bool :=
  b ≤ 0x06 || inRange 0x08 0x17 b || b == 0x19 || inRange 0x1C 0x1F b

/-- The bytes that end an OSC string. -/
def endsOsc (b : UInt8) : Bool := b == 0x07 || b == 0x18 || b == 0x1A || b == 0x1B

/-- An OSC string behind its introducer. -/
structure OscString where
  payload : List UInt8
  terminator : UInt8
  payload_range : ∀ b ∈ payload, endsOsc b = false
  terminator_range : endsOsc terminator = true

namespace OscString

variable (s : OscString)

def bytes : List UInt8 := s.payload ++ [s.terminator]

def collected : List UInt8 := s.payload.filter fun b => !isSkipped b

/-- The calls at the end of the string. -/
def calls : List Call :=
  .oscDispatch ((s.collected.splitOn 0x3B).take maxOscParams) (s.terminator == 0x07) ::
    if Parser.isCancel s.terminator then [.execute s.terminator] else []

end OscString

namespace Parser

variable {p : Parser} {fields : List (List UInt8)} {current : List UInt8}

/-- The bytes of the fields so far; the boundaries of the first ones are recorded. -/
structure OscHolds (p : Parser) (fields : List (List UInt8)) (current : List UInt8) : Prop where
  raw : p.oscRaw = fields.flatten ++ current
  count : p.oscNumParams = min fields.length maxOscParams
  fits : p.oscParams.length = maxOscParams
  bounds : ∀ i < p.oscNumParams, p.oscParams.getD i (0, 0) =
    ((fields.take i).flatten.length, (fields.take (i + 1)).flatten.length)

theorem OscHolds.put (h : p.OscHolds fields current) (b : UInt8) :
    (p.actionOscPut b).OscHolds fields (current ++ [b]) := by
  refine ⟨?_, h.count, h.fits, h.bounds⟩
  unfold actionOscPut
  rw [h.raw, List.append_assoc]

theorem OscHolds.separate (h : p.OscHolds fields current) :
    p.actionOscPutParam.OscHolds (fields ++ [current]) [] := by
  have hcount := h.count
  have hraw : p.oscRaw = (fields ++ [current]).flatten ++ [] := by
    rw [List.append_nil, List.flatten_append, List.flatten_singleton]
    exact h.raw
  have hlen : (fields ++ [current]).length = fields.length + 1 := List.length_append
  have hold (i : ℕ) (hi : i < fields.length) :
      ((fields.take i).flatten.length, (fields.take (i + 1)).flatten.length) =
      (((fields ++ [current]).take i).flatten.length,
        ((fields ++ [current]).take (i + 1)).flatten.length) := by
    rw [List.take_append_of_le_length hi.le, List.take_append_of_le_length hi]
  have hnew : (fields.flatten.length, p.oscRaw.length) =
      (((fields ++ [current]).take fields.length).flatten.length,
        ((fields ++ [current]).take (fields.length + 1)).flatten.length) := by
    rw [List.take_left, List.take_of_length_le hlen.le, hraw, List.append_nil]
  have hrecord (hroom : fields.length < maxOscParams) (hnum : p.oscNumParams = fields.length) :
      OscHolds { p with
        oscParams := p.oscParams.set fields.length (fields.flatten.length, p.oscRaw.length)
        oscNumParams := fields.length + 1 } (fields ++ [current]) [] := by
    refine ⟨hraw, ?_, (List.length_set ..).trans h.fits, fun i hi => ?_⟩
    · dsimp only
      omega
    dsimp only at hi ⊢
    rw [List.getD_eq_getElem?_getD]
    rcases Nat.lt_succ_iff_lt_or_eq.mp hi with hi | rfl
    · rw [List.getElem?_set_ne (by omega), ← List.getD_eq_getElem?_getD, h.bounds i (by omega)]
      exact hold i hi
    · rw [List.getElem?_set_self (by rw [h.fits]; exact hroom)]
      exact hnew
  unfold actionOscPutParam
  dsimp only
  split_ifs with hzero hmax
  · have hnil : fields.length = 0 := by
      unfold maxOscParams at hcount
      omega
    have hfields := List.length_eq_zero_iff.mp hnil
    have hfirst := hrecord (by rw [hnil]; decide) (hzero.trans hnil.symm)
    rw [hnil, hfields] at hfirst
    rw [hzero, hfields]
    exact hfirst
  · refine ⟨hraw, by rw [hlen]; omega, h.fits, fun i hi => ?_⟩
    rw [h.bounds i hi]
    exact hold i (by omega)
  · have hnum : p.oscNumParams = fields.length := by omega
    have hbegin : (p.oscParams.getD (fields.length - 1) (0, 0)).2 = fields.flatten.length := by
      rw [h.bounds _ (by omega), Nat.sub_add_cancel (by omega), List.take_length]
    rw [hnum, hbegin]
    exact hrecord (by omega) hnum

theorem OscHolds.slices (h : p.OscHolds fields current) :
    p.oscSlices = fields.take maxOscParams := by
  have hcount := h.count
  have hfits := h.fits
  unfold oscSlices
  apply List.ext_getElem
  · rw [List.length_map, List.length_take, List.length_take]
    omega
  · intro i hi hi'
    rw [List.length_map, List.length_take] at hi
    rw [List.length_take] at hi'
    have hlt : i < fields.length := by omega
    have hbound := h.bounds i (by omega)
    rw [List.getD_eq_getElem?_getD, List.getElem?_eq_getElem (by omega),
      Option.getD_some] at hbound
    have hsplit : p.oscRaw =
        (fields.take i).flatten ++ (fields[i] ++ ((fields.drop (i + 1)).flatten ++ current)) := by
      have hfields : fields.flatten =
          (fields.take i).flatten ++ (fields[i] ++ (fields.drop (i + 1)).flatten) := by
        rw [← List.flatten_cons, ← List.drop_eq_getElem_cons hlt, ← List.flatten_append,
          List.take_append_drop]
      rw [h.raw, hfields, List.append_assoc, List.append_assoc]
    have hnext : (fields.take (i + 1)).flatten.length =
        (fields.take i).flatten.length + fields[i].length := by
      rw [List.take_succ_eq_append_getElem hlt, List.flatten_append, List.length_append,
        List.flatten_singleton]
    rw [List.getElem_map, List.getElem_take, List.getElem_take, hbound]
    dsimp only
    rw [hnext, Nat.add_sub_cancel_left, hsplit, List.drop_left, List.take_left]

/-- One byte of an OSC string. -/
def oscStep (p : Parser) (b : UInt8) : Parser :=
  if isSkipped b then p else if b = 0x3B then p.actionOscPutParam else p.actionOscPut b

theorem OscHolds.foldl (bs : List UInt8) (h : p.OscHolds fields current)
    (hcurrent : (0x3B : UInt8) ∉ current) :
    (bs.foldl oscStep p).actionOscPutParam.oscSlices =
      (fields ++ (current ++ bs.filter fun b => !isSkipped b).splitOn 0x3B).take
        maxOscParams := by
  induction bs generalizing p fields current with
  | nil =>
    rw [List.foldl_nil, List.filter_nil, List.append_nil, List.splitOn_eq_singleton hcurrent]
    exact h.separate.slices
  | cons b bs ih =>
    rw [List.foldl_cons]
    by_cases hskip : isSkipped b = true
    · have hstep : p.oscStep b = p := if_pos hskip
      rw [hstep, ih h hcurrent, List.filter_cons_of_neg (by rw [hskip]; decide)]
    rw [List.filter_cons_of_pos (by simpa using hskip)]
    by_cases hsep : b = 0x3B
    · have hstep : p.oscStep b = p.actionOscPutParam := (if_neg hskip).trans (if_pos hsep)
      rw [hstep, ih h.separate nofun, hsep, List.splitOn_append_cons_self_of_not_mem hcurrent,
        List.nil_append, List.append_assoc]
      rfl
    · have hstep : p.oscStep b = p.actionOscPut b := (if_neg hskip).trans (if_neg hsep)
      have hcurrent' : (0x3B : UInt8) ∉ current ++ [b] := by
        rw [List.mem_append, List.mem_singleton]
        exact not_or.mpr ⟨hcurrent, fun hb => hsep hb.symm⟩
      rw [hstep, ih (h.put b) hcurrent', List.append_assoc, List.singleton_append]

theorem oscStep_state (b : UInt8) : (p.oscStep b).state = p.state := by
  unfold oscStep
  split_ifs
  · rfl
  · exact p.actionOscPutParam_state
  · rfl

theorem foldl_oscStep_state (bs : List UInt8) (p : Parser) :
    (bs.foldl oscStep p).state = p.state := by
  induction bs generalizing p with
  | nil => rfl
  | cons b bs ih => rw [List.foldl_cons, ih, oscStep_state]

theorem changeState_osc {b : UInt8} (hstate : p.state = .oscString) (hb : endsOsc b = false) :
    p.changeState b = (p.oscStep b, []) := by
  unfold changeState
  rw [hstate]
  change p.advanceOscString b = _
  unfold advanceOscString oscStep isSkipped isCancel
  unfold endsOsc at hb
  simp only [Bool.or_eq_false_iff, beq_eq_false_iff_ne, Bool.or_eq_true, beq_iff_eq] at hb ⊢
  grind

theorem run_payload (payload : List UInt8) (hpayload : ∀ b ∈ payload, endsOsc b = false)
    (hstate : p.state = .oscString) :
    run stepByte p payload = (payload.foldl oscStep p, []) := by
  induction payload generalizing p with
  | nil => rfl
  | cons b payload ih =>
    have hbyte : p.stepByte b = (p.oscStep b, []) := by
      rw [stepByte, if_neg (by rw [hstate]; decide),
        changeState_osc hstate (hpayload b List.mem_cons_self)]
    rw [run_cons, hbyte, ih (fun c hc => hpayload c (List.mem_cons_of_mem b hc))
      (p.oscStep_state b ▸ hstate)]
    rfl

theorem new_oscHolds : OscHolds (new.withState .oscString) [] [] :=
  ⟨rfl, rfl, rfl, nofun⟩

theorem changeState_oscEnd {b : UInt8} (hstate : p.state = .oscString) (hb : endsOsc b = true) :
    (p.changeState b).2 =
      (p.oscEnd b).2 ++ if isCancel b then [.execute b] else [] := by
  have hcases : b = 0x07 ∨ b = 0x18 ∨ b = 0x1A ∨ b = 0x1B := by
    unfold endsOsc at hb
    simpa only [Bool.or_eq_true, beq_iff_eq, or_assoc] using hb
  unfold changeState
  rw [hstate]
  rcases hcases with rfl | rfl | rfl | rfl <;> rfl

theorem run_oscString (s : OscString) :
    (run stepByte (new.withState .oscString) s.bytes).2 = s.calls := by
  have hlast := foldl_oscStep_state s.payload (new.withState .oscString)
  have hslices := new_oscHolds.foldl s.payload nofun
  rw [List.nil_append, List.nil_append] at hslices
  unfold OscString.bytes OscString.calls OscString.collected
  rw [run_append, run_payload s.payload s.payload_range rfl, run_singleton, stepByte,
    if_neg (by rw [hlast]; decide), ← hslices]
  exact changeState_oscEnd hlast s.terminator_range

/-! ### Reads -/

/-- Read in pieces, bytes are read one by one unless a piece ends inside a character. -/
theorem run_advance_quiet (pieces : List (List UInt8)) (hcarry : p.partialUtf8 = [])
    (hquiet : ∀ front, front <+: pieces.flatten → (run stepByte p front).1.partialUtf8 = []) :
    run advance p pieces = run stepByte p pieces.flatten := by
  induction pieces generalizing p with
  | nil => rfl
  | cons bytes pieces ih =>
    have hread : p.advance bytes = run stepByte p bytes :=
      advance_eq_run (wellFormed_of_nil hcarry) (by simp [carryFault, hcarry])
    rw [List.flatten_cons] at hquiet ⊢
    rw [run_cons, run_append, hread]
    congr 1
    refine ih (hquiet bytes (List.prefix_append _ _)) fun front hfront => ?_
    have hlong := hquiet (bytes ++ front) ((List.prefix_append_right_inj bytes).mpr hfront)
    rwa [run_append] at hlong

/-- Bytes below `0x80` leave no unfinished character. -/
theorem run_stepByte_ascii (bytes : List UInt8) (hbytes : ∀ b ∈ bytes, b ≤ 0x7F)
    (hcarry : p.partialUtf8 = []) : (run stepByte p bytes).1.partialUtf8 = [] := by
  induction bytes generalizing p with
  | nil => exact hcarry
  | cons b bytes ih =>
    refine ih (fun c hc => hbytes c (List.mem_cons_of_mem b hc)) ?_
    unfold stepByte
    split_ifs with hground hescape
    · rfl
    · rw [hcarry]
      change (feedByte [] b).1 = []
      unfold feedByte start
      rw [if_pos rfl, head_singleton_ascii (hbytes b List.mem_cons_self)]
    · rw [changeState_partialUtf8, hcarry]

theorem controlSequence_ascii (s : ControlSequence) : ∀ b ∈ s.bytes, b ≤ 0x7F := by
  intro b hb
  have hrange {lo hi : UInt8} (h : inRange lo hi b = true) (hhi : hi ≤ 0x7F) : b ≤ 0x7F := by
    unfold inRange at h
    simp only [Bool.and_eq_true, decide_eq_true_eq] at h
    exact UInt8.le_trans h.2 hhi
  unfold ControlSequence.bytes at hb
  simp only [List.mem_append, List.mem_singleton] at hb
  obtain ((hb | hb) | hb) | rfl := hb
  · exact hrange (s.marker_range b hb) (by decide)
  · exact hrange (s.params_range b hb) (by decide)
  · exact hrange (s.intermediates_range b hb) (by decide)
  · exact hrange s.action_range (by decide)

theorem run_advance_controlSequence (k : Introducer) (s : ControlSequence)
    {pieces : List (List UInt8)} (hpieces : pieces.flatten = 0x1B :: k.byte :: s.bytes) :
    (run advance new pieces).2 = [s.call k] := by
  have hascii : ∀ b ∈ pieces.flatten, b ≤ 0x7F := by
    rw [hpieces]
    intro b hb
    rcases List.mem_cons.mp hb with rfl | hb
    · decide
    rcases List.mem_cons.mp hb with rfl | hb
    · cases k <;> decide
    · exact controlSequence_ascii s b hb
  rw [run_advance_quiet pieces rfl fun front hfront =>
    run_stepByte_ascii front (fun b hb => hascii b (hfront.subset hb)) rfl, hpieces]
  have hsplit : 0x1B :: k.byte :: s.bytes = [0x1B, k.byte] ++ s.bytes := rfl
  rw [hsplit, run_append, run_introducer]
  exact run_controlSequence s

theorem foldl_oscStep_partialUtf8 (bs : List UInt8) (p : Parser) :
    (bs.foldl oscStep p).partialUtf8 = p.partialUtf8 := by
  induction bs generalizing p with
  | nil => rfl
  | cons b bs ih =>
    have hstep : (p.oscStep b).partialUtf8 = p.partialUtf8 := by
      unfold oscStep
      split_ifs
      · rfl
      · exact p.actionOscPutParam_partialUtf8
      · rfl
    rw [List.foldl_cons, ih, hstep]

/-- No character is carried inside an OSC string. -/
theorem run_oscString_carry (s : OscString) {front : List UInt8} (hfront : front <+: s.bytes) :
    (run stepByte (new.withState .oscString) front).1.partialUtf8 = [] := by
  have hpart {part : List UInt8} (h : part <+: s.payload) :
      run stepByte (new.withState .oscString) part =
        (part.foldl oscStep (new.withState .oscString), []) :=
    run_payload part (fun b hb => s.payload_range b (h.subset hb)) rfl
  rcases List.prefix_concat_iff.mp hfront with rfl | hfront
  · have hstate := foldl_oscStep_state s.payload (new.withState .oscString)
    rw [run_append, hpart (List.prefix_refl _), run_singleton, stepByte,
      if_neg (by rw [hstate]; decide)]
    exact (changeState_partialUtf8 _ _).trans (foldl_oscStep_partialUtf8 s.payload _)
  · rw [hpart hfront]
    exact foldl_oscStep_partialUtf8 front _

theorem run_advance_oscString (s : OscString) {pieces : List (List UInt8)}
    (hpieces : pieces.flatten = 0x1B :: 0x5D :: s.bytes) :
    (run advance new pieces).2 = s.calls := by
  have hstart : run stepByte new [0x1B, 0x5D] = (new.withState .oscString, []) := rfl
  have hquiet : ∀ front, front <+: 0x1B :: 0x5D :: s.bytes →
      (run stepByte new front).1.partialUtf8 = [] := by
    intro front hfront
    rcases front with _ | ⟨b, _ | ⟨c, front⟩⟩
    · rfl
    · rw [(List.cons_prefix_cons.mp hfront).1]
      rfl
    · obtain ⟨hb, hfront⟩ := List.cons_prefix_cons.mp hfront
      obtain ⟨hc, hfront⟩ := List.cons_prefix_cons.mp hfront
      have hsplit : b :: c :: front = [0x1B, 0x5D] ++ front := by
        rw [hb, hc]
        rfl
      rw [hsplit, run_append, hstart]
      exact run_oscString_carry s hfront
  rw [run_advance_quiet pieces rfl (hpieces ▸ hquiet), hpieces]
  have hsplit : 0x1B :: 0x5D :: s.bytes = [0x1B, 0x5D] ++ s.bytes := rfl
  rw [hsplit, run_append, hstart]
  exact run_oscString s

/-- The calls of a read that ends what was read before and begins with an escape character what
comes next, and of the reads after it. -/
def nextCalls (p : Parser) (text rest : List UInt8) (later : List (List UInt8)) : List Call :=
  (run advance p ((text ++ 0x1B :: rest) :: later)).2

/-- The calls for what was read before. -/
def earlierCalls (p : Parser) (text : List UInt8) : List Call :=
  (p.advance text).2 ++ (p.advance text).1.closing

/-- The parser hands out what the next sequence says, and nothing of an earlier one. -/
structure Decodes (p : Parser) : Prop where
  fresh (text rest : List UInt8) (later : List (List UInt8)) :
    (∀ b ∈ rest.head?, b < 0x80) →
      p.nextCalls text rest later = p.earlierCalls text ++ new.nextCalls [] rest later
  control (k : Introducer) (s : ControlSequence) (text rest : List UInt8)
    (later : List (List UInt8)) : rest ++ later.flatten = k.byte :: s.bytes →
      p.nextCalls text rest later = p.earlierCalls text ++ [s.call k]
  whole (s : ControlSequence) : (groups s.params).flatten.length ≤ maxParams →
    s.delivered = groups s.params
  osc (s : OscString) (text rest : List UInt8) (later : List (List UInt8)) :
    rest ++ later.flatten = 0x5D :: s.bytes →
      p.nextCalls text rest later = p.earlierCalls text ++ s.calls

/-- After any reads, sequences are handed out as they are written. -/
theorem run_decodes (reads : List (List UInt8)) : (run advance new reads).1.Decodes := by
  have hsettled := new_settled.run_advance reads
  have hfresh := run_advance_escape hsettled
  have hintroduced {rest : List UInt8} {later : List (List UInt8)} {b : UInt8} {bytes : List UInt8}
      (hb : b < 0x80) (h : rest ++ later.flatten = b :: bytes) : ∀ c ∈ rest.head?, c < 0x80 := by
    intro c hc
    cases rest with
    | nil => cases hc
    | cons c' rest =>
      obtain rfl := Option.some.inj hc
      exact (List.cons.inj h).1 ▸ hb
  have hflatten {rest : List UInt8} {later : List (List UInt8)} {bytes : List UInt8}
      (h : rest ++ later.flatten = bytes) :
      ((0x1B :: rest) :: later).flatten = 0x1B :: bytes := by
    rw [List.flatten_cons, List.cons_append, h]
  refine ⟨hfresh, fun k s text rest later h => ?_, fun s => s.delivered_eq,
    fun s text rest later h => ?_⟩
  · have hbyte : k.byte < 0x80 := by cases k <;> decide
    unfold nextCalls earlierCalls
    rw [hfresh text rest later (hintroduced hbyte h), run_advance_controlSequence k s (hflatten h)]
  · unfold nextCalls earlierCalls
    rw [hfresh text rest later (hintroduced (by decide) h), run_advance_oscString s (hflatten h)]

end Parser
end Rio.Copa
