import Rio.Copa.Advance

/-! What the parser hands to the dispatchers: how many OSC parameters, and the groups of a
control sequence, of which there is at least one and none is empty. -/

set_option linter.dupNamespace false

namespace Rio.Copa
open Rio.Transducer

namespace Params

/-- The counts at the starts of the groups, the first of which starts at `index`. -/
def Counted (subparams : List ℕ) : ℕ → List (List UInt16) → Prop
  | _, [] => True
  | index, group :: groups =>
    subparams.getD index 0 = group.length ∧ Counted subparams (index + group.length) groups

/-- The list holds the finished groups and the values of the group being collected. -/
structure Holds (p : Params) (groups : List (List UInt16)) (current : List UInt16) : Prop where
  subparamsLength : p.subparams.length = maxParams
  paramsLength : p.params.length = maxParams
  values : p.params.take p.len = groups.flatten ++ current
  len : p.len = groups.flatten.length + current.length
  count : p.currentSubparams = current.length
  counted : Counted p.subparams 0 groups
  open_ : current ≠ [] → p.subparams.getD groups.flatten.length 0 = current.length
  nonempty : ∀ group ∈ groups, group ≠ []

theorem default_holds : (default : Params).Holds [] [] :=
  ⟨rfl, rfl, rfl, rfl, rfl, trivial, fun h => absurd rfl h, by simp⟩

theorem Holds.clear {p : Params} {groups : List (List UInt16)} {current : List UInt16}
    (h : p.Holds groups current) : p.clear.Holds [] [] :=
  ⟨h.subparamsLength, h.paramsLength, rfl, rfl, rfl, trivial, fun h => absurd rfl h, by simp⟩

theorem counted_set {subparams : List ℕ} {groups : List (List UInt16)} {index k : ℕ}
    (hk : index + groups.flatten.length ≤ k) (hne : ∀ group ∈ groups, group ≠ []) (n : ℕ)
    (h : Counted subparams index groups) : Counted (subparams.set k n) index groups := by
  induction groups generalizing index with
  | nil => trivial
  | cons group groups ih =>
    obtain ⟨hcount, hrest⟩ := h
    have hpos := List.length_pos_iff.mpr (hne group List.mem_cons_self)
    rw [List.flatten_cons, List.length_append] at hk
    refine ⟨?_, ih (by omega) (fun g hg => hne g (List.mem_cons_of_mem group hg)) hrest⟩
    rw [List.getD_eq_getElem?_getD, List.getElem?_set_ne (by omega),
      ← List.getD_eq_getElem?_getD, hcount]

theorem counted_append {subparams : List ℕ} {groups : List (List UInt16)} {index : ℕ}
    {group : List UInt16} :
    Counted subparams index (groups ++ [group]) ↔
      Counted subparams index groups ∧
        subparams.getD (index + groups.flatten.length) 0 = group.length := by
  induction groups generalizing index with
  | nil => simp [Counted]
  | cons g groups ih =>
    rw [List.cons_append, Counted, Counted, ih, List.flatten_cons, List.length_append,
      Nat.add_assoc, and_assoc]

private theorem getD_set_self {α : Type*} (xs : List α) {i : ℕ} (hi : i < xs.length) (x d : α) :
    (xs.set i x).getD i d = x := by
  rw [List.getD_eq_getElem?_getD, List.getElem?_set_self hi, Option.getD_some]

private theorem take_set_succ {α : Type*} (xs : List α) {i : ℕ} (hi : i < xs.length) (x : α) :
    (xs.set i x).take (i + 1) = xs.take i ++ [x] := by
  rw [List.take_add_one, List.take_set_of_le (le_refl i), List.getElem?_set_self hi]
  rfl

variable {p : Params} {groups : List (List UInt16)} {current : List UInt16}

theorem Holds.len_lt (h : p.Holds groups current) (hfull : p.isFull = false) :
    p.len < maxParams := by
  have hle : p.len ≤ p.params.length := by
    have hlen := congrArg List.length h.values
    rw [List.length_take, List.length_append, ← h.len] at hlen
    omega
  rw [h.paramsLength] at hle
  have hne : p.len ≠ maxParams := by simpa [isFull] using hfull
  omega

theorem Holds.extend (h : p.Holds groups current) (hfull : p.isFull = false) (item : UInt16) :
    (p.extend item).Holds groups (current ++ [item]) := by
  have hlt := h.len_lt hfull
  have hlen := h.len
  have hcount := h.count
  have hstart : p.len - p.currentSubparams = groups.flatten.length := by omega
  unfold Params.extend
  rw [hstart]
  refine ⟨?_, ?_, ?_, ?_, ?_, ?_, ?_, h.nonempty⟩
  · exact (List.length_set ..).trans h.subparamsLength
  · exact (List.length_set ..).trans h.paramsLength
  · dsimp only
    rw [take_set_succ _ (by rwa [h.paramsLength]), h.values, List.append_assoc]
  · dsimp only
    rw [List.length_append, List.length_singleton]
    omega
  · dsimp only
    rw [List.length_append, List.length_singleton, hcount]
  · exact counted_set (by omega) h.nonempty _ h.counted
  · intro _
    dsimp only
    rw [getD_set_self _ (by rw [h.subparamsLength]; omega), List.length_append,
      List.length_singleton, hcount]

/-- Finishing the group being collected. -/
theorem Holds.close (h : p.Holds groups current) (hne : current ≠ []) :
    ({ p with currentSubparams := 0 } : Params).Holds (groups ++ [current]) [] := by
  have hlen := h.len
  refine ⟨h.subparamsLength, h.paramsLength, ?_, ?_, rfl, ?_, fun hnil => absurd rfl hnil, ?_⟩
  · rw [List.flatten_append, List.flatten_singleton, List.append_nil]
    exact h.values
  · rw [List.flatten_append, List.flatten_singleton, List.length_append]
    exact hlen
  · rw [counted_append, Nat.zero_add]
    exact ⟨h.counted, h.open_ hne⟩
  · intro group hgroup
    rcases List.mem_append.mp hgroup with hold | hnew
    · exact h.nonempty group hold
    · rw [List.mem_singleton.mp hnew]
      exact hne

theorem Holds.push (h : p.Holds groups current) (hfull : p.isFull = false) (item : UInt16) :
    (p.push item).Holds (groups ++ [current ++ [item]]) [] :=
  (h.extend hfull item).close (by simp)

theorem iterFrom_eq {index fuel : ℕ} {all : List (List UInt16)}
    (hvalues : (p.params.take p.len).drop index = all.flatten)
    (hlen : p.len = index + all.flatten.length) (hcounted : Counted p.subparams index all)
    (hne : ∀ group ∈ all, group ≠ []) (hfuel : all.flatten.length ≤ fuel) :
    p.iterFrom fuel index = all := by
  induction all generalizing index fuel with
  | nil =>
    rw [List.flatten_nil, List.length_nil, Nat.add_zero] at hlen
    rcases fuel with _ | fuel
    · rfl
    · rw [iterFrom, if_pos (by omega)]
  | cons group all ih =>
    obtain ⟨hcount, hrest⟩ := hcounted
    have hpos := List.length_pos_iff.mpr (hne group List.mem_cons_self)
    rw [List.flatten_cons, List.length_append] at hlen hfuel
    obtain ⟨fuel, rfl⟩ : ∃ n, fuel = n + 1 := ⟨fuel - 1, by omega⟩
    rw [iterFrom, if_neg (by omega)]
    dsimp only
    rw [hcount]
    congr 1
    · have htake := congrArg (List.take group.length) hvalues
      rw [List.flatten_cons, List.take_left, List.drop_take, List.take_take,
        min_eq_left (by omega)] at htake
      exact htake
    · apply ih
      · rw [← List.drop_drop, hvalues, List.flatten_cons, List.drop_left]
      · omega
      · exact hrest
      · exact fun g hg => hne g (List.mem_cons_of_mem group hg)
      · omega

/-- The iterator yields the groups, and the one being collected if there is one. -/
theorem Holds.iter (h : p.Holds groups current) :
    p.iter = groups ++ if current = [] then [] else [current] := by
  by_cases hnil : current = []
  · subst hnil
    have hvalues := h.values
    have hlen := h.len
    rw [List.append_nil] at hvalues
    rw [List.length_nil, Nat.add_zero] at hlen
    rw [if_pos rfl, List.append_nil]
    exact iterFrom_eq hvalues (by omega) h.counted h.nonempty (by omega)
  · have hclose := h.close hnil
    have hvalues := hclose.values
    have hlen := hclose.len
    rw [List.append_nil] at hvalues
    rw [List.length_nil, Nat.add_zero] at hlen
    rw [if_neg hnil]
    exact iterFrom_eq hvalues (hlen.trans (Nat.zero_add _).symm) hclose.counted hclose.nonempty
      hlen.ge

/-- The list was built by its own operations. -/
def Valid (p : Params) : Prop := ∃ groups current, p.Holds groups current

theorem Valid.clear (h : p.Valid) : p.clear.Valid := by
  obtain ⟨groups, current, h⟩ := h
  exact ⟨[], [], h.clear⟩

theorem Valid.push (h : p.Valid) (hfull : p.isFull = false) (item : UInt16) :
    (p.push item).Valid := by
  obtain ⟨groups, current, h⟩ := h
  exact ⟨_, [], h.push hfull item⟩

theorem Valid.extend (h : p.Valid) (hfull : p.isFull = false) (item : UInt16) :
    (p.extend item).Valid := by
  obtain ⟨groups, current, h⟩ := h
  exact ⟨groups, _, h.extend hfull item⟩

/-- The groups of a control sequence. -/
def Groups (params : List (List UInt16)) : Prop := params ≠ [] ∧ ∀ group ∈ params, group ≠ []

theorem Valid.iter (h : p.Valid) (hpos : 0 < p.len) : Groups p.iter := by
  obtain ⟨groups, current, h⟩ := h
  have hlen := h.len
  rw [h.iter]
  constructor
  · intro hnil
    rw [List.append_eq_nil_iff] at hnil
    obtain ⟨rfl, hcurrent⟩ := hnil
    split at hcurrent
    next hempty =>
      subst hempty
      simp only [List.flatten_nil, List.length_nil] at hlen
      omega
    next => cases hcurrent
  · intro group hgroup
    rcases List.mem_append.mp hgroup with hold | hnew
    · exact h.nonempty group hold
    · split at hnew
      · cases hnew
      next hne =>
        rw [List.mem_singleton.mp hnew]
        exact hne

end Params

/-- What a call to a dispatcher can look like. -/
def Deliverable : Call → Prop
  | .csiDispatch params _ _ _ => Params.Groups params
  | .hook params _ _ _ => Params.Groups params
  | .oscDispatch params _ => params ≠ [] ∧ params.length ≤ maxOscParams
  | _ => True

namespace Parser

/-- The collected parameters fit their arrays. -/
structure Collects (p : Parser) : Prop where
  params : p.params.Valid
  oscParams : p.oscParams.length = maxOscParams
  oscNumParams : p.oscNumParams ≤ maxOscParams

/-- A step that keeps the arrays in order and makes only deliverable calls. -/
def Delivers (out : Out) : Prop := out.1.Collects ∧ ∀ call ∈ out.2, Deliverable call

theorem new_collects : new.Collects := ⟨⟨[], [], Params.default_holds⟩, rfl, by decide⟩

variable {p : Parser}

theorem Collects.withState (h : p.Collects) (state : State) :
    Collects { p with state := state } := ⟨h.params, h.oscParams, h.oscNumParams⟩

theorem Collects.resetParams (h : p.Collects) : p.resetParams.Collects :=
  ⟨h.params.clear, h.oscParams, h.oscNumParams⟩

theorem Collects.actionCollect (h : p.Collects) (b : UInt8) : (p.actionCollect b).Collects := by
  unfold Parser.actionCollect
  split <;> exact ⟨h.params, h.oscParams, h.oscNumParams⟩

theorem Collects.actionSubparam (h : p.Collects) : p.actionSubparam.Collects := by
  unfold Parser.actionSubparam
  split
  · exact ⟨h.params, h.oscParams, h.oscNumParams⟩
  next hfull => exact ⟨h.params.extend (by simpa using hfull) _, h.oscParams, h.oscNumParams⟩

theorem Collects.actionParam (h : p.Collects) : p.actionParam.Collects := by
  unfold Parser.actionParam
  split
  · exact ⟨h.params, h.oscParams, h.oscNumParams⟩
  next hfull => exact ⟨h.params.push (by simpa using hfull) _, h.oscParams, h.oscNumParams⟩

theorem Collects.actionParamnext (h : p.Collects) (b : UInt8) :
    (p.actionParamnext b).Collects := by
  unfold Parser.actionParamnext
  split <;> exact ⟨h.params, h.oscParams, h.oscNumParams⟩

/-- The last parameter is closed unless the list is full, so there is at least one. -/
theorem Collects.finishParams (h : p.Collects) :
    p.finishParams.Collects ∧ Params.Groups p.finishParams.params.iter := by
  unfold Parser.finishParams
  split
  next hfull =>
    have hlen : p.params.len = maxParams := by simpa [Params.isFull] using hfull
    exact ⟨⟨h.params, h.oscParams, h.oscNumParams⟩,
      h.params.iter (by rw [hlen]; decide)⟩
  next hfull =>
    have hpush := h.params.push (by simpa using hfull) p.param
    exact ⟨⟨hpush, h.oscParams, h.oscNumParams⟩, hpush.iter (Nat.succ_pos _)⟩

theorem Collects.actionCsiDispatch (h : p.Collects) (b : UInt8) :
    Delivers (p.actionCsiDispatch b) := by
  obtain ⟨hcollects, hgroups⟩ := h.finishParams
  refine ⟨hcollects.withState _, fun call hcall => ?_⟩
  rw [List.mem_singleton.mp hcall]
  exact hgroups

theorem Collects.actionHook (h : p.Collects) (b : UInt8) : Delivers (p.actionHook b) := by
  obtain ⟨hcollects, hgroups⟩ := h.finishParams
  refine ⟨hcollects.withState _, fun call hcall => ?_⟩
  rw [List.mem_singleton.mp hcall]
  exact hgroups

theorem Collects.actionOscPutParam (h : p.Collects) :
    p.actionOscPutParam.Collects ∧ 0 < p.actionOscPutParam.oscNumParams := by
  have hnum := h.oscNumParams
  unfold Parser.actionOscPutParam
  dsimp only
  split_ifs with hzero hmax
  · refine ⟨⟨h.params, (List.length_set ..).trans h.oscParams, ?_⟩, Nat.succ_pos _⟩
    dsimp only
    rw [hzero]
    decide
  · exact ⟨h, Nat.pos_of_ne_zero hzero⟩
  · refine ⟨⟨h.params, (List.length_set ..).trans h.oscParams, ?_⟩, Nat.succ_pos _⟩
    dsimp only
    omega

theorem Collects.oscEnd (h : p.Collects) (b : UInt8) : Delivers (p.oscEnd b) := by
  obtain ⟨hcollects, hpos⟩ := h.actionOscPutParam
  refine ⟨⟨hcollects.params, hcollects.oscParams, Nat.zero_le _⟩, fun call hcall => ?_⟩
  have hlen : p.actionOscPutParam.oscSlices.length = p.actionOscPutParam.oscNumParams := by
    rw [oscSlices, List.length_map, List.length_take, hcollects.oscParams]
    exact min_eq_left hcollects.oscNumParams
  unfold Parser.oscEnd at hcall
  rw [List.mem_singleton.mp hcall]
  refine ⟨?_, hlen.trans_le hcollects.oscNumParams⟩
  rw [← List.length_pos_iff, hlen]
  exact hpos

theorem Collects.clearOsc (h : p.Collects) : p.clearOsc.Collects :=
  ⟨h.params, h.oscParams, Nat.zero_le _⟩

/-! ### The transitions -/

private theorem ite_delivers {c : Prop} [Decidable c] {x y : Out} (hx : Delivers x)
    (hy : Delivers y) : Delivers (if c then x else y) := by
  split
  · exact hx
  · exact hy

theorem Collects.quiet (h : p.Collects) : Delivers (p, []) := ⟨h, by simp⟩

theorem Collects.execute (h : p.Collects) (b : UInt8) : Delivers (p, [.execute b]) :=
  ⟨h, by simp [Deliverable]⟩

theorem Collects.anywhere (h : p.Collects) (b : UInt8) : Delivers (p.anywhere b) := by
  refine ite_delivers ?_ (ite_delivers ?_ h.quiet)
  · exact (h.withState _).execute b
  · exact (h.resetParams.withState _).quiet

theorem Collects.escDispatch (h : p.Collects) (b : UInt8) : Delivers (p.escDispatch b) :=
  ⟨h.withState _, by simp [Parser.escDispatch, Deliverable]⟩

theorem Collects.advanceCsi (h : p.Collects) (b : UInt8) :
    Delivers (p.advanceCsiEntry b) ∧ Delivers (p.advanceCsiIgnore b) ∧
      Delivers (p.advanceCsiIntermediate b) ∧ Delivers (p.advanceCsiParam b) := by
  have hcollect := h.actionCollect b
  have hnext := h.actionParamnext b
  refine ⟨?_, ?_, ?_, ?_⟩
  all_goals
    repeat' apply ite_delivers
  all_goals
    first
    | exact h.execute b
    | exact h.quiet
    | exact (h.withState _).quiet
    | exact hcollect.quiet
    | exact (hcollect.withState _).quiet
    | exact hnext.quiet
    | exact (hnext.withState _).quiet
    | exact h.actionSubparam.quiet
    | exact (h.actionSubparam.withState _).quiet
    | exact h.actionParam.quiet
    | exact (h.actionParam.withState _).quiet
    | exact h.actionCsiDispatch b
    | exact (h.withState _).execute b
    | exact (h.resetParams.withState _).quiet

theorem Collects.advanceDcs (h : p.Collects) (b : UInt8) :
    Delivers (p.advanceDcsEntry b) ∧ Delivers (p.advanceDcsIntermediate b) ∧
      Delivers (p.advanceDcsParam b) ∧ Delivers (p.advanceDcsPassthrough b) := by
  have hcollect := h.actionCollect b
  have hnext := h.actionParamnext b
  refine ⟨?_, ?_, ?_, ?_⟩
  all_goals
    repeat' apply ite_delivers
  all_goals
    first
    | exact h.quiet
    | exact (h.withState _).quiet
    | exact hcollect.quiet
    | exact (hcollect.withState _).quiet
    | exact hnext.quiet
    | exact (hnext.withState _).quiet
    | exact h.actionSubparam.quiet
    | exact (h.actionSubparam.withState _).quiet
    | exact h.actionParam.quiet
    | exact (h.actionParam.withState _).quiet
    | exact h.actionHook b
    | exact (h.withState _).execute b
    | exact (h.resetParams.withState _).quiet
    | exact ⟨h, by simp [Deliverable]⟩
    | exact ⟨h.withState _, by simp [Deliverable]⟩
    | exact ⟨h.resetParams.withState _, by simp [Deliverable]⟩

theorem Collects.advanceEsc (h : p.Collects) (b : UInt8) :
    Delivers (p.advanceEsc b) ∧ Delivers (p.advanceEscIntermediate b) := by
  constructor
  all_goals
    repeat' apply ite_delivers
  all_goals
    first
    | exact h.execute b
    | exact h.quiet
    | exact (h.actionCollect b).quiet
    | exact ((h.actionCollect b).withState _).quiet
    | exact h.escDispatch b
    | exact (h.withState _).execute b
    | exact (h.resetParams.withState _).quiet
    | exact (h.resetParams.withState _).quiet
    | exact (h.clearOsc.withState _).quiet
    | exact ⟨h.withState _, by simp [Deliverable]⟩

theorem Collects.advanceOscString (h : p.Collects) (b : UInt8) :
    Delivers (p.advanceOscString b) := by
  obtain ⟨hend, hcalls⟩ := h.oscEnd b
  repeat' apply ite_delivers
  · exact h.quiet
  · exact ⟨hend.withState _, hcalls⟩
  · refine ⟨hend.withState _, fun call hcall => ?_⟩
    rcases List.mem_append.mp hcall with hosc | hexec
    · exact hcalls call hosc
    · rw [List.mem_singleton.mp hexec]
      trivial
  · exact ⟨hend.resetParams.withState _, hcalls⟩
  · exact h.actionOscPutParam.1.quiet
  · exact Collects.quiet ⟨h.params, h.oscParams, h.oscNumParams⟩

theorem Collects.advanceApcString (h : p.Collects) (b : UInt8) :
    Delivers (p.advanceApcString b) := by
  have hput : (p.actionApcPut b).1.Collects := ⟨h.params, h.oscParams, h.oscNumParams⟩
  repeat' apply ite_delivers
  · exact h.quiet
  · exact ⟨h.clearOsc.withState _, by simp [Deliverable]⟩
  · exact ⟨hput.clearOsc.withState _, by simp [actionApcPut, Deliverable]⟩
  · exact ⟨h.clearOsc.withState _, by simp [Deliverable]⟩
  · exact ⟨hput.actionOscPutParam.1, by simp [actionApcPut, Deliverable]⟩
  · exact ⟨hput, by simp [actionApcPut, Deliverable]⟩

theorem Collects.advanceOpaqueString (h : p.Collects) (put : UInt8 → Call) (fin : Call)
    (hput : ∀ b, Deliverable (put b)) (hfin : Deliverable fin) (b : UInt8) :
    Delivers (advanceOpaqueString put fin p b) := by
  repeat' apply ite_delivers
  · exact ⟨h.withState _, by simpa using hfin⟩
  · exact ⟨h.withState _, by simpa [Deliverable] using hfin⟩
  · exact ⟨h.withState _, by simpa using hfin⟩
  · exact ⟨h, by simpa using hput b⟩
  · exact h.quiet

theorem Collects.changeState (h : p.Collects) (b : UInt8) : Delivers (p.changeState b) := by
  obtain ⟨hce, hci, hcm, hcp⟩ := h.advanceCsi b
  obtain ⟨hde, hdm, hdp, hdt⟩ := h.advanceDcs b
  obtain ⟨he, hei⟩ := h.advanceEsc b
  unfold Parser.changeState
  split
  · exact hce
  · exact hci
  · exact hcm
  · exact hcp
  · exact hde
  · exact h.anywhere b
  · exact hdm
  · exact hdp
  · exact hdt
  · exact he
  · exact hei
  · exact h.advanceOscString b
  · exact h.advanceOpaqueString .sosPut .sosEnd (fun _ => trivial) trivial b
  · exact h.advanceApcString b
  · exact h.advanceOpaqueString .pmPut .pmEnd (fun _ => trivial) trivial b
  · exact h.quiet

/-! ### Reads -/

theorem groundCall_deliverable (c : Char) : Deliverable (groundCall c) := by
  unfold groundCall
  split <;> trivial

theorem groundDispatch_deliverable (text : List Char) :
    ∀ call ∈ groundDispatch text, Deliverable call := by
  intro call hcall
  obtain ⟨c, -, rfl⟩ := List.mem_map.mp hcall
  exact groundCall_deliverable c

private theorem deliverable_append {calls : List Call} {call : Call}
    (h : ∀ c ∈ calls, Deliverable c) (hcall : Deliverable call) :
    ∀ c ∈ calls ++ [call], Deliverable c := by
  intro c hc
  rcases List.mem_append.mp hc with hold | hnew
  · exact h c hold
  · rw [List.mem_singleton.mp hnew]
    exact hcall

theorem Collects.advanceGround (h : p.Collects) (bytes : List UInt8) :
    (p.advanceGround bytes).1.Collects ∧
      ∀ call ∈ (p.advanceGround bytes).2.1, Deliverable call := by
  have hescape : p.enterEscape.Collects := h.resetParams.withState _
  unfold Parser.advanceGround
  dsimp only
  split
  · exact ⟨hescape, by simp⟩
  · have htext := groundDispatch_deliverable
      (Utf8.fromUtf8 (bytes.take (bytes.findIdx (· == 0x1B)))).chars
    split
    · split
      · exact ⟨hescape, htext⟩
      · exact ⟨h, htext⟩
    · refine ⟨h, deliverable_append htext ?_⟩
      split <;> trivial
    · split
      · exact ⟨hescape, deliverable_append htext trivial⟩
      · exact ⟨⟨h.params, h.oscParams, h.oscNumParams⟩, htext⟩

theorem Collects.advancePartialUtf8 (h : p.Collects) (bytes : List UInt8) :
    (p.advancePartialUtf8 bytes).1.Collects ∧
      ∀ call ∈ (p.advancePartialUtf8 bytes).2.1, Deliverable call := by
  have hcarry (carry : List UInt8) : Collects { p with partialUtf8 := carry } :=
    ⟨h.params, h.oscParams, h.oscNumParams⟩
  unfold Parser.advancePartialUtf8
  dsimp only
  split
  · exact ⟨hcarry _, by simp [Deliverable]⟩
  · split
    · exact ⟨hcarry _, by simp [Deliverable]⟩
    · split
      · exact ⟨hcarry _, by simp [Deliverable]⟩
      · exact ⟨hcarry _, by simp⟩

theorem Delivers.emit {calls : List Call} {out : Out} (hcalls : ∀ call ∈ calls, Deliverable call)
    (hout : Delivers out) : Delivers (emit calls out) := by
  refine ⟨hout.1, fun call hcall => ?_⟩
  rcases List.mem_append.mp hcall with hfirst | hrest
  · exact hcalls call hfirst
  · exact hout.2 call hrest

theorem Collects.advanceLoop (fuel : ℕ) (h : p.Collects) (bytes : List UInt8) :
    Delivers (advanceLoop fuel p bytes) := by
  induction fuel generalizing p bytes with
  | zero => exact h.quiet
  | succ fuel ih =>
    rcases bytes with _ | ⟨b, bs⟩
    · exact h.quiet
    rw [Parser.advanceLoop]
    split
    · obtain ⟨hground, hcalls⟩ := h.advanceGround (b :: bs)
      exact Delivers.emit hcalls (ih hground _)
    · obtain ⟨hstep, hcalls⟩ := h.changeState b
      exact Delivers.emit hcalls (ih hstep bs)

theorem Collects.advance (h : p.Collects) (bytes : List UInt8) : Delivers (p.advance bytes) := by
  unfold Parser.advance
  split
  · obtain ⟨hcarry, hcalls⟩ := h.advancePartialUtf8 bytes
    exact Delivers.emit hcalls (hcarry.advanceLoop _ _)
  · exact h.advanceLoop _ _

/-- Whatever is read, every call to a dispatcher is deliverable. -/
theorem Collects.run_advance (h : p.Collects) (reads : List (List UInt8)) :
    Delivers (run Parser.advance p reads) := by
  induction reads generalizing p with
  | nil => exact h.quiet
  | cons bytes reads ih =>
    obtain ⟨hread, hcalls⟩ := h.advance bytes
    exact Delivers.emit hcalls (ih hread)

end Parser
end Rio.Copa
