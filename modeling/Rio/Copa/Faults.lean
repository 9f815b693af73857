import Rio.Copa.Carry

/-! A faulty read is always visible: reads that make the calls of a single read, and leave the
parser it leaves, contain no faulty one. A faulty read either prints a control character, which
the byte machine never does, or skips a byte. For skipped bytes the two runs are compared by
counts: device control hooks first, then calls for text outside the seven-bit range, then all
calls. -/

set_option linter.dupNamespace false

namespace Rio.Copa
open Rio.Utf8 Rio.Transducer
namespace Parser

def isHook : Call → Bool
  | .hook .. => true
  | _ => false

/-- A call for text or a control outside the seven-bit range. -/
def isHigh : Call → Bool
  | .print c => 0x80 ≤ c.toNat
  | .execute b => 0x80 ≤ b
  | _ => false

def hooks (calls : List Call) : ℕ := calls.countP isHook
def highs (calls : List Call) : ℕ := calls.countP isHigh

/-- A carry is one call to come. -/
def pending (carry : List UInt8) : ℕ := if carry = [] then 0 else 1

@[simp] theorem hooks_append (xs ys : List Call) : hooks (xs ++ ys) = hooks xs + hooks ys :=
  List.countP_append

@[simp] theorem highs_append (xs ys : List Call) : highs (xs ++ ys) = highs xs + highs ys :=
  List.countP_append

@[simp] theorem hooks_nil : hooks [] = 0 := rfl

@[simp] theorem highs_nil : highs [] = 0 := rfl

/-! ### What a transition does to the state and the counts -/

/-- Two results with the same state and the same counts. -/
structure SameShape (x y : Out) : Prop where
  state : x.1.state = y.1.state
  hooks : hooks x.2 = hooks y.2
  highs : highs x.2 = highs y.2
  length : x.2.length = y.2.length

private theorem sameShape_ite {c : Prop} [Decidable c] {x x' y y' : Out} (hx : SameShape x x')
    (hy : SameShape y y') : SameShape (if c then x else y) (if c then x' else y') := by
  split
  · exact hx
  · exact hy

private theorem sameShape_state {p q : Parser} (h : p.state = q.state) (calls : List Call) :
    SameShape (p, calls) (q, calls) :=
  ⟨h, rfl, rfl, rfl⟩

@[simp] theorem actionCollect_state (p : Parser) (b : UInt8) :
    (p.actionCollect b).state = p.state := by
  unfold actionCollect
  split <;> rfl

@[simp] theorem actionSubparam_state (p : Parser) : p.actionSubparam.state = p.state := by
  unfold actionSubparam
  split <;> rfl

@[simp] theorem actionParam_state (p : Parser) : p.actionParam.state = p.state := by
  unfold actionParam
  split <;> rfl

@[simp] theorem actionParamnext_state (p : Parser) (b : UInt8) :
    (p.actionParamnext b).state = p.state := by
  unfold actionParamnext
  split <;> rfl

@[simp] theorem actionOscPutParam_state (p : Parser) : p.actionOscPutParam.state = p.state := by
  unfold actionOscPutParam
  dsimp only
  split_ifs <;> rfl

private theorem anywhere_shape {p q : Parser} (h : p.state = q.state) (b : UInt8) :
    SameShape (p.anywhere b) (q.anywhere b) :=
  sameShape_ite ⟨rfl, rfl, rfl, rfl⟩ (sameShape_ite ⟨rfl, rfl, rfl, rfl⟩ (sameShape_state h []))

/-- The state after a transition and the kinds of its calls depend on the state and the byte
only. -/
theorem changeState_shape {p q : Parser} (h : p.state = q.state) (b : UInt8) :
    SameShape (p.changeState b) (q.changeState b) := by
  unfold changeState
  rw [← h]
  split
  all_goals
    repeat' apply sameShape_ite
    all_goals first
      | exact ⟨rfl, rfl, rfl, rfl⟩
      | exact sameShape_state h _
      | exact ⟨h, rfl, rfl, rfl⟩
      | exact anywhere_shape h b
      | exact ⟨by simpa [actionApcPut] using h, rfl, rfl, rfl⟩

/-- What a transition outside the ground state never does, by state and byte. -/
private structure Quiet (s : State) (b : UInt8) (out : Out) : Prop where
  highs : highs out.2 = 0
  escape : b = 0x1B → out.1.state = .escape
  high : s ≠ .dcsPassthrough → 0x80 ≤ b → out.1.state = s
  hook : s ≠ .dcsPassthrough → out.1.state = .dcsPassthrough → 1 ≤ hooks out.2

/-- `Quiet` as a test that is quick to run on a whole table. -/
private def isQuiet (s : State) (b : UInt8) : Out → Bool
  | (p, calls) =>
    highs calls == 0 && (b.toNat != 0x1B || p.state == .escape) &&
      (s == .dcsPassthrough || (b.toNat.blt 0x80 || p.state == s) &&
        (p.state != .dcsPassthrough || Nat.ble 1 (hooks calls)))

private theorem quiet_of_isQuiet {s : State} {b : UInt8} {out : Out} (h : isQuiet s b out = true) :
    Quiet s b out := by
  obtain ⟨p, calls⟩ := out
  simp only [isQuiet, Bool.and_eq_true, Bool.or_eq_true, beq_iff_eq, bne_iff_ne, Nat.blt_eq,
    Nat.ble_eq] at h
  obtain ⟨⟨hhighs, hescape⟩, hrest⟩ := h
  refine ⟨hhighs, fun hb => ?_, fun hs hb => ?_, fun hs hstate => ?_⟩
  · subst hb
    exact hescape.resolve_left fun hne => hne rfl
  · exact (hrest.resolve_left hs).1.resolve_left (Nat.not_lt.mpr (UInt8.le_iff_toNat_le.mp hb))
  · exact (hrest.resolve_left hs).2.resolve_left fun hne => hne hstate

/-- The transition table, read off one parser for each state. -/
private theorem quiet_table (s : State) (hs : s ≠ .ground) :
    ∀ n : Fin 256,
      isQuiet s (UInt8.ofNat n.val) (changeState { state := s } (UInt8.ofNat n.val)) = true := by
  cases s
  case ground => exact absurd rfl hs
  all_goals decide +kernel

private theorem changeState_quiet {p : Parser} (hp : p.state ≠ .ground) (b : UInt8) :
    Quiet p.state b (p.changeState b) := by
  have htest := quiet_table p.state hp ⟨b.toNat, b.toNat_lt⟩
  rw [UInt8.ofNat_toNat] at htest
  have htable := quiet_of_isQuiet htest
  have hshape : SameShape (p.changeState b) (changeState { state := p.state } b) :=
    changeState_shape (p := p) (q := { state := p.state }) rfl b
  exact ⟨hshape.highs.trans htable.highs, fun h => hshape.state.trans (htable.escape h),
    fun hs h => hshape.state.trans (htable.high hs h),
    fun hs h => hshape.hooks.symm ▸ htable.hook hs (hshape.state.symm.trans h)⟩

/-! ### Counts of a step of the byte machine -/

private theorem isHigh_groundCall (c : Char) : isHigh (groundCall c) = decide (0x80 ≤ c.toNat) := by
  unfold groundCall
  split
  next h =>
    have hc : c.toNat ≤ 0x9F := by
      unfold isControl at h
      simp at h
      omega
    have : (0x80 : UInt8) ≤ UInt8.ofNat c.toNat ↔ 0x80 ≤ c.toNat := by
      rw [UInt8.le_iff_toNat_le, UInt8.toNat_ofNat_of_lt' (by show c.toNat < 256; omega)]
      rfl
    simp [isHigh, this]
  next => rfl

private theorem highs_itemCalls_char (c : Char) :
    highs (itemCalls (.char c)) = if 0x80 ≤ c.toNat then 1 else 0 := by
  simp only [itemCalls, highs, List.countP_singleton, isHigh_groundCall, decide_eq_true_eq]

private theorem hooks_itemCalls (i : Item) : hooks (itemCalls i) = 0 := by
  rcases i with c | _ | ⟨b, _ | ⟨b', bs⟩⟩
  · simp only [itemCalls, groundCall, hooks]
    split <;> rfl
  · rfl
  · simp only [itemCalls, hooks]
    split <;> rfl
  · rfl

private theorem hooks_flatMap_itemCalls (items : List Item) :
    hooks (items.flatMap itemCalls) = 0 := by
  induction items with
  | nil => rfl
  | cons i items ih => rw [List.flatMap_cons, hooks_append, hooks_itemCalls, ih]

private theorem highs_itemCalls_carry {carry : List UInt8} (hne : carry ≠ [])
    (hcarry : head carry = .incomplete) : highs (itemCalls (.bad carry)) = 1 := by
  rcases carry with _ | ⟨b, carry⟩
  · exact absurd rfl hne
  · have := (head_incomplete_first hcarry).1
    rw [itemCalls_bad (by grind)]
    rfl

private theorem start_counts_low {b : UInt8} (hb : b ≤ 0x7F) :
    (start b).1 = [] ∧ highs ((start b).2.flatMap itemCalls) = 0 := by
  have h := head_width_one (charWidth_ascii hb) []
  have hc := head_char_range h
  simp only [start, h, List.flatMap_cons, List.flatMap_nil, List.append_nil,
    highs_itemCalls_char, true_and]
  rw [if_neg (by omega)]

private theorem start_counts_high {b : UInt8} (hb : 0x80 ≤ b) :
    highs ((start b).2.flatMap itemCalls) + pending (start b).1 = 1 := by
  rcases head_singleton b with h | h | ⟨c, h⟩
  · simp [start, h, highs, pending]
  · simp only [start, h, List.flatMap_cons, List.flatMap_nil, List.append_nil, itemCalls]
    split
    · simp [highs, isHigh, hb, pending]
    · rfl
  · have := head_char_high (by grind) h
    omega

/-- A seven-bit byte settles what was pending and adds no call for high text. -/
private theorem feedByte_counts_low {carry : List UInt8} (hcarry : head carry = .incomplete)
    {b : UInt8} (hb : b ≤ 0x7F) :
    (feedByte carry b).1 = [] ∧
      highs ((feedByte carry b).2.flatMap itemCalls) = pending carry := by
  obtain ⟨hnil, hzero⟩ := start_counts_low hb
  by_cases hne : carry = []
  · simp only [feedByte, if_pos hne, pending]
    exact ⟨hnil, hzero⟩
  · have hbad : head (carry ++ [b]) = .invalid carry.length := by
      by_contra h
      have := head_concat_ge hne hcarry h
      grind
    simp only [feedByte, if_neg hne, hbad, emit, List.flatMap_append, List.flatMap_cons,
      List.flatMap_nil, List.append_nil, highs_append, highs_itemCalls_carry hne hcarry, hzero,
      pending]
    simp [hnil]

/-- Any other byte adds at most to the calls for high text, made or pending. -/
private theorem feedByte_counts_high {carry : List UInt8} (hcarry : head carry = .incomplete)
    {b : UInt8} (hb : 0x80 ≤ b) :
    pending carry ≤ highs ((feedByte carry b).2.flatMap itemCalls) + pending (feedByte carry b).1 ∧
      1 ≤ highs ((feedByte carry b).2.flatMap itemCalls) + pending (feedByte carry b).1 := by
  have hone := start_counts_high hb
  have hle : pending carry ≤ 1 := by
    unfold pending
    split <;> omega
  suffices h : 1 ≤ highs ((feedByte carry b).2.flatMap itemCalls) +
      pending (feedByte carry b).1 from ⟨hle.trans h, h⟩
  by_cases hne : carry = []
  · simp only [feedByte, if_pos hne]
    omega
  · rcases head_concat b hne hcarry with h | h | ⟨c, h⟩
    · simp [feedByte, if_neg hne, h, pending]
    · simp only [feedByte, if_neg hne, h, emit, List.flatMap_append, List.flatMap_cons,
        List.flatMap_nil, List.append_nil, highs_append, highs_itemCalls_carry hne hcarry]
      omega
    · have hc := head_char_range h
      have hpos := List.length_pos_iff.mpr hne
      simp only [feedByte, if_neg hne, h, List.flatMap_cons, List.flatMap_nil, List.append_nil,
        highs_itemCalls_char]
      rw [if_pos (by omega)]
      omega

/-- The carry and the counts of a byte read in the ground state. -/
private structure GroundStep (p : Parser) (b : UInt8) (out : Out) : Prop where
  hooks : hooks out.2 = 0
  escape : b = 0x1B → out.1.state = .escape
  ground : b ≠ 0x1B → out.1.state = .ground
  low : b ≤ 0x7F → out.1.partialUtf8 = [] ∧ highs out.2 = pending p.partialUtf8
  high : 0x80 ≤ b → pending p.partialUtf8 ≤ highs out.2 + pending out.1.partialUtf8 ∧
    1 ≤ highs out.2 + pending out.1.partialUtf8

private theorem stepByte_ground {p : Parser} (hp : p.WellFormed) (hground : p.state = .ground)
    (b : UInt8) : GroundStep p b (p.stepByte b) := by
  by_cases hesc : b = 0x1B
  · rw [stepByte, if_pos hground, if_pos hesc]
    have hflush : Parser.hooks (flushCalls p.partialUtf8) = 0 ∧
        Parser.highs (flushCalls p.partialUtf8) = pending p.partialUtf8 := by
      unfold flushCalls pending
      split <;> exact ⟨rfl, rfl⟩
    refine ⟨hflush.1, fun _ => rfl, fun h => absurd hesc h, fun _ => ⟨rfl, hflush.2⟩, ?_⟩
    intro hhigh
    subst hesc
    exact absurd hhigh (by decide)
  · rw [stepByte, if_pos hground, if_neg hesc]
    exact ⟨hooks_flatMap_itemCalls _, fun h => absurd h hesc, fun _ => hground,
      feedByte_counts_low hp.unfinished, feedByte_counts_high hp.unfinished⟩

/-! ### Two runs, one of which skips bytes -/

/-- The same state and the same carry. -/
def SameKey (p q : Parser) : Prop := p.state = q.state ∧ p.partialUtf8 = q.partialUtf8

private theorem stepByte_sameKey {p q : Parser} (h : SameKey p q) (b : UInt8) :
    SameKey (p.stepByte b).1 (q.stepByte b).1 ∧ SameShape (p.stepByte b) (q.stepByte b) := by
  obtain ⟨hstate, hcarry⟩ := h
  unfold stepByte
  rw [← hstate, ← hcarry]
  by_cases hground : p.state = .ground
  · rw [if_pos hground, if_pos hground]
    by_cases hesc : b = 0x1B
    · rw [if_pos hesc, if_pos hesc]
      exact ⟨⟨rfl, rfl⟩, rfl, rfl, rfl, rfl⟩
    · rw [if_neg hesc, if_neg hesc]
      exact ⟨⟨rfl, rfl⟩, rfl, rfl, rfl, rfl⟩
  · rw [if_neg hground, if_neg hground]
    have hshape := changeState_shape hstate b
    refine ⟨⟨hshape.state, ?_⟩, hshape⟩
    rw [changeState_partialUtf8, changeState_partialUtf8, hcarry]

/-- The skipping run is in the ground state while the other is inside a sequence, but not
inside a device control string. -/
def Astray (p q : Parser) : Prop :=
  p.state = .ground ∧ q.state ≠ .ground ∧ q.state ≠ .dcsPassthrough

/-- The run `s` has skipped `d` bytes that the run `w` read. -/
structure Skipped (s w : Out) (d : ℕ) : Prop where
  left : s.1.WellFormed
  right : w.1.WellFormed
  state : s.1.state = w.1.state ∨ s.1.state = .ground
  hooks_le : hooks s.2 ≤ hooks w.2
  level : hooks s.2 = hooks w.2 →
    SameKey s.1 w.1 ∧ highs s.2 = highs w.2 ∧ s.2.length + d = w.2.length ∨
      (SameKey s.1 w.1 ∨ Astray s.1 w.1) ∧
        highs w.2 + pending w.1.partialUtf8 < highs s.2 + pending s.1.partialUtf8

/-- Nothing was really skipped where parsers and counts agree in the end. -/
theorem Skipped.eq_zero {s w : Out} {d : ℕ} (h : Skipped s w d) (hparser : s.1 = w.1)
    (hcalls : s.2 = w.2) : d = 0 := by
  rcases h.level (by rw [hcalls]) with ⟨-, -, hlen⟩ | ⟨-, hlt⟩
  · rw [hcalls] at hlen
    omega
  · rw [hparser, hcalls] at hlt
    omega

private theorem stepByte_nonground {p : Parser} (hp : p.WellFormed) (hne : p.state ≠ .ground)
    (b : UInt8) :
    p.partialUtf8 = [] ∧ (p.stepByte b).1.partialUtf8 = [] ∧ Quiet p.state b (p.stepByte b) := by
  have hnil : p.partialUtf8 = [] := by
    by_contra h
    exact hne (hp.ground h)
  rw [stepByte, if_neg hne]
  exact ⟨hnil, (changeState_partialUtf8 p b).trans hnil, changeState_quiet hne b⟩

/-- Two parsers that are equal, or of which the first is in the ground state, stay so, and the
first makes no hook that the second does not. -/
private theorem stepByte_state {p q : Parser} (hp : p.WellFormed) (hq : q.WellFormed)
    (h : p.state = q.state ∨ p.state = .ground) (b : UInt8) :
    ((p.stepByte b).1.state = (q.stepByte b).1.state ∨ (p.stepByte b).1.state = .ground) ∧
      hooks (p.stepByte b).2 ≤ hooks (q.stepByte b).2 := by
  by_cases hground : p.state = .ground
  · have hstep := stepByte_ground hp hground b
    rw [hstep.hooks]
    refine ⟨?_, Nat.zero_le _⟩
    by_cases hesc : b = 0x1B
    · left
      rw [hstep.escape hesc]
      by_cases hq' : q.state = .ground
      · exact ((stepByte_ground hq hq' b).escape hesc).symm
      · exact ((stepByte_nonground hq hq' b).2.2.escape hesc).symm
    · exact .inr (hstep.ground hesc)
  · have hstate : p.state = q.state := h.resolve_right hground
    have hshape := changeState_shape hstate b
    rw [stepByte, if_neg hground, stepByte, if_neg (hstate ▸ hground)]
    exact ⟨.inl hshape.state, hshape.hooks.le⟩

/-- An astray pair over one byte, if the second run makes no hook. -/
private theorem stepByte_astray {p q : Parser} (hp : p.WellFormed) (hq : q.WellFormed)
    (h : Astray p q) (b : UInt8) (hhook : hooks (q.stepByte b).2 = 0) :
    (SameKey (p.stepByte b).1 (q.stepByte b).1 ∨ Astray (p.stepByte b).1 (q.stepByte b).1) ∧
      highs (q.stepByte b).2 + pending (q.stepByte b).1.partialUtf8 = 0 ∧
      pending p.partialUtf8 ≤
        highs (p.stepByte b).2 + pending (p.stepByte b).1.partialUtf8 ∧
      (0x80 ≤ b → 1 ≤ highs (p.stepByte b).2 + pending (p.stepByte b).1.partialUtf8) := by
  obtain ⟨hground, hne, hdcs⟩ := h
  have hs := stepByte_ground hp hground b
  obtain ⟨-, hwnil, hw⟩ := stepByte_nonground hq hne b
  have hnodcs : (q.stepByte b).1.state ≠ .dcsPassthrough := by
    intro hd
    have := hw.hook hdcs hd
    omega
  refine ⟨?_, ?_, ?_, fun hb => (hs.high hb).2⟩
  · by_cases hesc : b = 0x1B
    · have hlow := hs.low (by subst hesc; decide)
      exact .inl ⟨(hs.escape hesc).trans (hw.escape hesc).symm, hlow.1.trans hwnil.symm⟩
    · by_cases hback : (q.stepByte b).1.state = .ground
      · left
        refine ⟨(hs.ground hesc).trans hback.symm, ?_⟩
        have hlow : b ≤ 0x7F := by
          by_contra hb
          exact hne ((hw.high hdcs (by grind)).symm.trans hback)
        exact (hs.low hlow).1.trans hwnil.symm
      · exact .inr ⟨hs.ground hesc, hback, hnodcs⟩
  · rw [hw.highs, hwnil]
    rfl
  · by_cases hb : b ≤ 0x7F
    · obtain ⟨hnil, hcount⟩ := hs.low hb
      rw [hcount]
      omega
    · exact (hs.high (by grind)).1

/-- Both runs read a byte. -/
theorem Skipped.step {s w : Out} {d : ℕ} (h : Skipped s w d) (b : UInt8) :
    Skipped (emit s.2 (s.1.stepByte b)) (emit w.2 (w.1.stepByte b)) d := by
  obtain ⟨hstate, hhook⟩ := stepByte_state h.left h.right h.state b
  have hle := h.hooks_le
  refine ⟨stepByte_wellFormed h.left b, stepByte_wellFormed h.right b, hstate, ?_, ?_⟩
  · simp only [emit, hooks_append]
    omega
  · intro heq
    simp only [emit, hooks_append, highs_append, List.length_append] at heq ⊢
    rcases h.level (by omega) with ⟨hkey, hhigh, hlen⟩ | ⟨hkey | hastray, hlt⟩
    · obtain ⟨hkey', hshape⟩ := stepByte_sameKey hkey b
      have h1 := hshape.highs
      have h2 := hshape.length
      exact .inl ⟨hkey', by omega, by omega⟩
    · obtain ⟨hkey', hshape⟩ := stepByte_sameKey hkey b
      have h1 := hshape.highs
      have h2 := hkey.2
      have h3 := hkey'.2
      refine .inr ⟨.inl hkey', ?_⟩
      rw [h2] at hlt
      rw [h3]
      omega
    · have hs := (stepByte_ground h.left hastray.1 b).hooks
      obtain ⟨hrel, hw, hmono, -⟩ :=
        stepByte_astray h.left h.right hastray b (by omega)
      exact .inr ⟨hrel, by omega⟩

theorem Skipped.reads {s w : Out} {d : ℕ} (h : Skipped s w d) (bytes : List UInt8) :
    Skipped (emit s.2 (run stepByte s.1 bytes)) (emit w.2 (run stepByte w.1 bytes)) d := by
  induction bytes generalizing s w with
  | nil => simpa [emit] using h
  | cons b bytes ih =>
    have hrest := ih (h.step b)
    rw [run_cons, run_cons, emit_emit, emit_emit]
    exact hrest

/-- Where a skipped seven-bit byte leaves the run that reads it. -/
private structure LowStep (q : Parser) (b : UInt8) (out : Out) : Prop where
  carry : out.1.partialUtf8 = []
  highs : highs out.2 = pending q.partialUtf8
  dcs : q.state ≠ .dcsPassthrough → out.1.state = .dcsPassthrough → 1 ≤ hooks out.2

private theorem stepByte_low {q : Parser} (hq : q.WellFormed) {b : UInt8} (hb : b ≤ 0x7F) :
    LowStep q b (q.stepByte b) := by
  by_cases hground : q.state = .ground
  · have hs := stepByte_ground hq hground b
    refine ⟨(hs.low hb).1, (hs.low hb).2, fun _ hdcs => ?_⟩
    by_cases hesc : b = 0x1B
    · rw [hs.escape hesc] at hdcs
      cases hdcs
    · rw [hs.ground hesc] at hdcs
      cases hdcs
  · obtain ⟨hnil, hnil', hquiet⟩ := stepByte_nonground hq hground b
    refine ⟨hnil', ?_, hquiet.hook⟩
    rw [hquiet.highs, hnil]
    rfl

/-- Only the second run reads a seven-bit byte. Where the runs were level and the byte is an
escape character, the next byte must show the difference. -/
private theorem Skipped.skip_low {s w : Out} {d : ℕ} (h : Skipped s w d)
    (hground : s.1.state = .ground) (hnil : s.1.partialUtf8 = []) {a : UInt8} (ha : a ≤ 0x7F)
    (hesc : a = 0x1B → ¬ (SameKey s.1 w.1 ∧ highs s.2 = highs w.2)) :
    Skipped s (emit w.2 (w.1.stepByte a)) (d + 1) := by
  have hle := h.hooks_le
  have hlow := stepByte_low h.right ha
  refine ⟨h.left, stepByte_wellFormed h.right a, .inr hground, ?_, ?_⟩
  · simp only [emit, hooks_append]
    omega
  · intro heq
    simp only [emit, hooks_append, highs_append, List.length_append] at heq ⊢
    have hcount := hlow.highs
    have hpend : pending (w.1.stepByte a).1.partialUtf8 = 0 := by rw [hlow.carry]; rfl
    rcases h.level (by omega) with ⟨hkey, hhigh, hlen⟩ | ⟨hkey | hastray, hlt⟩
    · have hne : a ≠ 0x1B := fun he => hesc he ⟨hkey, hhigh⟩
      have hg : w.1.state = .ground := hkey.1 ▸ hground
      have hwnil : w.1.partialUtf8 = [] := hkey.2 ▸ hnil
      have hone : (w.1.stepByte a).2.length = 1 := by
        rw [stepByte, if_pos hg, if_neg hne, hwnil]
        simp [feedByte, start, head_width_one (charWidth_ascii ha) [], itemCalls]
      refine .inl ⟨⟨?_, hnil.trans hlow.carry.symm⟩, ?_, by omega⟩
      · exact hground.trans ((stepByte_ground h.right hg a).ground hne).symm
      · rw [hcount, hwnil, hhigh]
        rfl
    · have hg : w.1.state = .ground := hkey.1 ▸ hground
      have hs := stepByte_ground h.right hg a
      refine .inr ⟨?_, ?_⟩
      · by_cases he : a = 0x1B
        · refine .inr ⟨hground, ?_, ?_⟩
          · rw [hs.escape he]
            simp
          · rw [hs.escape he]
            simp
        · exact .inl ⟨hground.trans (hs.ground he).symm, hnil.trans hlow.carry.symm⟩
      · rw [hcount]
        omega
    · refine .inr ⟨?_, ?_⟩
      · by_cases hback : (w.1.stepByte a).1.state = .ground
        · exact .inl ⟨hground.trans hback.symm, hnil.trans hlow.carry.symm⟩
        · refine .inr ⟨hground, hback, fun hdcs => ?_⟩
          have := hlow.dcs hastray.2.2 hdcs
          omega
      · rw [hcount]
        omega

/-- Only the second run reads a seven-bit byte, then both read a byte outside the range. -/
theorem Skipped.skip {s w : Out} {d : ℕ} (h : Skipped s w d) (hground : s.1.state = .ground)
    (hnil : s.1.partialUtf8 = []) {a x : UInt8} (ha : a ≤ 0x7F) (hx : 0x80 ≤ x) :
    Skipped (emit s.2 (run stepByte s.1 [x])) (emit w.2 (run stepByte w.1 [a, x])) (d + 1) := by
  rw [run_singleton, run_cons, run_singleton, emit_emit]
  by_cases hlevel : a = 0x1B ∧ SameKey s.1 w.1 ∧ highs s.2 = highs w.2
  · obtain ⟨rfl, hkey, hhigh⟩ := hlevel
    have hg : w.1.state = .ground := hkey.1 ▸ hground
    have hwnil : w.1.partialUtf8 = [] := hkey.2 ▸ hnil
    have hstep : w.1.stepByte 0x1B = ((w.1.withCarry []).enterEscape, []) := by
      rw [stepByte, if_pos hg, if_pos rfl, hwnil]
      rfl
    rw [hstep]
    generalize hq : (w.1.withCarry []).enterEscape = q
    have hqwf : q.WellFormed := wellFormed_of_nil (by rw [← hq]; rfl)
    have hqstate : q.state = .escape := by rw [← hq]; rfl
    have hs := stepByte_ground h.left hground x
    obtain ⟨-, hnil', hw⟩ := stepByte_nonground hqwf (by rw [hqstate]; simp) x
    have hstay := (hw.high (by rw [hqstate]; simp) hx).trans hqstate
    have hxesc : x ≠ 0x1B := by
      rintro rfl
      exact absurd hx (by decide)
    have hle := h.hooks_le
    have h0 := hs.hooks
    refine ⟨stepByte_wellFormed h.left x, stepByte_wellFormed hqwf x,
      .inr (hs.ground hxesc), ?_, fun _ => .inr ⟨.inr ⟨hs.ground hxesc, ?_, ?_⟩, ?_⟩⟩
    · simp only [emit, hooks_append]
      omega
    · simp only [emit, hstay]
      simp
    · simp only [emit, hstay]
      simp
    · have hcount := (hs.high hx).2
      have hquiet := hw.highs
      have hpend : pending (q.stepByte x).1.partialUtf8 = 0 := by rw [hnil']; rfl
      have hempty : highs ([] : List Call) = 0 := rfl
      simp only [emit, highs_append]
      omega
  · have hlow := h.skip_low hground hnil ha fun he hk => hlevel ⟨he, hk⟩
    have hboth := hlow.step x
    simpa [emit] using hboth

/-- Only the parser and the counts of the skipping run matter. -/
private theorem Skipped.congr {s s' w : Out} {d : ℕ} (h : Skipped s w d) (hparser : s'.1 = s.1)
    (hhooks : Parser.hooks s'.2 = Parser.hooks s.2) (hhighs : highs s'.2 = highs s.2)
    (hlen : s'.2.length = s.2.length) : Skipped s' w d := by
  refine ⟨hparser ▸ h.left, h.right, hparser ▸ h.state, hhooks ▸ h.hooks_le, ?_⟩
  rw [hhooks, hhighs, hlen, hparser]
  exact h.level

/-! ### Whole runs -/

/-- A C1 control character that is printed. -/
def printsControl : Call → Bool
  | .print c => isControl c && 0x80 ≤ c.toNat
  | _ => false

private theorem printsControl_groundCall (c : Char) : printsControl (groundCall c) = false := by
  unfold groundCall
  split
  next => rfl
  next h => simp [printsControl, h]

private theorem printsControl_itemCalls (i : Item) :
    ∀ call ∈ itemCalls i, printsControl call = false := by
  have hrep : printsControl (.print replacement) = false := by decide
  rcases i with c | _ | ⟨b, _ | ⟨b', bs⟩⟩
  · simpa [itemCalls] using printsControl_groundCall c
  · simpa [itemCalls] using hrep
  · simp only [itemCalls]
    split
    · simp [printsControl]
    · simpa using hrep
  · simpa [itemCalls] using hrep

/-- The byte machine executes control characters. -/
theorem stepByte_printsControl {p : Parser} (hp : p.WellFormed) (b : UInt8) :
    ∀ call ∈ (p.stepByte b).2, printsControl call = false := by
  intro call hcall
  by_cases hground : p.state = .ground
  · rw [stepByte, if_pos hground] at hcall
    by_cases hesc : b = 0x1B
    · rw [if_pos hesc] at hcall
      unfold flushCalls at hcall
      split at hcall
      · cases hcall
      · obtain rfl := List.mem_singleton.mp hcall
        decide
    · rw [if_neg hesc] at hcall
      obtain ⟨i, -, hi⟩ := List.mem_flatMap.mp hcall
      exact printsControl_itemCalls i call hi
  · have hquiet := (stepByte_nonground hp hground b).2.2.highs
    have hlow := List.countP_eq_zero.mp hquiet call hcall
    cases call with
    | print c => simp_all [isHigh, printsControl]
    | _ => rfl

theorem run_stepByte_printsControl (bytes : List UInt8) {p : Parser} (hp : p.WellFormed) :
    ∀ call ∈ (run stepByte p bytes).2, printsControl call = false := by
  induction bytes generalizing p with
  | nil => simp
  | cons b bytes ih =>
    intro call hcall
    rw [run_cons, emit] at hcall
    rcases List.mem_append.mp hcall with h | h
    · exact stepByte_printsControl hp b call h
    · exact ih (stepByte_wellFormed hp b) call h

private theorem groundCall_counts (c : Char) :
    hooks [groundCall c] = hooks [.print c] ∧ highs [groundCall c] = highs [.print c] := by
  constructor
  · unfold groundCall
    split <;> rfl
  · simp only [highs, List.countP_singleton, isHigh_groundCall]
    rfl

theorem losesByte_shape {carry bytes : List UInt8} (h : losesByte carry bytes = true) :
    ∃ b0 b1 a x rest, carry = [b0] ∧ bytes = b1 :: a :: x :: rest ∧ charWidth b0 = 2 ∧
      isCont b1 = true ∧ a ≤ 0x7F ∧ 0x80 ≤ x := by
  unfold losesByte at h
  split at h
  next b0 b1 a x rest =>
    simp only [Bool.and_eq_true, beq_iff_eq, decide_eq_true_eq] at h
    exact ⟨b0, b1, a, x, rest, rfl, rfl, h.1.1.1, h.1.1.2, h.1.2, h.2⟩
  next => cases h

/-- One read by the parser against the byte machine: it is level with it, or has skipped one
more byte, or has printed a control character. -/
private theorem Skipped.advance {s w : Out} {d : ℕ} (h : Skipped s w d) (bytes : List UInt8) :
    ∃ d', Skipped (emit s.2 (s.1.advance bytes)) (emit w.2 (run stepByte w.1 bytes)) d' ∧
      d ≤ d' ∧ (s.1.carryFault bytes = true →
        d < d' ∨ ∃ call ∈ (s.1.advance bytes).2, printsControl call = true) := by
  cases hfault : s.1.carryFault bytes with
  | false =>
    refine ⟨d, ?_, le_rfl, by simp⟩
    rw [advance_eq_run h.left hfault]
    exact h.reads bytes
  | true =>
    have hne : s.1.partialUtf8 ≠ [] := by
      intro hnil
      simp [carryFault, hnil] at hfault
    have hempty : s.1.partialUtf8.isEmpty = false := by simpa using hne
    simp only [carryFault, hempty, Bool.not_false, Bool.true_and, Bool.or_eq_true] at hfault
    have hground := h.left.ground hne
    cases hlose : losesByte s.1.partialUtf8 bytes with
    | false =>
      have hcontrol := hfault.resolve_right (by simp [hlose])
      unfold completesControl at hcontrol
      split at hcontrol
      next c n hhead =>
        have hlen := (run_stepByte_carry_char h.left hne hhead).1
        have hpos := List.length_pos_iff.mpr hne
        have hrange := head_char_range hhead
        have hc : 0x80 ≤ c.toNat := by omega
        have hadv := advance_carry_char h.left hne hhead
        have hrun := (run_stepByte_carry_char h.left hne hhead).2
        rw [hlose] at hadv
        simp only [Bool.false_eq_true, if_false, Nat.add_zero] at hadv
        obtain ⟨hh, hi⟩ := groundCall_counts c
        refine ⟨d, (h.reads bytes).congr ?_ ?_ ?_ ?_, le_rfl, fun _ => .inr ⟨.print c, ?_, ?_⟩⟩
        · rw [hadv, hrun]
          rfl
        · simp only [hadv, hrun, emit, hooks_append, hh]
        · simp only [hadv, hrun, emit, highs_append, hi]
        · simp [hadv, hrun, emit]
        · simp [hadv, emit]
        · simp [printsControl, hcontrol, hc]
      next => cases hcontrol
    | true =>
      obtain ⟨b0, b1, a, x, rest, hcarry, rfl, hw, hcont, ha, hx⟩ := losesByte_shape hlose
      have hhead (tail : List UInt8) :
          head (s.1.partialUtf8 ++ b1 :: tail) = .char (Char.ofNat (scalar2 b0 b1)) 2 := by
        rw [hcarry, List.singleton_append, head_width_two hw, head2, if_pos hcont]
      obtain ⟨hh, hi⟩ := groundCall_counts (Char.ofNat (scalar2 b0 b1))
      have hadv := advance_carry_char h.left hne (hhead (a :: x :: rest))
      have hrun := (run_stepByte_carry_char h.left hne (hhead [])).2
      rw [hlose, hcarry] at hadv
      rw [hcarry] at hrun
      simp only [List.length_singleton, if_true, Nat.add_one_sub_one, Nat.reduceAdd,
        List.drop_succ_cons, List.drop_zero, run_nil] at hadv hrun
      have hfirst := h.reads [b1]
      rw [hrun] at hfirst
      have hskip := (hfirst.skip hground rfl ha hx).reads rest
      have hw3 : emit w.2 (run stepByte w.1 (b1 :: a :: x :: rest)) =
          emit (emit (emit w.2 (run stepByte w.1 [b1])).2
              (run stepByte (emit w.2 (run stepByte w.1 [b1])).1 [a, x])).2
            (run stepByte (emit (emit w.2 (run stepByte w.1 [b1])).2
              (run stepByte (emit w.2 (run stepByte w.1 [b1])).1 [a, x])).1 rest) := by
        rw [show b1 :: a :: x :: rest = [b1] ++ ([a, x] ++ rest) from rfl, run_append, run_append]
        simp [emit]
      rw [hw3]
      refine ⟨d + 1, hskip.congr ?_ ?_ ?_ ?_, by omega, fun _ => .inl (by omega)⟩
      · rw [hadv, run_cons]
        simp [emit]
      · rw [hadv, run_cons]
        simp only [emit, hooks_append, run_singleton, hooks_nil, hh]
        omega
      · rw [hadv, run_cons]
        simp only [emit, highs_append, run_singleton, highs_nil, hi]
        omega
      · rw [hadv, run_cons]
        simp [emit]

/-- All reads of a run. -/
private theorem Skipped.pieces {s w : Out} {d : ℕ} (h : Skipped s w d)
    (pieces : List (List UInt8)) :
    ∃ d', Skipped (emit s.2 (run Parser.advance s.1 pieces))
        (emit w.2 (run stepByte w.1 pieces.flatten)) d' ∧
      d ≤ d' ∧ (AllSteps Parser.advance (fun p bytes => p.carryFault bytes = false) s.1 pieces ∨
        d < d' ∨ ∃ call ∈ (run Parser.advance s.1 pieces).2, printsControl call = true) := by
  induction pieces generalizing s w d with
  | nil => exact ⟨d, by simpa [emit] using h, le_rfl, .inl trivial⟩
  | cons bytes pieces ih =>
    obtain ⟨d1, hfirst, hle1, hfault⟩ := h.advance bytes
    obtain ⟨d2, hrest, hle2, hall⟩ := ih hfirst
    refine ⟨d2, ?_, by omega, ?_⟩
    · rw [List.flatten_cons, run_append, run_cons, emit_emit, emit_emit]
      exact hrest
    · rcases hall with hok | hlt | ⟨call, hmem, hcall⟩
      · cases hf : s.1.carryFault bytes with
        | false => exact .inl ⟨hf, hok⟩
        | true =>
          rcases hfault hf with hlt | ⟨call, hmem, hcall⟩
          · exact .inr (.inl (by omega))
          · exact .inr (.inr ⟨call, List.mem_append_left _ hmem, hcall⟩)
      · exact .inr (.inl (by omega))
      · exact .inr (.inr ⟨call, List.mem_append_right _ hmem, hcall⟩)

/-- Reading a byte string in pieces makes the calls of reading it at once, and leaves the parser
it leaves, exactly if no piece runs into a carry fault. -/
theorem run_advance_eq_iff (pieces : List (List UInt8)) :
    run advance new pieces = new.advance pieces.flatten ↔
      AllSteps advance (fun p bytes => p.carryFault bytes = false) new pieces := by
  constructor
  · intro heq
    have hstart : Skipped (new, []) (new, []) 0 :=
      ⟨new_wellFormed, new_wellFormed, .inl rfl, le_rfl, fun _ => .inl ⟨⟨rfl, rfl⟩, rfl, rfl⟩⟩
    obtain ⟨d, hend, -, hall⟩ := hstart.pieces pieces
    have hwhole : new.advance pieces.flatten = run stepByte new pieces.flatten :=
      advance_eq_run new_wellFormed rfl
    rw [emit_nil, emit_nil, heq, hwhole] at hend
    have hd := hend.eq_zero rfl rfl
    rcases hall with hok | hlt | ⟨call, hmem, hcall⟩
    · exact hok
    · omega
    · rw [heq, hwhole] at hmem
      rw [run_stepByte_printsControl _ new_wellFormed call hmem] at hcall
      cases hcall
  · exact run_advance_eq_advance pieces new_wellFormed rfl

/-- The two bytes of U+00E9 in different reads, the second followed by a letter and the start
of another character: the letter is lost. -/
theorem run_advance_loses_letter :
    run advance new [[0xC3], [0xA9, 0x61, 0xE2, 0x82, 0xAC]] ≠
      new.advance [0xC3, 0xA9, 0x61, 0xE2, 0x82, 0xAC] := by
  decide +kernel

end Parser
end Rio.Copa
