import Rio.Crosswords.Bounds
import Rio.Crosswords.Frame

/-! The keyboard mode stacks as bounded stacks, and the keyboard bits of the mode over runs. -/

set_option linter.dupNamespace false

namespace Rio
open Rio.Runs

/-! ### Bounded stacks -/

namespace KeyboardStack

/-- A stack of fixed depth is the list of its entries, top first; what is not in use is `0`. -/
def top (s : List UInt8) : UInt8 := s.headD 0

/-- The oldest entry is forgotten. -/
def push (s : List UInt8) (mode : UInt8) : List UInt8 := mode :: s.dropLast

def pop (s : List UInt8) : List UInt8 := s.tail ++ [0]

def setTop (s : List UInt8) (mode : UInt8) : List UInt8 := mode :: s.tail

def empty : List UInt8 := List.replicate keyboardModeStackMaxDepth 0

theorem foldl_push : ∀ (modes : List UInt8) {s : List UInt8}, s ≠ [] →
    modes.foldl push s = (modes.reverse ++ s).take s.length
  | [], s, _ => by simp
  | mode :: modes, s, hs => by
    have hpos := List.length_pos_iff.mpr hs
    have hlen : (push s mode).length = s.length := by
      unfold push
      rw [List.length_cons, List.length_dropLast]
      omega
    have hne : push s mode ≠ [] := List.cons_ne_nil _ _
    rw [List.foldl_cons, foldl_push modes hne, hlen]
    unfold push
    rw [List.reverse_cons, List.append_assoc, List.singleton_append, List.dropLast_eq_take,
      List.take_append, List.take_append]
    congr 1
    rcases hk : s.length - modes.reverse.length with _ | k
    · rfl
    · rw [List.take_succ_cons, List.take_succ_cons, List.take_take]
      congr 2
      omega

theorem pop_iterate (s : List UInt8) : ∀ {count : ℕ}, count ≤ s.length →
    pop^[count] s = s.drop count ++ List.replicate count 0
  | 0, _ => by simp
  | count + 1, hcount => by
    rw [Function.iterate_succ_apply', pop_iterate s (by omega)]
    unfold pop
    rw [List.tail_append_of_ne_nil (by simp; omega), List.tail_drop, List.append_assoc,
      List.replicate_succ']

/-- Popping as often as was pushed before restores what was not forgotten. -/
theorem pop_pushes_top {s modes : List UInt8} (hlen : modes.length < s.length) :
    top (pop^[modes.length] (modes.foldl push s)) = top s := by
  have hs : s ≠ [] := List.length_pos_iff.mp (by omega)
  rw [foldl_push modes hs, pop_iterate _ (by simp; omega), List.drop_take]
  have hdrop : (modes.reverse ++ s).drop modes.length = s := by
    rw [← List.length_reverse, List.drop_left]
  rw [hdrop]
  unfold top
  rcases s with _ | ⟨mode, s⟩
  · exact absurd rfl hs
  · rcases hk : (mode :: s).length - modes.length with _ | k
    · omega
    · rfl

theorem pop_iterate_empty (count : ℕ) : pop^[count] empty = empty :=
  Function.iterate_fixed rfl count

/-- Popping all entries or more empties the stack. -/
theorem pop_iterate_all {s : List UInt8} (hs : s.length = keyboardModeStackMaxDepth) {count : ℕ}
    (hcount : keyboardModeStackMaxDepth ≤ count) : pop^[count] s = empty := by
  obtain ⟨extra, rfl⟩ := Nat.exists_eq_add_of_le' hcount
  have hall : pop^[keyboardModeStackMaxDepth] s = empty := by
    rw [pop_iterate s hs.ge, List.drop_eq_nil_of_le hs.le]
    rfl
  rw [Function.iterate_add_apply, hall, pop_iterate_empty]

end KeyboardStack

/-- The entries of a ring from the one at `idx` down, the oldest last. -/
def ringDown (ring : List UInt8) (idx : ℕ) : List UInt8 :=
  (List.range ring.length).map fun k => ring.getD ((idx + ring.length - k) % ring.length) 0

section ringDown

variable {ring : List UInt8} {idx : ℕ}

theorem ringDown_length (ring : List UInt8) (idx : ℕ) :
    (ringDown ring idx).length = ring.length := by
  simp [ringDown]

theorem ringDown_getElem? (ring : List UInt8) (idx : ℕ) {k : ℕ} (hk : k < ring.length) :
    (ringDown ring idx)[k]? = some (ring.getD ((idx + ring.length - k) % ring.length) 0) := by
  simp [ringDown, hk]

theorem ringDown_top (hidx : idx < ring.length) :
    KeyboardStack.top (ringDown ring idx) = ring.getD idx 0 := by
  have hhead := ringDown_getElem? ring idx (k := 0) (by omega)
  rw [Nat.sub_zero, Nat.add_mod_right, Nat.mod_eq_of_lt hidx] at hhead
  unfold KeyboardStack.top
  rw [List.headD_eq_head?_getD, List.head?_eq_getElem?, hhead]
  rfl

theorem getD_set (ring : List UInt8) (i j : ℕ) (mode : UInt8) (hi : i < ring.length) :
    (ring.set i mode).getD j 0 = if i = j then mode else ring.getD j 0 := by
  rw [List.getD_eq_getElem?_getD, List.getD_eq_getElem?_getD, List.getElem?_set]
  split_ifs <;> simp

theorem down_index {n idx k : ℕ} (hidx : idx < n) (hk : k < n) :
    (idx + n - k) % n = if k ≤ idx then idx - k else idx + n - k := by
  split_ifs with hle
  · rw [show idx + n - k = idx - k + n by omega, Nat.add_mod_right, Nat.mod_eq_of_lt (by omega)]
  · exact Nat.mod_eq_of_lt (by omega)

theorem getElem?_ringDown (hidx : idx < ring.length) (k : ℕ) :
    (ringDown ring idx)[k]? =
      if k < ring.length then some (ring.getD (if k ≤ idx then idx - k else idx + ring.length - k) 0)
      else none := by
  split_ifs with hk
  · rw [ringDown_getElem? ring idx hk, down_index hidx hk]
    split_ifs
    rfl
  · rw [ringDown_getElem? ring idx hk, down_index hidx hk]
    split_ifs
    rfl
  · rw [List.getElem?_eq_none (by rw [ringDown_length]; omega)]

theorem ringDown_setTop (hidx : idx < ring.length) (mode : UInt8) :
    ringDown (ring.set idx mode) idx = KeyboardStack.setTop (ringDown ring idx) mode := by
  apply List.ext_getElem?
  intro k
  rw [getElem?_ringDown (by rwa [List.length_set]), List.length_set]
  unfold KeyboardStack.setTop
  cases k with
  | zero =>
    rw [if_pos (by omega), if_pos (Nat.zero_le _), getD_set _ _ _ _ hidx, if_pos (by omega)]
    rfl
  | succ k =>
    rw [List.getElem?_cons_succ, List.getElem?_tail, getElem?_ringDown hidx]
    split_ifs
    · rw [getD_set _ _ _ _ hidx, if_neg (by omega)]
    · rw [getD_set _ _ _ _ hidx, if_neg (by omega)]
    · rfl

theorem ringDown_push (hidx : idx < ring.length) (mode : UInt8) :
    ringDown (ring.set ((idx + 1) % ring.length) mode) ((idx + 1) % ring.length) =
      KeyboardStack.push (ringDown ring idx) mode := by
  have hpos : 0 < ring.length := by omega
  have hidx' : (idx + 1) % ring.length < ring.length := Nat.mod_lt _ hpos
  have hnext : idx + 1 = ring.length ∧ (idx + 1) % ring.length = 0 ∨
      idx + 1 < ring.length ∧ (idx + 1) % ring.length = idx + 1 := by
    rcases Nat.lt_or_ge (idx + 1) ring.length with hlt | hge
    · exact .inr ⟨hlt, Nat.mod_eq_of_lt hlt⟩
    · have hlast : idx + 1 = ring.length := by omega
      exact .inl ⟨hlast, by rw [hlast, Nat.mod_self]⟩
  generalize (idx + 1) % ring.length = idx' at hidx' hnext ⊢
  apply List.ext_getElem?
  intro k
  rw [getElem?_ringDown (by rwa [List.length_set]), List.length_set]
  unfold KeyboardStack.push
  cases k with
  | zero =>
    rw [if_pos hpos, if_pos (Nat.zero_le _), getD_set _ _ _ _ hidx', if_pos (by omega)]
    rfl
  | succ k =>
    rw [List.getElem?_cons_succ, List.getElem?_dropLast, ringDown_length, getElem?_ringDown hidx]
    by_cases hk : k + 1 < ring.length
    · rw [if_pos hk, if_pos (show k < ring.length - 1 by omega),
        if_pos (show k < ring.length by omega), getD_set _ _ _ _ hidx',
        if_neg (by split_ifs <;> omega)]
      congr 2
      split_ifs <;> omega
    · rw [if_neg hk, if_neg (show ¬k < ring.length - 1 by omega)]

theorem ringDown_pop (hidx : idx < ring.length) :
    ringDown (ring.set idx 0) ((idx + ring.length - 1) % ring.length) =
      KeyboardStack.pop (ringDown ring idx) := by
  have hpos : 0 < ring.length := by omega
  have hidx' : (idx + ring.length - 1) % ring.length < ring.length := Nat.mod_lt _ hpos
  have hprev : idx = 0 ∧ (idx + ring.length - 1) % ring.length = ring.length - 1 ∨
      0 < idx ∧ (idx + ring.length - 1) % ring.length = idx - 1 := by
    rcases Nat.eq_zero_or_pos idx with hzero | hidxpos
    · exact .inl ⟨hzero, by rw [Nat.mod_eq_of_lt (by omega)]; omega⟩
    · refine .inr ⟨hidxpos, ?_⟩
      rw [show idx + ring.length - 1 = idx - 1 + ring.length by omega, Nat.add_mod_right,
        Nat.mod_eq_of_lt (by omega)]
  generalize (idx + ring.length - 1) % ring.length = idx' at hidx' hprev ⊢
  apply List.ext_getElem?
  intro k
  rw [getElem?_ringDown (by rwa [List.length_set]), List.length_set]
  unfold KeyboardStack.pop
  rw [List.getElem?_append, List.length_tail, ringDown_length, List.getElem?_tail,
    getElem?_ringDown hidx]
  by_cases hk : k + 1 < ring.length
  · rw [if_pos (show k < ring.length by omega), if_pos (show k < ring.length - 1 by omega),
      if_pos hk, getD_set _ _ _ _ hidx, if_neg (by split_ifs <;> omega)]
    congr 2
    split_ifs <;> omega
  · by_cases hlast : k < ring.length
    · rw [if_pos hlast, if_neg (show ¬k < ring.length - 1 by omega), getD_set _ _ _ _ hidx,
        if_pos (by split_ifs <;> omega), show k - (ring.length - 1) = 0 by omega]
      rfl
    · rw [if_neg hlast, if_neg (show ¬k < ring.length - 1 by omega), List.getElem?_eq_none (by simp; omega)]

theorem ringDown_empty : ringDown KeyboardStack.empty 0 = KeyboardStack.empty := by
  decide

end ringDown

/-! ### The stacks of both screens -/

/-- What setting a mode makes of the top entry of a stack. -/
def KeyboardModesApplyBehavior.apply (active mode : UInt8) : KeyboardModesApplyBehavior → UInt8
  | .replace => mode
  | .union => active ||| mode
  | .difference => active &&& ~~~mode

/-- The stack of the active screen and the one of the other screen. -/
structure KeyboardStacks where
  active : List UInt8
  inactive : List UInt8
  alt : Bool
  deriving DecidableEq, Repr

namespace KeyboardStacks

def initial : KeyboardStacks := ⟨KeyboardStack.empty, KeyboardStack.empty, false⟩

/-- The other screen becomes the active one. -/
def swap (s : KeyboardStacks) : KeyboardStacks := ⟨s.inactive, s.active, !s.alt⟩

/-- What an operation does to the stacks. -/
def step (s : KeyboardStacks) : Op → KeyboardStacks
  | .pushKeyboardMode mode => { s with active := KeyboardStack.push s.active mode }
  | .popKeyboardModes toPop => { s with active := KeyboardStack.pop^[toPop] s.active }
  | .setKeyboardMode mode apply =>
    { s with
      active := KeyboardStack.setTop s.active (apply.apply (KeyboardStack.top s.active) mode) }
  | .resetState => initial
  | .setPrivateMode (.named .swapScreenAndSetRestoreCursor) => if s.alt then s else s.swap
  | .unsetPrivateMode (.named .swapScreenAndSetRestoreCursor) => if s.alt then s.swap else s
  | _ => s

end KeyboardStacks

namespace Crosswords

def keyboardStacks (t : Crosswords) : KeyboardStacks :=
  ⟨ringDown t.keyboardModeStack t.keyboardModeIdx,
    ringDown t.inactiveKeyboardModeStack t.inactiveKeyboardModeIdx, t.mode.altScreen⟩

/-- The keyboard bits of the mode are those on top of the stack of the active screen. -/
def KeyboardAgrees (t : Crosswords) : Prop :=
  t.mode = t.mode.withKeyboard (KeyboardStack.top t.keyboardStacks.active)

instance (t : Crosswords) : Decidable t.KeyboardAgrees :=
  inferInstanceAs (Decidable (_ = _))

/-- Two entries stand for the same bits of the keyboard protocol. -/
def SameKeyboardBits (a b : UInt8) : Prop :=
  Mode.withKeyboard default a = Mode.withKeyboard default b

/-- Where the operation swaps the screens, both stacks have the same bits on top. -/
def SwapAgrees (t : Crosswords) : Op → Prop
  | .setPrivateMode (.named .swapScreenAndSetRestoreCursor) =>
    t.mode.altScreen = false → SameKeyboardBits (KeyboardStack.top t.keyboardStacks.active)
      (KeyboardStack.top t.keyboardStacks.inactive)
  | .unsetPrivateMode (.named .swapScreenAndSetRestoreCursor) =>
    t.mode.altScreen = true → SameKeyboardBits (KeyboardStack.top t.keyboardStacks.active)
      (KeyboardStack.top t.keyboardStacks.inactive)
  | _ => True

/-- The operations of the keyboard protocol. -/
def OfKeyboard : Op → Prop
  | .pushKeyboardMode _ | .popKeyboardModes _ | .setKeyboardMode _ _ => True
  | _ => False

/-- The operation does to the stacks what it does to bounded stacks, leaves the mode in agreement
with them, and changes no other bit of the mode if it is one of the keyboard protocol. -/
def KeyboardStep (u : Unicode) (t : Crosswords) (op : Op) : Prop :=
  (t.step u op).KeyboardAgrees ∧ (t.step u op).keyboardStacks = t.keyboardStacks.step op ∧
    (OfKeyboard op → (t.step u op).mode.withKeyboard 0 = t.mode.withKeyboard 0)

/-- The rings of the terminal are those of the source. -/
structure KeyboardSound (t : Crosswords) : Prop where
  stack : t.keyboardModeStack.length = keyboardModeStackMaxDepth
  idx : t.keyboardModeIdx < keyboardModeStackMaxDepth
  inactiveStack : t.inactiveKeyboardModeStack.length = keyboardModeStackMaxDepth
  inactiveIdx : t.inactiveKeyboardModeIdx < keyboardModeStackMaxDepth
  agrees : t.KeyboardAgrees

@[simp] theorem withKeyboard_withKeyboard (m : Mode) (a b : UInt8) :
    (m.withKeyboard a).withKeyboard b = m.withKeyboard b := rfl

theorem withKeyboard_inj (m : Mode) {a b : UInt8} :
    m.withKeyboard a = m.withKeyboard b ↔ SameKeyboardBits a b := by
  unfold SameKeyboardBits Mode.withKeyboard
  simp only [Mode.mk.injEq, true_and]

variable {t t' : Crosswords}

/-- The mode and the rings. -/
def SameKeyboard (t t' : Crosswords) : Prop :=
  t'.mode = t.mode ∧ t'.keyboardModeStack = t.keyboardModeStack ∧
    t'.keyboardModeIdx = t.keyboardModeIdx ∧
      t'.inactiveKeyboardModeStack = t.inactiveKeyboardModeStack ∧
        t'.inactiveKeyboardModeIdx = t.inactiveKeyboardModeIdx

theorem Frame.sameKeyboard (h : t.Frame t') : t.SameKeyboard t' :=
  ⟨h.mode, congrArg Control.keyboardModeStack h, congrArg Control.keyboardModeIdx h,
    congrArg Control.inactiveKeyboardModeStack h, congrArg Control.inactiveKeyboardModeIdx h⟩

theorem SameKeyboard.stacks (h : t.SameKeyboard t') : t'.keyboardStacks = t.keyboardStacks := by
  obtain ⟨hmode, hstack, hidx, histack, hiidx⟩ := h
  unfold keyboardStacks
  rw [hmode, hstack, hidx, histack, hiidx]

theorem KeyboardSound.same (h : t.KeyboardSound) (hsame : t.SameKeyboard t') :
    t'.KeyboardSound := by
  have hagrees := h.agrees
  unfold KeyboardAgrees at hagrees
  refine ⟨?_, ?_, ?_, ?_, ?_⟩
  · rw [hsame.2.1]
    exact h.stack
  · rw [hsame.2.2.1]
    exact h.idx
  · rw [hsame.2.2.2.1]
    exact h.inactiveStack
  · rw [hsame.2.2.2.2]
    exact h.inactiveIdx
  · unfold KeyboardAgrees
    rwa [hsame.stacks, hsame.1]

/-- A change of the mode that has nothing to do with the keyboard. -/
theorem KeyboardSound.setMode (h : t.KeyboardSound) {f : Mode → Mode}
    (hf : ∀ m bits, (f m).withKeyboard bits = f (m.withKeyboard bits)) :
    KeyboardSound { t with mode := f t.mode } := by
  refine ⟨h.stack, h.idx, h.inactiveStack, h.inactiveIdx, ?_⟩
  show f t.mode = (f t.mode).withKeyboard (KeyboardStack.top t.keyboardStacks.active)
  rw [hf, ← show t.mode = _ from h.agrees]

theorem withPrivateMode_withKeyboard (m : Mode) (on : Bool) (mode : NamedPrivateMode)
    (bits : UInt8) :
    (withPrivateMode m on mode).withKeyboard bits = withPrivateMode (m.withKeyboard bits) on mode := by
  cases mode <;> cases on <;> rfl

theorem withUnknownMode_withKeyboard (m : Mode) (on : Bool) (mode : UInt16) (bits : UInt8) :
    (withUnknownMode m on mode).withKeyboard bits = withUnknownMode (m.withKeyboard bits) on mode := by
  unfold withUnknownMode
  split_ifs <;> rfl

/-! ### Operations of the keyboard protocol -/

theorem KeyboardSound.activeKeyboardMode (h : t.KeyboardSound) :
    t.activeKeyboardMode = KeyboardStack.top t.keyboardStacks.active :=
  (ringDown_top (by rw [h.stack]; exact h.idx)).symm

/-- A new ring for the active screen, and the mode that goes with it. -/
theorem KeyboardSound.withRing (h : t.KeyboardSound) (stack : List UInt8) (idx : ℕ)
    (hstack : stack.length = keyboardModeStackMaxDepth) (hidx : idx < keyboardModeStackMaxDepth) :
    KeyboardSound
      { t with
        keyboardModeStack := stack
        keyboardModeIdx := idx
        mode := t.mode.withKeyboard (stack.getD idx 0) } := by
  refine ⟨hstack, hidx, h.inactiveStack, h.inactiveIdx, ?_⟩
  have htop := ringDown_top (hidx.trans_eq hstack.symm)
  unfold KeyboardAgrees keyboardStacks
  dsimp only
  rw [htop]
  rfl

theorem KeyboardSound.setKeyboardMode (h : t.KeyboardSound) (mode : UInt8)
    (apply : KeyboardModesApplyBehavior) :
    (t.setKeyboardMode mode apply).KeyboardSound ∧
      (t.setKeyboardMode mode apply).keyboardStacks =
        t.keyboardStacks.step (.setKeyboardMode mode apply) := by
  have hidx : t.keyboardModeIdx < t.keyboardModeStack.length := by
    rw [h.stack]
    exact h.idx
  have heq : t.setKeyboardMode mode apply =
      { t with
        keyboardModeStack :=
          t.keyboardModeStack.set t.keyboardModeIdx (apply.apply t.activeKeyboardMode mode)
        mode := t.mode.withKeyboard (apply.apply t.activeKeyboardMode mode) } := by
    cases apply <;> rfl
  have hset := h.withRing (t.keyboardModeStack.set t.keyboardModeIdx
    (apply.apply t.activeKeyboardMode mode)) _ ((List.length_set ..).trans h.stack) h.idx
  rw [getD_set _ _ _ _ hidx, if_pos rfl] at hset
  rw [heq]
  refine ⟨hset, ?_⟩
  unfold keyboardStacks KeyboardStacks.step
  dsimp only
  rw [ringDown_setTop hidx, h.activeKeyboardMode]
  rfl

theorem KeyboardSound.pushKeyboardMode (h : t.KeyboardSound) (mode : UInt8) :
    (t.pushKeyboardMode mode).KeyboardSound ∧
      (t.pushKeyboardMode mode).keyboardStacks =
        t.keyboardStacks.step (.pushKeyboardMode mode) := by
  have hnext : (t.keyboardModeIdx + 1) % keyboardModeStackMaxDepth < keyboardModeStackMaxDepth :=
    Nat.mod_lt _ (by decide)
  have hset := h.withRing (t.keyboardModeStack.set
    ((t.keyboardModeIdx + 1) % keyboardModeStackMaxDepth) mode) _
    ((List.length_set ..).trans h.stack) hnext
  rw [getD_set _ _ _ _ (by rw [h.stack]; exact hnext), if_pos rfl] at hset
  refine ⟨hset, ?_⟩
  have hpush := ringDown_push
    (show t.keyboardModeIdx < t.keyboardModeStack.length by rw [h.stack]; exact h.idx) mode
  rw [h.stack] at hpush
  unfold keyboardStacks KeyboardStacks.step Crosswords.pushKeyboardMode
  dsimp only
  rw [hpush]
  rfl

theorem popIdx_eq {idx : ℕ} (hidx : idx < keyboardModeStackMaxDepth) :
    (idx + (2 ^ 64 - 1)) % 2 ^ 64 % keyboardModeStackMaxDepth =
      (idx + keyboardModeStackMaxDepth - 1) % keyboardModeStackMaxDepth := by
  unfold keyboardModeStackMaxDepth at hidx ⊢
  omega

/-- Popping some entries of the active ring. -/
theorem KeyboardSound.popKeyboardMode_iterate (h : t.KeyboardSound) : ∀ count : ℕ,
    ∃ stack idx, stack.length = keyboardModeStackMaxDepth ∧ idx < keyboardModeStackMaxDepth ∧
      ringDown stack idx = KeyboardStack.pop^[count] t.keyboardStacks.active ∧
        popKeyboardMode^[count] t = { t with keyboardModeStack := stack, keyboardModeIdx := idx }
  | 0 => ⟨t.keyboardModeStack, t.keyboardModeIdx, h.stack, h.idx, rfl, rfl⟩
  | count + 1 => by
    obtain ⟨stack, idx, hstack, hidx, hring, heq⟩ := h.popKeyboardMode_iterate count
    refine ⟨stack.set idx 0, (idx + keyboardModeStackMaxDepth - 1) % keyboardModeStackMaxDepth,
      (List.length_set ..).trans hstack, Nat.mod_lt _ (by decide), ?_, ?_⟩
    · have hpop := ringDown_pop (hidx.trans_eq hstack.symm)
      rw [hstack] at hpop
      rw [hpop, hring, Function.iterate_succ_apply']
    · rw [Function.iterate_succ_apply', heq, ← popIdx_eq hidx]
      rfl

theorem KeyboardSound.popKeyboardModes (h : t.KeyboardSound) (toPop : ℕ) :
    (t.popKeyboardModes toPop).KeyboardSound ∧
      (t.popKeyboardModes toPop).keyboardStacks =
        t.keyboardStacks.step (.popKeyboardModes toPop) := by
  have hdepth : t.keyboardStacks.active.length = keyboardModeStackMaxDepth :=
    (ringDown_length _ _).trans h.stack
  unfold Crosswords.popKeyboardModes
  split_ifs with hall
  · have hzero : (t.keyboardModeStack.map fun _ => (0 : UInt8)) = KeyboardStack.empty := by
      rw [List.map_const', h.stack]
      rfl
    rw [hzero]
    refine ⟨h.withRing KeyboardStack.empty 0 rfl (by decide), ?_⟩
    unfold KeyboardStacks.step
    dsimp only
    rw [KeyboardStack.pop_iterate_all hdepth hall]
    unfold keyboardStacks
    dsimp only
    rw [ringDown_empty]
    rfl
  · obtain ⟨stack, idx, hstack, hidx, hring, heq⟩ := h.popKeyboardMode_iterate toPop
    rw [heq]
    refine ⟨h.withRing _ _ hstack hidx, ?_⟩
    unfold KeyboardStacks.step keyboardStacks
    dsimp only
    rw [hring]
    rfl

/-! ### Swapping the screens -/

theorem swapAlt_keyboard (t : Crosswords) :
    t.swapAlt.mode = { t.mode with altScreen := !t.mode.altScreen } ∧
      t.swapAlt.keyboardStacks = t.keyboardStacks.swap ∧
        (t.KeyboardSound → t.swapAlt.keyboardModeStack.length = keyboardModeStackMaxDepth ∧
          t.swapAlt.keyboardModeIdx < keyboardModeStackMaxDepth ∧
            t.swapAlt.inactiveKeyboardModeStack.length = keyboardModeStackMaxDepth ∧
              t.swapAlt.inactiveKeyboardModeIdx < keyboardModeStackMaxDepth) := by
  unfold swapAlt
  dsimp only
  split_ifs
  · exact ⟨rfl, rfl, fun h => ⟨h.inactiveStack, h.inactiveIdx, h.stack, h.idx⟩⟩
  · exact ⟨rfl, rfl, fun h => ⟨h.inactiveStack, h.inactiveIdx, h.stack, h.idx⟩⟩

/-- A swap leaves the mode in agreement exactly when both stacks have the same bits on top. -/
theorem KeyboardSound.swapAlt_agrees_iff (h : t.KeyboardSound) :
    t.swapAlt.KeyboardAgrees ↔
      SameKeyboardBits (KeyboardStack.top t.keyboardStacks.active)
        (KeyboardStack.top t.keyboardStacks.inactive) := by
  obtain ⟨hmode, hstacks, -⟩ := swapAlt_keyboard t
  have hagrees : t.mode = t.mode.withKeyboard (KeyboardStack.top t.keyboardStacks.active) :=
    h.agrees
  unfold KeyboardAgrees
  rw [hmode, hstacks]
  have hswapped : { t.mode with altScreen := !t.mode.altScreen } =
      Mode.withKeyboard { t.mode with altScreen := !t.mode.altScreen }
        (KeyboardStack.top t.keyboardStacks.active) := by
    conv_lhs => rw [hagrees]
    rfl
  rw [← withKeyboard_inj { t.mode with altScreen := !t.mode.altScreen }, ← hswapped]
  rfl

/-! ### Steps and runs -/

theorem setScrollingRegion_sameKeyboard (t : Crosswords) (top : ℕ) (bottom : Option ℕ) :
    t.SameKeyboard (t.setScrollingRegion top bottom) := by
  unfold setScrollingRegion
  dsimp only
  split_ifs
  · exact (Frame.refl t).sameKeyboard
  · exact (frame_goto { t with scrollRegion := _ } 0 0).sameKeyboard

theorem resize_sameKeyboard (t : Crosswords) (numCols numLines cellWidth cellHeight : ℕ) :
    t.SameKeyboard (t.resize numCols numLines cellWidth cellHeight) := by
  unfold resize
  dsimp only
  split_ifs <;> exact ⟨rfl, rfl, rfl, rfl, rfl⟩

theorem resetState_keyboard (t : Crosswords) :
    t.resetState.mode = t.mode.reset ∧ t.resetState.keyboardModeStack = KeyboardStack.empty ∧
      t.resetState.keyboardModeIdx = 0 ∧
        t.resetState.inactiveKeyboardModeStack = KeyboardStack.empty ∧
          t.resetState.inactiveKeyboardModeIdx = 0 := by
  unfold resetState
  dsimp only
  split_ifs <;> exact ⟨rfl, rfl, rfl, rfl, rfl⟩

theorem resetState_keyboardStacks (t : Crosswords) : t.resetState.keyboardStacks = .initial := by
  obtain ⟨hmode, hstack, hidx, histack, hiidx⟩ := resetState_keyboard t
  unfold keyboardStacks
  rw [hmode, hstack, hidx, histack, hiidx, ringDown_empty]
  rfl

theorem resetState_keyboardSound (t : Crosswords) : t.resetState.KeyboardSound := by
  have hstacks := resetState_keyboardStacks t
  obtain ⟨hmode, hstack, hidx, histack, hiidx⟩ := resetState_keyboard t
  refine ⟨?_, ?_, ?_, ?_, ?_⟩
  · rw [hstack]
    rfl
  · rw [hidx]
    decide
  · rw [histack]
    rfl
  · rw [hiidx]
    decide
  · unfold KeyboardAgrees
    rw [hstacks, hmode]
    rfl

theorem KeyboardSound.swapAlt (h : t.KeyboardSound)
    (hsame : SameKeyboardBits (KeyboardStack.top t.keyboardStacks.active)
      (KeyboardStack.top t.keyboardStacks.inactive)) : t.swapAlt.KeyboardSound := by
  obtain ⟨-, -, hlengths⟩ := swapAlt_keyboard t
  obtain ⟨hstack, hidx, histack, hiidx⟩ := hlengths h
  exact ⟨hstack, hidx, histack, hiidx, h.swapAlt_agrees_iff.mpr hsame⟩

/-- An operation that neither the stacks nor the other screen are concerned with. -/
theorem KeyboardSound.same_step (h : t.KeyboardSound) (hsame : t.SameKeyboard t') {op : Op}
    (hop : t.keyboardStacks.step op = t.keyboardStacks) :
    t'.KeyboardSound ∧ t'.keyboardStacks = t.keyboardStacks.step op :=
  ⟨h.same hsame, hsame.stacks.trans hop.symm⟩

/-- A change of the mode that leaves the keyboard bits and the screen alone. -/
theorem KeyboardSound.mode_step (h : t.KeyboardSound) {f : Mode → Mode}
    (hf : ∀ m bits, (f m).withKeyboard bits = f (m.withKeyboard bits))
    (halt : ∀ m, (f m).altScreen = m.altScreen) {op : Op}
    (hop : t.keyboardStacks.step op = t.keyboardStacks) :
    KeyboardSound { t with mode := f t.mode } ∧
      keyboardStacks { t with mode := f t.mode } = t.keyboardStacks.step op := by
  refine ⟨h.setMode hf, ?_⟩
  rw [hop]
  unfold keyboardStacks
  dsimp only
  rw [halt]

theorem KeyboardSound.toggleViMode (h : t.KeyboardSound) :
    t.toggleViMode.KeyboardSound ∧ t.toggleViMode.keyboardStacks = t.keyboardStacks := by
  have htoggled := h.mode_step (f := fun m => { m with vi := !m.vi }) (fun _ _ => rfl)
    (fun _ => rfl) (rfl : t.keyboardStacks.step .toggleViMode = _)
  have hsame : SameKeyboard { t with mode := { t.mode with vi := !t.mode.vi } } t.toggleViMode := by
    unfold Crosswords.toggleViMode
    dsimp only
    split_ifs <;> exact ⟨rfl, rfl, rfl, rfl, rfl⟩
  exact ⟨htoggled.1.same hsame, hsame.stacks.trans htoggled.2⟩

theorem KeyboardSound.privateMode_step (h : t.KeyboardSound) (on : Bool) (mode : NamedPrivateMode)
    {op : Op} (hop : t.keyboardStacks.step op = t.keyboardStacks) :
    KeyboardSound { t with mode := withPrivateMode t.mode on mode } ∧
      keyboardStacks { t with mode := withPrivateMode t.mode on mode } =
        t.keyboardStacks.step op :=
  h.mode_step (f := (withPrivateMode · on mode))
    (fun m => withPrivateMode_withKeyboard m on mode)
    (fun m => withPrivateMode_altScreen m on mode) hop

theorem deccolm_sameKeyboard (t : Crosswords) : t.SameKeyboard t.deccolm :=
  setScrollingRegion_sameKeyboard t 1 none

/-- The invariant of a run and what a step does to the stacks. -/
theorem KeyboardSound.step (h : t.KeyboardSound) (u : Unicode) {op : Op} (hswap : SwapAgrees t op) :
    (t.step u op).KeyboardSound ∧ (t.step u op).keyboardStacks = t.keyboardStacks.step op := by
  by_cases hedits : EditsScreen op
  · refine h.same_step (step_frame u t hedits).sameKeyboard ?_
    cases op <;> first | rfl | exact hedits.elim
  cases op with
  | setScrollingRegion top bottom => exact h.same_step (setScrollingRegion_sameKeyboard t _ _) rfl
  | resetState => exact ⟨resetState_keyboardSound t, resetState_keyboardStacks t⟩
  | setMode mode =>
    cases mode with
    | insert =>
      exact h.mode_step (f := fun m => { m with insert := true }) (fun _ _ => rfl) (fun _ => rfl) rfl
    | lineFeedNewLine =>
      exact h.mode_step (f := fun m => { m with lineFeedNewLine := true }) (fun _ _ => rfl)
        (fun _ => rfl) rfl
  | unsetMode mode =>
    cases mode with
    | insert =>
      have hset := h.setMode (f := fun m => { m with insert := false }) fun _ _ => rfl
      exact ⟨hset.same ⟨rfl, rfl, rfl, rfl, rfl⟩, rfl⟩
    | lineFeedNewLine =>
      exact h.mode_step (f := fun m => { m with lineFeedNewLine := false }) (fun _ _ => rfl)
        (fun _ => rfl) rfl
  | setPrivateMode mode =>
    cases mode with
    | unknown mode =>
      exact h.mode_step (f := (withUnknownMode · true mode))
        (fun m => withUnknownMode_withKeyboard m true mode)
        (fun m => withUnknownMode_altScreen m true mode) rfl
    | named mode =>
      cases mode with
      | swapScreenAndSetRestoreCursor =>
        obtain ⟨-, hstacks, -⟩ := swapAlt_keyboard t
        show (if t.mode.altScreen then t else t.swapAlt).KeyboardSound ∧
          (if t.mode.altScreen then t else t.swapAlt).keyboardStacks =
            if t.mode.altScreen then t.keyboardStacks else t.keyboardStacks.swap
        split_ifs with halt
        · exact ⟨h, rfl⟩
        · exact ⟨h.swapAlt (hswap (by simpa using halt)), hstacks⟩
      | columnMode => exact h.same_step (deccolm_sameKeyboard t) rfl
      | _ => exact h.privateMode_step true _ rfl
  | unsetPrivateMode mode =>
    cases mode with
    | unknown mode =>
      exact h.mode_step (f := (withUnknownMode · false mode))
        (fun m => withUnknownMode_withKeyboard m false mode)
        (fun m => withUnknownMode_altScreen m false mode) rfl
    | named mode =>
      cases mode with
      | swapScreenAndSetRestoreCursor =>
        obtain ⟨-, hstacks, -⟩ := swapAlt_keyboard t
        show (if t.mode.altScreen then t.swapAlt else t).KeyboardSound ∧
          (if t.mode.altScreen then t.swapAlt else t).keyboardStacks =
            if t.mode.altScreen then t.keyboardStacks.swap else t.keyboardStacks
        split_ifs with halt
        · exact ⟨h.swapAlt (hswap halt), hstacks⟩
        · exact ⟨h, rfl⟩
      | columnMode => exact h.same_step (deccolm_sameKeyboard t) rfl
      | _ => exact h.privateMode_step false _ rfl
  | setKeypadApplicationMode =>
    exact h.mode_step (f := fun m => { m with appKeypad := true }) (fun _ _ => rfl) (fun _ => rfl)
      rfl
  | unsetKeypadApplicationMode =>
    exact h.mode_step (f := fun m => { m with appKeypad := false }) (fun _ _ => rfl) (fun _ => rfl)
      rfl
  | setKeyboardMode mode apply => exact h.setKeyboardMode mode apply
  | pushKeyboardMode mode => exact h.pushKeyboardMode mode
  | popKeyboardModes toPop => exact h.popKeyboardModes toPop
  | toggleViMode => exact h.toggleViMode
  | resize numCols numLines cellWidth cellHeight =>
    exact h.same_step (resize_sameKeyboard t _ _ _ _) rfl
  | _ => exact absurd trivial hedits

/-- Where the mode is in agreement after a step, a swap found the same bits on top. -/
theorem KeyboardSound.swapAgrees (h : t.KeyboardSound) {u : Unicode} {op : Op}
    (hagrees : (t.step u op).KeyboardAgrees) : SwapAgrees t op := by
  cases op with
  | setPrivateMode mode =>
    cases mode with
    | unknown mode => exact trivial
    | named mode =>
      cases mode with
      | swapScreenAndSetRestoreCursor =>
        intro halt
        change (if t.mode.altScreen then t else t.swapAlt).KeyboardAgrees at hagrees
        rw [if_neg (by simp [halt])] at hagrees
        exact h.swapAlt_agrees_iff.mp hagrees
      | _ => exact trivial
  | unsetPrivateMode mode =>
    cases mode with
    | unknown mode => exact trivial
    | named mode =>
      cases mode with
      | swapScreenAndSetRestoreCursor =>
        intro halt
        change (if t.mode.altScreen then t.swapAlt else t).KeyboardAgrees at hagrees
        rw [if_pos halt] at hagrees
        exact h.swapAlt_agrees_iff.mp hagrees
      | _ => exact trivial
  | _ => exact trivial

/-- The operations of the keyboard protocol change the keyboard bits of the mode only. -/
theorem ofKeyboard_mode (t : Crosswords) (u : Unicode) {op : Op} (hop : OfKeyboard op) :
    (t.step u op).mode.withKeyboard 0 = t.mode.withKeyboard 0 := by
  cases op with
  | pushKeyboardMode mode => rfl
  | setKeyboardMode mode apply => rfl
  | popKeyboardModes toPop =>
    show (t.popKeyboardModes toPop).mode.withKeyboard 0 = _
    unfold popKeyboardModes
    split_ifs
    · rfl
    · obtain ⟨stack, idx, heq⟩ := Crosswords.popKeyboardMode_iterate t toPop
      rw [heq]
      rfl
  | _ => exact hop.elim

theorem new_keyboardSound (columns lines limit : ℕ) : (new columns lines limit).KeyboardSound := by
  have hidx : 0 < keyboardModeStackMaxDepth := by decide
  have htop : (new columns lines limit).keyboardStacks.active = KeyboardStack.empty :=
    ringDown_empty
  refine ⟨rfl, hidx, rfl, hidx, ?_⟩
  unfold KeyboardAgrees
  rw [htop]
  rfl

/-- Over a run, the stacks of both screens are bounded stacks, the keyboard bits of the mode are
those on top of the active one after every step, and the operations of the keyboard protocol leave
the other bits alone, exactly when every swap of the screens finds the same bits on top of both
stacks. On a bounded stack, popping undoes pushing. -/
theorem run_keyboardStep_iff (u : Unicode) (columns lines limit : ℕ) (ops : List Op) :
    (new columns lines limit).KeyboardAgrees ∧
      (new columns lines limit).keyboardStacks = .initial ∧
        (Permitted (step u) (KeyboardStep u) (new columns lines limit) ops ↔
          Permitted (step u) SwapAgrees (new columns lines limit) ops) ∧
          ∀ s modes : List UInt8, modes.length < s.length →
            KeyboardStack.top (KeyboardStack.pop^[modes.length] (modes.foldl KeyboardStack.push s)) =
              KeyboardStack.top s := by
  have hnew := new_keyboardSound columns lines limit
  have hstacks : (new columns lines limit).keyboardStacks = .initial := by
    unfold keyboardStacks KeyboardStacks.initial
    congr 1
    · exact ringDown_empty
    · exact ringDown_empty
  refine ⟨hnew.agrees, hstacks, ?_, fun s modes hlen => KeyboardStack.pop_pushes_top hlen⟩
  refine permitted_congr (p := fun _ => True) (I := KeyboardSound) ?_ ?_ ops _
    (fun _ _ => trivial) hnew
  · exact fun t op h _ hstep => (h.step u (h.swapAgrees hstep.1)).1
  · intro t op h _
    constructor
    · exact fun hstep => h.swapAgrees hstep.1
    · intro hswap
      obtain ⟨hsound, hstacks⟩ := h.step u hswap
      exact ⟨hsound.agrees, hstacks, ofKeyboard_mode t u⟩

/-- The modes of the other screen stay in force after a swap. -/
theorem swapAlt_keeps_keyboard_bits :
    ¬((new 2 2 0).run .basic [.pushKeyboardMode 1,
      .setPrivateMode (.named .swapScreenAndSetRestoreCursor)]).KeyboardAgrees := by
  decide

end Crosswords
end Rio
