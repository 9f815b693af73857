import Mathlib.Data.List.Count
import Mathlib.Tactic

/-! Brackets of one kind in a text, and the search for the one that closes a bracket. Positions of
type `β` hold characters of type `α`. -/
namespace Rio.Brackets

variable {α β : Type*} [DecidableEq α] {opening closing : α} {text : List α} {depth : ℕ}

/-- The text closes `depth` brackets that were opened before it, and all that it opens; no bracket
closes before it is opened. -/
structure Settles (opening closing : α) (depth : ℕ) (text : List α) : Prop where
  closed : text.count closing = depth + text.count opening
  opened (i : ℕ) : (text.take i).count closing ≤ depth + (text.take i).count opening

/-- A text in which the brackets of one kind are balanced. -/
def Balanced (opening closing : α) (text : List α) : Prop := Settles opening closing 0 text

theorem settles_nil : Settles opening closing depth [] ↔ depth = 0 := by
  constructor
  · intro h
    simpa using h.closed.symm
  · intro h
    exact ⟨by simp [h], by simp⟩

theorem settles_cons_opening (hne : opening ≠ closing) :
    Settles opening closing depth (opening :: text) ↔ Settles opening closing (depth + 1) text := by
  constructor
  · intro h
    have hclosed := h.closed
    rw [List.count_cons_of_ne hne, List.count_cons_self] at hclosed
    refine ⟨by omega, fun i => ?_⟩
    have hopened := h.opened (i + 1)
    rw [List.take_succ_cons, List.count_cons_of_ne hne, List.count_cons_self] at hopened
    omega
  · intro h
    have hclosed := h.closed
    constructor
    · rw [List.count_cons_of_ne hne, List.count_cons_self]
      omega
    · intro i
      cases i with
      | zero => simp
      | succ i =>
        have hopened := h.opened i
        rw [List.take_succ_cons, List.count_cons_of_ne hne, List.count_cons_self]
        omega

theorem settles_cons_closing (hne : opening ≠ closing) :
    Settles opening closing depth (closing :: text) ↔
      0 < depth ∧ Settles opening closing (depth - 1) text := by
  constructor
  · intro h
    have hclosed := h.closed
    have hfirst := h.opened 1
    rw [List.count_cons_self, List.count_cons_of_ne hne.symm] at hclosed
    rw [List.take_succ_cons, List.count_cons_self, List.count_cons_of_ne hne.symm] at hfirst
    simp only [List.take_zero, List.count_nil] at hfirst
    refine ⟨by omega, by omega, fun i => ?_⟩
    have hopened := h.opened (i + 1)
    rw [List.take_succ_cons, List.count_cons_self, List.count_cons_of_ne hne.symm] at hopened
    omega
  · intro h
    obtain ⟨hpos, hrest⟩ := h
    have hclosed := hrest.closed
    constructor
    · rw [List.count_cons_self, List.count_cons_of_ne hne.symm]
      omega
    · intro i
      cases i with
      | zero => simp
      | succ i =>
        have hopened := hrest.opened i
        rw [List.take_succ_cons, List.count_cons_self, List.count_cons_of_ne hne.symm]
        omega

theorem settles_cons_other {x : α} (hopening : x ≠ opening) (hclosing : x ≠ closing) :
    Settles opening closing depth (x :: text) ↔ Settles opening closing depth text := by
  constructor
  · intro h
    have hclosed := h.closed
    rw [List.count_cons_of_ne hclosing, List.count_cons_of_ne hopening] at hclosed
    refine ⟨hclosed, fun i => ?_⟩
    have hopened := h.opened (i + 1)
    rwa [List.take_succ_cons, List.count_cons_of_ne hclosing, List.count_cons_of_ne hopening]
      at hopened
  · intro h
    constructor
    · rw [List.count_cons_of_ne hclosing, List.count_cons_of_ne hopening]
      exact h.closed
    · intro i
      cases i with
      | zero => simp
      | succ i =>
        rw [List.take_succ_cons, List.count_cons_of_ne hclosing, List.count_cons_of_ne hopening]
        exact h.opened i

/-- A balanced text is balanced when it is read backwards. -/
theorem Balanced.reverse (h : Balanced opening closing text) :
    Balanced closing opening text.reverse := by
  have htotal := h.closed
  constructor
  · rw [List.count_reverse, List.count_reverse]
    omega
  · intro i
    rw [List.take_reverse, List.count_reverse, List.count_reverse]
    have hopened := h.opened (text.length - i)
    have hparts (x : α) : text.count x =
        (text.take (text.length - i)).count x + (text.drop (text.length - i)).count x := by
      rw [← List.count_append, List.take_append_drop]
    have hopening := hparts opening
    have hclosing := hparts closing
    omega

/-! ### The search -/

/-- The first position that closes a bracket, over the ones that are opened on the way. -/
def search (char : β → α) (opening closing : α) : ℕ → List β → Option β
  | _, [] => none
  | depth, x :: xs =>
    if char x = closing ∧ depth = 0 then some x
    else if char x = opening then search char opening closing (depth + 1) xs
    else if char x = closing then search char opening closing (depth - 1) xs
    else search char opening closing depth xs

variable {char : β → α} {x y : β} {xs : List β}

/-- A position closes the brackets that are open: the text before it settles all but one. -/
def Closes (char : β → α) (opening closing : α) (depth : ℕ) (xs : List β) (x : β) : Prop :=
  ∃ between rest, xs = between ++ x :: rest ∧ char x = closing ∧
    Settles opening closing depth (between.map char)

theorem closes_cons : Closes char opening closing depth (y :: xs) x ↔
    (y = x ∧ char y = closing ∧ depth = 0) ∨
      ∃ between rest, xs = between ++ x :: rest ∧ char x = closing ∧
        Settles opening closing depth (char y :: between.map char) := by
  constructor
  · intro h
    obtain ⟨between, rest, hxs, hchar, hsettles⟩ := h
    cases between with
    | nil =>
      obtain ⟨rfl, rfl⟩ := List.cons.inj hxs
      exact .inl ⟨rfl, hchar, settles_nil.mp hsettles⟩
    | cons z between =>
      obtain ⟨rfl, rfl⟩ := List.cons.inj hxs
      exact .inr ⟨between, rest, rfl, hchar, hsettles⟩
  · intro h
    obtain ⟨rfl, hchar, hdepth⟩ | ⟨between, rest, rfl, hchar, hsettles⟩ := h
    · exact ⟨[], xs, rfl, hchar, settles_nil.mpr hdepth⟩
    · exact ⟨y :: between, rest, rfl, hchar, hsettles⟩

/-- The search finds the position that closes the brackets, if there is one. -/
theorem search_eq_some_iff (hne : opening ≠ closing) (xs : List β) (depth : ℕ) :
    search char opening closing depth xs = some x ↔ Closes char opening closing depth xs x := by
  induction xs generalizing depth with
  | nil =>
    constructor
    · exact nofun
    · intro h
      obtain ⟨between, rest, hxs, -⟩ := h
      simp at hxs
  | cons y xs ih =>
    rw [search, closes_cons]
    by_cases hhere : char y = closing ∧ depth = 0
    · -- a bracket that closes at depth 0 is the result, and no text starts with it
      rw [if_pos hhere, Option.some_inj, and_iff_left hhere]
      refine (or_iff_left ?_).symm
      intro h
      obtain ⟨between, rest, -, -, hsettles⟩ := h
      rw [hhere.1, settles_cons_closing hne, hhere.2] at hsettles
      exact absurd hsettles.1 (Nat.lt_irrefl 0)
    · have hnot : ¬ (y = x ∧ char y = closing ∧ depth = 0) := fun h => hhere h.2
      rw [if_neg hhere, or_iff_right hnot]
      by_cases hopening : char y = opening
      · rw [if_pos hopening, ih]
        simp only [Closes, hopening, settles_cons_opening hne]
      · rw [if_neg hopening]
        by_cases hclosing : char y = closing
        · have hpos : 0 < depth := Nat.pos_of_ne_zero fun hzero => hhere ⟨hclosing, hzero⟩
          rw [if_pos hclosing, ih]
          simp only [Closes, hclosing, settles_cons_closing hne, hpos, true_and]
        · rw [if_neg hclosing, ih]
          simp only [Closes, settles_cons_other hopening hclosing]

end Rio.Brackets
