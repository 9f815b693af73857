import Rio.Hints.State

/-! Which hints the keys of their labels choose. -/

set_option linter.dupNamespace false

namespace Rio.Hints
open Rio.Checked Odometer

/-! ### The labels -/

/-- The label of a match. -/
def label (alphabet : List Char) (i : ℕ) : List Char :=
  ((word alphabet.length i).map fun d => alphabet.getD d ' ').reverse

namespace LabelGenerator

variable {alphabet : List Char}

theorem currentLabel_eq {ds : List ℕ} (h : ∀ d ∈ ds, d < alphabet.length) :
    currentLabel ⟨alphabet, ds⟩ = .ok (ds.map fun d => alphabet.getD d ' ').reverse := by
  have hread : ∀ d ∈ ds.reverse, (do return [← read alphabet d] : Outcome (List Char)) =
      .ok [alphabet.getD d ' '] := by
    intro d hd
    have hlt := h d (List.mem_reverse.mp hd)
    rw [read_of_lt hlt, List.getD_eq_getElem?_getD, List.getElem?_eq_getElem hlt]
    rfl
  unfold currentLabel
  rw [collect_ok hread, ← List.map_eq_flatMap, List.map_reverse]

theorem labels_eq (halphabet : 0 < alphabet.length) (n k : ℕ) :
    labels n ⟨alphabet, word alphabet.length k⟩ =
      .ok ((List.range' k n).map (label alphabet)) := by
  induction n generalizing k with
  | zero => rfl
  | succ n ih =>
    rw [labels, next, currentLabel_eq (word_lt halphabet k)]
    have hrest := ih (k + 1)
    rw [word] at hrest
    show (do return label alphabet k :: (← labels n ⟨alphabet, _⟩) : Outcome _) = _
    rw [hrest, List.range'_succ]
    rfl

end LabelGenerator

section Label

variable {alphabet : List Char} {i j : ℕ}

theorem getD_injOn (hnodup : alphabet.Nodup) {d e : ℕ} (hd : d < alphabet.length)
    (he : e < alphabet.length) (h : alphabet.getD d ' ' = alphabet.getD e ' ') : d = e := by
  rw [List.getD_eq_getElem _ _ hd, List.getD_eq_getElem _ _ he] at h
  exact (List.Nodup.getElem_inj_iff hnodup).mp h

theorem map_getD_injective (hnodup : alphabet.Nodup) :
    ∀ {ds es : List ℕ}, (∀ d ∈ ds, d < alphabet.length) → (∀ e ∈ es, e < alphabet.length) →
      (ds.map fun d => alphabet.getD d ' ') = es.map (fun d => alphabet.getD d ' ') → ds = es
  | [], [], _, _, _ => rfl
  | [], _ :: _, _, _, h => absurd h nofun
  | _ :: _, [], _, _, h => absurd h nofun
  | d :: ds, e :: es, hds, hes, h => by
    obtain ⟨hd, hds⟩ := List.forall_mem_cons.mp hds
    obtain ⟨he, hes⟩ := List.forall_mem_cons.mp hes
    obtain ⟨hhead, htail⟩ := List.cons.inj h
    rw [getD_injOn hnodup hd he hhead, map_getD_injective hnodup hds hes htail]

theorem label_of_lt (h : i < alphabet.length) : label alphabet i = [alphabet[i]] := by
  unfold label
  rw [word_of_lt h, List.map_singleton, List.reverse_singleton, List.getD_eq_getElem _ _ h]

theorem length_label_mono (alphabet : List Char) (h : i ≤ j) :
    (label alphabet i).length ≤ (label alphabet j).length := by
  simpa [label] using length_word_mono alphabet.length h

theorem label_extend (halphabet : 0 < alphabet.length) (i : ℕ) :
    label alphabet i <+: label alphabet (alphabet.length * (i + 1)) := by
  unfold label
  rw [word_extend halphabet, List.map_cons, List.reverse_cons]
  exact List.prefix_append _ _

/-- A label that begins with another one belongs to a match that comes that much later. -/
theorem le_of_label_front (halphabet : 0 < alphabet.length) (hnodup : alphabet.Nodup)
    (h : label alphabet i <+: label alphabet j) (hne : i ≠ j) :
    alphabet.length * (i + 1) ≤ j := by
  unfold label at h
  rw [ List.reverse_prefix] at h
  obtain ⟨front, hfront⟩ := h
  have hlt := word_lt halphabet j
  obtain ⟨es, ds, hword, hes, hds⟩ := List.map_eq_append_iff.mp hfront.symm
  have hdigits : ds = word alphabet.length i := by
    refine map_getD_injective hnodup (fun d hd => hlt d ?_) (word_lt halphabet i) hds
    rw [hword]
    exact List.mem_append_right _ hd
  subst hdigits
  refine le_of_word_append halphabet (fun hnil => hne ?_) hword
  rw [hnil, List.nil_append] at hword
  exact (word_injective halphabet hword).symm

theorem label_injective (halphabet : 0 < alphabet.length) (hnodup : alphabet.Nodup) :
    Function.Injective (label alphabet) := by
  intro i j h
  by_contra hne
  have hij := le_of_label_front halphabet hnodup (h ▸ List.prefix_rfl) hne
  have hji := le_of_label_front halphabet hnodup (h ▸ List.prefix_rfl) (Ne.symm hne)
  have hi := Nat.le_mul_of_pos_left (i + 1) halphabet
  have hj := Nat.le_mul_of_pos_left (j + 1) halphabet
  omega

end Label

/-! ### Keys -/

/-- The keys that edit or end the selection. -/
def IsControl (c : Char) : Prop := c = '\x08' ∨ c = '\x1f' ∨ c = '\x1b' ∨ c = '\x03'

instance (c : Char) : Decidable (IsControl c) := inferInstanceAs (Decidable (_ ∨ _ ∨ _ ∨ _))

namespace HintState

/-- Hint mode is active, with the labels that are generated for its matches. -/
structure Labelled (s : HintState) : Prop where
  active : s.activeHint.isSome = true
  labels : (LabelGenerator.new s.alphabet).labels s.hintMatches.length = .ok s.labels

variable {compile : String → Option Regex} {g : Grid Square} {s : HintState} {i j : ℕ} {c : Char}

/-- Matches that are updated get their labels, or hint mode ends. -/
theorem updateMatches_labelled {s' : HintState} (h : s.updateMatches compile g = .ok s') :
    s'.activeHint = none ∨ s'.Labelled := by
  unfold updateMatches at h
  cases hactive : s.activeHint with
  | none =>
    simp only [hactive] at h
    obtain rfl := Except.ok.inj h
    exact .inl rfl
  | some hint =>
    simp only [hactive] at h
    split_ifs at h with hempty
    · obtain rfl := Except.ok.inj h
      exact .inl rfl
    · obtain ⟨labels, hlabels, hs⟩ := ok_of_bind h
      obtain rfl := Except.ok.inj hs
      exact .inr ⟨rfl, hlabels⟩

theorem Labelled.getElem? (h : s.Labelled) (halphabet : 0 < s.alphabet.length) (i : ℕ) :
    s.labels[i]? = if i < s.hintMatches.length then some (label s.alphabet i) else none := by
  have hlabels := h.labels
  unfold LabelGenerator.new at hlabels
  have heq := (LabelGenerator.labels_eq halphabet s.hintMatches.length 0).symm.trans hlabels
  rw [← Except.ok.inj heq, List.getElem?_map, ← List.range_eq_range']
  split_ifs with hi
  · rw [List.getElem?_range hi, Option.map_some]
  · rw [List.getElem?_eq_none (by simpa using hi), Option.map_none]

theorem mem_visibleLabels {remaining : List Char} :
    (i, remaining) ∈ s.visibleLabels ↔ s.labels[i]? = some (s.keys ++ remaining) := by
  unfold visibleLabels
  rw [List.mem_filterMap]
  constructor
  · rintro ⟨⟨l, k⟩, hmem, hsome⟩
    dsimp only at hsome
    split_ifs at hsome with hkeys
    obtain ⟨rfl, rfl⟩ := Prod.mk.inj (Option.some.inj hsome)
    rw [Bool.and_eq_true, decide_eq_true_iff, decide_eq_true_iff] at hkeys
    rw [List.mk_mem_zipIdx_iff_getElem?.mp hmem]
    refine congrArg some ?_
    calc l = l.take s.keys.length ++ l.drop s.keys.length := (List.take_append_drop _ _).symm
      _ = s.keys ++ l.drop s.keys.length := by rw [hkeys.2]
  · intro hlabel
    refine ⟨(s.keys ++ remaining, i), List.mk_mem_zipIdx_iff_getElem?.mpr hlabel, ?_⟩
    dsimp only
    rw [List.length_append, List.take_left, List.drop_left, if_pos (by simp)]

theorem visibleLabels_pairwise (s : HintState) :
    s.visibleLabels.Pairwise fun a b => a.1 < b.1 := by
  unfold visibleLabels
  have hindices : s.labels.zipIdx.Pairwise fun a b => a.2 < b.2 := by
    rw [← List.pairwise_map (f := Prod.snd), List.zipIdx_map_snd]
    exact List.pairwise_lt_range'
  refine hindices.filterMap _ fun a b hab a' ha' b' hb' => ?_
  dsimp only at ha' hb'
  split_ifs at ha' hb'
  obtain rfl := Option.some.inj ha'
  obtain rfl := Option.some.inj hb'
  exact hab

/-- The label that a character goes on with is the last one that begins with the keys and it. -/
theorem lastLabel_eq_some {remaining : List Char} (h : s.lastLabel c = some (i, remaining)) :
    remaining.head? = some c ∧ s.labels[i]? = some (s.keys ++ remaining) ∧
      ∀ j l, s.labels[j]? = some l → s.keys ++ [c] <+: l → j ≤ i := by
  unfold lastLabel at h
  obtain ⟨hhead, before, after, heq, hbefore⟩ := List.find?_eq_some_iff_append.mp h
  have hvisible : s.visibleLabels = after.reverse ++ (i, remaining) :: before.reverse := by
    have hreverse := congrArg List.reverse heq
    simpa using hreverse
  have hmem : (i, remaining) ∈ s.visibleLabels := by simp [hvisible]
  refine ⟨by simpa using hhead, mem_visibleLabels.mp hmem, ?_⟩
  rintro j l hj ⟨rest, rfl⟩
  rw [List.append_assoc] at hj
  have hjmem := mem_visibleLabels.mpr hj
  have hsorted := s.visibleLabels_pairwise
  rw [hvisible] at hjmem hsorted
  rcases List.mem_append.mp hjmem with hleft | hright
  · exact ((List.pairwise_append.mp hsorted).2.2 _ hleft _ List.mem_cons_self).le
  · rcases List.mem_cons.mp hright with hself | hlater
    · exact (congrArg Prod.fst hself).le
    · exact absurd (hbefore _ (List.mem_reverse.mp hlater)) (by simp)

theorem lastLabel_of_front {l : List Char} (hi : s.labels[i]? = some l)
    (hfront : s.keys ++ [c] <+: l) :
    ∃ j remaining, s.lastLabel c = some (j, remaining) := by
  obtain ⟨rest, rfl⟩ := hfront
  rw [List.append_assoc] at hi
  have hmem := mem_visibleLabels.mpr hi
  cases hlast : s.lastLabel c with
  | none =>
    have hnone := List.find?_eq_none.mp hlast _ (List.mem_reverse.mpr hmem)
    exact absurd hnone (by simp)
  | some found => exact ⟨found.1, found.2, rfl⟩

/-! ### Typing -/

/-- What the characters of a label do, one after the other. -/
def typed (compile : String → Option Regex) (g : Grid Square) :
    HintState → List Char → Outcome (HintState × List (Option HintMatch))
  | s, [] => .ok (s, [])
  | s, c :: cs => do
    let (s, hintMatch) ← s.keyboardInput compile g c
    let (s, hintMatches) ← typed compile g s cs
    return (s, hintMatch :: hintMatches)

/-- A text chooses the `i`-th match, with its last character and not before. -/
def Chooses (compile : String → Option Regex) (g : Grid Square) (s : HintState) (i : ℕ)
    (text : List Char) : Prop :=
  ∃ s', typed compile g s text =
    .ok (s', List.replicate (text.length - 1) none ++ [s.hintMatches[i]?])

theorem keyboardInput_eq {hint : Hint} (hactive : s.activeHint = some hint) (hc : ¬ IsControl c) :
    s.keyboardInput compile g c = .ok (s.chooseLabel hint c) := by
  unfold IsControl at hc
  push Not at hc
  unfold keyboardInput
  rw [if_neg (not_or.mpr ⟨hc.1, hc.2.1⟩), if_neg (not_or.mpr hc.2.2), hactive]

/-- Nothing is chosen with a key that edits or ends the selection. -/
theorem keyboardInput_control (hc : IsControl c) {s' : HintState} {m : Option HintMatch}
    (h : s.keyboardInput compile g c = .ok (s', m)) : m = none := by
  unfold keyboardInput at h
  by_cases hback : c = '\x08' ∨ c = '\x1f'
  · rw [if_pos hback] at h
    obtain ⟨_, -, hs⟩ := ok_of_bind h
    exact (Prod.mk.inj (Except.ok.inj hs)).2.symm
  · have hend : c = '\x1b' ∨ c = '\x03' := by
      rcases hc with hc | hc | hc | hc
      · exact absurd (.inl hc) hback
      · exact absurd (.inr hc) hback
      · exact .inl hc
      · exact .inr hc
    rw [if_neg hback, if_pos hend] at h
    exact (Prod.mk.inj (Except.ok.inj h)).2.symm

/-- A character that goes on with a label picks that label or a later one. -/
theorem Labelled.lastLabel (h : s.Labelled) (halphabet : 0 < s.alphabet.length)
    (hi : i < s.hintMatches.length) {rest : List Char}
    (hlabel : label s.alphabet i = s.keys ++ c :: rest) :
    ∃ j remaining, s.lastLabel c = some (j, remaining) ∧ remaining.head? = some c ∧
      label s.alphabet j = s.keys ++ remaining ∧ i ≤ j ∧ j < s.hintMatches.length := by
  have hself : s.labels[i]? = some (label s.alphabet i) := by rw [h.getElem? halphabet, if_pos hi]
  have hfront : s.keys ++ [c] <+: label s.alphabet i := ⟨rest, by simp [hlabel]⟩
  obtain ⟨j, remaining, hlast⟩ := lastLabel_of_front hself hfront
  obtain ⟨hhead, hj, hmax⟩ := lastLabel_eq_some hlast
  rw [h.getElem? halphabet] at hj
  split_ifs at hj with hlt
  exact ⟨j, remaining, hlast, hhead, Option.some.inj hj, hmax i _ hself hfront, hlt⟩

/-- Where a label goes on, a character of it is only added to the keys. -/
theorem Labelled.chooseLabel_push (h : s.Labelled) (halphabet : 0 < s.alphabet.length)
    (hi : i < s.hintMatches.length) {rest : List Char}
    (hlabel : label s.alphabet i = s.keys ++ c :: rest) (hrest : rest ≠ []) (hint : Hint) :
    s.chooseLabel hint c = ({ s with keys := s.keys ++ [c] }, none) := by
  obtain ⟨j, remaining, hlast, -, hj, hle, -⟩ := h.lastLabel halphabet hi hlabel
  have hlength := length_label_mono s.alphabet hle
  rw [hlabel, hj, List.length_append, List.length_append, List.length_cons] at hlength
  have hpos := List.length_pos_of_ne_nil hrest
  unfold HintState.chooseLabel
  rw [hlast]
  exact if_neg (by omega)

/-- The last character of a label that no later one begins with chooses its match. -/
theorem Labelled.chooseLabel_done (h : s.Labelled) (halphabet : 0 < s.alphabet.length)
    (hnodup : s.alphabet.Nodup) (hi : i < s.hintMatches.length)
    (hlabel : label s.alphabet i = s.keys ++ [c])
    (hlast : s.hintMatches.length ≤ s.alphabet.length * (i + 1)) (hint : Hint) :
    (s.chooseLabel hint c).2 = s.hintMatches[i]? := by
  obtain ⟨j, remaining, hfind, hhead, hj, -, hlt⟩ := h.lastLabel halphabet hi hlabel
  obtain ⟨rest, rfl⟩ : ∃ rest, remaining = c :: rest := by
    cases remaining with
    | nil => exact absurd hhead nofun
    | cons d rest => exact ⟨rest, by rw [Option.some.inj hhead]⟩
  have hfront : label s.alphabet i <+: label s.alphabet j := by
    rw [hlabel, hj]
    exact ⟨rest, by simp⟩
  obtain rfl : i = j := by
    by_contra hne
    have hlater := le_of_label_front halphabet hnodup hfront hne
    omega
  obtain rfl : rest = [] := by
    rw [hlabel] at hj
    simpa using hj
  unfold HintState.chooseLabel
  rw [hfind]
  dsimp only
  rw [if_pos List.length_singleton, List.getElem?_eq_getElem hi]

/-- The characters of a label that no later one begins with choose its match, from any part of it
that is typed already. -/
theorem Labelled.typed_rest (h : s.Labelled) (halphabet : 0 < s.alphabet.length)
    (hnodup : s.alphabet.Nodup) (hi : i < s.hintMatches.length)
    (hlast : s.hintMatches.length ≤ s.alphabet.length * (i + 1)) :
    ∀ {text keys : List Char}, text ≠ [] → (∀ c ∈ text, ¬ IsControl c) →
      label s.alphabet i = keys ++ text → Chooses compile g { s with keys := keys } i text
  | [], _, hne, _, _ => absurd rfl hne
  | c :: rest, keys, _, hcontrol, hlabel => by
    obtain ⟨hint, hactive⟩ := Option.isSome_iff_exists.mp h.active
    obtain ⟨hc, hrest⟩ := List.forall_mem_cons.mp hcontrol
    have hlabelled : Labelled { s with keys := keys } := ⟨h.active, h.labels⟩
    have hkey : keyboardInput compile g { s with keys := keys } c =
        .ok (chooseLabel { s with keys := keys } hint c) := keyboardInput_eq hactive hc
    cases rest with
    | nil =>
      have hdone := hlabelled.chooseLabel_done halphabet hnodup hi hlabel hlast hint
      refine ⟨(chooseLabel { s with keys := keys } hint c).1, ?_⟩
      rw [typed, hkey, ← hdone]
      rfl
    | cons d rest =>
      have hpush := hlabelled.chooseLabel_push halphabet hi hlabel (List.cons_ne_nil d rest) hint
      have hnext : Chooses compile g { s with keys := keys ++ [c] } i (d :: rest) :=
        h.typed_rest halphabet hnodup hi hlast (List.cons_ne_nil d rest) hrest
          (by rw [hlabel, List.append_assoc, List.singleton_append])
      obtain ⟨s', hs'⟩ := hnext
      refine ⟨s', ?_⟩
      rw [typed, hkey, hpush]
      show (typed compile g { s with keys := keys ++ [c] } (d :: rest) >>= _ : Outcome _) = _
      rw [hs']
      rfl

/-- No label is a proper beginning of another. -/
def PrefixFree (labels : List (List Char)) : Prop :=
  ∀ l ∈ labels, ∀ l' ∈ labels, l <+: l' → l = l'

/-- Every match has a label of its own that chooses it. -/
structure EveryChosen (compile : String → Option Regex) (g : Grid Square) (s : HintState) :
    Prop where
  nodup : s.labels.Nodup
  prefixFree : PrefixFree s.labels
  chooses : ∀ i l, s.labels[i]? = some l → s.Chooses compile g i l

/-- All matches can be chosen if and only if they have labels of one character, none of which is a
key that edits or ends the selection. -/
theorem everyChosen_iff (compile : String → Option Regex) (g : Grid Square) (h : s.Labelled)
    (hkeys : s.keys = []) (hnodup : s.alphabet.Nodup) (htwo : 2 ≤ s.alphabet.length) :
    s.EveryChosen compile g ↔ s.hintMatches.length ≤ s.alphabet.length ∧
      ∀ c ∈ s.alphabet.take s.hintMatches.length, ¬ IsControl c := by
  have halphabet : 0 < s.alphabet.length := by omega
  have hlabel := h.getElem? halphabet
  constructor
  · rintro ⟨-, hfree, hchooses⟩
    have hle : s.hintMatches.length ≤ s.alphabet.length := by
      -- Otherwise the first label is the beginning of one of the next length.
      by_contra hgt
      have hfirst : label s.alphabet 0 ∈ s.labels :=
        List.mem_of_getElem? ((hlabel 0).trans (if_pos (by omega)))
      have hlonger : label s.alphabet (s.alphabet.length * (0 + 1)) ∈ s.labels :=
        List.mem_of_getElem? ((hlabel _).trans (if_pos (by omega)))
      have heq := hfree _ hfirst _ hlonger (label_extend halphabet 0)
      have hzero := label_injective halphabet hnodup heq
      omega
    refine ⟨hle, fun c hc hcontrol => ?_⟩
    obtain ⟨i, hi, rfl⟩ := List.mem_take_iff_getElem.mp hc
    have hself : s.labels[i]? = some [s.alphabet[i]] := by
      rw [hlabel, if_pos (by omega), label_of_lt]
    obtain ⟨s', hs'⟩ := hchooses i _ hself
    obtain ⟨⟨s₁, m⟩, hinput, hrest⟩ := ok_of_bind hs'
    obtain rfl := keyboardInput_control hcontrol hinput
    have hnone := congrArg Prod.snd (Except.ok.inj hrest)
    rw [List.getElem?_eq_getElem (show i < s.hintMatches.length by omega)] at hnone
    exact absurd hnone (by simp)
  · rintro ⟨hle, hcontrol⟩
    have hone : ∀ i l, s.labels[i]? = some l →
        i < s.hintMatches.length ∧ l = label s.alphabet i ∧ l.length = 1 := by
      intro i l hl
      rw [hlabel] at hl
      split_ifs at hl with hi
      obtain rfl := Option.some.inj hl
      refine ⟨hi, rfl, ?_⟩
      rw [label_of_lt (by omega), List.length_singleton]
    refine ⟨?_, ?_, ?_⟩
    · refine List.nodup_iff_getElem?_ne_getElem?.mpr fun i j hij hj heq => ?_
      obtain ⟨l, hl⟩ : ∃ l, s.labels[j]? = some l := ⟨_, List.getElem?_eq_getElem hj⟩
      have hi := hone i l (heq.trans hl)
      have hj := hone j l hl
      have := label_injective halphabet hnodup (hi.2.1.symm.trans hj.2.1)
      omega
    · intro l hl l' hl' hfront
      obtain ⟨i, hi⟩ := List.getElem?_of_mem hl
      obtain ⟨j, hj⟩ := List.getElem?_of_mem hl'
      exact hfront.eq_of_length ((hone i l hi).2.2.trans (hone j l' hj).2.2.symm)
    · intro i l hl
      obtain ⟨hi, rfl, hlength⟩ := hone i l hl
      have hlast : s.hintMatches.length ≤ s.alphabet.length * (i + 1) :=
        hle.trans (Nat.le_mul_of_pos_right _ (Nat.succ_pos i))
      have hletter : label s.alphabet i = [s.alphabet[i]] := label_of_lt (by omega)
      have hplain : ∀ c ∈ label s.alphabet i, ¬ IsControl c := by
        rw [hletter]
        simpa using hcontrol _ (List.mem_take_iff_getElem.mpr ⟨i, by omega, rfl⟩)
      have hchosen : Chooses compile g { s with keys := [] } i (label s.alphabet i) :=
        h.typed_rest halphabet hnodup hi hlast (List.ne_nil_of_length_pos (by omega)) hplain rfl
      rwa [← hkeys] at hchosen

/-- A hint that is chosen from matches in the first columns of a line. -/
def firstColumns (alphabet : List Char) (labels : List (List Char)) : HintState :=
  let hint : Hint := ⟨some "x", false, false, false⟩
  { activeHint := some hint
    hintMatches := (List.range labels.length).map fun col => ⟨['x'], ⟨0, col⟩, ⟨0, col⟩, hint⟩
    labels := labels
    keys := []
    alphabet := alphabet }

theorem everyChosen_two :
    (firstColumns ['a', 'b'] [['a'], ['b']]).EveryChosen (fun _ => none) (Grid.new 1 2 0) :=
  (everyChosen_iff _ _ ⟨rfl, rfl⟩ rfl (by decide) (by decide)).mpr
    ⟨by decide, by simp [firstColumns, IsControl]⟩

/-- The label of the third match begins with the label of the first one, which is not chosen. -/
theorem first_of_three_not_chosen :
    let s := firstColumns ['a', 'b'] [['a'], ['b'], ['a', 'a']]
    s.Labelled ∧ ¬ s.Chooses (fun _ => none) (Grid.new 1 3 0) 0 ['a'] ∧
      ¬ s.EveryChosen (fun _ => none) (Grid.new 1 3 0) := by
  intro s
  have hfirst : ¬ s.Chooses (fun _ => none) (Grid.new 1 3 0) 0 ['a'] := by
    rintro ⟨s', hs'⟩
    have hnone : ({ s with keys := ['a'] }, [none]) = (s', [s.hintMatches[0]?]) :=
      Except.ok.inj hs'
    exact absurd (Prod.mk.inj hnone).2 (by decide)
  exact ⟨⟨rfl, rfl⟩, hfirst, fun h => hfirst (h.chooses 0 ['a'] rfl)⟩

end HintState
end Rio.Hints
