import Rio.Copa.Delivered
import Rio.Performer.Dispatch

/-! No dispatcher reads behind its parameters or leaves the range of its numbers, but for two
operating system commands: a current directory that is not given, and a color in hexadecimal
digits of which one component has more than sixteen. -/

set_option linter.dupNamespace false

namespace Rio.Performer
open Rio.Checked Rio.Copa

/-! ### Control sequences -/

theorem nextParamOr_pos (params : List (List UInt16)) : 1 ≤ nextParamOr 1 params := by
  unfold nextParamOr
  split
  next param _ _ =>
    split
    · exact le_rfl
    next hne =>
      have : param.toNat ≠ 0 := fun h => hne (UInt16.toNat_inj.mp h)
      omega
  next => exact le_rfl

variable {params : List (List UInt16)}

theorem firstValues_safe (h : ∀ param ∈ params, param ≠ []) : Safe (firstValues params) := by
  apply safe_collect_iff.mpr
  intro param hparam
  apply (safe_bind_total fun _ => safe_pure _).mpr
  exact safe_read_iff.mpr (List.length_pos_iff.mpr (h param hparam))

/-- Reading a parameter leaves parameters. -/
theorem nextParam_safe (h : ∀ param ∈ params, param ≠ []) :
    ∃ value rest, nextParam params = .ok (value, rest) ∧ ∀ param ∈ rest, param ≠ [] := by
  cases params with
  | nil => exact ⟨none, [], rfl, by simp⟩
  | cons param rest =>
    have hpos := List.length_pos_iff.mpr (h param List.mem_cons_self)
    refine ⟨some param[0], rest, ?_, fun p hp => h p (List.mem_cons_of_mem param hp)⟩
    rw [nextParam, read_of_lt hpos]
    rfl

theorem nextByte_safe (h : ∀ param ∈ params, param ≠ []) :
    ∃ value rest, nextByte params = .ok (value, rest) ∧ ∀ param ∈ rest, param ≠ [] := by
  obtain ⟨value, rest, hnext, hrest⟩ := nextParam_safe h
  have hbyte : nextByte params = .ok (value.bind fun n =>
      if n.toNat < 256 then some (UInt8.ofNat n.toNat) else none, rest) := by
    rw [nextByte, hnext]
    rfl
  exact ⟨_, rest, hbyte, hrest⟩

theorem parseSgrColor_safe (h : ∀ param ∈ params, param ≠ []) :
    ∃ color rest, parseSgrColor params = .ok (color, rest) ∧ ∀ param ∈ rest, param ≠ [] := by
  obtain ⟨kind, rest, hkind, hrest⟩ := nextParam_safe h
  obtain ⟨r, rest1, hr, hrest1⟩ := nextByte_safe hrest
  obtain ⟨g, rest2, hg, hrest2⟩ := nextByte_safe hrest1
  obtain ⟨b, rest3, hb, hrest3⟩ := nextByte_safe hrest2
  rw [parseSgrColor, hkind, ok_bind]
  split
  next heq =>
    cases heq
    rw [hr, ok_bind]
    cases r with
    | none => exact ⟨none, rest1, rfl, hrest1⟩
    | some r =>
      dsimp only
      rw [hg, ok_bind]
      cases g with
      | none => exact ⟨none, rest2, rfl, hrest2⟩
      | some g =>
        dsimp only
        rw [hb, ok_bind]
        cases b with
        | none => exact ⟨none, rest3, rfl, hrest3⟩
        | some b => exact ⟨_, rest3, rfl, hrest3⟩
  next heq =>
    cases heq
    rw [hr, ok_bind]
    cases r with
    | none => exact ⟨none, rest1, rfl, hrest1⟩
    | some i => exact ⟨_, rest1, rfl, hrest1⟩
  next heq =>
    cases heq
    exact ⟨none, rest, rfl, hrest⟩

theorem handleColonRgb_safe {sub : List UInt16} (hne : sub ≠ []) : Safe (handleColonRgb sub) := by
  have hpos := List.length_pos_iff.mpr hne
  have hstart : (if 4 < sub.length then 2 else 1) ≤ sub.length := by
    split <;> omega
  have hgroups : ∀ param ∈ (sub[0] :: sub.drop (if 4 < sub.length then 2 else 1)).map
      fun value => [value], param ≠ [] := by
    intro param hparam
    obtain ⟨value, -, rfl⟩ := List.mem_map.mp hparam
    exact List.cons_ne_nil value []
  obtain ⟨color, rest, hcolor, -⟩ := parseSgrColor_safe hgroups
  refine ⟨color, ?_⟩
  rw [handleColonRgb]
  dsimp only
  rw [sliceFrom_of_le hstart, ok_bind, read_of_lt hpos, ok_bind, hcolor]
  rfl

theorem attrsFromSgrParameters_safe (fuel : ℕ) (h : ∀ param ∈ params, param ≠ []) :
    Safe (attrsFromSgrParameters fuel params) := by
  induction fuel generalizing params with
  | zero => exact safe_ok _
  | succ fuel ih =>
    cases params with
    | nil => exact safe_ok _
    | cons param rest =>
      have hrest : ∀ p ∈ rest, p ≠ [] := fun p hp => h p (List.mem_cons_of_mem param hp)
      have hstep : ∃ attr rest', sgrAttr param rest = .ok (attr, rest') ∧ ∀ p ∈ rest', p ≠ [] := by
        unfold sgrAttr
        split
        · exact ⟨none, rest, rfl, hrest⟩
        · exact ⟨_, rest, rfl, hrest⟩
        next code sub _ =>
          cases colorAttr code with
          | none => exact ⟨_, rest, rfl, hrest⟩
          | some attr =>
            dsimp only
            split
            · obtain ⟨color, rest', hcolor, hrest'⟩ := parseSgrColor_safe hrest
              rw [hcolor]
              exact ⟨_, rest', rfl, hrest'⟩
            next hsub =>
              obtain ⟨color, hcolor⟩ := handleColonRgb_safe hsub
              rw [hcolor]
              exact ⟨_, rest, rfl, hrest⟩
      obtain ⟨attr, rest', hattr, hrest'⟩ := hstep
      rw [attrsFromSgrParameters, hattr, ok_bind]
      exact (ih hrest').bind fun _ => safe_pure _

theorem csiScrollingRegion_safe (h : ∀ param ∈ params, param ≠ []) :
    Safe (csiScrollingRegion params) := by
  unfold csiScrollingRegion
  dsimp only
  split
  · exact safe_pure _
  next param rest heq =>
    have hmem : param ∈ params := List.mem_of_mem_drop (heq ▸ List.mem_cons_self)
    have hpos := List.length_pos_iff.mpr (h param hmem)
    rw [read_of_lt hpos]
    exact safe_pure _

theorem csiAttributes_safe (h : ∀ param ∈ params, param ≠ []) : Safe (csiAttributes params) := by
  unfold csiAttributes
  split
  · exact safe_ok _
  · exact (attrsFromSgrParameters_safe _ h).bind fun _ => safe_pure _

theorem csiPlain_safe (h : ∀ param ∈ params, param ≠ []) (preceding : Option Char)
    (action : Char) : Safe (csiPlain preceding params action) := by
  have hcol : Safe (sub (nextParamOr 1 params) 1) := ⟨_, sub_of_le (nextParamOr_pos params)⟩
  have hx : Safe (sub (nextParamOr 1 (params.drop 1)) 1) :=
    ⟨_, sub_of_le (nextParamOr_pos (params.drop 1))⟩
  have hvalues := firstValues_safe h
  unfold csiPlain
  dsimp only
  repeat' with_reducible apply safe_ite
  all_goals
    first
    | exact safe_ok _
    | exact hcol.bind fun _ => safe_pure _
    | exact hx.bind fun _ => safe_pure _
    | exact hvalues.bind fun _ => safe_pure _
    | exact csiAttributes_safe h
    | exact csiScrollingRegion_safe h
    | skip
  -- a character is repeated, if there is one
  cases preceding with
  | none => exact safe_ok _
  | some c => exact safe_ok _

theorem csiIntermediate_safe (h : ∀ param ∈ params, param ≠ []) (intermediates : List UInt8)
    (action : Char) : Safe (csiIntermediate params intermediates action) := by
  have hvalues := firstValues_safe h
  unfold csiIntermediate
  dsimp only
  repeat' with_reducible apply safe_ite
  all_goals
    first
    | exact safe_ok _
    | exact hvalues.bind fun _ => safe_pure _

/-- A control sequence is dispatched whatever its parameters. -/
theorem csiDispatch_safe (h : Params.Groups params) (preceding : Option Char)
    (intermediates : List UInt8) (shouldIgnore : Bool) (action : UInt8) :
    Safe (csiDispatch preceding params intermediates shouldIgnore action) := by
  unfold csiDispatch
  dsimp only
  repeat' with_reducible apply safe_ite
  · exact safe_ok _
  · exact safe_ok _
  · exact csiPlain_safe h.2 preceding _
  · exact csiIntermediate_safe h.2 intermediates _

theorem escDispatch_safe (intermediates : List UInt8) (byte : UInt8) :
    Safe (escDispatch intermediates byte) := by
  unfold escDispatch
  dsimp only
  repeat' with_reducible apply safe_ite
  all_goals exact safe_ok _

theorem hook_safe (intermediates : List UInt8) (action : UInt8) :
    Safe (hook params intermediates action) := by
  unfold hook
  repeat' with_reducible apply safe_ite
  all_goals exact safe_ok _

/-! ### Colors -/

theorem hexDigit_lt {b : UInt8} {digit : ℕ} (h : hexDigit b = some digit) : digit < 16 := by
  have hb := b.toNat_lt
  unfold hexDigit at h
  split_ifs at h with h1 h2 h3
  all_goals
    obtain rfl := Option.some.inj h
    simp only [UInt8.le_iff_toNat_le, UInt8.reduceToNat] at *
    omega

theorem hexDigits_lt {limit value result : ℕ} {digits : List UInt8}
    (h : hexDigits limit value digits = some result) :
    result < (value + 1) * 16 ^ digits.length := by
  induction digits generalizing value with
  | nil =>
    obtain rfl := Option.some.inj h
    simp
  | cons b rest ih =>
    rw [hexDigits] at h
    cases hdigit : hexDigit b with
    | none =>
      rw [hdigit] at h
      cases h
    | some digit =>
      rw [hdigit] at h
      dsimp only at h
      split at h
      · have hrest := ih h
        have hlt := hexDigit_lt hdigit
        calc result < (value * 16 + digit + 1) * 16 ^ rest.length := hrest
          _ ≤ ((value + 1) * 16) * 16 ^ rest.length := by gcongr; omega
          _ = (value + 1) * 16 ^ (b :: rest).length := by
            rw [List.length_cons, pow_succ]
            ring
      · cases h

theorem fromStrRadix_bounds {limit value : ℕ} {text : List UInt8}
    (h : fromStrRadix limit text = some value) :
    1 ≤ text.length ∧ value < 16 ^ text.length := by
  unfold fromStrRadix at h
  dsimp only at h
  have hlen : (if text.head? = some 0x2B then text.tail else text).length ≤ text.length := by
    split
    · rw [List.length_tail]
      omega
    · exact le_rfl
  generalize (if text.head? = some 0x2B then text.tail else text) = digits at *
  by_cases hne : digits = []
  · rw [if_pos hne] at h
    cases h
  · rw [if_neg hne] at h
    have hpos := List.length_pos_iff.mpr hne
    refine ⟨by omega, ?_⟩
    calc value < (0 + 1) * 16 ^ digits.length := hexDigits_lt h
      _ ≤ 16 ^ text.length := by
        rw [Nat.zero_add, Nat.one_mul]
        exact Nat.pow_le_pow_right (by decide) hlen

theorem scale_safe (input : List UInt8) : Safe (scale input) := by
  unfold scale
  split
  · exact safe_ok _
  next hlen =>
    have hpower : 16 ^ input.length ≤ 16 ^ 4 :=
      Nat.pow_le_pow_right (by decide) (Nat.le_of_not_lt hlen)
    have hone : 1 ≤ 16 ^ input.length := Nat.one_le_pow _ _ (by decide)
    rw [fit_of_lt (show 16 ^ input.length < 2 ^ 32 by omega), ok_bind, sub_of_le hone, ok_bind]
    cases hvalue : fromStrRadix (2 ^ 32) input with
    | none => exact safe_pure _
    | some value =>
      obtain ⟨hpos, hlt⟩ := fromStrRadix_bounds hvalue
      have htwo : 16 ^ 1 ≤ 16 ^ input.length := Nat.pow_le_pow_right (by decide) hpos
      dsimp only
      rw [fit_of_lt (show 255 * value < 2 ^ 32 by omega), ok_bind,
        div_of_ne_zero (show 16 ^ input.length - 1 ≠ 0 by omega), ok_bind]
      exact safe_pure _

theorem parseRgbColor_safe (color : List UInt8) : Safe (parseRgbColor color) := by
  unfold parseRgbColor
  split
  · exact safe_ok _
  · dsimp only
    split
    · exact safe_ok _
    next hlen =>
      have hthree : (split 0x2F color).length = 3 := by
        by_contra h
        exact hlen h
      obtain ⟨r, hr⟩ := scale_safe (split 0x2F color)[0]
      obtain ⟨g, hg⟩ := scale_safe (split 0x2F color)[1]
      obtain ⟨b, hb⟩ := scale_safe (split 0x2F color)[2]
      rw [read_of_lt (by omega), ok_bind, hr, ok_bind]
      cases r with
      | none => exact safe_pure _
      | some r =>
        dsimp only
        rw [read_of_lt (by omega), ok_bind, hg, ok_bind]
        cases g with
        | none => exact safe_pure _
        | some g =>
          dsimp only
          rw [read_of_lt (by omega), ok_bind, hb, ok_bind]
          cases b <;> exact safe_pure _

/-- More digits than the word that is shifted has room for. -/
def Overlong (item : List UInt8) : Prop := fromStrRadix (2 ^ 64) item ≠ none ∧ 16 < item.length

theorem colorFromSlice_safe_iff (item : List UInt8) :
    Safe (colorFromSlice item) ↔ ¬ Overlong item := by
  unfold colorFromSlice Overlong
  cases h : fromStrRadix (2 ^ 64) item with
  | none => simp
  | some value =>
    have hpos := (fromStrRadix_bounds h).1
    dsimp only
    rw [safe_bind_total fun _ => safe_pure _, safe_shiftRight_iff]
    simp only [ne_eq, reduceCtorEq, not_false_eq_true, true_and]
    omega

theorem colorFromSlice_eq_none_iff {item : List UInt8} (h : ¬ Overlong item) :
    ∃ c, colorFromSlice item = .ok c ∧ (c = none ↔ fromStrRadix (2 ^ 64) item = none) := by
  obtain ⟨c, hc⟩ := (colorFromSlice_safe_iff item).mpr h
  refine ⟨c, hc, ?_⟩
  unfold colorFromSlice at hc
  cases hvalue : fromStrRadix (2 ^ 64) item with
  | none =>
    rw [hvalue] at hc
    simp only [Except.ok.injEq] at hc
    simp [hc]
  | some value =>
    rw [hvalue] at hc
    dsimp only at hc
    cases hshift : shiftRight 64 ((value <<< 4) % 2 ^ 64) (4 * (item.length - 1)) with
    | error e =>
      rw [hshift] at hc
      cases hc
    | ok col =>
      rw [hshift] at hc
      cases hc
      simp

/-- One of the items is overlong, and those before it are numbers. -/
def ReadsOverlong : List (List UInt8) → Prop
  | [] => False
  | item :: rest =>
    Overlong item ∨ (fromStrRadix (2 ^ 64) item ≠ none ∧ ReadsOverlong rest)

theorem not_readsOverlong_cons (item : List UInt8) (rest : List (List UInt8)) :
    ¬ ReadsOverlong (item :: rest) ↔
      ¬ Overlong item ∧ (fromStrRadix (2 ^ 64) item ≠ none → ¬ ReadsOverlong rest) := by
  rw [ReadsOverlong, not_or, not_and]

/-- A component, and what is done with it. -/
theorem colorFromSlice_bind_safe_iff {item : List UInt8} {β : Type} {q : Prop}
    {k : Option UInt8 → Outcome β} (hnone : Safe (k none)) (hsome : ∀ c, Safe (k (some c)) ↔ q) :
    Safe (colorFromSlice item >>= k) ↔
      ¬ Overlong item ∧ (fromStrRadix (2 ^ 64) item ≠ none → q) := by
  by_cases hlong : Overlong item
  · have hstop := mt (colorFromSlice_safe_iff item).mp (not_not.mpr hlong)
    simp only [hlong, not_true_eq_false, false_and, iff_false]
    rw [safe_bind_iff]
    rintro ⟨c, hc, -⟩
    exact hstop ⟨c, hc⟩
  · obtain ⟨c, hc, hiff⟩ := colorFromSlice_eq_none_iff hlong
    rw [hc, ok_bind, ne_eq, ← hiff]
    simp only [hlong, not_false_eq_true, true_and]
    cases c with
    | none => simp [hnone]
    | some c => simpa using hsome c

/-- The three components of a color in hexadecimal digits. -/
def legacyItems (color : List UInt8) : List (List UInt8) :=
  let itemLen := color.length / 3
  [color.take itemLen, (color.drop itemLen).take itemLen, color.drop (itemLen * 2)]

theorem parseLegacyColor_safe_iff (color : List UInt8) :
    Safe (parseLegacyColor color) ↔ ¬ ReadsOverlong (legacyItems color) := by
  have hlen := Nat.div_mul_le_self color.length 3
  have hsecond : slice color (color.length / 3) (color.length / 3 * 2) =
      .ok ((color.drop (color.length / 3)).take (color.length / 3)) := by
    rw [slice_of_le (by omega) (by omega)]
    congr 2
    omega
  have hthird : sliceFrom color (color.length / 3 * 2) = .ok (color.drop (color.length / 3 * 2)) :=
    sliceFrom_of_le (by omega)
  unfold parseLegacyColor legacyItems
  dsimp only
  rw [slice_of_le (Nat.zero_le _) (by omega), ok_bind, List.drop_zero, Nat.sub_zero,
    not_readsOverlong_cons]
  refine colorFromSlice_bind_safe_iff (by exact safe_pure _) ?_
  intro r
  dsimp only
  rw [hsecond, ok_bind, not_readsOverlong_cons]
  refine colorFromSlice_bind_safe_iff (by exact safe_pure _) ?_
  intro g
  dsimp only
  rw [hthird, ok_bind, not_readsOverlong_cons]
  refine colorFromSlice_bind_safe_iff (by exact safe_pure _) ?_
  intro b
  simp [ReadsOverlong]

/-- A color of `#` and hexadecimal digits that cannot be read. -/
def OverlongColor (color : List UInt8) : Prop :=
  color.head? = some 0x23 ∧ ReadsOverlong (legacyItems color.tail)

theorem xparseColor_safe_iff (color : List UInt8) :
    Safe (xparseColor color) ↔ ¬ OverlongColor color := by
  unfold xparseColor OverlongColor
  by_cases hhash : color.head? = some 0x23
  · have hpos : 1 ≤ color.length := by
      cases color with
      | nil => cases hhash
      | cons b rest => exact Nat.succ_pos _
    rw [if_pos hhash, sliceFrom_of_le hpos, ok_bind, parseLegacyColor_safe_iff, List.drop_one]
    simp [hhash]
  · rw [if_neg hhash]
    simp only [hhash, false_and, not_false_eq_true, iff_true]
    split
    next hrgb =>
      rw [sliceFrom_of_le hrgb.1, ok_bind]
      exact parseRgbColor_safe _
    next => exact safe_ok _

/-! ### Operating system commands -/

variable {osc : List (List UInt8)}

theorem oscTitle_safe (h : 2 ≤ osc.length) : Safe (oscTitle osc) := by
  rw [oscTitle, sliceFrom_of_le (by omega), ok_bind]
  exact safe_pure _

theorem oscColor_safe_iff (bellTerminated : Bool) (index color : List UInt8) :
    Safe (oscColor bellTerminated [index, color]) ↔
      (parseNumber index ≠ none → ¬ OverlongColor color) := by
  have hfirst : read [index, color] 0 = .ok index := rfl
  have hsecond : read [index, color] 1 = .ok color := rfl
  rw [oscColor, hfirst, ok_bind]
  cases parseNumber index with
  | none => simp
  | some n =>
    dsimp only
    rw [hsecond, ok_bind, safe_bind_total, xparseColor_safe_iff]
    · simp
    · intro c
      cases c with
      | some c => exact safe_pure _
      | none =>
        rw [ok_bind]
        exact safe_ite (safe_pure _) (safe_pure _)

theorem mem_chunks_of_even : ∀ {params : List (List UInt8)}, params.length % 2 = 0 →
    ∀ chunk ∈ chunks params, ∃ index color, chunk = [index, color]
  | [], _, _, h => absurd h (by simp [chunks])
  | [_], h, _, _ => absurd h (by simp)
  | x :: y :: rest, h, chunk, hchunk => by
    rcases List.mem_cons.mp hchunk with rfl | hrest
    · exact ⟨x, y, rfl⟩
    · rw [List.length_cons, List.length_cons] at h
      exact mem_chunks_of_even (by omega) chunk hrest

/-- A color entry that cannot be read. -/
def OverlongEntry (params : List (List UInt8)) : Prop :=
  params.length % 2 = 1 ∧ ∃ index color, [index, color] ∈ chunks (params.drop 1) ∧
    parseNumber index ≠ none ∧ OverlongColor color

theorem oscColors_safe_iff (bellTerminated : Bool) (hne : osc ≠ []) :
    Safe (oscColors bellTerminated osc) ↔ ¬ OverlongEntry osc := by
  have hpos := List.length_pos_iff.mpr hne
  unfold oscColors OverlongEntry
  by_cases hodd : osc.length ≤ 1 ∨ osc.length % 2 = 0
  · rw [if_pos hodd]
    simp only [safe_ok, true_iff]
    rintro ⟨hlen, index, color, hmem, -⟩
    have hone : osc.length = 1 := by omega
    rw [List.drop_eq_nil_of_le hone.le, chunks] at hmem
    cases hmem
  · have heven : (osc.drop 1).length % 2 = 0 := by
      rw [List.length_drop]
      omega
    rw [if_neg hodd, sliceFrom_of_le hpos, ok_bind, safe_collect_iff]
    constructor
    · rintro h ⟨-, index, color, hmem, hindex, hcolor⟩
      exact (oscColor_safe_iff bellTerminated index color).mp (h _ hmem) hindex hcolor
    · intro h chunk hchunk
      obtain ⟨index, color, rfl⟩ := mem_chunks_of_even heven chunk hchunk
      apply (oscColor_safe_iff bellTerminated index color).mpr
      exact fun hindex hcolor => h ⟨by omega, index, color, hchunk, hindex, hcolor⟩

theorem oscDirectory_safe_iff (env : External) :
    Safe (oscDirectory env osc) ↔ 2 ≤ osc.length := by
  unfold oscDirectory
  refine (safe_bind_total fun slice => ?_).trans safe_read_iff
  cases fromUtf8Fast slice with
  | none => exact safe_pure _
  | some url =>
    dsimp only
    cases env.urlPath url <;> exact safe_pure _

theorem oscHyperlink_safe (h : 2 < osc.length) : Safe (oscHyperlink osc) := by
  rw [oscHyperlink, read_of_lt (by omega), ok_bind, read_of_lt (by omega), ok_bind]
  exact safe_ite (safe_pure _) (safe_pure _)

theorem oscProgress_safe : Safe (oscProgress osc) := by
  unfold oscProgress
  split
  next hthree =>
    rw [read_of_lt (by omega), ok_bind]
    split
    · rw [read_of_lt (by omega), ok_bind]
      cases progressState osc[2] with
      | none => exact safe_pure _
      | some state =>
        dsimp only
        split
        · rw [read_of_lt (by omega), ok_bind]
          exact safe_pure _
        · exact safe_pure _
    · exact safe_pure _
  next => exact safe_ok _

theorem oscNotification_safe : Safe (oscNotification osc) := by
  unfold oscNotification
  apply oscProgress_safe.bind
  intro report
  cases report with
  | some report => exact safe_pure _
  | none =>
    dsimp only
    split
    · rw [read_of_lt (by omega), ok_bind]
      exact safe_pure _
    · exact safe_pure _

theorem oscRxvtNotification_safe : Safe (oscRxvtNotification osc) := by
  unfold oscRxvtNotification
  split
  · rw [read_of_lt (by omega), ok_bind]
    split
    · rw [read_of_lt (by omega), ok_bind, read_of_lt (by omega), ok_bind]
      exact safe_pure _
    · exact safe_pure _
  · exact safe_ok _

/-- Of the dynamic colors from a code on, those up to the cursor color are read. -/
theorem dynamicColors_safe_iff (bellTerminated : Bool) {code : ℕ} (hcode : 10 ≤ code)
    (hlast : code ≤ 13) (colors : List (List UInt8)) :
    Safe (dynamicColors bellTerminated code colors) ↔
      ∀ color ∈ colors.take (13 - code), ¬ OverlongColor color := by
  induction colors generalizing code with
  | nil => simp [dynamicColors]
  | cons color rest ih =>
    have hforeground : NamedColor.foreground.toNat = 256 := rfl
    have hcursor : NamedColor.cursor.toNat = 258 := rfl
    rw [dynamicColors, sub_of_le hcode, ok_bind, hforeground, hcursor]
    dsimp only
    by_cases hend : 258 < 256 + (code - 10)
    · have hzero : 13 - code = 0 := by omega
      rw [if_pos hend, hzero]
      simp
    · obtain ⟨n, hn⟩ : ∃ n, 13 - code = n + 1 := ⟨12 - code, by omega⟩
      have hn' : 13 - (code + 1) = n := by omega
      rw [if_neg hend, hn, List.take_succ_cons, List.forall_mem_cons]
      have hnext : fit 8 (code + 1) = .ok (code + 1) := fit_of_lt (by omega)
      have hrest := ih (Nat.le_succ_of_le hcode) (show code + 1 ≤ 13 by omega)
      rw [hn'] at hrest
      rw [← xparseColor_safe_iff, ← hrest, safe_bind_iff]
      constructor
      · rintro ⟨c, hc, hmore⟩
        rw [hnext, ok_bind] at hmore
        exact ⟨⟨c, hc⟩, (safe_bind_total fun _ => safe_pure _).mp hmore⟩
      · rintro ⟨⟨c, hc⟩, hmore⟩
        refine ⟨c, hc, ?_⟩
        rw [hnext, ok_bind]
        exact (safe_bind_total fun _ => safe_pure _).mpr hmore

/-- The commands that set dynamic colors, and how many colors each of them reads. -/
def dynamicCommands : List (List UInt8 × ℕ) :=
  [(bytes ['1', '0'], 3), (bytes ['1', '1'], 2), (bytes ['1', '2'], 1)]

/-- A dynamic color that cannot be read. -/
def OverlongDynamic (params : List (List UInt8)) (count : ℕ) : Prop :=
  ∃ color ∈ (params.drop 1).take count, OverlongColor color

theorem oscDynamicColors_safe_iff (bellTerminated : Bool) {code : List UInt8} {count : ℕ}
    (hcode : (code, count) ∈ dynamicCommands) (hhead : osc.head? = some code) :
    Safe (oscDynamicColors bellTerminated osc) ↔ ¬ OverlongDynamic osc count := by
  obtain ⟨rest, rfl⟩ : ∃ rest, osc = code :: rest := by
    cases osc with
    | nil => cases hhead
    | cons first rest => exact ⟨rest, by rw [Option.some.inj hhead]⟩
  have hnumber : ∃ n, parseNumber code = some n ∧ 10 ≤ n.toNat ∧ n.toNat ≤ 12 ∧
      count = 13 - n.toNat := by
    simp only [dynamicCommands, List.mem_cons, Prod.mk.injEq, List.not_mem_nil, or_false] at hcode
    rcases hcode with ⟨rfl, rfl⟩ | ⟨rfl, rfl⟩ | ⟨rfl, rfl⟩
    · exact ⟨10, by decide⟩
    · exact ⟨11, by decide⟩
    · exact ⟨12, by decide⟩
  obtain ⟨n, hn, hlow, hhigh, rfl⟩ := hnumber
  unfold oscDynamicColors OverlongDynamic
  by_cases hlen : 2 ≤ (code :: rest).length
  · have hpos : 0 < (code :: rest).length := by omega
    rw [if_pos hlen, read_of_lt hpos, ok_bind, List.getElem_cons_zero, hn]
    dsimp only
    rw [sliceFrom_of_le hpos, ok_bind, dynamicColors_safe_iff bellTerminated hlow (by omega)]
    simp
  · have hnil : rest = [] := by
      rw [← List.length_eq_zero_iff]
      rw [List.length_cons] at hlen
      omega
    subst hnil
    rw [if_neg hlen]
    simp

theorem oscMouseCursor_safe (env : External) (h : osc.length = 2) :
    Safe (oscMouseCursor env osc) := by
  rw [oscMouseCursor, read_of_lt (by omega), ok_bind]
  cases env.cursorIcon osc[1] <;> exact safe_pure _

theorem oscCursorShape_safe : Safe (oscCursorShape osc) := by
  unfold oscCursorShape
  split
  · rw [read_of_lt (by omega), ok_bind]
    split
    · rw [slice_of_le (by omega) (by omega), ok_bind]
      split
      · rw [read_of_lt (by omega), ok_bind]
        repeat' with_reducible apply safe_ite
        all_goals exact safe_pure _
      · exact safe_pure _
    · exact safe_pure _
  · exact safe_ok _

theorem oscClipboard_safe (bellTerminated : Bool) : Safe (oscClipboard bellTerminated osc) := by
  unfold oscClipboard
  split
  · exact safe_ok _
  · rw [read_of_lt (by omega), ok_bind, read_of_lt (by omega), ok_bind]
    exact safe_ite (safe_pure _) (safe_pure _)

theorem oscResetColors_safe (hne : osc ≠ []) : Safe (oscResetColors osc) := by
  have hpos := List.length_pos_iff.mpr hne
  unfold oscResetColors
  split
  · exact safe_pure _
  · rw [read_of_lt (by omega), ok_bind, sliceFrom_of_le (by omega), ok_bind]
    exact safe_ite (safe_pure _) (safe_pure _)

/-- Cutting at a position that was found. -/
theorem splitBehind_safe {text : List UInt8} {separator : ℕ} (h : separator < text.length) :
    Safe (splitBehind text separator) := by
  rw [splitBehind, sliceFrom_of_le (by rw [List.length_drop]; omega), ok_bind]
  exact safe_pure _

theorem findIdx?_lt {text : List UInt8} {p : UInt8 → Bool} {i : ℕ}
    (h : text.findIdx? p = some i) : i < text.length :=
  (List.findIdx?_eq_some_iff_getElem.mp h).1

theorem imageValue_safe (last : Bool) (param : List UInt8) : Safe (imageValue last param) := by
  unfold imageValue
  split
  · exact safe_ok _
  next separator hseparator =>
    apply (splitBehind_safe (findIdx?_lt hseparator)).bind
    rintro ⟨key, value⟩
    dsimp only
    split
    · split
      · exact safe_pure _
      next position hposition =>
        apply (splitBehind_safe (findIdx?_lt hposition)).bind
        exact fun _ => safe_pure _
    · exact safe_pure _

theorem imageValues_safe (params : List (List UInt8)) : Safe (imageValues params) := by
  induction params with
  | nil => exact safe_ok _
  | cons param rest ih =>
    rw [imageValues]
    apply (imageValue_safe _ param).bind
    intro first
    exact ih.bind fun _ => safe_pure _

theorem oscImage_safe : Safe (oscImage osc) := by
  have hvalues : Safe (paramValues osc) := by
    unfold paramValues
    split
    · exact safe_ok _
    next param rest _ =>
      split
      next hfile =>
        have hfive : 5 ≤ param.length := by
          have hlen := congrArg List.length hfile
          rw [List.length_take] at hlen
          have hcode : (bytes fileCode).length = 5 := rfl
          omega
        rw [sliceFrom_of_le hfive, ok_bind]
        exact (imageValues_safe _).bind fun _ => safe_pure _
      next => exact safe_ok _
  apply hvalues.bind
  intro values
  cases values with
  | none => exact safe_pure _
  | some values => exact safe_ite (safe_pure _) (safe_pure _)

/-- The parameters that stop the dispatcher. -/
def OscFault (params : List (List UInt8)) : Prop :=
  params = [bytes ['7']] ∨
    (params.head? = some (bytes ['4']) ∧ OverlongEntry params) ∨
    ∃ code count, (code, count) ∈ dynamicCommands ∧ params.head? = some code ∧
      OverlongDynamic params count

/-- The commands of which some parameters stop the dispatcher. -/
def faultyCommands : List (List UInt8) :=
  [bytes ['7'], bytes ['4'], bytes ['1', '0'], bytes ['1', '1'], bytes ['1', '2']]

theorem OscFault.head_mem {code : List UInt8} {rest : List (List UInt8)}
    (h : OscFault (code :: rest)) : code ∈ faultyCommands := by
  rcases h with h | ⟨h, -⟩ | ⟨command, count, hmem, h, -⟩
  · rw [(List.cons.inj h).1]
    decide
  · rw [Option.some.inj h]
    decide
  · rw [Option.some.inj h]
    simp only [dynamicCommands, List.mem_cons, Prod.mk.injEq, List.not_mem_nil, or_false] at hmem
    rcases hmem with ⟨rfl, -⟩ | ⟨rfl, -⟩ | ⟨rfl, -⟩ <;> decide

private theorem dynamicCommands_ne {code : List UInt8} {count : ℕ}
    (h : (code, count) ∈ dynamicCommands) : code ≠ bytes ['7'] ∧ code ≠ bytes ['4'] := by
  simp only [dynamicCommands, List.mem_cons, Prod.mk.injEq, List.not_mem_nil, or_false] at h
  rcases h with ⟨rfl, -⟩ | ⟨rfl, -⟩ | ⟨rfl, -⟩ <;> decide

theorem oscFault_directory (rest : List (List UInt8)) :
    OscFault (bytes ['7'] :: rest) ↔ rest = [] := by
  constructor
  · rintro (h | ⟨h, -⟩ | ⟨code, count, hmem, h, -⟩)
    · exact (List.cons.inj h).2
    · exact absurd (Option.some.inj h) (by decide)
    · exact absurd (Option.some.inj h).symm (dynamicCommands_ne hmem).1
  · rintro rfl
    exact .inl rfl

theorem oscFault_colors (rest : List (List UInt8)) :
    OscFault (bytes ['4'] :: rest) ↔ OverlongEntry (bytes ['4'] :: rest) := by
  constructor
  · rintro (h | ⟨-, h⟩ | ⟨code, count, hmem, h, -⟩)
    · exact absurd (List.cons.inj h).1 (by decide)
    · exact h
    · exact absurd (Option.some.inj h).symm (dynamicCommands_ne hmem).2
  · exact fun h => .inr (.inl ⟨rfl, h⟩)

theorem oscFault_dynamic {code : List UInt8} {count : ℕ} (hmem : (code, count) ∈ dynamicCommands)
    (rest : List (List UInt8)) :
    OscFault (code :: rest) ↔ OverlongDynamic (code :: rest) count := by
  constructor
  · rintro (h | ⟨h, -⟩ | ⟨code', count', hmem', h, hdynamic⟩)
    · exact absurd (List.cons.inj h).1 (dynamicCommands_ne hmem).1
    · exact absurd (Option.some.inj h) (dynamicCommands_ne hmem).2
    · obtain rfl := Option.some.inj h
      have hcount : ∀ entry ∈ dynamicCommands, ∀ entry' ∈ dynamicCommands,
          entry.1 = entry'.1 → entry.2 = entry'.2 := by
        decide
      have heq : count' = count := hcount _ hmem' _ hmem rfl
      rwa [heq] at hdynamic
  · exact fun h => .inr (.inr ⟨code, count, hmem, rfl, h⟩)

/-- Every other command is dispatched whatever its parameters. -/
theorem oscDispatch_safe (env : External) {code : List UInt8} (rest : List (List UInt8))
    (bellTerminated : Bool) (h : code ∉ faultyCommands) :
    Safe (oscDispatch env (code :: rest) bellTerminated) := by
  have hne : code :: rest ≠ [] := List.cons_ne_nil code rest
  simp only [faultyCommands, List.mem_cons, List.not_mem_nil, or_false, not_or] at h
  obtain ⟨h7, h4, h10, h11, h12⟩ := h
  have hdynamic : ¬ (code = bytes ['1', '0'] ∨ code = bytes ['1', '1'] ∨
      code = bytes ['1', '2']) := by
    rintro (h | h | h)
    · exact h10 h
    · exact h11 h
    · exact h12 h
  rw [oscDispatch, if_neg hne, read_of_lt (Nat.succ_pos _), ok_bind, List.getElem_cons_zero,
    if_neg h4, if_neg h7, if_neg hdynamic]
  refine safe_ite (safe_pure _) (safe_ite ?_ ?_)
  · exact safe_ite_of oscTitle_safe fun _ => safe_pure _
  refine safe_ite_of (fun hlink => oscHyperlink_safe hlink.2) fun _ => ?_
  refine safe_ite oscNotification_safe (safe_ite oscRxvtNotification_safe ?_)
  refine safe_ite_of (fun hcursor => oscMouseCursor_safe env hcursor.2) fun _ => ?_
  refine safe_ite oscCursorShape_safe (safe_ite (oscClipboard_safe bellTerminated) ?_)
  refine safe_ite (oscResetColors_safe hne) (safe_ite (safe_pure _) ?_)
  exact safe_ite (safe_pure _) (safe_ite (safe_pure _) (safe_ite oscImage_safe (safe_pure _)))

theorem oscDispatch_safe_iff (env : External) (osc : List (List UInt8)) (bellTerminated : Bool) :
    Safe (oscDispatch env osc bellTerminated) ↔ ¬ OscFault osc := by
  cases osc with
  | nil =>
    have hnil : oscDispatch env [] bellTerminated = .ok [] := rfl
    rw [hnil]
    simp [OscFault]
  | cons code rest =>
    by_cases hmem : code ∈ faultyCommands
    · have hne := List.cons_ne_nil code rest
      simp only [faultyCommands, List.mem_cons, List.not_mem_nil, or_false] at hmem
      rcases hmem with rfl | rfl | hdynamic
      · have hbranch : oscDispatch env (bytes ['7'] :: rest) bellTerminated =
            oscDirectory env (bytes ['7'] :: rest) := rfl
        rw [hbranch, oscDirectory_safe_iff, oscFault_directory, List.length_cons]
        rw [← List.length_eq_zero_iff]
        omega
      · have hbranch : oscDispatch env (bytes ['4'] :: rest) bellTerminated =
            oscColors bellTerminated (bytes ['4'] :: rest) := rfl
        rw [hbranch, oscColors_safe_iff bellTerminated hne, oscFault_colors]
      · obtain ⟨count, hcount⟩ : ∃ count, (code, count) ∈ dynamicCommands := by
          rcases hdynamic with rfl | rfl | rfl
          · exact ⟨3, by decide⟩
          · exact ⟨2, by decide⟩
          · exact ⟨1, by decide⟩
        have hbranch : oscDispatch env (code :: rest) bellTerminated =
            oscDynamicColors bellTerminated (code :: rest) := by
          rcases hdynamic with rfl | rfl | rfl <;> rfl
        rw [hbranch, oscDynamicColors_safe_iff bellTerminated hcount rfl, oscFault_dynamic hcount]
    · have hsafe := oscDispatch_safe env rest bellTerminated hmem
      simp only [hsafe, true_iff]
      exact fun hfault => hmem hfault.head_mem

/-! ### Everything the parser can deliver -/

/-- A call to a dispatcher runs to its end. -/
def DispatchTotal (env : External) (preceding : Option Char) : Call → Prop
  | .oscDispatch params bellTerminated => Safe (oscDispatch env params bellTerminated)
  | .csiDispatch params intermediates ignore action =>
    Safe (csiDispatch preceding params intermediates ignore action)
  | .escDispatch intermediates _ byte => Safe (escDispatch intermediates byte)
  | .hook params intermediates _ action => Safe (hook params intermediates action)
  | _ => True

/-- The calls that stop a dispatcher. -/
def Stops : Call → Prop
  | .oscDispatch params _ => OscFault params
  | _ => False

theorem dispatchTotal_iff (env : External) (preceding : Option Char) {call : Call}
    (h : Deliverable call) : DispatchTotal env preceding call ↔ ¬ Stops call := by
  cases call with
  | oscDispatch params bellTerminated => exact oscDispatch_safe_iff env params bellTerminated
  | csiDispatch params intermediates ignore action =>
    simp only [DispatchTotal, Stops, not_false_eq_true, iff_true]
    exact csiDispatch_safe h preceding intermediates ignore action
  | escDispatch intermediates ignore byte =>
    simp only [DispatchTotal, Stops, not_false_eq_true, iff_true]
    exact escDispatch_safe intermediates byte
  | hook params intermediates ignore action =>
    simp only [DispatchTotal, Stops, not_false_eq_true, iff_true]
    exact hook_safe intermediates action
  | _ => simp [DispatchTotal, Stops]

/-- Whatever is read, the dispatchers run to their end on every call the parser makes exactly
when no operating system command among them is one that stops. -/
theorem run_dispatchTotal_iff (env : External) (preceding : Option Char)
    (reads : List (List UInt8)) :
    (∀ call ∈ (Transducer.run Parser.advance .new reads).2, DispatchTotal env preceding call) ↔
      ∀ call ∈ (Transducer.run Parser.advance .new reads).2, ¬ Stops call := by
  obtain ⟨-, hdeliverable⟩ := Parser.new_collects.run_advance reads
  constructor
  · exact fun h call hcall =>
      (dispatchTotal_iff env preceding (hdeliverable call hcall)).mp (h call hcall)
  · exact fun h call hcall =>
      (dispatchTotal_iff env preceding (hdeliverable call hcall)).mpr (h call hcall)

/-- No URL and no cursor icon is known. -/
def External.empty : External := ⟨fun _ => none, fun _ => none⟩

/-- A directory report without a directory. -/
def directoryReport : List UInt8 := [0x1B, 0x5D] ++ bytes ['7'] ++ [0x07]

/-- A palette color with components of seventeen digits. -/
def paletteColorReport : List UInt8 :=
  [0x1B, 0x5D] ++ bytes ['4', ';', '0', ';', '#'] ++ List.replicate 51 0x30 ++ [0x07]

theorem run_dispatch_stops :
    ¬ (∀ call ∈ (Transducer.run Parser.advance .new [directoryReport]).2,
        DispatchTotal .empty none call) ∧
      ¬ (∀ call ∈ (Transducer.run Parser.advance .new [paletteColorReport]).2,
        DispatchTotal .empty none call) := by
  have hdirectory : (Transducer.run Parser.advance .new [directoryReport]).2 =
      [.oscDispatch [bytes ['7']] true] := by
    decide
  have hcolor : (Transducer.run Parser.advance .new [paletteColorReport]).2 =
      [.oscDispatch [bytes ['4'], bytes ['0'], 0x23 :: List.replicate 51 0x30] true] := by
    decide +kernel
  have hindex : oscDispatch .empty [bytes ['7']] true = .error .index := rfl
  have hoverflow : oscDispatch .empty
      [bytes ['4'], bytes ['0'], 0x23 :: List.replicate 51 0x30] true = .error .overflow := by
    decide +kernel
  rw [hdirectory, hcolor]
  constructor
  · intro h
    obtain ⟨actions, hactions⟩ := h _ List.mem_cons_self
    rw [hindex] at hactions
    cases hactions
  · intro h
    obtain ⟨actions, hactions⟩ := h _ List.mem_cons_self
    rw [hoverflow] at hactions
    cases hactions

end Rio.Performer
