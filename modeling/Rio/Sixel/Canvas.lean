import Rio.Sixel.Parser

/-! Sixel graphics drawn on an unbounded canvas, and the picture of the parser as a part of it. -/

set_option linter.dupNamespace false

namespace Rio.Sixel
open Rio.Checked Rio.Raster

/-! ### The unbounded canvas -/

/-- What an interpreter keeps that has room for every pixel. -/
structure Reference where
  /-- The active command, with its parameters so far, the last one first. -/
  active : Option (SixelCommand × List ℕ) := none
  x : ℕ := 0
  y : ℕ := 0
  repeatCount : ℕ := 0
  color : ℕ := 0
  /-- The register that was drawn last. -/
  canvas : ℕ → ℕ → Option ℕ := fun _ _ => none

def isParam (byte : UInt8) : Bool := (0x30 ≤ byte && byte ≤ 0x39) || byte == 0x3B

def isSixel (byte : UInt8) : Bool := 0x3F ≤ byte && byte ≤ 0x7E

namespace Reference

/-- A parameter by its position, as a 16-bit number. -/
def arg (params : List ℕ) (index : ℕ) : ℕ := min (params.reverse.getD index 0) (2 ^ 16 - 1)

/-- Do what the active command says. Sizes and the definitions of colors leave the canvas as it
is. -/
def finish (r : Reference) : Reference :=
  match r.active with
  | none => r
  | some (command, params) =>
    let r := { r with active := none }
    match command with
    | .repeatIntroducer => { r with repeatCount := arg params 0 }
    | .setRasterAttributes => r
    | .colorIntroducer => { r with color := arg params 0 }
    | .carriageReturn => { r with x := 0 }
    | .nextLine => { r with x := 0, y := r.y + 6 }

/-- Draw the dots of a sixel below one another, as often as it is repeated. -/
def draw (r : Reference) (sixel : ℕ) : Reference :=
  let repeatCount := max 1 r.repeatCount
  { r with
    x := r.x + repeatCount
    repeatCount := 0
    canvas := fun x y =>
      if r.x ≤ x ∧ x < r.x + repeatCount ∧ r.y ≤ y ∧ y < r.y + 6 ∧ sixel.testBit (y - r.y) then
        some r.color
      else r.canvas x y }

/-- One more byte of a parameter, or the next parameter. -/
def nextParam (params : List ℕ) (byte : UInt8) : List ℕ :=
  if byte = 0x3B then 0 :: params else (params.headD 0 * 10 + (byte.toNat - 0x30)) :: params.tail

theorem nextParam_semicolon (params : List ℕ) : nextParam params 0x3B = 0 :: params := if_pos rfl

theorem nextParam_digit {byte : UInt8} (h : byte ≠ 0x3B) (n : ℕ) (rest : List ℕ) :
    nextParam (n :: rest) byte = (n * 10 + (byte.toNat - 0x30)) :: rest := if_neg h

def step (r : Reference) (byte : UInt8) : Reference :=
  match Parser.commandOf byte with
  | some command => { r.finish with active := some (command, [0]) }
  | none =>
    if isParam byte then
      { r with active := r.active.map fun active => (active.1, nextParam active.2 byte) }
    else if isSixel byte then r.finish.draw (byte.toNat - 0x3F)
    else r.finish

def run (bytes : List UInt8) : Reference := bytes.foldl step {}

/-- The size that the active command asks for. -/
def commandAsks (r : Reference) : List (ℕ × ℕ) :=
  match r.active with
  | some (.setRasterAttributes, params) =>
    if 3 < params.length then [(arg params 2, arg params 3)] else []
  | _ => []

/-- The sizes that are asked for with a byte. -/
def asks (r : Reference) (byte : UInt8) : List (ℕ × ℕ) :=
  if isParam byte then []
  else if isSixel byte then
    r.commandAsks ++
      [(r.finish.x + max 1 r.finish.repeatCount, r.finish.y + height (byte.toNat - 0x3F))]
  else r.commandAsks

def asked : Reference → List UInt8 → List (ℕ × ℕ)
  | _, [] => []
  | r, byte :: bytes => r.asks byte ++ (r.step byte).asked bytes

end Reference

/-! ### Results -/

/-- The computation is not stopped, and its result satisfies a predicate. -/
def Holds {α : Type} (P : α → Prop) : Result α → Prop
  | .ok a => P a
  | .error (.fault _) => False
  | .error _ => True

theorem ok_of_bind {α β : Type} {x : Result α} {f : α → Result β} {b : β}
    (h : x >>= f = .ok b) : ∃ a, x = .ok a ∧ f a = .ok b := by
  cases x with
  | ok a => exact ⟨a, rfl, h⟩
  | error e => cases h

namespace Holds
variable {α β : Type} {P : α → Prop} {Q : β → Prop} {x : Result α}

theorem bind {f : α → Result β} (h : Holds P x) (hf : ∀ a, x = .ok a → P a → Holds Q (f a)) :
    Holds Q (x >>= f) := by
  cases x with
  | ok a => exact hf a rfl h
  | error e => cases e <;> exact h

theorem ok (h : Holds P x) {a : α} (hx : x = .ok a) : P a := by
  rw [hx] at h
  exact h

theorem not_fault (h : Holds P x) (f : Fault) : x ≠ .error (.fault f) := by
  rintro rfl
  exact h

theorem mono {P' : α → Prop} (h : Holds P x) (hP : ∀ a, P a → P' a) : Holds P' x := by
  cases x with
  | ok a => exact hP a h
  | error e => cases e <;> exact h

end Holds

/-! ### Sizes -/

/-- The size of a picture after another size was asked for: without pixels it is the other one. -/
def fit (size asked : ℕ × ℕ) : ℕ × ℕ :=
  if asked ≤ size then size else if size.1 * size.2 = 0 then asked else size ⊔ asked

/-- The sizes do not decrease while others are asked for. -/
def Rises : ℕ × ℕ → List (ℕ × ℕ) → Prop
  | _, [] => True
  | size, asked :: rest => size ≤ fit size asked ∧ Rises (fit size asked) rest

/-- One of the sizes is at most the other. -/
def Comparable (a b : ℕ × ℕ) : Prop := a ≤ b ∨ b ≤ a

instance (a b : ℕ × ℕ) : Decidable (Comparable a b) := inferInstanceAs (Decidable (_ ∨ _))

/-- The sizes up to the first that has an area, and with it. -/
def untilArea : List (ℕ × ℕ) → List (ℕ × ℕ)
  | [] => []
  | asked :: rest => if asked.1 * asked.2 = 0 then asked :: untilArea rest else [asked]

section Sizes
variable {a b size asked : ℕ × ℕ} {rest : List (ℕ × ℕ)}

theorem le_fit (size asked : ℕ × ℕ) : asked ≤ fit size asked := by
  unfold fit
  split_ifs with hle
  · exact hle
  · exact le_rfl
  · exact le_sup_right

theorem rises_append (first rest : List (ℕ × ℕ)) (size : ℕ × ℕ) :
    Rises size (first ++ rest) ↔ Rises size first ∧ Rises (first.foldl fit size) rest := by
  induction first generalizing size with
  | nil => exact (true_and _).to_iff.symm
  | cons asked first ih =>
    exact (and_congr_right fun _ => ih _).trans and_assoc.symm

/-- A picture with pixels only grows. -/
theorem rises_of_area (harea : size.1 * size.2 ≠ 0) (asked : List (ℕ × ℕ)) :
    Rises size asked := by
  induction asked generalizing size with
  | nil => trivial
  | cons asked rest ih =>
    have hfit : fit size asked = size ⊔ asked := by
      unfold fit
      split_ifs with hle
      · exact (sup_eq_left.mpr hle).symm
      · rfl
    have hle : size ≤ fit size asked := hfit ▸ le_sup_left
    refine ⟨hle, ih ?_⟩
    exact (Nat.mul_pos
      ((Nat.pos_of_ne_zero fun h => harea (by rw [h, Nat.zero_mul])).trans_le hle.1)
      ((Nat.pos_of_ne_zero fun h => harea (by rw [h, Nat.mul_zero])).trans_le hle.2)).ne'

/-- Two sizes within one that has no area lie on one side of it. -/
theorem comparable_of_le (harea : size.1 * size.2 = 0) (ha : a ≤ size) (hb : b ≤ size) :
    Comparable a b := by
  obtain ⟨ha₁, ha₂⟩ := ha
  obtain ⟨hb₁, hb₂⟩ := hb
  have hor := Nat.mul_eq_zero.mp harea
  unfold Comparable
  rw [Prod.le_def, Prod.le_def]
  omega

theorem Comparable.of_le (harea : size.1 * size.2 = 0) (ha : a ≤ size) (h : Comparable size b) :
    Comparable a b := by
  obtain hle | hle := h
  · exact .inl (ha.trans hle)
  · exact comparable_of_le harea ha hle

/-- From a size without an area, the sizes rise if they are comparable until one has an area. -/
theorem rises_iff (harea : size.1 * size.2 = 0) (asked : List (ℕ × ℕ)) :
    Rises size asked ↔ (∀ a ∈ untilArea asked, Comparable size a) ∧
      (untilArea asked).Pairwise Comparable := by
  induction asked generalizing size with
  | nil => exact iff_of_true trivial ⟨fun _ ha => (List.not_mem_nil ha).elim, .nil⟩
  | cons asked rest ih =>
    have hfit : fit size asked = if asked ≤ size then size else asked := by
      unfold fit
      rw [if_pos harea]
    unfold Rises untilArea
    rw [hfit]
    by_cases hwithin : asked ≤ size
    · have hasked : asked.1 * asked.2 = 0 :=
        Nat.le_zero.mp ((Nat.mul_le_mul hwithin.1 hwithin.2).trans_eq harea)
      rw [if_pos hwithin, if_pos hasked, ih harea, List.forall_mem_cons, List.pairwise_cons]
      constructor
      · rintro ⟨-, hall, hpairs⟩
        exact ⟨⟨.inr hwithin, hall⟩, fun a ha => (hall a ha).of_le harea hwithin, hpairs⟩
      · rintro ⟨⟨-, hall⟩, -, hpairs⟩
        exact ⟨le_rfl, hall, hpairs⟩
    rw [if_neg hwithin]
    have hcomparable : Comparable size asked ↔ size ≤ asked := or_iff_left hwithin
    by_cases hasked : asked.1 * asked.2 = 0
    · rw [if_pos hasked, ih hasked, List.forall_mem_cons, List.pairwise_cons, hcomparable]
      constructor
      · rintro ⟨hle, hall, hpairs⟩
        exact ⟨⟨hle, fun a ha => (hall a ha).of_le hasked hle⟩, hall, hpairs⟩
      · rintro ⟨⟨hle, -⟩, hall, hpairs⟩
        exact ⟨hle, hall, hpairs⟩
    · rw [if_neg hasked, List.forall_mem_singleton, hcomparable]
      exact and_congr_right fun _ =>
        iff_of_true (rises_of_area hasked rest) (List.pairwise_singleton _ _)

end Sizes

/-! ### The picture -/

namespace Parser

/-- The picture has the pixels of the canvas, on the background, and nothing that was drawn is
cut off. -/
structure Pictures (p : Parser) (canvas : ℕ → ℕ → Option ℕ) : Prop where
  length : p.pixels.length = p.width * p.height
  width_le : p.width ≤ Crosswords.maxGraphicDimension
  height_le : p.height ≤ Crosswords.maxGraphicDimension
  pixels : ∀ x < p.width, ∀ y < p.height,
    p.pixels[y * p.width + x]? = some ((canvas x y).getD p.background)
  drawn : ∀ x y, canvas x y ≠ none → x < p.width ∧ y < p.height

/-- How wide and how high the picture is. -/
def size (p : Parser) : ℕ × ℕ := (p.width, p.height)

/-- What a resize leaves alone. -/
def SameState (p p' : Parser) : Prop :=
  p' = { p with width := p'.width, height := p'.height, pixels := p'.pixels }

/-- What resizing the picture does. -/
structure Resizes (p : Parser) (canvas : ℕ → ℕ → Option ℕ) (asked : ℕ × ℕ) (p' : Parser) :
    Prop where
  pictures : p'.Pictures canvas
  same : p.SameState p'
  size : p'.size = fit p.size asked

variable {p : Parser} {canvas : ℕ → ℕ → Option ℕ}

theorem Pictures.pixels_eq_nil_iff (h : p.Pictures canvas) :
    p.pixels = [] ↔ p.size.1 * p.size.2 = 0 :=
  List.length_eq_zero_iff.symm.trans (by rw [h.length]; rfl)

theorem ensureSize_resizes (h : p.Pictures canvas) (width height : ℕ) :
    Holds (p.Resizes canvas (width, height)) (p.ensureSize width height) := by
  have hfit (hbig : ¬(width ≤ p.width ∧ height ≤ p.height)) : fit p.size (width, height) =
      if p.pixels = [] then (width, height) else p.size ⊔ (width, height) :=
    (if_neg hbig).trans (if_congr h.pixels_eq_nil_iff.symm rfl rfl)
  unfold ensureSize
  by_cases hbig : width ≤ p.width ∧ height ≤ p.height
  · rw [if_pos hbig]
    exact ⟨h, rfl, (if_pos hbig).symm⟩
  rw [if_neg hbig]
  by_cases hmax : Crosswords.maxGraphicDimension < width ∨ Crosswords.maxGraphicDimension < height
  · rw [if_pos hmax]
    exact trivial
  rw [if_neg hmax]
  obtain ⟨hwidth, hheight⟩ := not_or.mp hmax
  have hwidth := Nat.le_of_not_lt hwidth
  have hheight := Nat.le_of_not_lt hheight
  have hblank {x y : ℕ} (hout : ¬(x < p.width ∧ y < p.height)) : canvas x y = none := by
    by_contra hdrawn
    exact hout (h.drawn x y hdrawn)
  by_cases hempty : p.pixels = []
  · rw [if_pos hempty]
    -- without pixels nothing was drawn
    have hnone (x y : ℕ) : canvas x y = none := by
      refine hblank fun hin => ?_
      have hlength := h.length
      rw [hempty, List.length_nil] at hlength
      obtain hzero | hzero := Nat.mul_eq_zero.mp hlength.symm <;> omega
    refine ⟨⟨List.length_replicate, hwidth, hheight, fun x hx y hy => ?_, fun x y hdrawn => ?_⟩,
      rfl, ((hfit hbig).trans (if_pos hempty)).symm⟩
    · dsimp only at hx hy ⊢
      rw [List.getElem?_replicate, if_pos (Nat.mul_comm height width ▸ index_lt hx hy), hnone]
      rfl
    · exact absurd (hnone x y) hdrawn
  rw [if_neg hempty]
  have hsup : fit p.size (width, height) = (max p.width width, max p.height height) :=
    (hfit hbig).trans (if_neg hempty)
  have hlength : p.pixels.length = p.height * p.width := h.length.trans (Nat.mul_comm _ _)
  by_cases hwide : width ≤ p.width
  · rw [if_pos hwide]
    have hhigh : p.height ≤ height := by omega
    refine ⟨⟨?_, h.width_le, hheight, fun x hx y hy => ?_, fun x y hdrawn => ?_⟩, rfl, ?_⟩
    · exact (resize_length _ _ _).trans (Nat.mul_comm _ _)
    · dsimp only at hx hy ⊢
      rw [getElem?_resize (hlength.trans_le (Nat.mul_le_mul_right _ hhigh)), hlength]
      by_cases hrow : y < p.height
      · rw [if_pos (index_lt hx hrow)]
        exact h.pixels x hx y hrow
      · have hbelow : p.height * p.width ≤ y * p.width :=
          Nat.mul_le_mul_right _ (Nat.le_of_not_lt hrow)
        rw [if_neg (by omega), if_pos (index_lt hx hy), hblank fun hin => hrow hin.2]
        rfl
    · obtain ⟨hx, hy⟩ := h.drawn x y hdrawn
      exact ⟨hx, hy.trans_le hhigh⟩
    · rw [hsup, max_eq_left hwide, max_eq_right hhigh]
      rfl
  rw [if_neg hwide]
  have hnarrow : p.width ≤ width := by omega
  obtain ⟨pixels, hwiden, hpixels, hget⟩ := widen_of_le p.pixels p.background hnarrow
    (le_max_right height p.height) hlength
  dsimp only
  rw [hwiden]
  refine ⟨⟨?_, hwidth, max_le hheight h.height_le, fun x hx y hy => ?_, fun x y hdrawn => ?_⟩, rfl,
    ?_⟩
  · exact hpixels.trans (Nat.mul_comm _ _)
  · refine (hget x hx y hy).trans ?_
    by_cases hin : x < p.width ∧ y < p.height
    · rw [if_pos hin]
      exact h.pixels x hin.1 y hin.2
    · rw [if_neg hin, hblank hin]
      rfl
  · obtain ⟨hx, hy⟩ := h.drawn x y hdrawn
    exact ⟨hx.trans_le hnarrow, hy.trans_le (le_max_right _ _)⟩
  · rw [hsup, max_eq_right hnarrow, max_comm p.height]
    rfl

end Parser

/-! ### Commands -/

theorem arg_cons (n : ℕ) (rest : List ℕ) (index : ℕ) :
    Reference.arg (n :: rest) index =
      if index < rest.length then Reference.arg rest index
      else if index = rest.length then min n (2 ^ 16 - 1) else 0 := by
  unfold Reference.arg
  rw [List.reverse_cons, List.getD_eq_getElem?_getD, List.getD_eq_getElem?_getD]
  split_ifs with hbefore hlast
  · rw [List.getElem?_append_left (by rwa [List.length_reverse])]
  · rw [List.getElem?_append_right (by rw [List.length_reverse]; omega), List.length_reverse, hlast,
      Nat.sub_self]
    rfl
  · have hlength : (rest.reverse ++ [n]).length = rest.length + 1 := by
      rw [List.length_append, List.length_reverse, List.length_singleton]
    rw [List.getElem?_eq_none (by omega)]
    rfl

namespace CommandParser

/-- The parameters are those of the list, as far as there is room. -/
structure Has (c : CommandParser) (params : List ℕ) : Prop where
  length : c.params.length = maxCommandParams
  some : params ≠ []
  position : c.paramsPosition = min (params.length - 1) maxCommandParams
  param : ∀ index < maxCommandParams, c.param index = Reference.arg params index

theorem new_has (command : SixelCommand) : (new command).Has [0] := by
  refine ⟨rfl, List.cons_ne_nil _ _, rfl, fun index hindex => ?_⟩
  unfold maxCommandParams at hindex
  interval_cases index <;> rfl

theorem digit_min (n : ℕ) (byte : UInt8) :
    digit (min n (2 ^ 16 - 1)) byte = min (n * 10 + (byte.toNat - 0x30)) (2 ^ 16 - 1) := by
  unfold digit
  omega

theorem put_command (c : CommandParser) (byte : UInt8) : (c.put byte).command = c.command := by
  unfold CommandParser.put
  split_ifs <;> rfl

theorem Has.put {c : CommandParser} {params : List ℕ} (h : c.Has params) {byte : UInt8}
    (hbyte : isParam byte = true) : (c.put byte).Has (Reference.nextParam params byte) := by
  obtain ⟨hlength, hsome, hposition, hparam⟩ := h
  obtain ⟨n, rest, rfl⟩ := List.exists_cons_of_ne_nil hsome
  rw [List.length_cons, Nat.add_sub_cancel] at hposition
  unfold CommandParser.put
  by_cases hsemicolon : byte = 0x3B
  · subst hsemicolon
    have hsame (index : ℕ) (hindex : index < maxCommandParams) :
        c.param index = Reference.arg (0 :: n :: rest) index := by
      rw [hparam index hindex, arg_cons 0, List.length_cons]
      split_ifs with hbefore hlast
      · rfl
      · rw [arg_cons, if_neg (by omega), if_neg (by omega)]
        rfl
      · rw [arg_cons, if_neg (by omega), if_neg (by omega)]
    rw [Reference.nextParam_semicolon]
    by_cases hroom : c.paramsPosition < maxCommandParams
    · rw [if_pos hroom, if_neg (by decide), if_pos rfl]
      refine ⟨hlength, List.cons_ne_nil _ _, ?_, hsame⟩
      simp only [List.length_cons, Nat.add_sub_cancel]
      omega
    · rw [if_neg hroom]
      refine ⟨hlength, List.cons_ne_nil _ _, ?_, hsame⟩
      simp only [List.length_cons, Nat.add_sub_cancel]
      omega
  · have hdigit : 0x30 ≤ byte ∧ byte ≤ 0x39 := by
      unfold isParam at hbyte
      simpa [hsemicolon] using hbyte
    rw [Reference.nextParam_digit hsemicolon]
    by_cases hroom : c.paramsPosition < maxCommandParams
    · rw [if_pos hroom, if_pos hdigit]
      refine ⟨(List.length_modify _ _ _).trans hlength, List.cons_ne_nil _ _, ?_, ?_⟩
      · exact hposition
      · intro index hindex
        have hmodified : (({ c with
            params := c.params.modify c.paramsPosition (digit · byte) } : CommandParser).param
              index) = if c.paramsPosition = index then digit (c.param index) byte
                else c.param index := by
          unfold CommandParser.param
          rw [List.getD_eq_getElem?_getD, List.getD_eq_getElem?_getD, List.getElem?_modify,
            List.getElem?_eq_getElem (hlength ▸ hindex)]
          split_ifs <;> rfl
        rw [hmodified, hparam index hindex, arg_cons, arg_cons]
        have hrest : c.paramsPosition = rest.length := by omega
        rw [hrest]
        split_ifs <;> first | rfl | omega | exact digit_min n byte
    · rw [if_neg hroom]
      refine ⟨hlength, List.cons_ne_nil _ _, hposition, fun index hindex => ?_⟩
      rw [hparam index hindex, arg_cons, arg_cons, if_pos (by omega), if_pos (by omega)]

end CommandParser
end Rio.Sixel
