import Rio.Sixel.Canvas

/-! Every picture of the sixel parser is a part of what the same bytes draw on an unbounded
canvas, and when its sizes never decrease. -/

set_option linter.dupNamespace false

namespace Rio.Sixel
open Rio.Checked Rio.Raster

variable {hls : ℕ → ℕ → ℕ → ColorRgb}

/-! ### Drawing a sixel -/

theorem lt_height_of_testBit {sixel position : ℕ} (h : sixel.testBit position = true) :
    position < height sixel := by
  have hge := Nat.ge_two_pow_of_testBit h
  have hpos := (Nat.two_pow_pos position).trans_le hge
  unfold height
  rw [if_neg hpos.ne']
  exact Nat.lt_succ_of_le ((Nat.le_log2 hpos.ne').mpr hge)

/-- A position in the middle of one row is in no other. -/
theorem row_eq {stride x y px py repeatCount : ℕ} (hx : x + repeatCount ≤ stride)
    (hpx : px < stride) :
    (y * stride + x ≤ py * stride + px ∧ py * stride + px < y * stride + x + repeatCount) ↔
      py = y ∧ x ≤ px ∧ px < x + repeatCount := by
  obtain hlt | rfl | hgt := Nat.lt_trichotomy py y
  · have habove : (py + 1) * stride ≤ y * stride := Nat.mul_le_mul_right stride hlt
    rw [Nat.succ_mul] at habove
    omega
  · omega
  · have hbelow : (y + 1) * stride ≤ py * stride := Nat.mul_le_mul_right stride hgt
    rw [Nat.succ_mul] at hbelow
    omega

namespace Parser
variable {p q : Parser} {r : Reference}

/-- The dots of the first positions. -/
theorem drawDots_rows (hlength : p.pixels.length = p.width * p.height) {sixel repeatCount : ℕ}
    (hx : p.x + repeatCount ≤ p.width) (hy : p.y + Sixel.height sixel ≤ p.height) (n : ℕ) :
    ∃ pixels, (List.range n).foldlM
        (fun pixels position =>
          if sixel.testBit position then
            overwrite pixels (p.width * p.y + p.x + position * p.width)
              (List.replicate repeatCount p.selectedColorRegister)
          else .ok pixels)
        p.pixels = (.ok pixels : Outcome (List ℕ)) ∧
      pixels.length = p.pixels.length ∧
      ∀ x < p.width, ∀ y, pixels[y * p.width + x]? =
        if p.x ≤ x ∧ x < p.x + repeatCount ∧ p.y ≤ y ∧ y < p.y + n ∧ sixel.testBit (y - p.y) then
          some p.selectedColorRegister
        else p.pixels[y * p.width + x]? := by
  induction n with
  | zero =>
    refine ⟨p.pixels, rfl, rfl, fun x _ y => ?_⟩
    rw [if_neg (by omega)]
  | succ n ih =>
    obtain ⟨before, hbefore, hlen, hget⟩ := ih
    by_cases hdot : sixel.testBit n = true
    · have hrow := lt_height_of_testBit hdot
      have hindex : p.width * p.y + p.x + n * p.width = (p.y + n) * p.width + p.x := by ring
      have hroom : (p.y + n + 1) * p.width ≤ p.height * p.width :=
        Nat.mul_le_mul_right p.width (by omega)
      have hall : before.length = p.height * p.width :=
        (hlen.trans hlength).trans (Nat.mul_comm _ _)
      rw [Nat.succ_mul] at hroom
      obtain ⟨pixels, hwrite, hlen', hget'⟩ := overwrite_of_le before
        (List.replicate repeatCount p.selectedColorRegister) ((p.y + n) * p.width + p.x)
        (by rw [List.length_replicate]; omega)
      refine ⟨pixels, ?_, hlen'.trans hlen, fun x hxw y => ?_⟩
      · rw [List.range_succ, List.foldlM_append, hbefore, ok_bind, List.foldlM_cons, if_pos hdot,
          hindex, hwrite]
        rfl
      · rw [hget', List.length_replicate, hget x hxw y]
        by_cases hhere : y = p.y + n ∧ p.x ≤ x ∧ x < p.x + repeatCount
        · rw [if_pos ((row_eq hx hxw).mpr hhere), List.getElem?_replicate,
            if_pos (by have := (row_eq hx hxw).mpr hhere; omega), if_pos]
          obtain ⟨rfl, hleft, hright⟩ := hhere
          rw [Nat.add_sub_cancel_left]
          exact ⟨hleft, hright, Nat.le_add_right _ _, by omega, hdot⟩
        · rw [if_neg (fun hrange => hhere ((row_eq hx hxw).mp hrange))]
          refine if_congr ?_ rfl rfl
          exact and_congr_right fun _ => and_congr_right fun _ => and_congr_right fun _ =>
            and_congr_left' (by omega)
    · refine ⟨before, ?_, hlen, fun x hxw y => ?_⟩
      · rw [List.range_succ, List.foldlM_append, hbefore, ok_bind, List.foldlM_cons, if_neg hdot]
        rfl
      · rw [hget x hxw y]
        refine if_congr ?_ rfl rfl
        -- the position that is not a dot adds nothing
        refine and_congr_right fun _ => and_congr_right fun _ => and_congr_right fun hle =>
          ⟨fun h => ⟨by omega, h.2⟩, fun h => ⟨?_, h.2⟩⟩
        by_contra hnot
        have hyn : y - p.y = n := by omega
        rw [hyn] at h
        exact hdot h.2

theorem drawDots_pictures {canvas : ℕ → ℕ → Option ℕ} (h : p.Pictures canvas)
    {sixel repeatCount : ℕ} (hx : p.x + repeatCount ≤ p.width)
    (hy : p.y + Sixel.height sixel ≤ p.height) :
    Holds (fun pixels => { p with pixels := pixels, x := p.x + repeatCount }.Pictures fun x y =>
      if p.x ≤ x ∧ x < p.x + repeatCount ∧ p.y ≤ y ∧ y < p.y + 6 ∧ sixel.testBit (y - p.y) then
        some p.selectedColorRegister
      else canvas x y) (checked (p.drawDots sixel repeatCount)) := by
  obtain ⟨pixels, hdraw, hlength, hget⟩ := drawDots_rows h.length hx hy 6
  have hdots : ∃ pixels, p.drawDots sixel repeatCount = .ok pixels ∧
      pixels.length = p.pixels.length ∧ ∀ x < p.width, ∀ y, pixels[y * p.width + x]? =
        if p.x ≤ x ∧ x < p.x + repeatCount ∧ p.y ≤ y ∧ y < p.y + 6 ∧ sixel.testBit (y - p.y) then
          some p.selectedColorRegister
        else p.pixels[y * p.width + x]? := by
    unfold drawDots
    by_cases hzero : sixel = 0
    · rw [if_pos hzero]
      refine ⟨p.pixels, rfl, rfl, fun x _ y => ?_⟩
      rw [hzero, Nat.zero_testBit, if_neg (by simp)]
    · rw [if_neg hzero]
      exact ⟨pixels, hdraw, hlength, hget⟩
  obtain ⟨pixels, hdraw, hlength, hget⟩ := hdots
  rw [hdraw]
  refine ⟨hlength.trans h.length, h.width_le, h.height_le, fun x hxw y hyh => ?_,
    fun x y hdrawn => ?_⟩
  · dsimp only at hxw hyh ⊢
    rw [hget x hxw y, h.pixels x hxw y hyh]
    split_ifs <;> rfl
  · dsimp only at hdrawn ⊢
    split_ifs at hdrawn with hdot
    · obtain ⟨-, hright, hle, -, hbit⟩ := hdot
      have hrow := lt_height_of_testBit hbit
      omega
    · exact h.drawn x y hdrawn

end Parser

/-! ### One byte -/

/-- The active command with its parameters. -/
inductive Follows : Option CommandParser → Option (SixelCommand × List ℕ) → Prop
  | none : Follows none none
  | some {c : CommandParser} {params : List ℕ} (h : c.Has params) :
    Follows (some c) (some (c.command, params))

namespace Parser
variable {p q : Parser} {background : ℕ} {r : Reference}

/-- The parser is where the reference is, with its picture a part of the canvas. -/
structure Refines (p : Parser) (background : ℕ) (r : Reference) : Prop where
  pictures : p.Pictures r.canvas
  background : p.background = background
  command : Follows p.commandParser r.active
  x : p.x = r.x
  y : p.y = r.y
  repeatCount : p.repeatCount = r.repeatCount
  color : p.selectedColorRegister = r.color

theorem setColorRegister_eq (p : Parser) (register : ℕ) (color : ColorRgb) :
    ∃ colorRegisters, p.setColorRegister register color =
      { p with colorRegisters := colorRegisters } := by
  unfold setColorRegister
  split_ifs
  · exact ⟨p.colorRegisters, rfl⟩
  · exact ⟨_, rfl⟩
  · exact ⟨_, rfl⟩

theorem definedColor_holds (c : CommandParser) : Holds (fun _ => True) (c.definedColor hls) := by
  have hcomponent (index limit : ℕ) : Holds (fun _ => True) (c.component index limit) := by
    unfold CommandParser.component
    split_ifs
    · exact trivial
    · exact trivial
  unfold CommandParser.definedColor
  split_ifs
  · exact trivial
  · exact (hcomponent 2 360).bind fun _ _ _ => (hcomponent 3 100).bind fun _ _ _ =>
      (hcomponent 4 100).bind fun _ _ _ => trivial
  · exact (hcomponent 2 100).bind fun _ _ _ => (hcomponent 3 100).bind fun _ _ _ =>
      (hcomponent 4 100).bind fun _ _ _ => trivial
  · exact trivial

theorem isParam_iff (byte : UInt8) :
    isParam byte = true ↔ (0x30 ≤ byte ∧ byte ≤ 0x39) ∨ byte = 0x3B := by
  unfold isParam
  rw [Bool.or_eq_true, Bool.and_eq_true, decide_eq_true_iff, decide_eq_true_iff, beq_iff_eq]

theorem isSixel_iff (byte : UInt8) : isSixel byte = true ↔ 0x3F ≤ byte ∧ byte ≤ 0x7E := by
  unfold isSixel
  rw [Bool.and_eq_true, decide_eq_true_iff, decide_eq_true_iff]

/-- A byte that starts a command is neither part of a parameter nor a sixel. -/
theorem commandOf_eq_some {byte : UInt8} {command : SixelCommand}
    (h : commandOf byte = some command) : isParam byte = false ∧ isSixel byte = false := by
  unfold commandOf at h
  split_ifs at h with h₁ h₂ h₃ h₄ h₅
  · subst h₁
    exact ⟨rfl, rfl⟩
  · subst h₂
    exact ⟨rfl, rfl⟩
  · subst h₃
    exact ⟨rfl, rfl⟩
  · subst h₄
    exact ⟨rfl, rfl⟩
  · subst h₅
    exact ⟨rfl, rfl⟩

theorem Pictures.of_same {canvas : ℕ → ℕ → Option ℕ} (h : p.Pictures canvas)
    (hwidth : q.width = p.width) (hheight : q.height = p.height) (hpixels : q.pixels = p.pixels)
    (hbackground : q.background = p.background) : q.Pictures canvas where
  length := by rw [hpixels, hwidth, hheight, h.length]
  width_le := hwidth ▸ h.width_le
  height_le := hheight ▸ h.height_le
  pixels := by
    rw [hwidth, hheight, hpixels, hbackground]
    exact h.pixels
  drawn := by
    rw [hwidth, hheight]
    exact h.drawn

theorem Resizes.refines {asked : ℕ × ℕ} (h : p.Refines background r)
    (hresizes : p.Resizes r.canvas asked q) : q.Refines background r := by
  have hsame := hresizes.same
  unfold SameState at hsame
  refine ⟨hresizes.pictures, ?_, ?_, ?_, ?_, ?_, ?_⟩
  · rw [hsame]
    exact h.background
  · rw [hsame]
    exact h.command
  · rw [hsame]
    exact h.x
  · rw [hsame]
    exact h.y
  · rw [hsame]
    exact h.repeatCount
  · rw [hsame]
    exact h.color

theorem finishCommand_refines (h : p.Refines background r) :
    Holds (fun q => q.Refines background r.finish ∧ q.size = r.commandAsks.foldl fit p.size)
      (p.finishCommand hls) := by
  obtain ⟨hpictures, hbackground, hcommand, hx, hy, hrepeat, hcolor⟩ := h
  unfold finishCommand Reference.finish Reference.commandAsks
  generalize hp : p.commandParser = commandParser at hcommand ⊢
  generalize hr : r.active = active at hcommand ⊢
  cases hcommand with
  | none =>
    refine ⟨⟨hpictures, hbackground, ?_, hx, hy, hrepeat, hcolor⟩, rfl⟩
    rw [hp, hr]
    exact .none
  | @some c params hhas =>
    have harg (index : ℕ) (hindex : index < maxCommandParams) := hhas.param index hindex
    dsimp only
    unfold finish
    cases hkind : c.command with
    | repeatIntroducer =>
      exact ⟨⟨hpictures.of_same rfl rfl rfl rfl, hbackground, .none, hx, hy, harg 0 (by decide),
        hcolor⟩, rfl⟩
    | setRasterAttributes =>
      dsimp only
      have hgiven : 3 ≤ c.paramsPosition ↔ 3 < params.length := by
        rw [hhas.position]
        unfold maxCommandParams
        omega
      have hcleared : ({ p with commandParser := none } : Parser).Refines background
          { r with active := none } :=
        ⟨hpictures.of_same rfl rfl rfl rfl, hbackground, .none, hx, hy, hrepeat, hcolor⟩
      by_cases hlength : 3 < params.length
      · rw [if_pos (hgiven.mpr hlength), if_pos hlength, ← harg 2 (by decide),
          ← harg 3 (by decide)]
        exact (ensureSize_resizes hcleared.pictures _ _).mono fun q hq =>
          ⟨hq.refines hcleared, hq.size⟩
      · rw [if_neg (mt hgiven.mp hlength), if_neg hlength]
        exact ⟨hcleared, rfl⟩
    | colorIntroducer =>
      refine (definedColor_holds c).bind fun color _ _ => ?_
      have hcolored : ∃ colorRegisters,
          (color.map (({ p with commandParser := none } : Parser).setColorRegister
            (c.param 0))).getD { p with commandParser := none } =
          { p with commandParser := none, colorRegisters := colorRegisters } := by
        cases color with
        | none => exact ⟨p.colorRegisters, rfl⟩
        | some color => exact setColorRegister_eq _ _ _
      obtain ⟨colorRegisters, hcolored⟩ := hcolored
      dsimp only
      rw [hcolored]
      exact ⟨⟨hpictures.of_same rfl rfl rfl rfl, hbackground, .none, hx, hy, hrepeat,
        harg 0 (by decide)⟩, rfl⟩
    | carriageReturn =>
      exact ⟨⟨hpictures.of_same rfl rfl rfl rfl, hbackground, .none, rfl, hy, hrepeat, hcolor⟩,
        rfl⟩
    | nextLine =>
      exact ⟨⟨hpictures.of_same rfl rfl rfl rfl, hbackground, .none, rfl,
        congrArg (· + 6) hy, hrepeat, hcolor⟩, rfl⟩

theorem addSixel_refines (h : p.Refines background r) (sixel : ℕ) :
    Holds (fun q => q.Refines background (r.finish.draw sixel) ∧
        q.size = (r.commandAsks ++ [(r.finish.x + max 1 r.finish.repeatCount,
          r.finish.y + Sixel.height sixel)]).foldl fit p.size)
      (p.addSixel hls sixel) := by
  unfold addSixel
  refine (finishCommand_refines h).bind fun q _ hq => ?_
  obtain ⟨hq, hsize⟩ := hq
  have htaken : ({ q with repeatCount := 0 } : Parser).Refines background
      { r.finish with repeatCount := 0 } :=
    ⟨hq.pictures.of_same rfl rfl rfl rfl, hq.background, hq.command, hq.x, hq.y, rfl, hq.color⟩
  refine (ensureSize_resizes htaken.pictures _ _).bind fun q' _ hq' => ?_
  have hrefines := hq'.refines htaken
  have hsize' : q'.size = (r.commandAsks ++ [(r.finish.x + max 1 r.finish.repeatCount,
      r.finish.y + Sixel.height sixel)]).foldl fit p.size := by
    rw [List.foldl_append, ← hsize, ← hq.x, ← hq.y, ← hq.repeatCount]
    exact hq'.size
  have henough : q.x + max 1 q.repeatCount ≤ q'.width ∧ q.y + Sixel.height sixel ≤ q'.height := by
    have hle := le_fit ({ q with repeatCount := 0 } : Parser).size
      (q.x + max 1 q.repeatCount, q.y + Sixel.height sixel)
    rw [← hq'.size] at hle
    exact hle
  have hx : q'.x = q.x := hrefines.x.trans hq.x.symm
  have hy : q'.y = q.y := hrefines.y.trans hq.y.symm
  refine (drawDots_pictures hrefines.pictures (hx ▸ henough.1) (hy ▸ henough.2)).bind
    fun pixels _ hpictures => ?_
  refine ⟨⟨?_, hrefines.background, hrefines.command, ?_, hrefines.y, hrefines.repeatCount,
    hrefines.color⟩, hsize'⟩
  · rw [hrefines.x, hrefines.y, hrefines.color, hq.repeatCount] at hpictures
    exact hpictures.of_same rfl rfl rfl rfl
  · dsimp only
    rw [hrefines.x, hq.repeatCount]
    rfl

/-- What one byte does. -/
theorem put_refines (h : p.Refines background r) (byte : UInt8) :
    Holds (fun q => q.Refines background (r.step byte) ∧ q.size = (r.asks byte).foldl fit p.size)
      (p.put hls byte) := by
  have hparam := isParam_iff byte
  have hsixel := isSixel_iff byte
  unfold put Reference.step
  cases hcommand : commandOf byte with
  | some command =>
    obtain ⟨hnotParam, hnotSixel⟩ := commandOf_eq_some hcommand
    refine (finishCommand_refines h).bind fun q _ hq => ?_
    obtain ⟨hq, hsize⟩ := hq
    refine ⟨⟨hq.pictures.of_same rfl rfl rfl rfl, hq.background, .some (CommandParser.new_has _),
      hq.x, hq.y, hq.repeatCount, hq.color⟩, ?_⟩
    unfold Reference.asks
    rw [hnotParam, hnotSixel]
    exact hsize
  | none =>
    dsimp only
    unfold Reference.asks
    by_cases hbyte : isParam byte = true
    · rw [if_pos (hparam.mp hbyte), if_pos hbyte, if_pos hbyte]
      refine ⟨⟨h.pictures.of_same rfl rfl rfl rfl, h.background, ?_, h.x, h.y, h.repeatCount,
        h.color⟩, rfl⟩
      have hfollows := h.command
      dsimp only
      generalize p.commandParser = commandParser at hfollows ⊢
      generalize r.active = active at hfollows ⊢
      cases hfollows with
      | none => exact .none
      | some hhas =>
        have hput := Follows.some (hhas.put hbyte)
        rw [CommandParser.put_command] at hput
        exact hput
    rw [if_neg (mt hparam.mpr hbyte), if_neg hbyte, if_neg hbyte]
    by_cases hdots : isSixel byte = true
    · rw [if_pos (hsixel.mp hdots), if_pos hdots, if_pos hdots]
      exact addSixel_refines h _
    · rw [if_neg (mt hsixel.mpr hdots), if_neg hdots, if_neg hdots]
      exact finishCommand_refines h

/-- What the bytes do. -/
theorem feed_refines (h : p.Refines background r) (bytes : List UInt8) :
    Holds (fun q => q.Refines background (bytes.foldl Reference.step r) ∧
      q.size = (r.asked bytes).foldl fit p.size) (p.feed hls bytes) := by
  induction bytes generalizing p r with
  | nil => exact ⟨h, rfl⟩
  | cons byte bytes ih =>
    refine (put_refines h byte).bind fun q _ hq => ?_
    refine (ih hq.1).mono fun q' hq' => ⟨hq'.1, ?_⟩
    unfold Reference.asked
    rw [List.foldl_append, ← hq.2]
    exact hq'.2

/-! ### Sizes that never decrease -/

/-- The parser after the command that a byte ends, before the byte draws anything. -/
def midway (hls : ℕ → ℕ → ℕ → ColorRgb) (p : Parser) (byte : UInt8) : Result Parser :=
  if isParam byte then .ok p else p.finishCommand hls

/-- No byte makes the picture narrower or less high, neither by the command that it ends nor by
what it draws. -/
def NeverDecreases (hls : ℕ → ℕ → ℕ → ColorRgb) : Parser → List UInt8 → Prop
  | _, [] => True
  | p, byte :: bytes => ∀ q p', p.midway hls byte = .ok q → p.put hls byte = .ok p' →
    p.size ≤ q.size ∧ q.size ≤ p'.size ∧ p'.NeverDecreases hls bytes

/-- No error is reported for the bytes. -/
def Accepts (hls : ℕ → ℕ → ℕ → ColorRgb) (start : Parser) (bytes : List UInt8) : Prop :=
  ∀ e, start.feed hls bytes = .error e → ∃ fault, e = .fault fault

/-- The bytes are read without a write out of bounds, give the pixels of the unbounded canvas on the
background of the start, and do not make the picture smaller. -/
structure Faithful (hls : ℕ → ℕ → ℕ → ColorRgb) (start : Parser) (bytes : List UInt8) : Prop where
  inBounds : ∀ fault, start.feed hls bytes ≠ .error (.fault fault)
  picture : ∀ p, start.feed hls bytes = .ok p →
    p.background = start.background ∧ p.Pictures (Reference.run bytes).canvas
  neverDecreases : start.NeverDecreases hls bytes

theorem rises_commandAsks (size : ℕ × ℕ) :
    Rises size r.commandAsks ↔ size ≤ r.commandAsks.foldl fit size := by
  unfold Reference.commandAsks
  cases r.active with
  | none => exact iff_of_true trivial le_rfl
  | some active =>
    obtain ⟨command, params⟩ := active
    cases command with
    | setRasterAttributes =>
      dsimp only
      by_cases hlength : 3 < params.length
      · rw [if_pos hlength]
        exact and_iff_left trivial
      · rw [if_neg hlength]
        exact iff_of_true trivial le_rfl
    | repeatIntroducer => exact iff_of_true trivial le_rfl
    | colorIntroducer => exact iff_of_true trivial le_rfl
    | carriageReturn => exact iff_of_true trivial le_rfl
    | nextLine => exact iff_of_true trivial le_rfl

/-- A byte first ends the active command. -/
theorem put_eq_midway_bind (hls : ℕ → ℕ → ℕ → ColorRgb) (p : Parser) (byte : UInt8) :
    ∃ rest, p.put hls byte = p.midway hls byte >>= rest := by
  have hparam := isParam_iff byte
  unfold put midway
  cases hcommand : commandOf byte with
  | some command =>
    rw [(commandOf_eq_some hcommand).1]
    exact ⟨_, rfl⟩
  | none =>
    dsimp only
    by_cases hbyte : isParam byte = true
    · rw [if_pos (hparam.mp hbyte), if_pos hbyte]
      exact ⟨fun p => .ok { p with commandParser := p.commandParser.map (·.put byte) }, rfl⟩
    rw [if_neg (mt hparam.mpr hbyte), if_neg hbyte]
    split_ifs
    · exact ⟨_, rfl⟩
    · exact ⟨.ok, (bind_pure _).symm⟩

theorem midway_size (h : p.Refines background r) {byte : UInt8} {p' : Parser}
    (hq : p.midway hls byte = .ok q) (hp' : p.put hls byte = .ok p') :
    (p.size ≤ q.size ∧ q.size ≤ p'.size) ↔ Rises p.size (r.asks byte) := by
  have hsize := ((put_refines h byte).ok hp').2
  unfold midway at hq
  unfold Reference.asks at hsize ⊢
  by_cases hbyte : isParam byte = true
  · rw [if_pos hbyte] at hq hsize ⊢
    cases hq
    exact iff_of_true ⟨le_rfl, hsize.ge⟩ trivial
  rw [if_neg hbyte] at hq hsize ⊢
  have hmidway := ((finishCommand_refines h).ok hq).2
  by_cases hdots : isSixel byte = true
  · rw [if_pos hdots, List.foldl_append, ← hmidway] at hsize
    rw [if_pos hdots, rises_append, rises_commandAsks, ← hmidway, hsize]
    exact and_congr_right fun _ => (and_iff_left trivial).symm
  · rw [if_neg hdots, ← hmidway] at hsize
    rw [if_neg hdots, rises_commandAsks, ← hmidway, hsize]
    exact and_iff_left le_rfl

theorem neverDecreases_iff (h : p.Refines background r) {bytes : List UInt8}
    (hfeed : p.feed hls bytes = .ok q) :
    p.NeverDecreases hls bytes ↔ Rises p.size (r.asked bytes) := by
  induction bytes generalizing p r with
  | nil => exact iff_of_true trivial trivial
  | cons byte bytes ih =>
    obtain ⟨p', hp', hfeed⟩ := Sixel.ok_of_bind (hfeed : p.put hls byte >>= _ = _)
    obtain ⟨rest, hrest⟩ := put_eq_midway_bind hls p byte
    obtain ⟨m, hm, -⟩ := Sixel.ok_of_bind (hrest.symm.trans hp')
    have hput := (put_refines h byte).ok hp'
    have hrest' := ih hput.1 hfeed
    have hsize := midway_size h hm hp'
    unfold NeverDecreases Reference.asked
    rw [rises_append, ← hput.2, ← hrest', ← hsize, and_assoc]
    constructor
    · exact fun hall => hall m p' hm hp'
    · intro hone q' p'' hq' hp''
      cases hm.symm.trans hq'
      cases hp'.symm.trans hp''
      exact hone

theorem initColorRegisters_eq (p : Parser) :
    ∃ colorRegisters, p.initColorRegisters = { p with colorRegisters := colorRegisters } := by
  unfold initColorRegisters
  generalize List.zipIdx _ = entries
  induction entries generalizing p with
  | nil => exact ⟨p.colorRegisters, rfl⟩
  | cons entry entries ih =>
    obtain ⟨colorRegisters, hset⟩ := setColorRegister_eq p entry.2 entry.1
    rw [List.foldl_cons, hset]
    exact ih _

/-- A new parser has an empty picture. -/
theorem new_refines (params : List (List ℕ)) (sharedPalette : Option (List ColorRgb)) :
    (new params sharedPalette).Refines (new params sharedPalette).background {} ∧
      (new params sharedPalette).size = (0, 0) := by
  have hnew : ∃ background colorRegisters, new params sharedPalette =
      { background := background, colorRegisters := colorRegisters } := by
    unfold new
    cases sharedPalette with
    | some colorRegisters => exact ⟨_, colorRegisters, rfl⟩
    | none =>
      obtain ⟨colorRegisters, hinit⟩ := initColorRegisters_eq
        { background := if ((params[1]?).bind List.head?).getD 0 = 1 then regTransparent else 0 }
      exact ⟨_, colorRegisters, hinit⟩
  obtain ⟨background, colorRegisters, hnew⟩ := hnew
  rw [hnew]
  refine ⟨⟨⟨rfl, Nat.zero_le _, Nat.zero_le _, ?_, ?_⟩, rfl, .none, rfl, rfl, rfl, rfl⟩, rfl⟩
  · exact fun x hx => (Nat.not_lt_zero x hx).elim
  · exact fun x y hdrawn => absurd rfl hdrawn

/-- The picture is the one of the unbounded canvas and never gets smaller, if the sizes that are
asked for until one has an area can be compared with each other. -/
theorem faithful_iff (hls : ℕ → ℕ → ℕ → ColorRgb) (params : List (List ℕ))
    (sharedPalette : Option (List ColorRgb)) (bytes : List UInt8)
    (h : (new params sharedPalette).Accepts hls bytes) :
    (new params sharedPalette).Faithful hls bytes ↔
      (untilArea (Reference.asked {} bytes)).Pairwise Comparable := by
  obtain ⟨hstart, hempty⟩ := new_refines params sharedPalette
  have hrun : Holds _ ((new params sharedPalette).feed hls bytes) := feed_refines hstart bytes
  obtain ⟨p, hp⟩ : ∃ p, (new params sharedPalette).feed hls bytes = .ok p := by
    cases hfeed : (new params sharedPalette).feed hls bytes with
    | ok p => exact ⟨p, rfl⟩
    | error e =>
      obtain ⟨fault, rfl⟩ := h e hfeed
      exact absurd hfeed (hrun.not_fault fault)
  have hzero (a : ℕ × ℕ) : Comparable (0, 0) a := .inl ⟨Nat.zero_le _, Nat.zero_le _⟩
  have hrises := neverDecreases_iff hstart hp
  rw [hempty, rises_iff rfl] at hrises
  constructor
  · exact fun hfaithful => (hrises.mp hfaithful.neverDecreases).2
  · intro hpairs
    refine ⟨hrun.not_fault, fun p' hp' => ?_, hrises.mpr ⟨fun a _ => hzero a, hpairs⟩⟩
    have hrefines := (hrun.ok hp').1
    exact ⟨hrefines.background, hrefines.pictures⟩

theorem accepts_of_ok {start p : Parser} {bytes : List UInt8}
    (h : start.feed hls bytes = .ok p) : start.Accepts hls bytes := by
  intro e he
  cases h.symm.trans he

/-- A raster of four by three, and a full sixel on it. -/
theorem faithful_raster : (new [] none).Faithful (fun _ _ _ => ⟨0, 0, 0⟩)
    [0x22, 0x31, 0x3B, 0x31, 0x3B, 0x34, 0x3B, 0x33, 0x7E] :=
  (faithful_iff _ [] none _ (accepts_of_ok rfl)).mpr (by decide)

/-- Two blank sixels are wider than one with dots at the start of their line. -/
theorem narrows_blank : (new [] none).Accepts (fun _ _ _ => ⟨0, 0, 0⟩) [0x3F, 0x3F, 0x24, 0x7E] ∧
    ¬(new [] none).Faithful (fun _ _ _ => ⟨0, 0, 0⟩) [0x3F, 0x3F, 0x24, 0x7E] := by
  refine ⟨accepts_of_ok rfl, fun h => ?_⟩
  have hrises := (neverDecreases_iff (new_refines [] none).1 rfl).mp h.neverDecreases
  exact absurd hrises.2.2.1.1 (by decide)

end Parser
end Rio.Sixel
