import Mathlib.Tactic

/-! Decoding of Base64 with canonical padding and without padding, and that both decode every
group of four characters on its own. -/
namespace Rio.Base64

/-- The six bits of a character. -/
def sextet (c : UInt8) : Option ℕ :=
  if 0x41 ≤ c ∧ c ≤ 0x5A then some (c.toNat - 0x41)
  else if 0x61 ≤ c ∧ c ≤ 0x7A then some (c.toNat - 0x61 + 26)
  else if 0x30 ≤ c ∧ c ≤ 0x39 then some (c.toNat - 0x30 + 52)
  else if c = 0x2B then some 62
  else if c = 0x2F then some 63
  else none

/-- The bytes of two, three or four characters; the bits that make no byte are zero. -/
def decode2 (a b : UInt8) : Option (List UInt8) := do
  let v := (← sextet a) * 64 + (← sextet b)
  if v % 16 = 0 then some [(v / 16).toUInt8] else none

def decode3 (a b c : UInt8) : Option (List UInt8) := do
  let v := ((← sextet a) * 64 + (← sextet b)) * 64 + (← sextet c)
  if v % 4 = 0 then some [(v / 1024).toUInt8, (v / 4 % 256).toUInt8] else none

def decode4 (a b c d : UInt8) : Option (List UInt8) := do
  let v := (((← sextet a) * 64 + (← sextet b)) * 64 + (← sextet c)) * 64 + (← sextet d)
  some [(v / 65536).toUInt8, (v / 256 % 256).toUInt8, (v % 256).toUInt8]

/-- Decode groups of four characters, and what is left by `tail`. -/
def decodeWith (tail : List UInt8 → Option (List UInt8)) : List UInt8 → Option (List UInt8)
  | a :: b :: c :: d :: e :: rest => do
    let first ← decode4 a b c d
    let others ← decodeWith tail (e :: rest)
    some (first ++ others)
  | last => tail last

/-- The last group, padded to four characters. -/
def paddedTail : List UInt8 → Option (List UInt8)
  | [] => some []
  | [a, b, c, d] =>
    if d = 0x3D then (if c = 0x3D then decode2 a b else decode3 a b c) else decode4 a b c d
  | _ => none

/-- The last group, without padding. -/
def plainTail : List UInt8 → Option (List UInt8)
  | [] => some []
  | [a, b] => decode2 a b
  | [a, b, c] => decode3 a b c
  | [a, b, c, d] => decode4 a b c d
  | _ => none

def decodeStandard : List UInt8 → Option (List UInt8) := decodeWith paddedTail

def decodeNoPad : List UInt8 → Option (List UInt8) := decodeWith plainTail

theorem sextet_padding : sextet 0x3D = none := by decide

theorem paddedTail_of_decode4 {a b c d : UInt8} {bytes : List UInt8}
    (h : decode4 a b c d = some bytes) : paddedTail [a, b, c, d] = some bytes := by
  have hd : d ≠ 0x3D := by
    rintro rfl
    simp [decode4, sextet_padding] at h
  rw [paddedTail, if_neg hd, h]

/-- A decoder that goes by groups of four decodes the two sides of a group boundary on their
own, where its last group may always be a full one. -/
theorem decodeWith_append (tail : List UInt8 → Option (List UInt8)) (hnil : tail [] = some [])
    (hfull : ∀ {a b c d bytes}, decode4 a b c d = some bytes → tail [a, b, c, d] = some bytes)
    {y : List UInt8} (hy : y ≠ []) : ∀ {x : List UInt8} {bytes : List UInt8},
    4 ∣ x.length → decodeWith tail (x ++ y) = some bytes →
      ∃ dx dy, decodeWith tail x = some dx ∧ decodeWith tail y = some dy ∧ bytes = dx ++ dy
  | [], bytes, _, h => ⟨[], bytes, hnil, h, rfl⟩
  | [a], _, hlen, _ => by norm_num at hlen
  | [a, b], _, hlen, _ => by norm_num at hlen
  | [a, b, c], _, hlen, _ => by norm_num at hlen
  | a :: b :: c :: d :: x, bytes, hlen, h => by
    have hlen' : 4 ∣ x.length := by
      simp only [List.length_cons] at hlen
      omega
    obtain ⟨e, rest, hrest⟩ : ∃ e rest, x ++ y = e :: rest :=
      List.exists_cons_of_ne_nil (List.append_ne_nil_of_right_ne_nil x hy)
    simp only [List.cons_append, hrest, decodeWith, Option.bind_eq_bind,
      Option.bind_eq_some_iff, Option.some.injEq] at h
    obtain ⟨first, hfirst, others, hothers, rfl⟩ := h
    rw [← hrest] at hothers
    obtain ⟨dx, dy, hx, hdy, rfl⟩ := decodeWith_append tail hnil hfull hy hlen' hothers
    refine ⟨first ++ dx, dy, ?_, hdy, (List.append_assoc _ _ _).symm⟩
    cases x with
    | nil =>
      have hdx : dx = [] := by
        have : decodeWith tail [] = tail [] := rfl
        rw [this, hnil] at hx
        exact (Option.some.inj hx).symm
      rw [hdx, List.append_nil]
      exact hfull hfirst
    | cons e' x =>
      simp only [decodeWith, Option.bind_eq_bind, hfirst, hx, Option.bind_some]

theorem decodeStandard_append {x y bytes : List UInt8} (hx : 4 ∣ x.length) (hy : y ≠ [])
    (h : decodeStandard (x ++ y) = some bytes) :
    ∃ dx dy, decodeStandard x = some dx ∧ decodeStandard y = some dy ∧ bytes = dx ++ dy :=
  decodeWith_append paddedTail rfl paddedTail_of_decode4 hy hx h

theorem decodeNoPad_append {x y bytes : List UInt8} (hx : 4 ∣ x.length) (hy : y ≠ [])
    (h : decodeNoPad (x ++ y) = some bytes) :
    ∃ dx dy, decodeNoPad x = some dx ∧ decodeNoPad y = some dy ∧ bytes = dx ++ dy :=
  decodeWith_append plainTail rfl (fun h => h) hy hx h

/-- Where both decoders decode, they agree. -/
theorem decodeStandard_agree : ∀ {x bytes bytes' : List UInt8},
    decodeStandard x = some bytes → decodeNoPad x = some bytes' → bytes = bytes'
  | [], _, _, h, h' => Option.some.inj (h.symm.trans h')
  | [_], _, _, h, _ => by simp [decodeStandard, decodeWith, paddedTail] at h
  | [_, _], _, _, h, _ => by simp [decodeStandard, decodeWith, paddedTail] at h
  | [_, _, _], _, _, h, _ => by simp [decodeStandard, decodeWith, paddedTail] at h
  | [a, b, c, d], bytes, bytes', h, h' => by
    have hfull : decodeStandard [a, b, c, d] = some bytes' := paddedTail_of_decode4 h'
    exact Option.some.inj (h.symm.trans hfull)
  | a :: b :: c :: d :: e :: rest, bytes, bytes', h, h' => by
    simp only [decodeStandard, decodeNoPad, decodeWith, Option.bind_eq_bind,
      Option.bind_eq_some_iff, Option.some.injEq] at h h'
    obtain ⟨first, hfirst, others, hothers, rfl⟩ := h
    obtain ⟨first', hfirst', others', hothers', rfl⟩ := h'
    rw [Option.some.inj (hfirst.symm.trans hfirst'), decodeStandard_agree hothers hothers']

end Rio.Base64
