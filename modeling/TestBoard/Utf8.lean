import TestBoard.Bytes

/-!
# Python's UTF-8 codec

`decode errors bs` is `bs.decode('utf-8', errors=...)` for the two handlers the scripts use:
`replace` in `parse_results`, `ignore` in the serial controller. The decoder reads one byte at
a time. Between characters a byte is ASCII, a lead byte that opens a sequence (`lead`), or
ill-formed. Inside a sequence the next byte must lie in the range the lead allows
(`Pending.lo`, `Pending.hi`, the ranges of well-formed UTF-8). A byte outside it ends the
sequence as one maximal ill-formed subpart, which the handler replaces by `U+FFFD` or drops,
and it is read again from between characters.

`encode` is `str.encode('utf-8')`. `decode_encode` : decoding an encoding gives the text back,
under either handler. `fe_not_mem_encode` : no encoding holds the byte `0xFE`, a byte of the
end marker.
-/

namespace TestBoard

/-- The `errors=` argument of `bytes.decode`. -/
inductive Errors
  | replace
  | ignore
  deriving DecidableEq, Repr

/-- What the handler writes for one maximal ill-formed subpart. -/
def Errors.emit : Errors → List Char
  | .replace => ['�']
  | .ignore => []

/-- A sequence in progress: its value so far, the continuation bytes it still needs, and the
least and greatest value of the next one. -/
structure Pending where
  acc : Nat
  need : Nat
  lo : Nat
  hi : Nat

/-- A byte read between characters: the characters it gives, and the sequence it opens. -/
def lead (errors : Errors) (b : Byte) : List Char × Option Pending :=
  if b.val < 0x80 then ([Char.ofNat b.val], none)
  else if b.val < 0xC2 then (errors.emit, none)
  else if b.val < 0xE0 then ([], some ⟨b.val - 0xC0, 1, 0x80, 0xBF⟩)
  else if b.val < 0xF0 then
    ([], some ⟨b.val - 0xE0, 2, if b.val = 0xE0 then 0xA0 else 0x80,
      if b.val = 0xED then 0x9F else 0xBF⟩)
  else if b.val < 0xF5 then
    ([], some ⟨b.val - 0xF0, 3, if b.val = 0xF0 then 0x90 else 0x80,
      if b.val = 0xF4 then 0x8F else 0xBF⟩)
  else (errors.emit, none)

/-- The decoder from between characters (`none`) or from inside a sequence. -/
def decodeFrom (errors : Errors) : Option Pending → Bytes → List Char
  | none, [] => []
  | some _, [] => errors.emit
  | none, b :: bs => (lead errors b).1 ++ decodeFrom errors (lead errors b).2 bs
  | some p, b :: bs =>
    if p.lo ≤ b.val ∧ b.val ≤ p.hi then
      if p.need = 1 then Char.ofNat (p.acc * 64 + b.val % 64) :: decodeFrom errors none bs
      else decodeFrom errors (some ⟨p.acc * 64 + b.val % 64, p.need - 1, 0x80, 0xBF⟩) bs
    else errors.emit ++ (lead errors b).1 ++ decodeFrom errors (lead errors b).2 bs

/-- `bs.decode('utf-8', errors=errors)`. -/
def decode (errors : Errors) (bs : Bytes) : String :=
  ⟨decodeFrom errors none bs⟩

/-- The bytes `str.encode('utf-8')` writes for one character. -/
def encodeChar (c : Char) : Bytes :=
  if c.toNat < 0x80 then [Fin.ofNat c.toNat]
  else if c.toNat < 0x800 then [Fin.ofNat (0xC0 + c.toNat / 64), Fin.ofNat (0x80 + c.toNat % 64)]
  else if c.toNat < 0x10000 then
    [Fin.ofNat (0xE0 + c.toNat / 4096), Fin.ofNat (0x80 + c.toNat / 64 % 64),
      Fin.ofNat (0x80 + c.toNat % 64)]
  else
    [Fin.ofNat (0xF0 + c.toNat / 262144), Fin.ofNat (0x80 + c.toNat / 4096 % 64),
      Fin.ofNat (0x80 + c.toNat / 64 % 64), Fin.ofNat (0x80 + c.toNat % 64)]

/-- `s.encode('utf-8')`. -/
def encode (s : String) : Bytes :=
  s.data.flatMap encodeChar

@[simp] theorem encode_mk (cs : List Char) : encode ⟨cs⟩ = cs.flatMap encodeChar := rfl

theorem char_toNat_valid (c : Char) :
    c.toNat < 0xD800 ∨ (0xDFFF < c.toNat ∧ c.toNat < 0x110000) :=
  c.valid

/-! ## Encoded bytes -/

/-- Every encoded byte is at most `0xF4`. -/
theorem encodeChar_le {c : Char} : ∀ b ∈ encodeChar c, b.val ≤ 0xF4 := by
  have := char_toNat_valid c
  unfold encodeChar
  split_ifs <;> simp <;> omega

theorem fe_not_mem_encode (s : String) : (0xFE : Byte) ∉ encode s := by
  intro h
  obtain ⟨c, -, hc⟩ := List.mem_flatMap.mp h
  exact absurd (encodeChar_le _ hc) (by decide)

/-! ## Decoding an encoding -/

section
variable (e : Errors) (bs : Bytes)

theorem decodeFrom_cons (b : Byte) :
    decodeFrom e none (b :: bs) = (lead e b).1 ++ decodeFrom e (lead e b).2 bs := rfl

theorem decodeFrom_last {acc lo hi : Nat} {b : Byte} (hlo : lo ≤ b.val) (hhi : b.val ≤ hi) :
    decodeFrom e (some ⟨acc, 1, lo, hi⟩) (b :: bs) =
      Char.ofNat (acc * 64 + b.val % 64) :: decodeFrom e none bs := by
  simp [decodeFrom, hlo, hhi]

theorem decodeFrom_next {acc need lo hi : Nat} {b : Byte} (hlo : lo ≤ b.val) (hhi : b.val ≤ hi) :
    decodeFrom e (some ⟨acc, need + 2, lo, hi⟩) (b :: bs) =
      decodeFrom e (some ⟨acc * 64 + b.val % 64, need + 1, 0x80, 0xBF⟩) bs := by
  simp [decodeFrom, hlo, hhi]

/-- A two-byte sequence decodes to its scalar value. -/
theorem decodeFrom_two {b0 b1 : Byte} (h0 : 0xC2 ≤ b0.val ∧ b0.val < 0xE0)
    (h1 : 0x80 ≤ b1.val ∧ b1.val ≤ 0xBF) :
    decodeFrom e none (b0 :: b1 :: bs) =
      Char.ofNat ((b0.val - 0xC0) * 64 + b1.val % 64) :: decodeFrom e none bs := by
  simp (disch := omega) only [decodeFrom_cons, lead, if_neg, if_pos, List.nil_append,
    decodeFrom_last]

/-- A three-byte sequence decodes to its scalar value. -/
theorem decodeFrom_three {b0 b1 b2 : Byte} (h0 : 0xE0 ≤ b0.val ∧ b0.val < 0xF0)
    (h1 : (if b0.val = 0xE0 then 0xA0 else 0x80) ≤ b1.val ∧
      b1.val ≤ if b0.val = 0xED then 0x9F else 0xBF)
    (h2 : 0x80 ≤ b2.val ∧ b2.val ≤ 0xBF) :
    decodeFrom e none (b0 :: b1 :: b2 :: bs) =
      Char.ofNat (((b0.val - 0xE0) * 64 + b1.val % 64) * 64 + b2.val % 64) ::
        decodeFrom e none bs := by
  simp (disch := omega) only [decodeFrom_cons, lead, if_neg, if_pos, List.nil_append,
    decodeFrom_next, Nat.zero_add, decodeFrom_last]

/-- A four-byte sequence decodes to its scalar value. -/
theorem decodeFrom_four {b0 b1 b2 b3 : Byte} (h0 : 0xF0 ≤ b0.val ∧ b0.val < 0xF5)
    (h1 : (if b0.val = 0xF0 then 0x90 else 0x80) ≤ b1.val ∧
      b1.val ≤ if b0.val = 0xF4 then 0x8F else 0xBF)
    (h2 : 0x80 ≤ b2.val ∧ b2.val ≤ 0xBF) (h3 : 0x80 ≤ b3.val ∧ b3.val ≤ 0xBF) :
    decodeFrom e none (b0 :: b1 :: b2 :: b3 :: bs) =
      Char.ofNat ((((b0.val - 0xF0) * 64 + b1.val % 64) * 64 + b2.val % 64) * 64 + b3.val % 64) ::
        decodeFrom e none bs := by
  simp (disch := omega) only [decodeFrom_cons, lead, if_neg, if_pos, List.nil_append,
    decodeFrom_next, Nat.zero_add, decodeFrom_last]

/-- The payload bits of a continuation byte `0x80 + x % 64`. -/
theorem continuation_mod (x : Nat) : (0x80 + x % 64) % 256 % 64 = x % 64 := by
  omega

theorem decodeFrom_encodeChar (c : Char) :
    decodeFrom e none (encodeChar c ++ bs) = c :: decodeFrom e none bs := by
  have hv := char_toNat_valid c
  conv_rhs => rw [← Char.ofNat_toNat c]
  unfold encodeChar
  split_ifs with h1 h2 h3
  · simp [decodeFrom_cons, lead, Nat.mod_eq_of_lt (show c.toNat < 256 by omega), h1]
  · rw [List.cons_append, List.cons_append, List.nil_append,
      decodeFrom_two e bs (by simp; omega) (by simp; omega)]
    congr 2
    simp only [ofNat_val, continuation_mod]
    omega
  · rw [List.cons_append, List.cons_append, List.cons_append, List.nil_append,
      decodeFrom_three e bs (by simp; omega) (by simp; split_ifs <;> omega) (by simp; omega)]
    congr 2
    simp only [ofNat_val, continuation_mod]
    omega
  · rw [List.cons_append, List.cons_append, List.cons_append, List.cons_append, List.nil_append,
      decodeFrom_four e bs (by simp; omega) (by simp; split_ifs <;> omega) (by simp; omega)
        (by simp; omega)]
    congr 2
    simp only [ofNat_val, continuation_mod]
    omega

end

/-- Decoding an encoding gives the text back, whatever the handler. -/
theorem decode_encode (e : Errors) (s : String) : decode e (encode s) = s := by
  obtain ⟨cs⟩ := s
  suffices h : decodeFrom e none (cs.flatMap encodeChar) = cs by simp [decode, h]
  induction cs with
  | nil => rfl
  | cons c cs ih => rw [List.flatMap_cons, decodeFrom_encodeChar, ih]

end TestBoard
