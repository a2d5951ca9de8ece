import Mathlib

/-!
# Bytes, fixed-width fields and the end marker

A Python `bytes` or `bytearray` is a list of `Byte`s, and its integer fields are read with
`Byte.val`. `be16` is the telemetry length and number field, `packLe32` and `unpackLe32` the
control channel's `struct` length field (`unpackLe32_le32`).

`endMarker` is `END_MARKER` of the emulation runner, the same eight bytes as the
controller's `TEST_END_MARKER`. Two facts about it carry the sentinel results: no proper
prefix of it is also a suffix (`endMarker_take_not_suffix`), so an occurrence cannot straddle
its own first copy, and `firstMarkerPrefix_append` : the marker appended to bytes that do
not hold it is the first occurrence. `mem_of_infix_append` finds the marker's `0xFE` in
the part of a buffer after a short header.
-/

namespace TestBoard

/-- One element of a Python `bytes` object. -/
abbrev Byte := Fin 256

/-- A Python `bytes` or `bytearray` value. -/
abbrev Bytes := List Byte

@[simp] theorem ofNat_val (n : Nat) : (Fin.ofNat n : Byte).val = n % 256 := rfl

/-- `(hi << 8) | lo`: a big-endian 16-bit field. -/
def be16 (hi lo : Byte) : Nat := hi.val * 256 + lo.val

/-- The four little-endian bytes of `n`. -/
def le32 (n : Nat) : Bytes :=
  [Fin.ofNat n, Fin.ofNat (n / 2 ^ 8), Fin.ofNat (n / 2 ^ 16), Fin.ofNat (n / 2 ^ 24)]

/-- `struct.pack('<I', n)`, or `none` where it raises `struct.error` (`n ≥ 2 ^ 32`). -/
def packLe32 (n : Nat) : Option Bytes :=
  if n < 2 ^ 32 then some (le32 n) else none

/-- `struct.unpack('<I', bytes([b0, b1, b2, b3]))[0]`. -/
def unpackLe32 (b0 b1 b2 b3 : Byte) : Nat :=
  b0.val + 2 ^ 8 * b1.val + 2 ^ 16 * b2.val + 2 ^ 24 * b3.val

theorem packLe32_of_lt {n : Nat} (h : n < 2 ^ 32) : packLe32 n = some (le32 n) :=
  if_pos h

@[simp] theorem le32_length (n : Nat) : (le32 n).length = 4 := rfl

/-- The length field round-trips on every length `struct` accepts. -/
theorem unpackLe32_le32 {n : Nat} (h : n < 2 ^ 32) :
    unpackLe32 (Fin.ofNat n) (Fin.ofNat (n / 2 ^ 8)) (Fin.ofNat (n / 2 ^ 16))
      (Fin.ofNat (n / 2 ^ 24)) = n := by
  simp only [unpackLe32, ofNat_val]
  omega

/-- `END_MARKER` (`TEST_END_MARKER` in the controller). -/
def endMarker : Bytes := [0xDE, 0xAD, 0xBE, 0xEF, 0xCA, 0xFE, 0xBA, 0xBE]

@[simp] theorem endMarker_length : endMarker.length = 8 := rfl

/-- No byte of the marker is a telemetry command code. -/
theorem endMarker_not_code : ∀ b ∈ endMarker, b.val < 100 ∨ 105 < b.val := by
  have h : endMarker.all (fun b => b.val < 100 ∨ 105 < b.val) := by decide
  simpa using h

theorem fe_mem_endMarker_drop {k : Nat} (hk : k ≤ 5) : (0xFE : Byte) ∈ endMarker.drop k := by
  have h : ∀ k ≤ 5, (0xFE : Byte) ∈ endMarker.drop k := by decide
  exact h k hk

/-- The marker does not overlap itself. -/
theorem endMarker_take_not_suffix {j : Nat} (h0 : 0 < j) (h8 : j < 8) :
    ¬endMarker.take j <:+ endMarker := by
  have h : ∀ j < 8, 0 < j → ¬endMarker.take j <:+ endMarker := by decide
  exact h j h8 h0

/-- The shortest prefix of `s` that ends with the marker. -/
def FirstMarkerPrefix (p s : Bytes) : Prop :=
  p <+: s ∧ endMarker <:+ p ∧ ∀ q, q <+: s → endMarker <:+ q → p.length ≤ q.length

theorem FirstMarkerPrefix.unique {p p' s : Bytes} (h : FirstMarkerPrefix p s)
    (h' : FirstMarkerPrefix p' s) : p = p' := by
  have hl : p.length = p'.length := le_antisymm (h.2.2 p' h'.1 h'.2.1) (h'.2.2 p h.1 h.2.1)
  exact (List.prefix_of_prefix_length_le h.1 h'.1 hl.le).eq_of_length hl

/-- A buffer that ends with the marker ends with it at its first occurrence or later. -/
theorem not_suffix_take_append {X : Bytes} (hX : ¬endMarker <:+: X) {n j : Nat} (hj : j < 8) :
    ¬endMarker <:+ X.take n ++ endMarker.take j := by
  intro h
  rcases Nat.eq_zero_or_pos j with rfl | hpos
  · exact hX ((by simpa using h : endMarker <:+ X.take n).isInfix.trans
      (List.take_prefix n X).isInfix)
  · refine endMarker_take_not_suffix hpos hj
      (List.suffix_of_suffix_length_le (List.suffix_append _ _) h ?_)
    simp only [List.length_take, endMarker_length]
    omega

/-- Appending the marker to bytes that do not hold it makes its first occurrence. -/
theorem firstMarkerPrefix_append {X : Bytes} (T : Bytes) (hX : ¬endMarker <:+: X) :
    FirstMarkerPrefix (X ++ endMarker) (X ++ endMarker ++ T) := by
  refine ⟨List.prefix_append _ _, List.suffix_append _ _, fun q hq hm => ?_⟩
  by_contra hlt
  have hq' : q = X.take q.length ++ endMarker.take (q.length - X.length) := by
    conv_lhs => rw [List.prefix_iff_eq_take.mp hq]
    rw [List.append_assoc, List.take_append_eq_append_take,
      List.take_append_of_le_length (by simp at hlt ⊢; omega)]
  rw [hq'] at hm
  exact not_suffix_take_append hX (by simp at hlt; omega) hm

/-- What follows a short header inside an occurrence lies in the rest of the buffer. -/
theorem drop_infix_of_infix_append {u a t : Bytes} (h : u <:+: a ++ t) :
    u.drop a.length <:+: t := by
  obtain ⟨A, B, hAB⟩ := h
  rcases Nat.lt_or_ge u.length a.length with hlt | hle
  · simp [List.drop_eq_nil_of_le hlt.le]
  · have := congrArg (List.drop (A.length + a.length)) hAB
    rw [List.append_assoc, List.drop_append, List.drop_append_of_le_length hle,
      Nat.add_comm, ← List.drop_drop, List.drop_left] at this
    exact ⟨t.take A.length, B, by rw [List.append_assoc, this, List.take_append_drop]⟩

/-- A marker after a header of at most five bytes puts its `0xFE` in the rest. -/
theorem mem_of_infix_append {a t : Bytes} (h : endMarker <:+: a ++ t) (ha : a.length ≤ 5) :
    (0xFE : Byte) ∈ t :=
  (drop_infix_of_infix_append h).subset (fe_mem_endMarker_drop ha)

end TestBoard
