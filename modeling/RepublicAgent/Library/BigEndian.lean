/-
This file encodes natural numbers as big-endian bytes and decodes them.
-/

import Mathlib.Tactic

namespace RepublicAgent.BigEndian

/-- The most significant byte comes first. -/
def encode : Nat → Nat → List UInt8
  | 0, _ => []
  | width + 1, value => UInt8.ofNat (value / 256 ^ width) :: encode width value

@[simp] theorem encode_length (width value : Nat) : (encode width value).length = width := by
  induction width with
  | zero => rfl
  | succ width ih => rw [encode, List.length_cons, ih]

theorem drop_encode {width count : Nat} (past : width ≤ count) (value : Nat) :
    (encode width value).drop count = [] :=
  List.drop_eq_nil_of_le (by rwa [encode_length])

/-- Each byte counts with the number of bytes behind it. -/
def decode : List UInt8 → Nat
  | [] => 0
  | byte :: bytes => 256 ^ bytes.length * byte.toNat + decode bytes

/-- The bytes of an encoding keep the low part of the value. -/
theorem decode_encode (width value : Nat) : decode (encode width value) = value % 256 ^ width := by
  induction width with
  | zero => rw [encode, decode, pow_zero, Nat.mod_one]
  | succ width ih =>
      rw [encode, decode, encode_length, ih, Nat.mod_pow_succ, UInt8.toNat_ofNat', Nat.add_comm]

end RepublicAgent.BigEndian
