/-
This file fixes the conversions of C arithmetic to a fixed-width integer type.
-/

import Mathlib.Tactic

namespace RepublicAgent.MachineInteger

/-- A conversion to an unsigned type keeps the residue of the value. -/
def unsigned (width : Nat) (value : Int) : Nat := (value % 2 ^ width).toNat

/-- A conversion to a signed type keeps the balanced residue of the value. -/
def signed (width : Nat) (value : Int) : Int := value.bmod (2 ^ width)

abbrev u16 (value : Int) : Nat := unsigned 16 value

abbrev u32 (value : Int) : Nat := unsigned 32 value

abbrev s32 (value : Int) : Int := signed 32 value

abbrev s64 (value : Int) : Int := signed 64 value

theorem unsigned_lt (width : Nat) (value : Int) : unsigned width value < 2 ^ width := by
  have positive : (0 : Int) < 2 ^ width := by positivity
  have upper := Int.emod_lt_of_pos value positive
  have lower := Int.emod_nonneg value (ne_of_gt positive)
  unfold unsigned
  have cast : ((2 ^ width : Nat) : Int) = (2 : Int) ^ width := by push_cast; rfl
  omega

/-- An unsigned conversion is exact precisely on the range of its type. -/
theorem unsigned_exact_iff (width : Nat) (value : Int) :
    (unsigned width value : Int) = value ↔ 0 ≤ value ∧ value < 2 ^ width := by
  have positive : (0 : Int) < 2 ^ width := by positivity
  have lower := Int.emod_nonneg value (ne_of_gt positive)
  unfold unsigned
  constructor
  · intro exact
    have upper := Int.emod_lt_of_pos value positive
    omega
  · rintro ⟨nonneg, bounded⟩
    rw [Int.emod_eq_of_lt nonneg bounded]
    omega

/-- A signed conversion is exact precisely on the range of its type. -/
theorem signed_exact_iff (width : Nat) (value : Int) :
    signed (width + 1) value = value ↔ -2 ^ width ≤ value ∧ value < 2 ^ width := by
  have double : ((2 ^ (width + 1) : Nat) : Int) = 2 * 2 ^ width := by push_cast; ring
  constructor
  · intro exact
    have lower := @Int.le_bmod value (2 ^ (width + 1)) (by positivity)
    have upper := @Int.bmod_lt value (2 ^ (width + 1)) (by positivity)
    unfold signed at exact
    rw [exact] at lower upper
    omega
  · rintro ⟨lower, upper⟩
    exact Int.bmod_eq_of_le_mul_two (by omega) (by omega)

/-- A natural number in range survives its unsigned conversion. -/
theorem unsigned_natCast {width value : Nat} (bounded : value < 2 ^ width) :
    unsigned width (value : Int) = value := by
  have cast : ((2 ^ width : Nat) : Int) = (2 : Int) ^ width := by push_cast; rfl
  have exact := (unsigned_exact_iff width value).mpr ⟨by omega, by omega⟩
  exact_mod_cast exact

theorem u16_natCast {value : Nat} (bounded : value < 65536) : u16 value = value :=
  unsigned_natCast bounded

theorem s64_natCast {value : Nat} (bounded : value < 9223372036854775808) : s64 value = value :=
  (signed_exact_iff 63 value).mpr ⟨by omega, by omega⟩

theorem u32_natCast {value : Nat} (bounded : value < 4294967296) : u32 value = value :=
  unsigned_natCast bounded

/-- A conversion to 32 unsigned bits is the residue that `omega` computes with. -/
theorem u32_eq (value : Int) : u32 value = (value % 4294967296).toNat := rfl

theorem u16_eq (value : Int) : u16 value = (value % 65536).toNat := rfl

/-- The unsigned difference of two values in order is the plain difference. -/
theorem u32_sub {left right : Nat} (ordered : right ≤ left) (bounded : left < 4294967296) :
    u32 ((left : Int) - right) = left - right := by
  rw [u32_eq]
  omega

theorem u32_succ {value : Nat} (bounded : value + 1 < 4294967296) :
    u32 ((value : Int) + 1) = value + 1 := by
  rw [u32_eq]
  omega

theorem s32_eq {value : Int} (lower : -2147483648 ≤ value) (upper : value < 2147483648) :
    s32 value = value :=
  (signed_exact_iff 31 value).mpr ⟨by omega, by omega⟩

/-- A conversion through the unsigned type of the same width does not change a signed conversion. -/
theorem s32_u32 (value : Int) : s32 (u32 value) = s32 value := by
  unfold s32 signed
  have residue : (u32 value : Int) = value % 4294967296 := by
    rw [u32_eq]
    omega
  rw [residue]
  exact Int.emod_bmod value 4294967296

theorem u32_add_u32 (left right : Int) : u32 ((u32 left : Int) + right) = u32 (left + right) := by
  rw [u32_eq, u32_eq, u32_eq]
  omega

/-- A pattern with its top bit set is negative. -/
theorem s32_high {value : Nat} (lower : 2147483648 ≤ value) (upper : value < 4294967296) :
    s32 value = value - 4294967296 := by
  unfold s32 signed
  rw [Int.bmod_def]
  split_ifs <;> omega

/-- A mask distributes over set bits. -/
theorem or_and_mask (old bits mask : UInt8) : (old ||| bits) &&& mask = (old &&& mask) ||| (bits &&& mask) := by
  apply UInt8.toBitVec_inj.mp
  ext index
  simp [Bool.and_or_distrib_right]

end RepublicAgent.MachineInteger
