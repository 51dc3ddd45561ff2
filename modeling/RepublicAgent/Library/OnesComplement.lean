/-
This file folds the carries of a sum back into one digit, as in a sum of ones' complements.
-/

import Mathlib.Tactic

namespace RepublicAgent.OnesComplement

section Fold

variable {base : Nat}

/-- A fold makes the sum smaller. -/
theorem fold_lt (several : 1 < base) {sum : Nat} (carries : base ≤ sum) : sum % base + sum / base < sum := by
  have whole := Nat.mod_add_div sum base
  have positive : 0 < sum / base := Nat.div_pos carries (by omega)
  have grows : 1 * (sum / base) < base * (sum / base) := Nat.mul_lt_mul_of_pos_right several positive
  omega

/-- The carries are added to the lower digit until there are none. -/
def foldCarries (several : 1 < base) (sum : Nat) : Nat :=
  if base ≤ sum then foldCarries several (sum % base + sum / base) else sum
termination_by sum
decreasing_by exact fold_lt several ‹base ≤ sum›

/-- The fold is the residue modulo the largest digit. The residue zero of a positive sum is the largest digit. -/
theorem foldCarries_eq (several : 1 < base) (sum : Nat) :
    foldCarries several sum = if sum = 0 then 0 else (sum - 1) % (base - 1) + 1 := by
  induction sum using foldCarries.induct several with
  | case1 sum carries ih =>
      have whole := Nat.mod_add_div sum base
      have quotient : 0 < sum / base := Nat.div_pos carries (by omega)
      have split : sum - 1 = sum % base + sum / base - 1 + (base - 1) * (sum / base) := by
        rw [Nat.sub_mul, Nat.one_mul]
        have grows : 1 * (sum / base) ≤ base * (sum / base) := Nat.mul_le_mul_right _ several.le
        omega
      rw [foldCarries, if_pos carries, ih, if_neg (by omega), if_neg (by omega), split, Nat.add_mul_mod_self_left]
  | case2 sum small =>
      rw [foldCarries, if_neg small]
      split_ifs with zero
      · exact zero
      · rw [Nat.mod_eq_of_lt (by omega)]
        omega

theorem foldCarries_lt (several : 1 < base) (sum : Nat) : foldCarries several sum < base := by
  have residue := Nat.mod_lt (sum - 1) (show 0 < base - 1 by omega)
  rw [foldCarries_eq]
  split_ifs <;> omega

/-- The fold of a sum is congruent to it. -/
theorem foldCarries_modEq (several : 1 < base) (sum : Nat) : foldCarries several sum ≡ sum [MOD base - 1] := by
  rw [foldCarries_eq]
  split_ifs with zero
  · rw [zero]
  · have shifted := (Nat.mod_modEq (sum - 1) (base - 1)).add_right 1
    rwa [Nat.sub_add_cancel (Nat.pos_of_ne_zero zero)] at shifted

/-- The fold is the largest digit exactly for a positive multiple of it. -/
theorem foldCarries_eq_top_iff (several : 1 < base) (sum : Nat) :
    foldCarries several sum = base - 1 ↔ 0 < sum ∧ base - 1 ∣ sum := by
  constructor
  · intro top
    have same := foldCarries_modEq several sum
    rw [top] at same
    refine ⟨?_, (Nat.modEq_zero_iff_dvd.mp (same.symm.trans (Nat.modEq_zero_iff_dvd.mpr dvd_rfl)))⟩
    rw [foldCarries_eq] at top
    split_ifs at top <;> omega
  · rintro ⟨positive, divides⟩
    have same := (foldCarries_modEq several sum).trans (Nat.modEq_zero_iff_dvd.mpr divides)
    have bounded := foldCarries_lt several sum
    have nonzero : 0 < foldCarries several sum := by
      rw [foldCarries_eq, if_neg positive.ne']
      exact Nat.succ_pos _
    have least := Nat.le_of_dvd nonzero (Nat.modEq_zero_iff_dvd.mp same)
    omega

/-- A sum with the complement of its fold folds to the largest digit. -/
theorem foldCarries_add_complement (several : 1 < base) (sum : Nat) :
    foldCarries several (sum + (base - 1 - foldCarries several sum)) = base - 1 := by
  have bounded := foldCarries_lt several sum
  have same := (foldCarries_modEq several sum).add_right (base - 1 - foldCarries several sum)
  rw [show foldCarries several sum + (base - 1 - foldCarries several sum) = base - 1 by omega] at same
  rw [foldCarries_eq_top_iff]
  refine ⟨?_, Nat.modEq_zero_iff_dvd.mp (same.symm.trans (Nat.modEq_zero_iff_dvd.mpr dvd_rfl))⟩
  by_contra none
  have zero : sum = 0 := by omega
  rw [zero, foldCarries_eq, if_pos rfl] at none
  omega

/-- Two digits keep a positive sum at the largest digit exactly when they are equal or the two zeros. -/
theorem foldCarries_replace_iff (several : 1 < base) {rest first second : Nat} (positive : 0 < rest + second)
    (small : first < base) (other : second < base) (top : foldCarries several (rest + first) = base - 1) :
    foldCarries several (rest + second) = base - 1 ↔
      second = first ∨ first = 0 ∧ second = base - 1 ∨ first = base - 1 ∧ second = 0 := by
  have divides := ((foldCarries_eq_top_iff several _).mp top).2
  rw [foldCarries_eq_top_iff]
  constructor
  · rintro ⟨_, again⟩
    rcases Nat.le_total first second with ordered | ordered
    · have difference := Nat.dvd_sub again divides
      rw [show rest + second - (rest + first) = second - first by omega] at difference
      rcases Nat.eq_zero_or_pos (second - first) with zero | apart
      · omega
      · have least := Nat.le_of_dvd apart difference
        omega
    · have difference := Nat.dvd_sub divides again
      rw [show rest + first - (rest + second) = first - second by omega] at difference
      rcases Nat.eq_zero_or_pos (first - second) with zero | apart
      · omega
      · have least := Nat.le_of_dvd apart difference
        omega
  · rintro (rfl | ⟨rfl, rfl⟩ | ⟨rfl, rfl⟩)
    · exact ⟨positive, divides⟩
    · exact ⟨positive, (Nat.dvd_add_right (by simpa using divides)).mpr dvd_rfl⟩
    · exact ⟨positive, by simpa using (Nat.dvd_add_left dvd_rfl).mp divides⟩

end Fold

end RepublicAgent.OnesComplement
