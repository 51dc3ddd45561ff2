/-
This file cuts a list into slices of one width, with a last slice that takes the rest.
-/

import Mathlib.Tactic

namespace RepublicAgent.Slices

/-- The number of slices, rounded up. -/
def sliceCount (length width : Nat) : Nat := (length + width - 1) / width

/-- The position of a slice. The slice count has the position of the end. -/
def offset (length width index : Nat) : Nat := min (index * width) length

section Positions

variable {length width : Nat}

/-- An index is in range exactly when its slice has a cell. -/
theorem lt_sliceCount_iff (positive : 0 < width) (index : Nat) :
    index < sliceCount length width ↔ index * width < length := by
  rw [sliceCount, ← Nat.succ_le_iff, Nat.le_div_iff_mul_le positive, Nat.succ_mul]
  omega

theorem sliceCount_pos (positive : 0 < width) (nonempty : 0 < length) : 0 < sliceCount length width := by
  rw [lt_sliceCount_iff positive, Nat.zero_mul]
  exact nonempty

theorem length_le (positive : 0 < width) : length ≤ sliceCount length width * width := by
  have outside := (@lt_sliceCount_iff length width positive (sliceCount length width)).not.mp
    (Nat.lt_irrefl _)
  omega

@[simp] theorem offset_zero : offset length width 0 = 0 := by simp [offset]

theorem offset_sliceCount (positive : 0 < width) :
    offset length width (sliceCount length width) = length :=
  Nat.min_eq_right (length_le positive)

theorem offset_of_lt (positive : 0 < width) {index : Nat} (inside : index < sliceCount length width) :
    offset length width index = index * width := by
  have bound := (lt_sliceCount_iff positive index).mp inside
  unfold offset
  omega

theorem offset_lt_succ (positive : 0 < width) {index : Nat} (inside : index < sliceCount length width) :
    offset length width index < offset length width (index + 1) := by
  have bound := (lt_sliceCount_iff positive index).mp inside
  rw [offset_of_lt positive inside, offset, Nat.succ_mul]
  omega

/-- A slice has the full width, except for the last one, which ends with the list. -/
theorem offset_succ_sub (positive : 0 < width) {index : Nat} (inside : index < sliceCount length width) :
    offset length width (index + 1) - offset length width index =
      if index + 1 = sliceCount length width then
        length - offset length width (sliceCount length width - 1)
      else width := by
  split_ifs with last
  · rw [last, offset_sliceCount positive, show sliceCount length width - 1 = index by omega]
  · rw [offset_of_lt positive (by omega : index + 1 < sliceCount length width),
      offset_of_lt positive inside, Nat.succ_mul]
    omega

/-- The slice count is the quotient, or one more when there is a rest. -/
theorem sliceCount_eq (positive : 0 < width) :
    sliceCount length width = if length % width = 0 then length / width else length / width + 1 := by
  have division := Nat.div_add_mod length width
  have bound := Nat.mod_lt length positive
  rw [Nat.mul_comm] at division
  split_ifs with even
  · rw [sliceCount, show length + width - 1 = length / width * width + (width - 1) by omega,
      Nat.add_comm, Nat.add_mul_div_right _ _ positive, Nat.div_eq_of_lt (by omega), Nat.zero_add]
  · rw [sliceCount, show length + width - 1 = (length / width + 1) * width + (length % width - 1) by
        rw [Nat.succ_mul]; omega,
      Nat.add_comm, Nat.add_mul_div_right _ _ positive, Nat.div_eq_of_lt (by omega), Nat.zero_add]

/-- The last slice takes the rest, or the full width when there is none. -/
theorem last_slice_eq (positive : 0 < width) (nonempty : 0 < length) :
    length - offset length width (sliceCount length width - 1) =
      if length % width = 0 then width else length % width := by
  have counted := sliceCount_pos positive nonempty
  have division := Nat.div_add_mod length width
  rw [Nat.mul_comm] at division
  rw [offset_of_lt positive (by omega)]
  have quotient := @sliceCount_eq length width positive
  split_ifs at quotient ⊢ with even
  · have whole : length / width = (sliceCount length width - 1) + 1 := by omega
    rw [whole, Nat.succ_mul] at division
    omega
  · rw [quotient, Nat.add_sub_cancel]
    omega

end Positions

section Cells

variable {Cell : Type} {data : List Cell} {width : Nat}

/-- The cells of one slice. -/
def slice (data : List Cell) (width index : Nat) : List Cell := (data.drop (index * width)).take width

/-- A slice is the part of the list between two positions. -/
theorem slice_eq (positive : 0 < width) {index : Nat} (inside : index < sliceCount data.length width) :
    slice data width index = (data.drop (offset data.length width index)).take
      (offset data.length width (index + 1) - offset data.length width index) := by
  rw [slice, offset_of_lt positive inside]
  apply List.ext_getElem?
  intro position
  simp only [List.getElem?_take, List.getElem?_drop, offset, Nat.succ_mul]
  by_cases near : position < width
  · by_cases present : index * width + position < data.length
    · rw [if_pos near, if_pos (by omega)]
    · rw [if_pos near, if_neg (by omega), List.getElem?_eq_none (by omega)]
  · rw [if_neg near, if_neg (by omega)]

theorem slice_length (positive : 0 < width) {index : Nat} (inside : index < sliceCount data.length width) :
    (slice data width index).length =
      offset data.length width (index + 1) - offset data.length width index := by
  have upper : offset data.length width (index + 1) ≤ data.length := Nat.min_le_right _ _
  rw [slice_eq positive inside, List.length_take, List.length_drop]
  omega

/-- The first slices make a prefix of the list. -/
theorem flatMap_slice_take (positive : 0 < width) {count : Nat} (inside : count ≤ sliceCount data.length width) :
    (List.range count).flatMap (slice data width) = data.take (offset data.length width count) := by
  induction count with
  | zero => simp
  | succ count inductionHypothesis =>
      have grows := offset_lt_succ positive (show count < sliceCount data.length width by omega)
      rw [List.range_succ, List.flatMap_append, inductionHypothesis (by omega), List.flatMap_singleton,
        slice_eq positive (by omega)]
      rw [← List.take_add, Nat.add_sub_cancel' grows.le]

/-- The slices make the list. -/
theorem flatMap_slice (positive : 0 < width) :
    (List.range (sliceCount data.length width)).flatMap (slice data width) = data := by
  rw [flatMap_slice_take positive (le_refl _), offset_sliceCount positive, List.take_length]

end Cells

end RepublicAgent.Slices
