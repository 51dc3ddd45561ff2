/-
This file proves that a finished file reads as the data of the broadcast.
-/

import RepublicAgent.Receiver.Coverage

namespace RepublicAgent
open CyclicWindow Execution MachineInteger PositionedWrite

namespace Broadcast

variable (b : Broadcast) {fst tail seq : Nat}

/-- The data up to the tail stands in the file. The rest stands in the tail buffer. -/
def front (tail : Nat) : Nat := if tail = 0 then b.data.length else b.offset (tail + 1)

/-- The file holds the front of the data, rotated to the first packet. -/
def layout (fst tail : Nat) : List UInt8 :=
  (b.data.take (b.front tail)).drop (b.offset fst) ++ b.data.take (b.offset fst)

/-- The place of a packet in the layout. -/
def place (fst tail seq : Nat) : Nat :=
  if fst ≤ seq then b.offset seq - b.offset fst else b.front tail - b.offset fst + b.offset seq

theorem front_le (tail : Nat) : b.front tail ≤ b.data.length := by
  unfold front
  split
  · exact le_refl _
  · exact b.offset_le _

/-- The first packet lies before the tail. -/
theorem offset_le_front (ordered : tail ≠ 0 → fst < tail) : b.offset fst ≤ b.front tail := by
  unfold front
  split
  · exact b.offset_le fst
  · next wrapped =>
      have before := ordered wrapped
      exact b.offset_mono (by omega)

theorem layout_length (ordered : tail ≠ 0 → fst < tail) : (b.layout fst tail).length = b.front tail := by
  have upper := b.front_le tail
  have lower := b.offset_le_front ordered
  simp only [layout, List.length_append, List.length_drop, List.length_take]
  omega

/-- A packet up to the tail ends inside the front. -/
theorem offset_succ_le_front (near : tail ≠ 0 → seq ≤ tail) :
    b.offset (seq + 1) ≤ b.front tail := by
  unfold front
  split
  · exact b.offset_le _
  · next wrapped => exact b.offset_mono (by have before := near wrapped; omega)

theorem place_add_le (ordered : tail ≠ 0 → fst < tail) (inside : seq < b.seqMax)
    (near : tail ≠ 0 → seq ≤ tail) :
    b.place fst tail seq + (b.offset (seq + 1) - b.offset seq) ≤ b.front tail := by
  have upper := b.offset_succ_le_front near
  have grows := b.offset_lt_succ inside
  have lower := b.offset_le_front ordered
  unfold place
  split
  · next above =>
      have first := b.offset_mono above
      omega
  · next below =>
      have first : b.offset (seq + 1) ≤ b.offset fst := b.offset_mono (by omega)
      omega

/-- The layout holds the payload of each packet up to the tail at its place. -/
theorem layout_slice (ordered : tail ≠ 0 → fst < tail) (inside : seq < b.seqMax)
    (near : tail ≠ 0 → seq ≤ tail) :
    ((b.layout fst tail).drop (b.place fst tail seq)).take (b.offset (seq + 1) - b.offset seq) =
      b.slice seq := by
  have upper := b.offset_succ_le_front near
  have grows := b.offset_lt_succ inside
  have lower := b.offset_le_front ordered
  have whole := b.front_le tail
  rw [b.slice_eq inside]
  apply List.ext_getElem?
  intro index
  rw [List.getElem?_take, List.getElem?_take, List.getElem?_drop, List.getElem?_drop]
  split
  · next below =>
      unfold place layout
      split
      · next above =>
          have first := b.offset_mono above
          rw [List.getElem?_append_left (by simp only [List.length_drop, List.length_take]; omega),
            List.getElem?_drop, List.getElem?_take_of_lt (by omega)]
          congr 1
          omega
      · next before =>
          have first : b.offset (seq + 1) ≤ b.offset fst := b.offset_mono (by omega)
          rw [List.getElem?_append_right (by simp only [List.length_drop, List.length_take]; omega),
            List.getElem?_take_of_lt (by simp only [List.length_drop, List.length_take]; omega)]
          congr 1
          simp only [List.length_drop, List.length_take]
          omega
  · rfl

/-- The tail buffer holds the payload of each packet behind the tail. -/
theorem tail_slice (wrapped : tail ≠ 0) (inside : seq < b.seqMax) (behind : tail < seq) :
    ((b.data.drop (b.front tail)).drop (b.offset seq - b.front tail)).take
        (b.offset (seq + 1) - b.offset seq) = b.slice seq := by
  have start : b.front tail ≤ b.offset seq := by
    unfold front
    rw [if_neg wrapped]
    exact b.offset_mono (by omega)
  rw [b.slice_eq inside, List.drop_drop]
  congr 2
  omega

/-- The tail behind the recorded packet is exact for data that an `int` can measure. -/
theorem tailLength_eq (short : b.data.length < 2147483648) (inside : tail + 1 < b.seqMax) :
    tailLength b.seqMax tail b.payloadLen (b.data.length - b.offset (b.seqMax - 1)) =
      b.data.length - b.offset (tail + 1) := by
  have bounded := b.seqMax_lt
  have final : b.seqMax - 1 < b.seqMax := by omega
  have whole := b.offset_lt final
  have upper := b.offset_le (tail + 1)
  have rest : u32 ((b.seqMax : Int) - tail - 1 - 1) = b.seqMax - 1 - (tail + 1) := by
    rw [u32_eq]
    omega
  have product : (b.seqMax - 1 - (tail + 1)) * b.payloadLen = b.offset (b.seqMax - 1) - b.offset (tail + 1) :=
    b.offset_sub (by omega) final
  have ordered : b.offset (tail + 1) ≤ b.offset (b.seqMax - 1) := b.offset_mono (by omega)
  have exact : u32 ((u32 ((b.seqMax : Int) - tail - 1 - 1) : Int) * b.payloadLen) =
      b.offset (b.seqMax - 1) - b.offset (tail + 1) := by
    rw [rest, ← Nat.cast_mul, product]
    exact u32_natCast (by omega)
  unfold tailLength
  rw [exact, ← Nat.cast_add, u32_natCast (by omega), s32_eq (by omega) (by omega)]
  omega

/-- No tail is behind the last packet. -/
theorem tailLength_last (last : tail + 1 = b.seqMax) :
    tailLength b.seqMax tail b.payloadLen (b.data.length - b.offset (b.seqMax - 1)) ≤ 0 := by
  have bounded := b.seqMax_lt
  have fits := b.payloadFits
  have rest : (u32 ((b.seqMax : Int) - tail - 1 - 1) : Int) = 4294967295 := by
    rw [u32_eq]
    omega
  have least : b.data.length - b.offset (b.seqMax - 1) ≤ b.payloadLen := by
    have final : b.seqMax - 1 < b.seqMax := by omega
    have upper := b.data_le
    rw [show b.seqMax = b.seqMax - 1 + 1 by omega, Nat.succ_mul] at upper
    rw [b.offset_of_lt final]
    omega
  have positive := b.payloadPositive
  have product : u32 ((4294967295 : Int) * b.payloadLen) = 4294967296 - b.payloadLen := by
    rw [u32_eq]
    omega
  have some : 0 < b.data.length - b.offset (b.seqMax - 1) := by
    have inside := b.offset_lt (show b.seqMax - 1 < b.seqMax by omega)
    omega
  unfold tailLength
  rw [rest, product, ← Nat.cast_add]
  by_cases even : b.data.length - b.offset (b.seqMax - 1) = b.payloadLen
  · rw [show u32 ((4294967296 - b.payloadLen + (b.data.length - b.offset (b.seqMax - 1)) : Nat) : Int) = 0 by
      rw [u32_eq]
      omega]
    decide
  · rw [u32_natCast (by omega), s32_high (by omega) (by omega)]
    omega

end Broadcast

end RepublicAgent
