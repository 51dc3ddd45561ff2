/-
This file says when the byte offsets of the patch machinery are exact in their C types.
-/

import RepublicAgent.Receiver.SlowPath
import RepublicAgent.Sender.PatchRead

namespace RepublicAgent
open MachineInteger

/-- The four C expressions yield their mathematical values for one position in the data. -/
structure ByteOffsetsExact (recv : RecverState) (sttSeq seqFst seqTail seqNum : Nat) : Prop where
  patch : (patchOffset sttSeq recv.bytePayload : Int) = sttSeq * recv.bytePayload
  tail : tailLength recv.seqMax seqTail recv.bytePayload recv.bytePayloadMin =
    ((recv.seqMax : Int) - seqTail - 2) * recv.bytePayload + recv.bytePayloadMin
  start : startDifference recv.dataSize recv.bytePayload seqFst
      (tailLength recv.seqMax seqTail recv.bytePayload recv.bytePayloadMin) =
    recv.dataSize - recv.bytePayload * seqFst -
      (((recv.seqMax : Int) - seqTail - 2) * recv.bytePayload + recv.bytePayloadMin)
  buffer : (tailOffset seqNum seqTail recv.bytePayload : Int) =
    ((seqNum : Int) - seqTail - 1) * recv.bytePayload

section Expressions

theorem patchOffset_exact_iff (sttSeq bytePayload : Nat) :
    (patchOffset sttSeq bytePayload : Int) = sttSeq * bytePayload ↔ sttSeq * bytePayload < 4294967296 := by
  have product : ((sttSeq * bytePayload : Nat) : Int) = (sttSeq : Int) * bytePayload := by push_cast; rfl
  rw [patchOffset, unsigned_exact_iff]
  omega

/-- The tail length is exact when it fits the `int` it is stored in. -/
theorem tailLength_exact_iff {seqMax seqTail : Nat} (bytePayload bytePayloadMin : Nat)
    (behind : seqTail + 2 ≤ seqMax) (bounded : seqMax < 4294967296) :
    tailLength seqMax seqTail bytePayload bytePayloadMin =
        ((seqMax : Int) - seqTail - 2) * bytePayload + bytePayloadMin ↔
      (seqMax - seqTail - 2) * bytePayload + bytePayloadMin < 2147483648 := by
  have packets : u32 ((seqMax : Int) - seqTail - 1 - 1) = seqMax - seqTail - 2 := by
    rw [u32_eq]
    omega
  obtain ⟨length, whole⟩ : ∃ length : Nat,
      length = (seqMax - seqTail - 2) * bytePayload + bytePayloadMin := ⟨_, rfl⟩
  have difference : ((seqMax - seqTail - 2 : Nat) : Int) = (seqMax : Int) - seqTail - 2 := by omega
  have exact : ((seqMax : Int) - seqTail - 2) * bytePayload + bytePayloadMin = length := by
    rw [whole, ← difference]
    push_cast
    rfl
  unfold tailLength
  rw [packets, u32_add_u32, s32_u32, difference, exact, ← whole, signed_exact_iff]
  omega

/-- The start is exact when the bytes before the first packet fit `uint32_t`. -/
theorem startDifference_exact_iff (dataSize : Int) (bytePayload seqFst : Nat) (tailLen : Int) :
    startDifference dataSize bytePayload seqFst tailLen = dataSize - bytePayload * seqFst - tailLen ↔
      bytePayload * seqFst < 4294967296 := by
  have product : ((bytePayload * seqFst : Nat) : Int) = (bytePayload : Int) * seqFst := by push_cast; rfl
  have exact : (u32 ((bytePayload : Int) * seqFst) : Int) = bytePayload * seqFst ↔ _ :=
    unsigned_exact_iff 32 ((bytePayload : Int) * seqFst)
  unfold startDifference
  constructor
  · intro same
    have range := exact.mp (by omega)
    omega
  · intro fits
    rw [exact.mpr (by omega)]

theorem tailOffset_exact_iff {seqNum seqTail : Nat} (bytePayload : Nat) (behind : seqTail < seqNum)
    (bounded : seqNum < 4294967296) :
    (tailOffset seqNum seqTail bytePayload : Int) = ((seqNum : Int) - seqTail - 1) * bytePayload ↔
      (seqNum - seqTail - 1) * bytePayload < 4294967296 := by
  have packets : u32 ((seqNum : Int) - seqTail - 1) = seqNum - seqTail - 1 := by
    rw [u32_eq]
    omega
  have difference : ((seqNum - seqTail - 1 : Nat) : Int) = (seqNum : Int) - seqTail - 1 := by omega
  have product : (((seqNum - seqTail - 1) * bytePayload : Nat) : Int) =
      ((seqNum : Int) - seqTail - 1) * bytePayload := by
    rw [← difference]
    push_cast
    rfl
  rw [tailOffset, packets, difference, unsigned_exact_iff]
  omega

end Expressions

/-- The offsets are exact when each one fits the width at which its product is evaluated. -/
theorem byteOffsets_exact_iff (recv : RecverState) (bm : BcdMetadata)
    (sttSeq seqFst seqTail seqNum : Nat)
    (tailInside : (seqTail : Int) ≤ (recv.withGeometry bm).seqMax - 2)
    (behind : seqTail < seqNum) (inside : seqNum < (recv.withGeometry bm).seqMax) :
    ByteOffsetsExact (recv.withGeometry bm) sttSeq seqFst seqTail seqNum ↔
      sttSeq * recv.bytePayload < 4294967296 ∧ recv.bytePayload * seqFst < 4294967296 ∧
      ((recv.withGeometry bm).seqMax - seqTail - 2) * recv.bytePayload +
        (recv.withGeometry bm).bytePayloadMin < 2147483648 ∧
      (seqNum - seqTail - 1) * recv.bytePayload < 4294967296 := by
  have bounded : (recv.withGeometry bm).seqMax < 4294967296 := unsigned_lt 32 _
  have payload : recv.bytePayload = (recv.withGeometry bm).bytePayload := rfl
  rw [payload]
  have patched := patchOffset_exact_iff sttSeq (recv.withGeometry bm).bytePayload
  have tailed := tailLength_exact_iff (recv.withGeometry bm).bytePayload
    (recv.withGeometry bm).bytePayloadMin (show seqTail + 2 ≤ (recv.withGeometry bm).seqMax by omega) bounded
  have buffered := tailOffset_exact_iff (recv.withGeometry bm).bytePayload behind (by omega)
  have started := startDifference_exact_iff (recv.withGeometry bm).dataSize
    (recv.withGeometry bm).bytePayload seqFst
  constructor
  · intro exact
    have start := exact.start
    rw [exact.tail] at start
    exact ⟨patched.mp exact.patch, (started _).mp start, tailed.mp exact.tail, buffered.mp exact.buffer⟩
  · rintro ⟨patch, first, tail, buffer⟩
    have length := tailed.mpr tail
    refine ⟨patched.mpr patch, length, ?_, buffered.mpr buffer⟩
    rw [length]
    exact (started _).mpr first

/-- The data of five gibibytes. -/
def fiveGibibytes : BcdMetadata := ⟨5368709120, []⟩

theorem byteOffsets_exact_iff_fiveGibibytes :
    ByteOffsetsExact ((createRecverState ⟨1, 2, 3⟩ 1472).withGeometry fiveGibibytes) 2 1 3647218 3647220 :=
  (byteOffsets_exact_iff _ fiveGibibytes 2 1 3647218 3647220 (by decide) (by decide) (by decide)).mpr
    (by decide)

/-- The last packet of five gibibytes is read from a wrong position. -/
theorem byteOffsets_inexact :
    ¬∀ (recv : RecverState) (bm : BcdMetadata), 1 ≤ bm.dataSize → 1 ≤ recv.bytePayload →
      recv.bytePayload ≤ 9112 → ceilQuotient bm.dataSize recv.bytePayload < seqnumMax →
      ∀ sttSeq seqFst seqTail seqNum : Nat, sttSeq < (recv.withGeometry bm).seqMax →
        seqFst < (recv.withGeometry bm).seqMax → (seqTail : Int) ≤ (recv.withGeometry bm).seqMax - 2 →
        seqTail < seqNum → seqNum < (recv.withGeometry bm).seqMax →
        ByteOffsetsExact (recv.withGeometry bm) sttSeq seqFst seqTail seqNum := by
  intro exact
  have offset := (exact (createRecverState ⟨1, 2, 3⟩ 1472) fiveGibibytes (by decide) (by decide) (by decide)
    (by decide) 3647220 0 3647218 3647220 (by decide) (by decide) (by decide) (by decide) (by decide)).patch
  exact absurd offset (by decide)

end RepublicAgent
