/-
This file says what a receiver knows of its broadcast before and after packet zero.
-/

import RepublicAgent.Receiver.Broadcast

namespace RepublicAgent
open MachineInteger

/-- The geometry is unknown up to packet zero and the one of the broadcast afterwards. -/
structure Knows (b : Broadcast) (recv : RecverState) : Prop where
  bcdId : recv.bcdId = b.bcdId
  payload : recv.bytePayload = b.payloadLen
  learned : recv.isSeqZero = true → recv.seqMax = b.seqMax ∧ recv.dataSize = b.data.length
  unlearned : recv.isSeqZero = false →
    recv.seqMax = 0 ∧ recv.tailPatchBuffer = none ∧ recv.tailPatchBufferLen = 0

section Learning

variable (recv : RecverState) (bm : BcdMetadata)

@[simp] theorem learn_bcdId : (recv.learn bm).bcdId = recv.bcdId := rfl

@[simp] theorem learn_isSeqFst : (recv.learn bm).isSeqFst = recv.isSeqFst := rfl

@[simp] theorem learn_seqFst : (recv.learn bm).seqFst = recv.seqFst := rfl

@[simp] theorem learn_seqLst : (recv.learn bm).seqLst = recv.seqLst := rfl

@[simp] theorem learn_seqTail : (recv.learn bm).seqTail = recv.seqTail := rfl

@[simp] theorem learn_isSeqZero : (recv.learn bm).isSeqZero = true := rfl

@[simp] theorem learn_bytePayload : (recv.learn bm).bytePayload = recv.bytePayload := rfl

@[simp] theorem learn_dataSize : (recv.learn bm).dataSize = bm.dataSize := rfl

@[simp] theorem learn_file : (recv.learn bm).file = recv.file := rfl

@[simp] theorem learn_fdP : (recv.learn bm).fdP = recv.fdP := rfl

@[simp] theorem learn_fdPatchP : (recv.learn bm).fdPatchP = recv.fdPatchP := rfl

@[simp] theorem learn_numFastRecvEd : (recv.learn bm).numFastRecvEd = recv.numFastRecvEd := rfl

@[simp] theorem learn_numSlowRecvEd : (recv.learn bm).numSlowRecvEd = recv.numSlowRecvEd := rfl

@[simp] theorem learn_isFastpath : (recv.learn bm).isFastpath = recv.isFastpath := rfl

@[simp] theorem learn_isFinished : (recv.learn bm).isFinished = recv.isFinished := rfl

@[simp] theorem learn_seqMax :
    (recv.learn bm).seqMax = u32 (ceilQuotient bm.dataSize recv.bytePayload) := rfl

end Learning

section Metadata

variable {b : Broadcast} {recv : RecverState}

theorem learn_seqMax_eq (payload : recv.bytePayload = b.payloadLen) :
    (recv.learn b.metadata).seqMax = b.seqMax := by
  rw [learn_seqMax, payload]
  exact (congrArg u32 b.ceilQuotient_eq).trans (u32_natCast b.seqMax_lt)

/-- The last packet holds what the other packets leave of the data. -/
theorem learn_bytePayloadMin_eq (payload : recv.bytePayload = b.payloadLen) :
    (recv.learn b.metadata).bytePayloadMin = b.data.length - b.offset (b.seqMax - 1) := by
  show (if u16 ((b.data.length : Int).tmod recv.bytePayload) = 0 then recv.bytePayload
    else u16 ((b.data.length : Int).tmod recv.bytePayload)) = _
  rw [payload]
  exact b.lastPayload_eq

theorem Knows.learn (knows : Knows b recv) : Knows b (recv.learn b.metadata) where
  bcdId := knows.bcdId
  payload := knows.payload
  learned := fun _ => ⟨learn_seqMax_eq knows.payload, rfl⟩
  unlearned := by simp

/-- A receiver that knows the geometry ignores packet zero. -/
theorem update_again (known : recv.isSeqZero = true) (bm : BcdMetadata) :
    recverStateUpdateBcdMetadata recv bm = .ok (recv, -1) := by
  rw [recverStateUpdateBcdMetadata, if_pos known]

/-- A receiver that does not know the geometry learns it from the metadata of the broadcast. -/
theorem update_learns (knows : Knows b recv) (unknown : recv.isSeqZero = false) :
    recverStateUpdateBcdMetadata recv b.metadata =
      .ok (recv.learn b.metadata, (recv.learn b.metadata).tailPatchBufferLen) := by
  have named : ¬¬b.metadata.appId.length < appIdLen := not_not_intro b.appIdShort
  have sized : ¬b.metadata.dataSize = 0 := by
    have positive := b.dataPositive
    simp only [Broadcast.metadata]
    omega
  have unallocated : ¬(recv.seqTail ≠ 0 ∧ recv.tailPatchBuffer.isSome = true) := by
    simp [(knows.unlearned unknown).2.1]
  rw [recverStateUpdateBcdMetadata, if_neg (by simp [unknown]), if_neg named, if_neg sized,
    if_neg unallocated]

theorem learn_tailPatchBufferLen_nonneg (knows : Knows b recv) (unknown : recv.isSeqZero = false) :
    0 ≤ (recv.learn b.metadata).tailPatchBufferLen := by
  have clear := (knows.unlearned unknown).2.2
  show 0 ≤ (RecverState.tailBuffer (recv.withGeometry b.metadata)).2
  unfold RecverState.tailBuffer
  dsimp only
  split_ifs
  · simp [RecverState.withGeometry, clear]
  · exact le_refl 0
  · omega

theorem Knows.finish (knows : Knows b recv) : Knows b (recverStateFinishRecv recv) :=
  ⟨knows.bcdId, knows.payload, knows.learned, fun unknown =>
    ⟨(knows.unlearned unknown).1, rfl, (knows.unlearned unknown).2.2⟩⟩

end Metadata

end RepublicAgent
