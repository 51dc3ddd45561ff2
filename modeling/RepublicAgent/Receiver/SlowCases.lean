/-
This file lists what one patch packet on the slow path can do.
-/

import RepublicAgent.Receiver.Knowledge
import RepublicAgent.Receiver.SlowPath

namespace RepublicAgent
open MachineInteger PositionedWrite

/-- A patch packet inside the file is written at its position and counted. -/
def RecverState.patch (recv : RecverState) (payload : List UInt8) (seqNum : Nat) : RecverState :=
  { (recv.seekPatch seqNum).fwritePatch payload with numSlowRecvEd := recv.numSlowRecvEd + 1 }

/-- A patch packet behind the tail is copied to the buffer and counted. -/
def RecverState.patchTail (recv : RecverState) (buffer payload : List UInt8) (seqNum : Nat) :
    RecverState :=
  { recv with
    tailPatchBuffer := some
      (writeAt 0 buffer (tailOffset seqNum recv.seqTail recv.bytePayload) payload)
    numSlowRecvEd := recv.numSlowRecvEd + 1 }

section Patch

variable (recv : RecverState) (payload : List UInt8) (seqNum : Nat)

@[simp] theorem patch_isSeqFst : (recv.patch payload seqNum).isSeqFst = recv.isSeqFst := rfl

@[simp] theorem patch_seqFst : (recv.patch payload seqNum).seqFst = recv.seqFst := rfl

@[simp] theorem patch_seqLst : (recv.patch payload seqNum).seqLst = recv.seqLst := rfl

@[simp] theorem patch_seqTail : (recv.patch payload seqNum).seqTail = recv.seqTail := rfl

@[simp] theorem patch_isSeqZero : (recv.patch payload seqNum).isSeqZero = recv.isSeqZero := rfl

@[simp] theorem patch_dataSize : (recv.patch payload seqNum).dataSize = recv.dataSize := rfl

@[simp] theorem patch_seqMax : (recv.patch payload seqNum).seqMax = recv.seqMax := rfl

@[simp] theorem patch_bytePayload : (recv.patch payload seqNum).bytePayload = recv.bytePayload := rfl

@[simp] theorem patch_tailPatchBuffer : (recv.patch payload seqNum).tailPatchBuffer = recv.tailPatchBuffer := rfl

@[simp] theorem patch_tailPatchBufferLen :
    (recv.patch payload seqNum).tailPatchBufferLen = recv.tailPatchBufferLen := rfl

@[simp] theorem patch_fdP : (recv.patch payload seqNum).fdP = recv.fdP := rfl

@[simp] theorem patch_numFastRecvEd : (recv.patch payload seqNum).numFastRecvEd = recv.numFastRecvEd := rfl

@[simp] theorem patch_isFastpath : (recv.patch payload seqNum).isFastpath = recv.isFastpath := rfl

@[simp] theorem patch_isFinished : (recv.patch payload seqNum).isFinished = recv.isFinished := rfl

@[simp] theorem patch_fileMetadata : (recv.patch payload seqNum).fileMetadata = recv.fileMetadata := rfl

@[simp] theorem patch_numSlowRecvEd :
    (recv.patch payload seqNum).numSlowRecvEd = recv.numSlowRecvEd + 1 := rfl

end Patch

/-- One constructor for each way through the handler up to the completion test. -/
inductive SlowCase (b : Broadcast) (recv : RecverState) (seq : Nat) : RecverState → Bool → Prop
  | tail (wrapped : 0 < recv.seqTail) (behind : recv.seqTail < seq) (buffer : List UInt8)
      (allocated : recv.tailPatchBuffer = some buffer) :
      SlowCase b recv seq (recv.patchTail buffer (b.slice seq) seq) true
  | outOfRange (front : ¬(0 < recv.seqTail ∧ recv.seqTail < seq)) (first : seq = recv.seqFst) :
      SlowCase b recv seq recv false
  | zeroLearns (zero : seq = 0) (other : seq ≠ recv.seqFst) (unknown : recv.isSeqZero = false)
      (start : 0 ≤ (recv.learn b.metadata).fileMetadata.start) :
      SlowCase b recv seq ((recv.learn b.metadata).patch (b.slice seq) seq) true
  | zeroAgain (zero : seq = 0) (other : seq ≠ recv.seqFst) (known : recv.isSeqZero = true)
      (start : 0 ≤ recv.fileMetadata.start) :
      SlowCase b recv seq (recv.patch (b.slice seq) seq) true
  | inside (front : ¬(0 < recv.seqTail ∧ recv.seqTail < seq)) (other : seq ≠ recv.seqFst)
      (nonzero : seq ≠ 0) :
      SlowCase b recv seq (recv.patch (b.slice seq) seq) true

section Branches

variable {b : Broadcast} {recv next : RecverState} {counted : Bool} {seq : Nat}

/-- Every completed patch packet is one of the cases. -/
theorem patchDataCount_cases (knows : Knows b recv)
    (completed : patchDataCount recv (b.packet seq) = .ok (next, counted)) :
    SlowCase b recv seq next counted := by
  unfold patchDataCount at completed
  rw [show (b.packet seq).seqNum = seq from rfl, show (b.packet seq).payload = b.slice seq from rfl,
    show (b.packet seq).metadata = b.metadata from rfl] at completed
  split_ifs at completed with behind first zero
  · unfold RecverState.copyToTail at completed
    cases allocated : recv.tailPatchBuffer with
    | none => simp [allocated, bind, Except.bind] at completed
    | some buffer =>
        simp only [allocated, bind, Except.bind, pure, Except.pure, Except.ok.injEq, Prod.mk.injEq]
          at completed
        obtain ⟨rfl, rfl⟩ := completed
        exact SlowCase.tail behind.1 behind.2 buffer allocated
  · simp only [Except.ok.injEq, Prod.mk.injEq] at completed
    obtain ⟨rfl, rfl⟩ := completed
    exact SlowCase.outOfRange behind first
  · cases known : recv.isSeqZero with
    | false =>
        rw [update_learns knows known] at completed
        simp only [bind, Except.bind, pure, Except.pure, throw, throwThe, MonadExceptOf.throw]
          at completed
        split_ifs at completed with start
        simp only [Except.ok.injEq, Prod.mk.injEq] at completed
        obtain ⟨rfl, rfl⟩ := completed
        exact SlowCase.zeroLearns zero first known (by omega)
    | true =>
        rw [update_again known] at completed
        simp only [bind, Except.bind, pure, Except.pure, throw, throwThe, MonadExceptOf.throw]
          at completed
        split_ifs at completed with start
        simp only [Except.ok.injEq, Prod.mk.injEq] at completed
        obtain ⟨rfl, rfl⟩ := completed
        exact SlowCase.zeroAgain zero first known (by omega)
  · simp only [bind, Except.bind, pure, Except.pure, Except.ok.injEq, Prod.mk.injEq] at completed
    obtain ⟨rfl, rfl⟩ := completed
    exact SlowCase.inside behind first zero

/-- A patch packet fails only an assert of the slow path. -/
theorem patchDataCount_error (knows : Knows b recv) {fault : Assertion}
    (failed : patchDataCount recv (b.packet seq) = .error fault) :
    fault = .tailBufferPresent ∨ fault = .fileStartKnown := by
  unfold patchDataCount at failed
  rw [show (b.packet seq).seqNum = seq from rfl, show (b.packet seq).metadata = b.metadata from rfl] at failed
  split_ifs at failed with behind first zero
  · unfold RecverState.copyToTail at failed
    cases allocated : recv.tailPatchBuffer with
    | none =>
        simp only [allocated, bind, Except.bind, Except.error.injEq] at failed
        exact .inl failed.symm
    | some buffer => simp [allocated, bind, Except.bind, pure, Except.pure] at failed
  · obtain ⟨learned, length, taken⟩ : ∃ learned length,
        recverStateUpdateBcdMetadata recv b.metadata = .ok (learned, length) := by
      cases known : recv.isSeqZero with
      | false => exact ⟨_, _, update_learns knows known⟩
      | true => exact ⟨_, _, update_again known b.metadata⟩
    rw [taken] at failed
    simp only [bind, Except.bind, pure, Except.pure, throw, throwThe, MonadExceptOf.throw] at failed
    split_ifs at failed
    exact .inr (Except.error.inj failed).symm
  · simp [bind, Except.bind, pure, Except.pure] at failed

theorem SlowCase.knows (branch : SlowCase b recv seq next counted) (knows : Knows b recv) :
    Knows b next := by
  cases branch with
  | tail wrapped behind buffer allocated =>
      refine ⟨knows.bcdId, knows.payload, knows.learned, ?_⟩
      intro unknown
      exact absurd ((knows.unlearned unknown).2.1.symm.trans allocated) (by simp)
  | outOfRange => exact knows
  | zeroLearns =>
      have learned := knows.learn
      exact ⟨learned.bcdId, learned.payload, learned.learned, learned.unlearned⟩
  | zeroAgain | inside => exact ⟨knows.bcdId, knows.payload, knows.learned, knows.unlearned⟩

/-- The handler keeps what belongs to the fast path. -/
theorem SlowCase.frame (branch : SlowCase b recv seq next counted) :
    next.isSeqFst = recv.isSeqFst ∧ next.seqFst = recv.seqFst ∧ next.seqLst = recv.seqLst ∧
      next.seqTail = recv.seqTail ∧ next.numFastRecvEd = recv.numFastRecvEd ∧
      next.isFastpath = recv.isFastpath ∧ next.isFinished = recv.isFinished ∧
      (recv.isSeqZero = true → next.isSeqZero = true) := by
  cases branch <;> simp [RecverState.patchTail]

/-- A patch opens and closes no stream. -/
theorem SlowCase.streams (branch : SlowCase b recv seq next counted) :
    next.fdP = recv.fdP ∧ (next.fdPatchP = none ↔ recv.fdPatchP = none) := by
  cases branch with
  | tail | outOfRange => exact ⟨rfl, Iff.rfl⟩
  | zeroLearns | zeroAgain | inside =>
      refine ⟨rfl, ?_⟩
      simp [RecverState.patch, RecverState.fwritePatch, RecverState.seekPatch, fseekSet, RecverState.learn,
        RecverState.withFileMetadata, RecverState.withTailBuffer, RecverState.withGeometry]

/-- A counted patch is one more on the slow path. -/
theorem SlowCase.counts (branch : SlowCase b recv seq next counted) (other : seq ≠ recv.seqFst) :
    counted = true ∧ next.numSlowRecvEd = recv.numSlowRecvEd + 1 := by
  cases branch with
  | outOfRange front first => exact absurd first other
  | tail | zeroLearns | zeroAgain | inside => exact ⟨rfl, rfl⟩

/-- A delivered packet zero carries the metadata. -/
theorem SlowCase.zero (branch : SlowCase b recv seq next counted) (other : seq ≠ recv.seqFst)
    (zero : seq = 0) : next.isSeqZero = true := by
  cases branch with
  | tail wrapped behind => omega
  | outOfRange front first => exact absurd first other
  | zeroLearns => rw [patch_isSeqZero, learn_isSeqZero]
  | zeroAgain _ _ known => rw [patch_isSeqZero, known]
  | inside front other nonzero => exact absurd zero nonzero

/-- A patch up to the tail is written once the metadata are known. -/
theorem patchDataCount_known (known : recv.isSeqZero = true) (start : 0 ≤ recv.fileMetadata.start)
    (front : ¬(0 < recv.seqTail ∧ recv.seqTail < seq)) (other : seq ≠ recv.seqFst) :
    patchDataCount recv (b.packet seq) = .ok (recv.patch (b.slice seq) seq, true) := by
  unfold patchDataCount
  rw [show (b.packet seq).seqNum = seq from rfl, if_neg front, if_neg other]
  by_cases zero : seq = 0
  · rw [if_pos zero, update_again known]
    simp only [bind, Except.bind, pure, Except.pure]
    rw [if_neg (by omega)]
    rfl
  · rw [if_neg zero]
    rfl

end Branches

/-- A counted patch is one more. -/
theorem SlowCase.counted {b : Broadcast} {recv next : RecverState} {seq : Nat}
    (branch : SlowCase b recv seq next true) : next.numSlowRecvEd = recv.numSlowRecvEd + 1 := by
  cases branch <;> rfl

end RepublicAgent
