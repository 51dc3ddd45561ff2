/-
This file lists what one packet on the fast path can do.
-/

import RepublicAgent.Receiver.FastPath
import RepublicAgent.Receiver.Knowledge

namespace RepublicAgent
open MachineInteger

/-- An accepted packet is written behind a gap and counted, and `seq_lst` follows it. -/
def RecverState.accept (recv : RecverState) (gap : Nat) (payload : List UInt8) (seqNum : Nat) :
    RecverState :=
  { ({ recv with fdP := recv.fdP.map (· + gap) } : RecverState).writeFastData payload with
    seqLst := seqNum }

/-- A wrap that lost packet zero records the tail and the start of the file. -/
def RecverState.recordTail (recv : RecverState) : RecverState :=
  { recv with
    seqTail := recv.seqLst
    fileMetadata := { recv.fileMetadata with start := ftell recv.fdP } }

section Accept

variable (recv : RecverState) (gap : Nat) (payload : List UInt8) (seqNum : Nat)

@[simp] theorem accept_bcdId : (recv.accept gap payload seqNum).bcdId = recv.bcdId := rfl

@[simp] theorem accept_isSeqFst : (recv.accept gap payload seqNum).isSeqFst = recv.isSeqFst := rfl

@[simp] theorem accept_seqFst : (recv.accept gap payload seqNum).seqFst = recv.seqFst := rfl

@[simp] theorem accept_seqLst : (recv.accept gap payload seqNum).seqLst = seqNum := rfl

@[simp] theorem accept_seqTail : (recv.accept gap payload seqNum).seqTail = recv.seqTail := rfl

@[simp] theorem accept_isSeqZero : (recv.accept gap payload seqNum).isSeqZero = recv.isSeqZero := rfl

@[simp] theorem accept_dataSize : (recv.accept gap payload seqNum).dataSize = recv.dataSize := rfl

@[simp] theorem accept_seqMax : (recv.accept gap payload seqNum).seqMax = recv.seqMax := rfl

@[simp] theorem accept_bytePayload :
    (recv.accept gap payload seqNum).bytePayload = recv.bytePayload := rfl

@[simp] theorem accept_tailPatchBuffer :
    (recv.accept gap payload seqNum).tailPatchBuffer = recv.tailPatchBuffer := rfl

@[simp] theorem accept_tailPatchBufferLen :
    (recv.accept gap payload seqNum).tailPatchBufferLen = recv.tailPatchBufferLen := rfl

@[simp] theorem accept_fdPatchP : (recv.accept gap payload seqNum).fdPatchP = recv.fdPatchP := rfl

@[simp] theorem accept_numFastRecvEd :
    (recv.accept gap payload seqNum).numFastRecvEd = recv.numFastRecvEd + 1 := rfl

@[simp] theorem accept_numSlowRecvEd :
    (recv.accept gap payload seqNum).numSlowRecvEd = recv.numSlowRecvEd := rfl

@[simp] theorem accept_isFastpath :
    (recv.accept gap payload seqNum).isFastpath = recv.isFastpath := rfl

@[simp] theorem accept_isFinished :
    (recv.accept gap payload seqNum).isFinished = recv.isFinished := rfl

@[simp] theorem accept_fileMetadata :
    (recv.accept gap payload seqNum).fileMetadata = recv.fileMetadata := rfl

end Accept

/-- One constructor for each way through the branches, in a state whose first packet is fixed. -/
inductive FastCase (b : Broadcast) (recv : RecverState) (seq : Nat) : RecverState → PacketFlags → Prop
  | inOrder (nonzero : seq ≠ 0) (follows : seq = recv.seqLst + 1) :
      FastCase b recv seq (recv.accept 0 (b.slice seq) seq) PacketFlags.clear
  | zeroInOrder (zero : seq = 0) (unknown : recv.isSeqZero = false)
      (follows : recv.seqLst = b.seqMax - 1 ∨ recv.seqLst = seqnumMax) :
      FastCase b recv seq ((recv.learn b.metadata).accept 0 (b.slice seq) seq)
        { PacketFlags.clear with seqZero := true }
  | zeroJump (zero : seq = 0) (unknown : recv.isSeqZero = false)
      (gap : recv.seqLst ≠ b.seqMax - 1) (started : recv.seqLst ≠ seqnumMax)
      (ahead : recv.seqFst < recv.seqLst) (nonzero : recv.seqFst ≠ 0) :
      FastCase b recv seq
        ((recv.learn b.metadata).accept
          ((b.seqMax - recv.seqLst - 2) * b.payloadLen + (b.data.length - b.offset (b.seqMax - 1)))
          (b.slice seq) seq)
        ⟨true, true, false, some ⟨u32 ((recv.seqLst : Int) + 1), b.seqMax⟩⟩
  | zeroRejected (zero : seq = 0) (unknown : recv.isSeqZero = false)
      (gap : recv.seqLst ≠ b.seqMax - 1) (started : recv.seqLst ≠ seqnumMax)
      (behind : ¬(recv.seqFst < recv.seqLst ∧ recv.seqFst ≠ 0)) :
      FastCase b recv seq (recv.learn b.metadata) PacketFlags.error
  | zeroAgain (zero : seq = 0) (known : recv.isSeqZero = true) :
      FastCase b recv seq recv PacketFlags.error
  | jump (beyond : recv.seqLst + 1 < seq) (half : seq < recv.seqFst ∨ recv.seqFst ≤ recv.seqLst) :
      FastCase b recv seq
        (recv.accept ((seq - recv.seqLst - 1) * b.payloadLen) (b.slice seq) seq)
        ⟨false, true, false, some ⟨recv.seqLst + 1, seq⟩⟩
  | jumpRejected (beyond : recv.seqLst + 1 < seq) (low : recv.seqLst < recv.seqFst)
      (high : recv.seqFst ≤ seq) :
      FastCase b recv seq recv PacketFlags.error
  | wrap (nonzero : seq ≠ 0) (below : seq < recv.seqFst) (above : recv.seqFst < recv.seqLst)
      (tail : recv.seqTail = 0) (start : recv.fileMetadata.start = -1) :
      FastCase b recv seq
        (recv.recordTail.accept (seq * b.payloadLen) (b.slice seq) seq)
        ⟨false, true, false, some ⟨u32 ((recv.seqLst : Int) + 1), seq⟩⟩
  | behind (nonzero : seq ≠ 0) (late : seq ≤ recv.seqLst)
      (outside : ¬(seq < recv.seqFst ∧ recv.seqFst < recv.seqLst)) :
      FastCase b recv seq recv PacketFlags.error

section Branches

variable {b : Broadcast} {recv next : RecverState} {flags : PacketFlags} {seq : Nat}

/-- No place holder makes the seek fail, since every stream is at a natural position. -/
theorem extendAndWrite_eq (recv : RecverState) (gap : Nat) (payload : List UInt8) :
    recv.extendAndWrite gap payload =
      .ok (({ recv with fdP := recv.fdP.map (· + gap) } : RecverState).writeFastData payload) := by
  unfold RecverState.extendAndWrite extendFile
  cases opened : recv.fdP with
  | none => rfl
  | some position =>
      have inside : (0 : Int) ≤ (position : Int) + gap := by omega
      have landed : ((position : Int) + gap).toNat = position + gap := by omega
      simp only [if_pos inside, landed]
      rfl

theorem accept_zero (recv : RecverState) (payload : List UInt8) (seqNum : Nat) :
    recv.accept 0 payload seqNum = { recv.writeFastData payload with seqLst := seqNum } := by
  unfold RecverState.accept
  cases stream : recv.fdP <;> simp [← stream]

/-- The first packet fixes its sequence number and the one before it. -/
theorem fastPathFirst_started (started : recv.isSeqFst = true) : fastPathFirst recv seq = recv := by
  rw [fastPathFirst, if_pos started]

/-- The first packet leaves the streams, the counters and the end of the transfer. -/
theorem fastPathFirst_frame (recv : RecverState) (seq : Nat) :
    (fastPathFirst recv seq).isSeqFst = true ∧ (fastPathFirst recv seq).isSeqZero = recv.isSeqZero ∧
      (fastPathFirst recv seq).isFinished = recv.isFinished ∧
      (fastPathFirst recv seq).numFastRecvEd = recv.numFastRecvEd ∧ (fastPathFirst recv seq).fdP = recv.fdP ∧
      (fastPathFirst recv seq).fdPatchP = recv.fdPatchP ∧
      (fastPathFirst recv seq).tailPatchBuffer = recv.tailPatchBuffer := by
  unfold fastPathFirst
  split
  · exact ⟨‹_›, rfl, rfl, rfl, rfl, rfl, rfl⟩
  · exact ⟨rfl, rfl, rfl, rfl, rfl, rfl, rfl⟩

theorem fastPathCount_eq (recv : RecverState) (seq : Nat) :
    fastPathCount recv (b.packet seq) =
      (fastPathBranch (fastPathFirst recv seq) (b.packet seq)).map
        fun outcome => (followLast outcome.1 outcome.2 seq, outcome.2) := by
  unfold fastPathCount
  rw [show (b.packet seq).seqNum = seq from rfl]
  cases fastPathBranch (fastPathFirst recv seq) (b.packet seq) <;> rfl

/-- Packet zero of an unlearned broadcast is decided after its metadata are taken. -/
theorem fastPathZero_learns (knows : Knows b recv) (unknown : recv.isSeqZero = false)
    (last : recv.seqLst < b.seqMax ∨ recv.seqLst = seqnumMax)
    (completed : fastPathZero recv (b.packet 0) = .ok (next, flags)) :
    FastCase b recv 0 (followLast next flags 0) flags := by
  have taken := learn_tailPatchBufferLen_nonneg knows unknown
  have count := learn_seqMax_eq knows.payload
  have least := learn_bytePayloadMin_eq knows.payload
  have payload : (recv.learn b.metadata).bytePayload = b.payloadLen := knows.payload
  have positive := b.seqMax_pos
  have bounded := b.seqMax_lt
  have final : u32 ((b.seqMax : Int) - 1) = b.seqMax - 1 := by rw [u32_eq]; omega
  unfold fastPathZero at completed
  rw [show (b.packet 0).metadata = b.metadata from rfl, update_learns knows unknown] at completed
  simp only [bind, Except.bind, pure, Except.pure, if_pos taken, count, learn_seqLst, learn_seqFst,
    final] at completed
  split_ifs at completed with follows ahead
  · simp only [Except.ok.injEq, Prod.mk.injEq] at completed
    obtain ⟨rfl, rfl⟩ := completed
    have written : FastCase b recv 0 _ _ := FastCase.zeroInOrder rfl unknown follows
    rw [accept_zero] at written
    exact written
  · have span : ((u32 ((b.seqMax : Int) - recv.seqLst - 2) : Int) * (recv.learn b.metadata).bytePayload +
        (recv.learn b.metadata).bytePayloadMin) =
        (((b.seqMax - recv.seqLst - 2) * b.payloadLen + (b.data.length - b.offset (b.seqMax - 1)) : Nat) : Int) := by
      have exact : u32 ((b.seqMax : Int) - recv.seqLst - 2) = b.seqMax - recv.seqLst - 2 := by
        rw [u32_eq]
        omega
      rw [exact, payload, least]
      push_cast
      rfl
    rw [span, extendAndWrite_eq] at completed
    simp only [Except.ok.injEq, Prod.mk.injEq] at completed
    obtain ⟨rfl, rfl⟩ := completed
    exact FastCase.zeroJump rfl unknown (fun same => follows (.inl same)) (fun same => follows (.inr same))
      ahead.1 ahead.2
  · simp only [Except.ok.injEq, Prod.mk.injEq] at completed
    obtain ⟨rfl, rfl⟩ := completed
    exact FastCase.zeroRejected rfl unknown (fun same => follows (.inl same))
      (fun same => follows (.inr same)) ahead

theorem fastPathZero_cases (knows : Knows b recv)
    (last : recv.seqLst < b.seqMax ∨ recv.seqLst = seqnumMax)
    (completed : fastPathZero recv (b.packet 0) = .ok (next, flags)) :
    FastCase b recv 0 (followLast next flags 0) flags := by
  cases known : recv.isSeqZero with
  | false => exact fastPathZero_learns knows known last completed
  | true =>
      unfold fastPathZero at completed
      rw [update_again known] at completed
      simp only [bind, Except.bind, pure, Except.pure] at completed
      rw [if_neg (by decide)] at completed
      simp only [Except.ok.injEq, Prod.mk.injEq] at completed
      obtain ⟨rfl, rfl⟩ := completed
      exact FastCase.zeroAgain rfl known

/-- A packet behind a gap is accepted in the half of the round that `seq_lst` is in. -/
theorem fastPathAhead_cases (payload : recv.bytePayload = b.payloadLen) (inside : seq < b.seqMax)
    (beyond : recv.seqLst + 1 < seq)
    (completed : fastPathAhead recv (b.packet seq) = .ok (next, flags)) :
    FastCase b recv seq (followLast next flags seq) flags := by
  have bounded := b.seqMax_lt
  have span : (u32 ((seq : Int) - recv.seqLst - 1) : Int) * recv.bytePayload =
      (((seq - recv.seqLst - 1) * b.payloadLen : Nat) : Int) := by
    have exact : u32 ((seq : Int) - recv.seqLst - 1) = seq - recv.seqLst - 1 := by
      rw [u32_eq]
      omega
    rw [exact, payload]
    push_cast
    rfl
  have after : u32 ((recv.seqLst : Int) + 1) = recv.seqLst + 1 := u32_succ (by omega)
  unfold fastPathAhead at completed
  simp only [Broadcast.packet, span, after, extendAndWrite_eq] at completed
  simp only [bind, Except.bind, pure, Except.pure] at completed
  split_ifs at completed with first second
  · simp only [Except.ok.injEq, Prod.mk.injEq] at completed
    obtain ⟨rfl, rfl⟩ := completed
    exact FastCase.jump beyond (.inl first.2)
  · simp only [Except.ok.injEq, Prod.mk.injEq] at completed
    obtain ⟨rfl, rfl⟩ := completed
    exact FastCase.jump beyond (.inr second)
  · simp only [Except.ok.injEq, Prod.mk.injEq] at completed
    obtain ⟨rfl, rfl⟩ := completed
    exact FastCase.jumpRejected beyond (by omega) (by omega)

theorem fastPathWrap_cases (payload : recv.bytePayload = b.payloadLen) (nonzero : seq ≠ 0)
    (below : seq < recv.seqFst) (above : recv.seqFst < recv.seqLst)
    (completed : fastPathWrap recv (b.packet seq) = .ok (next, flags)) :
    FastCase b recv seq (followLast next flags seq) flags := by
  have span : (seq : Int) * recv.bytePayload = ((seq * b.payloadLen : Nat) : Int) := by
    rw [payload]
    push_cast
    rfl
  unfold fastPathWrap at completed
  by_cases tail : recv.seqTail = 0
  · by_cases start : recv.fileMetadata.start = -1
    · simp only [Broadcast.packet, span, extendAndWrite_eq, tail, start, ne_eq, not_true_eq_false,
        if_false] at completed
      simp only [bind, Except.bind, pure, Except.pure, Except.ok.injEq, Prod.mk.injEq] at completed
      obtain ⟨rfl, rfl⟩ := completed
      exact FastCase.wrap nonzero below above tail start
    · simp [tail, start, bind, Except.bind, throw, throwThe, MonadExceptOf.throw] at completed
  · simp [tail, bind, Except.bind, throw, throwThe, MonadExceptOf.throw] at completed

/-- Every completed packet is one of the cases. -/
theorem fastPathBranch_cases (knows : Knows b recv) (inside : seq < b.seqMax)
    (last : recv.seqLst < b.seqMax ∨ recv.seqLst = seqnumMax)
    (completed : fastPathBranch recv (b.packet seq) = .ok (next, flags)) :
    FastCase b recv seq (followLast next flags seq) flags := by
  have bounded := b.seqMax_lt
  have sentinel := seqnumMax_eq
  have ordered : u32 ((seq : Int) - recv.seqLst) = 1 ↔ seq = recv.seqLst + 1 := by
    rw [u32_eq]
    omega
  unfold fastPathBranch at completed
  rw [show (b.packet seq).seqNum = seq from rfl] at completed
  split_ifs at completed with follows zero ahead wrapped
  · simp only [Except.ok.injEq, Prod.mk.injEq] at completed
    obtain ⟨rfl, rfl⟩ := completed
    have written : FastCase b recv seq _ _ := FastCase.inOrder follows.1 (ordered.mp follows.2)
    rw [accept_zero] at written
    exact written
  · subst zero
    exact fastPathZero_cases knows last completed
  · rw [ordered] at follows
    exact fastPathAhead_cases knows.payload inside (by omega) completed
  · exact fastPathWrap_cases knows.payload zero wrapped.1 wrapped.2 completed
  · simp only [Except.ok.injEq, Prod.mk.injEq] at completed
    obtain ⟨rfl, rfl⟩ := completed
    exact FastCase.behind zero (by omega) wrapped

/-- The state in which the branches decide on a packet. -/
theorem fastPathCount_cases (knows : Knows b (fastPathFirst recv seq)) (inside : seq < b.seqMax)
    (last : (fastPathFirst recv seq).seqLst < b.seqMax ∨ (fastPathFirst recv seq).seqLst = seqnumMax)
    (completed : fastPathCount recv (b.packet seq) = .ok (next, flags)) :
    FastCase b (fastPathFirst recv seq) seq next flags := by
  rw [fastPathCount_eq] at completed
  cases branch : fastPathBranch (fastPathFirst recv seq) (b.packet seq) with
  | error fault => simp [branch, Except.map] at completed
  | ok outcome =>
      obtain ⟨branched, reported⟩ := outcome
      rw [branch] at completed
      simp only [Except.map, Except.ok.injEq, Prod.mk.injEq] at completed
      obtain ⟨rfl, rfl⟩ := completed
      exact fastPathBranch_cases knows inside last branch

theorem extendAndWrite_completes (recv : RecverState) {gap : Int} (forward : 0 ≤ gap)
    (payload : List UInt8) : ∃ written, recv.extendAndWrite gap payload = .ok written := by
  obtain ⟨natural, rfl⟩ := Int.eq_ofNat_of_zero_le forward
  exact ⟨_, extendAndWrite_eq recv natural payload⟩

/-- The branch for packet zero never fails an assert. -/
theorem fastPathZero_completes (knows : Knows b recv) :
    ∃ outcome, fastPathZero recv (b.packet 0) = .ok outcome := by
  unfold fastPathZero
  rw [show (b.packet 0).metadata = b.metadata from rfl]
  cases known : recv.isSeqZero with
  | true =>
      rw [update_again known]
      exact ⟨(recv, PacketFlags.error), rfl⟩
  | false =>
      have taken := learn_tailPatchBufferLen_nonneg knows known
      rw [update_learns knows known]
      simp only [bind, Except.bind, pure, Except.pure, if_pos taken]
      split_ifs with follows ahead
      · exact ⟨_, rfl⟩
      · have forward : 0 ≤
            (u32 (((recv.learn b.metadata).seqMax : Int) - (recv.learn b.metadata).seqLst - 2) : Int) *
              (recv.learn b.metadata).bytePayload + (recv.learn b.metadata).bytePayloadMin := by
          positivity
        obtain ⟨written, completed⟩ :=
          extendAndWrite_completes (recv.learn b.metadata) forward (b.packet 0).payload
        rw [completed]
        exact ⟨_, rfl⟩
      · exact ⟨_, rfl⟩

/-- The branch for a packet ahead of `seq_lst` never fails an assert. -/
theorem fastPathAhead_completes (recv : RecverState) (pkt : DataPacket) :
    ∃ outcome, fastPathAhead recv pkt = .ok outcome := by
  have forward : 0 ≤ (u32 ((pkt.seqNum : Int) - recv.seqLst - 1) : Int) * recv.bytePayload := by
    positivity
  obtain ⟨written, completed⟩ := extendAndWrite_completes recv forward pkt.payload
  unfold fastPathAhead
  simp only [bind, Except.bind, pure, Except.pure, completed]
  split_ifs
  · exact ⟨_, rfl⟩
  · exact ⟨_, rfl⟩
  · exact ⟨_, rfl⟩

/-- The wrap branch fails exactly at its two asserts. -/
theorem fastPathWrap_error (recv : RecverState) (pkt : DataPacket) (fault : Assertion) :
    fastPathWrap recv pkt = .error fault ↔
      (recv.seqTail ≠ 0 ∧ fault = .seqTailZero) ∨
        (recv.seqTail = 0 ∧ recv.fileMetadata.start ≠ -1 ∧ fault = .fileStartUnset) := by
  unfold fastPathWrap
  by_cases tail : recv.seqTail = 0
  · by_cases start : recv.fileMetadata.start = -1
    · have forward : 0 ≤ (pkt.seqNum : Int) * recv.bytePayload := by positivity
      obtain ⟨written, completed⟩ := extendAndWrite_completes recv.recordTail forward pkt.payload
      unfold RecverState.recordTail at completed
      simp [tail, start, completed, bind, Except.bind, pure, Except.pure]
    · simp [tail, start, bind, Except.bind, throw, throwThe, MonadExceptOf.throw, eq_comm]
  · simp [tail, bind, Except.bind, throw, throwThe, MonadExceptOf.throw, eq_comm]

/-- The asserts of the wrap branch are the only ones that a packet of the broadcast can fail. -/
theorem fastPathBranch_error (knows : Knows b recv) (inside : seq < b.seqMax)
    (last : recv.seqLst < b.seqMax ∨ recv.seqLst = seqnumMax) (fault : Assertion) :
    fastPathBranch recv (b.packet seq) = .error fault ↔
      (seq ≠ 0 ∧ seq < recv.seqFst ∧ recv.seqFst < recv.seqLst) ∧
        ((recv.seqTail ≠ 0 ∧ fault = .seqTailZero) ∨
          (recv.seqTail = 0 ∧ recv.fileMetadata.start ≠ -1 ∧ fault = .fileStartUnset)) := by
  have bounded := b.seqMax_lt
  have sentinel := seqnumMax_eq
  have ordered : u32 ((seq : Int) - recv.seqLst) = 1 → recv.seqLst < seq ∨ seq = 0 := by
    rw [u32_eq]
    omega
  unfold fastPathBranch
  rw [show (b.packet seq).seqNum = seq from rfl]
  split_ifs with follows zero ahead wrapped
  · have outside := ordered follows.2
    simp
    omega
  · subst zero
    obtain ⟨outcome, completed⟩ := fastPathZero_completes knows
    simp [completed]
  · obtain ⟨outcome, completed⟩ := fastPathAhead_completes recv (b.packet seq)
    simp [completed]
    omega
  · rw [fastPathWrap_error]
    simp [zero, wrapped]
  · simp
    omega

theorem fastPathCount_error (recv : RecverState) (seq : Nat) (fault : Assertion) :
    fastPathCount recv (b.packet seq) = .error fault ↔
      fastPathBranch (fastPathFirst recv seq) (b.packet seq) = .error fault := by
  rw [fastPathCount_eq]
  cases fastPathBranch (fastPathFirst recv seq) (b.packet seq) <;> simp [Except.map]

theorem FastCase.knows (branch : FastCase b recv seq next flags) (knows : Knows b recv) :
    Knows b next := by
  cases branch with
  | inOrder | jump | wrap => exact ⟨knows.bcdId, knows.payload, knows.learned, knows.unlearned⟩
  | zeroInOrder | zeroJump =>
      have learned := knows.learn
      exact ⟨learned.bcdId, learned.payload, learned.learned, learned.unlearned⟩
  | zeroRejected => exact knows.learn
  | zeroAgain | jumpRejected | behind => exact knows

/-- The branches keep what the accounting does not follow. -/
theorem FastCase.frame (branch : FastCase b recv seq next flags) :
    next.isSeqFst = recv.isSeqFst ∧ next.seqFst = recv.seqFst ∧
      next.numSlowRecvEd = recv.numSlowRecvEd ∧ next.isFastpath = recv.isFastpath ∧
      next.isFinished = recv.isFinished ∧ (recv.isSeqZero = true → next.isSeqZero = true) := by
  cases branch <;> simp [RecverState.recordTail]

/-- A packet opens and closes no stream. -/
theorem FastCase.streams (branch : FastCase b recv seq next flags) :
    (next.fdP = none ↔ recv.fdP = none) ∧ next.fdPatchP = recv.fdPatchP := by
  cases branch with
  | zeroRejected | zeroAgain | jumpRejected | behind => exact ⟨Iff.rfl, rfl⟩
  | inOrder | zeroInOrder | zeroJump | jump | wrap =>
      refine ⟨?_, rfl⟩
      simp [RecverState.accept, RecverState.writeFastData, RecverState.fwriteFast, RecverState.recordTail,
        RecverState.learn, RecverState.withFileMetadata, RecverState.withTailBuffer, RecverState.withGeometry]

/-- Exactly the accepted packets are counted. -/
theorem FastCase.counts (branch : FastCase b recv seq next flags) :
    next.numFastRecvEd = if flags.seqError then recv.numFastRecvEd else recv.numFastRecvEd + 1 := by
  cases branch <;> rfl

/-- Exactly the accepted packets move `seq_lst`. -/
theorem FastCase.lst (branch : FastCase b recv seq next flags) :
    next.seqLst = if flags.seqError then recv.seqLst else seq := by
  cases branch <;> rfl

/-- An accepted packet zero carries the metadata. -/
theorem FastCase.zero (branch : FastCase b recv seq next flags) (accepted : flags.seqError = false)
    (zero : seq = 0) : next.isSeqZero = true := by
  cases branch with
  | inOrder nonzero | wrap nonzero => exact absurd zero nonzero
  | zeroInOrder | zeroJump => rw [accept_isSeqZero, learn_isSeqZero]
  | jump beyond => omega
  | zeroRejected | zeroAgain | jumpRejected | behind => cases accepted

/-- The first packet counts as the one that follows `seq_lst`. -/
theorem fastPathFirst_fresh (unstarted : recv.isSeqFst = false) (bounded : seq < 4294967296) :
    fastPathFirst recv seq =
      { recv with
        seqLst := if seq = 0 then seqnumMax else seq - 1
        seqFst := seq
        isSeqFst := true } := by
  rw [fastPathFirst, if_neg (by simp [unstarted])]
  by_cases zero : seq = 0
  · simp [zero]
  · have exact : u32 ((seq : Int) - 1) = seq - 1 := by
      rw [u32_eq]
      omega
    rw [if_pos zero, if_neg zero, exact]

/-- The first packet is always accepted. -/
theorem FastCase.first (unstarted : recv.isSeqFst = false) (unknown : recv.isSeqZero = false)
    (inside : seq < b.seqMax) (branch : FastCase b (fastPathFirst recv seq) seq next flags) :
    flags.seqError = false ∧ flags.seqJump = false ∧
      next = (if seq = 0 then (fastPathFirst recv seq).learn b.metadata else fastPathFirst recv seq).accept 0
        (b.slice seq) seq := by
  have bounded := b.seqMax_lt
  have fixed : fastPathFirst recv seq = _ := fastPathFirst_fresh unstarted (by omega)
  have fst : (fastPathFirst recv seq).seqFst = seq := by rw [fixed]
  have lst : (fastPathFirst recv seq).seqLst = if seq = 0 then seqnumMax else seq - 1 := by rw [fixed]
  have hidden : (fastPathFirst recv seq).isSeqZero = false := by rw [fixed]; exact unknown
  cases branch with
  | inOrder nonzero follows => exact ⟨rfl, rfl, by rw [if_neg nonzero]⟩
  | zeroInOrder zero unknown follows => exact ⟨rfl, rfl, by rw [if_pos zero]⟩
  | zeroJump zero unknown gap started ahead nonzero => exact absurd (by rw [lst, if_pos zero]) started
  | zeroRejected zero unknown gap started behind => exact absurd (by rw [lst, if_pos zero]) started
  | zeroAgain zero known => exact absurd (hidden.symm.trans known) (by simp)
  | jump beyond half =>
      rw [lst] at beyond
      split_ifs at beyond <;> omega
  | jumpRejected beyond low high =>
      rw [lst] at beyond
      split_ifs at beyond <;> omega
  | wrap nonzero below above tail start => omega
  | behind nonzero late outside =>
      rw [lst, if_neg nonzero] at late
      omega

/-- A packet outside the wrap branch completes. -/
theorem fastPathCount_completes (knows : Knows b (fastPathFirst recv seq)) (inside : seq < b.seqMax)
    (last : (fastPathFirst recv seq).seqLst < b.seqMax ∨ (fastPathFirst recv seq).seqLst = seqnumMax)
    (safe : ¬(seq ≠ 0 ∧ seq < (fastPathFirst recv seq).seqFst ∧
      (fastPathFirst recv seq).seqFst < (fastPathFirst recv seq).seqLst)) :
    ∃ counted flags, fastPathCount recv (b.packet seq) = .ok (counted, flags) ∧
      FastCase b (fastPathFirst recv seq) seq counted flags := by
  cases counting : fastPathCount recv (b.packet seq) with
  | error fault =>
      have failed := (fastPathCount_error recv seq fault).mp counting
      exact absurd ((fastPathBranch_error knows inside last fault).mp failed).1 safe
  | ok outcome => exact ⟨outcome.1, outcome.2, rfl, fastPathCount_cases knows inside last counting⟩

end Branches

end RepublicAgent
