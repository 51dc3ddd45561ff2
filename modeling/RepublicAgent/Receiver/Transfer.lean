/-
This file runs one receiver against the packets and patches of one broadcast.
-/

import RepublicAgent.Library.Execution
import RepublicAgent.Receiver.FastCases
import RepublicAgent.Receiver.SlowCases
import RepublicAgent.Sender.PatchRing

namespace RepublicAgent
open Execution MachineInteger

/-- The logs keep the accepted packets, the requested ranges and the patches in order.
The pending patches are requested and not yet delivered. -/
structure Transfer where
  recv : RecverState
  fastLog : List Nat
  ring : List PatchTuple
  pending : List Nat
  slowLog : List Nat
  fastDoneSeen : Bool
deriving DecidableEq, Repr

/-- A patch event names the position of a pending patch. The oldest one has position zero. -/
inductive TransferEvent (b : Broadcast) where
  | packet (seq : Fin b.seqMax)
  | patch (index : Nat)
  | fastDone

/-- A transfer starts with a receiver state that accepts the fast path. -/
def Transfer.fresh (b : Broadcast) : Transfer where
  recv := recverStateStartFathPath (createRecverState b.bcdId b.payloadLen)
  fastLog := []
  ring := []
  pending := []
  slowLog := []
  fastDoneSeen := false

/-- The tuples of the jumps that a packet reports. -/
def jumpTuples (msgs : List N2cMsg) : List PatchTuple :=
  msgs.filterMap fun msg => match msg with
    | .seqJump _ pt => some pt
    | _ => none

/-- The sender splits the requests with the end of a round from the first packet of the receiver. -/
def Transfer.request (b : Broadcast) (round : Nat) (t : Transfer) (tuples : List PatchTuple) :
    Transfer :=
  let parts := tuples.flatMap (msgPatchReq b.seqMax (round * b.seqMax + t.recv.seqFst))
  { t with ring := t.ring ++ parts, pending := t.pending ++ parts.flatMap PatchTuple.seqs }

/-- The function feeds one event to the receiver. `MSG_FAST_DONE` comes once and after the first
packet. -/
def transferStep (b : Broadcast) (round : Nat) (t : Transfer) :
    TransferEvent b → Except Assertion Transfer
  | .packet seq => do
      let (recv, msgs) ← processRings t.recv (b.packet seq)
      let fastLog :=
        if t.recv.numFastRecvEd < recv.numFastRecvEd then t.fastLog ++ [seq.val] else t.fastLog
      return { t with recv := recv, fastLog := fastLog }.request b round (jumpTuples msgs)
  | .patch index =>
      match t.pending[index]? with
      | none => .ok t
      | some seq => do
          let (recv, _) ← msgPatchData t.recv (b.packet seq)
          return { t with
            recv := recv
            pending := t.pending.eraseIdx index
            slowLog := t.slowLog ++ [seq] }
  | .fastDone =>
      if t.recv.isSeqFst ∧ ¬t.fastDoneSeen then
        let (recv, pt) := msgFastDone t.recv
        .ok ({ t with recv := recv, fastDoneSeen := true }.request b round pt.toList)
      else .ok t

/-- A run of the transfer from its fresh state. -/
def transferRun (b : Broadcast) (round : Nat) (events : List (TransferEvent b)) :
    Except Assertion Transfer :=
  execute (transferStep b round) (Transfer.fresh b) events

section Steps

variable {b : Broadcast} {round : Nat} {t next : Transfer}

@[simp] theorem request_nil (t : Transfer) : t.request b round [] = t := by
  simp [Transfer.request]

theorem jumpTuples_n2cMessages (recv : RecverState) (seqNum : Nat) (seqFirst seqAll : Bool)
    (flags : PacketFlags) :
    jumpTuples (n2cMessages recv seqNum seqFirst seqAll flags) =
      if flags.seqJump then flags.pt.toList else [] := by
  have skipped (holds : Prop) [Decidable holds] (msg : N2cMsg) (other : jumpTuples [msg] = []) :
      jumpTuples (if holds then [msg] else []) = [] := by
    split_ifs
    · exact other
    · rfl
  have first := skipped (seqFirst = true) (.seqFirst recv.bcdId seqNum) rfl
  have zero := skipped (flags.seqZero = true ∧ 1 < recv.seqMax) (.seqZero recv.bcdId) rfl
  have all := skipped (seqAll = true ∧ 1 < recv.seqMax) (.seqAll recv.bcdId) rfl
  unfold jumpTuples at first zero all ⊢
  rw [n2cMessages, List.filterMap_append, List.filterMap_append, List.filterMap_append, first, zero, all]
  cases flags.pt <;> cases flags.seqJump <;> rfl

/-- The end of the fast path concerns the streams, the file and the two flags only. -/
theorem fastPathLast_frame (recv : RecverState) (seqNum : Nat) :
    (fastPathLast recv seqNum).1 =
      { recv with
        isFastpath := (fastPathLast recv seqNum).1.isFastpath
        isFinished := (fastPathLast recv seqNum).1.isFinished
        fileMetadata := (fastPathLast recv seqNum).1.fileMetadata
        file := (fastPathLast recv seqNum).1.file
        fdP := (fastPathLast recv seqNum).1.fdP
        fdPatchP := (fastPathLast recv seqNum).1.fdPatchP
        tailPatchBuffer := (fastPathLast recv seqNum).1.tailPatchBuffer } := by
  unfold fastPathLast fastPathTest
  split_ifs <;> rfl

/-- The completion test of the control channel leaves the counters and the positions. -/
theorem patchDataTest_frame (recv : RecverState) :
    (patchDataTest recv).1 =
      { recv with
        isFinished := (patchDataTest recv).1.isFinished
        fileMetadata := (patchDataTest recv).1.fileMetadata
        file := (patchDataTest recv).1.file
        fdP := (patchDataTest recv).1.fdP
        fdPatchP := (patchDataTest recv).1.fdPatchP
        tailPatchBuffer := (patchDataTest recv).1.tailPatchBuffer } := by
  unfold patchDataTest
  split_ifs <;> rfl

/-- Only the last optical packet stops the fast path or finishes the receiver. -/
theorem fastPathLast_running {recv : RecverState} {seqNum : Nat}
    (running : (fastPathLast recv seqNum).1.isFastpath = true) :
    isLastOptical recv seqNum = false ∧ (fastPathLast recv seqNum).1 = recv := by
  cases last : isLastOptical recv seqNum with
  | false => exact ⟨rfl, by rw [fastPathLast, if_neg (by simp [last])]⟩
  | true =>
      rw [fastPathLast, if_pos last, fastPathTest] at running
      split_ifs at running <;> cases running

theorem fastPathLast_finished {recv : RecverState} {seqNum : Nat} (unfinished : recv.isFinished = false)
    (finished : (fastPathLast recv seqNum).1.isFinished = true) :
    recverStateHasGottenAllData recv = true := by
  unfold fastPathLast fastPathTest at finished
  split_ifs at finished with last gotten
  · exact gotten
  · exact absurd (unfinished.symm.trans finished) (by simp)
  · exact absurd (unfinished.symm.trans finished) (by simp)

theorem patchDataTest_finished {recv : RecverState} (unfinished : recv.isFinished = false)
    (finished : (patchDataTest recv).1.isFinished = true) :
    recverStateHasGottenAllData recv = true := by
  unfold patchDataTest at finished
  split_ifs at finished with gotten
  · exact gotten
  · exact absurd (unfinished.symm.trans finished) (by simp)

theorem fresh_knows (b : Broadcast) : Knows b (Transfer.fresh b).recv where
  bcdId := rfl
  payload := u16_natCast b.payloadFits
  learned := fun known => by cases known
  unlearned := fun _ => ⟨rfl, rfl, rfl⟩

theorem Knows.first {recv : RecverState} (knows : Knows b recv) (seq : Nat) :
    Knows b (fastPathFirst recv seq) := by
  unfold fastPathFirst
  split
  · exact knows
  · exact ⟨knows.bcdId, knows.payload, knows.learned, knows.unlearned⟩

theorem Knows.last {recv : RecverState} (knows : Knows b recv) (seq : Nat) :
    Knows b (fastPathLast recv seq).1 := by
  have stopped : Knows b (fastPathStop recv) :=
    ⟨knows.bcdId, knows.payload, knows.learned, knows.unlearned⟩
  unfold fastPathLast fastPathTest
  split_ifs
  · exact stopped.finish
  · exact stopped
  · exact knows

theorem Knows.test {recv : RecverState} (knows : Knows b recv) : Knows b (patchDataTest recv).1 := by
  unfold patchDataTest
  split_ifs
  · exact knows.finish
  · exact knows

/-- The message only stops the fast path of an unfinished receiver. -/
theorem msgFastDone_recv (recv : RecverState) :
    (msgFastDone recv).1 = if recv.isFinished then recv else recverStateStopFathPath recv := by
  unfold msgFastDone
  split
  · rfl
  · dsimp only
    split_ifs <;> rfl

theorem Knows.fastDone {recv : RecverState} (knows : Knows b recv) : Knows b (msgFastDone recv).1 := by
  rw [msgFastDone_recv]
  split
  · exact knows
  · exact ⟨knows.bcdId, knows.payload, knows.learned, knows.unlearned⟩

/-- A stopped fast path ignores its packets. -/
theorem transferStep_packet_stopped (stopped : t.recv.isFastpath = false) (seq : Fin b.seqMax) :
    transferStep b round t (.packet seq) = .ok t := by
  have ignored : processRings t.recv (b.packet seq) = .ok (t.recv, []) := by
    rw [processRings, if_neg (by simp [stopped])]
  simp [transferStep, ignored, bind, Except.bind, pure, Except.pure, jumpTuples]

/-- A packet of the running fast path is counted first and may be the last optical one. -/
theorem transferStep_packet_eq (running : t.recv.isFastpath = true) (seq : Fin b.seqMax) :
    transferStep b round t (.packet seq) = (fastPathCount t.recv (b.packet seq)).map fun outcome =>
      ({ t with
        recv := (fastPathLast outcome.1 seq).1
        fastLog := if t.recv.numFastRecvEd < outcome.1.numFastRecvEd then t.fastLog ++ [seq.val]
          else t.fastLog } : Transfer).request b round
        (if outcome.2.seqJump then outcome.2.pt.toList else []) := by
  have reported : processRings t.recv (b.packet seq) = (fastPathCount t.recv (b.packet seq)).map
      fun outcome => ((fastPathLast outcome.1 seq).1, n2cMessages (fastPathLast outcome.1 seq).1 seq
        (!t.recv.isSeqFst) (fastPathLast outcome.1 seq).2 outcome.2) := by
    rw [processRings, if_pos running]
    cases fastPathCount t.recv (b.packet seq) <;> rfl
  cases counting : fastPathCount t.recv (b.packet seq) with
  | error fault => simp [transferStep, reported, counting, bind, Except.bind, Except.map]
  | ok outcome =>
      simp only [transferStep, reported, counting, bind, Except.bind, pure, Except.pure, Except.map,
        jumpTuples_n2cMessages, Except.ok.injEq]
      rw [congrArg RecverState.numFastRecvEd (fastPathLast_frame outcome.1 seq)]

theorem transferStep_packet (running : t.recv.isFastpath = true) {seq : Fin b.seqMax}
    (completed : transferStep b round t (.packet seq) = .ok next) :
    ∃ counted flags, fastPathCount t.recv (b.packet seq) = .ok (counted, flags) ∧
      next = ({ t with
        recv := (fastPathLast counted seq).1
        fastLog := if t.recv.numFastRecvEd < counted.numFastRecvEd then t.fastLog ++ [seq.val]
          else t.fastLog } : Transfer).request b round (if flags.seqJump then flags.pt.toList else []) := by
  rw [transferStep_packet_eq running] at completed
  cases counting : fastPathCount t.recv (b.packet seq) with
  | error fault =>
      rw [counting] at completed
      cases completed
  | ok outcome =>
      rw [counting] at completed
      exact ⟨outcome.1, outcome.2, rfl, (Except.ok.inj completed).symm⟩

/-- A patch event without a pending patch does nothing. -/
theorem transferStep_patch {index : Nat}
    (completed : transferStep b round t (.patch index) = .ok next) :
    next = t ∨ ∃ seq recv counted, t.pending[index]? = some seq ∧
      patchDataCount t.recv (b.packet seq) = .ok (recv, counted) ∧
      next = { t with
        recv := if counted then (patchDataTest recv).1 else recv
        pending := t.pending.eraseIdx index
        slowLog := t.slowLog ++ [seq] } := by
  simp only [transferStep] at completed
  cases requested : t.pending[index]? with
  | none =>
      simp only [requested, Except.ok.injEq] at completed
      exact .inl completed.symm
  | some seq =>
      simp only [requested, msgPatchData] at completed
      cases counting : patchDataCount t.recv (b.packet seq) with
      | error fault => simp [counting, bind, Except.bind] at completed
      | ok outcome =>
          obtain ⟨recv, counted⟩ := outcome
          simp only [counting, bind, Except.bind, pure, Except.pure, Except.ok.injEq] at completed
          refine .inr ⟨seq, recv, counted, rfl, counting, ?_⟩
          rw [← completed]
          cases counted <;> rfl

/-- The message stops the fast path of a receiver that has its first packet. -/
theorem transferStep_fastDone (completed : transferStep b round t .fastDone = .ok next) :
    next = t ∨ (t.recv.isSeqFst = true ∧ t.fastDoneSeen = false ∧
      next = ({ t with recv := (msgFastDone t.recv).1, fastDoneSeen := true } : Transfer).request b round
        (msgFastDone t.recv).2.toList) := by
  simp only [transferStep] at completed
  split_ifs at completed with due
  · refine .inr ⟨due.1, by simpa using due.2, ?_⟩
    simpa only [Except.ok.injEq] using completed.symm
  · exact .inl (Except.ok.inj completed).symm

end Steps

end RepublicAgent
