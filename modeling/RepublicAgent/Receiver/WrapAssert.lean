/-
This file says when the asserts of the wrap branch fail.
-/

import RepublicAgent.Receiver.Storage
import RepublicAgent.Receiver.Transfer

namespace RepublicAgent
open Execution MachineInteger

/-- A receiver is fed with fast-path packets and with patch packets of the broadcast. -/
inductive Arrival (b : Broadcast) where
  | packet (seq : Fin b.seqMax)
  | patch (seq : Fin b.seqMax)
deriving DecidableEq, Repr

def arrivalStep (b : Broadcast) (recv : RecverState) : Arrival b → Except Assertion RecverState
  | .packet seq => (processPacket recv (b.packet seq)).map Prod.fst
  | .patch seq => (processPatch recv (b.packet seq)).map Prod.fst

/-- The run starts with a fresh receiver state and stops at the first failed assert or use of a null stream. -/
def arrivalRun (b : Broadcast) (arrivals : List (Arrival b)) : Except Assertion RecverState :=
  execute (arrivalStep b) (recverStateStartFathPath (createRecverState b.bcdId b.payloadLen)) arrivals

/-- The sender emits the packets of the broadcast round after round. -/
def emission (seqMax rounds : Nat) : List Nat := (List.replicate rounds (List.range seqMax)).flatten

/-- The fast-path packets of the arrivals. -/
def packetSeqs {b : Broadcast} (arrivals : List (Arrival b)) : List Nat :=
  arrivals.filterMap fun arrival => match arrival with
    | .packet seq => some seq.val
    | .patch _ => none

/-- A receiver is in the first half of its round as long as it has no packet before its first one. The
first half knows its first and its last packet, whether the metadata of packet zero were read and how many
packets and patches were counted. Patches that complete the count close the streams. -/
inductive Round where
  | fresh (count : Nat)
  | firstHalf (fst lst : Nat) (known : Bool) (count : Nat)
  | closed (fst lst : Nat)
  | passed
  | aborted
deriving DecidableEq, Repr

/-- The first half of the round follows the arrivals without the receiver state. A packet zero that comes
before every packet behind the first one is rejected after its metadata were read. Behind closed streams a
late wrap still fails its assert, and every other packet or patch that is taken ends the agent. -/
def Round.follow (b : Broadcast) : Round → Arrival b → Round
  | .fresh count, .packet seq => if seq.val = 0 then .passed else .firstHalf seq seq false (count + 1)
  | .fresh count, .patch seq => if seq.val = 0 then .fresh count else .fresh (count + 1)
  | .firstHalf fst lst known count, .packet seq =>
      if 0 < seq.val ∧ seq.val < fst ∧ fst < lst then if known then .aborted else .passed
      else if seq.val + 1 = fst then .passed
      else if seq.val = 0 ∧ ¬known then
        if fst < lst ∨ fst + 1 = b.seqMax ∨ fst = seqnumMax then .passed else .firstHalf fst lst true count
      else if lst < seq.val then .firstHalf fst seq known (count + 1)
      else .firstHalf fst lst known count
  | .firstHalf fst lst known count, .patch seq =>
      if seq.val = fst then .firstHalf fst lst known count
      else if (known ∨ seq.val = 0) ∧ count + 1 = b.seqMax then .closed fst lst
      else .firstHalf fst lst (known || decide (seq.val = 0)) (count + 1)
  | .closed fst lst, .packet seq =>
      if 0 < seq.val ∧ seq.val < fst ∧ fst < lst then .aborted
      else if lst < seq.val ∨ seq.val + 1 = fst then .passed
      else .closed fst lst
  | .closed fst lst, .patch seq => if seq.val = fst then .closed fst lst else .passed
  | round, _ => round

/-- The asserts of the branch that handles a wrap without packet zero. -/
def Assertion.ofWrap : Assertion → Prop
  | .seqTailZero | .fileStartUnset => True
  | _ => False

/-- The metadata of a receiver in its first half come from packet zero alone. -/
structure Early (b : Broadcast) (recv : RecverState) (known : Bool) : Prop where
  knows : Knows b recv
  running : recv.isFastpath = true
  tail : recv.seqTail = 0
  isSeqZero : recv.isSeqZero = known
  unset : known = false → recv.fileMetadata.start = -1
  set : known = true → 0 ≤ recv.fileMetadata.start

/-- A receiver behind its first packet and in front of every packet before that one. -/
structure Half (b : Broadcast) (recv : RecverState) (fst lst : Nat) (known : Bool) : Prop where
  early : Early b recv known
  started : recv.isSeqFst = true
  seqFst : recv.seqFst = fst
  seqLst : recv.seqLst = lst
  nonzero : fst ≠ 0
  after : fst ≤ lst
  inside : lst < b.seqMax

/-- Both streams are open as long as the count is not complete. -/
structure Writing (recv : RecverState) (count : Nat) : Prop where
  fdP : recv.fdP ≠ none
  fdPatchP : recv.fdPatchP ≠ none
  counted : recv.numFastRecvEd + recv.numSlowRecvEd = count

/-- The receiver state that a round stands for. -/
def Round.Tracks (b : Broadcast) (recv : RecverState) : Round → Prop
  | .fresh count => Early b recv false ∧ recv.isSeqFst = false ∧ recv.seqFst = 0 ∧ Writing recv count
  | .firstHalf fst lst known count => Half b recv fst lst known ∧ Writing recv count
  | .closed fst lst => Half b recv fst lst true ∧ recv.fdP = none ∧ recv.fdPatchP = none
  | .passed => Knows b recv ∧ recv.isSeqFst = true ∧ recv.seqLst < b.seqMax ∧
      (recv.isFastpath = false ∨ recv.seqFst = 0 ∨ recv.seqLst + 1 < recv.seqFst)
  | .aborted => False

section Steps

variable {b : Broadcast} {recv next : RecverState} {known : Bool} {round : Round} {seq : Nat}

/-- A packet of the running fast path is counted and may be the last optical one. An accepted packet and the
last optical one need the stream. -/
theorem arrivalStep_packet (running : recv.isFastpath = true) (seq : Fin b.seqMax) :
    arrivalStep b recv (.packet seq) = (fastPathCount recv (b.packet seq)).bind fun outcome =>
      if recv.fdP = none ∧
          (recv.numFastRecvEd < outcome.1.numFastRecvEd ∨ isLastOptical outcome.1 seq = true) then
        .error .streamOpen
      else .ok (fastPathLast outcome.1 seq).1 := by
  rw [arrivalStep, processPacket, processRings, if_pos running]
  cases fastPathCount recv (b.packet seq) with
  | error fault => rfl
  | ok outcome =>
      have frame := fastPathLast_frame outcome.1 seq
      have fast : (fastPathLast outcome.1 seq).1.numFastRecvEd = outcome.1.numFastRecvEd := by rw [frame]
      have last : isLastOptical (fastPathLast outcome.1 seq).1 seq = isLastOptical outcome.1 seq := by
        rw [frame]
        rfl
      simp only [bind, Except.bind, pure, Except.pure]
      rw [show (b.packet seq).seqNum = seq from rfl, fast, last]
      simp only [running, true_and]
      split_ifs <;> rfl

/-- A receiver with an open stream takes every packet that fails no assert. -/
theorem arrivalStep_packet_open (running : recv.isFastpath = true) (opened : recv.fdP ≠ none)
    (seq : Fin b.seqMax) :
    arrivalStep b recv (.packet seq) =
      (fastPathCount recv (b.packet seq)).map fun outcome => (fastPathLast outcome.1 seq).1 := by
  rw [arrivalStep_packet running]
  cases fastPathCount recv (b.packet seq) with
  | error fault => rfl
  | ok outcome => exact if_neg fun closed => opened closed.1

theorem arrivalStep_stopped (stopped : recv.isFastpath = false) (seq : Fin b.seqMax) :
    arrivalStep b recv (.packet seq) = .ok recv := by
  rw [arrivalStep, processPacket, processRings, if_neg (by simp [stopped])]
  simp only
  rw [if_neg (by simp [stopped])]
  rfl

/-- A patch packet is counted and may be the last missing one. A counted patch needs the stream. -/
theorem arrivalStep_patch (recv : RecverState) (seq : Fin b.seqMax) :
    arrivalStep b recv (.patch seq) = (patchDataCount recv (b.packet seq)).bind fun outcome =>
      if recv.fdPatchP = none ∧ recv.numSlowRecvEd < outcome.1.numSlowRecvEd then .error .streamOpen
      else .ok (if outcome.2 then (patchDataTest outcome.1).1 else outcome.1) := by
  rw [arrivalStep, processPatch, msgPatchData]
  cases patchDataCount recv (b.packet seq) with
  | error fault => rfl
  | ok outcome =>
      obtain ⟨counted, flag⟩ := outcome
      have slow : (patchDataTest counted).1.numSlowRecvEd = counted.numSlowRecvEd := by
        rw [patchDataTest_frame]
      cases flag with
      | false =>
          simp only [bind, Except.bind, pure, Except.pure, Bool.false_eq_true, if_false]
          split_ifs <;> rfl
      | true =>
          simp only [bind, Except.bind, pure, Except.pure, if_true]
          rw [slow]
          split_ifs <;> rfl

/-- The packet before `seq_fst` stops the fast path, and no other one changes the receiver. -/
theorem fastPathLast_eq (nonzero : recv.seqFst ≠ 0) (bounded : seq + 1 < 4294967296) :
    (seq + 1 = recv.seqFst → (fastPathLast recv seq).1.isFastpath = false) ∧
      (seq + 1 ≠ recv.seqFst → (fastPathLast recv seq).1 = recv) := by
  have last : isLastOptical recv seq = decide (seq + 1 = recv.seqFst) := by
    unfold isLastOptical
    rw [u32_succ bounded]
    simp [nonzero]
  unfold fastPathLast fastPathTest
  constructor
  · intro reached
    rw [last, if_pos (by simpa using reached)]
    split_ifs <;> rfl
  · intro other
    rw [last, if_neg (by simpa using other)]

/-- Packet zero gives a start inside the file as long as no tail was recorded. -/
theorem learn_start_nonneg (knows : Knows b recv) (unknown : recv.isSeqZero = false)
    (tail : recv.seqTail = 0) (inside : recv.seqFst < b.seqMax) (unset : recv.fileMetadata.start = -1) :
    0 ≤ (recv.learn b.metadata).fileMetadata.start := by
  have positive := b.dataPositive
  have measured : (recv.learn b.metadata).tailPatchBufferLen = 0 := by
    have learned := congrArg Prod.snd (learn_tailBuffer knows)
    rw [if_pos tail] at learned
    exact learned.trans (knows.unlearned unknown).2.2
  have start : (recv.learn b.metadata).fileMetadata.start =
      (startDifference b.data.length recv.bytePayload recv.seqFst
        (recv.learn b.metadata).tailPatchBufferLen).tmod b.data.length := by
    apply if_pos
    show recv.fileMetadata.start < 0
    omega
  have below := (b.lt_seqMax_iff recv.seqFst).mp inside
  have before : u32 ((recv.bytePayload : Int) * recv.seqFst) ≤ recv.seqFst * b.payloadLen := by
    rw [knows.payload, show ((b.payloadLen : Int) * recv.seqFst) = ((recv.seqFst * b.payloadLen : Nat) : Int) by
      push_cast; ring, u32_eq]
    omega
  rw [start, measured]
  apply Int.tmod_nonneg
  unfold startDifference
  omega

theorem Early.learn (early : Early b recv false) (inside : recv.seqFst < b.seqMax) :
    Early b (recv.learn b.metadata) true where
  knows := early.knows.learn
  running := early.running
  tail := early.tail
  isSeqZero := rfl
  unset := nofun
  set := fun _ => learn_start_nonneg early.knows early.isSeqZero early.tail inside (early.unset rfl)

theorem Early.write (early : Early b recv known) (payload : List UInt8) (seqNum : Nat) :
    Early b (recv.patch payload seqNum) known :=
  ⟨⟨early.knows.bcdId, early.knows.payload, early.knows.learned, early.knows.unlearned⟩, early.running,
    early.tail, early.isSeqZero, early.unset, early.set⟩

theorem Early.test (early : Early b recv known) : Early b (patchDataTest recv).1 known := by
  have knows := early.knows.test
  unfold patchDataTest at knows ⊢
  split_ifs at knows ⊢
  · exact ⟨knows, early.running, early.tail, early.isSeqZero, early.unset, early.set⟩
  · exact early

/-- In the first half every patch packet is taken, and packet zero brings the metadata. -/
theorem Early.count (early : Early b recv known) (inside : recv.seqFst < b.seqMax) (seq : Nat) :
    ∃ counted flag, patchDataCount recv (b.packet seq) = .ok (counted, flag) ∧
      Early b counted (known || decide (seq = 0 ∧ recv.seqFst ≠ 0)) := by
  have front : ¬(0 < recv.seqTail ∧ recv.seqTail < seq) := by
    rw [early.tail]
    simp
  by_cases first : seq = recv.seqFst
  · have same : (known || decide (seq = 0 ∧ recv.seqFst ≠ 0)) = known := by
      rw [decide_eq_false (by omega), Bool.or_false]
    refine ⟨recv, false, ?_, by rwa [same]⟩
    rw [patchDataCount, show (b.packet seq).seqNum = seq from rfl, if_neg front, if_pos first]
  · by_cases unread : seq = 0 ∧ known = false
    · obtain ⟨rfl, rfl⟩ := unread
      have learned := early.learn inside
      have start : ¬(recv.learn b.metadata).fileMetadata.start < 0 := by
        have nonneg := learned.set rfl
        omega
      refine ⟨(recv.learn b.metadata).patch (b.slice 0) 0, true, ?_, ?_⟩
      · rw [patchDataCount, show (b.packet 0).seqNum = 0 from rfl, if_neg front, if_neg first, if_pos rfl,
          show (b.packet 0).metadata = b.metadata from rfl, update_learns early.knows early.isSeqZero]
        simp only [bind, Except.bind, pure, Except.pure]
        rw [if_neg start]
        rfl
      · rw [Bool.false_or, decide_eq_true ⟨rfl, Ne.symm first⟩]
        exact learned.write _ _
    · have same : (known || decide (seq = 0 ∧ recv.seqFst ≠ 0)) = known := by
        cases known with
        | true => rfl
        | false => exact decide_eq_false fun zero => unread ⟨zero.1, rfl⟩
      refine ⟨recv.patch (b.slice seq) seq, true, ?_, by rw [same]; exact early.write _ _⟩
      cases known with
      | true => exact patchDataCount_known early.isSeqZero (early.set rfl) front first
      | false =>
          rw [patchDataCount, show (b.packet seq).seqNum = seq from rfl, if_neg front, if_neg first,
            if_neg fun zero => unread ⟨zero, rfl⟩]
          rfl

/-- A patch of the first packet is ignored. -/
theorem Early.patch_first (early : Early b recv known) (seq : Fin b.seqMax) (first : seq.val = recv.seqFst) :
    arrivalStep b recv (.patch seq) = .ok recv := by
  have front : ¬(0 < recv.seqTail ∧ recv.seqTail < seq.val) := by
    rw [early.tail]
    simp
  have ignored : patchDataCount recv (b.packet seq) = .ok (recv, false) := by
    rw [patchDataCount, show (b.packet seq).seqNum = seq from rfl, if_neg front, if_pos first]
  rw [arrivalStep_patch, ignored]
  exact if_neg fun used => lt_irrefl _ used.2

/-- Every other patch is counted on an open stream. -/
theorem Early.patch_other (early : Early b recv known) (inside : recv.seqFst < b.seqMax) (seq : Fin b.seqMax)
    (other : seq.val ≠ recv.seqFst) :
    (recv.fdPatchP = none → arrivalStep b recv (.patch seq) = .error .streamOpen) ∧
      (recv.fdPatchP ≠ none → ∃ counted, arrivalStep b recv (.patch seq) = .ok (patchDataTest counted).1 ∧
        SlowCase b recv seq counted true ∧ Early b counted (known || decide (seq.val = 0))) := by
  obtain ⟨counted, flag, counting, learned⟩ := early.count inside seq
  have branch := patchDataCount_cases early.knows counting
  obtain ⟨rfl, one⟩ := branch.counts other
  have zero : decide (seq.val = 0 ∧ recv.seqFst ≠ 0) = decide (seq.val = 0) := by
    rw [decide_eq_decide]
    omega
  rw [arrivalStep_patch, counting]
  refine ⟨fun closed => if_pos ⟨closed, by dsimp only; omega⟩, fun opened => ⟨counted, ?_, branch, zero ▸ learned⟩⟩
  exact if_neg fun closed => opened closed.1

/-- The count of a receiver in its first half is complete once the metadata are read. -/
theorem Early.gotten (early : Early b recv known)
    (some : 0 < recv.numFastRecvEd + recv.numSlowRecvEd) :
    recverStateHasGottenAllData recv =
      (known && decide (recv.numFastRecvEd + recv.numSlowRecvEd = b.seqMax)) := by
  unfold recverStateHasGottenAllData
  cases known with
  | true => rw [(early.knows.learned early.isSeqZero).1, Bool.true_and]
  | false =>
      rw [(early.knows.unlearned early.isSeqZero).1, Bool.false_and]
      exact decide_eq_false some.ne'

theorem Writing.first {count : Nat} (writing : Writing recv count) (seq : Nat) :
    Writing (fastPathFirst recv seq) count := by
  unfold fastPathFirst
  split_ifs
  · exact writing
  · exact ⟨writing.fdP, writing.fdPatchP, writing.counted⟩
  · exact ⟨writing.fdP, writing.fdPatchP, writing.counted⟩

/-- Exactly the accepted packets are counted. -/
theorem Writing.packet {count : Nat} {flags : PacketFlags} (writing : Writing recv count)
    (branch : FastCase b recv seq next flags) :
    Writing next (if flags.seqError then count else count + 1) := by
  have streams := branch.streams
  have fast := branch.counts
  have slow := branch.frame.2.2.1
  have counted := writing.counted
  refine ⟨fun closed => writing.fdP (streams.1.mp closed), streams.2 ▸ writing.fdPatchP, ?_⟩
  split_ifs at fast ⊢ <;> omega

theorem Writing.patch {count : Nat} (writing : Writing recv count) (branch : SlowCase b recv seq next true) :
    Writing next (count + 1) := by
  have streams := branch.streams
  have slow := branch.counted
  have fast := branch.frame.2.2.2.2.1
  have counted := writing.counted
  exact ⟨streams.1 ▸ writing.fdP, fun closed => writing.fdPatchP (streams.2.mp closed), by omega⟩

theorem Early.first (early : Early b recv known) (seq : Nat) : Early b (fastPathFirst recv seq) known := by
  have knows := early.knows.first seq
  unfold fastPathFirst at knows ⊢
  split_ifs at knows ⊢
  · exact early
  · exact ⟨knows, early.running, early.tail, early.isSeqZero, early.unset, early.set⟩
  · exact ⟨knows, early.running, early.tail, early.isSeqZero, early.unset, early.set⟩

theorem Early.accept (early : Early b recv known) (gap : Nat) (payload : List UInt8) (seqNum : Nat) :
    Early b (recv.accept gap payload seqNum) known :=
  ⟨⟨early.knows.bcdId, early.knows.payload, early.knows.learned, early.knows.unlearned⟩, early.running,
    early.tail, early.isSeqZero, early.unset, early.set⟩

/-- A counted packet that leaves the first half or ends the fast path ends the first half. -/
theorem tracks_passed (knows : Knows b recv) (started : recv.isSeqFst = true) (inside : recv.seqLst < b.seqMax)
    (bounded : seq + 1 < 4294967296)
    (half : recv.seqFst = 0 ∨ recv.seqLst + 1 < recv.seqFst ∨ seq + 1 = recv.seqFst) :
    Round.passed.Tracks b (fastPathLast recv seq).1 := by
  have frame := fastPathLast_frame recv seq
  have fst : (fastPathLast recv seq).1.seqFst = recv.seqFst := by rw [frame]
  have lst : (fastPathLast recv seq).1.seqLst = recv.seqLst := by rw [frame]
  refine ⟨knows.last seq, (congrArg RecverState.isSeqFst frame).trans started, by rw [lst]; exact inside, ?_⟩
  rw [fst, lst]
  by_cases zero : recv.seqFst = 0
  · exact .inr (.inl zero)
  · by_cases last : seq + 1 = recv.seqFst
    · exact .inl ((fastPathLast_eq zero bounded).1 last)
    · exact .inr (.inr (by omega))

/-- The first packet opens the first half unless it is packet zero. -/
theorem Round.Tracks.fresh_packet {count : Nat} (tracks : (Round.fresh count).Tracks b recv) (seq : Fin b.seqMax) :
    ∃ next, arrivalStep b recv (.packet seq) = .ok next ∧
      ((Round.fresh count).follow b (.packet seq)).Tracks b next := by
  obtain ⟨early, unstarted, -, writing⟩ := tracks
  have bounded := b.seqMax_lt
  have inside := seq.isLt
  have opened := early.first seq
  have fixed : fastPathFirst recv seq = _ := fastPathFirst_fresh unstarted (by omega)
  have fst : (fastPathFirst recv seq).seqFst = seq := by rw [fixed]
  have started : (fastPathFirst recv seq).isSeqFst = true := by rw [fixed]
  obtain ⟨counted, flags, counting, branch⟩ := fastPathCount_completes opened.knows inside
    (by rw [fixed]; dsimp only; split_ifs <;> omega) (by rw [fst]; omega)
  obtain ⟨accepted, -, shape⟩ := FastCase.first unstarted early.isSeqZero inside branch
  have written := (writing.first seq).packet branch
  rw [if_neg (by simp [accepted])] at written
  refine ⟨_, by rw [arrivalStep_packet_open early.running writing.fdP, counting]; rfl, ?_⟩
  by_cases zero : seq.val = 0
  · rw [Round.follow, if_pos zero]
    rw [if_pos zero] at shape
    have learned := opened.knows.learn
    apply tracks_passed (branch.knows opened.knows)
    · rw [shape, accept_isSeqFst, learn_isSeqFst, started]
    · rw [shape, accept_seqLst]
      exact inside
    · omega
    · left
      rw [shape, accept_seqFst, learn_seqFst, fst, zero]
  · rw [Round.follow, if_neg zero]
    rw [if_neg zero] at shape
    have first : counted.seqFst = seq := by rw [shape, accept_seqFst, fst]
    have kept : (fastPathLast counted seq).1 = counted :=
      (fastPathLast_eq (by rw [first]; exact zero) (by omega)).2 (by rw [first]; omega)
    show (Round.firstHalf seq seq false (count + 1)).Tracks b (fastPathLast counted seq).1
    rw [kept]
    refine ⟨⟨?_, ?_, first, ?_, zero, le_refl _, inside⟩, written⟩
    · rw [shape]
      exact opened.accept _ _ _
    · rw [shape]
      exact started
    · rw [shape, accept_seqLst]

section Halves

variable {fst lst count : Nat}

/-- A late wrap fails an assert once the metadata are read. -/
theorem Half.aborts (half : Half b recv fst lst true) (seq : Fin b.seqMax)
    (late : 0 < seq.val ∧ seq.val < fst ∧ fst < lst) :
    arrivalStep b recv (.packet seq) = .error .fileStartUnset := by
  obtain ⟨early, started, rfl, rfl, nonzero, after, inside⟩ := half
  have start := early.set rfl
  have failed := (fastPathBranch_error early.knows seq.isLt (.inl inside) .fileStartUnset).mpr
    ⟨⟨by omega, late.2⟩, .inr ⟨early.tail, by omega, rfl⟩⟩
  have fixed : fastPathFirst recv seq = recv := fastPathFirst_started started
  rw [← fixed] at failed
  rw [arrivalStep_packet early.running, (fastPathCount_error recv seq _).mpr failed]
  rfl

/-- A late wrap is counted as long as the metadata are not read. -/
theorem Half.wraps (half : Half b recv fst lst false) (seq : Fin b.seqMax)
    (late : 0 < seq.val ∧ seq.val < fst ∧ fst < lst) :
    ∃ counted flags, fastPathCount recv (b.packet seq) = .ok (counted, flags) ∧
      FastCase b recv seq counted flags := by
  obtain ⟨early, started, rfl, rfl, nonzero, after, inside⟩ := half
  have fixed : fastPathFirst recv seq = recv := fastPathFirst_started started
  cases counting : fastPathCount recv (b.packet seq) with
  | error fault =>
      have failed := (fastPathCount_error recv seq fault).mp counting
      rw [fixed] at failed
      rcases (fastPathBranch_error early.knows seq.isLt (.inl inside) fault).mp failed with
        ⟨-, ⟨tail, -⟩ | ⟨-, start, -⟩⟩
      · exact absurd early.tail tail
      · exact absurd (early.unset rfl) start
  | ok outcome =>
      have branch := fastPathCount_cases (early.first seq).knows seq.isLt (by rw [fixed]; exact .inl inside) counting
      rw [fixed] at branch
      exact ⟨outcome.1, outcome.2, rfl, branch⟩

/-- Every other packet is counted or rejected. -/
theorem Half.counts (half : Half b recv fst lst known) (seq : Fin b.seqMax)
    (early : ¬(0 < seq.val ∧ seq.val < fst ∧ fst < lst)) :
    ∃ counted flags, fastPathCount recv (b.packet seq) = .ok (counted, flags) ∧
      FastCase b recv seq counted flags := by
  obtain ⟨first, started, rfl, rfl, nonzero, after, inside⟩ := half
  have fixed : fastPathFirst recv seq = recv := fastPathFirst_started started
  obtain ⟨counted, flags, counting, branch⟩ := fastPathCount_completes (first.first seq).knows seq.isLt
    (by rw [fixed]; exact .inl inside)
    (by rw [fixed]; exact fun wrapped => early ⟨Nat.pos_of_ne_zero wrapped.1, wrapped.2⟩)
  rw [fixed] at branch
  exact ⟨counted, flags, counting, branch⟩

/-- The first packet of a half is one of the broadcast. -/
theorem Half.below (half : Half b recv fst lst known) : recv.seqFst < b.seqMax := by
  rw [half.seqFst]
  exact half.after.trans_lt half.inside

theorem Half.accept (half : Half b recv fst lst known) (gap : Nat) (payload : List UInt8) (seq : Fin b.seqMax)
    (beyond : lst < seq.val) : Half b (recv.accept gap payload seq) fst seq known :=
  ⟨half.early.accept _ _ _, half.started, half.seqFst, rfl, half.nonzero, by have after := half.after; omega,
    seq.isLt⟩

theorem Half.learn (half : Half b recv fst lst false) : Half b (recv.learn b.metadata) fst lst true :=
  ⟨half.early.learn half.below, half.started, half.seqFst, half.seqLst, half.nonzero, half.after, half.inside⟩

theorem Half.patch (half : Half b recv fst lst known) {learned : Bool} (branch : SlowCase b recv seq next true)
    (early : Early b next learned) : Half b next fst lst learned := by
  obtain ⟨first, seqFst, seqLst, -⟩ := branch.frame
  exact ⟨early, first.trans half.started, seqFst.trans half.seqFst, seqLst.trans half.seqLst, half.nonzero,
    half.after, half.inside⟩

theorem Half.test (half : Half b recv fst lst known) : Half b (patchDataTest recv).1 fst lst known := by
  have early := half.early.test
  rw [patchDataTest_frame] at early ⊢
  exact ⟨early, half.started, half.seqFst, half.seqLst, half.nonzero, half.after, half.inside⟩

/-- A counted packet in front of the first one ends the first half. -/
theorem Half.passes (half : Half b recv fst lst known) (seq : Fin b.seqMax) {counted : RecverState}
    {flags : PacketFlags} (branch : FastCase b recv seq counted flags)
    (ends : counted.seqLst + 1 < fst ∨ seq.val + 1 = fst) :
    Round.passed.Tracks b (fastPathLast counted seq).1 := by
  obtain ⟨early, started, rfl, rfl, nonzero, after, inside⟩ := half
  have bounded := b.seqMax_lt
  have frame := branch.frame
  have seqInside := seq.isLt
  have last := branch.lst
  apply tracks_passed (branch.knows early.knows) (frame.1.trans started)
  · split_ifs at last <;> omega
  · omega
  · rw [frame.2.1]
    exact .inr ends

/-- A packet of the first half is followed, and a late wrap fails an assert. -/
theorem Round.Tracks.firstHalf_packet (tracks : (Round.firstHalf fst lst known count).Tracks b recv)
    (seq : Fin b.seqMax) :
    ((Round.firstHalf fst lst known count).follow b (.packet seq) = .aborted ∧
        arrivalStep b recv (.packet seq) = .error .fileStartUnset) ∨
      ∃ next, arrivalStep b recv (.packet seq) = .ok next ∧
        ((Round.firstHalf fst lst known count).follow b (.packet seq)).Tracks b next := by
  obtain ⟨half, writing⟩ := tracks
  have bounded := b.seqMax_lt
  have inside := seq.isLt
  have early := half.early
  have seqFst := half.seqFst
  have seqLst := half.seqLst
  have nonzero := half.nonzero
  have after := half.after
  have lstInside := half.inside
  have taken := arrivalStep_packet_open early.running writing.fdP seq
  by_cases late : 0 < seq.val ∧ seq.val < fst ∧ fst < lst
  · rw [Round.follow, if_pos late]
    cases known with
    | true => exact .inl ⟨rfl, half.aborts seq late⟩
    | false =>
        right
        obtain ⟨counted, flags, counting, branch⟩ := half.wraps seq late
        refine ⟨_, by rw [taken, counting]; rfl, half.passes seq branch ?_⟩
        have wrapped : counted.seqLst = seq := by
          cases branch with
          | inOrder | zeroInOrder | zeroJump | jump | wrap => rfl
          | zeroRejected zero | zeroAgain zero => omega
          | jumpRejected ahead | behind nonzero before outside => omega
        omega
  · right
    obtain ⟨counted, flags, counting, branch⟩ := half.counts seq late
    have frame := branch.frame
    refine ⟨_, by rw [taken, counting]; rfl, ?_⟩
    rw [Round.follow, if_neg late]
    by_cases last : seq.val + 1 = fst
    · rw [if_pos last]
      exact half.passes seq branch (.inr last)
    · rw [if_neg last]
      have kept : (fastPathLast counted seq).1 = counted :=
        (fastPathLast_eq (by omega) (by omega)).2 (by omega)
      by_cases unread : seq.val = 0 ∧ ¬known = true
      · obtain ⟨zero, unknown⟩ := unread
        obtain rfl := Bool.eq_false_iff.mpr unknown
        rw [if_pos ⟨zero, unknown⟩]
        cases branch with
        | inOrder positive | wrap positive | behind positive => exact absurd zero positive
        | jump ahead | jumpRejected ahead => omega
        | zeroAgain _ read => exact absurd (early.isSeqZero.symm.trans read) (by simp)
        | zeroInOrder zero unread follows =>
            rw [if_pos (by omega)]
            refine half.passes seq (.zeroInOrder zero unread follows) (.inl ?_)
            rw [accept_seqLst]
            omega
        | zeroJump zero unread gap begun behind positive =>
            rw [if_pos (by omega)]
            refine half.passes seq (.zeroJump zero unread gap begun behind positive) (.inl ?_)
            rw [accept_seqLst]
            omega
        | zeroRejected zero unread gap begun outside =>
            have written := writing.packet (.zeroRejected zero unread gap begun outside)
            rw [if_neg (by omega)]
            show Round.Tracks b (fastPathLast _ seq).1 _
            rw [kept]
            exact ⟨half.learn, written⟩
      · rw [if_neg unread]
        show Round.Tracks b (fastPathLast counted seq).1 _
        rw [kept]
        have written := writing.packet branch
        have unknown : seq.val = 0 → recv.isSeqZero = false → False := by
          intro zero hidden
          exact unread ⟨zero, by rw [← early.isSeqZero, hidden]; decide⟩
        cases branch with
        | inOrder _ follows =>
            rw [if_pos (by omega)]
            exact ⟨half.accept _ _ seq (by omega), written⟩
        | jump ahead =>
            rw [if_pos (by omega)]
            exact ⟨half.accept _ _ seq (by omega), written⟩
        | zeroInOrder zero hidden | zeroJump zero hidden | zeroRejected zero hidden =>
            exact absurd hidden (unknown zero)
        | zeroAgain zero =>
            rw [if_neg (by omega)]
            exact ⟨half, written⟩
        | jumpRejected _ low => omega
        | wrap positive below above => omega
        | behind _ behind =>
            rw [if_neg (by omega)]
            exact ⟨half, written⟩

/-- The patch that completes the count closes the streams. -/
theorem Round.Tracks.firstHalf_patch (tracks : (Round.firstHalf fst lst known count).Tracks b recv)
    (seq : Fin b.seqMax) :
    ∃ next, arrivalStep b recv (.patch seq) = .ok next ∧
      ((Round.firstHalf fst lst known count).follow b (.patch seq)).Tracks b next := by
  obtain ⟨half, writing⟩ := tracks
  rw [Round.follow]
  by_cases first : seq.val = fst
  · rw [if_pos first]
    exact ⟨recv, half.early.patch_first seq (first.trans half.seqFst.symm), half, writing⟩
  · rw [if_neg first]
    obtain ⟨counted, taken, branch, learned⟩ :=
      (half.early.patch_other half.below seq (by rw [half.seqFst]; exact first)).2 writing.fdPatchP
    have written := writing.patch branch
    have whole := learned.gotten (by rw [written.counted]; exact Nat.succ_pos _)
    rw [written.counted] at whole
    refine ⟨_, taken, ?_⟩
    have tested := (half.patch branch learned).test
    unfold patchDataTest at tested ⊢
    by_cases completes : (known = true ∨ seq.val = 0) ∧ count + 1 = b.seqMax
    · have read : (known || decide (seq.val = 0)) = true := by simpa using completes.1
      rw [if_pos completes]
      rw [read, completes.2, decide_eq_true rfl] at whole
      rw [if_pos (by rw [whole]; rfl), read] at tested
      rw [if_pos (by rw [whole]; rfl)]
      exact ⟨tested, rfl, rfl⟩
    · have open' : recverStateHasGottenAllData counted = false := by
        rw [whole, Bool.and_eq_false_iff, decide_eq_false_iff_not]
        by_contra complete
        simp only [not_or, Bool.not_eq_false, Bool.or_eq_true, decide_eq_true_iff, not_not] at complete
        exact completes complete
      rw [if_neg completes]
      rw [if_neg (by simp [open'])] at tested ⊢
      exact ⟨tested, written⟩

/-- Behind closed streams a packet fails an assert, ends the agent or is rejected. -/
theorem Round.Tracks.closed_packet (tracks : (Round.closed fst lst).Tracks b recv) (seq : Fin b.seqMax) :
    ((Round.closed fst lst).follow b (.packet seq) = .aborted ∧
        arrivalStep b recv (.packet seq) = .error .fileStartUnset) ∨
      ((Round.closed fst lst).follow b (.packet seq) = .passed ∧
        arrivalStep b recv (.packet seq) = .error .streamOpen) ∨
      ((Round.closed fst lst).follow b (.packet seq) = .closed fst lst ∧
        arrivalStep b recv (.packet seq) = .ok recv) := by
  obtain ⟨half, closed, -⟩ := tracks
  have bounded := b.seqMax_lt
  have inside := seq.isLt
  have early := half.early
  have seqFst := half.seqFst
  have seqLst := half.seqLst
  have nonzero := half.nonzero
  have after := half.after
  have lstInside := half.inside
  rw [Round.follow]
  by_cases late : 0 < seq.val ∧ seq.val < fst ∧ fst < lst
  · exact .inl ⟨if_pos late, half.aborts seq late⟩
  · right
    rw [if_neg late]
    obtain ⟨counted, flags, counting, branch⟩ := half.counts seq late
    have frame := branch.frame
    have last : isLastOptical counted seq = decide (seq.val + 1 = fst) := by
      unfold isLastOptical
      rw [u32_succ (by omega), frame.2.1, seqFst]
      simp [nonzero]
    rw [arrivalStep_packet early.running, counting]
    by_cases used : lst < seq.val ∨ seq.val + 1 = fst
    · refine .inl ⟨if_pos used, if_pos ⟨closed, ?_⟩⟩
      rcases used with beyond | reached
      · left
        have accepted : flags.seqError = false := by
          cases branch with
          | inOrder | zeroInOrder | zeroJump | jump | wrap => rfl
          | zeroRejected zero | zeroAgain zero => omega
          | jumpRejected ahead | behind nonzero before outside => omega
        have one := branch.counts
        rw [accepted, if_neg Bool.false_ne_true] at one
        dsimp only
        omega
      · right
        rw [last]
        exact decide_eq_true reached
    · refine .inr ⟨if_neg used, ?_⟩
      have rejected : counted = recv := by
        cases branch with
        | zeroAgain | jumpRejected | behind => rfl
        | inOrder | jump | wrap => omega
        | zeroInOrder _ unknown | zeroJump _ unknown | zeroRejected _ unknown =>
            exact absurd (early.isSeqZero.symm.trans unknown) (by simp)
      have same : (fastPathLast counted seq).1 = counted :=
        (fastPathLast_eq (by omega) (by omega)).2 (by omega)
      rw [rejected] at last same ⊢
      show (if _ then _ else Except.ok (fastPathLast recv seq).1) = Except.ok recv
      rw [same, if_neg]
      rintro ⟨-, more | reached⟩
      · exact lt_irrefl _ more
      · rw [last, decide_eq_true_iff] at reached
        exact used (.inr reached)

theorem Round.Tracks.closed_patch (tracks : (Round.closed fst lst).Tracks b recv) (seq : Fin b.seqMax) :
    ((Round.closed fst lst).follow b (.patch seq) = .passed ∧
        arrivalStep b recv (.patch seq) = .error .streamOpen) ∨
      ((Round.closed fst lst).follow b (.patch seq) = .closed fst lst ∧
        arrivalStep b recv (.patch seq) = .ok recv) := by
  obtain ⟨half, -, closed⟩ := tracks
  by_cases first : seq.val = fst
  · exact .inr ⟨if_pos first, half.early.patch_first seq (first.trans half.seqFst.symm)⟩
  · have other : seq.val ≠ recv.seqFst := by
      rw [half.seqFst]
      exact first
    exact .inl ⟨if_neg first, (half.early.patch_other half.below seq other).1 closed⟩

end Halves

/-- Behind the first half no assert of the wrap branch fails. -/
theorem Round.Tracks.passed_packet (tracks : Round.passed.Tracks b recv) (seq : Fin b.seqMax) :
    (∃ fault, arrivalStep b recv (.packet seq) = .error fault ∧ ¬fault.ofWrap) ∨
      ∃ next, arrivalStep b recv (.packet seq) = .ok next ∧ Round.passed.Tracks b next := by
  obtain ⟨knows, started, lstInside, half⟩ := tracks
  have bounded := b.seqMax_lt
  have inside := seq.isLt
  have fixed : fastPathFirst recv seq = recv := fastPathFirst_started started
  cases running : recv.isFastpath with
  | false => exact .inr ⟨recv, arrivalStep_stopped running seq, knows, started, lstInside, .inl running⟩
  | true =>
      have second : recv.seqFst = 0 ∨ recv.seqLst + 1 < recv.seqFst := by simpa [running] using half
      obtain ⟨counted, flags, counting, branch⟩ := fastPathCount_completes (knows.first seq) inside
        (by rw [fixed]; exact .inl lstInside) (by rw [fixed]; omega)
      rw [fixed] at branch
      have frame := branch.frame
      have last := branch.lst
      rw [arrivalStep_packet running, counting]
      simp only [Except.bind]
      split_ifs with closed
      · exact .inl ⟨.streamOpen, rfl, id⟩
      refine .inr ⟨_, rfl, ?_⟩
      apply tracks_passed (branch.knows knows) (frame.1.trans started)
      · split_ifs at last <;> omega
      · omega
      · rw [frame.2.1]
        rcases second with zero | low
        · exact .inl zero
        · right
          cases branch with
          | inOrder | jump | wrap =>
              rw [accept_seqLst]
              omega
          | zeroInOrder zero | zeroJump zero =>
              rw [accept_seqLst]
              omega
          | zeroRejected => exact .inl low
          | zeroAgain | jumpRejected | behind => exact .inl low

theorem Round.Tracks.passed_patch (tracks : Round.passed.Tracks b recv) (seq : Fin b.seqMax) :
    (∃ fault, arrivalStep b recv (.patch seq) = .error fault ∧ ¬fault.ofWrap) ∨
      ∃ next, arrivalStep b recv (.patch seq) = .ok next ∧ Round.passed.Tracks b next := by
  obtain ⟨knows, started, lstInside, half⟩ := tracks
  rw [arrivalStep_patch]
  cases counting : patchDataCount recv (b.packet seq) with
  | error fault =>
      refine .inl ⟨fault, rfl, ?_⟩
      rcases patchDataCount_error knows counting with rfl | rfl <;> exact id
  | ok outcome =>
      obtain ⟨counted, flag⟩ := outcome
      have branch := patchDataCount_cases knows counting
      obtain ⟨first, fst, lst, -, -, fast, -⟩ := branch.frame
      have tracks : Round.passed.Tracks b counted :=
        ⟨branch.knows knows, first.trans started, by rwa [lst], by rwa [fast, fst, lst]⟩
      simp only [Except.bind]
      split_ifs with closed counts
      · exact .inl ⟨.streamOpen, rfl, id⟩
      · refine .inr ⟨_, rfl, ?_⟩
        have frame := patchDataTest_frame counted
        refine ⟨tracks.1.test, ?_, ?_, ?_⟩
        · rw [frame]
          exact tracks.2.1
        · rw [frame]
          exact tracks.2.2.1
        · rw [frame]
          exact tracks.2.2.2
      · exact .inr ⟨_, rfl, tracks⟩

/-- Patches that come before the first packet complete no count. -/
theorem Round.Tracks.fresh_patch {count : Nat} (tracks : (Round.fresh count).Tracks b recv) (seq : Fin b.seqMax) :
    ∃ next, arrivalStep b recv (.patch seq) = .ok next ∧
      ((Round.fresh count).follow b (.patch seq)).Tracks b next := by
  obtain ⟨early, unstarted, fst, writing⟩ := tracks
  rw [Round.follow]
  by_cases zero : seq.val = 0
  · rw [if_pos zero]
    exact ⟨recv, early.patch_first seq (zero.trans fst.symm), early, unstarted, fst, writing⟩
  · rw [if_neg zero]
    obtain ⟨counted, taken, branch, learned⟩ :=
      (early.patch_other (by rw [fst]; exact b.seqMax_pos) seq (by rw [fst]; exact zero)).2 writing.fdPatchP
    have written := writing.patch branch
    have frame := branch.frame
    rw [decide_eq_false zero, Bool.or_self] at learned
    have open' := learned.gotten (by rw [written.counted]; exact Nat.succ_pos _)
    rw [Bool.false_and] at open'
    refine ⟨_, taken, ?_⟩
    rw [patchDataTest, if_neg (by simp [open'])]
    exact ⟨learned, frame.1.trans unstarted, frame.2.1.trans fst, written⟩

/-- One arrival is followed, ends the agent behind the first half or fails the wrap branch. -/
theorem Round.Tracks.step (tracks : round.Tracks b recv) (arrival : Arrival b) :
    (round.follow b arrival = .aborted ∧ arrivalStep b recv arrival = .error .fileStartUnset) ∨
      (round.follow b arrival = .passed ∧ ∃ fault, arrivalStep b recv arrival = .error fault ∧ ¬fault.ofWrap) ∨
      ∃ next, arrivalStep b recv arrival = .ok next ∧ (round.follow b arrival).Tracks b next := by
  cases round with
  | fresh count =>
      cases arrival with
      | packet seq => exact .inr (.inr (tracks.fresh_packet seq))
      | patch seq => exact .inr (.inr (tracks.fresh_patch seq))
  | firstHalf fst lst known count =>
      cases arrival with
      | packet seq =>
          rcases tracks.firstHalf_packet seq with aborted | followed
          · exact .inl aborted
          · exact .inr (.inr followed)
      | patch seq => exact .inr (.inr (tracks.firstHalf_patch seq))
  | closed fst lst =>
      cases arrival with
      | packet seq =>
          rcases tracks.closed_packet seq with aborted | ⟨passed, failed⟩ | ⟨same, taken⟩
          · exact .inl aborted
          · exact .inr (.inl ⟨passed, _, failed, id⟩)
          · exact .inr (.inr ⟨recv, taken, by rw [same]; exact tracks⟩)
      | patch seq =>
          rcases tracks.closed_patch seq with ⟨passed, failed⟩ | ⟨same, taken⟩
          · exact .inr (.inl ⟨passed, _, failed, id⟩)
          · exact .inr (.inr ⟨recv, taken, by rw [same]; exact tracks⟩)
  | passed =>
      cases arrival with
      | packet seq =>
          rcases tracks.passed_packet seq with failed | followed
          · exact .inr (.inl ⟨rfl, failed⟩)
          · exact .inr (.inr followed)
      | patch seq =>
          rcases tracks.passed_patch seq with failed | followed
          · exact .inr (.inl ⟨rfl, failed⟩)
          · exact .inr (.inr followed)
  | aborted => exact absurd tracks id

theorem follow_passed (arrivals : List (Arrival b)) :
    arrivals.foldl (Round.follow b) .passed = .passed := by
  induction arrivals with
  | nil => rfl
  | cons arrival arrivals ih => exact ih

theorem follow_aborted (arrivals : List (Arrival b)) :
    arrivals.foldl (Round.follow b) .aborted = .aborted := by
  induction arrivals with
  | nil => rfl
  | cons arrival arrivals ih => exact ih

/-- A run fails an assert of the wrap branch exactly when the followed round aborts. -/
theorem execute_aborts_iff (tracks : round.Tracks b recv) (arrivals : List (Arrival b)) :
    (∀ fault, execute (arrivalStep b) recv arrivals = .error fault → ¬fault.ofWrap) ↔
      arrivals.foldl (Round.follow b) round ≠ .aborted := by
  induction arrivals generalizing recv round with
  | nil =>
      constructor
      · rintro - rfl
        exact tracks
      · rintro - fault failed
        cases failed
  | cons arrival arrivals ih =>
      rw [List.foldl_cons]
      rcases tracks.step arrival with ⟨aborted, failed⟩ | ⟨passed, fault, failed, other⟩ | ⟨next, taken, followed⟩
      · rw [aborted, follow_aborted]
        constructor
        · intro safe
          exact absurd trivial (safe _ (execute_cons_error.mpr (.inl failed)))
        · intro same
          exact absurd rfl same
      · rw [passed, follow_passed]
        constructor
        · intro _ contradiction
          cases contradiction
        · intro _ later reached
          rcases execute_cons_error.mp reached with here | ⟨next, taken, -⟩
          · rw [failed] at here
            obtain rfl := Except.error.inj here
            exact other
          · rw [failed] at taken
            cases taken
      · rw [← ih followed]
        constructor
        · intro safe fault failed
          exact safe fault (execute_cons_error.mpr (.inr ⟨next, taken, failed⟩))
        · intro safe fault failed
          rcases execute_cons_error.mp failed with here | ⟨other, reached, later⟩
          · rw [taken] at here
            cases here
          · rw [taken] at reached
            obtain rfl := Except.ok.inj reached
            exact safe fault later

end Steps

/-- Every sequence of packets is a lossy subsequence of the emission. -/
theorem packetSeqs_lossy {b : Broadcast} (arrivals : List (Arrival b)) :
    (packetSeqs arrivals).Sublist (emission b.seqMax arrivals.length) := by
  induction arrivals with
  | nil => exact List.nil_sublist _
  | cons arrival arrivals ih =>
      rw [List.length_cons, emission, List.replicate_succ, List.flatten_cons]
      cases arrival with
      | packet seq =>
          have emitted : [seq.val].Sublist (List.range b.seqMax) :=
            List.singleton_sublist.mpr (List.mem_range.mpr seq.isLt)
          exact emitted.append ih
      | patch seq => exact ih.trans (List.sublist_append_right _ _)

theorem fresh_tracks (b : Broadcast) :
    (Round.fresh 0).Tracks b (recverStateStartFathPath (createRecverState b.bcdId b.payloadLen)) :=
  ⟨⟨fresh_knows b, rfl, rfl, rfl, fun _ => rfl, nofun⟩, rfl, rfl, nofun, nofun, rfl⟩

/-- The asserts of the wrap branch hold unless a wrap follows metadata that were read in the first half, before
or right after the patches completed the count. -/
theorem arrivalRun_aborts_iff (b : Broadcast) (arrivals : List (Arrival b)) :
    (∀ fault, arrivalRun b arrivals = .error fault → ¬fault.ofWrap) ↔
      arrivals.foldl (Round.follow b) (.fresh 0) ≠ .aborted :=
  execute_aborts_iff (fresh_tracks b) arrivals

/-- Patches that complete the count close the streams, and the next packet ends the agent before a wrap. -/
example : arrivalRun fourBytes [.packet ⟨2, by decide⟩, .patch ⟨0, by decide⟩, .patch ⟨1, by decide⟩,
    .patch ⟨3, by decide⟩, .packet ⟨3, by decide⟩, .packet ⟨1, by decide⟩] = .error .streamOpen := by
  decide +kernel

/-- The packets 2, 0, 3 and 1 of three rounds fail an assert of the wrap branch. -/
theorem arrivalRun_aborts :
    ¬∀ (b : Broadcast) (arrivals : List (Arrival b)) (rounds : Nat),
      (packetSeqs arrivals).Sublist (emission b.seqMax rounds) →
        ∀ fault, arrivalRun b arrivals = .error fault → ¬fault.ofWrap := by
  intro safe
  exact safe fourBytes [.packet ⟨2, by decide⟩, .packet ⟨0, by decide⟩, .packet ⟨3, by decide⟩,
    .packet ⟨1, by decide⟩] 4 (packetSeqs_lossy _) .fileStartUnset rfl trivial

end RepublicAgent
