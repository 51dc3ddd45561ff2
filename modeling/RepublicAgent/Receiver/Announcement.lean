/-
This file says that a receiver which finishes announces it. A broadcast of one packet is announced with its
first packet.
-/

import RepublicAgent.Receiver.Transfer

namespace RepublicAgent
open MachineInteger

/-- The fields of a receiver of the packets of one broadcast. A broadcast of one packet is received with
this packet on the fast path, since its patches are out of range. -/
structure Sane (b : Broadcast) (recv : RecverState) : Prop where
  knows : Knows b recv
  last : recv.isSeqFst = true → recv.seqLst < b.seqMax ∨ recv.seqLst = seqnumMax
  counted : recv.isSeqFst = true → recv.isSeqZero = false → 0 < recv.numFastRecvEd
  done : recv.isFinished = true → recv.isSeqZero = true
  single : b.seqMax = 1 → recv.seqFst = 0 ∧ recv.seqTail = 0 ∧ recv.numSlowRecvEd = 0
  atOnce : b.seqMax = 1 → recv.isSeqFst = true → recv.isFinished = true
  before : b.seqMax = 1 → recv.isSeqFst = false → recv.isSeqZero = false ∧ recv.numFastRecvEd = 0

/-- The messages tell the control thread that the broadcast is received. -/
def Announced (b : Broadcast) (msgs : List N2cMsg) : Prop :=
  .seqAll b.bcdId ∈ msgs ∨ (b.seqMax = 1 ∧ ∃ seq, .seqFirst b.bcdId seq ∈ msgs)

theorem createRecverState_sane (b : Broadcast) : Sane b (createRecverState b.bcdId b.payloadLen) where
  knows := ⟨rfl, u16_natCast b.payloadFits, fun known => (by cases known), fun _ => ⟨rfl, rfl, rfl⟩⟩
  last started := by cases started
  counted started := by cases started
  done finished := by cases finished
  single _ := ⟨rfl, rfl, rfl⟩
  atOnce _ started := by cases started
  before _ _ := ⟨rfl, rfl⟩

section Receivers

variable {b : Broadcast} {recv next : RecverState} {seq : Nat}

theorem Sane.start (sane : Sane b recv) : Sane b (recverStateStartFathPath recv) :=
  ⟨⟨sane.knows.bcdId, sane.knows.payload, sane.knows.learned, sane.knows.unlearned⟩, sane.last, sane.counted,
    sane.done, sane.single, sane.atOnce, sane.before⟩

theorem Sane.fastDone (sane : Sane b recv) : Sane b (msgFastDone recv).1 ∧
    (msgFastDone recv).1.isFinished = recv.isFinished := by
  have knows := sane.knows.fastDone
  rw [msgFastDone_recv] at knows ⊢
  split_ifs at knows ⊢
  · exact ⟨sane, rfl⟩
  · exact ⟨⟨knows, sane.last, sane.counted, sane.done, sane.single, sane.atOnce, sane.before⟩, rfl⟩

/-- A running fast path counts the packet, and the packet may be the last optical one. -/
theorem processRings_running {pkt : DataPacket} {msgs : List N2cMsg} (running : recv.isFastpath = true)
    (processed : processRings recv pkt = .ok (next, msgs)) :
    ∃ counted flags, fastPathCount recv pkt = .ok (counted, flags) ∧
      next = (fastPathLast counted pkt.seqNum).1 ∧
      msgs = n2cMessages next pkt.seqNum (!recv.isSeqFst) (fastPathLast counted pkt.seqNum).2 flags := by
  rw [processRings, if_pos running] at processed
  cases counting : fastPathCount recv pkt with
  | error fault => simp [counting, bind, Except.bind] at processed
  | ok outcome =>
      simp only [counting, bind, Except.bind, pure, Except.pure, Except.ok.injEq, Prod.mk.injEq] at processed
      obtain ⟨rfl, rfl⟩ := processed
      exact ⟨outcome.1, outcome.2, rfl, rfl, rfl⟩

/-- All messages of a packet carry the identifier of the receiver. -/
theorem n2cMessages_bcdId {seqFirst seqAll : Bool} {flags : PacketFlags} {msg : N2cMsg}
    (member : msg ∈ n2cMessages recv seq seqFirst seqAll flags) :
    msg = .seqFirst recv.bcdId seq ∨ msg = .seqZero recv.bcdId ∨ msg = .seqAll recv.bcdId ∨
      ∃ pt, msg = .seqJump recv.bcdId pt := by
  unfold n2cMessages at member
  simp only [List.mem_append] at member
  rcases member with ((first | zero) | all) | jump
  · split_ifs at first
    · exact .inl (List.mem_singleton.mp first)
    · cases first
  · split_ifs at zero
    · exact .inr (.inl (List.mem_singleton.mp zero))
    · cases zero
  · split_ifs at all
    · exact .inr (.inr (.inl (List.mem_singleton.mp all)))
    · cases all
  · split at jump
    · next pt _ =>
        split_ifs at jump
        · exact .inr (.inr (.inr ⟨pt, List.mem_singleton.mp jump⟩))
        · cases jump
    · cases jump

/-- The end of the fast path finishes the receiver when the counters match, and reports it. -/
theorem fastPathLast_cases (recv : RecverState) (seq : Nat) :
    ((fastPathLast recv seq).2 = true ∧ recverStateHasGottenAllData recv = true ∧
        (fastPathLast recv seq).1.isFinished = true) ∨
      ((fastPathLast recv seq).2 = false ∧ (fastPathLast recv seq).1.isFinished = recv.isFinished) := by
  unfold fastPathLast fastPathTest
  split_ifs with last gotten
  · exact .inl ⟨rfl, gotten, rfl⟩
  · exact .inr ⟨rfl, rfl⟩
  · exact .inr ⟨rfl, rfl⟩

/-- The first packet is fixed before the branches. -/
theorem Sane.first (sane : Sane b recv) (inside : seq < b.seqMax) :
    (fastPathFirst recv seq).isSeqFst = true ∧
      ((fastPathFirst recv seq).seqLst < b.seqMax ∨ (fastPathFirst recv seq).seqLst = seqnumMax) := by
  have bounded := b.seqMax_lt
  cases started : recv.isSeqFst with
  | true =>
      rw [fastPathFirst_started started]
      exact ⟨started, sane.last started⟩
  | false =>
      rw [fastPathFirst_fresh started (by omega)]
      refine ⟨rfl, ?_⟩
      simp only
      split_ifs
      · exact .inr rfl
      · exact .inl (by omega)

/-- The last packet stays in range. -/
theorem FastCase.last {flags : PacketFlags} (branch : FastCase b recv seq next flags) (inside : seq < b.seqMax)
    (last : recv.seqLst < b.seqMax ∨ recv.seqLst = seqnumMax) :
    next.seqLst < b.seqMax ∨ next.seqLst = seqnumMax := by
  cases branch with
  | inOrder | zeroInOrder | zeroJump | jump | wrap => exact .inl inside
  | zeroRejected | zeroAgain | jumpRejected | behind => exact last

/-- A receiver without the metadata has counted its first packet. -/
theorem Sane.count (sane : Sane b recv) {flags : PacketFlags} (inside : seq < b.seqMax)
    (branch : FastCase b (fastPathFirst recv seq) seq next flags) (unknown : next.isSeqZero = false) :
    0 < next.numFastRecvEd := by
  have bounded := b.seqMax_lt
  have kept := branch.frame.2.2.2.2.2
  have counts := branch.counts
  have before : (fastPathFirst recv seq).isSeqZero = false := by
    cases known : (fastPathFirst recv seq).isSeqZero with
    | false => rfl
    | true => rw [kept known] at unknown; cases unknown
  cases started : recv.isSeqFst with
  | true =>
      rw [fastPathFirst_started started] at before counts
      have positive := sane.counted started before
      rw [counts]
      split_ifs <;> omega
  | false =>
      have hidden : recv.isSeqZero = false := by
        rwa [fastPathFirst_fresh started (by omega)] at before
      have accepted := (branch.first started hidden inside).1
      rw [counts, accepted]
      simp

/-- Packet zero never wraps. -/
theorem FastCase.seqTail_zero {flags : PacketFlags} (branch : FastCase b recv seq next flags) (zero : seq = 0) :
    next.seqTail = recv.seqTail := by
  cases branch with
  | wrap nonzero => exact absurd zero nonzero
  | inOrder | zeroInOrder | zeroJump | zeroRejected | zeroAgain | jump | jumpRejected | behind => rfl

/-- The first packet of a broadcast of one packet completes it. -/
theorem Sane.one (sane : Sane b recv) {flags : PacketFlags} (single : b.seqMax = 1)
    (unstarted : recv.isSeqFst = false) (branch : FastCase b (fastPathFirst recv 0) 0 next flags) :
    next.seqFst = 0 ∧ next.seqTail = 0 ∧ next.numSlowRecvEd = 0 ∧ (fastPathLast next 0).1.isFinished = true := by
  obtain ⟨hidden, none⟩ := sane.before single unstarted
  obtain ⟨_, front, slow⟩ := sane.single single
  have fixed : fastPathFirst recv 0 = _ := fastPathFirst_fresh unstarted (by omega)
  have accepted := (branch.first unstarted hidden (by omega)).2.2
  rw [if_pos rfl] at accepted
  have size : next.seqMax = 1 := by
    rw [accepted, accept_seqMax, learn_seqMax_eq (sane.knows.first 0).payload, single]
  have counts : next.numFastRecvEd = 1 ∧ next.numSlowRecvEd = 0 ∧ next.seqFst = 0 ∧ next.seqTail = 0 := by
    simp only [accepted, accept_numFastRecvEd, learn_numFastRecvEd, accept_numSlowRecvEd, learn_numSlowRecvEd,
      accept_seqFst, learn_seqFst, accept_seqTail, learn_seqTail, fixed]
    exact ⟨by rw [none], slow, trivial, front⟩
  obtain ⟨fast, slowly, fst, tail⟩ := counts
  refine ⟨fst, tail, slowly, ?_⟩
  have last : isLastOptical next 0 = true := by
    have follows : u32 1 = 1 := by decide
    simp [isLastOptical, fst, size, follows]
  have gotten : recverStateHasGottenAllData (fastPathStop next) = true := by
    have sum : next.numFastRecvEd + next.numSlowRecvEd = next.seqMax := by omega
    exact decide_eq_true sum
  rw [fastPathLast, if_pos last, fastPathTest, if_pos gotten]
  rfl

/-- The end of the fast path keeps a receiver sane. -/
theorem Sane.process_running (sane : Sane b recv) {counted : RecverState} {flags : PacketFlags}
    (inside : seq < b.seqMax) (branch : FastCase b (fastPathFirst recv seq) seq counted flags) :
    Sane b (fastPathLast counted seq).1 := by
  obtain ⟨started, last⟩ := sane.first inside
  have knows := branch.knows (sane.knows.first seq)
  have frame := branch.frame
  have first : counted.isSeqFst = true := frame.1.trans started
  have ended := fastPathLast_frame counted seq
  have same : (fastPathLast counted seq).1.isSeqFst = counted.isSeqFst ∧
      (fastPathLast counted seq).1.isSeqZero = counted.isSeqZero := by
    rw [ended]
    exact ⟨rfl, rfl⟩
  have front : (fastPathLast counted seq).1.seqFst = counted.seqFst ∧
      (fastPathLast counted seq).1.seqLst = counted.seqLst ∧
      (fastPathLast counted seq).1.seqTail = counted.seqTail := by
    rw [ended]
    exact ⟨rfl, rfl, rfl⟩
  have counts : (fastPathLast counted seq).1.numFastRecvEd = counted.numFastRecvEd ∧
      (fastPathLast counted seq).1.numSlowRecvEd = counted.numSlowRecvEd := by
    rw [ended]
    exact ⟨rfl, rfl⟩
  have finished : counted.isFinished = recv.isFinished := by
    rw [frame.2.2.2.2.1, fastPathFirst]
    split_ifs <;> rfl
  constructor
  · exact knows.last seq
  · intro _
    rw [front.2.1]
    exact branch.last inside last
  · intro _ unknown
    rw [counts.1]
    exact sane.count inside branch (same.2 ▸ unknown)
  · intro complete
    rw [same.2]
    by_contra unknown
    have hidden : counted.isSeqZero = false := by simpa using unknown
    rcases fastPathLast_cases counted seq with ⟨_, gotten, _⟩ | ⟨_, kept⟩
    · have positive := sane.count inside branch hidden
      have sum : counted.numFastRecvEd + counted.numSlowRecvEd = counted.seqMax := of_decide_eq_true gotten
      have none := (knows.unlearned hidden).1
      omega
    · rw [kept, finished] at complete
      have known : (fastPathFirst recv seq).isSeqZero = recv.isSeqZero := by
        rw [fastPathFirst]
        split_ifs <;> rfl
      exact unknown (frame.2.2.2.2.2 (known.trans (sane.done complete)))
  · intro single
    obtain rfl : seq = 0 := by omega
    rw [front.1, front.2.2, counts.2]
    cases begun : recv.isSeqFst with
    | true =>
        rw [fastPathFirst_started begun] at branch frame
        rw [frame.2.1, frame.2.2.1, branch.seqTail_zero rfl]
        exact sane.single single
    | false =>
        have one := sane.one single begun branch
        exact ⟨one.1, one.2.1, one.2.2.1⟩
  · intro single _
    obtain rfl : seq = 0 := by omega
    cases begun : recv.isSeqFst with
    | true =>
        rcases fastPathLast_cases counted 0 with ⟨_, _, complete⟩ | ⟨_, kept⟩
        · exact complete
        · rw [kept, finished]
          exact sane.atOnce single begun
    | false => exact (sane.one single begun branch).2.2.2
  · intro _ unstarted
    rw [same.1, first] at unstarted
    cases unstarted

/-- A packet keeps a receiver sane and finished. Its messages carry the identifier of the broadcast, and the
packet that finishes the receiver announces it. -/
theorem Sane.process (sane : Sane b recv) (inside : seq < b.seqMax) {msgs : List N2cMsg}
    (processed : processRings recv (b.packet seq) = .ok (next, msgs)) :
    Sane b next ∧ (recv.isFinished = true → next.isFinished = true) ∧ (∀ msg ∈ msgs, msg.bcdId = b.bcdId) ∧
      (recv.isFinished = false → next.isFinished = true → Announced b msgs) := by
  cases running : recv.isFastpath with
  | false =>
      rw [processRings, if_neg (by simp [running])] at processed
      obtain ⟨rfl, rfl⟩ := Prod.mk.inj (Except.ok.inj processed)
      refine ⟨sane, id, ?_, fun unfinished finished => absurd (unfinished.symm.trans finished) (by simp)⟩
      intro msg impossible
      cases impossible
  | true =>
      obtain ⟨counted, flags, counting, ended, reported⟩ := processRings_running running processed
      rw [show (b.packet seq).seqNum = seq from rfl] at ended reported
      subst ended reported
      have branch := fastPathCount_cases (sane.knows.first seq) inside (sane.first inside).2 counting
      have after := sane.process_running inside branch
      have finished : counted.isFinished = recv.isFinished := by
        rw [branch.frame.2.2.2.2.1, fastPathFirst]
        split_ifs <;> rfl
      have named := after.knows.bcdId
      refine ⟨after, ?_, ?_, ?_⟩
      · intro complete
        rcases fastPathLast_cases counted seq with ⟨_, _, ended⟩ | ⟨_, kept⟩
        · exact ended
        · exact kept.trans (finished.trans complete)
      · intro msg member
        rw [← named]
        rcases n2cMessages_bcdId member with rfl | rfl | rfl | ⟨pt, rfl⟩ <;> rfl
      · intro unfinished complete
        rcases fastPathLast_cases counted seq with ⟨all, _, _⟩ | ⟨_, kept⟩
        · have size := (after.knows.learned (after.done complete)).1
          by_cases single : b.seqMax = 1
          · have unstarted : recv.isSeqFst = false := by
              by_contra started
              have early := sane.atOnce single (by simpa using started)
              rw [unfinished] at early
              cases early
            refine .inr ⟨single, seq, ?_⟩
            simp [n2cMessages, unstarted, ← named]
          · have positive := b.seqMax_pos
            left
            simp [n2cMessages, all, size, ← named]
            omega
        · rw [kept, finished, unfinished] at complete
          cases complete

/-- The completion test finishes the receiver and reports it, or it leaves the receiver. -/
theorem patchDataTest_cases (recv : RecverState) :
    (recverStateHasGottenAllData recv = true ∧ (patchDataTest recv).1.isFinished = true ∧
        .seqAll recv.bcdId ∈ (patchDataTest recv).2.toService) ∨
      (patchDataTest recv).1 = recv := by
  unfold patchDataTest
  split_ifs with gotten
  · exact .inl ⟨gotten, rfl, List.mem_singleton_self _⟩
  · exact .inr rfl

/-- The completion test keeps a receiver sane that has counted a patch. -/
theorem Sane.test (sane : Sane b recv) (several : b.seqMax ≠ 1) (slow : 0 < recv.numSlowRecvEd) :
    Sane b (patchDataTest recv).1 := by
  refine ⟨sane.knows.test, ?_, ?_, ?_, fun single => absurd single several, fun single => absurd single several,
    fun single => absurd single several⟩
  · rw [patchDataTest_frame]
    exact sane.last
  · rw [patchDataTest_frame]
    exact sane.counted
  · rcases patchDataTest_cases recv with ⟨gotten, _, _⟩ | kept
    · intro _
      rw [patchDataTest_frame]
      by_contra unknown
      have none := (sane.knows.unlearned (by simpa using unknown)).1
      have sum : recv.numFastRecvEd + recv.numSlowRecvEd = recv.seqMax := of_decide_eq_true gotten
      omega
    · rw [kept]
      exact sane.done

/-- The packet of a broadcast of one packet is no patch. -/
theorem Sane.uncounted (sane : Sane b recv) (single : b.seqMax = 1) (inside : seq < b.seqMax) {counted : Bool}
    (branch : SlowCase b recv seq next counted) : counted = false := by
  obtain ⟨front, unwrapped, _⟩ := sane.single single
  cases branch with
  | outOfRange => rfl
  | tail wrapped behind => omega
  | zeroLearns zero other => omega
  | zeroAgain zero other => omega
  | inside outer other nonzero => omega

/-- A patch keeps a receiver sane and finished, and the patch that finishes the receiver is reported to the
service thread. -/
theorem Sane.patch (sane : Sane b recv) (inside : seq < b.seqMax) {output : HandlerOutput}
    (handled : msgPatchData recv (b.packet seq) = .ok (next, output)) :
    Sane b next ∧ (recv.isFinished = true → next.isFinished = true) ∧
      (recv.isFinished = false → next.isFinished = true → .seqAll b.bcdId ∈ output.toService) := by
  unfold msgPatchData at handled
  cases counting : patchDataCount recv (b.packet seq) with
  | error fault => simp [counting, bind, Except.bind] at handled
  | ok outcome =>
      obtain ⟨patched, counted⟩ := outcome
      simp only [counting, bind, Except.bind, pure, Except.pure, Except.ok.injEq] at handled
      have branch := patchDataCount_cases sane.knows counting
      have knows := branch.knows sane.knows
      obtain ⟨fst, first, lst, tail, fast, _, finished, learned⟩ := branch.frame
      cases counted with
      | false =>
          obtain ⟨rfl, rfl⟩ := Prod.mk.inj handled
          have same : patched = recv := by
            cases branch with
            | outOfRange => rfl
          subst same
          exact ⟨sane, id, fun unfinished complete => absurd (unfinished.symm.trans complete) (by simp)⟩
      | true =>
          rw [if_pos rfl] at handled
          obtain rfl : (patchDataTest patched).1 = next := congrArg Prod.fst handled
          obtain rfl : (patchDataTest patched).2 = output := congrArg Prod.snd handled
          have several : b.seqMax ≠ 1 := fun single => by cases sane.uncounted single inside branch
          have slow : 0 < patched.numSlowRecvEd := by
            by_cases other : seq = recv.seqFst
            · cases branch with
              | tail wrapped behind buffer allocated => exact Nat.succ_pos _
              | zeroLearns zero away => exact absurd other away
              | zeroAgain zero away => exact absurd other away
              | inside outer away => exact absurd other away
            · rw [(branch.counts other).2]
              exact Nat.succ_pos _
          have stored : Sane b patched := by
            refine ⟨knows, ?_, ?_, ?_, fun single => absurd single several, fun single => absurd single several,
              fun single => absurd single several⟩
            · rw [fst, lst]
              exact sane.last
            · rw [fst, fast]
              intro started unknown
              apply sane.counted started
              by_contra known
              rw [learned (by simpa using known)] at unknown
              cases unknown
            · rw [finished]
              exact fun complete => learned (sane.done complete)
          refine ⟨stored.test several slow, ?_, ?_⟩
          · intro complete
            rcases patchDataTest_cases patched with ⟨_, ended, _⟩ | kept
            · exact ended
            · rw [kept, finished, complete]
          · intro unfinished complete
            rcases patchDataTest_cases patched with ⟨_, _, reported⟩ | kept
            · exact knows.bcdId ▸ reported
            · rw [kept, finished, unfinished] at complete
              cases complete

end Receivers

end RepublicAgent
