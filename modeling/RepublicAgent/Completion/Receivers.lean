/-
This file says what each step of a receiver adds to its messages. A receiver reports its first packet once and
its last one once, and a finished receiver has no open stream.
-/

import RepublicAgent.Completion.Connections
import RepublicAgent.Receiver.Announcement
import RepublicAgent.Receiver.Race

namespace RepublicAgent
open MachineInteger

/-- The reports that lead to a `MSG_FIRST_SEQ`. -/
def seqFirsts (msgs : List N2cMsg) : Nat :=
  msgs.countP fun msg => match msg with
    | .seqFirst .. => true
    | _ => false

def firstSeqs (msgs : List ToMasterMsg) : Nat :=
  msgs.countP fun msg => match msg with
    | .firstSeq .. => true
    | _ => false

def allDones (msgs : List ToMasterMsg) : Nat :=
  msgs.countP fun msg => match msg with
    | .allDone _ => true
    | _ => false

def patchTuples (msgs : List ToMasterMsg) : List PatchTuple :=
  msgs.filterMap fun msg => match msg with
    | .patchReq _ pt => some pt
    | _ => none

/-- A request ends inside of the data or with the round of the receiver. -/
def PatchTuple.Bounded (b : Broadcast) (pt : PatchTuple) : Prop :=
  pt.endSeq ≤ b.seqMax ∨ pt.endSeq = seq2WardTheEnd

/-- A finished receiver announced it, unless the first packet announces the whole data. -/
def RecverState.announced (b : Broadcast) (recv : RecverState) : Nat :=
  if b.seqMax = 1 then 0 else recv.isFinished.toNat

/-- The end of a transfer closes the streams and frees the tail buffer. -/
structure Regular (b : Broadcast) (recv : RecverState) : Prop where
  sane : Sane b recv
  closed : recv.isFinished = true → recv.fdP = none ∧ recv.fdPatchP = none ∧ recv.tailPatchBuffer = none
  first : recv.seqFst < b.seqMax

/-- A step of a receiver with the messages that it creates. -/
structure Announces (b : Broadcast) (recv next : RecverState) (firsts dones : Nat) (tuples : List PatchTuple) :
    Prop where
  regular : Regular b next
  firsts : recv.isSeqFst.toNat + firsts = next.isSeqFst.toNat
  dones : recv.announced b + dones = next.announced b
  bounded : ∀ pt ∈ tuples, pt.Bounded b

section Receivers

variable {b : Broadcast} {recv next : RecverState} {seq : Nat} {flags : PacketFlags}

theorem seqFirsts_n2cMessages (recv : RecverState) (seqNum : Nat) (seqFirst seqAll : Bool) (flags : PacketFlags) :
    seqFirsts (n2cMessages recv seqNum seqFirst seqAll flags) = seqFirst.toNat := by
  rw [seqFirsts, n2cMessages_countP _ _ _ _ _ _ fun _ => rfl]
  simp

theorem Regular.idle (regular : Regular b recv) : Announces b recv recv 0 0 [] :=
  ⟨regular, rfl, rfl, fun _ impossible => nomatch impossible⟩

/-- The state that the first packet creates. -/
theorem created_regular (b : Broadcast) :
    Regular b (recverStateStartFathPath (createRecverState b.bcdId b.payloadLen)) :=
  ⟨(createRecverState_sane b).start, nofun, b.seqMax_pos⟩

/-- A packet that is not counted changes a receiver with the metadata in nothing. -/
theorem FastCase.uncounted (branch : FastCase b recv seq next flags) (known : recv.isSeqZero = true)
    (same : ¬recv.numFastRecvEd < next.numFastRecvEd) : next = recv := by
  have counts := branch.counts
  cases branch with
  | inOrder | zeroInOrder | zeroJump | jump | wrap => exact absurd (by rw [counts]; exact Nat.lt_succ_self _) same
  | zeroRejected zero unknown => exact absurd (known.symm.trans unknown) (by simp)
  | zeroAgain | jumpRejected | behind => rfl

/-- A jump inside of the data is requested up to the packet. -/
theorem FastCase.bounded (branch : FastCase b recv seq next flags) (inside : seq < b.seqMax) :
    ∀ pt ∈ flags.pt, pt.Bounded b := by
  intro pt requested
  cases branch with
  | zeroJump =>
      obtain rfl := Option.some.inj requested
      exact .inl le_rfl
  | jump | wrap =>
      obtain rfl := Option.some.inj requested
      exact .inl inside.le
  | inOrder | zeroInOrder | zeroRejected | zeroAgain | jumpRejected | behind => cases requested

/-- A finished receiver takes no packet and does not reach the end of the round. -/
theorem Regular.unopened (regular : Regular b recv) (finished : recv.isFinished = true)
    (running : recv.isFastpath = true) {pkt : DataPacket} {msgs : List N2cMsg}
    (processed : processPacket recv pkt = .ok (next, msgs)) :
    ¬recv.numFastRecvEd < next.numFastRecvEd ∧ isLastOptical next pkt.seqNum = false := by
  have closed := (regular.closed finished).1
  unfold processPacket at processed
  cases outcome : processRings recv pkt with
  | error assertion => simp [outcome] at processed
  | ok outcome =>
      simp only [outcome, running, closed, true_and] at processed
      split_ifs at processed with used
      obtain rfl := congrArg Prod.fst (Except.ok.inj processed)
      rw [not_or] at used
      exact ⟨used.1, by simpa using used.2⟩

theorem fastPathLast_closed (all : (fastPathLast recv seq).2 = true) :
    (fastPathLast recv seq).1.fdP = none ∧ (fastPathLast recv seq).1.fdPatchP = none ∧
      (fastPathLast recv seq).1.tailPatchBuffer = none := by
  unfold fastPathLast fastPathTest at all ⊢
  split_ifs at all ⊢
  exact ⟨rfl, rfl, rfl⟩

/-- A packet of a finished receiver changes no stream and is not the last one. -/
theorem Regular.again (regular : Regular b recv) (finished : recv.isFinished = true)
    (running : recv.isFastpath = true) {counted : RecverState} {msgs : List N2cMsg}
    (processed : processPacket recv (b.packet seq) = .ok (next, msgs))
    (branch : FastCase b (fastPathFirst recv seq) seq counted flags)
    (ended : next = (fastPathLast counted seq).1) :
    next = fastPathFirst recv seq ∧ (fastPathLast counted seq).2 = false := by
  obtain ⟨same, other⟩ := regular.unopened finished running processed
  rw [show (b.packet seq).seqNum = seq from rfl] at other
  obtain ⟨_, zero, _, fast, _⟩ := fastPathFirst_frame recv seq
  have frame := fastPathLast_frame counted seq
  rw [← ended] at frame
  have counts : next.numFastRecvEd = counted.numFastRecvEd := by rw [frame]
  have kept : counted = fastPathFirst recv seq := by
    apply branch.uncounted (zero.trans (regular.sane.done finished))
    rw [fast, ← counts]
    exact same
  have last : isLastOptical counted seq = false := by
    rw [← other]
    exact isLastOptical_congr (by rw [frame]) fun _ => by rw [frame]
  have idle : fastPathLast counted seq = (counted, false) := by
    rw [fastPathLast, if_neg (by simp [last])]
  rw [idle] at ended ⊢
  exact ⟨ended.trans kept, rfl⟩

/-- The messages of a packet. -/
theorem Regular.packet (regular : Regular b recv) (inside : seq < b.seqMax) {msgs : List N2cMsg}
    (processed : processPacket recv (b.packet seq) = .ok (next, msgs)) :
    Announces b recv next (seqFirsts msgs) (seqAlls msgs) (jumpTuples msgs) := by
  have rings := processPacket_ok processed
  have sane := (regular.sane.process inside rings).1
  cases running : recv.isFastpath with
  | false =>
      rw [processRings, if_neg (by simp [running])] at rings
      obtain ⟨rfl, rfl⟩ := Prod.mk.inj (Except.ok.inj rings)
      exact regular.idle
  | true =>
      obtain ⟨counted, flags, counting, ended, reported⟩ := processRings_running running rings
      rw [show (b.packet seq).seqNum = seq from rfl] at ended reported
      have branch := fastPathCount_cases (regular.sane.knows.first seq) inside (regular.sane.first inside).2 counting
      obtain ⟨started, zero, finished, fast, streams⟩ := fastPathFirst_frame recv seq
      have again := fun complete => regular.again complete running processed branch ended
      have frame := fastPathLast_frame counted seq
      rw [← ended] at frame
      have first : next.isSeqFst = true := by
        rw [frame]
        exact branch.frame.1.trans started
      have before : counted.isFinished = recv.isFinished := branch.frame.2.2.2.2.1.trans finished
      refine ⟨⟨sane, ?_, ?_⟩, ?_, ?_, ?_⟩
      · intro complete
        rcases fastPathLast_cases counted seq with ⟨all, _, _⟩ | ⟨_, kept⟩
        · rw [ended]
          exact fastPathLast_closed all
        · have earlier : recv.isFinished = true := by rw [← before, ← kept, ← ended, complete]
          rw [(again earlier).1, streams.1, streams.2.1, streams.2.2]
          exact regular.closed earlier
      · have fst : next.seqFst = (fastPathFirst recv seq).seqFst := by
          rw [frame]
          exact branch.frame.2.1
        rw [fst, fastPathFirst]
        split_ifs
        · exact regular.first
        · exact inside
        · exact inside
      · rw [reported, seqFirsts_n2cMessages, first]
        cases recv.isSeqFst <;> rfl
      · rw [reported, seqAlls_n2cMessages]
        unfold RecverState.announced
        split_ifs with single
        · have short : next.seqMax ≤ 1 := by
            cases known : next.isSeqZero with
            | true => exact ((sane.knows.learned known).1.trans single).le
            | false => exact (sane.knows.unlearned known).1.trans_le (Nat.zero_le 1)
          simp [not_lt.mpr short]
        · rcases fastPathLast_cases counted seq with ⟨all, _, complete⟩ | ⟨none, kept⟩
          · rw [← ended] at complete
            have size := (sane.knows.learned (sane.done complete)).1
            have positive := b.seqMax_pos
            have several : 1 < next.seqMax := by omega
            have unfinished : recv.isFinished = false := by
              by_contra earlier
              have silent := (again (by simpa using earlier)).2
              rw [all] at silent
              cases silent
            simp [unfinished, all, several, complete]
          · rw [ended, kept, before, none]
            rfl
      · rw [reported, jumpTuples_n2cMessages]
        intro pt requested
        split_ifs at requested
        · exact branch.bounded inside pt (Option.mem_toList.mp requested)
        · cases requested

/-- The completion test announces that it finishes the receiver. -/
theorem patchDataTest_announces (recv : RecverState) :
    (patchDataTest recv = (recv, HandlerOutput.none)) ∨
      ((patchDataTest recv).1.isFinished = true ∧ allDones (patchDataTest recv).2.toMaster = 1 ∧
        (patchDataTest recv).1.fdP = none ∧ (patchDataTest recv).1.fdPatchP = none ∧
        (patchDataTest recv).1.tailPatchBuffer = none) := by
  unfold patchDataTest
  split_ifs
  · exact .inr ⟨rfl, rfl, rfl, rfl, rfl⟩
  · exact .inl rfl

/-- A patch requests nothing and reports no first packet. -/
theorem msgPatchData_toMaster {pkt : DataPacket} {output : HandlerOutput}
    (handled : msgPatchData recv pkt = .ok (next, output)) :
    firstSeqs output.toMaster = 0 ∧ patchTuples output.toMaster = [] := by
  unfold msgPatchData at handled
  cases counting : patchDataCount recv pkt with
  | error fault => simp [counting, bind, Except.bind] at handled
  | ok outcome =>
      simp only [counting, bind, Except.bind, pure, Except.pure, Except.ok.injEq] at handled
      unfold patchDataTest at handled
      split_ifs at handled
      · obtain rfl := congrArg Prod.snd handled
        exact ⟨rfl, rfl⟩
      · obtain rfl := congrArg Prod.snd handled
        exact ⟨rfl, rfl⟩
      · obtain rfl := congrArg Prod.snd handled
        exact ⟨rfl, rfl⟩

/-- A patch that is counted finds the streams open, and it announces when it is the last missing packet. -/
theorem Regular.patch (regular : Regular b recv) (inside : seq < b.seqMax) {output : HandlerOutput}
    (processed : processPatch recv (b.packet seq) = .ok (next, output)) :
    Announces b recv next (firstSeqs output.toMaster) (allDones output.toMaster) (patchTuples output.toMaster) := by
  obtain ⟨handled, opened⟩ := processPatch_ok processed
  have sane := (regular.sane.patch inside handled).1
  obtain ⟨firsts, tuples⟩ := msgPatchData_toMaster handled
  rw [firsts, tuples]
  unfold msgPatchData at handled
  cases counting : patchDataCount recv (b.packet seq) with
  | error fault => simp [counting, bind, Except.bind] at handled
  | ok outcome =>
      obtain ⟨patched, counted⟩ := outcome
      simp only [counting, bind, Except.bind, pure, Except.pure, Except.ok.injEq] at handled
      have branch := patchDataCount_cases regular.sane.knows counting
      cases counted with
      | false =>
          obtain ⟨rfl, rfl⟩ := Prod.mk.inj handled
          cases branch
          exact regular.idle
      | true =>
          rw [if_pos rfl] at handled
          obtain rfl : (patchDataTest patched).1 = next := congrArg Prod.fst handled
          obtain rfl : (patchDataTest patched).2 = output := congrArg Prod.snd handled
          obtain ⟨begun, fst, _, _, _, _, finished, _⟩ := branch.frame
          have several : b.seqMax ≠ 1 := fun single => by
            have uncounted := regular.sane.uncounted single inside branch
            cases uncounted
          have unfinished : recv.isFinished = false := by
            by_contra complete
            apply opened
            refine ⟨(regular.closed (by simpa using complete)).2.1, ?_⟩
            have slow : (patchDataTest patched).1.numSlowRecvEd = patched.numSlowRecvEd := by
              rw [patchDataTest_frame]
            rw [slow, branch.counted]
            exact Nat.lt_succ_self _
          have tested := patchDataTest_frame patched
          have first : (patchDataTest patched).1.isSeqFst = recv.isSeqFst := by rw [tested, begun]
          have front : (patchDataTest patched).1.seqFst = recv.seqFst := by rw [tested, fst]
          refine ⟨⟨sane, ?_, front ▸ regular.first⟩, by rw [first]; rfl, ?_, fun _ impossible => nomatch impossible⟩
          · intro complete
            rcases patchDataTest_announces patched with kept | ⟨_, _, closed⟩
            · rw [kept, finished, unfinished] at complete
              cases complete
            · exact closed
          · unfold RecverState.announced
            rw [if_neg several, if_neg several, unfinished]
            rcases patchDataTest_announces patched with kept | ⟨complete, once, _⟩
            · rw [kept, finished, unfinished]
              rfl
            · rw [complete, once]
              rfl

/-- The counters of a receiver do not depend on the bytes that it writes. -/
def RecverState.shape (recv : RecverState) : RecverState :=
  { recv with
    tailPatchBuffer := recv.tailPatchBuffer.map fun _ => []
    file := []
    fdPatchP := recv.fdPatchP.map fun _ => 0
    fileMetadata := { recv.fileMetadata with jump := 0 } }

theorem regular_shape : Regular b recv.shape ↔ Regular b recv := by
  have tail : recv.shape.tailPatchBuffer = none ↔ recv.tailPatchBuffer = none := Option.map_eq_none_iff
  have stream : recv.shape.fdPatchP = none ↔ recv.fdPatchP = none := Option.map_eq_none_iff
  have unlearned : (recv.seqMax = 0 ∧ recv.shape.tailPatchBuffer = none ∧ recv.tailPatchBufferLen = 0) ↔
      recv.seqMax = 0 ∧ recv.tailPatchBuffer = none ∧ recv.tailPatchBufferLen = 0 := by rw [tail]
  have closed : (recv.fdP = none ∧ recv.shape.fdPatchP = none ∧ recv.shape.tailPatchBuffer = none) ↔
      recv.fdP = none ∧ recv.fdPatchP = none ∧ recv.tailPatchBuffer = none := by rw [stream, tail]
  constructor
  · rintro ⟨⟨knows, last, counted, done, single, atOnce, before⟩, ended, first⟩
    exact ⟨⟨⟨knows.bcdId, knows.payload, knows.learned, fun unknown => unlearned.mp (knows.unlearned unknown)⟩,
      last, counted, done, single, atOnce, before⟩, fun finished => closed.mp (ended finished), first⟩
  · rintro ⟨⟨knows, last, counted, done, single, atOnce, before⟩, ended, first⟩
    exact ⟨⟨⟨knows.bcdId, knows.payload, knows.learned, fun unknown => unlearned.mpr (knows.unlearned unknown)⟩,
      last, counted, done, single, atOnce, before⟩, fun finished => closed.mpr (ended finished), first⟩

theorem patch_shape (recv : RecverState) (first second : List UInt8) (seqNum : Nat) :
    (recv.patch first seqNum).shape = (recv.patch second seqNum).shape := by
  simp [RecverState.shape, RecverState.patch, RecverState.fwritePatch, Option.map_map, Function.comp_def]

/-- A patch is counted whatever its bytes are. -/
theorem patchDataCount_payload (recv : RecverState) (pkt : DataPacket) (payload : List UInt8) :
    (patchDataCount recv { pkt with payload := payload }).map (fun outcome => (outcome.1.shape, outcome.2)) =
      (patchDataCount recv pkt).map fun outcome => (outcome.1.shape, outcome.2) := by
  have patched := fun recv : RecverState => patch_shape recv payload pkt.payload pkt.seqNum
  unfold RecverState.patch at patched
  unfold patchDataCount
  dsimp only
  split_ifs with behind first zero
  · unfold RecverState.copyToTail
    cases recv.tailPatchBuffer <;> rfl
  · rfl
  · cases recverStateUpdateBcdMetadata recv pkt.metadata with
    | error fault => rfl
    | ok outcome =>
        simp only [bind, Except.bind, pure, Except.pure, throw, throwThe, MonadExceptOf.throw]
        split_ifs
        · rfl
        · simp only [Except.map, patched]
  · simp only [bind, Except.bind, pure, Except.pure, Except.map, patched]

theorem patchDataTest_shape {first second : RecverState} (same : first.shape = second.shape) :
    (patchDataTest first).1.shape = (patchDataTest second).1.shape ∧
      (patchDataTest first).2 = (patchDataTest second).2 := by
  have through {Value : Type} (read : RecverState → Value) : read first.shape = read second.shape :=
    congrArg read same
  have counted : recverStateHasGottenAllData first = recverStateHasGottenAllData second :=
    through recverStateHasGottenAllData
  have named : first.bcdId = second.bcdId := through RecverState.bcdId
  have finished : (recverStateFinishRecv first).shape = (recverStateFinishRecv second).shape :=
    through fun recv => (recverStateFinishRecv recv).shape
  unfold patchDataTest
  rw [counted, named]
  split_ifs
  · exact ⟨finished, rfl⟩
  · exact ⟨same, rfl⟩

/-- A patch is handled whatever its bytes are. -/
theorem msgPatchData_payload {pkt : DataPacket} {payload : List UInt8} {output : HandlerOutput}
    (handled : msgPatchData recv { pkt with payload := payload } = .ok (next, output)) :
    ∃ other, msgPatchData recv pkt = .ok (other, output) ∧ other.shape = next.shape := by
  have same := patchDataCount_payload recv pkt payload
  unfold msgPatchData at handled ⊢
  cases counting : patchDataCount recv { pkt with payload := payload } with
  | error fault => simp [counting, bind, Except.bind] at handled
  | ok outcome =>
      cases plain : patchDataCount recv pkt with
      | error fault =>
          rw [counting, plain] at same
          cases same
      | ok expected =>
          rw [counting, plain] at same
          obtain ⟨shape, flag⟩ := Prod.mk.inj (Except.ok.inj same)
          simp only [counting, bind, Except.bind, pure, Except.pure, Except.ok.injEq] at handled ⊢
          rw [← flag]
          obtain ⟨tested, output⟩ := patchDataTest_shape shape
          split_ifs at handled ⊢
          · obtain ⟨rfl, rfl⟩ := Prod.mk.inj handled
            exact ⟨_, Prod.ext rfl output.symm, tested.symm⟩
          · obtain ⟨rfl, rfl⟩ := Prod.mk.inj handled
            exact ⟨_, rfl, shape.symm⟩

/-- What a patch announces does not depend on its bytes. -/
theorem Announces.of_shape {other : RecverState} {firsts dones : Nat} {tuples : List PatchTuple}
    (announces : Announces b recv other firsts dones tuples) (same : other.shape = next.shape) :
    Announces b recv next firsts dones tuples := by
  have through {Value : Type} (read : RecverState → Value) : read other.shape = read next.shape :=
    congrArg read same
  have regular : Regular b next := by
    rw [← regular_shape, ← same, regular_shape]
    exact announces.regular
  have first : other.isSeqFst = next.isSeqFst := through RecverState.isSeqFst
  have announced : other.announced b = next.announced b := through (RecverState.announced b)
  exact ⟨regular, first ▸ announces.firsts, announced ▸ announces.dones, announces.bounded⟩

theorem Regular.patchPayload (regular : Regular b recv) (inside : seq < b.seqMax) {payload : List UInt8}
    {output : HandlerOutput}
    (processed : processPatch recv { b.packet seq with payload := payload } = .ok (next, output)) :
    Announces b recv next (firstSeqs output.toMaster) (allDones output.toMaster) (patchTuples output.toMaster) := by
  obtain ⟨handled, opened⟩ := processPatch_ok processed
  obtain ⟨other, plain, same⟩ := msgPatchData_payload handled
  have counts : other.shape.numSlowRecvEd = next.shape.numSlowRecvEd := congrArg RecverState.numSlowRecvEd same
  have expected : processPatch recv (b.packet seq) = .ok (other, output) := by
    rw [processPatch, plain]
    dsimp only
    rw [show other.numSlowRecvEd = next.numSlowRecvEd from counts, if_neg opened]
  exact (regular.patch inside expected).of_shape same

/-- The handler of `MSG_FAST_DONE` requests up to the first packet of the receiver or up to the end of the round. -/
theorem Regular.fastDone (regular : Regular b recv) :
    Announces b recv (msgFastDone recv).1 0 0 (msgFastDone recv).2.toList := by
  obtain ⟨sane, finished⟩ := regular.sane.fastDone
  have kept := msgFastDone_recv recv
  have first : (msgFastDone recv).1.isSeqFst = recv.isSeqFst := by
    rw [kept]
    split_ifs <;> rfl
  refine ⟨⟨sane, ?_, ?_⟩, by rw [first]; rfl, ?_, ?_⟩
  · intro complete
    have earlier := finished.symm.trans complete
    rw [kept, if_pos earlier]
    exact regular.closed earlier
  · rw [kept]
    split_ifs
    · exact regular.first
    · exact regular.first
  · unfold RecverState.announced
    rw [finished]
    rfl
  · intro pt requested
    unfold msgFastDone at requested
    dsimp only at requested
    split_ifs at requested
    · cases requested
    · obtain rfl := List.mem_singleton.mp requested
      exact .inl regular.first.le
    · cases requested
    · obtain rfl := List.mem_singleton.mp requested
      exact .inr rfl

/-- The control thread passes the reports on. -/
theorem n2cHandler_toMaster {notify : Bool} {msg : N2cMsg} {output : HandlerOutput}
    (handled : n2cHandler notify recv msg = .ok output) :
    firstSeqs output.toMaster = seqFirsts [msg] ∧ allDones output.toMaster = seqAlls [msg] ∧
      patchTuples output.toMaster = jumpTuples [msg] := by
  unfold n2cHandler at handled
  cases msg with
  | seqFirst bcdId seq =>
      obtain rfl := Except.ok.inj handled
      exact ⟨rfl, rfl, rfl⟩
  | seqZero bcdId =>
      dsimp only at handled
      split_ifs at handled
      · obtain rfl := Except.ok.inj handled
        exact ⟨rfl, rfl, rfl⟩
      · obtain rfl := Except.ok.inj handled
        exact ⟨rfl, rfl, rfl⟩
  | seqAll bcdId =>
      dsimp only at handled
      split_ifs at handled
      obtain rfl := Except.ok.inj handled
      exact ⟨rfl, rfl, rfl⟩
  | seqJump bcdId pt =>
      obtain rfl := Except.ok.inj handled
      exact ⟨rfl, rfl, rfl⟩

end Receivers

end RepublicAgent
