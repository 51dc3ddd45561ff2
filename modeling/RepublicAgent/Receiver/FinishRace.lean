/-
This file proves how often a receiver is finished when the two channels count and test apart.
-/

import RepublicAgent.Receiver.Race

namespace RepublicAgent
open CyclicWindow Execution MachineInteger

/-- A receiver that took no packet between its count and its test differs in what the test writes. -/
structure Tested (recv tested : RecverState) : Prop where
  isSeqFst : tested.isSeqFst = recv.isSeqFst
  seqFst : tested.seqFst = recv.seqFst
  seqLst : tested.seqLst = recv.seqLst
  isSeqZero : tested.isSeqZero = recv.isSeqZero
  seqMax : tested.seqMax = recv.seqMax
  fast : tested.numFastRecvEd = recv.numFastRecvEd
  slow : tested.numSlowRecvEd = recv.numSlowRecvEd

theorem patchDataTest_tested (recv : RecverState) : Tested recv (patchDataTest recv).1 := by
  rw [patchDataTest_frame]
  exact ⟨rfl, rfl, rfl, rfl, rfl, rfl, rfl⟩

theorem fastPathLast_tested (recv : RecverState) (seqNum : Nat) : Tested recv (fastPathLast recv seqNum).1 := by
  rw [fastPathLast_frame]
  exact ⟨rfl, rfl, rfl, rfl, rfl, rfl, rfl⟩

/-- An unfinished receiver has both streams open and was never finished. A finished one was finished once. -/
structure Tally (r : Race) : Prop where
  unfinished : r.transfer.recv.isFinished = false →
    r.transfer.recv.fdP ≠ none ∧ r.transfer.recv.fdPatchP ≠ none ∧ r.finishes = 0 ∧ r.allDones = 0
  finished : r.transfer.recv.isFinished = true →
    r.transfer.recv.fdP = none ∧ r.transfer.recv.fdPatchP = none ∧ r.finishes = 1 ∧ r.allDones ≤ 1

/-- The count of a packet or a patch finishes nothing. -/
structure Untallied (r next : Race) : Prop where
  isFinished : next.transfer.recv.isFinished = r.transfer.recv.isFinished
  fdP : next.transfer.recv.fdP = none ↔ r.transfer.recv.fdP = none
  fdPatchP : next.transfer.recv.fdPatchP = none ↔ r.transfer.recv.fdPatchP = none
  finishes : next.finishes = r.finishes
  allDones : next.allDones = r.allDones

/-- No test of a finished receiver is due on the control channel. -/
structure Calm (b : Broadcast) (round : Nat) (r : Race) : Prop where
  raced : Raced b round r
  tally : Tally r
  tested : r.transfer.recv.isFinished = true → r.slowPending = false

/-- The data channel has finished a receiver that the control channel has still to test. -/
structure Owed (r : Race) : Prop where
  gotten : recverStateHasGottenAllData r.transfer.recv = true
  closed : r.transfer.recv.fdP = none
  stopped : r.transfer.recv.isFastpath = false
  idle : r.fastPending = none
  pending : r.slowPending = true
  finishes : r.finishes = 1
  allDones : r.allDones ≤ 1

/-- The faults of a race that was finished at most once. -/
def RaceFault.Once (fault : RaceFault) : Prop := fault.finishes ≤ 1 ∧ fault.allDones ≤ 1

/-- The second entry into `recverState_finishRecv` meets the closed streams. -/
def RaceFault.Twice (fault : RaceFault) : Prop := ∃ allDones ≤ 1, fault = ⟨.streamOpen, 2, allDones⟩

section Steps

variable {b : Broadcast} {round : Nat} {r next : Race} {recv : RecverState}

theorem Tally.once (tally : Tally r) : r.finishes ≤ 1 ∧ r.allDones ≤ 1 := by
  cases finished : r.transfer.recv.isFinished with
  | false =>
      have none' := tally.unfinished finished
      omega
  | true =>
      have one := tally.finished finished
      omega

/-- A receiver with an open stream was never finished. -/
theorem Tally.opened (tally : Tally r) (streams : r.transfer.recv.fdP ≠ none) : r.finishes = 0 ∧ r.allDones = 0 := by
  have unfinished : r.transfer.recv.isFinished = false := by
    by_contra finished
    exact streams (tally.finished (by simpa using finished)).1
  exact (tally.unfinished unfinished).2.2

/-- A closed stream belongs to a finished receiver. -/
theorem Tally.closed (tally : Tally r) (closed : r.transfer.recv.fdP = none ∨ r.transfer.recv.fdPatchP = none) :
    r.transfer.recv.isFinished = true := by
  by_contra open'
  have streams := tally.unfinished (by simpa using open')
  rcases closed with fast | slow
  · exact streams.1 fast
  · exact streams.2.1 slow

theorem Tally.count (tally : Tally r) (same : Untallied r next) : Tally next := by
  refine ⟨fun unfinished => ?_, fun finished => ?_⟩
  · obtain ⟨fast, slow, finishes, allDones⟩ := tally.unfinished (same.isFinished.symm.trans unfinished)
    exact ⟨fun closed => fast (same.fdP.mp closed), fun closed => slow (same.fdPatchP.mp closed),
      same.finishes.trans finishes, same.allDones.trans allDones⟩
  · obtain ⟨fast, slow, finishes, allDones⟩ := tally.finished (same.isFinished.symm.trans finished)
    exact ⟨same.fdP.mpr fast, same.fdPatchP.mpr slow, same.finishes.trans finishes, same.allDones.trans_le allDones⟩

/-- A race behind its first packet is not fresh. -/
theorem RaceStarted.raced (started : RaceStarted b round r) (knows : Knows b r.transfer.recv)
    (active : r.transfer.recv.isSeqFst = true) : Raced b round r :=
  ⟨knows, fun fresh => absurd (active.symm.trans fresh) (by simp), fun _ => started⟩

/-- A completion test keeps the accounting. -/
theorem Raced.tested (raced : Raced b round r) (active : r.transfer.recv.isSeqFst = true)
    (same : Tested r.transfer.recv recv) (knows : Knows b recv)
    (settled : next.settled b round = { r.settled b round with recv := recv })
    (busy : next.fastPending.isSome = true →
      r.fastPending.isSome = true ∧ recv.isFastpath = r.transfer.recv.isFastpath)
    (live : next.live → r.live)
    (finished : r.transfer.recv.isFinished = false → recv.isFinished = true →
      recverStateHasGottenAllData r.transfer.recv = true) :
    next.counted = r.counted ∧ Raced b round next := by
  have started := raced.started active
  obtain ⟨before, fastBefore, slowBefore, seenBefore⟩ := settled_fields b round r
  obtain ⟨after, fastAfter, slowAfter, seenAfter⟩ := settled_fields b round next
  rw [settled] at after fastAfter slowAfter seenAfter
  have moved : next.transfer.recv = recv := after.symm
  have fastLog : next.transfer.fastLog = r.transfer.fastLog := fastAfter.symm.trans fastBefore
  have slowLog : next.transfer.slowLog = r.transfer.slowLog := slowAfter.symm.trans slowBefore
  have seen : next.transfer.fastDoneSeen = r.transfer.fastDoneSeen := seenAfter.symm.trans seenBefore
  have sum : next.counted = r.counted := by
    unfold Race.counted
    rw [moved, same.fast, same.slow]
  have still : next.transfer.recv.isSeqFst = true := by
    rw [moved, same.isSeqFst, active]
  refine ⟨sum, RaceStarted.raced ⟨?_, ?_, ?_, ?_, ?_⟩ (by rwa [moved]) still⟩
  · rw [settled]
    exact started.accounted.congr (by rw [before]; exact same.seqFst) (by rw [before]; exact same.seqLst)
      (by rw [before]; exact same.fast) (by rw [before]; exact same.slow)
  · rw [moved, fastLog, slowLog, same.isSeqZero]
    exact started.zero
  · intro pending
    obtain ⟨earlier, running⟩ := busy pending
    rw [moved, seen, running]
    exact started.busy earlier
  · intro alive
    rw [moved, seen, same.seqLst, same.seqFst, same.isSeqZero]
    exact started.live (live alive)
  · intro closed
    rw [moved] at closed
    rw [sum]
    cases earlier : r.transfer.recv.isFinished with
    | true => exact started.finished earlier
    | false =>
        have whole := finished earlier closed
        rw [started.gotten raced.knows] at whole
        exact of_decide_eq_true whole

/-- A pending test belongs to a started receiver. -/
theorem Raced.active (raced : Raced b round r) (pending : r.slowPending = true ∨ r.fastPending.isSome = true) :
    r.transfer.recv.isSeqFst = true := by
  by_contra fresh
  rw [raced.fresh (by simpa using fresh)] at pending
  rcases pending with slow | fast
  · cases slow
  · cases fast

/-- The control channel after its test for completion. -/
def Race.slowTested (r : Race) : Race :=
  { r with
    transfer := { r.transfer with recv := (patchDataTest r.transfer.recv).1 }
    slowPending := false
    finishes := r.finishes + (recverStateHasGottenAllData r.transfer.recv).toNat
    allDones := r.allDones + (patchDataTest r.transfer.recv).2.toMaster.length }

/-- The end of a control message is a test for completion. -/
theorem Raced.slowTested (raced : Raced b round r) (pending : r.slowPending = true) :
    Raced b round r.slowTested := by
  have active := raced.active (.inl pending)
  have same := patchDataTest_tested r.transfer.recv
  have fastpath : (patchDataTest r.transfer.recv).1.isFastpath = r.transfer.recv.isFastpath := by
    rw [patchDataTest_frame]
  have due : r.slowTested.fastDue = r.fastDue := fastDue_congr rfl same.seqFst fun _ => same.seqMax
  have alive : r.slowTested.live → r.live := fun live => ⟨fastpath.symm.trans live.1, due.symm.trans live.2⟩
  exact (raced.tested active same raced.knows.test (settled_recv r same.seqFst _ _ _)
    (fun busy => ⟨busy, fastpath⟩) alive patchDataTest_finished).2

/-- An open receiver is finished when the count is complete. -/
theorem Tally.slowTested (tally : Tally r)
    (streams : ¬(recverStateHasGottenAllData r.transfer.recv = true ∧
      (r.transfer.recv.fdP = none ∨ r.transfer.recv.fdPatchP = none))) : Tally r.slowTested := by
  unfold Race.slowTested patchDataTest
  cases gotten : recverStateHasGottenAllData r.transfer.recv with
  | false => exact tally.count ⟨rfl, Iff.rfl, Iff.rfl, rfl, rfl⟩
  | true =>
      obtain ⟨finishes, allDones⟩ := tally.opened fun closed => streams ⟨gotten, .inl closed⟩
      refine ⟨nofun, fun _ => ⟨rfl, rfl, ?_, ?_⟩⟩
      · show r.finishes + 1 = 1
        omega
      · show r.allDones + 1 ≤ 1
        omega

/-- The data channel after the end of its packet. -/
def Race.fastTested (b : Broadcast) (round : Nat) (r : Race) (seq : Nat) (seqFirst : Bool) (flags : PacketFlags) :
    Race :=
  let msgs := n2cMessages (fastPathLast r.transfer.recv seq).1 seq seqFirst (fastPathLast r.transfer.recv seq).2 flags
  { r with
    transfer := ({ r.transfer with recv := (fastPathLast r.transfer.recv seq).1 } : Transfer).request b round
      (jumpTuples msgs)
    fastPending := none
    finishes := r.finishes + (fastPathLast r.transfer.recv seq).2.toNat
    allDones := r.allDones + seqAlls msgs }

section Packets

variable {seq : Nat} {seqFirst : Bool} {flags : PacketFlags}

theorem fastDue_pending (pending : r.fastPending = some (seq, seqFirst, flags)) :
    r.fastDue = isLastOptical r.transfer.recv seq := by
  rw [Race.fastDue, pending]
  rfl

/-- The end of a packet is a test for completion when the packet is the last optical one. -/
theorem Raced.fastTested (raced : Raced b round r) (pending : r.fastPending = some (seq, seqFirst, flags)) :
    Raced b round (r.fastTested b round seq seqFirst flags) := by
  have active := raced.active (.inr (by rw [pending]; rfl))
  have settled : (r.fastTested b round seq seqFirst flags).settled b round =
      { r.settled b round with recv := (fastPathLast r.transfer.recv seq).1 } := by
    rw [settled_idle rfl, Race.fastTested, jumpTuples_n2cMessages, Race.settled, pending]
    exact request_last r.transfer r.transfer.recv seq r.transfer.fastLog _
  have alive : (r.fastTested b round seq seqFirst flags).live → r.live := by
    rintro ⟨running, _⟩
    obtain ⟨other, kept⟩ := fastPathLast_running running
    have before : (fastPathLast r.transfer.recv seq).1.isFastpath = true := running
    rw [kept] at before
    exact ⟨before, (fastDue_pending pending).trans other⟩
  exact (raced.tested active (fastPathLast_tested r.transfer.recv seq) (raced.knows.last seq) settled
    (fun busy => by cases busy) alive fastPathLast_finished).2

/-- A packet reports the end of the data at most once. -/
theorem fastTested_allDones (r : Race) :
    (r.fastTested b round seq seqFirst flags).allDones ≤
      r.allDones + (fastPathLast r.transfer.recv seq).2.toNat := by
  unfold Race.fastTested
  dsimp only
  rw [seqAlls_n2cMessages]
  exact Nat.add_le_add_left (Bool.toNat_le_toNat fun reported => (Bool.and_eq_true_iff.mp reported).1) _

/-- A packet that is no test for completion closes no stream. -/
theorem Tally.fastTested_open (tally : Tally r) (open' : (fastPathLast r.transfer.recv seq).2 = false) :
    Tally (r.fastTested b round seq seqFirst flags) ∧
      (r.fastTested b round seq seqFirst flags).transfer.recv.isFinished = r.transfer.recv.isFinished := by
  have fewer := @fastTested_allDones b round seq seqFirst flags r
  have finishes : (r.fastTested b round seq seqFirst flags).finishes =
      r.finishes + (fastPathLast r.transfer.recv seq).2.toNat := rfl
  have allDones : r.allDones ≤ (r.fastTested b round seq seqFirst flags).allDones := Nat.le_add_right _ _
  rw [open', Bool.toNat_false, Nat.add_zero] at fewer finishes
  have kept : (fastPathLast r.transfer.recv seq).1.isFinished = r.transfer.recv.isFinished ∧
      (fastPathLast r.transfer.recv seq).1.fdP = r.transfer.recv.fdP ∧
      (fastPathLast r.transfer.recv seq).1.fdPatchP = r.transfer.recv.fdPatchP := by
    unfold fastPathLast fastPathTest at open' ⊢
    split_ifs at open' ⊢
    · exact ⟨rfl, rfl, rfl⟩
    · exact ⟨rfl, rfl, rfl⟩
  obtain ⟨isFinished, fdP, fdPatchP⟩ := kept
  refine ⟨tally.count ⟨isFinished, ?_, ?_, finishes, le_antisymm fewer allDones⟩, isFinished⟩
  · show (fastPathLast r.transfer.recv seq).1.fdP = none ↔ _
    rw [fdP]
  · show (fastPathLast r.transfer.recv seq).1.fdPatchP = none ↔ _
    rw [fdPatchP]

/-- The last optical packet of a complete count finishes an open receiver. -/
theorem Tally.fastTested_closed (tally : Tally r) (streams : r.transfer.recv.fdP ≠ none)
    (all : (fastPathLast r.transfer.recv seq).2 = true) :
    (r.fastTested b round seq seqFirst flags).finishes = 1 ∧
      (r.fastTested b round seq seqFirst flags).allDones ≤ 1 ∧
      (r.fastTested b round seq seqFirst flags).transfer.recv =
        recverStateFinishRecv (fastPathStop r.transfer.recv) := by
  obtain ⟨finishes, allDones⟩ := tally.opened streams
  have fewer := @fastTested_allDones b round seq seqFirst flags r
  rw [all, allDones] at fewer
  refine ⟨?_, fewer, ?_⟩
  · show r.finishes + (fastPathLast r.transfer.recv seq).2.toNat = 1
    rw [all, finishes]
    rfl
  · show (fastPathLast r.transfer.recv seq).1 = _
    unfold fastPathLast fastPathTest at all ⊢
    split_ifs at all ⊢
    rfl

end Packets

/-- The data channel after it counted a packet. -/
def Race.counting (r : Race) (seq : Nat) (counted : RecverState) (flags : PacketFlags) : Race :=
  { r with
    transfer := { r.transfer with
      recv := counted
      fastLog := if r.transfer.recv.numFastRecvEd < counted.numFastRecvEd then r.transfer.fastLog ++ [seq]
        else r.transfer.fastLog }
    fastPending := some (seq, !r.transfer.recv.isSeqFst, flags) }

variable {counted : RecverState} {flags : PacketFlags}

theorem counting_due (r : Race) (seq : Nat) (counted : RecverState) (flags : PacketFlags) :
    (r.counting seq counted flags).fastDue = isLastOptical counted seq := rfl

theorem counting_settled (r : Race) (seq : Nat) (counted : RecverState) (flags : PacketFlags) :
    (r.counting seq counted flags).settled b round = (r.counting seq counted flags).transfer.request b round
      (if flags.seqJump then flags.pt.toList else []) := rfl

/-- The first packet opens the accounting. -/
theorem FirstCounted.raced {seq : Nat} (first : FirstCounted b seq counted flags) (inside : seq < b.seqMax) :
    Raced b round ((Race.fresh b).counting seq counted flags) := by
  have transfer : ((Race.fresh b).counting seq counted flags).transfer =
      { Transfer.fresh b with recv := counted, fastLog := [seq] } := by
    have grew : (Race.fresh b).transfer.recv.numFastRecvEd < counted.numFastRecvEd := by
      rw [first.fast]
      exact Nat.one_pos
    rw [Race.counting, if_pos grew]
    rfl
  refine RaceStarted.raced ⟨?_, ?_, fun _ => ⟨first.running, rfl⟩, ?_, ?_⟩ first.knows first.started
  · rw [counting_settled, if_neg (by simp [first.calm]), request_nil, transfer]
    exact first.accounted inside
  · rw [transfer]
    exact fun arrived => first.arrived (by simpa [Transfer.fresh] using arrived)
  · rintro ⟨_, other⟩
    obtain ⟨unwrapped, zeroFirst⟩ := first.unclosed inside other
    refine ⟨rfl, unwrapped, zeroFirst, ?_⟩
    intro one
    have same : counted.seqFst = 1 := one
    rw [first.fst] at same
    exact first.zero.trans (decide_eq_false (by omega))
  · intro closed
    exact absurd (first.unfinished.symm.trans closed) (by simp)

/-- A further packet keeps the accounting with its requests. -/
theorem RaceStarted.counting (small : b.seqMax < seqnumMax) (started : RaceStarted b round r)
    (idle : r.fastPending = none) (running : r.transfer.recv.isFastpath = true)
    {seq : Nat} (branch : FastCase b r.transfer.recv seq counted flags) (learned : Knows b counted)
    (inside : seq < b.seqMax) : RaceStarted b round (r.counting seq counted flags) := by
  have accounted := started.accounted
  rw [settled_idle idle] at accounted
  have live : r.live := ⟨running, by rw [Race.fastDue, idle]; rfl⟩
  obtain ⟨unclosed, unwrapped, zeroFirst, oneFirst⟩ := started.live live
  obtain ⟨_, fst, _, fastpath, finished, _⟩ := branch.frame
  refine ⟨?_, ?_, fun _ => ⟨fastpath.trans running, unclosed⟩, ?_, ?_⟩
  · rw [counting_settled]
    exact accounted.packet small unclosed unwrapped (fun first => (zeroFirst first).1) branch inside round
  · exact branch.arrived started.zero
  · rintro ⟨_, other⟩
    rw [counting_due] at other
    obtain ⟨open', low⟩ := branch.unclosed learned inside unwrapped zeroFirst other
    refine ⟨unclosed, open', low, ?_⟩
    intro one
    have first : r.transfer.recv.seqFst = 1 := fst.symm.trans one
    have unknown := oneFirst first
    -- Packet zero is the last optical one here, so another packet was counted.
    have nonzero : seq ≠ 0 := by
      have bounded := b.seqMax_lt
      have before := (@isLastOptical_false seq counted (by omega) other).1
      rw [fst, first] at before
      omega
    show counted.isSeqZero = false
    cases branch with
    | inOrder | jump | wrap | jumpRejected | behind => exact unknown
    | zeroInOrder zero | zeroJump zero | zeroRejected zero | zeroAgain zero => exact absurd zero nonzero
  · intro closed
    have before : r.transfer.recv.isFinished = true := finished.symm.trans closed
    have sum := started.finished before
    have short := started.open_lt live
    omega

/-- The count of a packet keeps the accounting. -/
theorem Raced.counting (small : b.seqMax < seqnumMax) (raced : Raced b round r) (idle : r.fastPending = none)
    (running : r.transfer.recv.isFastpath = true) (seq : Fin b.seqMax)
    (counting : fastPathCount r.transfer.recv (b.packet seq) = .ok (counted, flags)) :
    FastCase b (fastPathFirst r.transfer.recv seq) seq counted flags ∧
      Raced b round (r.counting seq counted flags) := by
  have inside := seq.isLt
  cases fixed : r.transfer.recv.isSeqFst with
  | false =>
      have bounded := b.seqMax_lt
      have first : fastPathFirst r.transfer.recv seq = _ := fastPathFirst_fresh fixed (by omega)
      refine ⟨fastPathCount_cases (raced.knows.first seq) inside
        (by rw [first]; dsimp only; split_ifs <;> omega) counting, ?_⟩
      obtain rfl := raced.fresh fixed
      exact (fresh_counted b seq counting).raced inside
  | true =>
      have started := raced.started fixed
      have same : fastPathFirst r.transfer.recv seq = r.transfer.recv := fastPathFirst_started fixed
      have lstInside := started.accounted.lstInside
      rw [(settled_fields b round r).1] at lstInside
      have branch := fastPathCount_cases (raced.knows.first seq) inside (by rw [same]; exact .inl lstInside) counting
      refine ⟨branch, ?_⟩
      rw [same] at branch
      have learned := branch.knows raced.knows
      have still : (r.counting seq counted flags).transfer.recv.isSeqFst = true := branch.frame.1.trans fixed
      exact (started.counting small idle running branch learned inside).raced learned still

/-- A counted packet finishes nothing. -/
theorem FastCase.untallied {seq : Nat} (branch : FastCase b (fastPathFirst r.transfer.recv seq) seq counted flags) :
    Untallied r (r.counting seq counted flags) := by
  obtain ⟨_, _, finished, _, fast, slow, _⟩ := fastPathFirst_frame r.transfer.recv seq
  have streams := branch.streams
  rw [fast, slow] at streams
  refine ⟨branch.frame.2.2.2.2.1.trans finished, streams.1, ?_, rfl, rfl⟩
  show counted.fdPatchP = none ↔ _
  rw [streams.2]

/-- The control channel after it counted a patch. -/
def Race.patching (r : Race) (index seq : Nat) (recv : RecverState) (counted : Bool) : Race :=
  { r with
    transfer := { r.transfer with
      recv := recv
      pending := r.transfer.pending.eraseIdx index
      slowLog := r.transfer.slowLog ++ [seq] }
    slowPending := counted }

/-- The requests of a counted packet stand behind the pending patches. -/
theorem settled_pending (b : Broadcast) (round : Nat) (r : Race) :
    ∃ more, (r.settled b round).pending = r.transfer.pending ++ more := by
  unfold Race.settled
  cases r.fastPending with
  | none => exact ⟨[], (List.append_nil _).symm⟩
  | some pending => exact ⟨_, rfl⟩

theorem patching_settled (r : Race) {index : Nat} (below : index < r.transfer.pending.length) (seq : Nat)
    (fst : recv.seqFst = r.transfer.recv.seqFst) (counted : Bool) :
    (r.patching index seq recv counted).settled b round = { r.settled b round with
      recv := recv
      pending := (r.settled b round).pending.eraseIdx index
      slowLog := (r.settled b round).slowLog ++ [seq] } := by
  unfold Race.settled Race.patching
  cases r.fastPending with
  | none => rfl
  | some pending =>
      unfold Transfer.request
      dsimp only
      rw [fst, List.eraseIdx_append_of_lt_length below]

/-- A pending patch is not packet zero while the fast path waits for packet zero as the last one. -/
theorem Accounted.pending_nonzero {t : Transfer} (accounted : Accounted b t) (unclosed : t.fastDoneSeen = false)
    (unwrapped : t.recv.seqLst + 1 ≠ t.recv.seqFst) (one : t.recv.seqFst = 1) {seq : Nat}
    (member : seq ∈ t.pending) : seq ≠ 0 := by
  rintro rfl
  have asked : 0 ∈ t.requested := accounted.delivered.mem_iff.mpr (List.mem_append_left _ member)
  have placed := accounted.covers.mem_iff.mp (List.mem_append_right _ asked)
  have reached := ((mem_window accounted.fstInside accounted.reach_le 0).mp placed).2
  have lstInside := accounted.lstInside
  rw [Transfer.reach, if_neg (by simp [unclosed]), one] at reached
  rw [one] at unwrapped
  unfold distance at reached
  split_ifs at reached <;> omega

/-- A counted patch keeps the accounting. -/
theorem RaceStarted.patching (started : RaceStarted b round r) (knows : Knows b r.transfer.recv) {index seq : Nat}
    {counted : Bool} (requested : r.transfer.pending[index]? = some seq)
    (branch : SlowCase b r.transfer.recv seq recv counted) :
    counted = true ∧ r.counted < b.seqMax ∧ (r.patching index seq recv counted).counted = r.counted + 1 ∧
      (r.patching index seq recv counted).fastDue = r.fastDue ∧
      RaceStarted b round (r.patching index seq recv counted) := by
  obtain ⟨same, fastLog, slowLog, seen⟩ := settled_fields b round r
  obtain ⟨more, prolonged⟩ := settled_pending b round r
  obtain ⟨below, _⟩ := List.getElem?_eq_some_iff.mp requested
  have placed : (r.settled b round).pending[index]? = some seq := by
    rw [prolonged, List.getElem?_append_left below]
    exact requested
  have member : seq ∈ (r.settled b round).pending := List.mem_of_getElem? placed
  have other : seq ≠ r.transfer.recv.seqFst := by
    rw [← same]
    exact started.accounted.pending_ne_first member
  obtain ⟨rfl, slow⟩ := branch.counts other
  obtain ⟨_, fst, lst, _, fast, fastpath, finished, zero⟩ := branch.frame
  have known : r.transfer.recv.seqFst = 0 → r.transfer.recv.isSeqZero = true := by
    intro first
    have arrived := started.accounted.first
    rw [same, fastLog, first] at arrived
    exact started.zero (List.mem_append_left _ arrived)
  have due : (r.patching index seq recv true).fastDue = r.fastDue := by
    apply @fastDue_congr r (r.patching index seq recv true) rfl fst
    intro first
    show recv.seqMax = r.transfer.recv.seqMax
    rw [(knows.learned (known first)).1, ((branch.knows knows).learned (zero (known first))).1]
  have short : r.counted < b.seqMax := by
    have total := started.accounted.total
    have bounded := started.accounted.reach_le
    have some := List.length_pos_of_mem member
    rw [same] at total
    unfold Race.counted
    omega
  have sum : (r.patching index seq recv true).counted = r.counted + 1 := by
    show recv.numFastRecvEd + recv.numSlowRecvEd = r.transfer.recv.numFastRecvEd + r.transfer.recv.numSlowRecvEd + 1
    omega
  refine ⟨rfl, short, sum, due, ?_, ?_, fun busy => ?_, ?_, ?_⟩
  · rw [patching_settled r below seq fst]
    exact started.accounted.deliver placed (by rw [same]; exact fst) (by rw [same]; exact lst)
      (by rw [same]; exact fast) (by rw [same]; exact slow)
  · intro arrived
    show recv.isSeqZero = true
    by_cases now : seq = 0
    · exact branch.zero other now
    · apply zero (started.zero ?_)
      have logged : 0 ∈ r.transfer.fastLog ++ (r.transfer.slowLog ++ [seq]) := arrived
      rw [← List.append_assoc] at logged
      rcases List.mem_append.mp logged with old | new
      · exact old
      · exact absurd (List.mem_singleton.mp new).symm now
  · obtain ⟨running, unclosed⟩ := started.busy busy
    exact ⟨fastpath.trans running, unclosed⟩
  · rintro ⟨running, idle⟩
    obtain ⟨unclosed, unwrapped, zeroFirst, oneFirst⟩ := started.live ⟨fastpath.symm.trans running, due.symm.trans idle⟩
    show r.transfer.fastDoneSeen = false ∧ recv.seqLst + 1 ≠ recv.seqFst ∧
      (recv.seqFst = 0 → recv.isSeqZero = true ∧ recv.seqLst + 1 < b.seqMax) ∧
      (recv.seqFst = 1 → recv.isSeqZero = false)
    rw [fst, lst]
    refine ⟨unclosed, unwrapped, fun first => ⟨zero (zeroFirst first).1, (zeroFirst first).2⟩, ?_⟩
    intro one
    have unknown := oneFirst one
    have nonzero : seq ≠ 0 := started.accounted.pending_nonzero (by rw [seen]; exact unclosed)
      (by rw [same]; exact unwrapped) (by rw [same]; exact one) member
    cases branch with
    | tail | inside => exact unknown
    | zeroLearns first | zeroAgain first => exact absurd first nonzero
  · intro closed
    have sum := started.finished (finished.symm.trans closed)
    omega

/-- The count of a patch keeps the accounting of an unfinished receiver. -/
theorem Raced.patching (raced : Raced b round r) {index seq : Nat} {counted : Bool}
    (requested : r.transfer.pending[index]? = some seq)
    (counting : patchDataCount r.transfer.recv (b.packet seq) = .ok (recv, counted)) :
    r.transfer.recv.isFinished = false ∧ Untallied r (r.patching index seq recv counted) ∧
      Raced b round (r.patching index seq recv counted) := by
  have active : r.transfer.recv.isSeqFst = true := by
    by_contra fresh
    rw [raced.fresh (by simpa using fresh)] at requested
    cases requested
  have started := raced.started active
  have branch := patchDataCount_cases raced.knows counting
  obtain ⟨rfl, short, _, _, kept⟩ := started.patching raced.knows requested branch
  obtain ⟨first, _, _, _, _, _, finished, _⟩ := branch.frame
  have streams := branch.streams
  have still : (r.patching index seq recv true).transfer.recv.isSeqFst = true := first.trans active
  refine ⟨?_, ⟨finished, ?_, streams.2, rfl, rfl⟩, kept.raced (branch.knows raced.knows) still⟩
  · by_contra closed
    have sum := started.finished (by simpa using closed)
    omega
  · show recv.fdP = none ↔ _
    rw [streams.1]

/-- The message closes the window of an idle data channel. -/
theorem Raced.fastDone (small : b.seqMax < seqnumMax) (raced : Raced b round r) (idle : r.fastPending = none)
    {transfer : Transfer} (taken : transferStep b round r.transfer .fastDone = .ok transfer) :
    Untallied r { r with transfer := transfer } ∧ Raced b round { r with transfer := transfer } := by
  cases fixed : r.transfer.recv.isSeqFst with
  | false =>
      have same : transfer = r.transfer := by
        rw [raced.fresh fixed] at taken ⊢
        exact (Except.ok.inj taken).symm
      rw [same]
      exact ⟨⟨rfl, Iff.rfl, Iff.rfl, rfl, rfl⟩, raced⟩
  | true =>
      have started := (raced.started fixed).toStarted idle
      obtain ⟨still, covered⟩ := started.fastDone small raced.knows fixed taken
      have closed := covered.started still
      obtain ⟨kept, running⟩ : Untallied r { r with transfer := transfer } ∧
          (transfer.recv.isFastpath = true → transfer = r.transfer) := by
        rcases transferStep_fastDone taken with rfl | ⟨_, unclosed, shape⟩
        · exact ⟨⟨rfl, Iff.rfl, Iff.rfl, rfl, rfl⟩, fun _ => rfl⟩
        · have moved : transfer.recv = (msgFastDone r.transfer.recv).1 := by rw [shape]; rfl
          have seen : transfer.fastDoneSeen = true := by rw [shape]; rfl
          have streams : transfer.recv.isFinished = r.transfer.recv.isFinished ∧
              transfer.recv.fdP = r.transfer.recv.fdP ∧ transfer.recv.fdPatchP = r.transfer.recv.fdPatchP := by
            rw [moved, msgFastDone_recv]
            split
            · exact ⟨rfl, rfl, rfl⟩
            · exact ⟨rfl, rfl, rfl⟩
          refine ⟨⟨streams.1, by rw [streams.2.1], by rw [streams.2.2], rfl, rfl⟩, fun active => ?_⟩
          exact absurd ((closed.running active).1.symm.trans seen) (by simp)
      refine ⟨kept, RaceStarted.raced ⟨?_, closed.zero, fun busy => ?_, ?_, closed.finished⟩ covered.knows still⟩
      · have quiet : Race.settled b round { r with transfer := transfer } = transfer := settled_idle idle
        rw [quiet]
        exact closed.toAccounted
      · rw [idle] at busy
        cases busy
      · rintro ⟨active, _⟩
        have same : transfer = r.transfer := running active
        rw [same] at active ⊢
        exact (raced.started fixed).live ⟨active, by rw [Race.fastDue, idle]; rfl⟩

theorem fresh_calm (b : Broadcast) (round : Nat) : Calm b round (Race.fresh b) :=
  ⟨⟨fresh_knows b, fun _ => rfl, fun started => by cases started⟩, ⟨fun _ => ⟨nofun, nofun, rfl, rfl⟩, nofun⟩, nofun⟩

theorem Calm.fastCount (small : b.seqMax < seqnumMax) (calm : Calm b round r) (seq : Fin b.seqMax) :
    Yields RaceFault.Once (raceStep b round r (.fastCount seq)) (Calm b round) := by
  rw [raceStep]
  split_ifs with blocked
  · exact calm
  have idle : r.fastPending = none := by
    by_contra busy
    exact blocked (.inl (Option.isSome_iff_ne_none.mpr busy))
  have running : r.transfer.recv.isFastpath = true := by
    by_contra stopped
    exact blocked (.inr (by simpa using stopped))
  cases counting : fastPathCount r.transfer.recv (b.packet seq) with
  | error assertion => exact calm.tally.once
  | ok outcome =>
      obtain ⟨counted, flags⟩ := outcome
      obtain ⟨branch, kept⟩ := calm.raced.counting small idle running seq counting
      have same := branch.untallied
      dsimp only
      split
      · exact calm.tally.once
      · exact ⟨kept, calm.tally.count same, fun finished => calm.tested (same.isFinished.symm.trans finished)⟩

theorem Calm.slowCount (calm : Calm b round r) (index : Nat) :
    Yields RaceFault.Once (raceStep b round r (.slowCount index)) (Calm b round) := by
  rw [raceStep]
  split_ifs with blocked
  · exact calm
  cases requested : r.transfer.pending[index]? with
  | none => exact calm
  | some seq =>
      dsimp only
      cases counting : patchDataCount r.transfer.recv (b.packet seq) with
      | error assertion => exact calm.tally.once
      | ok outcome =>
          obtain ⟨recv, counted⟩ := outcome
          obtain ⟨unfinished, same, kept⟩ := calm.raced.patching requested counting
          dsimp only
          split_ifs
          · exact calm.tally.once
          · refine ⟨kept, calm.tally.count same, fun finished => ?_⟩
            have before := same.isFinished.symm.trans finished
            rw [unfinished] at before
            cases before

theorem Calm.slowTest (calm : Calm b round r) :
    Yields RaceFault.Once (raceStep b round r .slowTest) (Calm b round) := by
  rw [raceStep]
  split_ifs with pending closed
  · -- The receiver is not finished while its last patch is not tested.
    have tested := calm.tested (calm.tally.closed closed.2)
    rw [pending] at tested
    cases tested
  · exact ⟨calm.raced.slowTested pending, calm.tally.slowTested closed, fun _ => rfl⟩
  · exact calm

/-- An uncontested test of the data channel finds no patch that is counted and not tested. -/
theorem Calm.fastTest (calm : Calm b round r)
    (quiet : ¬(RaceEvent.fastTest : RaceEvent b).contested r) :
    Yields RaceFault.Once (raceStep b round r .fastTest) (Calm b round) := by
  rw [raceStep]
  cases pending : r.fastPending with
  | none => exact calm
  | some packet =>
      obtain ⟨seq, seqFirst, flags⟩ := packet
      dsimp only
      split_ifs with closed stopped
      · exact calm.tally.once
      · -- Both streams are closed together, and the one of the data channel is open here.
        have all := stopped.1
        rw [fastPathLast_seqAll, Bool.and_eq_true_iff] at all
        exact absurd ⟨all.1, (calm.tally.finished (calm.tally.closed (.inr stopped.2))).1⟩ closed
      show Calm b round (r.fastTested b round seq seqFirst flags)
      have kept := calm.raced.fastTested pending
      cases all : (fastPathLast r.transfer.recv seq).2 with
      | false =>
          obtain ⟨tally, same⟩ := @Tally.fastTested_open b round r seq seqFirst flags calm.tally all
          exact ⟨kept, tally, fun finished => calm.tested (same.symm.trans finished)⟩
      | true =>
          have both := all
          rw [fastPathLast_seqAll, Bool.and_eq_true_iff] at both
          have streams : r.transfer.recv.fdP ≠ none := fun fast => closed ⟨both.1, fast⟩
          obtain ⟨finishes, allDones, shape⟩ :=
            @Tally.fastTested_closed b round r seq seqFirst flags calm.tally streams all
          have active := calm.raced.active (.inr (by rw [pending]; rfl))
          have whole : r.counted = b.seqMax := by
            have gotten := both.2
            rw [(calm.raced.started active).gotten calm.raced.knows] at gotten
            exact of_decide_eq_true gotten
          refine ⟨kept, ⟨fun unfinished => ?_, fun _ => ?_⟩, fun _ => ?_⟩
          · rw [shape] at unfinished
            cases unfinished
          · rw [shape]
            exact ⟨rfl, rfl, finishes, allDones⟩
          · show r.slowPending = false
            by_contra waiting
            exact quiet ⟨(fastDue_pending pending).trans both.1, by simpa using waiting, whole⟩

theorem Calm.fastDone (small : b.seqMax < seqnumMax) (calm : Calm b round r) :
    Yields RaceFault.Once (raceStep b round r .fastDone) (Calm b round) := by
  rw [raceStep]
  split_ifs with blocked
  · exact calm
  have idle : r.fastPending = none := by
    by_contra busy
    exact blocked (.inr (Option.isSome_iff_ne_none.mpr busy))
  cases taken : transferStep b round r.transfer .fastDone with
  | error assertion => exact calm.tally.once
  | ok transfer =>
      obtain ⟨same, kept⟩ := calm.raced.fastDone small idle taken
      exact ⟨kept, calm.tally.count same, fun finished => calm.tested (same.isFinished.symm.trans finished)⟩

/-- An uncontested step leaves a calm race or stops one that was finished at most once. -/
theorem Calm.step (small : b.seqMax < seqnumMax) (calm : Calm b round r) (event : RaceEvent b)
    (quiet : ¬event.contested r) : Yields RaceFault.Once (raceStep b round r event) (Calm b round) := by
  cases event with
  | fastCount seq => exact calm.fastCount small seq
  | fastTest => exact calm.fastTest quiet
  | slowCount index => exact calm.slowCount index
  | slowTest => exact calm.slowTest
  | fastDone => exact calm.fastDone small

/-- A contested test finishes the receiver and leaves the second test due. -/
theorem Calm.contested (calm : Calm b round r) (event : RaceEvent b) (contested : event.contested r) :
    Yields RaceFault.Twice (raceStep b round r event) Owed := by
  cases event with
  | fastCount | slowCount | slowTest | fastDone => cases contested
  | fastTest =>
      obtain ⟨due, waiting, whole⟩ := contested
      cases pending : r.fastPending with
      | none =>
          rw [Race.fastDue, pending] at due
          cases due
      | some packet =>
          obtain ⟨seq, seqFirst, flags⟩ := packet
          have unfinished : r.transfer.recv.isFinished = false := by
            by_contra finished
            have tested := calm.tested (by simpa using finished)
            rw [waiting] at tested
            cases tested
          have streams := calm.tally.unfinished unfinished
          have active := calm.raced.active (.inl waiting)
          have gotten : recverStateHasGottenAllData r.transfer.recv = true := by
            rw [(calm.raced.started active).gotten calm.raced.knows]
            exact decide_eq_true whole
          have all : (fastPathLast r.transfer.recv seq).2 = true := by
            rw [fastPathLast_seqAll, ← fastDue_pending pending, due, gotten]
            rfl
          obtain ⟨finishes, allDones, shape⟩ :=
            @Tally.fastTested_closed b round r seq seqFirst flags calm.tally streams.1 all
          rw [raceStep, pending]
          dsimp only
          rw [if_neg fun closed => streams.1 closed.2, if_neg fun closed => streams.2.1 closed.2]
          show Owed (r.fastTested b round seq seqFirst flags)
          refine ⟨?_, ?_, ?_, rfl, waiting, finishes, allDones⟩
          · rw [shape]
            exact gotten
          · rw [shape]
            rfl
          · rw [shape]
            rfl

/-- The only step left is the test of the control channel, which enters `recverState_finishRecv` again. -/
theorem Owed.step (owed : Owed r) (event : RaceEvent b) : Yields RaceFault.Twice (raceStep b round r event) Owed := by
  cases event with
  | fastCount seq =>
      rw [raceStep, if_pos (.inr owed.stopped)]
      exact owed
  | fastTest =>
      rw [raceStep, owed.idle]
      exact owed
  | slowCount index =>
      rw [raceStep, if_pos owed.pending]
      exact owed
  | slowTest =>
      rw [raceStep, if_pos owed.pending, if_pos ⟨owed.gotten, .inl owed.closed⟩]
      refine ⟨r.allDones, owed.allDones, ?_⟩
      rw [Race.stopEntered, owed.finishes]
  | fastDone =>
      rw [raceStep, if_pos (.inl owed.pending)]
      exact owed

end Steps

/-- The receiver is finished at most once and reports at most one `MSG_ALL_DONE` as long as the data channel
tests no complete count whose last patch the control channel has still to test. In a run with such a test
`recverState_finishRecv` is entered again by the control channel, and this second entry ends the agent. -/
theorem raceRun_finishesOnce (b : Broadcast) (small : b.seqMax < seqnumMax) (round : Nat)
    (events : List (RaceEvent b)) :
    (StepsMeet (raceStep b round) (fun r event => ¬event.contested r) (Race.fresh b) events →
      FinishedOnce (raceRun b round events)) ∧
    (TestsOver (raceRun b round events) →
      (FinishedOnce (raceRun b round events) ↔
        StepsMeet (raceStep b round) (fun r event => ¬event.contested r) (Race.fresh b) events) ∧
      (¬StepsMeet (raceStep b round) (fun r event => ¬event.contested r) (Race.fresh b) events →
        ∃ allDones ≤ 1, raceRun b round events = .error ⟨.streamOpen, 2, allDones⟩)) := by
  have once (quiet : StepsMeet (raceStep b round) (fun r event => ¬event.contested r) (Race.fresh b) events) :
      FinishedOnce (raceRun b round events) := by
    have outcome := Yields.execute_of_steps
      (fun r event (calm : Calm b round r) met => calm.step small event met) (fresh_calm b round) quiet
    unfold raceRun
    cases ended : execute (raceStep b round) (Race.fresh b) events with
    | error fault =>
        rw [ended] at outcome
        exact outcome
    | ok r =>
        rw [ended] at outcome
        exact Calm.tally outcome |>.once
  have twice (tested : TestsOver (raceRun b round events))
      (loud : ¬StepsMeet (raceStep b round) (fun r event => ¬event.contested r) (Race.fresh b) events) :
      ∃ allDones ≤ 1, raceRun b round events = .error ⟨.streamOpen, 2, allDones⟩ := by
    have outcome := (stepsMeet_or_yields
      (fun r event next (calm : Calm b round r) met taken => by
        have kept := calm.step small event met
        rw [taken] at kept
        exact kept)
      (fun r event calm met => calm.contested event (not_not.mp met)) (fun r event owed => owed.step event)
      (fresh_calm b round) events).resolve_left loud
    unfold raceRun at tested ⊢
    cases ended : execute (raceStep b round) (Race.fresh b) events with
    | error fault =>
        rw [ended] at outcome
        obtain ⟨allDones, few, rfl⟩ := outcome
        exact ⟨allDones, few, rfl⟩
    | ok r =>
        rw [ended] at outcome tested
        exact absurd (Owed.pending outcome) (by rw [show r.slowPending = false from tested]; simp)
  refine ⟨once, fun tested => ⟨⟨fun single => ?_, once⟩, twice tested⟩⟩
  by_contra loud
  obtain ⟨allDones, _, ended⟩ := twice tested loud
  rw [ended] at single
  have entries : 2 ≤ 1 := single.1
  omega

theorem raceRun_finishesOnce_threeBytes :
    ∃ r, raceRun threeBytes 0 [.fastCount ⟨0, by decide⟩, .fastTest, .fastCount ⟨2, by decide⟩, .fastTest,
        .slowCount 0, .slowTest] = .ok r ∧ r.finishes = 1 ∧ r.allDones = 1 ∧
      StepsMeet (raceStep threeBytes 0) (fun r event => ¬event.contested r) (Race.fresh threeBytes)
        [.fastCount ⟨0, by decide⟩, .fastTest, .fastCount ⟨2, by decide⟩, .fastTest, .slowCount 0, .slowTest] ∧
      FinishedOnce (raceRun threeBytes 0 [.fastCount ⟨0, by decide⟩, .fastTest, .fastCount ⟨2, by decide⟩, .fastTest,
        .slowCount 0, .slowTest]) := by
  obtain ⟨r, completed, checked⟩ := exists_of_check
    (raceRun threeBytes 0
      [.fastCount ⟨0, by decide⟩, .fastTest, .fastCount ⟨2, by decide⟩, .fastTest, .slowCount 0, .slowTest])
    (fun r => decide (r.slowPending = false ∧ r.finishes = 1 ∧ r.allDones = 1)) (by decide +kernel)
  obtain ⟨tested, finishes, allDones⟩ := of_decide_eq_true checked
  have once := raceRun_finishesOnce threeBytes (by decide) 0 [.fastCount ⟨0, by decide⟩, .fastTest,
    .fastCount ⟨2, by decide⟩, .fastTest, .slowCount 0, .slowTest]
  rw [completed] at once ⊢
  have quiet := (once.2 tested).1.mp ⟨finishes.le, allDones.le⟩
  exact ⟨r, rfl, finishes, allDones, quiet, once.1 quiet⟩

/-- The last packet on the fast path and the patch of packet one are both counted before either test. -/
theorem raceRun_finishesTwice :
    raceRun fourBytes 0 [.fastCount ⟨0, by decide⟩, .fastTest, .fastCount ⟨2, by decide⟩, .fastTest,
        .fastCount ⟨3, by decide⟩, .slowCount 0, .fastTest, .slowTest] = .error ⟨.streamOpen, 2, 1⟩ ∧
      ¬∀ (b : Broadcast) (events : List (RaceEvent b)), FinishedOnce (raceRun b 0 events) := by
  have twice : raceRun fourBytes 0 [.fastCount ⟨0, by decide⟩, .fastTest, .fastCount ⟨2, by decide⟩, .fastTest,
      .fastCount ⟨3, by decide⟩, .slowCount 0, .fastTest, .slowTest] = .error ⟨.streamOpen, 2, 1⟩ := by
    decide +kernel
  refine ⟨twice, fun once => ?_⟩
  have single := once fourBytes [.fastCount ⟨0, by decide⟩, .fastTest, .fastCount ⟨2, by decide⟩, .fastTest,
    .fastCount ⟨3, by decide⟩, .slowCount 0, .fastTest, .slowTest]
  rw [twice] at single
  exact absurd single.1 (by decide)

/-- In the other order of the two tests the data channel reads the position of a closed stream. -/
example : raceRun fourBytes 0 [.fastCount ⟨0, by decide⟩, .fastTest, .fastCount ⟨2, by decide⟩, .fastTest,
    .fastCount ⟨3, by decide⟩, .slowCount 0, .slowTest, .fastTest] = .error ⟨.streamOpen, 1, 1⟩ := by
  decide +kernel

end RepublicAgent
