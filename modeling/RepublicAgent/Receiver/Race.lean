/-
This file interleaves the counting and the completion tests of the two channels of a receiver.
-/

import RepublicAgent.Receiver.Faithful

namespace RepublicAgent
open CyclicWindow Execution MachineInteger

/-- Each channel counts a packet in one step and handles its end in a later one. The counters `finishes` and
`allDones` tell how often `recverState_finishRecv` was entered and how many messages lead to
`MSG_ALL_DONE`. -/
structure Race where
  transfer : Transfer
  fastPending : Option (Nat × Bool × PacketFlags)
  slowPending : Bool
  finishes : Nat
  allDones : Nat
deriving DecidableEq, Repr

inductive RaceEvent (b : Broadcast) where
  | fastCount (seq : Fin b.seqMax)
  | fastTest
  | slowCount (index : Nat)
  | slowTest
  | fastDone

def Race.fresh (b : Broadcast) : Race := ⟨Transfer.fresh b, none, false, 0, 0⟩

/-- A race that stops keeps its counters. -/
structure RaceFault where
  assertion : Assertion
  finishes : Nat
  allDones : Nat
deriving DecidableEq, Repr

def Race.stop (r : Race) (assertion : Assertion) : RaceFault := ⟨assertion, r.finishes, r.allDones⟩

/-- The first call of `recverState_finishRecv` on a null stream ends the agent behind the entry. -/
def Race.stopEntered (r : Race) : RaceFault := ⟨.streamOpen, r.finishes + 1, r.allDones⟩

/-- The reports that lead to a `MSG_ALL_DONE`. -/
def seqAlls (msgs : List N2cMsg) : Nat :=
  msgs.countP fun msg => match msg with
    | .seqAll _ => true
    | _ => false

/-- The messages of one kind among the messages of a packet. -/
theorem n2cMessages_countP (kind : N2cMsg → Bool) (recv : RecverState) (seqNum : Nat) (seqFirst seqAll : Bool)
    (flags : PacketFlags) (other : ∀ pt, kind (.seqJump recv.bcdId pt) = false) :
    (n2cMessages recv seqNum seqFirst seqAll flags).countP kind =
      (seqFirst && kind (.seqFirst recv.bcdId seqNum)).toNat +
        (decide (flags.seqZero = true ∧ 1 < recv.seqMax) && kind (.seqZero recv.bcdId)).toNat +
        (decide (seqAll = true ∧ 1 < recv.seqMax) && kind (.seqAll recv.bcdId)).toNat := by
  have sent (holds : Prop) [Decidable holds] (msg : N2cMsg) :
      (if holds then [msg] else []).countP kind = (decide holds && kind msg).toNat := by
    split_ifs with given
    · cases met : kind msg <;> simp [given, met]
    · simp [given]
  rw [n2cMessages, List.countP_append, List.countP_append, List.countP_append, sent, sent, sent,
    Bool.decide_eq_true]
  cases flags.pt with
  | none => rfl
  | some pt =>
      dsimp only
      rw [sent, other, Bool.and_false, Bool.toNat_false, Nat.add_zero]

/-- A packet reports at most one complete broadcast. -/
theorem seqAlls_n2cMessages (recv : RecverState) (seqNum : Nat) (seqFirst seqAll : Bool) (flags : PacketFlags) :
    seqAlls (n2cMessages recv seqNum seqFirst seqAll flags) = (seqAll && decide (1 < recv.seqMax)).toNat := by
  rw [seqAlls, n2cMessages_countP _ _ _ _ _ _ fun _ => rfl]
  simp

/-- The data channel finishes the receiver with the last optical packet of a complete count. -/
theorem fastPathLast_seqAll (recv : RecverState) (seqNum : Nat) :
    (fastPathLast recv seqNum).2 = (isLastOptical recv seqNum && recverStateHasGottenAllData recv) := by
  have stopped : recverStateHasGottenAllData (fastPathStop recv) = recverStateHasGottenAllData recv := rfl
  unfold fastPathLast fastPathTest
  rw [stopped]
  cases isLastOptical recv seqNum <;> cases recverStateHasGottenAllData recv <;> rfl

/-- A channel starts its next packet or message after the end of the last one. The handler of
`MSG_FAST_DONE` waits for the data channel. Every call on a null stream ends the agent. -/
def raceStep (b : Broadcast) (round : Nat) (r : Race) : RaceEvent b → Except RaceFault Race
  | .fastCount seq =>
      if r.fastPending.isSome ∨ r.transfer.recv.isFastpath = false then .ok r
      else match fastPathCount r.transfer.recv (b.packet seq) with
        | .error assertion => .error (r.stop assertion)
        | .ok (recv, flags) =>
            if r.transfer.recv.fdP = none ∧ r.transfer.recv.numFastRecvEd < recv.numFastRecvEd then
              .error (r.stop .streamOpen)
            else
              let fastLog := if r.transfer.recv.numFastRecvEd < recv.numFastRecvEd
                then r.transfer.fastLog ++ [seq.val] else r.transfer.fastLog
              .ok { r with
                transfer := { r.transfer with recv := recv, fastLog := fastLog }
                fastPending := some (seq, !r.transfer.recv.isSeqFst, flags) }
  | .fastTest =>
      match r.fastPending with
      | none => .ok r
      | some (seq, seqFirst, flags) =>
          -- The jump position is read with `ftell` before the test.
          if isLastOptical r.transfer.recv seq = true ∧ r.transfer.recv.fdP = none then
            .error (r.stop .streamOpen)
          else
            let (recv, seqAll) := fastPathLast r.transfer.recv seq
            if seqAll = true ∧ r.transfer.recv.fdPatchP = none then .error r.stopEntered
            else
              let msgs := n2cMessages recv seq seqFirst seqAll flags
              .ok { r with
                transfer := ({ r.transfer with recv := recv } : Transfer).request b round (jumpTuples msgs)
                fastPending := none
                finishes := r.finishes + seqAll.toNat
                allDones := r.allDones + seqAlls msgs }
  | .slowCount index =>
      if r.slowPending then .ok r
      else match r.transfer.pending[index]? with
        | none => .ok r
        | some seq =>
            match patchDataCount r.transfer.recv (b.packet seq) with
            | .error assertion => .error (r.stop assertion)
            | .ok (recv, counted) =>
                if r.transfer.recv.fdPatchP = none ∧ counted = true then .error (r.stop .streamOpen)
                else .ok { r with
                  transfer := { r.transfer with
                    recv := recv
                    pending := r.transfer.pending.eraseIdx index
                    slowLog := r.transfer.slowLog ++ [seq] }
                  slowPending := counted }
  | .slowTest =>
      if r.slowPending then
        if recverStateHasGottenAllData r.transfer.recv = true ∧
            (r.transfer.recv.fdP = none ∨ r.transfer.recv.fdPatchP = none) then .error r.stopEntered
        else
          let (recv, output) := patchDataTest r.transfer.recv
          .ok { r with
            transfer := { r.transfer with recv := recv }
            slowPending := false
            finishes := r.finishes + (recverStateHasGottenAllData r.transfer.recv).toNat
            allDones := r.allDones + output.toMaster.length }
      else .ok r
  | .fastDone =>
      if r.slowPending ∨ r.fastPending.isSome then .ok r
      else match transferStep b round r.transfer .fastDone with
        | .error assertion => .error (r.stop assertion)
        | .ok transfer => .ok { r with transfer := transfer }

def raceRun (b : Broadcast) (round : Nat) (events : List (RaceEvent b)) : Except RaceFault Race :=
  execute (raceStep b round) (Race.fresh b) events

/-- The data channel has still to test for completion when its packet is the last optical one. -/
def Race.fastDue (r : Race) : Bool :=
  r.fastPending.any fun pending => isLastOptical r.transfer.recv pending.1

/-- The number of packets that both channels have counted. -/
def Race.counted (r : Race) : Nat := r.transfer.recv.numFastRecvEd + r.transfer.recv.numSlowRecvEd

/-- A step is contested when the data channel tests a complete count while the control channel has still to
test it. -/
def RaceEvent.contested {b : Broadcast} (r : Race) : RaceEvent b → Prop
  | .fastTest => r.fastDue = true ∧ r.slowPending = true ∧ r.counted = b.seqMax
  | _ => False

/-- The receiver was finished at most once, and it reported that at most once. -/
def FinishedOnce : Except RaceFault Race → Prop
  | .ok r => r.finishes ≤ 1 ∧ r.allDones ≤ 1
  | .error fault => fault.finishes ≤ 1 ∧ fault.allDones ≤ 1

/-- The control channel has tested the last patch that it counted, or the agent has ended. -/
def TestsOver : Except RaceFault Race → Prop
  | .ok r => r.slowPending = false
  | .error _ => True

/-- The transfer after the requests of the packet that the data channel has counted. -/
def Race.settled (b : Broadcast) (round : Nat) (r : Race) : Transfer :=
  match r.fastPending with
  | none => r.transfer
  | some (_, _, flags) => r.transfer.request b round (if flags.seqJump then flags.pt.toList else [])

/-- The fast path accepts further packets. -/
def Race.live (r : Race) : Prop := r.transfer.recv.isFastpath = true ∧ r.fastDue = false

/-- The accounting of a transfer holds between the steps of the two channels. -/
structure RaceStarted (b : Broadcast) (round : Nat) (r : Race) : Prop where
  accounted : Accounted b (r.settled b round)
  zero : 0 ∈ r.transfer.fastLog ++ r.transfer.slowLog → r.transfer.recv.isSeqZero = true
  busy : r.fastPending.isSome = true → r.transfer.recv.isFastpath = true ∧ r.transfer.fastDoneSeen = false
  live : r.live → r.transfer.fastDoneSeen = false ∧
    r.transfer.recv.seqLst + 1 ≠ r.transfer.recv.seqFst ∧
    (r.transfer.recv.seqFst = 0 → r.transfer.recv.isSeqZero = true ∧ r.transfer.recv.seqLst + 1 < b.seqMax) ∧
    (r.transfer.recv.seqFst = 1 → r.transfer.recv.isSeqZero = false)
  finished : r.transfer.recv.isFinished = true → r.counted = b.seqMax

/-- A race is fresh up to its first packet. -/
structure Raced (b : Broadcast) (round : Nat) (r : Race) : Prop where
  knows : Knows b r.transfer.recv
  fresh : r.transfer.recv.isSeqFst = false → r = Race.fresh b
  started : r.transfer.recv.isSeqFst = true → RaceStarted b round r

section Invariant

variable {b : Broadcast} {round : Nat} {r next : Race}

theorem settled_idle (idle : r.fastPending = none) : r.settled b round = r.transfer := by
  rw [Race.settled, idle]

/-- The requests of a counted packet concern the patches only. -/
theorem settled_fields (b : Broadcast) (round : Nat) (r : Race) :
    (r.settled b round).recv = r.transfer.recv ∧ (r.settled b round).fastLog = r.transfer.fastLog ∧
      (r.settled b round).slowLog = r.transfer.slowLog ∧
      (r.settled b round).fastDoneSeen = r.transfer.fastDoneSeen := by
  unfold Race.settled
  cases r.fastPending with
  | none => exact ⟨rfl, rfl, rfl, rfl⟩
  | some pending => exact ⟨rfl, rfl, rfl, rfl⟩

/-- The open round of a live fast path misses a packet. -/
theorem RaceStarted.open_lt (started : RaceStarted b round r) (live : r.live) :
    r.counted < b.seqMax := by
  obtain ⟨unclosed, unwrapped, zeroFirst, _⟩ := started.live live
  obtain ⟨recv, _, _, seen⟩ := settled_fields b round r
  have total := started.accounted.total
  have fstInside := started.accounted.fstInside
  have lstInside := started.accounted.lstInside
  rw [Transfer.reach, if_neg (by simp [seen, unclosed])] at total
  rw [recv] at total fstInside lstInside
  have low := fun first => (zeroFirst first).2
  unfold distance at total
  unfold Race.counted
  split_ifs at total <;> omega

/-- A complete count comes with the metadata. -/
theorem RaceStarted.complete (started : RaceStarted b round r) (sum : r.counted = b.seqMax) :
    r.transfer.recv.isSeqZero = true := by
  obtain ⟨recv, fast, slow, _⟩ := settled_fields b round r
  have all := started.accounted.complete (by rw [recv]; exact sum) 0 b.seqMax_pos
  rw [fast, slow] at all
  exact started.zero all

/-- The completion test says whether the count is complete. -/
theorem RaceStarted.gotten (started : RaceStarted b round r) (knows : Knows b r.transfer.recv) :
    recverStateHasGottenAllData r.transfer.recv = decide (r.counted = b.seqMax) := by
  obtain ⟨recv, _⟩ := settled_fields b round r
  cases whole : recverStateHasGottenAllData r.transfer.recv with
  | true =>
      have sum := started.accounted.gotten (by rw [recv]; exact knows) (by rw [recv]; exact whole)
      rw [recv] at sum
      exact (decide_eq_true sum).symm
  | false =>
      symm
      rw [decide_eq_false_iff_not]
      intro sum
      have count := (knows.learned (started.complete sum)).1
      have short : ¬r.counted = r.transfer.recv.seqMax := of_decide_eq_false whole
      omega

/-- An idle data channel leaves a started transfer. -/
theorem RaceStarted.toStarted (started : RaceStarted b round r) (idle : r.fastPending = none) :
    Started b r.transfer := by
  have accounted := started.accounted
  rw [settled_idle idle] at accounted
  refine ⟨accounted, ?_, started.zero, started.finished⟩
  intro running
  have live : r.live := ⟨running, by rw [Race.fastDue, idle]; rfl⟩
  obtain ⟨unclosed, unwrapped, zeroFirst, _⟩ := started.live live
  refine ⟨unclosed, ?_, unwrapped, zeroFirst⟩
  by_contra closed
  have sum := started.finished (by simpa using closed)
  have short := started.open_lt live
  omega

/-- The requests of a counted packet follow a change of the receiver that keeps the first packet. -/
theorem settled_recv (r : Race) {recv : RecverState} (fst : recv.seqFst = r.transfer.recv.seqFst)
    (slowPending : Bool) (finishes allDones : Nat) :
    Race.settled b round { r with
      transfer := { r.transfer with recv := recv }
      slowPending := slowPending
      finishes := finishes
      allDones := allDones } = { r.settled b round with recv := recv } := by
  unfold Race.settled
  cases r.fastPending with
  | none => rfl
  | some pending =>
      unfold Transfer.request
      dsimp only
      rw [fst]

/-- The last optical packet is the same for a receiver that keeps the first packet and the packet count. -/
theorem isLastOptical_congr {recv other : RecverState} {seq : Nat} (fst : other.seqFst = recv.seqFst)
    (count : recv.seqFst = 0 → other.seqMax = recv.seqMax) : isLastOptical other seq = isLastOptical recv seq := by
  unfold isLastOptical
  rw [fst, decide_eq_decide]
  by_cases zero : recv.seqFst = 0
  · rw [count zero]
  · simp [zero]

theorem fastDue_congr {r next : Race} (pending : next.fastPending = r.fastPending)
    (fst : next.transfer.recv.seqFst = r.transfer.recv.seqFst)
    (count : r.transfer.recv.seqFst = 0 → next.transfer.recv.seqMax = r.transfer.recv.seqMax) :
    next.fastDue = r.fastDue := by
  unfold Race.fastDue
  rw [pending]
  cases r.fastPending with
  | none => rfl
  | some packet => exact isLastOptical_congr fst count

end Invariant

end RepublicAgent
