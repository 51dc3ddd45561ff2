/-
This file models how the data channel thread sends the active multicast and marks it dead.
-/

import RepublicAgent.Sender.Multicast

namespace RepublicAgent
open MachineInteger

/-- The slots of the transmit ring. The card takes slots from the tail side. -/
structure TxRing where
  head : Nat
  tail : Nat
  numSlots : Nat
deriving DecidableEq, Repr

/-- The last slot that was filled. -/
def TxRing.lastSlot (ring : TxRing) : Nat :=
  if ring.head = 0 then u32 ((ring.numSlots : Int) - 1) else ring.head - 1

/-- These variables are shared by the functions of the thread. -/
structure PathRelease where
  needReleasePath : Bool
  amTxringHead : Nat
  amTxringTailLast : Nat
deriving DecidableEq, Repr

/-- The terminated transfer waits until the card has taken its last slot. -/
def PathRelease.await (ring : TxRing) : PathRelease := ⟨true, ring.lastSlot, ring.tail⟩

/-- A multicast without a byte sent is first sent at the attempt rate. -/
def startAttempt (multi : MulticastState) : MulticastState :=
  if multi.bcdState = .initiated ∧ multi.nPacketTotal = 0 ∧ multi.nByteTotal = 0 then
    { multicastStateUpdateRate multi with bcdState := .attempt }
  else multi

/-- The option `first_first_seq_fullrate` lets the first `FIRST_SEQ` start the full rate. -/
def startFullrate (firstFirstSeqFullrate : Bool) (multi : MulticastState) : MulticastState :=
  if multi.bcdState = .attempt ∧
      ((firstFirstSeqFullrate = true ∧ ((multi.isDistinctRack = true ∧ multi.isFirstSeqDistinctRack = true) ∨
          (multi.isDistinctRack = false ∧ multi.nFirstSeq ≠ 0))) ∨
        (firstFirstSeqFullrate = false ∧ multi.nInit = multi.nFirstSeq)) then
    { multicastStateUpdateRate multi with bcdState := .fullrate }
  else multi

/-- The known end of the transfer is reached for all receivers. -/
def MulticastState.EndReached (multi : MulticastState) : Prop :=
  multi.seqEnd ≤ multi.seqCur ∧ multi.nInit = multi.nFirstSeq

instance (multi : MulticastState) : Decidable multi.EndReached := inferInstanceAs (Decidable (_ ∧ _))

/-- The number of packets that the active multicast may send now. The rate allows `estimate` packets. -/
def amNPktQueued (firstFirstSeqFullrate : Bool) (multi : MulticastState) (release : PathRelease)
    (ring : TxRing) (estimate : Int) : MulticastState × PathRelease × Int :=
  if multi.bcdState = .dead then (multi, release, 0)
  else
    let multi := startFullrate firstFirstSeqFullrate (startAttempt multi)
    if multi.bcdState = .fullrate ∧ multi.EndReached then
      if multi.Terminated then (multi, release, 0)
      else ({ multi with isTvLastData := multi.isTvLastData ||| 0x14 }, .await ring, 0)
    else if multi.Terminated ∨ estimate < 0 then (multi, release, 0)
    else if multi.seqEnd = seqnumMax then (multi, release, estimate)
    else (multi, release, min estimate (s32 ((multi.seqEnd : Int) - multi.seqCur)))

/-- A packet has the headers, its data and, for packet zero, the metadata. -/
def MulticastState.packetBytes (multi : MulticastState) (seq : Nat) : Nat :=
  14 + 20 + 8 + 32 + (if seq + 1 = multi.seqMax then multi.bytePayloadMin else multi.bytePayload) +
    if seq = 0 then 72 else 0

/-- The largest end that is known so far has been sent. -/
def markPassed (multi : MulticastState) (release : PathRelease) (ring : TxRing) :
    MulticastState × PathRelease :=
  if multi.seqEndMax ≤ multi.seqCur then
    ({ multi with isTvLastData := multi.isTvLastData ||| 0x01 },
      { release with amTxringHead := ring.lastSlot, amTxringTailLast := ring.tail })
  else (multi, release)

/-- The end of the transfer has been sent. -/
def markEnded (multi : MulticastState) (release : PathRelease) (ring : TxRing) :
    MulticastState × PathRelease :=
  if multi.EndReached ∧ ¬ multi.Terminated then
    ({ multi with isTvLastData := multi.isTvLastData ||| 0x12 }, .await ring)
  else (multi, release)

/-- The counters of the packets and the bytes are signed. -/
def countSent (multi : MulticastState) (packets bytes : Int) : MulticastState :=
  let attempt := multi.bcdState = .attempt
  { multi with
    nByte := s64 (multi.nByte + bytes)
    nPacket := s32 (multi.nPacket + packets)
    nByteTotal := s64 (multi.nByteTotal + bytes)
    nPacketTotal := s32 (multi.nPacketTotal + packets)
    nByteAttempt := if attempt then s64 (multi.nByteAttempt + bytes) else multi.nByteAttempt
    nPacketAttempt := if attempt then s32 (multi.nPacketAttempt + packets) else multi.nPacketAttempt }

/-- The thread fills up to `maxPktnum` of the free slots with the next packets of the file. The ring is the
one behind the new packets. -/
def amProcessRings (multi : MulticastState) (release : PathRelease) (space maxPktnum : Int) (ring : TxRing) :
    Except Fault (MulticastState × PathRelease) :=
  let actual := min maxPktnum space
  let count := actual.toNat
  if 0 < count ∧ multi.fd = false then .error .badPointer
  else
    let bytes := ((List.range count).map fun index =>
      multi.packetBytes (u32 ((multi.seqCur : Int) + index) % multi.seqMax)).sum
    let passed := markPassed { multi with seqCur := u32 ((multi.seqCur : Int) + count) } release ring
    let ended := markEnded passed.1 passed.2 ring
    .ok (countSent ended.1 actual bytes, ended.2)

/-- The card has taken the last slot when the tail has moved past it since the last check. -/
def PathRelease.passed (release : PathRelease) (ring : TxRing) : Bool :=
  let distHt := if release.amTxringHead ≤ ring.tail then ring.tail - release.amTxringHead
    else u32 ((ring.tail : Int) + ring.numSlots - release.amTxringHead)
  let distTt := if ring.tail < release.amTxringTailLast then release.amTxringTailLast - ring.tail
    else u32 ((release.amTxringTailLast : Int) + ring.numSlots - ring.tail)
  u32 ((distHt : Int) + distTt) ≤ ring.numSlots

section Lemmas

variable {multi : MulticastState}

/-- A fresh initiated multicast starts its attempt. -/
theorem startAttempt_fresh (initiated : multi.bcdState = .initiated) (packets : multi.nPacketTotal = 0)
    (bytes : multi.nByteTotal = 0) : (startAttempt multi).bcdState = .attempt := by
  rw [startAttempt, if_pos ⟨initiated, packets, bytes⟩]

/-- The upgrade goes from the attempt rate to the full rate only. -/
theorem startFullrate_bcdState (multi : MulticastState) (option : Bool) :
    (startFullrate option multi).bcdState = multi.bcdState ∨
      multi.bcdState = .attempt ∧ (startFullrate option multi).bcdState = .fullrate := by
  unfold startFullrate
  split_ifs with upgrade
  · exact .inr ⟨upgrade.1, rfl⟩
  · exact .inl rfl

/-- The upgrades leave the marks of the last data. -/
theorem upgrade_isTvLastData (multi : MulticastState) (option : Bool) :
    (startFullrate option (startAttempt multi)).isTvLastData = multi.isTvLastData := by
  unfold startFullrate startAttempt
  split_ifs <;> rfl

/-- No upgrade kills a multicast. -/
theorem upgrade_ne_dead (option : Bool) (alive : multi.bcdState ≠ .dead) :
    (startFullrate option (startAttempt multi)).bcdState ≠ .dead := by
  have first : (startAttempt multi).bcdState ≠ .dead := by
    unfold startAttempt
    split_ifs
    · simp
    · exact alive
  rcases startFullrate_bcdState (startAttempt multi) option with same | ⟨_, full⟩
  · rw [same]
    exact first
  · rw [full]
    simp

/-- Set marks stay set. -/
theorem terminated_or {old bits : UInt8} (marked : old &&& 0x10 ≠ 0 ∨ bits &&& 0x10 ≠ 0) :
    (old ||| bits) &&& 0x10 ≠ 0 := by
  rw [or_and_mask, Ne, UInt8.or_eq_zero_iff]
  tauto

/-- The outcome of a call of `amNPktQueued` for a multicast that is not dead. The multicast is upgraded, and
a reached end terminates it. -/
structure Queued (option : Bool) (multi : MulticastState) (release : PathRelease)
    (outcome : MulticastState × PathRelease × Int) : Prop where
  state : outcome.1.bcdState = (startFullrate option (startAttempt multi)).bcdState
  terminated : multi.Terminated → outcome.1.Terminated ∧ outcome.2.1 = release ∧ outcome.2.2 = 0
  waits : outcome.2.1.needReleasePath = true → release.needReleasePath = true ∨ outcome.1.Terminated

theorem amNPktQueued_queued (option : Bool) (release : PathRelease) (ring : TxRing) (estimate : Int)
    (alive : multi.bcdState ≠ .dead) :
    Queued option multi release (amNPktQueued option multi release ring estimate) := by
  have marks := upgrade_isTvLastData multi option
  unfold amNPktQueued
  rw [if_neg alive]
  simp only [MulticastState.Terminated, marks]
  split_ifs with ended marked stopped unknown
  · exact ⟨rfl, fun _ => ⟨by rwa [MulticastState.Terminated, marks], rfl, rfl⟩, .inl⟩
  · refine ⟨rfl, fun terminated => absurd terminated marked, fun _ => .inr ?_⟩
    exact terminated_or (.inr (by decide))
  · refine ⟨rfl, fun terminated => ⟨by rwa [MulticastState.Terminated, marks], rfl, rfl⟩, .inl⟩
  · exact ⟨rfl, fun terminated => absurd (.inl terminated) stopped, .inl⟩
  · exact ⟨rfl, fun terminated => absurd (.inl terminated) stopped, .inl⟩

/-- What the change of the rate keeps is kept by both upgrades. -/
theorem upgrade_keeps {Field : Type} (field : MulticastState → Field)
    (kept : ∀ multi bcdState, field { multicastStateUpdateRate multi with bcdState := bcdState } = field multi)
    (multi : MulticastState) (option : Bool) :
    field (startFullrate option (startAttempt multi)) = field multi := by
  have first : field (startAttempt multi) = field multi := by
    unfold startAttempt
    split_ifs
    · exact kept multi .attempt
    · rfl
  unfold startFullrate
  split_ifs
  · exact (kept (startAttempt multi) .fullrate).trans first
  · exact first

/-- A call of `amNPktQueued` changes the rate and the marks of the last data. -/
theorem amNPktQueued_keeps {Field : Type} (field : MulticastState → Field)
    (rate : ∀ multi bcdState, field { multicastStateUpdateRate multi with bcdState := bcdState } = field multi)
    (marks : ∀ multi bits, field { multi with isTvLastData := bits } = field multi) (option : Bool)
    (multi : MulticastState) (release : PathRelease) (ring : TxRing) (estimate : Int) :
    field (amNPktQueued option multi release ring estimate).1 = field multi := by
  have kept := upgrade_keeps field rate multi option
  unfold amNPktQueued
  simp only
  split_ifs
  · rfl
  · exact kept
  · exact (marks _ _).trans kept
  all_goals exact kept

/-- A call of `amNPktQueued` gives a terminated transfer no packets, and it terminates the transfer at its end. -/
theorem amNPktQueued_ends (option : Bool) (multi : MulticastState) (release : PathRelease) (ring : TxRing)
    (estimate : Int) :
    ((amNPktQueued option multi release ring estimate).1.Terminated →
      (amNPktQueued option multi release ring estimate).2.2 ≤ 0) ∧
    ((amNPktQueued option multi release ring estimate).2.1.needReleasePath = true →
      release.needReleasePath = true ∨ (amNPktQueued option multi release ring estimate).1.EndReached) := by
  have marks := upgrade_isTvLastData multi option
  unfold amNPktQueued
  simp only
  split_ifs with dead ended marked stopped unknown
  · exact ⟨fun _ => le_rfl, .inl⟩
  · exact ⟨fun _ => le_rfl, .inl⟩
  · exact ⟨fun _ => le_rfl, fun _ => .inr ended.2⟩
  · exact ⟨fun _ => le_rfl, .inl⟩
  · exact ⟨fun terminated => absurd (.inl terminated) stopped, .inl⟩
  · exact ⟨fun terminated => absurd (.inl terminated) stopped, .inl⟩

/-- The outcome of a call of `amProcessRings`. The state of the transfer stays. -/
structure Processed (multi : MulticastState) (release : PathRelease) (outcome : MulticastState × PathRelease) :
    Prop where
  state : outcome.1.bcdState = multi.bcdState
  terminated : multi.Terminated → outcome.1.Terminated
  waits : outcome.2.needReleasePath = true → release.needReleasePath = true ∨ outcome.1.Terminated

theorem markPassed_processed (multi : MulticastState) (release : PathRelease) (ring : TxRing) :
    Processed multi release (markPassed multi release ring) := by
  unfold markPassed
  split_ifs
  · exact ⟨rfl, fun terminated => terminated_or (.inl terminated), .inl⟩
  · exact ⟨rfl, id, .inl⟩

theorem markEnded_processed (multi : MulticastState) (release : PathRelease) (ring : TxRing) :
    Processed multi release (markEnded multi release ring) := by
  unfold markEnded
  split_ifs
  · exact ⟨rfl, fun _ => terminated_or (.inr (by decide)), fun _ => .inr (terminated_or (.inr (by decide)))⟩
  · exact ⟨rfl, id, .inl⟩

theorem amProcessRings_processed {release : PathRelease} {space maxPktnum : Int} {ring : TxRing}
    {outcome : MulticastState × PathRelease}
    (taken : amProcessRings multi release space maxPktnum ring = .ok outcome) :
    Processed multi release outcome := by
  unfold amProcessRings at taken
  simp only at taken
  split_ifs at taken with closed
  obtain rfl := Except.ok.inj taken
  have passed := markPassed_processed
    { multi with seqCur := u32 ((multi.seqCur : Int) + (min maxPktnum space).toNat) } release ring
  have ended := markEnded_processed
    (markPassed { multi with seqCur := u32 ((multi.seqCur : Int) + (min maxPktnum space).toNat) } release ring).1
    (markPassed { multi with seqCur := u32 ((multi.seqCur : Int) + (min maxPktnum space).toNat) } release ring).2
    ring
  constructor
  · exact ended.state.trans passed.state
  · intro terminated
    exact ended.terminated (passed.terminated terminated)
  · intro waiting
    rcases ended.waits waiting with before | terminated
    · exact (passed.waits before).imp_right ended.terminated
    · exact .inr terminated

/-- A burst changes the marks, the next packet and the counters of the packets. -/
theorem amProcessRings_keeps {Field : Type} (field : MulticastState → Field)
    (marks : ∀ multi bits, field { multi with isTvLastData := bits } = field multi)
    (sent : ∀ multi seqCur, field { multi with seqCur := seqCur } = field multi)
    (counted : ∀ multi packets bytes, field (countSent multi packets bytes) = field multi)
    {release : PathRelease} {space maxPktnum : Int} {ring : TxRing} {outcome : MulticastState × PathRelease}
    (taken : amProcessRings multi release space maxPktnum ring = .ok outcome) :
    field outcome.1 = field multi := by
  unfold amProcessRings at taken
  simp only at taken
  split_ifs at taken
  obtain rfl := Except.ok.inj taken
  refine (counted _ _ _).trans ?_
  unfold markEnded markPassed
  split_ifs
  · exact (marks _ _).trans ((marks _ _).trans (sent _ _))
  · exact (marks _ _).trans (sent _ _)
  · exact (marks _ _).trans (sent _ _)
  · exact sent _ _

/-- The mark of the passed end is not the mark of a terminated transfer. -/
theorem terminated_or_passed {marks : UInt8} (terminated : (marks ||| 0x01) &&& 0x10 ≠ 0) :
    marks &&& 0x10 ≠ 0 := by
  have clear : (0x01 : UInt8) &&& 0x10 = 0 := by decide
  rwa [or_and_mask, clear, UInt8.or_zero] at terminated

/-- A burst counts its packets. It asks for the release of the path only when it reaches the end of the
transfer. -/
theorem amProcessRings_sent {release : PathRelease} {space maxPktnum : Int} {ring : TxRing}
    {outcome : MulticastState × PathRelease}
    (taken : amProcessRings multi release space maxPktnum ring = .ok outcome) :
    outcome.1.seqCur = u32 ((multi.seqCur : Int) + (min maxPktnum space).toNat) ∧
      outcome.1.nPacketTotal = s32 (multi.nPacketTotal + min maxPktnum space) ∧
      (outcome.1.EndReached ∨ outcome.2.needReleasePath = release.needReleasePath ∧
        (outcome.1.Terminated → multi.Terminated)) := by
  unfold amProcessRings at taken
  simp only at taken
  split_ifs at taken
  obtain rfl := Except.ok.inj taken
  unfold markEnded markPassed
  split_ifs with passed ended ended
  · exact ⟨rfl, rfl, .inl ended.1⟩
  · exact ⟨rfl, rfl, .inr ⟨rfl, terminated_or_passed⟩⟩
  · exact ⟨rfl, rfl, .inl ended.1⟩
  · exact ⟨rfl, rfl, .inr ⟨rfl, id⟩⟩

/-- Packets are read from an open file only. -/
theorem amProcessRings_open (release : PathRelease) (space maxPktnum : Int) (ring : TxRing)
    (opened : multi.fd = true) : ∃ outcome, amProcessRings multi release space maxPktnum ring = .ok outcome := by
  unfold amProcessRings
  simp [opened]

end Lemmas

end RepublicAgent
