/-
This file models the state of a multicast in `hero.c` and the functions that change it.
-/

import RepublicAgent.Library.MachineInteger
import RepublicAgent.Message.Types

namespace RepublicAgent
open MachineInteger

/-- A time has signed seconds and microseconds. -/
abbrev Timeval : Type := Int × Int

/-- The macro `timercmp` with the operator `<`. -/
def timerLess (first second : Timeval) : Bool :=
  if first.1 = second.1 then first.2 < second.2 else first.1 < second.1

/-- The transfer of a multicast goes through these states. -/
inductive BcdState where
  | dead
  | initiated
  | attempt
  | fullrate
deriving DecidableEq, Repr

/-- The sender keeps one state for each receiver of a push, by the address of the receiver. -/
structure SenderState where
  seqFirst : Nat
  seqEnd : Nat
  isDistinctRack : Bool
deriving DecidableEq, Repr

/-- The files are open or closed. The bits of `isTvLastData` mark the last data of the transfer. -/
structure MulticastState where
  seqMax : Nat
  bytePayload : Nat
  bytePayloadMin : Nat
  fd : Bool
  fdPatch : Bool
  bcdState : BcdState
  senderAddrHash : Nat → Option SenderState
  nInit : Nat
  nFirstSeq : Nat
  isFirstSeqDistinctRack : Bool
  isDistinctRack : Bool
  isTvLastData : UInt8
  seqEnd : Nat
  seqEndMax : Nat
  seqCur : Nat
  nByte : Int
  nPacket : Int
  nByteTotal : Int
  nPacketTotal : Int
  nByteAttempt : Int
  nPacketAttempt : Int
  tvPush : Timeval
  controllerXid : Int32
  isPathReleased : Bool
  deleteCounter : Nat

/-- The bit `0x10` of `isTvLastData` marks a terminated transfer. -/
def MulticastState.Terminated (multi : MulticastState) : Prop := multi.isTvLastData &&& 0x10 ≠ 0

instance (multi : MulticastState) : Decidable multi.Terminated := inferInstanceAs (Decidable (_ ≠ _))

/-- A new push resets the counters of the rate. The totals and the marks of the last data stay. -/
def multicastStateReset (multi : MulticastState) : MulticastState :=
  if multi.bcdState = .dead then
    { multi with seqEnd := seqnumMax, seqEndMax := 0, nByte := 0, nPacket := 0 }
  else { multi with seqEnd := seqnumMax }

/-- The state is cleared before its fields are set. A file of no bytes gives no state. -/
def createBcdState (dataSize dataPayloadLen : Nat) : Option MulticastState :=
  if dataSize = 0 then none
  else
    let whole := u32 (dataSize / dataPayloadLen : Nat)
    let rest := u32 (dataSize % dataPayloadLen : Nat)
    some (multicastStateReset {
      seqMax := if rest = 0 then whole else u32 ((whole : Int) + 1)
      bytePayload := dataPayloadLen
      bytePayloadMin := if rest = 0 then dataPayloadLen else rest
      fd := true
      fdPatch := true
      bcdState := .dead
      senderAddrHash := fun _ => none
      nInit := 0
      nFirstSeq := 0
      isFirstSeqDistinctRack := false
      isDistinctRack := false
      isTvLastData := 0
      seqEnd := 0
      seqEndMax := 0
      seqCur := 0
      nByte := 0
      nPacket := 0
      nByteTotal := 0
      nPacketTotal := 0
      nByteAttempt := 0
      nPacketAttempt := 0
      tvPush := (0, 0)
      controllerXid := 0
      isPathReleased := false
      deleteCounter := 0 })

def multicastStateUpdateRate (multi : MulticastState) : MulticastState :=
  { multi with nByte := 0, nPacket := 0 }

/-- A receiver of a push has an address and may stand in another rack. -/
structure Slave where
  addr : Nat
  isDistinctRack : Bool
deriving DecidableEq, Repr

/-- A push creates a sender state for each of its receivers. An older state of the address is replaced. -/
def createSenderState (multi : MulticastState) (slave : Slave) : MulticastState :=
  { multi with
    nInit := u16 ((multi.nInit : Int) + 1)
    senderAddrHash := Function.update multi.senderAddrHash slave.addr (some ⟨0, 0, slave.isDistinctRack⟩)
    isDistinctRack := multi.isDistinctRack || slave.isDistinctRack }

/-- What each new sender state keeps is kept by all of them. -/
theorem createSenderStates_keep {Field : Type} (field : MulticastState → Field)
    (created : ∀ multi slave, field (createSenderState multi slave) = field multi) (multi : MulticastState)
    (slaves : List Slave) : field (slaves.foldl createSenderState multi) = field multi := by
  induction slaves generalizing multi with
  | nil => rfl
  | cons slave slaves ih => exact (ih (createSenderState multi slave)).trans (created multi slave)

/-- What the reset and each new sender state keep is kept by a whole push. -/
theorem pushed_keeps {Field : Type} (field : MulticastState → Field)
    (reset : ∀ multi, field (multicastStateReset multi) = field multi)
    (created : ∀ multi slave, field (createSenderState multi slave) = field multi) (multi : MulticastState)
    (slaves : List Slave) :
    field (slaves.foldl createSenderState (multicastStateReset multi)) = field multi :=
  (createSenderStates_keep field created (multicastStateReset multi) slaves).trans (reset multi)

/-- The new sender states are counted in 16 bits. -/
theorem createSenderStates_count (multi : MulticastState) (slaves : List Slave) (fits : multi.nInit < 65536) :
    (slaves.foldl createSenderState multi).nInit = (multi.nInit + slaves.length) % 65536 := by
  induction slaves generalizing multi with
  | nil => exact (Nat.mod_eq_of_lt fits).symm
  | cons slave slaves ih =>
      have counted : (createSenderState multi slave).nInit = (multi.nInit + 1) % 65536 := by
        have next : u16 ((multi.nInit : Int) + 1) = (multi.nInit + 1) % 65536 := by
          rw [u16_eq]
          omega
        exact next
      rw [List.foldl_cons, ih _ (by omega), counted, List.length_cons]
      omega

/-- The new sender states are counted. -/
theorem createSenderStates_nInit (multi : MulticastState) (slaves : List Slave)
    (few : multi.nInit + slaves.length < 65536) :
    (slaves.foldl createSenderState multi).nInit = multi.nInit + slaves.length := by
  rw [createSenderStates_count multi slaves (by omega), Nat.mod_eq_of_lt few]

/-- A sender state was created for one of the receivers, or it was there before. -/
theorem createSenderStates_found (multi : MulticastState) (slaves : List Slave) {addr : Nat}
    {state : SenderState} (found : (slaves.foldl createSenderState multi).senderAddrHash addr = some state) :
    (∃ slave ∈ slaves, slave.addr = addr ∧ state = ⟨0, 0, slave.isDistinctRack⟩) ∨
      multi.senderAddrHash addr = some state := by
  induction slaves generalizing multi with
  | nil => exact .inr found
  | cons slave slaves ih =>
      rcases ih (createSenderState multi slave) found with ⟨other, member, created⟩ | before
      · exact .inl ⟨other, List.mem_cons_of_mem _ member, created⟩
      · by_cases same : addr = slave.addr
        · subst same
          have created := (Function.update_self ..).symm.trans before
          exact .inl ⟨slave, List.mem_cons_self, rfl, (Option.some.inj created).symm⟩
        · exact .inr ((Function.update_of_ne same ..).symm.trans before)

/-- The receivers of a push have a sender state behind it. -/
theorem createSenderStates_known (multi : MulticastState) (slaves : List Slave) (addr : Nat) :
    (slaves.foldl createSenderState multi).senderAddrHash addr ≠ none ↔
      addr ∈ slaves.map Slave.addr ∨ multi.senderAddrHash addr ≠ none := by
  induction slaves generalizing multi with
  | nil => simp
  | cons slave slaves ih =>
      rw [List.foldl_cons, ih, List.map_cons, List.mem_cons]
      by_cases same : addr = slave.addr
      · simp [same, createSenderState]
      · simp [same, createSenderState]

/-- A push to a receiver in another rack comes from such a receiver. -/
theorem createSenderStates_isDistinctRack (multi : MulticastState) (slaves : List Slave)
    (distinct : (slaves.foldl createSenderState multi).isDistinctRack = true) :
    (∃ slave ∈ slaves, slave.isDistinctRack = true) ∨ multi.isDistinctRack = true := by
  induction slaves generalizing multi with
  | nil => exact .inr distinct
  | cons slave slaves ih =>
      rcases ih (createSenderState multi slave) distinct with ⟨other, member, rack⟩ | before
      · exact .inl ⟨other, List.mem_cons_of_mem _ member, rack⟩
      · rcases Bool.or_eq_true_iff.mp before with earlier | rack
        · exact .inr earlier
        · exact .inl ⟨slave, List.mem_cons_self, rack⟩

/-- The last sequence of a receiver is in this round or in the next one. With the last `FIRST_SEQ` the end of
the transfer is known. -/
def multicastStateUpdateSeqEnd (multi : MulticastState) (addr : Nat) (sender : SenderState) :
    MulticastState :=
  let round := if multi.seqCur % multi.seqMax ≤ sender.seqFirst then multi.seqCur / multi.seqMax
    else multi.seqCur / multi.seqMax + 1
  let seqEnd := u32 ((round : Int) * multi.seqMax + sender.seqFirst)
  let updated := { multi with
    senderAddrHash := Function.update multi.senderAddrHash addr (some { sender with seqEnd := seqEnd })
    seqEndMax := if multi.seqEndMax < seqEnd then seqEnd else multi.seqEndMax }
  if updated.nInit = updated.nFirstSeq then { updated with seqEnd := updated.seqEndMax } else updated

/-- The end of a receiver is the next packet with its place in the round that is not sent yet. -/
def nextPlace (seqCur seqMax seqFirst : Nat) : Nat :=
  (if seqCur % seqMax ≤ seqFirst then seqCur / seqMax else seqCur / seqMax + 1) * seqMax + seqFirst

theorem nextPlace_ge {seqMax : Nat} (positive : 0 < seqMax) (seqCur seqFirst : Nat) :
    seqCur ≤ nextPlace seqCur seqMax seqFirst := by
  have whole := Nat.div_add_mod seqCur seqMax
  have place := Nat.mod_lt seqCur positive
  rw [Nat.mul_comm] at whole
  unfold nextPlace
  split_ifs with later
  · omega
  · rw [Nat.add_mul, Nat.one_mul]
    omega

/-- The end of a receiver is less than a round behind the current packet. -/
theorem nextPlace_lt {seqMax seqFirst : Nat} (seqCur : Nat) (inside : seqFirst < seqMax) :
    nextPlace seqCur seqMax seqFirst < seqCur + seqMax := by
  have whole := Nat.div_add_mod seqCur seqMax
  rw [Nat.mul_comm] at whole
  unfold nextPlace
  split_ifs with later
  · omega
  · rw [Nat.add_mul, Nat.one_mul]
    omega

/-- The update stores the end of one receiver, and with the last report it fixes the end of the transfer. -/
theorem multicastStateUpdateSeqEnd_eq (multi : MulticastState) (addr : Nat) (sender : SenderState) :
    multicastStateUpdateSeqEnd multi addr sender =
      let seqEnd := u32 (nextPlace multi.seqCur multi.seqMax sender.seqFirst : Nat)
      { multi with
        senderAddrHash := Function.update multi.senderAddrHash addr (some { sender with seqEnd := seqEnd })
        seqEndMax := max multi.seqEndMax seqEnd
        seqEnd := if multi.nInit = multi.nFirstSeq then max multi.seqEndMax seqEnd else multi.seqEnd } := by
  unfold multicastStateUpdateSeqEnd nextPlace
  simp only [Nat.cast_add, Nat.cast_mul, max_def_lt]
  split_ifs <;> rfl

/-- A new state is dead, has sent nothing and has its files open. -/
theorem createBcdState_new {dataSize dataPayloadLen : Nat} {multi : MulticastState}
    (created : createBcdState dataSize dataPayloadLen = some multi) :
    multi.bcdState = .dead ∧ multi.isTvLastData = 0 ∧ multi.nPacketTotal = 0 ∧ multi.nByteTotal = 0 ∧
      multi.fd = true ∧ multi.fdPatch = true := by
  unfold createBcdState multicastStateReset at created
  split_ifs at created
  obtain rfl := Option.some.inj created
  exact ⟨rfl, rfl, rfl, rfl, rfl, rfl⟩

theorem createBcdState_deleteCounter {dataSize dataPayloadLen : Nat} {multi : MulticastState}
    (created : createBcdState dataSize dataPayloadLen = some multi) : multi.deleteCounter = 0 := by
  unfold createBcdState multicastStateReset at created
  split_ifs at created
  obtain rfl := Option.some.inj created
  rfl

/-- A state before its first push is reset already and knows no receivers. -/
structure MulticastState.Unpushed (multi : MulticastState) : Prop where
  reset : multicastStateReset multi = multi
  nInit : multi.nInit = 0
  nFirstSeq : multi.nFirstSeq = 0
  isDistinctRack : multi.isDistinctRack = false
  seqCur : multi.seqCur = 0
  seqEnd : multi.seqEnd = seqnumMax
  seqMax : multi.seqMax < 4294967296
  senderAddrHash : ∀ addr, multi.senderAddrHash addr = none

theorem createBcdState_unpushed {dataSize dataPayloadLen : Nat} {multi : MulticastState}
    (created : createBcdState dataSize dataPayloadLen = some multi) : multi.Unpushed := by
  unfold createBcdState at created
  split_ifs at created
  obtain rfl := Option.some.inj created
  refine ⟨rfl, rfl, rfl, rfl, rfl, rfl, ?_, fun _ => rfl⟩
  rw [multicastStateReset, if_pos rfl]
  dsimp only
  split_ifs
  · exact unsigned_lt 32 _
  · exact unsigned_lt 32 _

end RepublicAgent
