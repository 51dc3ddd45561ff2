/-
This file runs the calls of the data channel thread on one multicast. A burst is sent at most once after each
quota.
-/

import RepublicAgent.Sender.PushTransfer

namespace RepublicAgent
open MachineInteger

/-- The quota waits for the burst behind it. -/
structure DataSide where
  multi : MulticastState
  pathRelease : PathRelease
  quota : Option Int

/-- The number of packets that the thread may send now. -/
def DataSide.nMultiRx (side : DataSide) (option : Bool) (ring : TxRing) (estimate : Int) : Int :=
  (amNPktQueued option side.multi side.pathRelease ring estimate).2.2

def DataSide.queue (side : DataSide) (option : Bool) (ring : TxRing) (estimate : Int) : DataSide where
  multi := (amNPktQueued option side.multi side.pathRelease ring estimate).1
  pathRelease := (amNPktQueued option side.multi side.pathRelease ring estimate).2.1
  quota := some (side.nMultiRx option ring estimate)

/-- The largest number of packets of the next burst. -/
def DataSide.limit (side : DataSide) (nmBurst : Int) : Option Int := side.quota.map fun quota => min quota nmBurst

/-- The ring has room for some packets. A dead multicast sends nothing. -/
def DataSide.process (side : DataSide) (nmBurst : Int) (space : Nat) (ring : TxRing) : Except Fault DataSide :=
  match side.limit nmBurst with
  | none => .ok side
  | some limit =>
      if side.multi.bcdState = .dead then .ok { side with quota := none }
      else
        match amProcessRings side.multi side.pathRelease space limit ring with
        | .error fault => .error fault
        | .ok outcome => .ok ⟨outcome.1, outcome.2, none⟩

def DataSide.check (side : DataSide) (ring : TxRing) : DataSide :=
  if side.pathRelease.needReleasePath = false then side
  else if side.pathRelease.passed ring then { side with
    multi := { side.multi with bcdState := .dead }
    pathRelease := { side.pathRelease with needReleasePath := false } }
  else { side with pathRelease := { side.pathRelease with amTxringTailLast := ring.tail } }

/-- Both parts of the handler of `MSG_FIRST_SEQ`. -/
def handleFirstSeq (multi : MulticastState) (addr seqFirst : Nat) : Except Fault MulticastState :=
  match receiveFirstSeq multi addr seqFirst with
  | .error fault => .error fault
  | .ok counted =>
      match counted.senderAddrHash addr with
      | none => .error .badPointer
      | some sender => .ok (multicastStateUpdateSeqEnd counted addr sender)

/-- The data channel thread reads these fields but writes none of them. -/
structure PushFields where
  seqMax : Nat
  nInit : Nat
  nFirstSeq : Nat
  isFirstSeqDistinctRack : Bool
  isDistinctRack : Bool
  seqEnd : Nat
  seqEndMax : Nat
  senderAddrHash : Nat → Option SenderState

def MulticastState.pushFields (multi : MulticastState) : PushFields where
  seqMax := multi.seqMax
  nInit := multi.nInit
  nFirstSeq := multi.nFirstSeq
  isFirstSeqDistinctRack := multi.isFirstSeqDistinctRack
  isDistinctRack := multi.isDistinctRack
  seqEnd := multi.seqEnd
  seqEndMax := multi.seqEndMax
  senderAddrHash := multi.senderAddrHash

/-- All receivers reported, so the end of the transfer is final. -/
def PushFields.EndKnown (fields : PushFields) (reported : List Nat) : Prop :=
  reported ≠ [] ∧ fields.nFirstSeq = fields.nInit

/-- What the handlers of the control thread keep. A receiver in another rack marks its report, and the end
of the transfer is unknown until all receivers reported. -/
structure PushFields.Sound (push : Push) (fields : PushFields) (reported : List Nat) : Prop where
  reports : Reports push fields.nInit fields.nFirstSeq fields.senderAddrHash reported
  positive : 0 < fields.seqMax
  racks : fields.isDistinctRack = true → ∃ slave ∈ push.slaves, slave.isDistinctRack = true
  stored : ∀ addr state, fields.senderAddrHash addr = some state →
    ∃ slave ∈ push.slaves, slave.addr = addr ∧ state.isDistinctRack = slave.isDistinctRack
  marked : ∀ slave ∈ push.slaves, slave.addr ∈ reported → slave.isDistinctRack = true →
    fields.isFirstSeqDistinctRack = true
  unknown : ¬ fields.EndKnown reported → fields.seqEnd = seqnumMax
  known : fields.EndKnown reported → fields.seqEnd = fields.seqEndMax
  ends : ∀ addr ∈ reported, ∃ state, fields.senderAddrHash addr = some state ∧
    state.seqEnd ≤ fields.seqEndMax

section Calls

variable {multi : MulticastState} {side next : DataSide} {option : Bool}

/-- The handler counts the report and stores the end of the receiver. -/
theorem handleFirstSeq_ok {addr seqFirst : Nat} {handled : MulticastState}
    (taken : handleFirstSeq multi addr seqFirst = .ok handled) : ∃ sender,
      multi.senderAddrHash addr = some sender ∧
      handled = multicastStateUpdateSeqEnd { multi with
        senderAddrHash := Function.update multi.senderAddrHash addr (some { sender with seqFirst := seqFirst })
        isFirstSeqDistinctRack := multi.isFirstSeqDistinctRack || sender.isDistinctRack
        nFirstSeq := u16 ((multi.nFirstSeq : Int) + 1) } addr { sender with seqFirst := seqFirst } := by
  unfold handleFirstSeq receiveFirstSeq at taken
  cases found : multi.senderAddrHash addr with
  | none => simp [found] at taken
  | some sender =>
      simp only [found, Function.update_self] at taken
      exact ⟨sender, rfl, (Except.ok.inj taken).symm⟩

/-- The handler leaves the counters of the packets and remembers the largest end. -/
structure FirstSeqHandled (multi handled : MulticastState) (seqFirst : Nat) : Prop where
  bcdState : handled.bcdState = multi.bcdState
  nPacketTotal : handled.nPacketTotal = multi.nPacketTotal
  nByteTotal : handled.nByteTotal = multi.nByteTotal
  seqCur : handled.seqCur = multi.seqCur
  seqEndMax : handled.seqEndMax = max multi.seqEndMax (u32 (nextPlace multi.seqCur multi.seqMax seqFirst : Nat))

theorem handleFirstSeq_handled {addr seqFirst : Nat} {handled : MulticastState}
    (taken : handleFirstSeq multi addr seqFirst = .ok handled) : FirstSeqHandled multi handled seqFirst := by
  obtain ⟨sender, _, rfl⟩ := handleFirstSeq_ok taken
  rw [multicastStateUpdateSeqEnd_eq]
  exact ⟨rfl, rfl, rfl, rfl, rfl⟩

theorem DataSide.queue_keeps (option : Bool) {Field : Type} (field : MulticastState → Field)
    (rate : ∀ multi bcdState, field { multicastStateUpdateRate multi with bcdState := bcdState } = field multi)
    (marks : ∀ multi bits, field { multi with isTvLastData := bits } = field multi) (ring : TxRing)
    (estimate : Int) : field (side.queue option ring estimate).multi = field side.multi :=
  amNPktQueued_keeps field rate marks option side.multi side.pathRelease ring estimate

/-- The quota is zero, or an open transfer gets the estimate up to the known end. -/
theorem DataSide.nMultiRx_cases (ring : TxRing) (estimate : Int) :
    side.nMultiRx option ring estimate = 0 ∨
      (side.multi.bcdState ≠ .dead ∧ 0 ≤ estimate ∧ ¬ side.multi.Terminated ∧
        ¬ ((startFullrate option (startAttempt side.multi)).bcdState = .fullrate ∧ side.multi.EndReached) ∧
        side.nMultiRx option ring estimate = if side.multi.seqEnd = seqnumMax then estimate
          else min estimate (s32 ((side.multi.seqEnd : Int) - side.multi.seqCur))) := by
  have kept := upgrade_keeps (fun multi => (multi.seqEnd, multi.seqCur, multi.nInit, multi.nFirstSeq))
    (fun _ _ => rfl) side.multi option
  simp only [Prod.mk.injEq] at kept
  obtain ⟨seqEnd, seqCur, nInit, nFirstSeq⟩ := kept
  have marks := upgrade_isTvLastData side.multi option
  unfold DataSide.nMultiRx amNPktQueued
  simp only [MulticastState.EndReached, MulticastState.Terminated, seqEnd, seqCur, nInit, nFirstSeq, marks]
  by_cases dead : side.multi.bcdState = .dead
  · rw [if_pos dead]
    exact .inl rfl
  rw [if_neg dead]
  by_cases ended : (startFullrate option (startAttempt side.multi)).bcdState = .fullrate ∧
      side.multi.seqEnd ≤ side.multi.seqCur ∧ side.multi.nInit = side.multi.nFirstSeq
  · rw [if_pos ended]
    left
    split_ifs <;> rfl
  rw [if_neg ended]
  by_cases stopped : side.multi.isTvLastData &&& 0x10 ≠ 0 ∨ estimate < 0
  · rw [if_pos stopped]
    exact .inl rfl
  rw [if_neg stopped]
  refine .inr ⟨dead, not_lt.mp fun negative => stopped (.inr negative), fun marked => stopped (.inl marked), ended,
    ?_⟩
  split_ifs <;> rfl

/-- A burst sends up to the smaller of its limit and the room in the ring. -/
theorem DataSide.process_ok {nmBurst : Int} {space : Nat} {ring : TxRing}
    (taken : side.process nmBurst space ring = .ok next) :
    (next.multi = side.multi ∧ next.pathRelease = side.pathRelease ∧ next.quota = none) ∨
      ∃ limit, side.limit nmBurst = some limit ∧ side.multi.bcdState ≠ .dead ∧ next.quota = none ∧
        amProcessRings side.multi side.pathRelease space limit ring = .ok (next.multi, next.pathRelease) := by
  unfold DataSide.process at taken
  cases limited : side.limit nmBurst with
  | none =>
      rw [limited] at taken
      obtain rfl := Except.ok.inj taken
      exact .inl ⟨rfl, rfl, Option.map_eq_none_iff.mp limited⟩
  | some limit =>
      rw [limited] at taken
      simp only at taken
      split_ifs at taken with dead
      · obtain rfl := Except.ok.inj taken
        exact .inl ⟨rfl, rfl, rfl⟩
      · split at taken
        · cases taken
        · next outcome sent =>
            obtain rfl := Except.ok.inj taken
            exact .inr ⟨limit, rfl, dead, rfl, sent⟩

theorem DataSide.queue_pushFields (option : Bool) (ring : TxRing) (estimate : Int) :
    (side.queue option ring estimate).multi.pushFields = side.multi.pushFields :=
  side.queue_keeps option MulticastState.pushFields (fun _ _ => rfl) (fun _ _ => rfl) ring estimate

theorem DataSide.process_pushFields {nmBurst : Int} {space : Nat} {ring : TxRing}
    (taken : side.process nmBurst space ring = .ok next) :
    next.multi.pushFields = side.multi.pushFields := by
  rcases DataSide.process_ok taken with ⟨same, _⟩ | ⟨limit, _, _, _, sent⟩
  · rw [same]
  · exact amProcessRings_keeps MulticastState.pushFields (fun _ _ => rfl) (fun _ _ => rfl) (fun _ _ _ => rfl) sent

theorem DataSide.check_pushFields (ring : TxRing) :
    (side.check ring).multi.pushFields = side.multi.pushFields := by
  unfold DataSide.check
  split_ifs <;> rfl

/-- Nothing is reported behind the push. -/
theorem Push.pushed_sound (push : Push) : push.pushed.pushFields.Sound push [] := by
  have new := createBcdState_unpushed push.stored
  have positive := push.seqMaxPositive
  refine ⟨push.pushed_reports, ?_, ?_, ?_, by simp, ?_, fun known => absurd rfl known.1, by simp⟩
  · rw [← push.pushed_field MulticastState.seqMax (fun _ _ => rfl) fun _ => rfl] at positive
    exact positive
  · intro distinct
    have rack := createSenderStates_isDistinctRack (multicastStateReset push.created) push.slaves distinct
    rw [new.reset, new.isDistinctRack] at rack
    exact rack.resolve_right (by simp)
  · intro addr state found
    have stored := createSenderStates_found (multicastStateReset push.created) push.slaves found
    rw [new.reset, new.senderAddrHash addr] at stored
    obtain ⟨slave, member, same, created⟩ := stored.resolve_right (by simp)
    exact ⟨slave, member, same, by rw [created]⟩
  · intro _
    exact (push.pushed_field MulticastState.seqEnd (fun _ _ => rfl) fun _ => rfl).trans new.seqEnd

/-- A report keeps the fields sound. The end of its receiver is one of the ends that are known. -/
theorem PushFields.Sound.report {push : Push} {reported : List Nat}
    (sound : multi.pushFields.Sound push reported) {addr seqFirst : Nat} {handled : MulticastState}
    (silent : addr ∉ reported) (taken : handleFirstSeq multi addr seqFirst = .ok handled) :
    handled.pushFields.Sound push (addr :: reported) := by
  obtain ⟨sender, found, rfl⟩ := handleFirstSeq_ok taken
  rw [multicastStateUpdateSeqEnd_eq]
  have reports : Reports push multi.nInit (u16 ((multi.nFirstSeq : Int) + 1))
      (Function.update multi.senderAddrHash addr (some { sender with seqFirst := seqFirst })) (addr :: reported) :=
    sound.reports.report found silent
  have room := sound.reports.room (sound.reports.known addr sender found) silent
  obtain ⟨receiver, listed, same, rack⟩ := sound.stored addr sender found
  constructor
  · exact reports.store (Function.update_self ..)
  · exact sound.positive
  · exact sound.racks
  · intro other state lookup
    simp only [MulticastState.pushFields, Function.update_idem] at lookup
    by_cases equal : other = addr
    · subst equal
      rw [Function.update_self] at lookup
      obtain rfl := Option.some.inj lookup
      exact ⟨receiver, listed, same, rack⟩
    · rw [Function.update_of_ne equal] at lookup
      exact sound.stored other state lookup
  · intro slave member reports distinct
    rcases List.mem_cons.mp reports with equal | before
    · have both : slave = receiver := List.inj_on_of_nodup_map push.distinct member listed (equal.trans same.symm)
      simp [MulticastState.pushFields, rack, ← both, distinct]
    · have marked : multi.isFirstSeqDistinctRack = true := sound.marked slave member before distinct
      simp [MulticastState.pushFields, marked]
  · intro partial_
    have open_ : multi.nInit ≠ u16 ((multi.nFirstSeq : Int) + 1) := fun all => partial_ ⟨by simp, all.symm⟩
    have early : ¬ multi.pushFields.EndKnown reported := fun known => room.ne known.2
    exact (if_neg open_).trans (sound.unknown early)
  · intro known
    exact if_pos known.2.symm
  · intro other member
    simp only [MulticastState.pushFields, Function.update_idem]
    by_cases equal : other = addr
    · subst equal
      exact ⟨_, Function.update_self .., le_max_right ..⟩
    · rw [Function.update_of_ne equal]
      obtain ⟨state, lookup, last⟩ := sound.ends other ((List.mem_cons.mp member).resolve_left equal)
      exact ⟨state, lookup, last.trans (le_max_left ..)⟩

end Calls

/-- A terminated transfer has no packets left to send. -/
structure DataSide.Quiet (side : DataSide) : Prop where
  bounded : side.multi.seqCur < 4294967296
  stopped : side.multi.Terminated → ∀ quota, side.quota = some quota → quota ≤ 0

/-- What one call of the data channel thread does. The release of the path is asked for at the end of the
transfer, and a terminated or a dead multicast sends nothing. -/
structure DataSide.Called (side next : DataSide) : Prop where
  quiet : next.Quiet
  pushFields : next.multi.pushFields = side.multi.pushFields
  fd : next.multi.fd = side.multi.fd
  terminated : side.multi.Terminated → next.multi.Terminated ∧ next.multi.seqCur = side.multi.seqCur
  waits : next.pathRelease.needReleasePath = true →
    side.pathRelease.needReleasePath = true ∨ next.multi.Terminated ∧ next.multi.EndReached
  dead : side.multi.bcdState = .dead →
    next.multi.bcdState = .dead ∧ next.multi.seqCur = side.multi.seqCur
  died : next.multi.bcdState = .dead →
    side.multi.bcdState = .dead ∨ side.pathRelease.needReleasePath = true

section Calls

variable {side next : DataSide}

/-- The end of a transfer is decided by the fields of the push and the next packet. -/
theorem endReached_congr {first second : MulticastState} (fields : first.pushFields = second.pushFields)
    (seqCur : first.seqCur = second.seqCur) : first.EndReached ↔ second.EndReached := by
  have seqEnd := congrArg PushFields.seqEnd fields
  have nInit := congrArg PushFields.nInit fields
  have nFirstSeq := congrArg PushFields.nFirstSeq fields
  simp only [MulticastState.pushFields] at seqEnd nInit nFirstSeq
  rw [MulticastState.EndReached, MulticastState.EndReached, seqEnd, nInit, nFirstSeq, seqCur]

theorem DataSide.Quiet.queue (quiet : side.Quiet) (option : Bool) (ring : TxRing) (estimate : Int) :
    side.Called (side.queue option ring estimate) := by
  have seqCur : (side.queue option ring estimate).multi.seqCur = side.multi.seqCur :=
    side.queue_keeps option MulticastState.seqCur (fun _ _ => rfl) (fun _ _ => rfl) ring estimate
  have ends := amNPktQueued_ends option side.multi side.pathRelease ring estimate
  constructor
  · constructor
    · rw [seqCur]
      exact quiet.bounded
    · rintro terminated quota ⟨⟩
      exact ends.1 terminated
  · exact side.queue_pushFields option ring estimate
  · exact side.queue_keeps option MulticastState.fd (fun _ _ => rfl) (fun _ _ => rfl) ring estimate
  · intro terminated
    refine ⟨?_, seqCur⟩
    by_cases dead : side.multi.bcdState = .dead
    · simpa [DataSide.queue, amNPktQueued, dead] using terminated
    · exact ((amNPktQueued_queued option side.pathRelease ring estimate dead).terminated terminated).1
  · intro waiting
    by_cases dead : side.multi.bcdState = .dead
    · left
      simpa [DataSide.queue, amNPktQueued, dead] using waiting
    · rcases (amNPktQueued_queued option side.pathRelease ring estimate dead).waits waiting with before | marked
      · exact .inl before
      · exact (ends.2 waiting).imp_right fun reached => ⟨marked, reached⟩
  · intro dead
    refine ⟨?_, seqCur⟩
    simp [DataSide.queue, amNPktQueued, dead]
  · intro died
    by_contra alive
    have state := (amNPktQueued_queued option side.pathRelease ring estimate fun dead => alive (.inl dead)).state
    exact upgrade_ne_dead option (fun dead => alive (.inl dead)) (state.symm.trans died)

/-- A call that changes nothing but the quota. -/
theorem DataSide.Quiet.same (quiet : side.Quiet) (multi : next.multi = side.multi)
    (release : next.pathRelease = side.pathRelease) (quota : next.quota = none) : side.Called next := by
  constructor
  · refine ⟨?_, by simp [quota]⟩
    rw [multi]
    exact quiet.bounded
  · rw [multi]
  · rw [multi]
  · rw [multi]
    exact fun terminated => ⟨terminated, rfl⟩
  · rw [release]
    exact .inl
  · rw [multi]
    exact fun dead => ⟨dead, rfl⟩
  · rw [multi]
    exact .inl

theorem DataSide.Quiet.process (quiet : side.Quiet) {nmBurst : Int} {space : Nat} {ring : TxRing}
    (taken : side.process nmBurst space ring = .ok next) : side.Called next := by
  rcases DataSide.process_ok taken with ⟨multi, release, quota⟩ | ⟨limit, limited, alive, quota, sent⟩
  · exact quiet.same multi release quota
  have counted := amProcessRings_sent sent
  have processed := amProcessRings_processed sent
  constructor
  · refine ⟨?_, by simp [quota]⟩
    rw [counted.1]
    exact unsigned_lt 32 _
  · exact amProcessRings_keeps MulticastState.pushFields (fun _ _ => rfl) (fun _ _ => rfl) (fun _ _ _ => rfl) sent
  · exact amProcessRings_keeps MulticastState.fd (fun _ _ => rfl) (fun _ _ => rfl) (fun _ _ _ => rfl) sent
  · intro terminated
    refine ⟨processed.terminated terminated, ?_⟩
    -- The limit is not positive, so the burst is empty.
    have empty : (min limit (space : Int)).toNat = 0 := by
      obtain ⟨rest, waiting, rfl⟩ := Option.map_eq_some_iff.mp limited
      have stopped := quiet.stopped terminated rest waiting
      omega
    rw [counted.1, empty, Nat.cast_zero, add_zero]
    exact u32_natCast quiet.bounded
  · intro waiting
    rcases counted.2.2 with ended | ⟨same, _⟩
    · exact (processed.waits waiting).imp_right fun terminated => ⟨terminated, ended⟩
    · exact .inl (same.symm.trans waiting)
  · exact fun dead => absurd dead alive
  · exact fun died => .inl (processed.state.symm.trans died)

theorem DataSide.Quiet.check (quiet : side.Quiet) (ring : TxRing) : side.Called (side.check ring) := by
  unfold DataSide.check
  split_ifs with quietRelease passed
  · exact ⟨quiet, rfl, rfl, fun terminated => ⟨terminated, rfl⟩, .inl, fun dead => ⟨dead, rfl⟩, .inl⟩
  · exact ⟨⟨quiet.bounded, quiet.stopped⟩, rfl, rfl, fun terminated => ⟨terminated, rfl⟩, by simp,
      fun _ => ⟨rfl, rfl⟩, fun _ => .inr (by simpa using quietRelease)⟩
  · exact ⟨⟨quiet.bounded, quiet.stopped⟩, rfl, rfl, fun terminated => ⟨terminated, rfl⟩, .inl,
      fun dead => ⟨dead, rfl⟩, .inl⟩

/-- A burst of packets is read from an open file. -/
theorem DataSide.process_open (opened : side.multi.fd = true) (nmBurst : Int) (space : Nat)
    (ring : TxRing) : ∃ next, side.process nmBurst space ring = .ok next := by
  unfold DataSide.process
  cases side.limit nmBurst with
  | none => exact ⟨_, rfl⟩
  | some limit =>
      simp only
      split_ifs with dead
      · exact ⟨_, rfl⟩
      · obtain ⟨outcome, sent⟩ := amProcessRings_open side.pathRelease space limit ring opened
        rw [sent]
        exact ⟨_, rfl⟩

end Calls

end RepublicAgent
