/-
This file follows one broadcast through the runs of a receiver agent. Its receiver state passes through a transfer
of its own, whatever the agent does for the other broadcasts.
-/

import RepublicAgent.Receiver.AgentSteps
import RepublicAgent.Receiver.Faithful

namespace RepublicAgent
open Execution

/-- The receiver state of a broadcast is changed by its packets, its patches and the end of its fast path. -/
inductive HandledMsg where
  | packet (seq : Nat)
  | patchData (seq : Nat)
  | fastDone
deriving DecidableEq, Repr

/-- The part of a step that concerns the receiver state of a broadcast. -/
def ReceiverAgent.handled (config : ReceiverConfig) (bcdId : BcdID) (agent : ReceiverAgent) :
    ReceiverEvent → List HandledMsg
  | .advance =>
      match agent.pc with
      | .process other seq =>
          if other = bcdId ∧ ∃ entry ∈ agent.hashRecver bcdId, entry.fdsP ≠ none then
            [.packet (seq % (config.broadcast bcdId).seqMax)]
          else []
      | _ => []
  | .patchData key other seq =>
      if other = bcdId ∧ agent.Live key then [.patchData (seq % (config.broadcast bcdId).seqMax)] else []
  | .fastDone key other => if other = bcdId ∧ agent.Live key then [.fastDone] else []
  | _ => []

/-- The messages that a run of the agent handles for a broadcast, in their order. -/
def ReceiverAgent.handledBy (config : ReceiverConfig) (bcdId : BcdID) (events : List ReceiverEvent) :
    List HandledMsg :=
  given (receiverStep config) (ReceiverAgent.handled config bcdId) ReceiverAgent.initial events

/-- The transfer gets the patches in the order of the requests. -/
def HandledMsg.event (b : Broadcast) : HandledMsg → TransferEvent b
  | .packet seq => .packet ⟨seq % b.seqMax, Nat.mod_lt seq b.seqMax_pos⟩
  | .patchData _ => .patch 0
  | .fastDone => .fastDone

def handledStep (b : Broadcast) (round : Nat) (t : Transfer) (msg : HandledMsg) : Except Assertion Transfer :=
  transferStep b round t (msg.event b)

/-- The master sends the oldest pending patch, and it ends the fast path once and after a packet. -/
def Transfer.Expects (t : Transfer) : HandledMsg → Prop
  | .packet _ => True
  | .patchData seq => t.pending.head? = some seq
  | .fastDone => t.recv.isSeqFst = true ∧ t.fastDoneSeen = false

instance (t : Transfer) : (msg : HandledMsg) → Decidable (t.Expects msg)
  | .packet _ => inferInstanceAs (Decidable True)
  | .patchData seq => inferInstanceAs (Decidable (t.pending.head? = some seq))
  | .fastDone => inferInstanceAs (Decidable (t.recv.isSeqFst = true ∧ t.fastDoneSeen = false))

/-- A connected receiver state is the one of the transfer, which starts with the connection. -/
structure Follows (config : ReceiverConfig) (bcdId : BcdID) (agent : ReceiverAgent) (t : Transfer) : Prop where
  unconnected : (∀ entry ∈ agent.hashRecver bcdId, entry.fdsP = none) → t = Transfer.fresh (config.broadcast bcdId)
  created : ∀ entry ∈ agent.hashRecver bcdId, entry.fdsP = none →
    entry.recv = createRecverState bcdId config.dataPayloadLen
  same : ∀ entry ∈ agent.hashRecver bcdId, entry.fdsP ≠ none → entry.recv = t.recv
  assigning : ∀ key seq, agent.pc = .assign bcdId key seq → ∀ entry ∈ agent.hashRecver bcdId, entry.fdsP = none

section Steps

variable {config : ReceiverConfig} {bcdId other : BcdID} {agent next : ReceiverAgent} {t after : Transfer}
  {entry changed : RecverEntry} {round : Nat}

theorem ReceiverAgent.initial_follows (config : ReceiverConfig) (bcdId : BcdID) :
    Follows config bcdId ReceiverAgent.initial (Transfer.fresh (config.broadcast bcdId)) where
  unconnected _ := rfl
  created _ found := by cases found
  same _ found := by cases found
  assigning _ _ start := by cases start

/-- A step that leaves the receiver state of the broadcast and begins no connection is followed without a move. -/
theorem Follows.frame (follows : Follows config bcdId agent t)
    (hashRecver : next.hashRecver bcdId = agent.hashRecver bcdId)
    (pc : ∀ key seq, next.pc = .assign bcdId key seq → agent.pc = .assign bcdId key seq) :
    Follows config bcdId next t where
  unconnected := by
    rw [hashRecver]
    exact follows.unconnected
  created := by
    rw [hashRecver]
    exact follows.created
  same := by
    rw [hashRecver]
    exact follows.same
  assigning key seq start := by
    rw [hashRecver]
    exact follows.assigning key seq (pc key seq start)

/-- The treatment of another broadcast leaves the receiver state of this one. -/
theorem Follows.elsewhere (follows : Follows config bcdId agent t) (different : other ≠ bcdId)
    (hashRecver : next.hashRecver = Function.update agent.hashRecver other (some changed))
    (pc : ∀ key seq, next.pc = .assign bcdId key seq → agent.pc = .assign bcdId key seq) :
    Follows config bcdId next t :=
  follows.frame (by rw [hashRecver, Function.update_of_ne different.symm]) pc

/-- A connected receiver state that moves as its transfer is still followed. -/
theorem Follows.move (follows : Follows config bcdId agent t) (found : agent.hashRecver bcdId = some entry)
    (connected : entry.fdsP ≠ none)
    (hashRecver : next.hashRecver = Function.update agent.hashRecver bcdId (some { entry with recv := after.recv }))
    (pc : ∀ key seq, next.pc = .assign bcdId key seq → agent.pc = .assign bcdId key seq) :
    Follows config bcdId next after := by
  have present : next.hashRecver bcdId = some { entry with recv := after.recv } := by
    rw [hashRecver, Function.update_self]
  constructor
  · intro absent
    exact absurd (absent _ present) connected
  · intro new member absent
    obtain rfl := Option.some.inj (present.symm.trans member)
    exact absurd absent connected
  · intro new member _
    obtain rfl := Option.some.inj (present.symm.trans member)
    rfl
  · intro key seq start
    exact absurd (follows.assigning key seq (pc key seq start) entry found) connected

/-- A transfer that has begun has a connected receiver state. -/
theorem Follows.connected (follows : Follows config bcdId agent t)
    (begun : t ≠ Transfer.fresh (config.broadcast bcdId)) :
    ∃ entry, agent.hashRecver bcdId = some entry ∧ entry.fdsP ≠ none := by
  by_contra absent
  apply begun (follows.unconnected _)
  intro entry found
  by_contra connected
  exact absent ⟨entry, found, connected⟩

/-- A new transfer expects packets only. -/
theorem Transfer.Expects.begun {b : Broadcast} {msg : HandledMsg} (expected : t.Expects msg)
    (control : ∀ seq, msg ≠ .packet seq) : t ≠ Transfer.fresh b := by
  rintro rfl
  cases msg with
  | packet seq => exact control seq rfl
  | patchData seq => cases expected
  | fastDone => cases expected.1

/-- The data channel thread creates a receiver state of the broadcast, connects it or processes its packet. -/
theorem Follows.packet (follows : Follows config bcdId agent t) (sourceIp : Nat) (other : BcdID) (seq : Nat)
    (opens : Bool) : Follows config bcdId (agent.packet config sourceIp other seq opens) t := by
  rcases agent.packet_cases config sourceIp other seq opens with left | begun | ⟨fds, _, absent, _, created⟩
  · rw [left]
    exact follows
  · rw [begun]
    exact follows.frame rfl fun _ _ start => by cases start
  · rw [created]
    by_cases own : other = bcdId
    · subst own
      have present (new : RecverEntry)
          (member : new ∈ Function.update agent.hashRecver other
            (some ⟨createRecverState other config.dataPayloadLen, none⟩) other) :
          new = ⟨createRecverState other config.dataPayloadLen, none⟩ := by
        rw [Function.update_self] at member
        exact (Option.some.inj member).symm
      constructor
      · intro _
        apply follows.unconnected
        intro entry member
        rw [absent] at member
        cases member
      · intro new member _
        rw [present new member]
      · intro new member connected
        rw [present new member] at connected
        exact absurd rfl connected
      · intro _ _ _ new member
        rw [present new member]
    · exact follows.elsewhere own rfl fun _ _ start => by
        simp only [PacketPc.assign.injEq] at start
        exact absurd start.1 own

/-- The connection starts the transfer. -/
theorem Follows.connect (follows : Follows config bcdId agent t) {key seq : Nat}
    (start : agent.pc = .assign bcdId key seq) (found : agent.hashRecver bcdId = some entry) :
    Follows config bcdId { agent.store bcdId ⟨recverStateStartFathPath entry.recv, some key⟩ with
      pc := .process bcdId seq } t := by
  have absent : ∀ old ∈ agent.hashRecver bcdId, old.fdsP = none := follows.assigning key seq start
  have fresh := follows.unconnected absent
  have recv := follows.created entry found (absent entry found)
  have present (new : RecverEntry)
      (member : new ∈ Function.update agent.hashRecver bcdId
        (some ⟨recverStateStartFathPath entry.recv, some key⟩) bcdId) :
      new = ⟨recverStateStartFathPath entry.recv, some key⟩ := by
    rw [Function.update_self] at member
    exact (Option.some.inj member).symm
  constructor
  · intro unconnected
    have empty := unconnected ⟨recverStateStartFathPath entry.recv, some key⟩
      (by simp [ReceiverAgent.store])
    cases empty
  · intro new member empty
    rw [present new member] at empty
    cases empty
  · intro new member _
    rw [present new member, fresh, recv, Transfer.fresh, config.named, config.cut]
  · intro _ _ other
    cases other

/-- The packet of a connected receiver state is processed. -/
theorem ReceiverAgent.advance_process {seq : Nat} (start : agent.pc = .process bcdId seq)
    (found : agent.hashRecver bcdId = some entry) (connected : entry.fdsP ≠ none)
    (taken : agent.advance config = .ok next) :
    ∃ recv msgs, processRings entry.recv
        ((config.broadcast bcdId).packet (seq % (config.broadcast bcdId).seqMax)) = .ok (recv, msgs) ∧
      next = { agent.store bcdId { entry with recv := recv } with pc := .idle, n2c := agent.n2c ++ msgs } := by
  rw [ReceiverAgent.advance, start] at taken
  simp only [found, if_neg connected] at taken
  split at taken
  · cases taken
  · next recv msgs processed => exact ⟨recv, msgs, processPacket_ok processed, (Except.ok.inj taken).symm⟩

theorem Follows.advance (follows : Follows config bcdId agent t) (taken : agent.advance config = .ok next) :
    ∃ after, execute (handledStep (config.broadcast bcdId) round) t (agent.handled config bcdId .advance) =
      .ok after ∧ Follows config bcdId next after := by
  by_cases active : ∃ seq entry, agent.pc = .process bcdId seq ∧ agent.hashRecver bcdId = some entry ∧
      entry.fdsP ≠ none
  · obtain ⟨seq, entry, start, found, connected⟩ := active
    obtain ⟨recv, msgs, processed, rfl⟩ := ReceiverAgent.advance_process start found connected taken
    have given : agent.handled config bcdId .advance = [.packet (seq % (config.broadcast bcdId).seqMax)] := by
      simp [ReceiverAgent.handled, start, found, connected]
    have moved : ∃ after, handledStep (config.broadcast bcdId) round t
        (.packet (seq % (config.broadcast bcdId).seqMax)) = .ok after ∧ after.recv = recv := by
      rw [follows.same entry found connected] at processed
      simp only [handledStep, HandledMsg.event, transferStep, Nat.mod_mod, processed, ok_bind]
      exact ⟨_, rfl, rfl⟩
    obtain ⟨after, moved, rfl⟩ := moved
    rw [given, execute_singleton]
    exact ⟨after, moved, follows.move found connected rfl fun _ _ other => by cases other⟩
  · have quiet : agent.handled config bcdId .advance = [] := by
      simp only [ReceiverAgent.handled]
      split
      · next other seq start =>
          rw [if_neg]
          rintro ⟨rfl, entry, found, connected⟩
          exact active ⟨seq, entry, start, found, connected⟩
      · rfl
    refine ⟨t, by rw [quiet, execute_nil], ?_⟩
    rcases ReceiverAgent.advance_cases taken with ⟨rfl, _⟩ | ⟨other, key, seq, entry, start, found, rfl⟩ |
      ⟨rfl, _⟩ | ⟨other, seq, entry, recv, msgs, start, found, connected, processed, rfl⟩
    · exact follows
    · by_cases own : other = bcdId
      · subst own
        exact follows.connect start found
      · exact follows.elsewhere own rfl fun _ _ other => by cases other
    · exact follows.frame rfl fun _ _ other => by cases other
    · have own : other ≠ bcdId := by
        rintro rfl
        exact active ⟨seq, entry, start, found, connected⟩
      exact follows.elsewhere own rfl fun _ _ other => by cases other

/-- A patch on a live connection changes the receiver state of its broadcast. -/
theorem ReceiverAgent.patchData_live {key seq : Nat} (live : agent.Live key)
    (found : agent.hashRecver bcdId = some entry) (taken : agent.patchData config key bcdId seq = .ok next) :
    ∃ recv output, msgPatchData entry.recv
        ((config.broadcast bcdId).packet (seq % (config.broadcast bcdId).seqMax)) = .ok (recv, output) ∧
      next.hashRecver = Function.update agent.hashRecver bcdId (some { entry with recv := recv }) ∧
      next.pc = agent.pc := by
  rw [ReceiverAgent.patchData, if_pos live] at taken
  simp only [found] at taken
  split at taken
  · cases taken
  · next recv output handled =>
      rw [(ReceiverAgent.output_ok taken).1]
      exact ⟨recv, output, (processPatch_ok handled).1, rfl, rfl⟩

/-- The end of the fast path on a live connection changes the receiver state of its broadcast. -/
theorem ReceiverAgent.fastDone_live {key : Nat} (live : agent.Live key)
    (found : agent.hashRecver bcdId = some entry) (taken : agent.fastDone key bcdId = .ok next) :
    next.hashRecver = Function.update agent.hashRecver bcdId
        (some { entry with recv := (msgFastDone entry.recv).1 }) ∧ next.pc = agent.pc := by
  rw [ReceiverAgent.fastDone, if_pos live] at taken
  simp only [found] at taken
  rw [(ReceiverAgent.insertMsgs_ok taken).1]
  exact ⟨rfl, rfl⟩

/-- A message of the control channel is followed when it moves a connected receiver state as it moves the transfer. -/
theorem Follows.control (follows : Follows config bcdId agent t) {key : Nat} {msg : HandledMsg}
    (control : ∀ seq, msg ≠ .packet seq)
    (expected : StepsMeet (handledStep (config.broadcast bcdId) round) Transfer.Expects t
      (if other = bcdId ∧ agent.Live key then [msg] else []))
    (dead : ¬agent.Live key → next = agent)
    (changes : next = agent ∨ ∃ changed, next.hashRecver = Function.update agent.hashRecver other (some changed) ∧
      next.pc = agent.pc)
    (moves : other = bcdId → agent.Live key → t.Expects msg → ∀ entry, agent.hashRecver bcdId = some entry →
      entry.recv = t.recv → ∃ after, handledStep (config.broadcast bcdId) round t msg = .ok after ∧
        next.hashRecver = Function.update agent.hashRecver bcdId (some { entry with recv := after.recv }) ∧
        next.pc = agent.pc) :
    ∃ after, execute (handledStep (config.broadcast bcdId) round) t
      (if other = bcdId ∧ agent.Live key then [msg] else []) = .ok after ∧ Follows config bcdId next after := by
  by_cases live : agent.Live key
  · by_cases own : other = bcdId
    · rw [if_pos ⟨own, live⟩] at expected ⊢
      obtain ⟨entry, found, connected⟩ := follows.connected (expected.1.begun control)
      obtain ⟨after, moved, hashRecver, pc⟩ :=
        moves own live expected.1 entry found (follows.same entry found connected)
      rw [execute_singleton]
      exact ⟨after, moved, follows.move found connected hashRecver fun _ _ start => pc ▸ start⟩
    · rw [if_neg (fun both => own both.1)]
      refine ⟨t, execute_nil t, ?_⟩
      rcases changes with rfl | ⟨changed, hashRecver, pc⟩
      · exact follows
      · exact follows.elsewhere own hashRecver fun _ _ start => pc ▸ start
  · rw [if_neg (fun both => live both.2)]
    exact ⟨t, execute_nil t, (dead live).symm ▸ follows⟩

theorem Follows.patchData (follows : Follows config bcdId agent t) {key seq : Nat}
    (expected : StepsMeet (handledStep (config.broadcast bcdId) round) Transfer.Expects t
      (agent.handled config bcdId (.patchData key other seq)))
    (taken : agent.patchData config key other seq = .ok next) :
    ∃ after, execute (handledStep (config.broadcast bcdId) round) t
      (agent.handled config bcdId (.patchData key other seq)) = .ok after ∧ Follows config bcdId next after := by
  apply follows.control (fun _ other => by cases other) expected
  · intro dead
    rw [ReceiverAgent.patchData, if_neg dead] at taken
    exact (Except.ok.inj taken).symm
  · rcases ReceiverAgent.patchData_cases taken with rfl | ⟨entry, recv, output, _, _, same, _⟩
    · exact .inl rfl
    · rw [same]
      exact .inr ⟨_, rfl, rfl⟩
  · rintro rfl live oldest entry found recvSame
    obtain ⟨recv, output, handled, hashRecver, pc⟩ := ReceiverAgent.patchData_live live found taken
    have first : t.pending[0]? = some (seq % (config.broadcast other).seqMax) := by
      rw [← List.head?_eq_getElem?]
      exact oldest
    have moved : ∃ after, handledStep (config.broadcast other) round t
        (.patchData (seq % (config.broadcast other).seqMax)) = .ok after ∧ after.recv = recv := by
      rw [recvSame] at handled
      simp only [handledStep, HandledMsg.event, transferStep, first, handled, ok_bind]
      exact ⟨_, rfl, rfl⟩
    obtain ⟨after, moved, rfl⟩ := moved
    exact ⟨after, moved, hashRecver, pc⟩

theorem Follows.fastDone (follows : Follows config bcdId agent t) {key : Nat}
    (expected : StepsMeet (handledStep (config.broadcast bcdId) round) Transfer.Expects t
      (agent.handled config bcdId (.fastDone key other)))
    (taken : agent.fastDone key other = .ok next) :
    ∃ after, execute (handledStep (config.broadcast bcdId) round) t
      (agent.handled config bcdId (.fastDone key other)) = .ok after ∧ Follows config bcdId next after := by
  apply follows.control (fun _ other => by cases other) expected
  · intro dead
    rw [ReceiverAgent.fastDone, if_neg dead] at taken
    exact (Except.ok.inj taken).symm
  · rcases ReceiverAgent.fastDone_cases taken with rfl | ⟨entry, _, same, _⟩
    · exact .inl rfl
    · rw [same]
      exact .inr ⟨_, rfl, rfl⟩
  · rintro rfl live ⟨begun, once⟩ entry found recvSame
    obtain ⟨hashRecver, pc⟩ := ReceiverAgent.fastDone_live live found taken
    rw [recvSame] at hashRecver
    have moved : ∃ after, handledStep (config.broadcast other) round t .fastDone = .ok after ∧
        after.recv = (msgFastDone t.recv).1 := by
      rw [handledStep, HandledMsg.event, transferStep, if_pos ⟨begun, by simp [once]⟩]
      exact ⟨_, rfl, rfl⟩
    obtain ⟨after, moved, same⟩ := moved
    exact ⟨after, moved, same.symm ▸ hashRecver, pc⟩

/-- Every step of the agent is followed by what it handles for the broadcast. -/
theorem Follows.step (follows : Follows config bcdId agent t) (event : ReceiverEvent)
    (expected : StepsMeet (handledStep (config.broadcast bcdId) round) Transfer.Expects t
      (agent.handled config bcdId event))
    (taken : receiverStep config agent event = .ok next) :
    ∃ after, execute (handledStep (config.broadcast bcdId) round) t (agent.handled config bcdId event) = .ok after ∧
      Follows config bcdId next after := by
  cases event with
  | advance => exact follows.advance taken
  | patchData key other seq => exact follows.patchData expected taken
  | fastDone key other => exact follows.fastDone expected taken
  | packet sourceIp other seq opens =>
      obtain rfl := Except.ok.inj taken
      exact ⟨t, rfl, follows.packet sourceIp other seq opens⟩
  | intReq appId msgIntQ =>
      obtain rfl := Except.ok.inj taken
      refine ⟨t, rfl, ?_⟩
      rw [(ReceiverAgent.intReq_eq config agent appId msgIntQ).1]
      exact follows.frame rfl fun _ _ => id
  | i2cPull other msgIntQ => exact ⟨t, rfl, Except.ok.inj taken ▸ follows.frame rfl fun _ _ => id⟩
  | takeN2c =>
      refine ⟨t, rfl, ?_⟩
      rcases ReceiverAgent.takeN2c_cases taken with ⟨rfl, _⟩ | ⟨msg, msgs, entry, output, _, _, _, same, _⟩
      · exact follows
      · rw [same]
        exact follows.frame rfl fun _ _ => id
  | takeI2c =>
      refine ⟨t, rfl, ?_⟩
      rcases ReceiverAgent.takeI2c_cases taken with rfl | ⟨pull, pulls, _, same, _⟩
      · exact follows
      · rw [same]
        exact follows.frame rfl fun _ _ => id
  | takeC2i => exact ⟨t, rfl, Except.ok.inj taken ▸ follows.frame rfl fun _ _ => id⟩
  | pullReject key other =>
      obtain rfl := Except.ok.inj taken
      refine ⟨t, rfl, ?_⟩
      unfold ReceiverAgent.pullReject
      split_ifs
      · exact follows.frame rfl fun _ _ => id
      · exact follows
  | close key => exact ⟨t, rfl, Except.ok.inj taken ▸ follows.frame rfl fun _ _ => id⟩

end Steps

/-- In a receiver agent of many broadcasts, each connected receiver state is the one that a transfer reaches with the
packets and control messages of its own broadcast, and when it is finished its file reads back as the data. -/
theorem broadcast_isolated (config : ReceiverConfig) (bcdId : BcdID) (round : Nat)
    (small : (config.broadcast bcdId).seqMax < seqnumMax)
    (short : (config.broadcast bcdId).data.length < 2147483648) (events : List ReceiverEvent) (agent : ReceiverAgent)
    (completed : execute (receiverStep config) ReceiverAgent.initial events = .ok agent)
    (expected : StepsMeet (handledStep (config.broadcast bcdId) round) Transfer.Expects
      (Transfer.fresh (config.broadcast bcdId)) (ReceiverAgent.handledBy config bcdId events))
    (entry : RecverEntry) (found : agent.hashRecver bcdId = some entry) (connected : entry.fdsP ≠ none) :
    ∃ t, transferRun (config.broadcast bcdId) round
        ((ReceiverAgent.handledBy config bcdId events).map (HandledMsg.event (config.broadcast bcdId))) = .ok t ∧
      entry.recv = t.recv ∧
      (entry.recv.isFinished = true → entry.recv.readBack = (config.broadcast bcdId).data) := by
  have kept (agent : ReceiverAgent) (t : Transfer) (event : ReceiverEvent) (next : ReceiverAgent)
      (follows : Follows config bcdId agent t)
      (expected : StepsMeet (handledStep (config.broadcast bcdId) round) Transfer.Expects t
        (ReceiverAgent.handled config bcdId agent event))
      (taken : receiverStep config agent event = .ok next) := follows.step event expected taken
  obtain ⟨t, moved, follows⟩ := execute_given kept (ReceiverAgent.initial_follows config bcdId) expected completed
  have run : transferRun (config.broadcast bcdId) round
      ((ReceiverAgent.handledBy config bcdId events).map (HandledMsg.event (config.broadcast bcdId))) = .ok t := by
    rw [transferRun, execute_map]
    exact moved
  have order : ∀ event ∈ (ReceiverAgent.handledBy config bcdId events).map
      (HandledMsg.event (config.broadcast bcdId)), event.fifo := by
    intro event member
    obtain ⟨msg, _, rfl⟩ := List.mem_map.mp member
    cases msg with
    | packet seq => trivial
    | patchData seq => rfl
    | fastDone => trivial
  have same := follows.same entry found connected
  refine ⟨t, run, same, ?_⟩
  rw [same]
  exact fun finished => ((transferRun_faithful small short order run).read finished).1

/-- Every broadcast is three bytes long. -/
def threeBytesConfig : ReceiverConfig where
  hostAddr := 1
  seqZeroNotify := false
  dataPayloadLen := 1
  broadcast bcdId := { threeBytes with bcdId := bcdId }
  named _ := rfl
  cut _ := rfl

/-- One broadcast wraps around and loses its first packet, and another one stays incomplete meanwhile. -/
def crossedBroadcasts : List ReceiverEvent :=
  [.intReq ⟨0, 0⟩ ⟨1, 2⟩, .packet 2 ⟨0, 0, 7⟩ 2 true, .advance, .advance, .packet 2 ⟨0, 0, 8⟩ 0 true, .advance,
    .advance, .packet 2 ⟨0, 0, 7⟩ 1 true, .advance, .fastDone 0 ⟨0, 0, 8⟩, .fastDone 0 ⟨0, 0, 7⟩,
    .patchData 0 ⟨0, 0, 7⟩ 0, .patchData 0 ⟨0, 0, 8⟩ 1, .patchData 0 ⟨0, 0, 7⟩ 1]

theorem broadcast_isolated_crossed :
    ∃ agent entry, execute (receiverStep threeBytesConfig) ReceiverAgent.initial crossedBroadcasts = .ok agent ∧
      agent.hashRecver ⟨0, 0, 7⟩ = some entry ∧ entry.recv.readBack = [10, 20, 30] := by
  obtain ⟨agent, completed, checked⟩ := exists_of_check
    (execute (receiverStep threeBytesConfig) ReceiverAgent.initial crossedBroadcasts)
    (fun agent => (agent.hashRecver ⟨0, 0, 7⟩).any fun entry =>
      entry.fdsP.isSome && entry.recv.isFinished) (by decide +kernel)
  obtain ⟨entry, found, ended⟩ := (Option.any_eq_true _ _).mp checked
  obtain ⟨connected, finished⟩ := Bool.and_eq_true_iff.mp ended
  have assigned : entry.fdsP ≠ none := by
    intro absent
    rw [absent] at connected
    cases connected
  have expected : StepsMeet (handledStep (threeBytesConfig.broadcast ⟨0, 0, 7⟩) 0) Transfer.Expects
      (Transfer.fresh (threeBytesConfig.broadcast ⟨0, 0, 7⟩))
      (ReceiverAgent.handledBy threeBytesConfig ⟨0, 0, 7⟩ crossedBroadcasts) := by
    decide +kernel
  obtain ⟨_, _, _, data⟩ := broadcast_isolated threeBytesConfig ⟨0, 0, 7⟩ 0 (by decide) (by decide) _ agent completed
    expected entry found assigned
  exact ⟨agent, entry, completed, found, data finished⟩

end RepublicAgent
