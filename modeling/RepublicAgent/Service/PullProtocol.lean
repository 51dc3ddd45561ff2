/-
This file models how a receiver host asks the agent of the master for a broadcast that it does not know. The master
rejects the hosts that are no receivers of the broadcast.
-/

import RepublicAgent.Service.ReaderWakeUp

namespace RepublicAgent
open Execution

/-- The messages that were queued on a connection. -/
def ReceiverAgent.queueOf (agent : ReceiverAgent) (key : Nat) : List QueuedMsg :=
  ((agent.rsockList.find? fun fds => fds.key = key).map FdState.sendQueue).getD []

def ToMasterMsg.bcdId : ToMasterMsg → BcdID
  | .firstSeq bcdId _ => bcdId
  | .patchReq bcdId _ => bcdId
  | .allDone bcdId => bcdId

def QueuedMsg.bcdId : QueuedMsg → BcdID
  | .pull bcdId => bcdId
  | .report msg => msg.bcdId

/-- The master keeps the addresses of the receivers of each multicast. It has handled the first messages of each
connection, and its rejections are on their way back. It is hung for ever when it gets a message about an unknown
multicast. The pulls that it refused are kept for the statements only. -/
structure PullSystem where
  service : ReadService
  hashMulticast : BcdID → Option (Finset Nat)
  hung : Bool
  handled : Nat → Nat
  rejects : Nat → List BcdID
  refused : List BcdID

def PullSystem.initial : PullSystem := ⟨ReadService.initial, fun _ => none, false, fun _ => 0, fun _ => [], []⟩

/-- The master looks for the multicast and for the state of the host, whatever the message is. -/
def masterHandler (hashMulticast : BcdID → Option (Finset Nat)) (hostAddr : Nat) (msg : QueuedMsg) :
    Option (List BcdID) :=
  match hashMulticast msg.bcdId with
  | none => none
  | some receivers =>
      match msg with
      | .pull bcdId => some (if hostAddr ∈ receivers then [] else [bcdId])
      | .report _ => some []

/-- The master takes the next message of a connection. -/
def PullSystem.takeMaster (config : ReadConfig) (sys : PullSystem) (key : Nat) : PullSystem :=
  match (sys.service.agent.queueOf key)[sys.handled key]? with
  | none => sys
  | some msg =>
      if sys.hung then sys
      else
        match masterHandler sys.hashMulticast config.receiver.hostAddr msg with
        | none => { sys with hung := true }
        | some rejections => { sys with
            handled := Function.update sys.handled key (sys.handled key + 1)
            rejects := Function.update sys.rejects key (sys.rejects key ++ rejections)
            refused := sys.refused ++ rejections }

/-- The receiver host takes the next rejection from a connection. -/
def PullSystem.takeReject (sys : PullSystem) (key : Nat) : PullSystem :=
  match sys.rejects key with
  | [] => sys
  | bcdId :: rest => { sys with
      service := { sys.service with agent := sys.service.agent.pullReject key bcdId }
      rejects := Function.update sys.rejects key rest }

/-- These steps of the receiver host need a message or a hangup of the master. -/
def ReadEvent.ofMaster : ReadEvent → Bool
  | .thread (.pullReject _ _) => true
  | .thread (.close _) => true
  | _ => false

/-- The master writes a broadcast and pushes it to receivers. -/
inductive PullEvent where
  | receiver (event : ReadEvent)
  | write (bcdId : BcdID)
  | push (bcdId : BcdID) (receivers : Finset Nat)
  | takeMaster (key : Nat)
  | takeReject (key : Nat)
deriving DecidableEq

/-- The connections stay open. -/
def pullStep (config : ReadConfig) (sys : PullSystem) : PullEvent → Except Fault PullSystem
  | .receiver event =>
      if event.ofMaster then .ok sys
      else
        match readStep config sys.service event with
        | .error fault => .error fault
        | .ok service => .ok { sys with service := service }
  | .write bcdId =>
      match sys.hashMulticast bcdId with
      | none => .ok { sys with hashMulticast := Function.update sys.hashMulticast bcdId (some ∅) }
      | some _ => .ok sys
  | .push bcdId receivers =>
      match sys.hashMulticast bcdId with
      | none => .ok sys
      | some known => .ok { sys with
          hashMulticast := Function.update sys.hashMulticast bcdId (some (known ∪ receivers)) }
  | .takeMaster key => .ok (sys.takeMaster config key)
  | .takeReject key => .ok (sys.takeReject key)

/-- A pull or its rejection is somewhere between the service thread and the master. -/
def PullSystem.Underway (sys : PullSystem) (bcdId : BcdID) : Prop :=
  (∃ msgIntQ, (bcdId, msgIntQ) ∈ sys.service.agent.i2c) ∨
    (∃ key, .pull bcdId ∈ (sys.service.agent.queueOf key).drop (sys.handled key)) ∨
    (∃ key, bcdId ∈ sys.rejects key) ∨ .pullReject bcdId ∈ sys.service.agent.c2i

/-- The host is a receiver of the broadcast. -/
def PullSystem.Registered (config : ReadConfig) (sys : PullSystem) (bcdId : BcdID) : Prop :=
  ∃ receivers, sys.hashMulticast bcdId = some receivers ∧ config.receiver.hostAddr ∈ receivers

/-- An executor that reads an unknown broadcast is not forgotten, and it is told to read in another way only when the
master refused the broadcast. -/
structure PullSystem.Answers (config : ReadConfig) (sys : PullSystem) : Prop where
  pulled : ∀ bcdId id, sys.service.Reads id bcdId → sys.service.agent.hashRecver bcdId = none →
    sys.Underway bcdId ∨ sys.Registered config bcdId
  refused : ∀ id rpl, .reply rpl ∈ sys.service.log id → rpl.code = .alter → rpl.bcdId ∈ sys.refused
  passes : ∀ bcdId msgs, sys.service.agent.c2i = .pullReject bcdId :: msgs → ∃ next, sys.service.takeC2i = .ok next

section Queues

variable {config : ReceiverConfig} {agent next : ReceiverAgent}

theorem ReceiverAgent.insertMsg_queueOf {fdsP : Option Nat} {msg : QueuedMsg}
    (inserted : agent.insertMsg fdsP msg = .ok next) (key : Nat) :
    next.queueOf key = agent.queueOf key ++ if fdsP = some key then [msg] else [] := by
  unfold insertMsg at inserted
  split at inserted
  · cases inserted
  · next target =>
      split_ifs at inserted with live
      obtain rfl := Except.ok.inj inserted
      unfold queueOf
      dsimp only
      rw [List.find?_map]
      have same : ((fun fds : FdState => decide (fds.key = key)) ∘ fun fds =>
          if fds.key = target then { fds with sendQueue := fds.sendQueue ++ [msg] } else fds) =
          fun fds => decide (fds.key = key) := by
        funext fds
        simp only [Function.comp_apply]
        split_ifs <;> rfl
      rw [same]
      cases found : agent.rsockList.find? fun fds => fds.key = key with
      | none =>
          have absent : some target ≠ some key := by
            rintro equal
            obtain rfl := Option.some.inj equal
            obtain ⟨fds, member, named⟩ := live
            exact absurd (decide_eq_true named) (List.find?_eq_none.mp found fds member)
          rw [if_neg absent]
          rfl
      | some fds =>
          have named : fds.key = key := by simpa using List.find?_some found
          simp only [Option.map_some, Option.getD_some, named]
          by_cases equal : key = target
          · rw [if_pos equal, if_pos (congrArg some equal.symm)]
          · rw [if_neg equal, if_neg fun wrong => equal (Option.some.inj wrong).symm, List.append_nil]

theorem ReceiverAgent.insertMsgs_queueOf {fdsP : Option Nat} {msgs : List QueuedMsg}
    (inserted : agent.insertMsgs fdsP msgs = .ok next) (key : Nat) :
    next.queueOf key = agent.queueOf key ++ if fdsP = some key then msgs else [] := by
  induction msgs generalizing agent with
  | nil =>
      obtain rfl := Except.ok.inj inserted
      rw [ite_self, List.append_nil]
  | cons msg msgs ih =>
      rw [insertMsgs] at inserted
      split at inserted
      · cases inserted
      · next middle first =>
          rw [ih inserted, insertMsg_queueOf first, List.append_assoc]
          congr 1
          split_ifs
          · rfl
          · rfl

/-- A new connection has an empty queue. -/
theorem ReceiverAgent.connectMaster_queueOf (agent : ReceiverAgent) (ipAddress key : Nat) :
    (agent.connectMaster ipAddress).queueOf key = agent.queueOf key := by
  unfold connectMaster
  split
  · rfl
  · unfold queueOf
    rw [List.find?_append]
    cases agent.rsockList.find? fun fds => fds.key = key with
    | some fds => rfl
    | none =>
        by_cases named : agent.nextKey = key
        · simp [named]
        · simp [named]

theorem ReceiverAgent.live_of_queueOf {key : Nat} {msg : QueuedMsg} (member : msg ∈ agent.queueOf key) :
    agent.Live key := by
  unfold queueOf at member
  cases found : agent.rsockList.find? fun fds => fds.key = key with
  | none =>
      rw [found] at member
      cases member
  | some fds => exact ⟨fds, List.mem_of_find?_eq_some found, by simpa using List.find?_some found⟩

end Queues

/-- A step that forgets no pull and no rejection and adds none. -/
structure ReceiverAgent.Extends (agent next : ReceiverAgent) : Prop where
  queues : ∀ key, ∃ added, next.queueOf key = agent.queueOf key ++ added ∧ ∀ bcdId, .pull bcdId ∉ added
  live : ∀ key, agent.Live key → next.Live key
  entries : ∀ bcdId, next.hashRecver bcdId = none → agent.hashRecver bcdId = none
  apps : agent.hashApp ⊆ next.hashApp
  rejections : ∀ bcdId, .pullReject bcdId ∈ next.c2i ↔ .pullReject bcdId ∈ agent.c2i
  pulls : next.i2c = agent.i2c

section Frames

variable {config : ReceiverConfig} {agent next : ReceiverAgent}

theorem ReceiverAgent.Extends.refl (agent : ReceiverAgent) : agent.Extends agent :=
  ⟨fun _ => ⟨[], (List.append_nil _).symm, fun _ => List.not_mem_nil⟩, fun _ => id, fun _ => id, Finset.Subset.refl _,
    fun _ => Iff.rfl, rfl⟩

theorem ReceiverAgent.store_none {bcdId other : BcdID} {entry : RecverEntry}
    (absent : (agent.store bcdId entry).hashRecver other = none) : agent.hashRecver other = none := by
  by_cases same : other = bcdId
  · rw [same, store_self] at absent
    cases absent
  · rwa [store_other same] at absent

/-- Reports to the service thread and to the master are no rejections and no pulls. -/
theorem ReceiverAgent.Extends.reports {middle : ReceiverAgent} (extends_ : agent.Extends middle) {fdsP : Option Nat}
    {toService : List C2iMsg} {toMaster : List ToMasterMsg}
    (inserted : { middle with c2i := middle.c2i ++ toService.map ServiceMsg.report }.insertMsgs fdsP
      (toMaster.map QueuedMsg.report) = .ok next) : agent.Extends next := by
  obtain ⟨same, live⟩ := insertMsgs_ok inserted
  constructor
  · intro key
    obtain ⟨added, queue, none⟩ := extends_.queues key
    refine ⟨added ++ if fdsP = some key then toMaster.map QueuedMsg.report else [], ?_, ?_⟩
    · rw [insertMsgs_queueOf inserted, ← List.append_assoc, ← queue]
      rfl
    · intro bcdId member
      rcases List.mem_append.mp member with before | report
      · exact none bcdId before
      · split_ifs at report
        · obtain ⟨_, _, impossible⟩ := List.mem_map.mp report
          cases impossible
        · cases report
  · exact fun key before => (live key).mpr (extends_.live key before)
  · intro bcdId absent
    rw [same] at absent
    exact extends_.entries bcdId absent
  · rw [same]
    exact extends_.apps
  · intro bcdId
    rw [same, ← extends_.rejections bcdId]
    refine ⟨fun member => ?_, fun member => List.mem_append_left _ member⟩
    rcases List.mem_append.mp member with before | report
    · exact before
    · obtain ⟨_, _, impossible⟩ := List.mem_map.mp report
      cases impossible
  · rw [same]
    exact extends_.pulls

/-- The steps of the threads, but for the pulls and what comes from the master. -/
theorem receiverStep_extends {event : ReceiverEvent} (own : event.ofService = false) (other : event ≠ .takeI2c)
    (peer : ReadEvent.ofMaster (.thread event) = false) (taken : receiverStep config agent event = .ok next) :
    agent.Extends next := by
  have refl := ReceiverAgent.Extends.refl agent
  cases event with
  | intReq appId msgIntQ => cases own
  | i2cPull bcdId msgIntQ => cases own
  | takeC2i => cases own
  | takeI2c => exact absurd rfl other
  | pullReject key bcdId => cases peer
  | close key => cases peer
  | packet sourceIp bcdId seq opens =>
      obtain rfl := Except.ok.inj taken
      rcases agent.packet_cases config sourceIp bcdId seq opens with same | same | ⟨fds, -, -, -, same⟩
      · rw [same]
        exact refl
      · rw [same]
        exact ⟨refl.queues, refl.live, refl.entries, refl.apps, refl.rejections, rfl⟩
      · rw [same]
        exact ⟨refl.queues, refl.live, fun _ => ReceiverAgent.store_none, refl.apps, refl.rejections, rfl⟩
  | advance =>
      rcases ReceiverAgent.advance_cases taken with ⟨rfl, -⟩ | ⟨bcdId, key, seq, entry, -, -, rfl⟩ | ⟨rfl, -⟩ |
        ⟨bcdId, seq, entry, recv, msgs, -, -, -, -, rfl⟩
      · exact refl
      · exact ⟨refl.queues, refl.live, fun _ => ReceiverAgent.store_none, refl.apps, refl.rejections, rfl⟩
      · exact ⟨refl.queues, refl.live, refl.entries, refl.apps, refl.rejections, rfl⟩
      · exact ⟨refl.queues, refl.live, fun _ => ReceiverAgent.store_none, refl.apps, refl.rejections, rfl⟩
  | takeN2c =>
      simp only [receiverStep, ReceiverAgent.takeN2c] at taken
      split at taken
      · exact Except.ok.inj taken ▸ refl
      · next msg msgs _ =>
          split at taken
          · cases taken
          · split at taken
            · cases taken
            · have dropped : agent.Extends { agent with n2c := msgs } :=
                ⟨refl.queues, refl.live, refl.entries, refl.apps, refl.rejections, rfl⟩
              exact dropped.reports taken
  | patchData key bcdId seq =>
      simp only [receiverStep, ReceiverAgent.patchData] at taken
      split_ifs at taken
      · split at taken
        · cases taken
        · split at taken
          · cases taken
          · next entry _ _ recv output _ =>
              have stored : agent.Extends (agent.store bcdId { entry with recv := recv }) :=
                ⟨refl.queues, refl.live, fun _ => ReceiverAgent.store_none, refl.apps, refl.rejections, rfl⟩
              exact stored.reports taken
      · exact Except.ok.inj taken ▸ refl
  | fastDone key bcdId =>
      simp only [receiverStep, ReceiverAgent.fastDone] at taken
      split_ifs at taken
      · split at taken
        · cases taken
        · next entry _ =>
            have stored : agent.Extends (agent.store bcdId { entry with recv := (msgFastDone entry.recv).1 }) :=
              ⟨refl.queues, refl.live, fun _ => ReceiverAgent.store_none, refl.apps, refl.rejections, rfl⟩
            refine @ReceiverAgent.Extends.reports agent next _ stored (some key) []
              ((msgFastDone entry.recv).2.toList.map (ToMasterMsg.patchReq bcdId)) ?_
            rw [List.map_map, List.map_nil, List.append_nil]
            exact taken
      · exact Except.ok.inj taken ▸ refl

/-- The oldest pull moves from the pipe to the end of a queue. -/
theorem ReceiverAgent.takeI2c_pulls (taken : agent.takeI2c = .ok next) :
    next = agent ∨ ∃ bcdId msgIntQ target, agent.i2c = (bcdId, msgIntQ) :: next.i2c ∧
      (∀ key, next.queueOf key = agent.queueOf key ++ if target = key then [.pull bcdId] else []) ∧
      (∀ key, agent.Live key → next.Live key) ∧ next.hashRecver = agent.hashRecver ∧
      next.hashApp = agent.hashApp ∧ next.c2i = agent.c2i := by
  unfold takeI2c at taken
  split at taken
  · exact .inl (Except.ok.inj taken).symm
  · next bcdId msgIntQ pulls first =>
      right
      obtain ⟨same, live⟩ := insertMsg_ok taken
      obtain ⟨connected, alive⟩ := connectMaster_eq { agent with i2c := pulls } msgIntQ.masterAddr
      have grown := insertMsg_queueOf taken
      cases found : ({ agent with i2c := pulls }.connectMaster msgIntQ.masterAddr).findSocket msgIntQ.masterAddr with
      | none =>
          dsimp only at taken
          rw [found] at taken
          cases taken
      | some fds =>
          rw [found, Option.map_some] at grown
          rw [connected] at same
          refine ⟨bcdId, msgIntQ, fds.key, ?_, ?_, fun key before => (live key).mpr (alive key before), ?_, ?_, ?_⟩
          · rw [first, same]
          · intro key
            rw [grown, connectMaster_queueOf]
            by_cases equal : fds.key = key
            · rw [if_pos equal, if_pos (congrArg some equal)]
              rfl
            · rw [if_neg equal, if_neg fun wrong => equal (Option.some.inj wrong)]
              rfl
          · rw [same]
          · rw [same]
          · rw [same]

theorem ReceiverAgent.intReq_extends (config : ReceiverConfig) (agent : ReceiverAgent) (appId : AppID)
    (msgIntQ : MsgIntQ) : agent.Extends (agent.intReq config appId msgIntQ) ∧
      appId ∈ (agent.intReq config appId msgIntQ).hashApp := by
  obtain ⟨same, live⟩ := intReq_eq config agent appId msgIntQ
  have queues (key : Nat) : (agent.intReq config appId msgIntQ).queueOf key = agent.queueOf key := by
    unfold intReq
    split_ifs
    · exact agent.connectMaster_queueOf msgIntQ.masterAddr key
    · rfl
  refine ⟨⟨fun key => ⟨[], ?_, fun _ => List.not_mem_nil⟩, live, ?_, ?_, ?_, ?_⟩, ?_⟩
  · rw [queues, List.append_nil]
  · intro bcdId absent
    rwa [same] at absent
  · rw [same]
    exact Finset.subset_insert _ _
  · intro bcdId
    rw [same]
  · rw [same]
  · rw [same]
    exact Finset.mem_insert_self _ _

end Frames

/-- The rejections come back on open connections, and only to applications of the host. -/
structure PullSystem.Sound (config : ReadConfig) (sys : PullSystem) : Prop where
  consistent : sys.service.Consistent config
  handled : ∀ key, sys.handled key ≤ (sys.service.agent.queueOf key).length
  rejects : ∀ key, sys.rejects key ≠ [] → sys.service.agent.Live key
  pulled : ∀ bcdId id, sys.service.Reads id bcdId → sys.service.agent.hashRecver bcdId = none →
    sys.Underway bcdId ∨ sys.Registered config bcdId
  known : ∀ bcdId, sys.Underway bcdId → bcdId.appId ∈ sys.service.agent.hashApp
  members : ∀ id ∈ sys.service.udsHash, config.appId ∈ sys.service.agent.hashApp
  returning : ∀ bcdId, (∃ key, bcdId ∈ sys.rejects key) ∨ .pullReject bcdId ∈ sys.service.agent.c2i →
    bcdId ∈ sys.refused
  refused : ∀ id rpl, .reply rpl ∈ sys.service.log id → rpl.code = .alter → rpl.bcdId ∈ sys.refused

section Steps

variable {config : ReadConfig} {sys next : PullSystem} {service : ReadService}

theorem PullSystem.initial_sound (config : ReadConfig) : PullSystem.initial.Sound config where
  consistent := ReadService.initial_consistent config
  handled _ := Nat.zero_le _
  rejects _ some := absurd rfl some
  pulled _ _ reads := Bool.noConfusion reads.1
  known bcdId underway := by
    rcases underway with ⟨_, absent⟩ | ⟨_, absent⟩ | ⟨_, absent⟩ | absent
    · cases absent
    · cases absent
    · cases absent
    · cases absent
  members _ absent := absurd absent (Finset.notMem_empty _)
  returning _ absent := by
    rcases absent with ⟨_, absent⟩ | absent
    · cases absent
    · cases absent
  refused _ _ absent := absurd absent List.not_mem_nil

/-- A rejection for a known application is passed on. -/
theorem PullSystem.Sound.answers (sound : sys.Sound config) : sys.Answers config := by
  refine ⟨sound.pulled, sound.refused, fun bcdId msgs first => ?_⟩
  have known := sound.known bcdId (.inr (.inr (.inr (by rw [first]; exact List.mem_cons_self))))
  unfold ReadService.takeC2i
  rw [first]
  exact ⟨_, if_pos known⟩

/-- Pulls that were not handled stay in the queue. -/
theorem PullSystem.drop_queueOf {agent next : ReceiverAgent} {key count : Nat} {added : List QueuedMsg}
    (queue : next.queueOf key = agent.queueOf key ++ added) (handled : count ≤ (agent.queueOf key).length) :
    (next.queueOf key).drop count = (agent.queueOf key).drop count ++ added := by
  rw [queue, List.drop_append_of_le_length handled]

theorem PullSystem.Sound.underway_iff (sound : sys.Sound config)
    (extends_ : sys.service.agent.Extends service.agent) (bcdId : BcdID) :
    PullSystem.Underway { sys with service := service } bcdId ↔ sys.Underway bcdId := by
  unfold PullSystem.Underway
  dsimp only
  rw [extends_.pulls, extends_.rejections bcdId]
  have queues (key : Nat) : .pull bcdId ∈ (service.agent.queueOf key).drop (sys.handled key) ↔
      .pull bcdId ∈ (sys.service.agent.queueOf key).drop (sys.handled key) := by
    obtain ⟨added, queue, none⟩ := extends_.queues key
    rw [PullSystem.drop_queueOf queue (sound.handled key), List.mem_append]
    exact or_iff_left (none bcdId)
  simp only [queues]

/-- A step of the receiver host that forgets no pull and no rejection. -/
theorem PullSystem.Sound.move (sound : sys.Sound config) (consistent : service.Consistent config)
    (extends_ : sys.service.agent.Extends service.agent)
    (pulled : ∀ bcdId id, service.Reads id bcdId → service.agent.hashRecver bcdId = none →
      sys.service.Reads id bcdId)
    (members : ∀ id ∈ service.udsHash, config.appId ∈ service.agent.hashApp)
    (replies : ∀ id rpl, .reply rpl ∈ service.log id → rpl.code = .alter → .reply rpl ∈ sys.service.log id) :
    PullSystem.Sound config { sys with service := service } where
  consistent := consistent
  handled key := by
    obtain ⟨added, queue, -⟩ := extends_.queues key
    show _ ≤ (service.agent.queueOf key).length
    rw [queue, List.length_append]
    exact (sound.handled key).trans (Nat.le_add_right _ _)
  rejects key some := extends_.live key (sound.rejects key some)
  pulled bcdId id reads absent := by
    rw [sound.underway_iff extends_]
    exact sound.pulled bcdId id (pulled bcdId id reads absent) (extends_.entries bcdId absent)
  known bcdId underway := extends_.apps (sound.known bcdId ((sound.underway_iff extends_ bcdId).mp underway))
  members := members
  returning bcdId back := sound.returning bcdId (back.imp_right (extends_.rejections bcdId).mp)
  refused id rpl member alter := sound.refused id rpl (replies id rpl member alter) alter

/-- The oldest pull moves into the queue of its connection. -/
theorem PullSystem.Sound.takeI2c (sound : sys.Sound config) {agent : ReceiverAgent}
    (taken : sys.service.agent.takeI2c = .ok agent)
    (consistent : ReadService.Consistent config { sys.service with agent := agent }) :
    PullSystem.Sound config { sys with service := { sys.service with agent := agent } } := by
  rcases ReceiverAgent.takeI2c_pulls taken with rfl | ⟨oldest, msgIntQ, target, pipe, queues, live, entries, apps, c2i⟩
  · exact sound
  have drops (key : Nat) : (agent.queueOf key).drop (sys.handled key) =
      (sys.service.agent.queueOf key).drop (sys.handled key) ++ if target = key then [.pull oldest] else [] :=
    PullSystem.drop_queueOf (queues key) (sound.handled key)
  have underway (bcdId : BcdID) :
      PullSystem.Underway { sys with service := { sys.service with agent := agent } } bcdId ↔ sys.Underway bcdId := by
    unfold PullSystem.Underway
    dsimp only
    rw [pipe, c2i]
    simp only [drops, List.mem_append, List.mem_cons]
    constructor
    · rintro (⟨pulling, later⟩ | ⟨key, before | moved⟩ | rest)
      · exact .inl ⟨pulling, .inr later⟩
      · exact .inr (.inl ⟨key, before⟩)
      · split_ifs at moved
        · obtain rfl := QueuedMsg.pull.inj (List.mem_singleton.mp moved)
          exact .inl ⟨msgIntQ, .inl rfl⟩
        · cases moved
      · exact .inr (.inr rest)
    · rintro (⟨pulling, first | later⟩ | ⟨key, before⟩ | rest)
      · obtain ⟨rfl, -⟩ := Prod.mk.inj first
        refine .inr (.inl ⟨target, .inr ?_⟩)
        rw [if_pos rfl]
        exact List.mem_singleton_self _
      · exact .inl ⟨pulling, later⟩
      · exact .inr (.inl ⟨key, .inl before⟩)
      · exact .inr (.inr rest)
  constructor
  · exact consistent
  · intro key
    show _ ≤ (agent.queueOf key).length
    rw [queues, List.length_append]
    exact (sound.handled key).trans (Nat.le_add_right _ _)
  · exact fun key some => live key (sound.rejects key some)
  · intro bcdId id reads absent
    rw [underway]
    exact sound.pulled bcdId id reads (entries ▸ absent)
  · intro bcdId way
    show _ ∈ agent.hashApp
    rw [apps]
    exact sound.known bcdId ((underway bcdId).mp way)
  · intro id member
    show _ ∈ agent.hashApp
    rw [apps]
    exact sound.members id member
  · intro bcdId back
    dsimp only at back
    rw [c2i] at back
    exact sound.returning bcdId back
  · exact sound.refused

/-- Every reply of a notification is the same one. -/
theorem ReadService.notify_reply {bcdId : BcdID} {rpl new : MsgReadRpl} {id : Nat}
    (member : .reply rpl ∈ (service.notify bcdId new).log id) : .reply rpl ∈ service.log id ∨ rpl = new := by
  by_cases answered : id ∈ service.udsHash ∧ service.Reads id bcdId
  · rw [(ReadService.notify_answered answered).2] at member
    rcases List.mem_append.mp member with before | last
    · exact .inl before
    · exact .inr (ReadMsg.reply.inj (List.mem_singleton.mp last))
  · rw [(ReadService.notify_left new answered).2] at member
    exact .inl member

/-- A rejection answers the executors that read its broadcast. -/
theorem PullSystem.Sound.rejected (sound : sys.Sound config) {bcdId : BcdID} {msgs : List ServiceMsg}
    (first : sys.service.agent.c2i = .pullReject bcdId :: msgs)
    (consistent : (({ sys.service with agent := { sys.service.agent with c2i := msgs } } : ReadService).notify bcdId
      (.alter bcdId)).Consistent config) :
    PullSystem.Sound config { sys with
      service := ({ sys.service with agent := { sys.service.agent with c2i := msgs } } : ReadService).notify bcdId
        (.alter bcdId) } := by
  generalize shorter : ({ sys.service with agent := { sys.service.agent with c2i := msgs } } : ReadService) = taken at *
  have refused : bcdId ∈ sys.refused := sound.returning bcdId (.inr (by rw [first]; exact List.mem_cons_self))
  have less (other : BcdID) (underway : PullSystem.Underway
      { sys with service := taken.notify bcdId (.alter bcdId) } other) : sys.Underway other := by
    subst shorter
    refine Or.imp_right (Or.imp_right (Or.imp_right fun back => ?_)) underway
    rw [first]
    exact List.mem_cons_of_mem _ back
  have registered (id : Nat) (busy : taken.reading id = true) : id ∈ taken.udsHash := by
    subst shorter
    exact (sound.consistent.opened id busy).1
  constructor
  · exact consistent
  · subst shorter
    exact sound.handled
  · subst shorter
    exact sound.rejects
  · intro other id reads absent
    obtain ⟨before, different⟩ := (ReadService.notify_reads (registered id)).mp reads
    subst shorter
    refine (sound.pulled other id before absent).imp_left fun underway => ?_
    refine Or.imp_right (Or.imp_right (Or.imp_right fun back => ?_)) underway
    rw [first] at back
    rcases List.mem_cons.mp back with same | later
    · exact absurd (ServiceMsg.pullReject.inj same) different
    · exact later
  · intro other underway
    have known := sound.known other (less other underway)
    subst shorter
    exact known
  · subst shorter
    exact sound.members
  · intro other back
    subst shorter
    refine sound.returning other (back.imp_right fun later => ?_)
    rw [first]
    exact List.mem_cons_of_mem _ later
  · intro id rpl member alter
    rcases ReadService.notify_reply member with before | rfl
    · subst shorter
      exact sound.refused id rpl before alter
    · exact refused

/-- A report answers the executors that read its broadcast with the file. -/
theorem PullSystem.Sound.reported (sound : sys.Sound config) {bcdId : BcdID} {msg : C2iMsg} {msgs : List ServiceMsg}
    {recv : RecverState} (first : sys.service.agent.c2i = .report msg :: msgs)
    (consistent : (({ sys.service with agent := { sys.service.agent with c2i := msgs } } : ReadService).notify bcdId
      (.success recv)).Consistent config) :
    PullSystem.Sound config { sys with
      service := ({ sys.service with agent := { sys.service.agent with c2i := msgs } } : ReadService).notify bcdId
        (.success recv) } := by
  have refl := ReceiverAgent.Extends.refl sys.service.agent
  have extends_ : sys.service.agent.Extends { sys.service.agent with c2i := msgs } := by
    refine ⟨refl.queues, refl.live, refl.entries, refl.apps, fun other => ?_, rfl⟩
    rw [first, List.mem_cons]
    exact (or_iff_right (fun same => by cases same)).symm
  refine sound.move consistent extends_ ?_ sound.members ?_
  · intro other id reads _
    have registered (busy : sys.service.reading id = true) : id ∈ sys.service.udsHash :=
      (sound.consistent.opened id busy).1
    exact ((ReadService.notify_reads (by exact registered)).mp reads).1
  · intro id rpl member alter
    rcases ReadService.notify_reply member with before | rfl
    · exact before
    · cases alter

theorem PullSystem.Sound.takeC2i (sound : sys.Sound config) (taken : sys.service.takeC2i = .ok service) :
    PullSystem.Sound config { sys with service := service } := by
  have consistent := sound.consistent.takeC2i taken
  unfold ReadService.takeC2i at taken
  split at taken
  · exact Except.ok.inj taken ▸ sound
  · next msg msgs first =>
      dsimp only at taken
      split at taken
      · split_ifs at taken
        obtain rfl := Except.ok.inj taken
        exact sound.rejected first consistent
      · split at taken
        · cases taken
        · split_ifs at taken
          obtain rfl := Except.ok.inj taken
          exact sound.reported first consistent
      · split at taken
        · cases taken
        · split_ifs at taken
          obtain rfl := Except.ok.inj taken
          exact sound.reported first consistent

/-- An executor reads what it asks for. -/
theorem ReadService.markReading_reads {bcdId other : BcdID} {id reader : Nat} (different : other ≠ bcdId)
    (reads : (service.markReading id bcdId).Reads reader other) : service.Reads reader other := by
  unfold ReadService.Reads ReadService.markReading at reads
  dsimp only at reads
  by_cases same : reader = id
  · subst same
    rw [Function.update_self, Function.update_self] at reads
    exact absurd reads.2.symm different
  · rwa [Function.update_of_ne same, Function.update_of_ne same] at reads

theorem ReadService.markReading_log {bcdId : BcdID} {id reader : Nat} {rpl : MsgReadRpl}
    (member : .reply rpl ∈ (service.markReading id bcdId).log reader) : .reply rpl ∈ service.log reader := by
  unfold ReadService.markReading at member
  dsimp only at member
  by_cases same : reader = id
  · subst same
    rw [Function.update_self] at member
    exact (List.mem_append.mp member).resolve_right fun new => by cases List.mem_singleton.mp new
  · rwa [Function.update_of_ne same] at member

theorem ReadService.reply_reads {rpl : MsgReadRpl} {id reader : Nat} {other : BcdID}
    (reads : (service.reply id rpl).Reads reader other) : service.Reads reader other := by
  unfold ReadService.Reads ReadService.reply at reads
  dsimp only at reads
  by_cases same : reader = id
  · rw [same, Function.update_self] at reads
    cases reads.1
  · rwa [Function.update_of_ne same] at reads

theorem ReadService.reply_reply {rpl new : MsgReadRpl} {id reader : Nat}
    (member : .reply rpl ∈ (service.reply id new).log reader) : .reply rpl ∈ service.log reader ∨ rpl = new := by
  unfold ReadService.reply at member
  dsimp only at member
  by_cases same : reader = id
  · subst same
    rw [Function.update_self] at member
    refine (List.mem_append.mp member).imp_right fun last => ?_
    exact ReadMsg.reply.inj (List.mem_singleton.mp last)
  · rw [Function.update_of_ne same] at member
    exact .inl member

/-- A request for an unknown broadcast sends a pull. -/
theorem PullSystem.Sound.pull (sound : sys.Sound config) {bcdId : BcdID} {id : Nat} {msgIntQ : MsgIntQ}
    (app : bcdId.appId ∈ sys.service.agent.hashApp)
    (consistent : ReadService.Consistent config { sys.service.markReading id bcdId with
      agent := { sys.service.agent with i2c := sys.service.agent.i2c ++ [(bcdId, msgIntQ)] } }) :
    PullSystem.Sound config { sys with service := { sys.service.markReading id bcdId with
      agent := { sys.service.agent with i2c := sys.service.agent.i2c ++ [(bcdId, msgIntQ)] } } } := by
  have more (other : BcdID) (underway : sys.Underway other) : PullSystem.Underway { sys with
      service := { sys.service.markReading id bcdId with
        agent := { sys.service.agent with i2c := sys.service.agent.i2c ++ [(bcdId, msgIntQ)] } } } other := by
    refine Or.imp_left ?_ underway
    rintro ⟨asked, member⟩
    exact ⟨asked, List.mem_append_left _ member⟩
  constructor
  · exact consistent
  · exact sound.handled
  · exact sound.rejects
  · intro other reader reads absent
    by_cases same : other = bcdId
    · subst same
      exact .inl (.inl ⟨msgIntQ, List.mem_append_right _ (List.mem_singleton_self _)⟩)
    · exact (sound.pulled other reader (ReadService.markReading_reads same reads) absent).imp_left (more other)
  · rintro other (⟨asked, member⟩ | rest)
    · rcases List.mem_append.mp member with before | new
      · exact sound.known other (.inl ⟨asked, before⟩)
      · obtain ⟨rfl, -⟩ := Prod.mk.inj (List.mem_singleton.mp new)
        exact app
    · exact sound.known other (.inr rest)
  · exact sound.members
  · exact sound.returning
  · exact fun reader rpl member => sound.refused reader rpl (ReadService.markReading_log member)

theorem PullSystem.Sound.readReq (sound : sys.Sound config) {id : Nat} {dataId : UInt64}
    (taken : sys.service.readReq config id dataId = .ok service) :
    PullSystem.Sound config { sys with service := service } := by
  have consistent := sound.consistent.readReq taken
  have refl := ReceiverAgent.Extends.refl sys.service.agent
  unfold ReadService.readReq at taken
  split_ifs at taken with sends master
  · dsimp only at taken
    split at taken
    · next entry found =>
        have known (other : BcdID) (absent : sys.service.agent.hashRecver other = none) :
            other ≠ ⟨config.appId.msb, config.appId.lsb, dataId⟩ := by
          rintro rfl
          rw [found] at absent
          cases absent
        split_ifs at taken
        · obtain rfl := Except.ok.inj taken
          refine sound.move consistent refl ?_ sound.members ?_
          · exact fun other reader reads absent =>
              ReadService.markReading_reads (known other absent) (ReadService.reply_reads reads)
          · intro reader rpl member alter
            rcases ReadService.reply_reply member with before | rfl
            · exact ReadService.markReading_log before
            · cases alter
        · obtain rfl := Except.ok.inj taken
          refine sound.move consistent refl ?_ sound.members ?_
          · exact fun other reader reads absent => ReadService.markReading_reads (known other absent) reads
          · exact fun reader rpl member _ => ReadService.markReading_log member
    · obtain rfl := Except.ok.inj taken
      exact sound.pull (sound.members id sends.1) consistent
  · exact Except.ok.inj taken ▸ sound

/-- The steps of the receiver host. -/
theorem PullSystem.Sound.readStep (sound : sys.Sound config) {event : ReadEvent} (own : event.ofMaster = false)
    (taken : RepublicAgent.readStep config sys.service event = .ok service) :
    PullSystem.Sound config { sys with service := service } := by
  have consistent := sound.consistent.step taken
  cases event with
  | intReq id executorId =>
      obtain rfl := Except.ok.inj taken
      obtain ⟨extends_, known⟩ := sys.service.agent.intReq_extends config.receiver config.appId
        ⟨executorId, config.masterAddr⟩
      exact sound.move consistent extends_ (fun _ _ reads _ => reads) (fun _ _ => known)
        fun _ _ member _ => member
  | readReq id dataId => exact sound.readReq taken
  | takeC2i => exact sound.takeC2i taken
  | thread event =>
      simp only [RepublicAgent.readStep] at taken
      split_ifs at taken with foreign
      · exact Except.ok.inj taken ▸ sound
      · split at taken
        · cases taken
        · next agent moved =>
            obtain rfl := Except.ok.inj taken
            by_cases pull : event = .takeI2c
            · subst pull
              exact sound.takeI2c moved consistent
            · have extends_ := receiverStep_extends (by simpa using foreign) pull own moved
              exact sound.move consistent extends_ (fun _ _ reads _ => reads)
                (fun id member => extends_.apps (sound.members id member)) fun _ _ member _ => member

/-- The master rejects only what it was asked for, and only hosts that are no receivers. -/
theorem masterHandler_some {hashMulticast : BcdID → Option (Finset Nat)} {hostAddr : Nat} {msg : QueuedMsg}
    {rejections : List BcdID} (handled : masterHandler hashMulticast hostAddr msg = some rejections) :
    (∀ bcdId ∈ rejections, msg = .pull bcdId) ∧ ∀ bcdId, msg = .pull bcdId → bcdId ∈ rejections ∨
      ∃ receivers, hashMulticast bcdId = some receivers ∧ hostAddr ∈ receivers := by
  unfold masterHandler at handled
  split at handled
  · cases handled
  · next receivers found =>
      cases msg with
      | report msg =>
          obtain rfl := Option.some.inj handled
          exact ⟨fun _ absent => absurd absent List.not_mem_nil, fun _ impossible => by cases impossible⟩
      | pull asked =>
          obtain rfl := Option.some.inj handled
          split_ifs with member
          · refine ⟨fun _ absent => absurd absent List.not_mem_nil, fun bcdId same => ?_⟩
            obtain rfl := QueuedMsg.pull.inj same
            exact .inr ⟨receivers, found, member⟩
          · refine ⟨fun bcdId same => ?_, fun bcdId same => ?_⟩
            · rw [List.mem_singleton.mp same]
            · obtain rfl := QueuedMsg.pull.inj same
              exact .inl (List.mem_singleton_self _)

/-- The message that the master takes leaves the queue, and its rejections are on their way back. -/
theorem PullSystem.Sound.handle (sound : sys.Sound config) {key : Nat} {msg : QueuedMsg} {rejections : List BcdID}
    (first : (sys.service.agent.queueOf key)[sys.handled key]? = some msg)
    (handled : masterHandler sys.hashMulticast config.receiver.hostAddr msg = some rejections) :
    PullSystem.Sound config { sys with
      handled := Function.update sys.handled key (sys.handled key + 1)
      rejects := Function.update sys.rejects key (sys.rejects key ++ rejections)
      refused := sys.refused ++ rejections } := by
  obtain ⟨inside, same⟩ := List.getElem?_eq_some_iff.mp first
  obtain ⟨asked, answered⟩ := masterHandler_some handled
  have queue : (sys.service.agent.queueOf key).drop (sys.handled key) =
      msg :: (sys.service.agent.queueOf key).drop (sys.handled key + 1) := by
    rw [List.drop_eq_getElem_cons inside, same]
  have pulls (bcdId : BcdID) (rejected : bcdId ∈ rejections) : sys.Underway bcdId := by
    refine .inr (.inl ⟨key, ?_⟩)
    rw [queue, asked bcdId rejected]
    exact List.mem_cons_self
  have live : sys.service.agent.Live key := ReceiverAgent.live_of_queueOf (same ▸ List.getElem_mem inside)
  have later (other : Nat) (bcdId : BcdID) (back : bcdId ∈ sys.rejects other) :
      bcdId ∈ Function.update sys.rejects key (sys.rejects key ++ rejections) other := by
    by_cases equal : other = key
    · subst equal
      rw [Function.update_self]
      exact List.mem_append_left _ back
    · rwa [Function.update_of_ne equal]
  have earlier (other : Nat) (bcdId : BcdID)
      (back : bcdId ∈ Function.update sys.rejects key (sys.rejects key ++ rejections) other) :
      bcdId ∈ sys.rejects other ∨ bcdId ∈ rejections := by
    by_cases equal : other = key
    · subst equal
      rw [Function.update_self] at back
      exact List.mem_append.mp back
    · rw [Function.update_of_ne equal] at back
      exact .inl back
  constructor
  · exact sound.consistent
  · intro other
    dsimp only
    by_cases equal : other = key
    · subst equal
      rw [Function.update_self]
      exact inside
    · rw [Function.update_of_ne equal]
      exact sound.handled other
  · intro other some
    dsimp only at some
    by_cases equal : other = key
    · exact equal ▸ live
    · rw [Function.update_of_ne equal] at some
      exact sound.rejects other some
  · intro bcdId id reads absent
    rcases sound.pulled bcdId id reads absent with (piped | ⟨other, waiting⟩ | ⟨other, back⟩ | reported) | registered
    · exact .inl (.inl piped)
    · by_cases equal : other = key
      · subst equal
        rw [queue] at waiting
        rcases List.mem_cons.mp waiting with taken | behind
        · rcases answered bcdId taken.symm with rejected | registered
          · refine .inl (.inr (.inr (.inl ⟨other, ?_⟩)))
            dsimp only
            rw [Function.update_self]
            exact List.mem_append_right _ rejected
          · exact .inr registered
        · refine .inl (.inr (.inl ⟨other, ?_⟩))
          dsimp only
          rwa [Function.update_self]
      · refine .inl (.inr (.inl ⟨other, ?_⟩))
        dsimp only
        rwa [Function.update_of_ne equal]
    · exact .inl (.inr (.inr (.inl ⟨other, later other bcdId back⟩)))
    · exact .inl (.inr (.inr (.inr reported)))
    · exact .inr registered
  · rintro bcdId (piped | ⟨other, waiting⟩ | ⟨other, back⟩ | reported)
    · exact sound.known bcdId (.inl piped)
    · refine sound.known bcdId (.inr (.inl ⟨other, ?_⟩))
      dsimp only at waiting
      by_cases equal : other = key
      · subst equal
        rw [Function.update_self] at waiting
        rw [queue]
        exact List.mem_cons_of_mem _ waiting
      · rwa [Function.update_of_ne equal] at waiting
    · rcases earlier other bcdId back with before | rejected
      · exact sound.known bcdId (.inr (.inr (.inl ⟨other, before⟩)))
      · exact sound.known bcdId (pulls bcdId rejected)
    · exact sound.known bcdId (.inr (.inr (.inr reported)))
  · exact sound.members
  · rintro bcdId (⟨other, back⟩ | reported)
    · rcases earlier other bcdId back with before | rejected
      · exact List.mem_append_left _ (sound.returning bcdId (.inl ⟨other, before⟩))
      · exact List.mem_append_right _ rejected
    · exact List.mem_append_left _ (sound.returning bcdId (.inr reported))
  · exact fun id rpl member alter => List.mem_append_left _ (sound.refused id rpl member alter)

theorem PullSystem.Sound.takeMaster (sound : sys.Sound config) (key : Nat) :
    (sys.takeMaster config key).Sound config := by
  unfold PullSystem.takeMaster
  split
  · exact sound
  · next msg first =>
      split_ifs
      · exact sound
      · split
        · exact ⟨sound.consistent, sound.handled, sound.rejects, sound.pulled, sound.known, sound.members,
            sound.returning, sound.refused⟩
        · next rejections handled => exact sound.handle first handled

/-- A rejection arrives on an open connection, so it goes to the service thread. -/
theorem PullSystem.Sound.takeReject (sound : sys.Sound config) (key : Nat) : (sys.takeReject key).Sound config := by
  unfold PullSystem.takeReject
  split
  · exact sound
  · next bcdId rest back =>
      have live : sys.service.agent.Live key := sound.rejects key (by rw [back]; exact List.cons_ne_nil _ _)
      have passed : sys.service.agent.pullReject key bcdId =
          { sys.service.agent with c2i := sys.service.agent.c2i ++ [.pullReject bcdId] } := if_pos live
      have moved : RepublicAgent.readStep config sys.service (.thread (.pullReject key bcdId)) =
          .ok { sys.service with agent := sys.service.agent.pullReject key bcdId } := rfl
      have consistent := sound.consistent.step moved
      rw [passed] at consistent ⊢
      have remain (other : Nat) (asked : BcdID) (member : asked ∈ Function.update sys.rejects key rest other) :
          asked ∈ sys.rejects other := by
        by_cases equal : other = key
        · subst equal
          rw [Function.update_self] at member
          rw [back]
          exact List.mem_cons_of_mem _ member
        · rwa [Function.update_of_ne equal] at member
      have split (other : Nat) (asked : BcdID) (member : asked ∈ sys.rejects other) :
          asked ∈ Function.update sys.rejects key rest other ∨ asked = bcdId := by
        by_cases equal : other = key
        · subst equal
          rw [back] at member
          rw [Function.update_self]
          exact (List.mem_cons.mp member).symm
        · rw [Function.update_of_ne equal]
          exact .inl member
      have taken : bcdId ∈ sys.rejects key := by
        rw [back]
        exact List.mem_cons_self
      constructor
      · exact consistent
      · exact sound.handled
      · intro other some
        by_cases equal : other = key
        · exact equal ▸ live
        · dsimp only at some
          rw [Function.update_of_ne equal] at some
          exact sound.rejects other some
      · intro asked id reads absent
        refine (sound.pulled asked id reads absent).imp_left ?_
        rintro (piped | waiting | ⟨other, member⟩ | reported)
        · exact .inl piped
        · exact .inr (.inl waiting)
        · rcases split other asked member with stays | rfl
          · exact .inr (.inr (.inl ⟨other, stays⟩))
          · exact .inr (.inr (.inr (List.mem_append_right _ (List.mem_singleton_self _))))
        · exact .inr (.inr (.inr (List.mem_append_left _ reported)))
      · rintro asked (piped | waiting | ⟨other, member⟩ | reported)
        · exact sound.known asked (.inl piped)
        · exact sound.known asked (.inr (.inl waiting))
        · exact sound.known asked (.inr (.inr (.inl ⟨other, remain other asked member⟩)))
        · rcases List.mem_append.mp reported with before | new
          · exact sound.known asked (.inr (.inr (.inr before)))
          · obtain rfl := ServiceMsg.pullReject.inj (List.mem_singleton.mp new)
            exact sound.known asked (.inr (.inr (.inl ⟨key, taken⟩)))
      · exact sound.members
      · rintro asked (⟨other, member⟩ | reported)
        · exact sound.returning asked (.inl ⟨other, remain other asked member⟩)
        · rcases List.mem_append.mp reported with before | new
          · exact sound.returning asked (.inr before)
          · obtain rfl := ServiceMsg.pullReject.inj (List.mem_singleton.mp new)
            exact sound.returning asked (.inl ⟨key, taken⟩)
      · exact sound.refused

/-- Receivers are never removed. -/
theorem PullSystem.Sound.grow (sound : sys.Sound config) {bcdId : BcdID} {receivers : Finset Nat}
    (grown : ∀ known, sys.hashMulticast bcdId = some known → known ⊆ receivers) :
    PullSystem.Sound config { sys with hashMulticast := Function.update sys.hashMulticast bcdId (some receivers) } := by
  refine ⟨sound.consistent, sound.handled, sound.rejects, fun asked id reads absent => ?_, sound.known, sound.members,
    sound.returning, sound.refused⟩
  refine (sound.pulled asked id reads absent).imp_right ?_
  rintro ⟨known, found, member⟩
  by_cases same : asked = bcdId
  · subst same
    exact ⟨receivers, Function.update_self .., grown known found member⟩
  · exact ⟨known, (Function.update_of_ne same ..).trans found, member⟩

theorem PullSystem.Sound.step (sound : sys.Sound config) {event : PullEvent}
    (taken : pullStep config sys event = .ok next) : next.Sound config := by
  cases event with
  | receiver event =>
      simp only [pullStep] at taken
      split_ifs at taken with peer
      · exact Except.ok.inj taken ▸ sound
      · split at taken
        · cases taken
        · next service moved =>
            obtain rfl := Except.ok.inj taken
            exact sound.readStep (by simpa using peer) moved
  | write bcdId =>
      simp only [pullStep] at taken
      split at taken
      · next absent =>
          obtain rfl := Except.ok.inj taken
          refine sound.grow fun known found => ?_
          rw [absent] at found
          cases found
      · exact Except.ok.inj taken ▸ sound
  | push bcdId receivers =>
      simp only [pullStep] at taken
      split at taken
      · exact Except.ok.inj taken ▸ sound
      · next before there =>
          obtain rfl := Except.ok.inj taken
          refine sound.grow fun known found => ?_
          obtain rfl := Option.some.inj (there.symm.trans found)
          exact Finset.subset_union_left
  | takeMaster key => exact Except.ok.inj taken ▸ sound.takeMaster key
  | takeReject key => exact Except.ok.inj taken ▸ sound.takeReject key

end Steps

/-- In every run an executor that reads an unknown broadcast has a pull or a rejection underway, unless its host is a
receiver of the broadcast. Executors are told to read in another way only when the master refused. -/
theorem pulls_answered (config : ReadConfig) (events : List PullEvent) :
    Throughout (pullStep config) (PullSystem.Answers config) PullSystem.initial events := by
  apply throughout_of_invariant (PullSystem.Sound config)
  · intro sys event next sound taken
    exact sound.step taken
  · intro sys sound
    exact sound.answers
  · exact PullSystem.initial_sound config

end RepublicAgent
