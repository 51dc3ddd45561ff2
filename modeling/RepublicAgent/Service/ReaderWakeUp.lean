/-
This file says that every read request is answered at most once, and that no executor is left reading a broadcast
that is received and announced.
-/

import RepublicAgent.Service.ReadNotify

namespace RepublicAgent
open Execution

/-- Every request in the messages of an executor has its reply. -/
inductive Answered : List ReadMsg → Prop
  | nil : Answered []
  | pair {log : List ReadMsg} {bcdId : BcdID} {rpl : MsgReadRpl} (before : Answered log) (same : rpl.bcdId = bcdId) :
      Answered (log ++ [.request bcdId, .reply rpl])

/-- Every request has at most one reply, and only the last one has none. -/
def AnsweredOnce (log : List ReadMsg) : Prop :=
  Answered log ∨ ∃ before bcdId, Answered before ∧ log = before ++ [.request bcdId]

/-- Every request is answered at most once. No executor reads a received broadcast without a notification in
the pipes. -/
structure ReadService.Served (service : ReadService) : Prop where
  once : ∀ id, AnsweredOnce (service.log id)
  awake : ∀ bcdId entry, service.agent.hashRecver bcdId = some entry → entry.recv.isFinished = true →
    (∀ seq, .seqFirst bcdId seq ∉ service.agent.n2c) → .seqAll bcdId ∉ service.agent.n2c →
    .report (.seqAll bcdId) ∉ service.agent.c2i → ∀ id, ¬ service.Reads id bcdId

/-- A notification about the broadcast is on its way to the service thread. -/
def ReceiverAgent.Notifies (config : ReceiverConfig) (agent : ReceiverAgent) (bcdId : BcdID) : Prop :=
  Announced (config.broadcast bcdId) agent.n2c ∨ .report (.seqAll bcdId) ∈ agent.c2i

section Notifications

variable {config : ReceiverConfig} {agent next : ReceiverAgent} {bcdId : BcdID}

/-- Longer pipes hold the same notifications. -/
theorem ReceiverAgent.Notifies.mono (notifies : agent.Notifies config bcdId)
    (n2c : ∀ msg ∈ agent.n2c, msg ∈ next.n2c) (c2i : ∀ msg ∈ agent.c2i, msg ∈ next.c2i) :
    next.Notifies config bcdId := by
  rcases notifies with (all | ⟨single, seq, first⟩) | report
  · exact .inl (.inl (n2c _ all))
  · exact .inl (.inr ⟨single, seq, n2c _ first⟩)
  · exact .inr (c2i _ report)

/-- The control thread turns a notification of the data channel thread into one for the service thread. -/
theorem ReceiverAgent.Notifies.takeN2c (notifies : agent.Notifies config bcdId) (regular : agent.Regular config)
    {entry : RecverEntry} (found : agent.hashRecver bcdId = some entry) (finished : entry.recv.isFinished = true)
    (taken : agent.takeN2c config = .ok next) : next.Notifies config bcdId := by
  rcases takeN2c_cases taken with ⟨rfl, _⟩ | ⟨msg, msgs, other, output, first, there, handled, same, _⟩
  · exact notifies
  · have named := config.named bcdId
    have size : entry.recv.seqMax = (config.broadcast bcdId).seqMax := by
      have sane := regular.entries bcdId entry found
      exact (sane.knows.learned (sane.done finished)).1
    have passed (report : .seqAll bcdId ∈ output.toService) : next.Notifies config bcdId := by
      rw [same]
      exact .inr (List.mem_append_right _ (List.mem_map_of_mem report))
    have kept (later : Announced (config.broadcast bcdId) msgs) : next.Notifies config bcdId := by
      rw [same]
      exact .inl later
    rcases notifies with announced | report
    · unfold Announced at announced
      rw [first, named] at announced
      rcases announced with all | ⟨single, seq, start⟩
      · rcases List.mem_cons.mp all with rfl | later
        · apply passed
          simp only [n2cHandler] at handled
          split_ifs at handled
          obtain rfl := Except.ok.inj handled
          exact List.mem_singleton_self _
        · exact kept (.inl (named.symm ▸ later))
      · rcases List.mem_cons.mp start with rfl | later
        · apply passed
          obtain rfl := Except.ok.inj handled
          have equal : other = entry := Option.some.inj (there.symm.trans found)
          rw [equal, if_pos (size.trans single)]
          exact List.mem_singleton_self _
        · exact kept (.inr ⟨single, seq, named.symm ▸ later⟩)
    · rw [same]
      exact .inr (List.mem_append_left _ report)

/-- A broadcast that is received after a step is notified, or it was received before and its notification is kept. -/
theorem ReceiverAgent.Regular.notifies (regular : agent.Regular config) {event : ReceiverEvent}
    (own : event.ofService = false) (taken : receiverStep config agent event = .ok next) {new : RecverEntry}
    (found : next.hashRecver bcdId = some new) (finished : new.recv.isFinished = true) :
    next.Notifies config bcdId ∨ ∃ old, agent.hashRecver bcdId = some old ∧ old.recv.isFinished = true ∧
      (agent.Notifies config bcdId → next.Notifies config bcdId) := by
  have unchanged (hashRecver : next.hashRecver = agent.hashRecver) (n2c : next.n2c = agent.n2c)
      (c2i : ∀ msg ∈ agent.c2i, msg ∈ next.c2i) : ∃ old, agent.hashRecver bcdId = some old ∧
        old.recv.isFinished = true ∧ (agent.Notifies config bcdId → next.Notifies config bcdId) :=
    ⟨new, hashRecver ▸ found, finished, fun before => before.mono (fun _ member => n2c ▸ member) c2i⟩
  cases event with
  | intReq appId msgIntQ => cases own
  | i2cPull other msgIntQ => cases own
  | takeC2i => cases own
  | packet sourceIp other seq opens =>
      right
      obtain rfl := Except.ok.inj taken
      rcases packet_cases config agent sourceIp other seq opens with left | begun |
        ⟨fds, _, absent, _, created⟩
      · rw [left] at found ⊢
        exact ⟨new, found, finished, id⟩
      · rw [begun] at found ⊢
        exact ⟨new, found, finished, fun before => before⟩
      · rw [created] at found ⊢
        by_cases same : bcdId = other
        · subst same
          rw [show _ = some _ from store_self _ _, Option.some.injEq] at found
          subst found
          cases finished
        · exact ⟨new, (store_other same _).symm.trans found, finished, fun before => before⟩
  | advance =>
      rcases advance_cases taken with ⟨rfl, _⟩ | ⟨other, key, seq, entry, _, there, rfl⟩ | ⟨rfl, _⟩ |
        ⟨other, seq, entry, recv, msgs, _, there, _, processed, rfl⟩
      · exact .inr ⟨new, found, finished, id⟩
      · right
        by_cases same : bcdId = other
        · subst same
          rw [show _ = some _ from store_self _ _, Option.some.injEq] at found
          subst found
          exact ⟨entry, there, finished, fun before => before⟩
        · exact ⟨new, (store_other same _).symm.trans found, finished, fun before => before⟩
      · exact .inr ⟨new, found, finished, fun before => before⟩
      · have longer : agent.Notifies config bcdId →
            ({ agent.store other { entry with recv := recv } with pc := .idle, n2c := agent.n2c ++ msgs } :
              ReceiverAgent).Notifies config bcdId :=
          fun before => before.mono (fun _ member => List.mem_append_left _ member) fun _ => id
        by_cases same : bcdId = other
        · subst same
          rw [show _ = some _ from store_self _ _, Option.some.injEq] at found
          subst found
          have inside := Nat.mod_lt seq (config.broadcast bcdId).seqMax_pos
          obtain ⟨_, _, _, announces⟩ := (regular.entries bcdId entry there).process inside processed
          cases before : entry.recv.isFinished with
          | true => exact .inr ⟨entry, there, before, longer⟩
          | false =>
              left
              rcases announces before finished with all | ⟨single, position, first⟩
              · exact .inl (.inl (List.mem_append_right _ all))
              · exact .inl (.inr ⟨single, position, List.mem_append_right _ first⟩)
        · exact .inr ⟨new, (store_other same _).symm.trans found, finished, longer⟩
  | takeN2c =>
      right
      have hashes : next.hashRecver = agent.hashRecver := by
        rcases takeN2c_cases taken with ⟨rfl, _⟩ | ⟨_, _, _, _, _, _, _, same, _⟩
        · rfl
        · rw [same]
      rw [hashes] at found
      exact ⟨new, found, finished, fun before => before.takeN2c regular found finished taken⟩
  | takeI2c =>
      right
      rcases takeI2c_cases taken with rfl | ⟨pull, pulls, _, same, _⟩
      · exact ⟨new, found, finished, id⟩
      · exact unchanged (by rw [same]) (by rw [same]) (by rw [same]; exact fun _ => id)
  | patchData key other seq =>
      rcases patchData_cases taken with rfl | ⟨entry, recv, output, there, handled, same, _⟩
      · exact .inr ⟨new, found, finished, id⟩
      · have longer (before : agent.Notifies config bcdId) : next.Notifies config bcdId := by
          rw [same]
          exact before.mono (fun _ => id) fun _ member => List.mem_append_left _ member
        have hashes : next.hashRecver = (agent.store other { entry with recv := recv }).hashRecver := by rw [same]
        rw [hashes] at found
        by_cases equal : bcdId = other
        · subst equal
          rw [store_self, Option.some.injEq] at found
          subst found
          have inside := Nat.mod_lt seq (config.broadcast bcdId).seqMax_pos
          obtain ⟨_, _, reports⟩ := (regular.entries bcdId entry there).patch inside handled
          cases before : entry.recv.isFinished with
          | true => exact .inr ⟨entry, there, before, longer⟩
          | false =>
              left
              have report := reports before finished
              rw [config.named] at report
              rw [same]
              exact .inr (List.mem_append_right _ (List.mem_map_of_mem report))
        · exact .inr ⟨new, (store_other equal _).symm.trans found, finished, longer⟩
  | fastDone key other =>
      right
      rcases fastDone_cases taken with rfl | ⟨entry, there, same, _⟩
      · exact ⟨new, found, finished, id⟩
      · have longer (before : agent.Notifies config bcdId) : next.Notifies config bcdId := by
          rw [same]
          exact before
        have hashes : next.hashRecver =
            (agent.store other { entry with recv := (msgFastDone entry.recv).1 }).hashRecver := by rw [same]
        rw [hashes] at found
        by_cases equal : bcdId = other
        · subst equal
          rw [store_self, Option.some.injEq] at found
          subst found
          have still := (regular.entries bcdId entry there).fastDone.2
          exact ⟨entry, there, still ▸ finished, longer⟩
        · exact ⟨new, (store_other equal _).symm.trans found, finished, longer⟩
  | pullReject key other =>
      right
      obtain rfl := Except.ok.inj taken
      unfold ReceiverAgent.pullReject at found ⊢
      split_ifs at found ⊢
      · exact ⟨new, found, finished,
          fun before => before.mono (fun _ => id) fun _ member => List.mem_append_left _ member⟩
      · exact ⟨new, found, finished, id⟩
  | close key =>
      obtain rfl := Except.ok.inj taken
      exact .inr ⟨new, found, finished, fun before => before⟩

end Notifications

/-- A reading executor is registered and has one open request, and every reader of a received broadcast has a
notification on its way. -/
structure ReadService.Consistent (config : ReadConfig) (service : ReadService) : Prop where
  regular : service.agent.Regular config.receiver
  settled : ∀ id, service.reading id = false → Answered (service.log id)
  opened : ∀ id, service.reading id = true → id ∈ service.udsHash ∧
    ∃ before, Answered before ∧ service.log id = before ++ [.request (service.bcdId id)]
  awake : ∀ bcdId entry id, service.agent.hashRecver bcdId = some entry → entry.recv.isFinished = true →
    service.Reads id bcdId → service.agent.Notifies config.receiver bcdId

theorem ReadService.initial_consistent (config : ReadConfig) : ReadService.initial.Consistent config where
  regular := ReceiverAgent.initial_regular config.receiver
  settled _ _ := .nil
  opened _ reading := by cases reading
  awake _ _ _ found := by cases found

section Services

variable {config : ReadConfig} {service next : ReadService}

/-- A consistent service leaves no reader behind. -/
theorem ReadService.Consistent.served (consistent : service.Consistent config) : service.Served where
  once id := by
    cases reading : service.reading id with
    | false => exact .inl (consistent.settled id reading)
    | true =>
        obtain ⟨_, before, answered, same⟩ := consistent.opened id reading
        exact .inr ⟨before, service.bcdId id, answered, same⟩
  awake bcdId entry found finished noFirst noAll noReport id reads := by
    have named := config.receiver.named bcdId
    rcases consistent.awake bcdId entry id found finished reads with (all | ⟨_, seq, first⟩) | report
    · exact noAll (named ▸ all)
    · exact noFirst seq (named ▸ first)
    · exact noReport report

/-- An executor reads as long as it waits. -/
theorem ReadService.Consistent.idle (consistent : service.Consistent config) {id : Nat}
    (free : Waits (service.log id) = false) : service.reading id = false := by
  cases reading : service.reading id with
  | false => rfl
  | true =>
      obtain ⟨_, before, _, same⟩ := consistent.opened id reading
      rw [same] at free
      simp [Waits] at free

/-- A step that leaves the executors keeps the service consistent when it keeps the notifications. -/
theorem ReadService.Consistent.same (consistent : service.Consistent config) {agent : ReceiverAgent}
    (regular : agent.Regular config.receiver)
    (notified : ∀ bcdId entry, agent.hashRecver bcdId = some entry → entry.recv.isFinished = true →
      agent.Notifies config.receiver bcdId ∨ ∃ old, service.agent.hashRecver bcdId = some old ∧
        old.recv.isFinished = true ∧
        (service.agent.Notifies config.receiver bcdId → agent.Notifies config.receiver bcdId)) :
    ({ service with agent := agent } : ReadService).Consistent config where
  regular := regular
  settled := consistent.settled
  opened := consistent.opened
  awake bcdId entry id found finished reads := by
    rcases notified bcdId entry found finished with now | ⟨old, there, before, kept⟩
    · exact now
    · exact kept (consistent.awake bcdId old id there before reads)

/-- The executors that read the broadcast are answered, and the others go on. -/
theorem ReadService.notify_reads {bcdId other : BcdID} {rpl : MsgReadRpl} {id : Nat}
    (registered : service.reading id = true → id ∈ service.udsHash) :
    (service.notify bcdId rpl).Reads id other ↔ service.Reads id other ∧ other ≠ bcdId := by
  unfold notify Reads
  by_cases reading : service.reading id = true
  · have member := registered reading
    by_cases same : service.bcdId id = bcdId
    · simp only [member, reading, same, and_self, if_true]
      exact ⟨fun impossible => absurd impossible.1 (by simp), fun wrong => absurd wrong.1.2.symm wrong.2⟩
    · simp only [member, reading, same, and_false, if_false, true_and]
      exact ⟨fun equal => ⟨equal, fun wrong => same (equal.trans wrong)⟩, fun both => both.1⟩
  · simp [reading]

/-- An executor that reads the broadcast gets the reply. -/
theorem ReadService.notify_answered {bcdId : BcdID} {rpl : MsgReadRpl} {id : Nat}
    (answered : id ∈ service.udsHash ∧ service.Reads id bcdId) :
    (service.notify bcdId rpl).reading id = false ∧
      (service.notify bcdId rpl).log id = service.log id ++ [.reply rpl] :=
  ⟨if_pos answered, if_pos answered⟩

/-- Another executor goes on. -/
theorem ReadService.notify_left {bcdId : BcdID} (rpl : MsgReadRpl) {id : Nat}
    (left : ¬ (id ∈ service.udsHash ∧ service.Reads id bcdId)) :
    (service.notify bcdId rpl).reading id = service.reading id ∧
      (service.notify bcdId rpl).log id = service.log id :=
  ⟨if_neg left, if_neg left⟩

/-- A notification answers every open request for the broadcast once. -/
theorem ReadService.Consistent.notify (consistent : service.Consistent config) {bcdId : BcdID} (rpl : MsgReadRpl)
    (same : rpl.bcdId = bcdId) {msg : ServiceMsg} {msgs : List ServiceMsg} (first : service.agent.c2i = msg :: msgs)
    (other : ∀ received, msg = .report (.seqAll received) → received = bcdId) :
    (({ service with agent := { service.agent with c2i := msgs } } : ReadService).notify bcdId rpl).Consistent
      config := by
  generalize shorter : ({ service with agent := { service.agent with c2i := msgs } } : ReadService) = taken
  have reading : taken.reading = service.reading := by rw [← shorter]
  have log : taken.log = service.log := by rw [← shorter]
  have target : taken.bcdId = service.bcdId := by rw [← shorter]
  have udsHash : taken.udsHash = service.udsHash := by rw [← shorter]
  constructor
  · subst shorter
    exact consistent.regular.same rfl (fun _ => id) rfl
  · intro id quiet
    by_cases answered : id ∈ taken.udsHash ∧ taken.Reads id bcdId
    · have busy : service.reading id = true := reading ▸ answered.2.1
      obtain ⟨_, before, closed, pending⟩ := consistent.opened id busy
      rw [(notify_answered answered).2, log, pending, List.append_assoc]
      exact closed.pair (same.trans (target ▸ answered.2.2).symm)
    · obtain ⟨still, kept⟩ := notify_left rpl answered
      rw [still, reading] at quiet
      rw [kept, log]
      exact consistent.settled id quiet
  · intro id busy
    by_cases answered : id ∈ taken.udsHash ∧ taken.Reads id bcdId
    · rw [(notify_answered answered).1] at busy
      cases busy
    · obtain ⟨still, kept⟩ := notify_left rpl answered
      rw [still, reading] at busy
      obtain ⟨registered, before, closed, pending⟩ := consistent.opened id busy
      rw [kept, log]
      exact ⟨udsHash.symm ▸ registered, before, closed, target.symm ▸ pending⟩
  · intro goal entry id found finished reads
    have registered (busy : taken.reading id = true) : id ∈ taken.udsHash :=
      udsHash.symm ▸ (consistent.opened id (reading ▸ busy)).1
    obtain ⟨busy, different⟩ := (notify_reads registered).mp reads
    subst shorter
    rcases consistent.awake goal entry id found finished busy with announced | report
    · exact .inl announced
    · rw [first] at report
      rcases List.mem_cons.mp report with equal | later
      · exact absurd (other goal equal.symm) different
      · exact .inr later

theorem ReadService.Consistent.takeC2i (consistent : service.Consistent config)
    (taken : service.takeC2i = .ok next) : next.Consistent config := by
  have success (bcdId : BcdID) (entry : RecverEntry) (found : service.agent.hashRecver bcdId = some entry) :
      (MsgReadRpl.success entry.recv).bcdId = bcdId :=
    (consistent.regular.entries bcdId entry found).knows.bcdId.trans (config.receiver.named bcdId)
  unfold ReadService.takeC2i at taken
  split at taken
  · exact Except.ok.inj taken ▸ consistent
  · next msg msgs first =>
      simp only at taken
      split at taken
      · next bcdId =>
          split_ifs at taken
          obtain rfl := Except.ok.inj taken
          exact consistent.notify (.alter bcdId) rfl first fun _ impossible => by cases impossible
      · next bcdId =>
          split at taken
          · cases taken
          · next entry found =>
              split_ifs at taken
              obtain rfl := Except.ok.inj taken
              exact consistent.notify _ (success bcdId entry found) first fun received equal => by cases equal; rfl
      · next bcdId =>
          split at taken
          · cases taken
          · next entry found =>
              split_ifs at taken
              obtain rfl := Except.ok.inj taken
              exact consistent.notify _ (success bcdId entry found) first fun _ impossible => by cases impossible

/-- A request of an executor that does not wait opens a new pair. -/
theorem ReadService.Consistent.markReading (consistent : service.Consistent config) {id : Nat} (bcdId : BcdID)
    (registered : id ∈ service.udsHash) (free : Waits (service.log id) = false)
    (unfinished : ∀ entry, service.agent.hashRecver bcdId = some entry → entry.recv.isFinished = false) :
    (service.markReading id bcdId).Consistent config where
  regular := consistent.regular
  settled other quiet := by
    simp only [ReadService.markReading] at quiet ⊢
    by_cases same : other = id
    · subst same
      rw [Function.update_self] at quiet
      cases quiet
    · rw [Function.update_of_ne same] at quiet ⊢
      exact consistent.settled other quiet
  opened other reading := by
    simp only [ReadService.markReading] at reading ⊢
    by_cases same : other = id
    · subst same
      rw [Function.update_self, Function.update_self]
      exact ⟨registered, service.log other, consistent.settled other (consistent.idle free), rfl⟩
    · rw [Function.update_of_ne same] at reading
      rw [Function.update_of_ne same, Function.update_of_ne same]
      exact consistent.opened other reading
  awake target entry other found finished reads := by
    simp only [ReadService.markReading, Reads] at reads
    by_cases same : other = id
    · subst same
      rw [Function.update_self, Function.update_self] at reads
      rw [← reads.2] at found
      rw [unfinished entry found] at finished
      cases finished
    · rw [Function.update_of_ne same, Function.update_of_ne same] at reads
      exact consistent.awake target entry other found finished reads

/-- A request that is answered at once adds a whole pair. -/
theorem ReadService.Consistent.answer (consistent : service.Consistent config) {id : Nat} {bcdId : BcdID}
    {rpl : MsgReadRpl} (free : Waits (service.log id) = false) (same : rpl.bcdId = bcdId) :
    ((service.markReading id bcdId).reply id rpl).Consistent config := by
  have idle := consistent.idle free
  have reading : ((service.markReading id bcdId).reply id rpl).reading = service.reading := by
    funext other
    by_cases equal : other = id
    · subst equal
      simp [ReadService.reply, idle]
    · simp [ReadService.reply, ReadService.markReading, equal]
  have log (other : Nat) : ((service.markReading id bcdId).reply id rpl).log other =
      if other = id then service.log id ++ [.request bcdId, .reply rpl] else service.log other := by
    by_cases equal : other = id
    · subst equal
      simp [ReadService.reply, ReadService.markReading]
    · simp [ReadService.reply, ReadService.markReading, equal]
  have target (other : Nat) (different : other ≠ id) :
      ((service.markReading id bcdId).reply id rpl).bcdId other = service.bcdId other :=
    Function.update_of_ne different ..
  constructor
  · exact consistent.regular
  · intro other quiet
    rw [reading] at quiet
    rw [log]
    split_ifs with equal
    · exact (consistent.settled id idle).pair same
    · exact consistent.settled other quiet
  · intro other busy
    rw [reading] at busy
    have different : other ≠ id := by
      rintro rfl
      rw [idle] at busy
      cases busy
    rw [log, if_neg different, target other different]
    exact consistent.opened other busy
  · intro goal entry other found finished reads
    unfold Reads at reads
    rw [reading] at reads
    have different : other ≠ id := by
      rintro rfl
      rw [idle] at reads
      cases reads.1
    rw [target other different] at reads
    exact consistent.awake goal entry other found finished reads

theorem ReadService.Consistent.readReq (consistent : service.Consistent config) {id : Nat} {dataId : UInt64}
    (taken : service.readReq config id dataId = .ok next) : next.Consistent config := by
  unfold ReadService.readReq at taken
  by_cases sends : id ∈ service.udsHash ∧ Waits (service.log id) = false
  · rw [if_pos sends] at taken
    obtain ⟨registered, free⟩ := sends
    by_cases master : service.executorId id = masterExecutorId
    · rw [if_pos master] at taken
      cases taken
    · rw [if_neg master] at taken
      simp only at taken
      split at taken
      · next entry found =>
          split_ifs at taken with ready
          · obtain rfl := Except.ok.inj taken
            exact consistent.answer free ((consistent.regular.entries _ entry found).knows.bcdId.trans
              (config.receiver.named _))
          · obtain rfl := Except.ok.inj taken
            apply consistent.markReading _ registered free
            intro other there
            rw [found, Option.some.injEq] at there
            rw [← there]
            simpa using fun finished => ready (.inl finished)
      · next absent =>
          obtain rfl := Except.ok.inj taken
          have marked := consistent.markReading ⟨config.appId.msb, config.appId.lsb, dataId⟩ registered free
            fun entry found => by rw [absent] at found; cases found
          exact marked.same (marked.regular.same rfl (fun _ member => member) rfl)
            fun bcdId entry found finished => .inr ⟨entry, found, finished, fun before => before⟩
  · rw [if_neg sends] at taken
    exact Except.ok.inj taken ▸ consistent

theorem ReadService.Consistent.intReq (consistent : service.Consistent config) {id : Nat} {executorId : Int32} :
    (service.intReq config id executorId).Consistent config := by
  obtain ⟨same, _⟩ := ReceiverAgent.intReq_eq config.receiver service.agent config.appId
    ⟨executorId, config.masterAddr⟩
  unfold ReadService.intReq
  rw [same]
  constructor
  · exact consistent.regular.same rfl (fun _ member => member) rfl
  · exact consistent.settled
  · intro other reading
    obtain ⟨registered, pair⟩ := consistent.opened other reading
    exact ⟨Finset.mem_insert_of_mem registered, pair⟩
  · exact consistent.awake

/-- Every step keeps the service consistent. -/
theorem ReadService.Consistent.step (consistent : service.Consistent config) {event : ReadEvent}
    (taken : readStep config service event = .ok next) : next.Consistent config := by
  cases event with
  | intReq id executorId => exact Except.ok.inj taken ▸ consistent.intReq
  | readReq id dataId => exact consistent.readReq taken
  | takeC2i => exact consistent.takeC2i taken
  | thread event =>
      simp only [readStep] at taken
      cases own : event.ofService with
      | true =>
          rw [own, if_pos rfl] at taken
          exact Except.ok.inj taken ▸ consistent
      | false =>
          rw [own, if_neg Bool.false_ne_true] at taken
          split at taken
          · cases taken
          · next agent moved =>
              obtain rfl := Except.ok.inj taken
              exact consistent.same (consistent.regular.step moved)
                fun bcdId entry found finished => consistent.regular.notifies own moved found finished

end Services

/-- In every run each request is answered at most once, and no executor is left reading a broadcast that is
received and announced. -/
theorem readers_served (config : ReadConfig) (events : List ReadEvent) :
    Throughout (readStep config) ReadService.Served ReadService.initial events := by
  apply throughout_of_invariant (ReadService.Consistent config)
  · intro service event next consistent taken
    exact consistent.step taken
  · intro service consistent
    exact consistent.served
  · exact ReadService.initial_consistent config

end RepublicAgent
