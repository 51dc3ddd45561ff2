/-
This file says what the steps of a receiver agent keep. The receiver states stay sane, and every report in the
`n2c` pipe is about a receiver state with a connection.
-/

import RepublicAgent.Receiver.Agent
import RepublicAgent.Receiver.Announcement

namespace RepublicAgent

structure ReceiverAgent.Regular (config : ReceiverConfig) (agent : ReceiverAgent) : Prop where
  entries : ∀ bcdId entry, agent.hashRecver bcdId = some entry → Sane (config.broadcast bcdId) entry.recv
  reported : ∀ msg ∈ agent.n2c, ∃ entry, agent.hashRecver msg.bcdId = some entry ∧ entry.fdsP ≠ none
  assigning : ∀ bcdId key seq, agent.pc = .assign bcdId key seq → ∃ entry, agent.hashRecver bcdId = some entry

theorem ReceiverAgent.initial_regular (config : ReceiverConfig) : ReceiverAgent.initial.Regular config where
  entries _ _ found := by cases found
  reported _ member := by cases member
  assigning _ _ _ start := by cases start

section Connections

variable {config : ReceiverConfig} {agent next : ReceiverAgent}

/-- A queued message changes the queue of a connection only. -/
theorem ReceiverAgent.insertMsg_ok {fdsP : Option Nat} {msg : QueuedMsg}
    (inserted : agent.insertMsg fdsP msg = .ok next) :
    next = { agent with rsockList := next.rsockList } ∧ ∀ key, next.Live key ↔ agent.Live key := by
  unfold insertMsg at inserted
  split at inserted
  · cases inserted
  · next key =>
      split_ifs at inserted
      obtain rfl := Except.ok.inj inserted
      refine ⟨rfl, fun other => ?_⟩
      have same (fds : FdState) :
          (if fds.key = key then { fds with sendQueue := fds.sendQueue ++ [msg] } else fds).key = fds.key := by
        split_ifs <;> rfl
      simp [Live, same]

theorem ReceiverAgent.insertMsgs_ok {fdsP : Option Nat} {msgs : List QueuedMsg}
    (inserted : agent.insertMsgs fdsP msgs = .ok next) :
    next = { agent with rsockList := next.rsockList } ∧ ∀ key, next.Live key ↔ agent.Live key := by
  induction msgs generalizing agent with
  | nil => exact Except.ok.inj inserted ▸ ⟨rfl, fun _ => Iff.rfl⟩
  | cons msg msgs ih =>
      rw [insertMsgs] at inserted
      split at inserted
      · cases inserted
      · next middle first =>
          obtain ⟨same, live⟩ := insertMsg_ok first
          obtain ⟨rest, alive⟩ := ih inserted
          rw [same] at rest
          exact ⟨rest, fun key => (alive key).trans (live key)⟩

/-- Messages are queued on every live connection. -/
theorem ReceiverAgent.insertMsgs_live {key : Nat} (live : agent.Live key) (msgs : List QueuedMsg) :
    ∃ next, agent.insertMsgs (some key) msgs = .ok next := by
  induction msgs generalizing agent with
  | nil => exact ⟨agent, rfl⟩
  | cons msg msgs ih =>
      obtain ⟨middle, first⟩ : ∃ middle, agent.insertMsg (some key) msg = .ok middle := by
        rw [insertMsg, if_pos live]
        exact ⟨_, rfl⟩
      rw [insertMsgs, first]
      exact ih (((insertMsg_ok first).2 key).mpr live)

theorem ReceiverAgent.output_ok {fdsP : Option Nat} {output : HandlerOutput}
    (reported : agent.output fdsP output = .ok next) :
    next = { agent with
        rsockList := next.rsockList
        c2i := agent.c2i ++ output.toService.map ServiceMsg.report } ∧
      ∀ key, next.Live key ↔ agent.Live key :=
  insertMsgs_ok reported

theorem ReceiverAgent.connectMaster_eq (agent : ReceiverAgent) (ipAddress : Nat) :
    agent.connectMaster ipAddress = { agent with
        rsockList := (agent.connectMaster ipAddress).rsockList
        nextKey := (agent.connectMaster ipAddress).nextKey } ∧
      ∀ key, agent.Live key → (agent.connectMaster ipAddress).Live key := by
  unfold connectMaster
  split
  · exact ⟨rfl, fun _ => id⟩
  · refine ⟨rfl, ?_⟩
    rintro key ⟨fds, member, same⟩
    exact ⟨fds, List.mem_append_left _ member, same⟩

theorem ReceiverAgent.store_self (bcdId : BcdID) (entry : RecverEntry) :
    (agent.store bcdId entry).hashRecver bcdId = some entry := Function.update_self ..

theorem ReceiverAgent.store_other {bcdId other : BcdID} (different : other ≠ bcdId) (entry : RecverEntry) :
    (agent.store bcdId entry).hashRecver other = agent.hashRecver other := Function.update_of_ne different ..

end Connections

section Cases

variable {config : ReceiverConfig} {agent next : ReceiverAgent}

/-- A packet is left, taken for processing, or it creates a state without a connection. -/
theorem ReceiverAgent.packet_cases (config : ReceiverConfig) (agent : ReceiverAgent) (sourceIp : Nat)
    (bcdId : BcdID) (seq : Nat) (opens : Bool) :
    agent.packet config sourceIp bcdId seq opens = agent ∨
      agent.packet config sourceIp bcdId seq opens = { agent with pc := .process bcdId seq } ∨
      ∃ fds, agent.findSocket sourceIp = some fds ∧ agent.hashRecver bcdId = none ∧ bcdId.appId ∈ agent.hashApp ∧
        agent.packet config sourceIp bcdId seq opens =
          { agent.store bcdId ⟨createRecverState bcdId config.dataPayloadLen, none⟩ with
            pc := .assign bcdId fds.key seq } := by
  unfold packet
  split
  · exact .inr (.inl rfl)
  · next idle absent =>
      split
      · exact .inl rfl
      · next fds found =>
          split_ifs with known
          · exact .inr (.inr ⟨fds, found, absent, known.1, rfl⟩)
          · exact .inl rfl
  · exact .inl rfl

/-- The data channel thread rests, assigns a connection, drops a packet or processes it. -/
theorem ReceiverAgent.advance_cases (taken : agent.advance config = .ok next) :
    (next = agent ∧ ∀ bcdId key seq, agent.pc ≠ .assign bcdId key seq) ∨
      (∃ bcdId key seq entry, agent.pc = .assign bcdId key seq ∧ agent.hashRecver bcdId = some entry ∧
        next = { agent.store bcdId ⟨recverStateStartFathPath entry.recv, some key⟩ with pc := .process bcdId seq }) ∨
      (next = { agent with pc := .idle } ∧ ∀ bcdId key seq, agent.pc ≠ .assign bcdId key seq) ∨
      ∃ bcdId seq entry recv msgs, agent.pc = .process bcdId seq ∧ agent.hashRecver bcdId = some entry ∧
        entry.fdsP ≠ none ∧
        processRings entry.recv ((config.broadcast bcdId).packet (seq % (config.broadcast bcdId).seqMax)) =
          .ok (recv, msgs) ∧
        next = { agent.store bcdId { entry with recv := recv } with pc := .idle, n2c := agent.n2c ++ msgs } := by
  unfold advance at taken
  split at taken
  · next idle => exact .inl ⟨(Except.ok.inj taken).symm, fun _ _ _ start => by rw [idle] at start; cases start⟩
  · next bcdId key seq start =>
      split at taken
      · cases taken
      · next entry found => exact .inr (.inl ⟨bcdId, key, seq, entry, start, found, (Except.ok.inj taken).symm⟩)
  · next bcdId seq start =>
      split at taken
      · cases taken
      · next entry found =>
          split_ifs at taken with unconnected
          · refine .inr (.inr (.inl ⟨(Except.ok.inj taken).symm, fun _ _ _ other => ?_⟩))
            rw [start] at other
            cases other
          · simp only at taken
            split at taken
            · cases taken
            · next recv msgs processed =>
                exact .inr (.inr (.inr ⟨bcdId, seq, entry, recv, msgs, start, found, unconnected,
                  processPacket_ok processed, (Except.ok.inj taken).symm⟩))

/-- The control thread finds the `n2c` pipe empty or handles its next message. -/
theorem ReceiverAgent.takeN2c_cases (taken : agent.takeN2c config = .ok next) :
    (next = agent ∧ agent.n2c = []) ∨
      ∃ msg msgs entry output, agent.n2c = msg :: msgs ∧ agent.hashRecver msg.bcdId = some entry ∧
        n2cHandler config.seqZeroNotify entry.recv msg = .ok output ∧
        next = { agent with
          rsockList := next.rsockList
          n2c := msgs
          c2i := agent.c2i ++ output.toService.map ServiceMsg.report } ∧
        ∀ key, next.Live key ↔ agent.Live key := by
  unfold takeN2c at taken
  split at taken
  · next empty => exact .inl ⟨(Except.ok.inj taken).symm, empty⟩
  · next msg msgs first =>
      split at taken
      · cases taken
      · next entry found =>
          split at taken
          · cases taken
          · next output handled =>
              obtain ⟨same, live⟩ := output_ok taken
              exact .inr ⟨msg, msgs, entry, output, first, found, handled, same, live⟩

/-- The control thread finds the `i2c` pipe empty or asks for a broadcast. -/
theorem ReceiverAgent.takeI2c_cases (taken : agent.takeI2c = .ok next) :
    next = agent ∨ ∃ pull pulls, agent.i2c = pull :: pulls ∧
      next = { agent with rsockList := next.rsockList, nextKey := next.nextKey, i2c := pulls } ∧
      ∀ key, agent.Live key → next.Live key := by
  unfold takeI2c at taken
  split at taken
  · exact .inl (Except.ok.inj taken).symm
  · next bcdId msgIntQ pulls first =>
      obtain ⟨same, live⟩ := insertMsg_ok taken
      obtain ⟨connected, alive⟩ := connectMaster_eq { agent with i2c := pulls } msgIntQ.masterAddr
      refine .inr ⟨(bcdId, msgIntQ), pulls, first, ?_, ?_⟩
      · rw [connected] at same
        rw [same]
      · intro key before
        exact (live key).mpr (alive key before)

/-- A patch is stored when its connection is live. -/
theorem ReceiverAgent.patchData_cases {key : Nat} {bcdId : BcdID} {seq : Nat}
    (taken : agent.patchData config key bcdId seq = .ok next) :
    next = agent ∨ ∃ entry recv output, agent.hashRecver bcdId = some entry ∧
      msgPatchData entry.recv ((config.broadcast bcdId).packet (seq % (config.broadcast bcdId).seqMax)) =
        .ok (recv, output) ∧
      next = { agent.store bcdId { entry with recv := recv } with
        rsockList := next.rsockList
        c2i := agent.c2i ++ output.toService.map ServiceMsg.report } ∧
      ∀ key, next.Live key ↔ agent.Live key := by
  unfold patchData at taken
  split_ifs at taken
  · split at taken
    · cases taken
    · next entry found =>
        simp only at taken
        split at taken
        · cases taken
        · next recv output handled =>
            obtain ⟨same, live⟩ := output_ok taken
            exact .inr ⟨entry, recv, output, found, (processPatch_ok handled).1, same, live⟩
  · exact .inl (Except.ok.inj taken).symm

/-- The end of the fast path changes the receiver state when its connection is live. -/
theorem ReceiverAgent.fastDone_cases {key : Nat} {bcdId : BcdID} (taken : agent.fastDone key bcdId = .ok next) :
    next = agent ∨ ∃ entry, agent.hashRecver bcdId = some entry ∧
      next = { agent.store bcdId { entry with recv := (msgFastDone entry.recv).1 } with
        rsockList := next.rsockList } ∧
      ∀ key, next.Live key ↔ agent.Live key := by
  unfold fastDone at taken
  split_ifs at taken
  · split at taken
    · cases taken
    · next entry found =>
        obtain ⟨same, live⟩ := insertMsgs_ok taken
        exact .inr ⟨entry, found, same, live⟩
  · exact .inl (Except.ok.inj taken).symm

theorem ReceiverAgent.intReq_eq (config : ReceiverConfig) (agent : ReceiverAgent) (appId : AppID)
    (msgIntQ : MsgIntQ) :
    agent.intReq config appId msgIntQ = { agent with
        hashApp := insert appId agent.hashApp
        rsockList := (agent.intReq config appId msgIntQ).rsockList
        nextKey := (agent.intReq config appId msgIntQ).nextKey } ∧
      ∀ key, agent.Live key → (agent.intReq config appId msgIntQ).Live key := by
  obtain ⟨connected, alive⟩ := connectMaster_eq agent msgIntQ.masterAddr
  unfold intReq
  split_ifs
  · refine ⟨?_, alive⟩
    simp only
    rw [connected]
  · exact ⟨rfl, fun _ => id⟩

end Cases

section Steps

variable {config : ReceiverConfig} {agent next : ReceiverAgent}

/-- A step that leaves the receiver states and adds no report keeps the agent regular. -/
theorem ReceiverAgent.Regular.same (regular : agent.Regular config)
    (hashRecver : next.hashRecver = agent.hashRecver) (n2c : ∀ msg ∈ next.n2c, msg ∈ agent.n2c)
    (pc : next.pc = agent.pc) : next.Regular config where
  entries bcdId entry found := regular.entries bcdId entry (hashRecver ▸ found)
  reported msg member := hashRecver ▸ regular.reported msg (n2c msg member)
  assigning bcdId key seq start := hashRecver ▸ regular.assigning bcdId key seq (pc ▸ start)

/-- A changed receiver state stays known and keeps its connection. -/
theorem ReceiverAgent.Regular.update (regular : agent.Regular config) {bcdId : BcdID} {entry : RecverEntry}
    (hashRecver : next.hashRecver = Function.update agent.hashRecver bcdId (some entry))
    (sane : Sane (config.broadcast bcdId) entry.recv)
    (kept : ∀ old, agent.hashRecver bcdId = some old → old.fdsP ≠ none → entry.fdsP ≠ none)
    (n2c : ∀ msg ∈ next.n2c, msg ∈ agent.n2c ∨ (msg.bcdId = bcdId ∧ entry.fdsP ≠ none))
    (pc : ∀ other key seq, next.pc = .assign other key seq → other = bcdId ∨ agent.pc = .assign other key seq) :
    next.Regular config := by
  have present (other : BcdID) (old : RecverEntry) (found : agent.hashRecver other = some old) :
      ∃ new, next.hashRecver other = some new ∧ (old.fdsP ≠ none → new.fdsP ≠ none) := by
    rw [hashRecver]
    by_cases same : other = bcdId
    · subst same
      exact ⟨entry, Function.update_self .., kept old found⟩
    · exact ⟨old, by rw [Function.update_of_ne same, found], id⟩
  constructor
  · intro other new found
    rw [hashRecver] at found
    by_cases same : other = bcdId
    · subst same
      rw [Function.update_self, Option.some.injEq] at found
      exact found ▸ sane
    · rw [Function.update_of_ne same] at found
      exact regular.entries other new found
  · intro msg member
    rcases n2c msg member with before | ⟨same, connected⟩
    · obtain ⟨old, found, assigned⟩ := regular.reported msg before
      obtain ⟨new, there, still⟩ := present msg.bcdId old found
      exact ⟨new, there, still assigned⟩
    · rw [same, hashRecver]
      exact ⟨entry, Function.update_self .., connected⟩
  · intro other key seq start
    rcases pc other key seq start with rfl | before
    · rw [hashRecver]
      exact ⟨entry, Function.update_self ..⟩
    · obtain ⟨old, found⟩ := regular.assigning other key seq before
      obtain ⟨new, there, _⟩ := present other old found
      exact ⟨new, there⟩

/-- Every step keeps an agent regular. -/
theorem ReceiverAgent.Regular.step (regular : agent.Regular config) {event : ReceiverEvent}
    (taken : receiverStep config agent event = .ok next) : next.Regular config := by
  cases event with
  | intReq appId msgIntQ =>
      obtain rfl := Except.ok.inj taken
      rw [(intReq_eq config agent appId msgIntQ).1]
      exact regular.same rfl (fun _ => id) rfl
  | i2cPull bcdId msgIntQ => exact Except.ok.inj taken ▸ regular.same rfl (fun _ => id) rfl
  | packet sourceIp bcdId seq opens =>
      obtain rfl := Except.ok.inj taken
      rcases packet_cases config agent sourceIp bcdId seq opens with left | begun |
        ⟨fds, _, absent, _, created⟩
      · rw [left]
        exact regular
      · rw [begun]
        exact ⟨regular.entries, regular.reported, fun _ _ _ start => by cases start⟩
      · rw [created]
        apply regular.update rfl
        · have sane := createRecverState_sane (config.broadcast bcdId)
          rwa [config.named, config.cut] at sane
        · intro old found
          rw [absent] at found
          cases found
        · exact fun _ => .inl
        · rintro other key position start
          cases start
          exact .inl rfl
  | advance =>
      rcases advance_cases taken with ⟨rfl, _⟩ | ⟨bcdId, key, seq, entry, _, found, rfl⟩ | ⟨rfl, _⟩ |
        ⟨bcdId, seq, entry, recv, msgs, _, found, connected, processed, rfl⟩
      · exact regular
      · apply regular.update rfl (regular.entries bcdId entry found).start
        · exact fun _ _ _ impossible => by cases impossible
        · exact fun _ => .inl
        · exact fun _ _ _ start => by cases start
      · exact ⟨regular.entries, regular.reported, fun _ _ _ start => by cases start⟩
      · have inside := Nat.mod_lt seq (config.broadcast bcdId).seqMax_pos
        obtain ⟨sane, _, named, _⟩ := (regular.entries bcdId entry found).process inside processed
        apply regular.update rfl sane
        · exact fun _ _ _ => connected
        · intro msg member
          rcases List.mem_append.mp member with before | new
          · exact .inl before
          · exact .inr ⟨(named msg new).trans (config.named bcdId), connected⟩
        · exact fun _ _ _ start => by cases start
  | takeN2c =>
      rcases takeN2c_cases taken with ⟨rfl, _⟩ | ⟨msg, msgs, entry, output, first, _, _, same, _⟩
      · exact regular
      · rw [same]
        exact regular.same rfl (fun other member => first ▸ List.mem_cons_of_mem msg member) rfl
  | takeI2c =>
      rcases takeI2c_cases taken with rfl | ⟨pull, pulls, _, same, _⟩
      · exact regular
      · rw [same]
        exact regular.same rfl (fun _ => id) rfl
  | takeC2i => exact Except.ok.inj taken ▸ regular.same rfl (fun _ => id) rfl
  | patchData key bcdId seq =>
      rcases patchData_cases taken with rfl | ⟨entry, recv, output, found, handled, same, _⟩
      · exact regular
      · have inside := Nat.mod_lt seq (config.broadcast bcdId).seqMax_pos
        have sane := (regular.entries bcdId entry found).patch inside handled
        rw [same]
        apply regular.update rfl sane.1
        · intro old there assigned
          rw [found, Option.some.injEq] at there
          exact there ▸ assigned
        · exact fun _ => .inl
        · exact fun _ _ _ => .inr
  | fastDone key bcdId =>
      rcases fastDone_cases taken with rfl | ⟨entry, found, same, _⟩
      · exact regular
      · rw [same]
        apply regular.update rfl (regular.entries bcdId entry found).fastDone.1
        · intro old there assigned
          rw [found, Option.some.injEq] at there
          exact there ▸ assigned
        · exact fun _ => .inl
        · exact fun _ _ _ => .inr
  | pullReject key bcdId =>
      obtain rfl := Except.ok.inj taken
      unfold ReceiverAgent.pullReject
      split_ifs
      · exact regular.same rfl (fun _ => id) rfl
      · exact regular
  | close key => exact Except.ok.inj taken ▸ regular.same rfl (fun _ => id) rfl

end Steps

end RepublicAgent
