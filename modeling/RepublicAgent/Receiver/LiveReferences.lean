/-
This file says in which runs the receiver states refer to live connections only.
-/

import RepublicAgent.Receiver.AgentSteps

namespace RepublicAgent
open Execution

/-- Every receiver state refers to no connection or to a live one, and the reports of the data channel thread are
queued on live connections. -/
structure ReceiverAgent.RefersLive (config : ReceiverConfig) (agent : ReceiverAgent) : Prop where
  refers : ∀ bcdId entry key, agent.hashRecver bcdId = some entry → entry.fdsP = some key → agent.Live key
  reports : receiverStep config agent .takeN2c ≠ .error .badPointer

/-- A connection closes when no receiver state refers to it, and the data channel thread assigns a connection that
has not been closed since it was found. -/
def SparesReferences (agent : ReceiverAgent) : ReceiverEvent → Prop
  | .close key => ∀ bcdId entry, agent.hashRecver bcdId = some entry → entry.fdsP ≠ some key
  | .advance => ∀ bcdId key seq, agent.pc = .assign bcdId key seq → agent.Live key
  | _ => True

section Steps

variable {config : ReceiverConfig} {agent next : ReceiverAgent}

/-- A report finds the state of its broadcast with a connection. -/
theorem ReceiverAgent.refersLive_iff (regular : agent.Regular config) :
    agent.RefersLive config ↔ ∀ bcdId entry key, agent.hashRecver bcdId = some entry → entry.fdsP = some key →
      agent.Live key := by
  constructor
  · intro good
    exact good.refers
  · intro refers
    refine ⟨refers, ?_⟩
    intro failed
    simp only [receiverStep, takeN2c] at failed
    split at failed
    · cases failed
    · next msg msgs first =>
        obtain ⟨entry, found, connected⟩ := regular.reported msg (by simp [first])
        rw [found] at failed
        simp only at failed
        split at failed
        · next assertion handled =>
            have asserted : assertion = .seqMaxNotOne := by
              cases msg with
              | seqFirst bcdId seq => cases handled
              | seqJump bcdId pt => cases handled
              | seqZero bcdId =>
                  simp only [n2cHandler] at handled
                  split_ifs at handled
                  exact (Except.error.inj handled).symm
              | seqAll bcdId =>
                  simp only [n2cHandler] at handled
                  split_ifs at handled
                  exact (Except.error.inj handled).symm
            subst asserted
            cases failed
        · next output handled =>
            obtain ⟨key, assigned⟩ := Option.ne_none_iff_exists'.mp connected
            have live : ({ agent with
                n2c := msgs
                c2i := agent.c2i ++ output.toService.map ServiceMsg.report } : ReceiverAgent).Live key :=
              refers msg.bcdId entry key found assigned
            obtain ⟨queued, inserted⟩ := insertMsgs_live live (output.toMaster.map QueuedMsg.report)
            rw [ReceiverAgent.output, assigned, inserted] at failed
            cases failed

/-- A step that keeps the references and the live connections keeps them together. -/
theorem ReceiverAgent.RefersLive.keep (good : agent.RefersLive config) (regular : next.Regular config)
    (refers : ∀ bcdId entry key, next.hashRecver bcdId = some entry → entry.fdsP = some key →
      ∃ old, agent.hashRecver bcdId = some old ∧ old.fdsP = some key)
    (live : ∀ key, agent.Live key → next.Live key) : next.RefersLive config := by
  apply (refersLive_iff regular).mpr
  intro bcdId entry key found assigned
  obtain ⟨old, there, before⟩ := refers bcdId entry key found assigned
  exact live key (good.refers bcdId old key there before)

/-- A changed receiver state has the reference that it had before. -/
theorem ReceiverAgent.refers_store {bcdId : BcdID} {entry : RecverEntry} {recv : RecverState}
    (found : agent.hashRecver bcdId = some entry) (other : BcdID) (new : RecverEntry) (key : Nat)
    (present : (agent.store bcdId { entry with recv := recv }).hashRecver other = some new)
    (assigned : new.fdsP = some key) : ∃ old, agent.hashRecver other = some old ∧ old.fdsP = some key := by
  by_cases same : other = bcdId
  · subst same
    rw [store_self, Option.some.injEq] at present
    subst present
    exact ⟨entry, found, assigned⟩
  · rw [store_other same] at present
    exact ⟨new, present, assigned⟩

/-- The assignment keeps the references live exactly when the connection is still live. -/
theorem ReceiverAgent.RefersLive.advance_iff (good : agent.RefersLive config) (regular : next.Regular config)
    (taken : agent.advance config = .ok next) :
    next.RefersLive config ↔ SparesReferences agent .advance := by
  rcases advance_cases taken with ⟨rfl, idle⟩ | ⟨bcdId, key, seq, entry, start, found, rfl⟩ | ⟨rfl, idle⟩ |
    ⟨bcdId, seq, entry, recv, msgs, start, found, connected, processed, rfl⟩
  · exact iff_of_true good fun bcdId key seq start => absurd start (idle bcdId key seq)
  · rw [refersLive_iff regular]
    constructor
    · intro refers other found seq' begun
      rw [start] at begun
      cases begun
      exact refers bcdId ⟨recverStateStartFathPath entry.recv, some key⟩ key (store_self _ _) rfl
    · intro live other new key' present assigned
      by_cases same : other = bcdId
      · subst same
        rw [show _ = some _ from store_self _ _, Option.some.injEq] at present
        subst present
        cases assigned
        exact live other key seq start
      · have old : agent.hashRecver other = some new := (store_other same _).symm.trans present
        exact good.refers other new key' old assigned
  · refine iff_of_true ?_ fun bcdId key seq start => absurd start (idle bcdId key seq)
    exact good.keep regular (fun _ entry _ found assigned => ⟨entry, found, assigned⟩) fun _ => id
  · refine iff_of_true ?_ fun other key seq' begun => ?_
    · exact good.keep regular (refers_store found) fun _ => id
    · rw [start] at begun
      cases begun

/-- A closed connection leaves the references live exactly when there are none to it. -/
theorem ReceiverAgent.RefersLive.close_iff (good : agent.RefersLive config) {key : Nat}
    (regular : (agent.close key).Regular config) :
    (agent.close key).RefersLive config ↔ SparesReferences agent (.close key) := by
  have live (other : Nat) : (agent.close key).Live other ↔ agent.Live other ∧ other ≠ key := by
    constructor
    · rintro ⟨fds, member, rfl⟩
      obtain ⟨inside, different⟩ := List.mem_filter.mp member
      exact ⟨⟨fds, inside, rfl⟩, of_decide_eq_true different⟩
    · rintro ⟨⟨fds, member, rfl⟩, different⟩
      exact ⟨fds, List.mem_filter.mpr ⟨member, decide_eq_true different⟩, rfl⟩
  rw [refersLive_iff regular]
  constructor
  · intro refers bcdId entry found assigned
    exact ((live key).mp (refers bcdId entry key found assigned)).2 rfl
  · intro spares bcdId entry other found assigned
    refine (live other).mpr ⟨good.refers bcdId entry other found assigned, ?_⟩
    rintro rfl
    exact spares bcdId entry found assigned

/-- Every step keeps the references live exactly when it spares them. -/
theorem ReceiverAgent.RefersLive.step_iff (good : agent.RefersLive config) (regular : next.Regular config)
    {event : ReceiverEvent} (taken : receiverStep config agent event = .ok next) :
    next.RefersLive config ↔ SparesReferences agent event := by
  have same (bcdId : BcdID) (entry : RecverEntry) (key : Nat) (found : agent.hashRecver bcdId = some entry)
      (assigned : entry.fdsP = some key) : ∃ old, agent.hashRecver bcdId = some old ∧ old.fdsP = some key :=
    ⟨entry, found, assigned⟩
  cases event with
  | intReq appId msgIntQ =>
      obtain rfl := Except.ok.inj taken
      obtain ⟨equal, live⟩ := intReq_eq config agent appId msgIntQ
      have hashes : (agent.intReq config appId msgIntQ).hashRecver = agent.hashRecver := by rw [equal]
      exact iff_of_true (good.keep regular (hashes ▸ same) live) trivial
  | i2cPull bcdId msgIntQ =>
      obtain rfl := Except.ok.inj taken
      exact iff_of_true (good.keep regular same fun _ => id) trivial
  | packet sourceIp bcdId seq opens =>
      obtain rfl := Except.ok.inj taken
      refine iff_of_true ?_ trivial
      rcases packet_cases config agent sourceIp bcdId seq opens with left | begun |
        ⟨fds, _, absent, _, created⟩
      · rw [left]
        exact good
      · rw [begun] at regular ⊢
        exact good.keep regular same fun _ => id
      · rw [created] at regular ⊢
        apply good.keep regular
        · intro other entry key found assigned
          by_cases equal : other = bcdId
          · subst equal
            rw [show _ = some _ from store_self _ _, Option.some.injEq] at found
            rw [← found] at assigned
            cases assigned
          · exact ⟨entry, (store_other equal _).symm.trans found, assigned⟩
        · exact fun _ => id
  | advance => exact good.advance_iff regular taken
  | takeN2c =>
      refine iff_of_true ?_ trivial
      rcases takeN2c_cases taken with ⟨rfl, _⟩ | ⟨msg, msgs, entry, output, _, _, _, equal, live⟩
      · exact good
      · have hashes : next.hashRecver = agent.hashRecver := by rw [equal]
        exact good.keep regular (hashes ▸ same) fun key => (live key).mpr
  | takeI2c =>
      refine iff_of_true ?_ trivial
      rcases takeI2c_cases taken with rfl | ⟨pull, pulls, _, equal, live⟩
      · exact good
      · have hashes : next.hashRecver = agent.hashRecver := by rw [equal]
        exact good.keep regular (hashes ▸ same) live
  | takeC2i =>
      obtain rfl := Except.ok.inj taken
      exact iff_of_true (good.keep regular same fun _ => id) trivial
  | patchData key bcdId seq =>
      refine iff_of_true ?_ trivial
      rcases patchData_cases taken with rfl | ⟨entry, recv, output, found, _, equal, live⟩
      · exact good
      · have hashes : next.hashRecver = (agent.store bcdId { entry with recv := recv }).hashRecver := by rw [equal]
        exact good.keep regular (hashes ▸ refers_store found) fun key => (live key).mpr
  | fastDone key bcdId =>
      refine iff_of_true ?_ trivial
      rcases fastDone_cases taken with rfl | ⟨entry, found, equal, live⟩
      · exact good
      · have hashes : next.hashRecver =
            (agent.store bcdId { entry with recv := (msgFastDone entry.recv).1 }).hashRecver := by rw [equal]
        exact good.keep regular (hashes ▸ refers_store found) fun key => (live key).mpr
  | pullReject key bcdId =>
      obtain rfl := Except.ok.inj taken
      refine iff_of_true ?_ trivial
      unfold ReceiverAgent.pullReject at regular ⊢
      split_ifs at regular ⊢
      · exact good.keep regular same fun _ => id
      · exact good
  | close key =>
      obtain rfl := Except.ok.inj taken
      exact good.close_iff regular

/-- The assignment of a connection does not fault. -/
theorem sparesReferences_of_error (regular : agent.Regular config) {event : ReceiverEvent} {fault : Fault}
    (failed : receiverStep config agent event = .error fault) : SparesReferences agent event := by
  cases event with
  | advance =>
      intro bcdId key seq start
      obtain ⟨entry, found⟩ := regular.assigning bcdId key seq start
      simp [receiverStep, ReceiverAgent.advance, start, found] at failed
  | close key => cases failed
  | _ => trivial

end Steps

theorem ReceiverAgent.initial_refersLive (config : ReceiverConfig) : ReceiverAgent.initial.RefersLive config :=
  (refersLive_iff (initial_regular config)).mpr fun _ _ _ found => by cases found

/-- The receiver states refer to live connections throughout exactly the runs that close no connection in use. -/
theorem references_live_iff (config : ReceiverConfig) (events : List ReceiverEvent) :
    Throughout (receiverStep config) (ReceiverAgent.RefersLive config) ReceiverAgent.initial events ↔
      StepsMeet (receiverStep config) SparesReferences ReceiverAgent.initial events := by
  apply throughout_iff (ReceiverAgent.Regular config)
  · intro agent event next regular good taken
    have after := regular.step taken
    exact ⟨after, good.step_iff after taken⟩
  · intro agent event fault regular _ failed
    exact sparesReferences_of_error regular failed
  · exact ReceiverAgent.initial_regular config
  · exact ReceiverAgent.initial_refersLive config

/-- Every broadcast is one byte long. -/
def oneByteConfig : ReceiverConfig where
  hostAddr := 1
  seqZeroNotify := false
  dataPayloadLen := 1
  broadcast bcdId := {
    bcdId := bcdId
    appId := []
    data := [10]
    payloadLen := 1
    appIdShort := threeBytes.appIdShort
    dataPositive := by decide
    payloadPositive := threeBytes.payloadPositive
    payloadFits := threeBytes.payloadFits
    seqMaxFits := by decide }
  named _ := rfl
  cut _ := rfl

/-- The connection to the master closes after the first packet of a broadcast. -/
def earlyClose : List ReceiverEvent :=
  [.intReq ⟨0, 0⟩ ⟨1, 2⟩, .packet 2 ⟨0, 0, 7⟩ 0 true, .advance, .close 0]

/-- A receiver state refers to a closed connection. -/
theorem references_dangling :
    ¬ ∀ (config : ReceiverConfig) (events : List ReceiverEvent),
      Throughout (receiverStep config) (ReceiverAgent.RefersLive config) ReceiverAgent.initial events := by
  intro always
  obtain ⟨final, reached, dangling⟩ := exists_of_check
    (execute (receiverStep oneByteConfig) ReceiverAgent.initial earlyClose)
    (fun agent => ((agent.hashRecver ⟨0, 0, 7⟩).map RecverEntry.fdsP = some (some 0)) ∧
      ¬ agent.Live 0) (by decide)
  obtain ⟨assigned, closed⟩ := of_decide_eq_true dangling
  obtain ⟨entry, found, refers⟩ := Option.map_eq_some_iff.mp assigned
  have good := (always oneByteConfig earlyClose).final reached
  exact closed (good.refers ⟨0, 0, 7⟩ entry 0 found refers)

end RepublicAgent
