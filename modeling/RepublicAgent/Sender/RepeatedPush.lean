/-
This file says when an approved multicast can start its transfer.
-/

import RepublicAgent.Sender.TransferView

namespace RepublicAgent
open Execution MachineInteger

/-- The active multicast that was just approved is not terminated, and the next call of `amNPktQueued` starts
its transfer. -/
def Startable (config : AgentConfig) (agent : SenderAgent) : Prop :=
  ∀ bcdId multi, agent.path.activeMulticast = some bcdId → agent.path.hashMulticast bcdId = some multi →
    multi.bcdState = .initiated →
    ¬ multi.Terminated ∧ ∀ release ring estimate,
      (amNPktQueued config.firstFirstSeqFullrate multi release ring estimate).1.bcdState = .attempt ∨
        (amNPktQueued config.firstFirstSeqFullrate multi release ring estimate).1.bcdState = .fullrate

/-- A request is approved only for a multicast that completed no earlier push. -/
def FirstPush (agent : SenderAgent) : SenderEvent → Prop
  | .request head now calls => ∀ bcdId multi, agent.path.Requests head now bcdId multi →
      (calls.push.fill PushReply.fresh).cmd = PushReplyCmd.push.code → bcdId ∉ agent.released
  | _ => True

/-- The table of multicasts is sound and the view of the transfers is consistent. -/
structure SenderAgent.Regular (agent : SenderAgent) : Prop where
  sound : agent.path.Sound
  view : agent.view.Consistent

section Steps

variable {config : AgentConfig} {agent next : SenderAgent}

/-- The upgrades start an alive multicast that is fresh or has started already. -/
theorem upgrade_started (multi : MulticastState) (option : Bool) (alive : multi.bcdState ≠ .dead)
    (fresh : multi.bcdState = .initiated → multi.nPacketTotal = 0 ∧ multi.nByteTotal = 0) :
    (startFullrate option (startAttempt multi)).bcdState = .attempt ∨
      (startFullrate option (startAttempt multi)).bcdState = .fullrate := by
  have first : (startAttempt multi).bcdState = .attempt ∨ (startAttempt multi).bcdState = .fullrate := by
    cases state : multi.bcdState with
    | dead => exact absurd state alive
    | initiated => exact .inl (startAttempt_fresh state (fresh state).1 (fresh state).2)
    | attempt =>
        rw [startAttempt, if_neg (by simp [state])]
        exact .inl state
    | fullrate =>
        rw [startAttempt, if_neg (by simp [state])]
        exact .inr state
  rcases startFullrate_bcdState (startAttempt multi) option with same | ⟨_, full⟩
  · rwa [same]
  · exact .inr full

/-- An approved multicast can start exactly when it was never released. -/
theorem startable_iff (regular : agent.Regular) : Startable config agent ↔ agent.view.FirstOnly := by
  constructor
  · intro startable bcdId marks active found initiated member
    obtain ⟨multi, stored, rfl⟩ := Option.map_eq_some_iff.mp found
    have ended := (regular.view.fine bcdId _ found).ended member
    exact (startable bcdId multi active stored initiated).1 (of_decide_eq_true ended)
  · intro only bcdId multi active found initiated
    have marked := SenderAgent.view_marks found
    have unreleased := only bcdId multi.marks active marked initiated
    obtain ⟨open_, fresh⟩ := (regular.view.fine bcdId _ marked).clean unreleased fun _ => initiated
    obtain ⟨packets, bytes⟩ := of_decide_eq_true fresh
    refine ⟨of_decide_eq_false open_, ?_⟩
    intro release ring estimate
    have alive : multi.bcdState ≠ .dead := by simp [initiated]
    have queued := amNPktQueued_queued config.firstFirstSeqFullrate release ring estimate alive
    rw [queued.state]
    exact upgrade_started multi config.firstFirstSeqFullrate alive fun _ => ⟨packets, bytes⟩

/-- A step that leaves the view leaves everything that the start depends on. -/
theorem SenderAgent.Regular.same (regular : agent.Regular) (only : agent.view.FirstOnly)
    (sound : next.path.Sound) (same : next.view = agent.view) : next.Regular ∧ next.view.FirstOnly :=
  ⟨⟨sound, same ▸ regular.view⟩, same ▸ only⟩

theorem SenderAgent.Regular.wrtReq (regular : agent.Regular) (only : agent.view.FirstOnly) {bcdId : BcdID}
    {dataSize : Nat} {path : PathState}
    (written : agent.path.wrtReq bcdId dataSize config.dataPayloadLen = .ok path) :
    ({ agent with path := path } : SenderAgent).Regular ∧
      ({ agent with path := path } : SenderAgent).view.FirstOnly := by
  have sound := regular.sound.wrtReq written
  obtain ⟨absent, multi, created, rfl⟩ := PathState.wrtReq_ok written
  have new : multi.marks = ⟨.dead, false, true⟩ := by
    obtain ⟨dead, open_, packets, bytes, _⟩ := createBcdState_new created
    simp [MulticastState.marks, MulticastState.Terminated, dead, open_, packets, bytes]
  have inactive : agent.view.active ≠ some bcdId := by
    intro current
    obtain ⟨state, found⟩ := regular.sound.active bcdId current
    rw [absent] at found
    cases found
  have created := regular.view.create ({ agent with path := agent.path.store bcdId multi } :
    SenderAgent).view only (by simp [SenderAgent.view, absent]) inactive
    (by rw [← new]; exact PathState.store_marks agent.path) rfl rfl rfl rfl
  exact ⟨⟨sound, created.1⟩, created.2⟩

theorem SenderAgent.Regular.pshReq (regular : agent.Regular) (only : agent.view.FirstOnly) {bcdId : BcdID}
    {slaves : List Slave} {now : Timeval} (taken : agent.pshReq bcdId slaves now = .ok next) :
    next.Regular ∧ next.view.FirstOnly := by
  unfold SenderAgent.pshReq at taken
  split_ifs at taken
  · exact Except.ok.inj taken ▸ ⟨regular, only⟩
  · split at taken
    · cases taken
    · next path pushed =>
        obtain rfl := Except.ok.inj taken
        refine regular.same only (regular.sound.pshReq pushed) ?_
        rcases PathState.pshReq_ok pushed with ⟨_, rfl⟩ | ⟨_, multi, found, rfl⟩
        · rfl
        · have same := PathState.store_same agent.path found (pushed_marks slaves now)
          unfold SenderAgent.view
          exact congrArg (fun marks => TransferView.mk marks _ _ _ _) same

theorem SenderAgent.Regular.release (regular : agent.Regular) (only : agent.view.FirstOnly)
    {calls : ReleaseCalls} (taken : senderStep config agent (.release calls) = .ok next) :
    next.Regular ∧ next.view.FirstOnly := by
  simp only [senderStep] at taken
  split at taken
  · cases taken
  · next path made released =>
      obtain rfl := Except.ok.inj taken
      have sound := regular.sound.release released
      rcases PathState.release_ok released with ⟨rfl, _⟩ | ⟨bcdId, multi, active, found, dead, _, rfl⟩
      · refine regular.same only sound ?_
        unfold SenderAgent.view
        have none : (if agent.path.activeMulticast = none then agent.path.activeMulticast.toList else []) = [] := by
          split_ifs with free
          · rw [free]; rfl
          · rfl
        simp only [none, List.append_nil]
      · have left := regular.view.release (SenderAgent.view { agent with
            path := { agent.path.store bcdId { multi with isPathReleased := true } with activeMulticast := none }
            released := agent.released ++ [bcdId] })
          active (SenderAgent.view_marks found) dead (PathState.store_same agent.path found rfl) rfl rfl rfl rfl
        simp only [active, if_true, Option.toList_some]
        exact ⟨⟨sound, left.1⟩, left.2⟩

/-- A request keeps the start of the active multicast exactly when it approves a first push. -/
theorem SenderAgent.Regular.request (regular : agent.Regular) (only : agent.view.FirstOnly) {head : Nat}
    {now : Timeval} {calls : RequestCalls}
    (taken : senderStep config agent (.request head now calls) = .ok next) :
    next.Regular ∧ (next.view.FirstOnly ↔ FirstPush agent (.request head now calls)) := by
  simp only [senderStep] at taken
  split at taken
  · cases taken
  · next path made requested =>
      obtain rfl := Except.ok.inj taken
      have sound := regular.sound.request requested
      rcases PathState.request_ok requested with ⟨rfl, _, idle⟩ | ⟨bcdId, multi, requests, _, rfl⟩
      · exact ⟨regular, iff_of_true only fun bcdId multi requests => absurd requests (idle bcdId multi)⟩
      · have each : FirstPush agent (.request head now calls) ↔
            ((calls.push.fill PushReply.fresh).cmd = PushReplyCmd.push.code → bcdId ∉ agent.released) := by
          constructor
          · intro first
            exact first bcdId multi requests
          · rintro first other state ⟨_, same, _, _⟩
            rw [requests.2.1, Option.some.injEq] at same
            exact same ▸ first
        obtain ⟨free, first, found, due⟩ := requests
        by_cases accepted : (calls.push.fill PushReply.fresh).cmd = PushReplyCmd.push.code
        · rw [PathState.processReply_push accepted] at sound ⊢
          have started := regular.view.activate (SenderAgent.view { agent with
              path := { ({ agent.path with queuePush := agent.path.queuePush.eraseIdx head } : PathState).store bcdId
                { multi with controllerXid := (calls.push.fill PushReply.fresh).xid, bcdState := .initiated } with
                activeMulticast := some bcdId } })
            free (SenderAgent.view_marks found) (PathState.store_marks _) rfl rfl rfl rfl
          refine ⟨⟨sound, started.1⟩, ?_⟩
          rw [each, started.2]
          exact ⟨fun unreleased _ => unreleased, fun unreleased => unreleased accepted⟩
        · have same : SenderAgent.view { agent with
              path := ({ agent.path with queuePush := agent.path.queuePush.eraseIdx head } :
                PathState).processReply bcdId multi (calls.push.fill PushReply.fresh) } = agent.view := by
            unfold PathState.processReply SenderAgent.view
            simp only
            split_ifs
            · exact congrArg (fun marks => TransferView.mk marks _ _ _ _) (PathState.store_same _ found rfl)
            · exact congrArg (fun marks => TransferView.mk marks _ _ _ _) (PathState.store_same _ found rfl)
          have kept := regular.same only sound same
          exact ⟨kept.1, iff_of_true kept.2 (each.mpr fun push => absurd push accepted)⟩

/-- A stored state with the same marks keeps the agent regular. -/
theorem SenderAgent.Regular.store (regular : agent.Regular) (only : agent.view.FirstOnly) {bcdId : BcdID}
    {multi changed : MulticastState} (found : agent.path.hashMulticast bcdId = some multi)
    (same : changed.marks = multi.marks) (path : next.path = agent.path.store bcdId changed)
    (released : next.released = agent.released) (pathRelease : next.pathRelease = agent.pathRelease)
    (pc : next.pc = agent.pc) : next.Regular ∧ next.view.FirstOnly := by
  have state : changed.bcdState = multi.bcdState := congrArg TransferMarks.bcdState same
  refine regular.same only ?_ ?_
  · rw [path]
    apply regular.sound.store
    intro alive
    rw [state] at alive
    exact regular.sound.started bcdId multi found alive
  · unfold SenderAgent.view
    rw [path, released, pathRelease, pc]
    exact congrArg (fun marks => TransferView.mk marks _ _ _ _) (PathState.store_same _ found same)

theorem SenderAgent.Regular.receiveFirstSeq (regular : agent.Regular) (only : agent.view.FirstOnly)
    {bcdId : BcdID} {addr seqFirst : Nat} (taken : agent.receiveFirstSeq bcdId addr seqFirst = .ok next) :
    next.Regular ∧ next.view.FirstOnly := by
  unfold SenderAgent.receiveFirstSeq at taken
  split at taken
  · next multi idle found =>
      split at taken
      · cases taken
      · next counted received =>
          obtain rfl := Except.ok.inj taken
          have same : counted.marks = multi.marks := by
            unfold RepublicAgent.receiveFirstSeq at received
            split at received
            · cases received
            · obtain rfl := Except.ok.inj received
              rfl
          exact regular.store only found same rfl rfl rfl rfl
  · exact Except.ok.inj taken ▸ ⟨regular, only⟩

theorem SenderAgent.Regular.updateSeqEnd (regular : agent.Regular) (only : agent.view.FirstOnly) :
    agent.updateSeqEnd.Regular ∧ agent.updateSeqEnd.view.FirstOnly := by
  unfold SenderAgent.updateSeqEnd
  split
  · exact ⟨regular, only⟩
  · next bcdId addr handling =>
      split
      · exact regular.same only regular.sound rfl
      · next multi found =>
          split
          · exact regular.same only regular.sound rfl
          · next sender stored =>
              have same : (multicastStateUpdateSeqEnd multi addr sender).marks = multi.marks := by
                unfold multicastStateUpdateSeqEnd
                simp only
                split_ifs <;> rfl
              exact regular.store only found same rfl rfl rfl rfl

/-- An upgrade that leaves a multicast initiated found it initiated and not fresh. -/
theorem upgrade_initiated {multi : MulticastState} {option : Bool}
    (initiated : (startFullrate option (startAttempt multi)).bcdState = .initiated) :
    multi.bcdState = .initiated ∧ ¬ (multi.nPacketTotal = 0 ∧ multi.nByteTotal = 0) := by
  rcases startFullrate_bcdState (startAttempt multi) option with same | ⟨_, full⟩
  · rw [same] at initiated
    unfold startAttempt at initiated
    split_ifs at initiated with start
    exact ⟨initiated, fun totals => start ⟨initiated, totals⟩⟩
  · rw [full] at initiated
    cases initiated

theorem SenderAgent.Regular.queue (regular : agent.Regular) (only : agent.view.FirstOnly) (ring : TxRing)
    (estimate : Int) : (agent.queue config ring estimate).Regular ∧
      (agent.queue config ring estimate).view.FirstOnly := by
  unfold SenderAgent.queue
  split
  · next start none =>
      refine regular.same only regular.sound ?_
      unfold SenderAgent.view
      rw [start]
      rfl
  · next bcdId multi start current =>
      obtain ⟨active, found⟩ := PathState.activeState_eq current
      have marked := SenderAgent.view_marks found
      have sound := regular.sound.store bcdId (amNPktQueued config.firstFirstSeqFullrate multi
        agent.pathRelease ring estimate).1 fun _ => active
      by_cases dead : multi.bcdState = .dead
      · have unchanged : amNPktQueued config.firstFirstSeqFullrate multi agent.pathRelease ring estimate =
            (multi, agent.pathRelease, 0) := by
          unfold amNPktQueued
          rw [if_pos dead]
        rw [unchanged] at sound ⊢
        refine regular.same only sound ?_
        unfold SenderAgent.view
        rw [start]
        exact congrArg (fun marks => TransferView.mk marks _ _ _ _) (PathState.store_same _ found rfl)
      · have queued := amNPktQueued_queued config.firstFirstSeqFullrate agent.pathRelease ring estimate dead
        generalize amNPktQueued config.firstFirstSeqFullrate multi agent.pathRelease ring estimate = outcome
          at queued sound ⊢
        have upgraded := upgrade_ne_dead config.firstFirstSeqFullrate dead
        rw [← queued.state] at upgraded
        have kept := regular.view.of_active outcome.1.marks (SenderAgent.view { agent with
            path := agent.path.store bcdId outcome.1
            pathRelease := outcome.2.1
            pc := .move outcome.2.2 })
          only active marked (PathState.store_marks _) rfl rfl
          (fun initiated => ?started) (fun terminated => ?ended) (fun died => absurd died upgraded)
          (fun waiting => ⟨upgraded, ?waits⟩) (fun some => ?sending)
        case started =>
          have before := upgrade_initiated (queued.state.symm.trans initiated)
          exact ⟨before.1, decide_eq_false before.2⟩
        case ended => exact decide_eq_true (queued.terminated (of_decide_eq_true terminated)).1
        case waits =>
          rcases queued.waits waiting with before | terminated
          · have meets := (regular.view.waits before).here active marked
            exact decide_eq_true (queued.terminated (of_decide_eq_true meets.2)).1
          · exact decide_eq_true terminated
        case sending =>
          have started := upgrade_started multi config.firstFirstSeqFullrate dead fun initiated =>
            of_decide_eq_true ((regular.view.fine bcdId _ marked).clean
              (only bcdId multi.marks active marked initiated) fun _ => initiated).2
          rw [← queued.state] at started
          exact started
        exact ⟨⟨sound, kept.1⟩, kept.2⟩
  · exact ⟨regular, only⟩

theorem SenderAgent.Regular.move (regular : agent.Regular) (only : agent.view.FirstOnly) {turn : Bool}
    {space : Int} {ring : TxRing} (taken : agent.move config turn space ring = .ok next) :
    next.Regular ∧ next.view.FirstOnly := by
  have passed : ({ agent with pc := .check } : SenderAgent).Regular ∧
      ({ agent with pc := .check } : SenderAgent).view.FirstOnly :=
    ⟨⟨regular.sound, ⟨regular.view.fine, regular.view.recorded, regular.view.waits, fun some => absurd rfl some⟩⟩,
      only⟩
  unfold SenderAgent.move at taken
  split at taken
  · next nMultiRx bcdId multi start current =>
      obtain ⟨active, found⟩ := PathState.activeState_eq current
      have marked := SenderAgent.view_marks found
      split_ifs at taken with goes
      · split at taken
        · cases taken
        · next outcome sent =>
            obtain rfl := Except.ok.inj taken
            have processed := amProcessRings_processed sent
            have quota : agent.view.quota ≠ 0 := by
              unfold SenderAgent.view
              rw [start]
              exact goes.1
            have sending := (regular.view.sending quota).here active marked
            rw [show multi.marks.bcdState = outcome.1.bcdState from processed.state.symm] at sending
            have alive : outcome.1.bcdState ≠ .dead := by
              rw [processed.state]
              exact goes.2.2.2
            have sound := regular.sound.store bcdId outcome.1 fun _ => active
            have kept := regular.view.of_active outcome.1.marks (SenderAgent.view { agent with
                path := agent.path.store bcdId outcome.1
                pathRelease := outcome.2
                pc := .check })
              only active marked (PathState.store_marks _) rfl rfl
              (fun initiated => ?started)
              (fun terminated => decide_eq_true (processed.terminated (of_decide_eq_true terminated)))
              (fun died => absurd died alive) (fun waiting => ⟨alive, ?waits⟩) (fun some => absurd rfl some)
            case started =>
              have idle : outcome.1.bcdState = .initiated := initiated
              simp [idle] at sending
            case waits =>
              rcases processed.waits waiting with before | terminated
              · have meets := (regular.view.waits before).here active marked
                exact decide_eq_true (processed.terminated (of_decide_eq_true meets.2))
              · exact decide_eq_true terminated
            exact ⟨⟨sound, kept.1⟩, kept.2⟩
      · exact Except.ok.inj taken ▸ passed
  · exact Except.ok.inj taken ▸ passed
  · exact Except.ok.inj taken ▸ ⟨regular, only⟩

/-- The check kills a terminated multicast only. -/
theorem SenderAgent.Regular.check (regular : agent.Regular) (only : agent.view.FirstOnly) {ring : TxRing}
    (taken : agent.check ring = .ok next) : next.Regular ∧ next.view.FirstOnly := by
  unfold SenderAgent.check at taken
  split at taken
  · next start =>
      have quota : agent.view.quota = 0 := by
        unfold SenderAgent.view
        rw [start]
        rfl
      split_ifs at taken with quiet left
      · obtain rfl := Except.ok.inj taken
        exact ⟨⟨regular.sound, ⟨regular.view.fine, regular.view.recorded, regular.view.waits,
          fun some => absurd rfl some⟩⟩, only⟩
      · split at taken
        · cases taken
        · next bcdId multi current =>
            obtain rfl := Except.ok.inj taken
            obtain ⟨active, found⟩ := PathState.activeState_eq current
            have marked := SenderAgent.view_marks found
            have ended := ((regular.view.waits (Bool.not_eq_false _ |>.mp quiet)).here active marked).2
            have sound := regular.sound.store bcdId { multi with bcdState := .dead }
              fun _ => active
            have kept := regular.view.of_active { multi.marks with bcdState := .dead }
              (SenderAgent.view { agent with
                path := agent.path.store bcdId { multi with bcdState := .dead }
                pathRelease := { agent.pathRelease with needReleasePath := false }
                pc := .queue })
              only active marked (PathState.store_marks _) rfl rfl (fun initiated => by cases initiated) id
              (fun _ => ended) (fun waiting => by cases waiting) (fun some => absurd rfl some)
            exact ⟨⟨sound, kept.1⟩, kept.2⟩
      · obtain rfl := Except.ok.inj taken
        exact ⟨⟨regular.sound, ⟨regular.view.fine, regular.view.recorded, regular.view.waits,
          fun some => absurd rfl some⟩⟩, only⟩
  · exact Except.ok.inj taken ▸ ⟨regular, only⟩

/-- Every step keeps an agent regular. The start of the active multicast is kept exactly when the step
approves no repeated push. -/
theorem SenderAgent.Regular.step (regular : agent.Regular) (only : agent.view.FirstOnly) {event : SenderEvent}
    (taken : senderStep config agent event = .ok next) :
    next.Regular ∧ (next.view.FirstOnly ↔ FirstPush agent event) := by
  have always (kept : next.Regular ∧ next.view.FirstOnly) (met : FirstPush agent event) :
      next.Regular ∧ (next.view.FirstOnly ↔ FirstPush agent event) := ⟨kept.1, iff_of_true kept.2 met⟩
  cases event with
  | wrtReq bcdId dataSize =>
      simp only [senderStep] at taken
      split at taken
      · cases taken
      · next path written =>
          obtain rfl := Except.ok.inj taken
          exact always (regular.wrtReq only written) trivial
  | pshReq bcdId slaves now => exact always (regular.pshReq only taken) trivial
  | release calls => exact always (regular.release only taken) trivial
  | request head now calls => exact regular.request only taken
  | firstSeq bcdId addr seqFirst => exact always (regular.receiveFirstSeq only taken) trivial
  | updateSeqEnd =>
      obtain rfl := Except.ok.inj taken
      exact always (regular.updateSeqEnd only) trivial
  | queue ring estimate =>
      obtain rfl := Except.ok.inj taken
      exact always (regular.queue only ring estimate) trivial
  | move turn space ring => exact always (regular.move only taken) trivial
  | check ring => exact always (regular.check only taken) trivial

/-- A request that faults approves nothing. -/
theorem firstPush_of_error {event : SenderEvent} {fault : Fault}
    (failed : senderStep config agent event = .error fault) : FirstPush agent event := by
  cases event with
  | request head now calls =>
      intro bcdId multi requests
      simp only [senderStep] at failed
      split at failed
      · next other requested => exact absurd requests (PathState.request_error requested bcdId multi)
      · cases failed
  | _ => trivial

end Steps

theorem SenderAgent.initial_regular : SenderAgent.initial.Regular :=
  ⟨PathState.sound_initial, SenderAgent.initial_consistent.1⟩

/-- Approved multicasts can start throughout exactly the runs that approve no repeated push. -/
theorem approvedPush_starts_iff (config : AgentConfig) (events : List SenderEvent) :
    Throughout (senderStep config) (Startable config) SenderAgent.initial events ↔
      StepsMeet (senderStep config) FirstPush SenderAgent.initial events := by
  apply throughout_iff (fun agent => agent.Regular)
  · intro agent event next regular startable taken
    obtain ⟨after, exact⟩ := regular.step (startable_iff regular |>.mp startable) taken
    exact ⟨after, (startable_iff after).trans exact⟩
  · intro agent event fault _ _ failed
    exact firstPush_of_error failed
  · exact SenderAgent.initial_regular
  · exact (startable_iff SenderAgent.initial_regular).mpr SenderAgent.initial_consistent.2

/-- The file has one byte, and its only receiver asks for packet zero. The second push of the broadcast is
approved after the first one was released. -/
def secondPush : List SenderEvent :=
  [.wrtReq ⟨0, 0, 7⟩ 1, .pshReq ⟨0, 0, 7⟩ [⟨9, false⟩] (1, 0), .request 0 (2, 0) ⟨true, .reply 5 .push, true⟩,
    .queue ⟨1, 0, 4⟩ 1, .move true 1 ⟨1, 0, 4⟩, .check ⟨1, 0, 4⟩, .firstSeq ⟨0, 0, 7⟩ 9 0, .updateSeqEnd,
    .queue ⟨1, 0, 4⟩ 1, .move true 1 ⟨1, 0, 4⟩, .check ⟨1, 1, 4⟩, .release ⟨true, true⟩,
    .pshReq ⟨0, 0, 7⟩ [⟨9, false⟩] (1, 0), .request 0 (2, 0) ⟨true, .reply 6 .push, true⟩]

/-- The second push of a broadcast is approved but still marked terminated. -/
theorem approvedPush_stuck :
    ¬ ∀ (config : AgentConfig) (events : List SenderEvent),
      Throughout (senderStep config) (Startable config) SenderAgent.initial events := by
  intro always
  obtain ⟨final, reached, stuck⟩ := exists_of_check
    (execute (senderStep ⟨1024, true, 64⟩) SenderAgent.initial secondPush)
    (fun agent => agent.path.activeMulticast = some ⟨0, 0, 7⟩ ∧
      ((agent.path.hashMulticast ⟨0, 0, 7⟩).any fun multi =>
        multi.bcdState = .initiated ∧ multi.Terminated) = true) (by decide)
  obtain ⟨active, marked⟩ := of_decide_eq_true stuck
  obtain ⟨multi, found, state⟩ := (Option.any_eq_true _ _).mp marked
  obtain ⟨initiated, terminated⟩ := of_decide_eq_true state
  have startable := (always ⟨1024, true, 64⟩ secondPush).final reached
  exact (startable ⟨0, 0, 7⟩ multi active found initiated).1 terminated

end RepublicAgent
