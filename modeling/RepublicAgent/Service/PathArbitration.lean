/-
This file follows the pushed multicasts through the queue and the active slot while all calls to the
controller succeed.
-/

import RepublicAgent.Service.PathGrant

namespace RepublicAgent
open Execution

/-- The controller refuses any number of pushes, grants one and gets its path back before the next push. -/
inductive Arbitrated : Option Int32 → List ControllerCall → Prop where
  | start : Arbitrated none []
  | refused {trace : List ControllerCall} (bcdId : BcdID) (xid : Int32) {cmd : PushReplyCmd} :
      Arbitrated none trace → cmd ≠ .push → Arbitrated none (trace ++ [.push bcdId (.reply xid cmd)])
  | granted {trace : List ControllerCall} (bcdId : BcdID) (xid : Int32) :
      Arbitrated none trace → Arbitrated (some xid) (trace ++ [.push bcdId (.reply xid .push)])
  | returned {trace : List ControllerCall} {xid : Int32} :
      Arbitrated (some xid) trace → Arbitrated none (trace ++ [.unpush xid])

/-- All calls of the event succeed. -/
def PathEvent.CallsSucceed : PathEvent → Prop
  | .release calls => calls.opens = true ∧ calls.unpush = true
  | .request _ _ calls => calls.opens = true ∧ calls.push.succeeds = true ∧ calls.closes = true
  | _ => True

/-- The multicasts that the events push to at least one receiver. -/
def pushRequests (events : List PathEvent) : List BcdID :=
  events.flatMap fun event =>
    match event with
    | .pshReq bcdId slaves _ => if slaves = [] then [] else [bcdId]
    | _ => []

/-- The identifier of the path in use. -/
def PathState.activeXid (path : PathState) : Option Int32 :=
  path.activeMulticast.bind fun bcdId => (path.hashMulticast bcdId).map MulticastState.controllerXid

/-- The waiting, the active and the released multicasts of a history. -/
def PathHistory.places (history : PathHistory) : List BcdID :=
  history.path.queuePush ++ history.path.activeMulticast.toList ++ history.released

/-- The history is consistent with the pushes so far. -/
structure PathHistory.Arbitrates (history : PathHistory) (pushed : List BcdID) : Prop where
  sound : history.path.Sound
  places : history.places.Perm pushed
  trace : Arbitrated history.path.activeXid history.trace

section Steps

variable {dataPayloadLen : Nat} {history next : PathHistory} {pushed : List BcdID}

theorem PathState.activeXid_none {path : PathState} (free : path.activeMulticast = none) :
    path.activeXid = none := by
  rw [activeXid, free]
  rfl

theorem PathState.activeXid_some {path : PathState} {bcdId : BcdID} {multi : MulticastState}
    (active : path.activeMulticast = some bcdId) (found : path.hashMulticast bcdId = some multi) :
    path.activeXid = some multi.controllerXid := by
  rw [activeXid, active, Option.bind_some, found]
  rfl

/-- An activated multicast uses the path of its state. -/
theorem PathState.activated_activeXid {path : PathState} (bcdId : BcdID) (multi : MulticastState) :
    ({ path.store bcdId multi with activeMulticast := some bcdId } : PathState).activeXid =
      some multi.controllerXid := by
  rw [activeXid, Option.bind_some, show _ = some multi from store_self bcdId multi]
  rfl

/-- Storing a state with the same identifier of the path leaves the path in use. -/
theorem PathState.store_activeXid {path : PathState} (bcdId : BcdID) (multi : MulticastState)
    (xid : ∀ old, path.hashMulticast bcdId = some old → multi.controllerXid = old.controllerXid)
    (sound : path.Sound) : (path.store bcdId multi).activeXid = path.activeXid := by
  cases active : path.activeMulticast with
  | none => rw [activeXid_none active, activeXid_none (by exact active)]
  | some current =>
      obtain ⟨old, found⟩ := sound.active current active
      obtain ⟨changed, stored, same⟩ := PathState.store_xid xid current old found
      rw [activeXid_some active found, activeXid_some (by exact active) stored, same]

/-- Taking the head out of the queue and putting it somewhere else keeps the places. -/
theorem perm_eraseIdx {queue : List BcdID} {head : Nat} {bcdId : BcdID} (first : queue[head]? = some bcdId) :
    queue.Perm (bcdId :: queue.eraseIdx head) := by
  obtain ⟨within, same⟩ := List.getElem?_eq_some_iff.mp first
  rw [← same]
  exact (List.getElem_cons_eraseIdx_perm within).symm

theorem PathHistory.Arbitrates.wrtReq (good : history.Arbitrates pushed) {bcdId : BcdID} {dataSize : Nat}
    {path : PathState} (written : history.path.wrtReq bcdId dataSize dataPayloadLen = .ok path) :
    ({ history with path := path } : PathHistory).Arbitrates pushed := by
  have sound := good.sound.wrtReq written
  obtain ⟨absent, multi, _, rfl⟩ := PathState.wrtReq_ok written
  refine ⟨sound, good.places, ?_⟩
  rw [PathState.store_activeXid _ _ (fun old found => by rw [absent] at found; cases found) good.sound]
  exact good.trace

theorem PathHistory.Arbitrates.pshReq (good : history.Arbitrates pushed) {bcdId : BcdID} {slaves : List Slave}
    {now : Timeval} {path : PathState} (taken : history.path.pshReq bcdId slaves now = .ok path) :
    ({ history with path := path } : PathHistory).Arbitrates
      (pushed ++ if slaves = [] then [] else [bcdId]) := by
  have sound := good.sound.pshReq taken
  rcases PathState.pshReq_ok taken with ⟨empty, rfl⟩ | ⟨some, multi, found, rfl⟩
  · rw [if_pos empty, List.append_nil]
    exact good
  · rw [if_neg some]
    refine ⟨sound, ?_, ?_⟩
    · have moved : ((history.path.queuePush ++ [bcdId]) ++ history.path.activeMulticast.toList ++
          history.released).Perm (history.places ++ [bcdId]) := by
        simp only [PathHistory.places, List.append_assoc]
        refine List.Perm.append_left _ ?_
        rw [← List.append_assoc _ _ [bcdId]]
        exact List.perm_append_comm
      exact moved.trans (good.places.append_right [bcdId])
    · have same := PathState.store_activeXid bcdId
        { slaves.foldl createSenderState (multicastStateReset multi) with tvPush := now }
        (fun old present => by
          rw [found, Option.some.injEq] at present
          subst present
          exact (pushed_frame multi slaves).2) good.sound
      exact same ▸ good.trace

theorem PathHistory.Arbitrates.transfer (good : history.Arbitrates pushed) (bcdState : BcdState) :
    ({ history with path := history.path.transfer bcdState } : PathHistory).Arbitrates pushed := by
  have sound := good.sound.transfer bcdState
  rcases PathState.transfer_cases history.path bcdState with same | ⟨bcdId, multi, active, found, stored⟩
  · rw [same]
    exact good
  · rw [stored] at sound ⊢
    refine ⟨sound, good.places, ?_⟩
    rw [PathState.store_activeXid _ _ (fun old present => by
      rw [found, Option.some.injEq] at present
      rw [← present]) good.sound]
    exact good.trace

theorem PathHistory.Arbitrates.release (good : history.Arbitrates pushed) {calls : ReleaseCalls}
    (taken : pathStep dataPayloadLen history (.release calls) = .ok next) : next.Arbitrates pushed := by
  simp only [pathStep] at taken
  split at taken
  · cases taken
  · next path made released =>
      obtain rfl := Except.ok.inj taken
      have sound := good.sound.release released
      rcases PathState.release_ok released with ⟨rfl, rfl⟩ | ⟨bcdId, multi, active, found, _, rfl, rfl⟩
      · refine ⟨sound, ?_, by simpa using good.trace⟩
        have unchanged : (if history.path.activeMulticast = none then history.path.activeMulticast.toList
            else []) = [] := by
          split_ifs with free
          · rw [free]; rfl
          · rfl
        simpa only [PathHistory.places, unchanged, List.append_nil] using good.places
      · refine ⟨sound, ?_, ?_⟩
        · have before := good.places
          simp only [PathHistory.places, active, Option.toList_some] at before
          simp only [PathHistory.places, active, PathState.store_queuePush, if_true, Option.toList_none,
            Option.toList_some,
            List.append_nil]
          refine List.Perm.trans ?_ before
          rw [List.append_assoc]
          exact List.Perm.append_left _ List.perm_append_comm
        · have before := good.trace
          rw [PathState.activeXid_some active found] at before
          exact .returned before

theorem PathHistory.Arbitrates.request (good : history.Arbitrates pushed) {head : Nat} {now : Timeval}
    {calls : RequestCalls} (succeeds : calls.push.succeeds = true)
    (taken : pathStep dataPayloadLen history (.request head now calls) = .ok next) : next.Arbitrates pushed := by
  simp only [pathStep] at taken
  split at taken
  · cases taken
  · next path made requested =>
      obtain rfl := Except.ok.inj taken
      have sound := good.sound.request requested
      rcases PathState.request_ok requested with ⟨rfl, rfl, _⟩ | ⟨bcdId, multi, ⟨free, first, found, _⟩, rfl, rfl⟩
      · exact ⟨sound, good.places, by simpa using good.trace⟩
      · have idle := good.trace
        rw [PathState.activeXid_none free] at idle
        have popped := perm_eraseIdx first
        have before := good.places
        simp only [PathHistory.places, free, Option.toList_none, List.append_nil] at before
        cases outcome : calls.push with
        | failed xid cmd =>
            rw [outcome] at succeeds
            cases succeeds
        | reply xid cmd =>
            simp only [outcome, PushOutcome.fill] at sound ⊢
            by_cases accepted : cmd = .push
            · subst accepted
              rw [PathState.processReply_push rfl] at sound ⊢
              refine ⟨sound, ?_, ?_⟩
              · simp only [PathHistory.places, PathState.store_queuePush, Option.toList_some]
                refine List.Perm.trans (List.Perm.append_right _ ?_) before
                exact List.perm_append_comm.trans popped.symm
              · convert Arbitrated.granted bcdId xid idle using 1
                exact PathState.activated_activeXid bcdId _
            · rw [PathState.processReply_again accepted] at sound ⊢
              refine ⟨sound, ?_, ?_⟩
              · simp only [PathHistory.places, PathState.store_activeMulticast, free, Option.toList_none,
                  List.append_nil]
                refine List.Perm.trans (List.Perm.append_right _ ?_) before
                exact List.perm_append_comm.trans popped.symm
              · rw [PathState.activeXid_none (by exact free)]
                exact .refused bcdId xid idle accepted

/-- Each step keeps the arbitration and adds its push. -/
theorem PathHistory.Arbitrates.step (good : history.Arbitrates pushed) {event : PathEvent}
    (succeeds : event.CallsSucceed) (taken : pathStep dataPayloadLen history event = .ok next) :
    next.Arbitrates (pushed ++ pushRequests [event]) := by
  cases event with
  | wrtReq bcdId dataSize =>
      simp only [pathStep] at taken
      split at taken
      · cases taken
      · next path written =>
          obtain rfl := Except.ok.inj taken
          simpa [pushRequests] using good.wrtReq written
  | pshReq bcdId slaves now =>
      simp only [pathStep] at taken
      split at taken
      · cases taken
      · next path accepted =>
          obtain rfl := Except.ok.inj taken
          simpa [pushRequests] using good.pshReq accepted
  | release calls => simpa [pushRequests] using good.release taken
  | request head now calls => simpa [pushRequests] using good.request succeeds.2.1 taken
  | transfer bcdState =>
      obtain rfl := Except.ok.inj taken
      simpa [pushRequests] using good.transfer bcdState

/-- A run keeps the arbitration. -/
theorem PathHistory.Arbitrates.run {events : List PathEvent} (good : history.Arbitrates pushed)
    (succeed : ∀ event ∈ events, event.CallsSucceed)
    (completed : execute (pathStep dataPayloadLen) history events = .ok next) :
    next.Arbitrates (pushed ++ pushRequests events) := by
  induction events generalizing history pushed with
  | nil =>
      obtain rfl := Except.ok.inj completed
      simpa [pushRequests] using good
  | cons event events ih =>
      obtain ⟨middle, taken, rest⟩ := execute_cons_ok.mp completed
      have after := ih (good.step (succeed event (by simp)) taken)
        (fun other member => succeed other (by simp [member]))
        rest
      simpa [pushRequests] using after

end Steps

/-- In every run with distinct pushes and without failed calls, at most one multicast is in transfer,
each pushed multicast is in exactly one place, and the controller sees an orderly sequence of calls. -/
theorem pathArbitration (dataPayloadLen : Nat) (events : List PathEvent) (final : PathHistory)
    (distinct : (pushRequests events).Nodup) (succeed : ∀ event ∈ events, event.CallsSucceed)
    (completed : execute (pathStep dataPayloadLen) PathHistory.initial events = .ok final) :
    (∀ bcdId multi, final.path.hashMulticast bcdId = some multi → multi.bcdState ≠ .dead →
        final.path.activeMulticast = some bcdId) ∧
      final.places.Nodup ∧ (∀ bcdId, bcdId ∈ final.places ↔ bcdId ∈ pushRequests events) ∧
      Arbitrated final.path.activeXid final.trace := by
  have initial : PathHistory.initial.Arbitrates [] := ⟨PathState.sound_initial, .refl _, .start⟩
  have good := initial.run succeed completed
  rw [List.nil_append] at good
  exact ⟨good.sound.started, good.places.nodup_iff.mpr distinct, fun _ => good.places.mem_iff, good.trace⟩

/-- A push is postponed, then accepted, ends and is released. -/
theorem pathArbitration_onePush :
    ∃ final : PathHistory, final.trace.length = 3 ∧ final.released = [⟨0, 0, 7⟩] ∧ final.places.Nodup := by
  obtain ⟨final, completed, shape⟩ := exists_of_check
    (execute (pathStep 10) PathHistory.initial [.wrtReq ⟨0, 0, 7⟩ 25,
      .pshReq ⟨0, 0, 7⟩ [⟨1, false⟩] (0, 0), .request 0 (1, 0) ⟨true, .reply 0 .postpone, true⟩,
      .request 0 (2, 0) ⟨true, .reply 5 .push, true⟩, .transfer .fullrate, .transfer .dead, .release ⟨true, true⟩])
    (fun history => history.trace.length = 3 ∧ history.released = [⟨0, 0, 7⟩]) (by decide)
  obtain ⟨calls, released⟩ := of_decide_eq_true shape
  have arbitrated := pathArbitration 10 [.wrtReq ⟨0, 0, 7⟩ 25,
    .pshReq ⟨0, 0, 7⟩ [⟨1, false⟩] (0, 0), .request 0 (1, 0) ⟨true, .reply 0 .postpone, true⟩,
    .request 0 (2, 0) ⟨true, .reply 5 .push, true⟩, .transfer .fullrate, .transfer .dead,
    .release ⟨true, true⟩] final (by decide) (by simp [PathEvent.CallsSucceed, PushOutcome.succeeds]) completed
  exact ⟨final, calls, released, arbitrated.2.1⟩

end RepublicAgent
