/-
This file runs the request and release loop against the controller and says when a multicast uses a path
that it was granted.
-/

import RepublicAgent.Library.Execution
import RepublicAgent.Service.PathRequest

namespace RepublicAgent
open Execution

/-- The released multicasts and the calls to the controller are kept for the statements only. -/
structure PathHistory where
  path : PathState
  released : List BcdID
  trace : List ControllerCall

def PathHistory.initial : PathHistory := ⟨PathState.initial, [], []⟩

/-- Executors write and push broadcasts, the loop releases and requests, and the data channel thread
moves the transfer on. -/
inductive PathEvent where
  | wrtReq (bcdId : BcdID) (dataSize : Nat)
  | pshReq (bcdId : BcdID) (slaves : List Slave) (now : Timeval)
  | release (calls : ReleaseCalls)
  | request (head : Nat) (now : Timeval) (calls : RequestCalls)
  | transfer (bcdState : BcdState)
deriving DecidableEq, Repr

def pathStep (dataPayloadLen : Nat) (history : PathHistory) : PathEvent → Except Fault PathHistory
  | .wrtReq bcdId dataSize =>
      match history.path.wrtReq bcdId dataSize dataPayloadLen with
      | .error fault => .error fault
      | .ok path => .ok { history with path := path }
  | .pshReq bcdId slaves now =>
      match history.path.pshReq bcdId slaves now with
      | .error fault => .error fault
      | .ok path => .ok { history with path := path }
  | .release calls =>
      match history.path.release calls with
      | .error fault => .error fault
      | .ok (path, made) => .ok {
          path := path
          released := history.released ++
            if path.activeMulticast = none then history.path.activeMulticast.toList else []
          trace := history.trace ++ made }
  | .request head now calls =>
      match history.path.request head now calls with
      | .error fault => .error fault
      | .ok (path, made) => .ok { history with path := path, trace := history.trace ++ made }
  | .transfer bcdState => .ok { history with path := history.path.transfer bcdState }

/-- A call of the trace gives a path to one multicast or takes it away. -/
def grantAfter (_ : Option (BcdID × Int32)) : ControllerCall → Option (BcdID × Int32)
  | .push bcdId (.reply xid .push) => some (bcdId, xid)
  | _ => none

/-- The path that the controller has granted in the last call. -/
def granted (trace : List ControllerCall) : Option (BcdID × Int32) := trace.foldl grantAfter none

/-- The active multicast has a path by its own push call, and each path that was given back had been
granted. -/
structure PathsGranted (history : PathHistory) : Prop where
  active : ∀ bcdId, history.path.activeMulticast = some bcdId →
    ∃ multi, history.path.hashMulticast bcdId = some multi ∧
      granted history.trace = some (bcdId, multi.controllerXid)
  unpushed : ∀ before xid after, history.trace = before ++ .unpush xid :: after →
    ∃ bcdId, granted before = some (bcdId, xid)

/-- A failed call leaves the command `PUSH` in the reply object. It stands there from the beginning. -/
def PushOutcome.LeavesPush : PushOutcome → Prop
  | .reply _ _ => False
  | .failed _ cmd => cmd = none ∨ cmd = some PushReplyCmd.push.code

/-- No requested multicast has a failed push call that leaves the command `PUSH`. -/
def NoFalsePush (history : PathHistory) : PathEvent → Prop
  | .request head now calls =>
      ∀ bcdId multi, history.path.Requests head now bcdId multi → ¬ calls.push.LeavesPush
  | _ => True

section Steps

variable {dataPayloadLen : Nat} {history next : PathHistory}

theorem granted_push (trace : List ControllerCall) (bcdId : BcdID) (outcome : PushOutcome) :
    granted (trace ++ [.push bcdId outcome]) = grantAfter none (.push bcdId outcome) := by
  rw [granted, List.foldl_append]
  rfl

/-- A push call at the end of the trace gives nothing back. -/
theorem unpushed_append {trace : List ControllerCall} (last : ControllerCall)
    (ok : ∀ before xid after, trace = before ++ .unpush xid :: after → ∃ bcdId, granted before = some (bcdId, xid))
    (end_ok : ∀ xid, last = .unpush xid → ∃ bcdId, granted trace = some (bcdId, xid))
    (before : List ControllerCall) (xid : Int32) (after : List ControllerCall)
    (split : trace ++ [last] = before ++ .unpush xid :: after) :
    ∃ bcdId, granted before = some (bcdId, xid) := by
  rcases List.eq_nil_or_concat after with rfl | ⟨others, final, rfl⟩
  · obtain ⟨same, ends⟩ := List.append_inj' split rfl
    rw [← same]
    exact end_ok xid (List.singleton_inj.mp ends)
  · rw [List.concat_eq_append, ← List.cons_append, ← List.append_assoc] at split
    exact ok before xid others (List.append_inj' split rfl).1

/-- A step that leaves the active multicast, its identifier of the path and the trace keeps the grants. -/
theorem PathsGranted.keep (good : PathsGranted history)
    (active : next.path.activeMulticast = history.path.activeMulticast) (trace : next.trace = history.trace)
    (kept : ∀ bcdId multi, history.path.hashMulticast bcdId = some multi →
      ∃ changed, next.path.hashMulticast bcdId = some changed ∧ changed.controllerXid = multi.controllerXid) :
    PathsGranted next where
  active bcdId current := by
    rw [active] at current
    obtain ⟨multi, found, grant⟩ := good.active bcdId current
    obtain ⟨changed, stored, same⟩ := kept bcdId multi found
    exact ⟨changed, stored, by rw [trace, same, grant]⟩
  unpushed before xid after split := good.unpushed before xid after (trace ▸ split)

/-- Storing a state with the same identifier of the path keeps the identifiers. -/
theorem PathState.store_xid {path : PathState} {bcdId : BcdID} {multi : MulticastState}
    (xid : ∀ old, path.hashMulticast bcdId = some old → multi.controllerXid = old.controllerXid)
    (other : BcdID) (old : MulticastState) (found : path.hashMulticast other = some old) :
    ∃ changed, (path.store bcdId multi).hashMulticast other = some changed ∧
      changed.controllerXid = old.controllerXid := by
  by_cases same : other = bcdId
  · subst same
    exact ⟨multi, store_self other multi, xid old found⟩
  · rw [store_other same]
    exact ⟨old, found, rfl⟩

/-- A release gives back what was granted. -/
theorem PathsGranted.release (good : PathsGranted history) {calls : ReleaseCalls}
    (taken : pathStep dataPayloadLen history (.release calls) = .ok next) : PathsGranted next := by
  simp only [pathStep] at taken
  split at taken
  · cases taken
  · next path made released =>
      obtain rfl := Except.ok.inj taken
      rcases PathState.release_ok released with ⟨rfl, rfl⟩ | ⟨bcdId, multi, active, found, _, rfl, rfl⟩
      · exact good.keep rfl (List.append_nil _) fun _ multi found => ⟨multi, found, rfl⟩
      · obtain ⟨state, stored, grant⟩ := good.active bcdId active
        rw [found, Option.some.injEq] at stored
        subst stored
        constructor
        · intro other current
          cases current
        · apply unpushed_append _ good.unpushed
          intro xid same
          obtain rfl := ControllerCall.unpush.inj same
          exact ⟨bcdId, grant⟩

/-- A request keeps the grants exactly when it takes no failed call for a granted one. -/
theorem request_granted_iff (good : PathsGranted history) {head : Nat} {now : Timeval} {calls : RequestCalls}
    (taken : pathStep dataPayloadLen history (.request head now calls) = .ok next) :
    PathsGranted next ↔ NoFalsePush history (.request head now calls) := by
  simp only [pathStep] at taken
  split at taken
  · cases taken
  · next path made requested =>
      obtain rfl := Except.ok.inj taken
      rcases PathState.request_ok requested with ⟨rfl, rfl, idle⟩ | ⟨bcdId, multi, requests, rfl, rfl⟩
      · have kept : PathsGranted { history with trace := history.trace ++ [] } :=
          good.keep rfl (List.append_nil _) fun _ multi found => ⟨multi, found, rfl⟩
        exact iff_of_true kept fun bcdId multi requests => absurd requests (idle bcdId multi)
      · have only : NoFalsePush history (.request head now calls) ↔ ¬ calls.push.LeavesPush := by
          constructor
          · intro each
            exact each bcdId multi requests
          · intro honest _ _ _
            exact honest
        have unpushed := unpushed_append (.push bcdId calls.push) good.unpushed fun xid same => by
          cases same
        obtain ⟨free, first, found, due⟩ := requests
        rw [only]
        by_cases accepted : (calls.push.fill PushReply.fresh).cmd = PushReplyCmd.push.code
        · rw [PathState.processReply_push accepted]
          cases outcome : calls.push with
          | reply xid cmd =>
              rw [outcome] at accepted unpushed
              obtain rfl := PushReplyCmd.code_eq_push accepted
              refine iff_of_true ⟨?_, unpushed⟩ id
              intro other current
              obtain rfl := Option.some.inj current
              exact ⟨_, PathState.store_self bcdId _, granted_push history.trace bcdId _⟩
          | failed xid cmd =>
              rw [outcome] at accepted
              have leaves : (PushOutcome.failed xid cmd).LeavesPush := by
                cases cmd with
                | none => exact .inl rfl
                | some code => exact .inr (congrArg some accepted)
              refine iff_of_false ?_ fun honest => honest leaves
              intro after
              obtain ⟨state, _, grant⟩ := after.active bcdId rfl
              rw [granted_push] at grant
              cases grant
        · refine iff_of_true ⟨?_, unpushed⟩ ?_
          · intro other current
            rw [PathState.processReply_other accepted, free] at current
            cases current
          · intro leaves
            cases outcome : calls.push with
            | reply xid cmd =>
                rw [outcome] at leaves
                exact leaves
            | failed xid cmd =>
                rw [outcome] at leaves accepted
                rcases leaves with rfl | rfl
                · exact accepted rfl
                · exact accepted rfl

/-- The other steps keep the grants. -/
theorem PathsGranted.other (good : PathsGranted history) {event : PathEvent}
    (quiet : ∀ head now calls, event ≠ .request head now calls)
    (taken : pathStep dataPayloadLen history event = .ok next) : PathsGranted next := by
  cases event with
  | wrtReq bcdId dataSize =>
      simp only [pathStep] at taken
      split at taken
      · cases taken
      · next path written =>
          obtain rfl := Except.ok.inj taken
          obtain ⟨absent, multi, _, rfl⟩ := PathState.wrtReq_ok written
          exact good.keep rfl rfl (PathState.store_xid fun old found => by rw [absent] at found; cases found)
  | pshReq bcdId slaves now =>
      simp only [pathStep] at taken
      split at taken
      · cases taken
      · next path pushed =>
          obtain rfl := Except.ok.inj taken
          rcases PathState.pshReq_ok pushed with ⟨_, rfl⟩ | ⟨_, multi, found, rfl⟩
          · exact good
          · refine good.keep rfl rfl (PathState.store_xid fun old present => ?_)
            rw [found, Option.some.injEq] at present
            subst present
            exact (pushed_frame multi slaves).2
  | release calls => exact good.release taken
  | request head now calls => exact absurd rfl (quiet head now calls)
  | transfer bcdState =>
      obtain rfl := Except.ok.inj taken
      rcases PathState.transfer_cases history.path bcdState with same | ⟨bcdId, multi, _, found, stored⟩
      · exact good.keep (congrArg PathState.activeMulticast same) rfl fun other old present =>
          ⟨old, (congrFun (congrArg PathState.hashMulticast same) other).trans present, rfl⟩
      · refine good.keep (by simp only [stored, PathState.store_activeMulticast]) rfl fun other old present => ?_
        simp only [stored]
        refine PathState.store_xid (fun kept there => ?_) other old present
        rw [found, Option.some.injEq] at there
        rw [there]

end Steps

/-- A run uses granted paths only exactly when no request has a failed push call that leaves the
command `PUSH` in the reply object. -/
theorem pathGranted_iff (dataPayloadLen : Nat) (events : List PathEvent) :
    Throughout (pathStep dataPayloadLen) PathsGranted PathHistory.initial events ↔
      StepsMeet (pathStep dataPayloadLen) NoFalsePush PathHistory.initial events := by
  apply throughout_iff (fun _ => True)
  · intro history event next _ good taken
    refine ⟨trivial, ?_⟩
    cases event with
    | request head now calls => exact request_granted_iff good taken
    | wrtReq bcdId dataSize => exact iff_of_true (good.other (by simp) taken) trivial
    | pshReq bcdId slaves now => exact iff_of_true (good.other (by simp) taken) trivial
    | release calls => exact iff_of_true (good.other (by simp) taken) trivial
    | transfer bcdState => exact iff_of_true (good.other (by simp) taken) trivial
  · intro history event fault _ good failed
    cases event with
    | request head now calls =>
        intro bcdId multi requests
        simp only [pathStep] at failed
        split at failed
        · next fault requested => exact absurd requests (PathState.request_error requested bcdId multi)
        · cases failed
    | wrtReq bcdId dataSize => trivial
    | pshReq bcdId slaves now => trivial
    | release calls => trivial
    | transfer bcdState => trivial
  · trivial
  · exact ⟨fun bcdId current => (by cases current),
      fun before xid after split => (by simp [PathHistory.initial] at split)⟩

/-- The transport does not open and the push call fails. The fresh reply object says `PUSH`. -/
theorem pathGranted_withoutReply :
    ¬ ∀ (dataPayloadLen : Nat) (events : List PathEvent),
      Throughout (pathStep dataPayloadLen) PathsGranted PathHistory.initial events := by
  intro always
  have good := always 10 [.wrtReq ⟨0, 0, 7⟩ 25, .pshReq ⟨0, 0, 7⟩ [⟨1, false⟩] (0, 0),
    .request 0 (1, 0) ⟨false, .failed none none, false⟩]
  obtain ⟨final, completed, active⟩ := exists_of_check
    (execute (pathStep 10) PathHistory.initial [.wrtReq ⟨0, 0, 7⟩ 25,
      .pshReq ⟨0, 0, 7⟩ [⟨1, false⟩] (0, 0), .request 0 (1, 0) ⟨false, .failed none none, false⟩])
    (fun history => history.path.activeMulticast = some ⟨0, 0, 7⟩ ∧ granted history.trace = none)
    (by decide)
  obtain ⟨current, nothing⟩ := of_decide_eq_true active
  obtain ⟨multi, _, grant⟩ := (good.final completed).active _ current
  rw [nothing] at grant
  cases grant

end RepublicAgent
