/-
This file models how the service thread queues pushes and asks the controller for the multicast path. The
option `connect_controller` is set.
-/

import RepublicAgent.Sender.Multicast

namespace RepublicAgent

/-- The value `PUSH` is zero in `PushReplyCmd`. -/
inductive PushReplyCmd where
  | push
  | postpone
  | deny
deriving DecidableEq, Repr

def PushReplyCmd.code : PushReplyCmd → Int32
  | .push => 0
  | .postpone => 1
  | .deny => 2

theorem PushReplyCmd.code_eq_push {cmd : PushReplyCmd} (same : cmd.code = PushReplyCmd.push.code) :
    cmd = .push := by
  cases cmd with
  | push => rfl
  | postpone => exact absurd same (by decide)
  | deny => exact absurd same (by decide)

/-- The fields of the reply object that the thread reads. -/
structure PushReply where
  xid : Int32
  cmd : Int32
deriving DecidableEq, Repr

/-- A fresh object is cleared. -/
def PushReply.fresh : PushReply := ⟨0, 0⟩

/-- The controller answers, or the call fails after it has read some fields of the reply. -/
inductive PushOutcome where
  | reply (xid : Int32) (cmd : PushReplyCmd)
  | failed (xid cmd : Option Int32)
deriving DecidableEq, Repr

def PushOutcome.succeeds : PushOutcome → Bool
  | .reply _ _ => true
  | .failed _ _ => false

/-- The call reads its fields into the object. -/
def PushOutcome.fill (object : PushReply) : PushOutcome → PushReply
  | .reply xid cmd => ⟨xid, cmd.code⟩
  | .failed xid cmd => ⟨xid.getD object.xid, cmd.getD object.cmd⟩

/-- The thread makes these calls for one request. -/
structure RequestCalls where
  opens : Bool
  push : PushOutcome
  closes : Bool
deriving DecidableEq, Repr

/-- The thread makes these calls for one release. -/
structure ReleaseCalls where
  opens : Bool
  unpush : Bool
deriving DecidableEq, Repr

/-- Each call runs only without an error, and the block around it clears the error. -/
def errorAfter (errorP succeeds : Bool) : Bool := if !errorP && succeeds then errorP else false

/-- The calls that reach the controller. -/
inductive ControllerCall where
  | push (bcdId : BcdID) (outcome : PushOutcome)
  | unpush (xid : Int32)
deriving DecidableEq, Repr

/-- The reply object behind the calls of a request. -/
def RequestCalls.replyObject (calls : RequestCalls) : PushReply :=
  if errorAfter false calls.opens then PushReply.fresh else calls.push.fill PushReply.fresh

/-- The state of the multicasts, the queue of the waiting ones and the active one. -/
structure PathState where
  hashMulticast : BcdID → Option MulticastState
  queuePush : List BcdID
  activeMulticast : Option BcdID

def PathState.initial : PathState := ⟨fun _ => none, [], none⟩

def PathState.store (path : PathState) (bcdId : BcdID) (multi : MulticastState) : PathState :=
  { path with hashMulticast := Function.update path.hashMulticast bcdId (some multi) }

/-- A dead active multicast gives its path back. -/
def PathState.release (path : PathState) (calls : ReleaseCalls) :
    Except Fault (PathState × List ControllerCall) :=
  match path.activeMulticast with
  | none => .ok (path, [])
  | some bcdId =>
      match path.hashMulticast bcdId with
      | none => .error .badPointer
      | some multi =>
          if multi.bcdState = .dead then
            let released := { path.store bcdId { multi with isPathReleased := true } with activeMulticast := none }
            .ok (released, if errorAfter false calls.opens then [] else [.unpush multi.controllerXid])
          else .ok (path, [])

/-- The reply decides what becomes of a multicast that was taken out of the queue. A denied multicast
falls through to the postponed ones, and an unknown command drops it. -/
def PathState.processReply (path : PathState) (bcdId : BcdID) (multi : MulticastState) (reply : PushReply) :
    PathState :=
  let answered := { multi with controllerXid := reply.xid }
  if reply.cmd = PushReplyCmd.deny.code ∨ reply.cmd = PushReplyCmd.postpone.code then
    { path.store bcdId { answered with tvPush := (multi.tvPush.1 + 1, multi.tvPush.2) } with
      queuePush := path.queuePush ++ [bcdId] }
  else if reply.cmd = PushReplyCmd.push.code then
    { path.store bcdId { answered with bcdState := .initiated } with activeMulticast := some bcdId }
  else path.store bcdId answered

/-- Without an active multicast the head of the queue is requested when it is due. The skip list
decides which element is its head. -/
def PathState.request (path : PathState) (head : Nat) (now : Timeval) (calls : RequestCalls) :
    Except Fault (PathState × List ControllerCall) :=
  match path.activeMulticast, path.queuePush[head]? with
  | none, some bcdId =>
      match path.hashMulticast bcdId with
      | none => .error .badPointer
      | some multi =>
          if timerLess multi.tvPush now then
            let popped := { path with queuePush := path.queuePush.eraseIdx head }
            .ok (popped.processReply bcdId multi calls.replyObject,
              if errorAfter false calls.opens then [] else [.push bcdId calls.push])
          else .ok (path, [])
  | _, _ => .ok (path, [])

/-- The handler of `MSG_WRT_REQ` creates the state. A missing state is dereferenced. -/
def PathState.wrtReq (path : PathState) (bcdId : BcdID) (dataSize dataPayloadLen : Nat) :
    Except Fault PathState :=
  match path.hashMulticast bcdId, createBcdState dataSize dataPayloadLen with
  | some _, _ => .error .assertion
  | none, none => .error .badPointer
  | none, some multi => .ok (path.store bcdId multi)

/-- The handler of `MSG_PSH_REQ` queues the multicast when there are receivers on other hosts. -/
def PathState.pshReq (path : PathState) (bcdId : BcdID) (slaves : List Slave) (now : Timeval) :
    Except Fault PathState :=
  match path.hashMulticast bcdId with
  | none => .error .assertion
  | some multi =>
      if slaves = [] then .ok path
      else
        let pushed := slaves.foldl createSenderState (multicastStateReset multi)
        .ok { path.store bcdId { pushed with tvPush := now } with queuePush := path.queuePush ++ [bcdId] }

/-- The data channel thread moves the active multicast through its states while it is not dead. -/
def PathState.transfer (path : PathState) (bcdState : BcdState) : PathState :=
  match path.activeMulticast with
  | none => path
  | some bcdId =>
      match path.hashMulticast bcdId with
      | none => path
      | some multi =>
          if multi.bcdState = .dead then path else path.store bcdId { multi with bcdState := bcdState }

section Lemmas

@[simp] theorem errorAfter_false (succeeds : Bool) : errorAfter false succeeds = false := by
  cases succeeds <;> rfl

/-- A failed open does not keep the thread from the push call. -/
theorem RequestCalls.replyObject_eq (calls : RequestCalls) :
    calls.replyObject = calls.push.fill PushReply.fresh := by
  simp [replyObject]

variable {path next : PathState} {made : List ControllerCall}

@[simp] theorem PathState.store_queuePush (bcdId : BcdID) (multi : MulticastState) :
    (path.store bcdId multi).queuePush = path.queuePush := rfl

@[simp] theorem PathState.store_activeMulticast (bcdId : BcdID) (multi : MulticastState) :
    (path.store bcdId multi).activeMulticast = path.activeMulticast := rfl

@[simp] theorem PathState.store_self (bcdId : BcdID) (multi : MulticastState) :
    (path.store bcdId multi).hashMulticast bcdId = some multi := Function.update_self ..

theorem PathState.store_other {bcdId other : BcdID} (different : other ≠ bcdId) (multi : MulticastState) :
    (path.store bcdId multi).hashMulticast other = path.hashMulticast other :=
  Function.update_of_ne different ..

/-- A release does nothing or ends the active multicast. -/
theorem PathState.release_ok {calls : ReleaseCalls} (taken : path.release calls = .ok (next, made)) :
    (next = path ∧ made = []) ∨
      ∃ bcdId multi, path.activeMulticast = some bcdId ∧ path.hashMulticast bcdId = some multi ∧
        multi.bcdState = .dead ∧ made = [.unpush multi.controllerXid] ∧
        next = { path.store bcdId { multi with isPathReleased := true } with activeMulticast := none } := by
  unfold release at taken
  split at taken
  · next free =>
      obtain ⟨rfl, rfl⟩ := Prod.mk.inj (Except.ok.inj taken)
      exact .inl ⟨rfl, rfl⟩
  · next bcdId active =>
      split at taken
      · cases taken
      · next multi found =>
          simp only [errorAfter_false, Bool.false_eq_true, if_false] at taken
          split_ifs at taken with dead
          · obtain ⟨rfl, rfl⟩ := Prod.mk.inj (Except.ok.inj taken)
            exact .inr ⟨bcdId, multi, active, found, dead, rfl, rfl⟩
          · obtain ⟨rfl, rfl⟩ := Prod.mk.inj (Except.ok.inj taken)
            exact .inl ⟨rfl, rfl⟩

/-- A multicast is requested when none is active and it is the due head of the queue. -/
def PathState.Requests (path : PathState) (head : Nat) (now : Timeval) (bcdId : BcdID)
    (multi : MulticastState) : Prop :=
  path.activeMulticast = none ∧ path.queuePush[head]? = some bcdId ∧
    path.hashMulticast bcdId = some multi ∧ timerLess multi.tvPush now = true

/-- A request does nothing or makes one push call for the head of the queue. -/
theorem PathState.request_ok {head : Nat} {now : Timeval} {calls : RequestCalls}
    (taken : path.request head now calls = .ok (next, made)) :
    (next = path ∧ made = [] ∧ ∀ bcdId multi, ¬ path.Requests head now bcdId multi) ∨
      ∃ bcdId multi, path.Requests head now bcdId multi ∧ made = [.push bcdId calls.push] ∧
        next = ({ path with queuePush := path.queuePush.eraseIdx head }).processReply bcdId multi
          (calls.push.fill PushReply.fresh) := by
  unfold request at taken
  split at taken
  · next bcdId free first =>
      split at taken
      · cases taken
      · next multi found =>
          simp only [errorAfter_false, Bool.false_eq_true, if_false, RequestCalls.replyObject_eq] at taken
          split_ifs at taken with due
          · obtain ⟨rfl, rfl⟩ := Prod.mk.inj (Except.ok.inj taken)
            exact .inr ⟨bcdId, multi, ⟨free, first, found, due⟩, rfl, rfl⟩
          · obtain ⟨rfl, rfl⟩ := Prod.mk.inj (Except.ok.inj taken)
            refine .inl ⟨rfl, rfl, ?_⟩
            rintro other state ⟨_, same, stored, timely⟩
            rw [first] at same
            obtain rfl := Option.some.inj same
            rw [found] at stored
            obtain rfl := Option.some.inj stored
            exact due timely
  · next idle =>
      obtain ⟨rfl, rfl⟩ := Prod.mk.inj (Except.ok.inj taken)
      refine .inl ⟨rfl, rfl, ?_⟩
      rintro bcdId multi ⟨free, first, _⟩
      exact idle bcdId free first

/-- The thread faults only on a multicast without a state. -/
theorem PathState.request_error {head : Nat} {now : Timeval} {calls : RequestCalls} {fault : Fault}
    (failed : path.request head now calls = .error fault) (bcdId : BcdID) (multi : MulticastState) :
    ¬ path.Requests head now bcdId multi := by
  rintro ⟨free, first, found, due⟩
  rw [request, free, first] at failed
  simp only [found, due, if_true] at failed
  cases failed

/-- An accepted push joins the queue. -/
theorem PathState.pshReq_ok {bcdId : BcdID} {slaves : List Slave} {now : Timeval}
    (taken : path.pshReq bcdId slaves now = .ok next) :
    (slaves = [] ∧ next = path) ∨
      (slaves ≠ [] ∧ ∃ multi, path.hashMulticast bcdId = some multi ∧
        next = { path.store bcdId { slaves.foldl createSenderState (multicastStateReset multi) with
          tvPush := now } with queuePush := path.queuePush ++ [bcdId] }) := by
  unfold pshReq at taken
  split at taken
  · cases taken
  · next multi found =>
      split_ifs at taken with empty
      · exact .inl ⟨empty, (Except.ok.inj taken).symm⟩
      · exact .inr ⟨empty, multi, found, (Except.ok.inj taken).symm⟩

/-- A written broadcast has a new dead state. -/
theorem PathState.wrtReq_ok {bcdId : BcdID} {dataSize dataPayloadLen : Nat}
    (taken : path.wrtReq bcdId dataSize dataPayloadLen = .ok next) :
    path.hashMulticast bcdId = none ∧
      ∃ multi, createBcdState dataSize dataPayloadLen = some multi ∧ next = path.store bcdId multi := by
  unfold wrtReq at taken
  split at taken
  · cases taken
  · cases taken
  · next multi absent created => exact ⟨absent, multi, created, (Except.ok.inj taken).symm⟩

/-- A step of the transfer changes the state of the active multicast at most. -/
theorem PathState.transfer_cases (path : PathState) (bcdState : BcdState) :
    path.transfer bcdState = path ∨
      ∃ bcdId multi, path.activeMulticast = some bcdId ∧ path.hashMulticast bcdId = some multi ∧
        path.transfer bcdState = path.store bcdId { multi with bcdState := bcdState } := by
  unfold transfer
  split
  · exact .inl rfl
  · next bcdId active =>
      split
      · exact .inl rfl
      · next multi found =>
          split_ifs with dead
          · exact .inl rfl
          · exact .inr ⟨bcdId, multi, active, found, rfl⟩

/-- A push changes neither the state of the transfer nor the identifier of the path. -/
theorem pushed_frame (multi : MulticastState) (slaves : List Slave) :
    (slaves.foldl createSenderState (multicastStateReset multi)).bcdState = multi.bcdState ∧
      (slaves.foldl createSenderState (multicastStateReset multi)).controllerXid = multi.controllerXid := by
  have kept := pushed_keeps (fun multi => (multi.bcdState, multi.controllerXid))
    (fun multi => by unfold multicastStateReset; split_ifs <;> rfl) (fun _ _ => rfl) multi slaves
  exact ⟨congrArg Prod.fst kept, congrArg Prod.snd kept⟩

/-- The command `PUSH` activates the multicast with the identifier of the reply. -/
theorem PathState.processReply_push {bcdId : BcdID} {multi : MulticastState} {reply : PushReply}
    (accepted : reply.cmd = PushReplyCmd.push.code) :
    path.processReply bcdId multi reply =
      { path.store bcdId { multi with controllerXid := reply.xid, bcdState := .initiated } with
        activeMulticast := some bcdId } := by
  unfold processReply
  rw [if_neg (by rw [accepted]; decide), if_pos accepted]

/-- Every other command activates nothing. -/
theorem PathState.processReply_other {bcdId : BcdID} {multi : MulticastState} {reply : PushReply}
    (refused : reply.cmd ≠ PushReplyCmd.push.code) :
    (path.processReply bcdId multi reply).activeMulticast = path.activeMulticast := by
  unfold processReply
  simp only
  split_ifs
  · rfl
  · rfl

/-- The commands `POSTPONE` and `DENY` put the multicast back with a later time. -/
theorem PathState.processReply_again {bcdId : BcdID} {multi : MulticastState} {xid : Int32}
    {cmd : PushReplyCmd} (refused : cmd ≠ .push) :
    path.processReply bcdId multi ⟨xid, cmd.code⟩ =
      { path.store bcdId { multi with controllerXid := xid, tvPush := (multi.tvPush.1 + 1, multi.tvPush.2) } with
        queuePush := path.queuePush ++ [bcdId] } := by
  cases cmd with
  | push => exact absurd rfl refused
  | postpone => rfl
  | deny => rfl

/-- Queued and active multicasts have a state, and only the active one is not dead. -/
structure PathState.Sound (path : PathState) : Prop where
  queued : ∀ bcdId ∈ path.queuePush, ∃ multi, path.hashMulticast bcdId = some multi
  active : ∀ bcdId, path.activeMulticast = some bcdId → ∃ multi, path.hashMulticast bcdId = some multi
  started : ∀ bcdId multi, path.hashMulticast bcdId = some multi → multi.bcdState ≠ .dead →
    path.activeMulticast = some bcdId

theorem PathState.sound_initial : PathState.initial.Sound where
  queued bcdId member := by cases member
  active bcdId same := by cases same
  started bcdId multi found := by cases found

/-- Storing a state takes no other state away. -/
theorem PathState.store_found {bcdId other : BcdID} {multi : MulticastState}
    (found : ∃ state, path.hashMulticast other = some state) :
    ∃ state, (path.store bcdId multi).hashMulticast other = some state := by
  by_cases same : other = bcdId
  · subst same
    exact ⟨multi, store_self other multi⟩
  · rw [store_other same]
    exact found

/-- A stored state that is dead or belongs to the active multicast keeps the path sound. -/
theorem PathState.Sound.store (sound : path.Sound) (bcdId : BcdID) (multi : MulticastState)
    (started : multi.bcdState ≠ .dead → path.activeMulticast = some bcdId) : (path.store bcdId multi).Sound where
  queued other member := store_found (sound.queued other member)
  active other current := store_found (sound.active other current)
  started other state found alive := by
    by_cases same : other = bcdId
    · subst same
      rw [store_self, Option.some.injEq] at found
      exact started (found ▸ alive)
    · rw [store_other same] at found
      exact sound.started other state found alive

/-- A multicast can become active when none is. -/
theorem PathState.Sound.activate (sound : path.Sound) (free : path.activeMulticast = none) (bcdId : BcdID)
    (multi : MulticastState) : ({ path.store bcdId multi with activeMulticast := some bcdId } : PathState).Sound where
  queued other member := store_found (sound.queued other member)
  active other current := by
    obtain rfl := Option.some.inj current
    exact ⟨multi, store_self bcdId multi⟩
  started other state found alive := by
    by_cases same : other = bcdId
    · rw [same]
    · rw [show _ = _ from store_other same multi] at found
      have current := sound.started other state found alive
      rw [free] at current
      cases current

/-- A multicast with a state can be queued. -/
theorem PathState.Sound.queue (sound : path.Sound) {bcdId : BcdID} {multi : MulticastState}
    (found : path.hashMulticast bcdId = some multi) :
    ({ path with queuePush := path.queuePush ++ [bcdId] } : PathState).Sound where
  queued other member := by
    rcases List.mem_append.mp member with old | new
    · exact sound.queued other old
    · exact ⟨multi, List.mem_singleton.mp new ▸ found⟩
  active := sound.active
  started := sound.started

theorem PathState.Sound.erase (sound : path.Sound) (head : Nat) :
    ({ path with queuePush := path.queuePush.eraseIdx head } : PathState).Sound where
  queued other member := sound.queued other (List.mem_of_mem_eraseIdx member)
  active := sound.active
  started := sound.started

theorem PathState.Sound.wrtReq (sound : path.Sound) {bcdId : BcdID} {dataSize dataPayloadLen : Nat}
    (taken : path.wrtReq bcdId dataSize dataPayloadLen = .ok next) : next.Sound := by
  obtain ⟨absent, multi, created, rfl⟩ := wrtReq_ok taken
  apply sound.store
  intro alive
  exact absurd (createBcdState_new created).1 alive

theorem PathState.Sound.pshReq (sound : path.Sound) {bcdId : BcdID} {slaves : List Slave} {now : Timeval}
    (taken : path.pshReq bcdId slaves now = .ok next) : next.Sound := by
  rcases pshReq_ok taken with ⟨_, rfl⟩ | ⟨_, multi, found, rfl⟩
  · exact sound
  · have stored := sound.store bcdId
      { slaves.foldl createSenderState (multicastStateReset multi) with tvPush := now } (by
        intro alive
        rw [show _ = _ from (pushed_frame multi slaves).1] at alive
        exact sound.started bcdId multi found alive)
    exact stored.queue (store_self bcdId _)

theorem PathState.Sound.transfer (sound : path.Sound) (bcdState : BcdState) :
    (path.transfer bcdState).Sound := by
  rcases transfer_cases path bcdState with same | ⟨bcdId, multi, active, found, stored⟩
  · rw [same]
    exact sound
  · rw [stored]
    exact sound.store _ _ fun _ => active

theorem PathState.Sound.release (sound : path.Sound) {calls : ReleaseCalls}
    (taken : path.release calls = .ok (next, made)) : next.Sound := by
  rcases release_ok taken with ⟨rfl, _⟩ | ⟨bcdId, multi, active, found, dead, _, rfl⟩
  · exact sound
  · have stored := sound.store bcdId { multi with isPathReleased := true } fun _ => active
    constructor
    · exact stored.queued
    · intro other current
      cases current
    · intro other state present alive
      have current := stored.started other state present alive
      rw [store_activeMulticast, active, Option.some.injEq] at current
      subst current
      rw [show _ = some _ from store_self bcdId _, Option.some.injEq] at present
      subst present
      exact absurd dead alive

theorem PathState.Sound.request (sound : path.Sound) {head : Nat} {now : Timeval} {calls : RequestCalls}
    (taken : path.request head now calls = .ok (next, made)) : next.Sound := by
  rcases request_ok taken with ⟨rfl, _, _⟩ | ⟨bcdId, multi, requests, _, rfl⟩
  · exact sound
  · obtain ⟨free, first, found, due⟩ := requests
    have dead : multi.bcdState = .dead := by
      by_contra alive
      have current := sound.started bcdId multi found alive
      rw [free] at current
      cases current
    have popped := sound.erase head
    unfold processReply
    simp only
    split_ifs with again accepted
    · have stored := popped.store bcdId { multi with
        controllerXid := (calls.push.fill PushReply.fresh).xid
        tvPush := (multi.tvPush.1 + 1, multi.tvPush.2) } fun alive => absurd dead alive
      exact stored.queue (store_self bcdId _)
    · exact popped.activate free bcdId _
    · exact popped.store _ _ fun alive => absurd dead alive

end Lemmas

end RepublicAgent
