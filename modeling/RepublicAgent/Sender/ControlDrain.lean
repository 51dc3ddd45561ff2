/-
This file says that the control thread of a sender can always serve its connections to the end.
-/

import RepublicAgent.Sender.ControlLoop

namespace RepublicAgent
open Execution

section Draining

variable {hashMulticast : BcdID → Option PacketSource} {thread middle next : ControlThread} {ssock : Nat}

/-- A socket that takes a byte gets one. -/
theorem sendMsg_progress {remain : Option MsgToken} {queue : List MsgToken} (waiting : queue ≠ []) :
    (sendMsg remain queue [1]).handed ≠ [] := by
  have first (token : MsgToken) : (token.send 1).2 ≠ [] := by
    have some : 0 < token.request.length := by
      have unsent := token.unsent
      unfold MsgToken.request
      split_ifs
      · rw [List.length_drop]
        omega
      · rw [List.length_replicate]
        omega
    have accepted : token.accepted 1 = 1 := Nat.min_eq_left some
    rw [MsgToken.send, if_neg (by rw [accepted]; decide)]
    intro empty
    have length := congrArg List.length empty
    rw [List.length_take, List.length_nil, accepted] at length
    omega
  have loop (token : MsgToken) (queue : List MsgToken) : (sendLoop token queue [1]).handed ≠ [] := by
    have bytes := first token
    rw [sendLoop.eq_def]
    cases sent : token.send (nextResult [1]) with
    | mk left handed =>
        rw [show token.send 1 = (left, handed) from sent] at bytes
        cases left with
        | some rest => exact bytes
        | none =>
            cases queue with
            | nil => exact bytes
            | cons next queue => exact fun empty => bytes (List.append_eq_nil_iff.mp empty).1
  cases remain with
  | some token => exact loop token queue
  | none =>
      cases queue with
      | nil => exact absurd rfl waiting
      | cons token queue => exact loop token queue

/-- The bytes of a connection that the socket has not taken. -/
def SendConnection.unsent (conn : SendConnection) : Nat :=
  ((pendingTokens conn.side.remainMsgToken conn.side.sendQueue).flatMap MsgToken.rest).length

theorem SendConnection.sendMsg_unsent {conn : SendConnection} (waiting : conn.side.sendQueue ≠ []) :
    SendConnection.unsent { conn with side := conn.side.sendMsg [1] } < conn.unsent := by
  have kept := congrArg List.length (sendMsg_conserves conn.side.remainMsgToken conn.side.sendQueue [1])
  have some := List.length_pos_of_ne_nil (@sendMsg_progress conn.side.remainMsgToken _ waiting)
  rw [List.length_append] at kept
  unfold SendConnection.unsent SendSide.sendMsg
  dsimp only
  omega

/-- Only one connection changed, and nothing was asked of it. -/
structure ControlThread.Beside (ssock : Nat) (thread next : ControlThread) : Prop where
  ringCmd : next.ringCmd = thread.ringCmd
  commanded : next.commanded = thread.commanded
  others : ∀ other, other ≠ ssock → next.ssockList other = thread.ssockList other
  requested : ∀ other, (next.ssockList other).requested = (thread.ssockList other).requested

theorem ControlThread.Beside.refl (ssock : Nat) (thread : ControlThread) : thread.Beside ssock thread :=
  ⟨rfl, rfl, fun _ _ => rfl, fun _ => rfl⟩

theorem ControlThread.Beside.trans (first : thread.Beside ssock middle) (second : middle.Beside ssock next) :
    thread.Beside ssock next :=
  ⟨second.ringCmd.trans first.ringCmd, second.commanded.trans first.commanded,
    fun other different => (second.others other different).trans (first.others other different),
    fun other => (second.requested other).trans (first.requested other)⟩

theorem ControlThread.beside_setConnection {conn : SendConnection}
    (same : conn.requested = (thread.ssockList ssock).requested) :
    thread.Beside ssock (thread.setConnection ssock conn) := by
  refine ⟨rfl, rfl, fun other different => thread.setConnection_of_ne conn different, fun other => ?_⟩
  by_cases equal : other = ssock
  · rw [equal, thread.setConnection_self, same]
  · rw [thread.setConnection_of_ne conn equal]

/-- A socket that takes bytes empties the queue of its connection. -/
theorem ControlThread.Sound.empties (sound : thread.Sound hashMulticast) (ssock : Nat) :
    ∃ events next, execute (controlStep hashMulticast) thread events = .ok next ∧
      (next.Sound hashMulticast ∧ thread.Beside ssock next ∧
        (next.ssockList ssock).ringPatchTuple = (thread.ssockList ssock).ringPatchTuple) ∧
      (next.ssockList ssock).side.sendQueue = [] := by
  refine exists_execute_of_variant (fun next => (next.ssockList ssock).unsent) ?_
    ⟨sound, ControlThread.Beside.refl ssock thread, rfl⟩
  rintro middle ⟨sound, beside, ring⟩ waiting
  have watched : threadSendSocketWatches (middle.ssockList ssock).side = true := by
    simpa [threadSendSocketWatches, List.length_pos_iff] using waiting
  have sent : middle.sendMsg ssock [1] = middle.setConnection ssock
      { middle.ssockList ssock with side := (middle.ssockList ssock).side.sendMsg [1] } := if_pos watched
  have step : controlStep hashMulticast middle (.sendMsg ssock [1]) = .ok (middle.sendMsg ssock [1]) := rfl
  have asks : ControlEvent.Asks hashMulticast (.sendMsg ssock [1]) := trivial
  refine ⟨[.sendMsg ssock [1]], _, execute_singleton.trans step, ⟨sound.step asks step, ?_, ?_⟩, ?_⟩
  · rw [sent]
    exact beside.trans (ControlThread.beside_setConnection rfl)
  · rw [sent, middle.setConnection_self]
    exact ring
  · rw [sent, middle.setConnection_self]
    exact SendConnection.sendMsg_unsent waiting

/-- A connection can be served until its ring and its queue are empty. -/
theorem ControlThread.Sound.drains (sound : thread.Sound hashMulticast) (ssock : Nat) :
    ∃ events next, execute (controlStep hashMulticast) thread events = .ok next ∧
      (next.Sound hashMulticast ∧ thread.Beside ssock next) ∧ (next.ssockList ssock).ringPatchTuple = [] ∧
      (next.ssockList ssock).side.sendQueue = [] := by
  obtain ⟨events, served, taken, ⟨sound, beside⟩, ring⟩ : ∃ events next,
      execute (controlStep hashMulticast) thread events = .ok next ∧
        (next.Sound hashMulticast ∧ thread.Beside ssock next) ∧ (next.ssockList ssock).ringPatchTuple = [] := by
    refine exists_execute_of_variant (fun next => ringSize (next.ssockList ssock).ringPatchTuple) ?_
      ⟨sound, ControlThread.Beside.refl ssock thread⟩
    rintro middle ⟨sound, beside⟩ busy
    obtain ⟨events, idle, sent, ⟨sound, aside, ring⟩, empty⟩ := sound.empties ssock
    obtain ⟨sender, served, -, -, -, shorter⟩ := (sound.serves ssock).processPatchTuple (sound.queued ssock)
      (fun _ => []) (fun _ => Vector.replicate 16 0) idle.fdPatch
    have step : controlStep hashMulticast idle
        (.processPatchTuple ssock (fun _ => []) (fun _ => Vector.replicate 16 0)) =
        .ok { idle.setConnection ssock
            { (idle.ssockList ssock).take .patchData sender.pushed sender.sendQueue with
              ringPatchTuple := sender.ring } with
          fdPatch := sender.fdPatch } := by
      simp only [controlStep, ControlThread.processPatchTuple, served]
    have asks : ControlEvent.Asks hashMulticast
        (.processPatchTuple ssock (fun _ => []) (fun _ => Vector.replicate 16 0)) := trivial
    refine ⟨events ++ [_], _, execute_append_ok.mpr ⟨idle, sent, execute_singleton.trans step⟩,
      ⟨sound.step asks step, ?_⟩, ?_⟩
    · have moved := @ControlThread.beside_setConnection idle ssock
        { (idle.ssockList ssock).take .patchData sender.pushed sender.sendQueue with ringPatchTuple := sender.ring } rfl
      exact (beside.trans aside).trans ⟨moved.ringCmd, moved.commanded, moved.others, moved.requested⟩
    · have less := shorter empty (by rw [ring]; exact busy)
      rw [ring] at less
      show ringSize ((idle.setConnection ssock _).ssockList ssock).ringPatchTuple < _
      rw [idle.setConnection_self]
      exact less
  obtain ⟨more, next, sent, ⟨after, aside, same⟩, empty⟩ := sound.empties ssock
  exact ⟨events ++ more, next, execute_append_ok.mpr ⟨served, taken, sent⟩, ⟨after, beside.trans aside⟩,
    same.trans ring, empty⟩

/-- The commands are what is left of a part of the ring, whose first command found room. -/
theorem processCommands_suffix (pending : List (Nat × Message)) (thread : ControlThread) :
    (processCommands pending thread).ringCmd <:+ pending ∧
      (processCommands pending thread).commanded = thread.commanded ∧
      ∀ ssock, ((processCommands pending thread).ssockList ssock).requested = (thread.ssockList ssock).requested := by
  induction pending generalizing thread with
  | nil => exact ⟨List.suffix_refl [], rfl, fun _ => rfl⟩
  | cons command rest ih =>
      obtain ⟨ssock, msg⟩ := command
      unfold processCommands
      dsimp only
      split
      · exact ⟨List.suffix_refl _, rfl, fun _ => rfl⟩
      · next queue taken =>
          obtain ⟨suffix, commanded, requested⟩ :=
            ih (thread.setConnection ssock ((thread.ssockList ssock).take .fastDone [msg] queue))
          refine ⟨suffix.trans (List.suffix_cons _ rest), commanded, fun other => (requested other).trans ?_⟩
          exact (@ControlThread.beside_setConnection thread ssock
            ((thread.ssockList ssock).take .fastDone [msg] queue) rfl).requested other

/-- Nothing new was asked. -/
structure ControlThread.Continues (thread next : ControlThread) : Prop where
  commanded : next.commanded = thread.commanded
  requested : ∀ other, (next.ssockList other).requested = (thread.ssockList other).requested

theorem ControlThread.Continues.trans (first : thread.Continues middle) (second : middle.Continues next) :
    thread.Continues next :=
  ⟨second.commanded.trans first.commanded, fun other => (second.requested other).trans (first.requested other)⟩

theorem ControlThread.Beside.continues (beside : thread.Beside ssock next) : thread.Continues next :=
  ⟨beside.commanded, beside.requested⟩

/-- A full queue blocks the commands behind it until its connection is served. -/
theorem ControlThread.Sound.commandsLeave (sound : thread.Sound hashMulticast) :
    ∃ events next, execute (controlStep hashMulticast) thread events = .ok next ∧
      (next.Sound hashMulticast ∧ thread.Continues next) ∧ next.ringCmd = [] := by
  refine exists_execute_of_variant (fun next => next.ringCmd.length) ?_ ⟨sound, rfl, fun _ => rfl⟩
  rintro middle ⟨sound, continues⟩ busy
  obtain ⟨⟨ssock, msg⟩, rest, ring⟩ := List.exists_cons_of_ne_nil busy
  obtain ⟨events, idle, sent, ⟨sound, beside⟩, -, empty⟩ := sound.drains ssock
  have step : controlStep hashMulticast idle .processCommands = .ok (processCommands idle.ringCmd idle) := rfl
  obtain ⟨-, commanded, requested⟩ := processCommands_suffix idle.ringCmd idle
  have shorter : (processCommands idle.ringCmd idle).ringCmd.length < middle.ringCmd.length := by
    rw [beside.ringCmd, ring]
    unfold processCommands
    dsimp only
    rw [empty, aprQueueTrypush, if_pos (by decide)]
    dsimp only
    exact Nat.lt_succ_of_le (processCommands_suffix rest _).1.length_le
  refine ⟨events ++ [.processCommands], _, execute_append_ok.mpr ⟨idle, sent, execute_singleton.trans step⟩,
    ⟨processCommands_sound idle.ringCmd sound, ?_⟩, shorter⟩
  exact (continues.trans beside.continues).trans ⟨commanded, requested⟩

/-- The connections of a list are served one after the other. -/
theorem ControlThread.Sound.allDrain (sound : thread.Sound hashMulticast) (ssocks : List Nat) :
    ∃ events next, execute (controlStep hashMulticast) thread events = .ok next ∧ next.Sound hashMulticast ∧
      thread.Continues next ∧ next.ringCmd = thread.ringCmd ∧ (∀ ssock, ssock ∉ ssocks →
        next.ssockList ssock = thread.ssockList ssock) ∧ ∀ ssock ∈ ssocks,
        (next.ssockList ssock).ringPatchTuple = [] ∧ (next.ssockList ssock).side.sendQueue = [] := by
  induction ssocks with
  | nil => exact ⟨[], thread, rfl, sound, ⟨rfl, fun _ => rfl⟩, rfl, fun _ _ => rfl, fun _ absent => nomatch absent⟩
  | cons ssock ssocks ih =>
      obtain ⟨events, middle, taken, sound, continues, ring, same, empty⟩ := ih
      obtain ⟨more, next, sent, ⟨after, beside⟩, served, drained⟩ := sound.drains ssock
      refine ⟨events ++ more, next, execute_append_ok.mpr ⟨middle, taken, sent⟩, after,
        continues.trans beside.continues, beside.ringCmd.trans ring, ?_, ?_⟩
      · intro other absent
        rw [List.mem_cons, not_or] at absent
        exact (beside.others other absent.1).trans (same other absent.2)
      · intro other member
        by_cases equal : other = ssock
        · rw [equal]
          exact ⟨served, drained⟩
        · rw [beside.others other equal]
          exact empty other ((List.mem_cons.mp member).resolve_left equal)

/-- The connections got all that was asked. -/
def ControlThread.Drained (hashMulticast : BcdID → Option PacketSource) (thread asked : ControlThread) (ssock : Nat) :
    Prop :=
  (thread.ssockList ssock).side.sendQueue = [] ∧
    ((thread.ssockList ssock).queuedOf .patchData).map Message.content =
      expectedBy hashMulticast (asked.ssockList ssock).requested ∧
    (thread.ssockList ssock).queuedOf .fastDone = commandsFor ssock asked.commanded

end Draining

end RepublicAgent
