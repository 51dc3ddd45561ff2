/-
This file models the select loops of the three threads around `sendMsg` and says when a loop watches
a socket with unsent bytes.
-/

import RepublicAgent.Channel.SendMsg
import RepublicAgent.Library.Execution

namespace RepublicAgent
open Execution

/-- The sending side of a connection. The tokens that entered the queue and the bytes that the socket
took are kept for the statements only. -/
structure SendSide where
  sendQueue : List MsgToken
  remainMsgToken : Option MsgToken
  isTrashed : Bool
  enqueued : List MsgToken
  handed : List UInt8
deriving DecidableEq, Repr

def SendSide.created : SendSide := ⟨[], none, false, [], []⟩

/-- The condition of `thread_sendSocket` for the write set. -/
def threadSendSocketWatches (side : SendSide) : Bool := 0 < side.sendQueue.length

/-- The condition of `thread_recvSocket` for the write set. -/
def threadRecvSocketWatches (side : SendSide) : Bool := 0 < side.sendQueue.length

/-- The condition of `thread_domainSocket` for the write set. -/
def threadDomainSocketWatches (side : SendSide) : Bool := !side.isTrashed && 0 < side.sendQueue.length

/-- These threads have a select loop over connections with a send queue. -/
inductive SelectLoop where
  | threadSendSocket
  | threadRecvSocket
  | threadDomainSocket
deriving DecidableEq, Repr

def SelectLoop.watches : SelectLoop → SendSide → Bool
  | .threadSendSocket => threadSendSocketWatches
  | .threadRecvSocket => threadRecvSocketWatches
  | .threadDomainSocket => threadDomainSocketWatches

/-- The three conditions agree on an open connection. They look at the queue only. -/
theorem SelectLoop.watches_iff (loop : SelectLoop) {side : SendSide} (opened : side.isTrashed = false) :
    loop.watches side = true ↔ side.sendQueue ≠ [] := by
  cases loop <;>
    simp [watches, threadSendSocketWatches, threadRecvSocketWatches, threadDomainSocketWatches, opened,
      List.length_pos_iff]

/-- The callers abort when the queue refuses a message with priority. -/
def SendSide.insert (side : SendSide) (insertion : Message × Bool) : Except Fault SendSide :=
  match insertMsg2SendQ side.sendQueue insertion.1 insertion.2 with
  | some queue =>
      .ok { side with sendQueue := queue, enqueued := side.enqueued ++ [createMsgToken insertion.1] }
  | none => if insertion.2 then .error .abort else .ok side

def SendSide.sendMsg (side : SendSide) (results : List Int) : SendSide :=
  let outcome := RepublicAgent.sendMsg side.remainMsgToken side.sendQueue results
  { side with
    sendQueue := outcome.queue
    remainMsgToken := outcome.remain
    handed := side.handed ++ outcome.handed }

/-- One iteration of a loop as one connection sees it. Messages can enter the queue before `sendMsg`, by
the handler of another connection, and after it. A `read` of zero bytes trashes the connection. -/
structure LoopIteration where
  arriving : List (Message × Bool)
  writable : Bool
  results : List Int
  following : List (Message × Bool)
  hungUp : Bool
deriving DecidableEq, Repr

/-- The loop calls `sendMsg` for a socket that it put in the write set and that `select` found writable. -/
def iterate (loop : SelectLoop) (side : SendSide) (iteration : LoopIteration) : Except Fault SendSide :=
  match execute SendSide.insert side iteration.arriving with
  | .error fault => .error fault
  | .ok arrived =>
      let sent :=
        if loop.watches side && iteration.writable then arrived.sendMsg iteration.results else arrived
      match execute SendSide.insert sent iteration.following with
      | .error fault => .error fault
      | .ok followed => .ok { followed with isTrashed := followed.isTrashed || iteration.hungUp }

/-- An open connection with bytes that are enqueued and not yet handed to the socket is watched. -/
def UnsentWatched (loop : SelectLoop) (side : SendSide) : Prop :=
  side.isTrashed = false → side.handed ≠ side.enqueued.flatMap MsgToken.wire → loop.watches side = true

instance (loop : SelectLoop) (side : SendSide) : Decidable (UnsentWatched loop side) :=
  inferInstanceAs (Decidable (_ → _ → _))

/-- The handed bytes and the pending ones are the bytes of the enqueued messages in their order. -/
def SendSide.Conserved (side : SendSide) : Prop :=
  side.handed ++ (pendingTokens side.remainMsgToken side.sendQueue).flatMap MsgToken.rest =
    side.enqueued.flatMap MsgToken.wire

/-- A side strands its last message when the message is carried over and nothing is queued behind it. -/
def SendSide.Stranded (side : SendSide) : Prop := side.remainMsgToken ≠ none ∧ side.sendQueue = []

theorem pendingTokens_flatMap_eq_nil {remain : Option MsgToken} {queue : List MsgToken} :
    (pendingTokens remain queue).flatMap MsgToken.rest = [] ↔ remain = none ∧ queue = [] := by
  constructor
  · intro empty
    have absent : pendingTokens remain queue = [] := by
      cases pending : pendingTokens remain queue with
      | nil => rfl
      | cons token tokens =>
          rw [pending, List.flatMap_cons, List.append_eq_nil_iff] at empty
          exact absurd empty.1 token.rest_ne_nil
    simpa [pendingTokens] using absent
  · rintro ⟨rfl, rfl⟩
    rfl

theorem unsentWatched_iff (loop : SelectLoop) {side : SendSide} (conserved : side.Conserved) :
    UnsentWatched loop side ↔ (side.isTrashed = false → ¬ side.Stranded) := by
  unfold UnsentWatched SendSide.Stranded
  apply forall_congr'
  intro opened
  rw [loop.watches_iff opened, ← conserved, Ne, List.self_eq_append_right, pendingTokens_flatMap_eq_nil]
  tauto

/-- An insertion leaves the carried token and never an empty queue. -/
theorem SendSide.insert_ok {side next : SendSide} {insertion : Message × Bool}
    (inserted : side.insert insertion = .ok next) :
    next.remainMsgToken = side.remainMsgToken ∧ next.isTrashed = side.isTrashed ∧ next.sendQueue ≠ [] := by
  unfold insert at inserted
  cases outcome : insertMsg2SendQ side.sendQueue insertion.1 insertion.2 with
  | some queue =>
      rw [outcome] at inserted
      obtain rfl := Except.ok.inj inserted
      exact ⟨rfl, rfl, insertMsg2SendQ_ne_nil outcome⟩
  | none =>
      simp only [outcome] at inserted
      split_ifs at inserted with priority
      obtain rfl := Except.ok.inj inserted
      refine ⟨rfl, rfl, ?_⟩
      intro empty
      rw [empty, insertMsg2SendQ_empty] at outcome
      cases outcome

/-- An insertion puts the whole message behind the pending bytes or refuses it. -/
theorem SendSide.insert_conserved {side next : SendSide} {insertion : Message × Bool}
    (conserved : side.Conserved) (inserted : side.insert insertion = .ok next) : next.Conserved := by
  unfold insert at inserted
  cases outcome : insertMsg2SendQ side.sendQueue insertion.1 insertion.2 with
  | none =>
      simp only [outcome] at inserted
      split_ifs at inserted with priority
      obtain rfl := Except.ok.inj inserted
      exact conserved
  | some queue =>
      rw [outcome] at inserted
      obtain rfl := Except.ok.inj inserted
      unfold insertMsg2SendQ aprQueueTrypush at outcome
      split_ifs at outcome
      obtain rfl := Option.some.inj outcome
      have appended : MsgToken.rest (createMsgToken insertion.1) = (createMsgToken insertion.1).wire := rfl
      unfold Conserved pendingTokens at *
      simp only [List.flatMap_append, List.flatMap_singleton, appended, ← conserved, List.append_assoc]

theorem SendSide.inserts_ok {side next : SendSide} {insertions : List (Message × Bool)}
    (inserted : execute SendSide.insert side insertions = .ok next) :
    next.remainMsgToken = side.remainMsgToken ∧ next.isTrashed = side.isTrashed ∧
      (next.sendQueue = [] ↔ side.sendQueue = [] ∧ insertions = []) := by
  induction insertions generalizing side with
  | nil =>
      simp only [execute_nil, Except.ok.injEq] at inserted
      simp [inserted]
  | cons insertion insertions ih =>
      obtain ⟨middle, first, others⟩ := execute_cons_ok.mp inserted
      obtain ⟨remain, trashed, filled⟩ := SendSide.insert_ok first
      obtain ⟨sameRemain, sameTrashed, empty⟩ := ih others
      simp [sameRemain, sameTrashed, remain, trashed, empty, filled]

theorem SendSide.inserts_conserved {side next : SendSide} {insertions : List (Message × Bool)}
    (conserved : side.Conserved) (inserted : execute SendSide.insert side insertions = .ok next) :
    next.Conserved :=
  execute_invariant (fun _ _ _ before (_ : True) taken => SendSide.insert_conserved before taken) conserved
    (fun _ _ => trivial) inserted

theorem SendSide.sendMsg_conserved {side : SendSide} (conserved : side.Conserved) (results : List Int) :
    (side.sendMsg results).Conserved := by
  unfold Conserved SendSide.sendMsg at *
  rw [List.append_assoc, sendMsg_conserves, conserved]

/-- An iteration without a fault, part by part. -/
theorem iterate_ok {loop : SelectLoop} {side next : SendSide} {iteration : LoopIteration}
    (taken : iterate loop side iteration = .ok next) :
    ∃ arrived sent followed, execute SendSide.insert side iteration.arriving = .ok arrived ∧
      sent = (if loop.watches side && iteration.writable then arrived.sendMsg iteration.results
        else arrived) ∧
      execute SendSide.insert sent iteration.following = .ok followed ∧
      next = { followed with isTrashed := followed.isTrashed || iteration.hungUp } := by
  unfold iterate at taken
  cases before : execute SendSide.insert side iteration.arriving with
  | error fault => simp [before] at taken
  | ok arrived =>
      simp only [before] at taken
      split at taken
      · cases taken
      · next followed after => exact ⟨arrived, _, followed, rfl, rfl, after, (Except.ok.inj taken).symm⟩

/-- An iteration keeps its queue filled unless its call of `sendMsg` completes all tokens but the last
one and no message follows. -/
def QueueStaysFilled (loop : SelectLoop) (side : SendSide) (iteration : LoopIteration) : Prop :=
  side.isTrashed = false → iteration.hungUp = false → loop.watches side = true →
    iteration.writable = true → iteration.following = [] →
    ∀ arrived, execute SendSide.insert side iteration.arriving = .ok arrived →
      completedTokens (pendingTokens arrived.remainMsgToken arrived.sendQueue) iteration.results + 1 ≠
        (pendingTokens arrived.remainMsgToken arrived.sendQueue).length

theorem iterate_conserved {loop : SelectLoop} {side next : SendSide} {iteration : LoopIteration}
    (conserved : side.Conserved) (taken : iterate loop side iteration = .ok next) : next.Conserved := by
  obtain ⟨arrived, sent, followed, before, rfl, after, rfl⟩ := iterate_ok taken
  have arrivedConserved := SendSide.inserts_conserved conserved before
  have followedConserved := SendSide.inserts_conserved (by
    split_ifs
    · exact SendSide.sendMsg_conserved arrivedConserved iteration.results
    · exact arrivedConserved) after
  exact followedConserved

/-- An iteration strands the last message exactly when it does not keep its queue filled. -/
theorem iterate_watched_iff {loop : SelectLoop} {side next : SendSide} {iteration : LoopIteration}
    (watched : side.isTrashed = false → ¬ side.Stranded) (taken : iterate loop side iteration = .ok next) :
    (next.isTrashed = false → ¬ next.Stranded) ↔ QueueStaysFilled loop side iteration := by
  obtain ⟨arrived, sent, followed, before, rfl, after, rfl⟩ := iterate_ok taken
  obtain ⟨arrivedRemain, arrivedTrashed, arrivedEmpty⟩ := SendSide.inserts_ok before
  obtain ⟨followedRemain, followedTrashed, followedEmpty⟩ := SendSide.inserts_ok after
  have strands := sendMsg_strands arrived.remainMsgToken arrived.sendQueue iteration.results
  unfold QueueStaysFilled SendSide.Stranded
  simp only [before, Except.ok.injEq, forall_eq']
  rw [followedRemain, followedEmpty, followedTrashed, Bool.or_eq_false_iff]
  by_cases called : loop.watches side = true ∧ iteration.writable = true
  · have active : (loop.watches side && iteration.writable) = true := by simp [called]
    simp only [active, if_true, SendSide.sendMsg, arrivedTrashed]
    constructor
    · intro kept opened staying _ _ last done
      obtain ⟨carried, left⟩ := strands.mpr done
      exact kept ⟨opened, staying⟩ ⟨carried, left, last⟩
    · rintro filled ⟨opened, staying⟩ ⟨carried, left, last⟩
      exact filled opened staying called.1 called.2 last (strands.mp ⟨carried, left⟩)
  · have idle : (loop.watches side && iteration.writable) = false := by simpa using called
    simp only [idle, Bool.false_eq_true, if_false, arrivedRemain, arrivedTrashed, arrivedEmpty]
    constructor
    · intro _ _ _ watching writable
      exact absurd ⟨watching, writable⟩ called
    · rintro _ ⟨opened, _⟩ ⟨carried, ⟨empty, _⟩, _⟩
      exact watched opened ⟨carried, empty⟩

/-- A run of a loop watches every open connection with unsent bytes exactly when each iteration keeps
the queue filled. -/
theorem unsentBytes_watched_iff (loop : SelectLoop) (iterations : List LoopIteration) :
    Throughout (iterate loop) (UnsentWatched loop) SendSide.created iterations ↔
      StepsMeet (iterate loop) (QueueStaysFilled loop) SendSide.created iterations := by
  apply throughout_iff SendSide.Conserved
  · intro side iteration next conserved watched taken
    have after := iterate_conserved conserved taken
    refine ⟨after, ?_⟩
    rw [unsentWatched_iff loop conserved] at watched
    rw [unsentWatched_iff loop after]
    exact iterate_watched_iff watched taken
  · intro side iteration fault conserved watched failed opened staying active writable last arrived before
    rw [iterate, before, last] at failed
    cases failed
  · rfl
  · intro opened unsent
    exact absurd rfl unsent

/-- A request for one packet, as `MSG_PATCH_REQ` carries it. -/
def patchRequest : Message where
  bcdId := ⟨1, 2, 3⟩
  type := 84
  time := Vector.replicate 16 0
  payload := List.replicate 8 0
  padding := false
  lengthFits := by decide
  paddingFits := by decide

/-- The socket takes ten bytes of the only message. The message waits for the next one to be enqueued. -/
theorem unsentBytes_unwatched :
    ¬ ∀ (loop : SelectLoop) (iterations : List LoopIteration),
      Throughout (iterate loop) (UnsentWatched loop) SendSide.created iterations := by
  intro always
  have watched := always .threadRecvSocket
    [⟨[], false, [], [(patchRequest, true)], false⟩, ⟨[], true, [10], [], false⟩]
  obtain ⟨final, completed, stalled⟩ := exists_of_check (execute (iterate .threadRecvSocket)
    SendSide.created [⟨[], false, [], [(patchRequest, true)], false⟩, ⟨[], true, [10], [], false⟩])
    (fun side => !decide (UnsentWatched .threadRecvSocket side)) (by decide +kernel)
  simp only [Bool.not_eq_true', decide_eq_false_iff_not] at stalled
  exact stalled (watched.final completed)

end RepublicAgent
