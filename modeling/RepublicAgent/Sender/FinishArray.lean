/-
This file says when the loops over the finished receivers stay inside of the array of the latest push. A
history of the receivers that finished stands beside the array.
-/

import RepublicAgent.Sender.FinishWindow

namespace RepublicAgent
open Execution MachineInteger

/-- All receivers of one broadcast that finished, in order. The latest push has `fanOut` receivers, and `before`
receivers had finished when it arrived. The second loop passed the first ones. -/
structure FinishHistory where
  fanOut : Nat
  finished : List SenderRef
  before : Nat
  passed : Nat
deriving DecidableEq, Repr

/-- The head of the skip list, when its last packet was sent. -/
def FinishSender.ready (sender : FinishSender) : List SenderRef :=
  (sender.skipList.head?.filter fun head => sender.seqEndOf head ≤ sender.side.multi.seqCur).toList

def FinishHistory.record (history : FinishHistory) (sender : FinishSender) : FinishEvent → FinishHistory
  | .push slaves _ =>
      if slaves = [] then history
      else { history with fanOut := slaves.length, before := history.finished.length }
  | .peek _ => { history with finished := history.finished ++ sender.ready }
  | .signal now =>
      if sender.side.multi.bcdState = .dead then { history with
        passed := history.passed + ((history.finished.drop history.passed).takeWhile (sender.expired now)).length }
      else history
  | _ => history

/-- The sender with its history. -/
structure FinishRun where
  sender : FinishSender
  history : FinishHistory

def FinishRun.initial (multi : MulticastState) : FinishRun := ⟨FinishSender.initial multi, ⟨0, [], 0, 0⟩⟩

def finishRunStep (config : AgentConfig) (run : FinishRun) (event : FinishEvent) : Except Fault FinishRun :=
  (finishStep config run.sender event).map fun sender => ⟨sender, run.history.record run.sender event⟩

/-- The request of a push fits into the receive buffer. -/
def FinishEvent.Received : FinishEvent → Prop
  | .push slaves _ => msgHdrLen + 8 + ipAddrLen * slaves.length ≤ recvBufLen
  | _ => True

instance FinishEvent.decidableReceived : ∀ event : FinishEvent, Decidable event.Received
  | .push .. => inferInstanceAs (Decidable (_ ≤ _))
  | .approve _ | .queue .. | .process .. | .check _ | .firstSeq .. | .allDone _ | .peek _ | .signal _ | .command =>
      inferInstanceAs (Decidable True)

/-- The first loop writes inside of the array, and the second loop reads only cells of the array that were
written. -/
def FinishEvent.AccessInside (run : FinishRun) : FinishEvent → Prop
  | .peek now => run.sender.peek now ≠ .error .badPointer
  | .signal now => run.sender.signal now ≠ .error .badPointer
  | _ => True

/-- A receiver finishes while fewer receivers finished than the latest push has. The second loop of a dead
multicast runs when all receivers were passed that finished before the latest push. -/
def FinishEvent.InTime (run : FinishRun) : FinishEvent → Prop
  | .peek _ => run.sender.ready ≠ [] → run.history.finished.length < run.history.fanOut
  | .signal _ => run.sender.side.multi.bcdState = .dead → run.history.before ≤ run.history.passed
  | _ => True

instance FinishEvent.decidableInTime (run : FinishRun) : ∀ event : FinishEvent, Decidable (event.InTime run)
  | .peek _ => inferInstanceAs (Decidable (_ → _))
  | .signal _ => inferInstanceAs (Decidable (_ → _))
  | .push .. | .approve _ | .queue .. | .process .. | .check _ | .firstSeq .. | .allDone _ | .command =>
      inferInstanceAs (Decidable True)

/-- The array of the latest push holds the receivers that finished since. -/
structure FinishRun.Aligned (run : FinishRun) : Prop where
  window : run.sender.window.Holds run.history.fanOut run.history.before
    (run.history.finished.drop run.history.before) run.history.passed
  older : run.history.before ≤ run.history.finished.length
  small : run.history.fanOut < 32768

section Arrays

variable {config : AgentConfig} {run : FinishRun}

/-- The entries end where the history ends. -/
theorem FinishRun.Aligned.length (aligned : run.Aligned) :
    run.history.before + (run.history.finished.drop run.history.before).length = run.history.finished.length := by
  have older := aligned.older
  rw [List.length_drop]
  omega

theorem FinishRun.initial_aligned (multi : MulticastState) : (FinishRun.initial multi).Aligned := by
  have empty : FinishWindow.Holds ⟨[], 0, 0⟩ 0 0 [] 0 := ⟨rfl, by simp, rfl, rfl, le_rfl, by decide⟩
  have small : 0 < 32768 := by decide
  exact ⟨empty, le_rfl, small⟩

/-- A step of the first loop takes the receiver that is ready. -/
theorem FinishSender.peek_cases (sender : FinishSender) (now : Timeval) :
    (sender.ready = [] ∧ sender.peek now = .ok sender) ∨
      ∃ head rest, sender.ready = [head] ∧ sender.skipList = head :: rest ∧
        sender.peek now = (sender.window.put head).map fun window => { sender with
          tvFastDone := Function.update sender.tvFastDone head now
          skipList := rest
          window := window } := by
  cases list : sender.skipList with
  | nil => exact .inl ⟨by simp [FinishSender.ready, list], by simp only [FinishSender.peek, list]⟩
  | cons head rest =>
      by_cases sent : sender.seqEndOf head ≤ sender.side.multi.seqCur
      · refine .inr ⟨head, rest, by simp [FinishSender.ready, list, sent], rfl, ?_⟩
        simp only [FinishSender.peek, list, if_pos sent]
        cases sender.window.put head <;> rfl
      · refine .inl ⟨?_, by simp only [FinishSender.peek, list, if_neg sent]⟩
        simpa [FinishSender.ready, list] using sent

/-- A write stays inside of the array exactly when fewer receivers finished than the latest push has. -/
theorem FinishRun.Aligned.peek (aligned : run.Aligned) (now : Timeval) :
    (run.sender.peek now ≠ .error .badPointer ↔ FinishEvent.InTime run (.peek now)) ∧
      ∀ sender, run.sender.peek now = .ok sender →
        FinishRun.Aligned ⟨sender, run.history.record run.sender (.peek now)⟩ := by
  have length := aligned.length
  rcases run.sender.peek_cases now with ⟨idle, taken⟩ | ⟨head, rest, ready, _, taken⟩
  · constructor
    · simp [FinishEvent.InTime, idle, taken]
    · intro sender moved
      obtain rfl := Except.ok.inj (taken.symm.trans moved)
      simp only [FinishHistory.record, idle, List.append_nil]
      exact aligned
  · by_cases room : run.history.finished.length < run.history.fanOut
    · obtain ⟨window, written, holds⟩ := aligned.window.put (by omega) aligned.small head
      rw [written] at taken
      constructor
      · simp [FinishEvent.InTime, taken, Except.map, room]
      · intro sender moved
        obtain rfl := Except.ok.inj (taken.symm.trans moved)
        refine ⟨?_, ?_, aligned.small⟩
        · simp only [FinishHistory.record, ready]
          rw [List.drop_append_of_le_length aligned.older]
          exact holds
        · simp only [FinishHistory.record, ready, List.length_append]
          exact aligned.older.trans (Nat.le_add_right ..)
    · have full := aligned.window.put_full (by omega) head
      rw [full] at taken
      constructor
      · simp [FinishEvent.InTime, taken, Except.map, ready, room]
      · intro sender moved
        rw [taken] at moved
        cases moved

/-- The second loop reads written cells exactly when no receiver of an older array still waits. -/
theorem FinishRun.Aligned.signal (aligned : run.Aligned) (now : Timeval) :
    (run.sender.signal now ≠ .error .badPointer ↔ FinishEvent.InTime run (.signal now)) ∧
      ∀ sender, run.sender.signal now = .ok sender →
        FinishRun.Aligned ⟨sender, run.history.record run.sender (.signal now)⟩ := by
  have length := aligned.length
  have ordered := aligned.window.ordered
  by_cases dead : run.sender.side.multi.bcdState = .dead
  · by_cases current : run.history.before ≤ run.history.passed
    · have counted : run.history.passed + (run.sender.window.idxEnd - run.sender.window.idxStart).toNat =
          run.history.before + (run.history.finished.drop run.history.before).length := by
        rw [aligned.window.idxEnd, aligned.window.idxStart]
        omega
      obtain ⟨window, taken, holds⟩ := aligned.window.signal current (run.sender.expired now)
        run.sender.hasAllDone counted run.sender.ringCmd
      have waiting : (run.history.finished.drop run.history.before).drop (run.history.passed - run.history.before) =
          run.history.finished.drop run.history.passed := by
        rw [List.drop_drop, Nat.add_sub_cancel' current]
      rw [waiting] at taken holds
      constructor
      · simp [FinishEvent.InTime, FinishSender.signal, dead, taken, current]
      · intro sender moved
        simp only [FinishSender.signal, if_pos dead, taken] at moved
        obtain rfl := Except.ok.inj moved
        simp only [FinishHistory.record, if_pos dead]
        exact ⟨holds, aligned.older, aligned.small⟩
    · have older := not_le.mp current
      obtain ⟨count, counted⟩ : ∃ count,
          (run.sender.window.idxEnd - run.sender.window.idxStart).toNat = count + 1 := by
        refine Nat.exists_eq_succ_of_ne_zero ?_
        rw [aligned.window.idxEnd, aligned.window.idxStart]
        omega
      have lost := aligned.window.signal_lost older (run.sender.expired now) run.sender.hasAllDone count
        run.sender.ringCmd
      have failed : run.sender.signal now = .error .badPointer := by
        simp only [FinishSender.signal, if_pos dead, counted, lost]
      constructor
      · simp [FinishEvent.InTime, failed, dead, current]
      · intro sender moved
        rw [failed] at moved
        cases moved
  · have idle : run.sender.signal now = .ok run.sender := if_neg dead
    constructor
    · simp [FinishEvent.InTime, idle, dead]
    · intro sender moved
      obtain rfl := Except.ok.inj (idle.symm.trans moved)
      simp only [FinishHistory.record, if_neg dead]
      exact aligned

/-- A taken step records its event. -/
theorem finishRunStep_ok {event : FinishEvent} {next : FinishRun}
    (taken : finishRunStep config run event = .ok next) :
    ∃ sender, finishStep config run.sender event = .ok sender ∧
      next = ⟨sender, run.history.record run.sender event⟩ := by
  unfold finishRunStep at taken
  cases moved : finishStep config run.sender event with
  | error fault =>
      rw [moved] at taken
      cases taken
  | ok sender =>
      rw [moved] at taken
      exact ⟨sender, rfl, (Except.ok.inj taken).symm⟩

/-- The messages of the receivers leave the array. -/
theorem FinishSender.firstSeq_window {sender next : FinishSender} {addr seqFirst place : Nat}
    (taken : sender.firstSeq addr seqFirst place = .ok next) : next.window = sender.window := by
  unfold FinishSender.firstSeq at taken
  split at taken
  · cases taken
  · split at taken
    · cases taken
    · obtain rfl := Except.ok.inj taken
      rfl

theorem FinishSender.allDone_window {sender next : FinishSender} {addr : Nat}
    (taken : sender.allDone addr = .ok next) : next.window = sender.window := by
  unfold FinishSender.allDone at taken
  split at taken
  · cases taken
  · split_ifs at taken
    obtain rfl := Except.ok.inj taken
    rfl

/-- A step without access to the array keeps the alignment. -/
theorem FinishRun.Aligned.same (aligned : run.Aligned) {sender : FinishSender}
    (window : sender.window = run.sender.window) : FinishRun.Aligned ⟨sender, run.history⟩ :=
  ⟨window ▸ aligned.window, aligned.older, aligned.small⟩

theorem FinishRun.Aligned.step (aligned : run.Aligned) {event : FinishEvent} (received : event.Received)
    {next : FinishRun} (taken : finishRunStep config run event = .ok next) : next.Aligned := by
  obtain ⟨sender, moved, rfl⟩ := finishRunStep_ok taken
  cases event with
  | push slaves now =>
      obtain rfl := Except.ok.inj moved
      simp only [FinishHistory.record]
      split_ifs with none
      · exact aligned
      · have holds := aligned.window.allocate slaves.length
        rw [aligned.length] at holds
        refine ⟨?_, le_rfl, ?_⟩
        · simp only [List.drop_length]
          exact holds
        · have fits : msgHdrLen + 8 + ipAddrLen * slaves.length ≤ recvBufLen := received
          unfold msgHdrLen ipAddrLen recvBufLen at fits
          exact show slaves.length < 32768 by omega
  | approve controllerXid =>
      obtain rfl := Except.ok.inj moved
      exact aligned.same rfl
  | queue ring estimate =>
      obtain rfl := Except.ok.inj moved
      exact aligned.same rfl
  | process space ring =>
      cases sent : run.sender.side.process config.nmBurst space ring with
      | error fault =>
          simp only [finishStep, sent] at moved
          cases moved
      | ok side =>
          simp only [finishStep, sent] at moved
          obtain rfl := Except.ok.inj moved
          exact aligned.same rfl
  | check ring =>
      obtain rfl := Except.ok.inj moved
      exact aligned.same rfl
  | firstSeq addr seqFirst place => exact aligned.same (FinishSender.firstSeq_window moved)
  | allDone addr => exact aligned.same (FinishSender.allDone_window moved)
  | peek now => exact (aligned.peek now).2 sender moved
  | signal now => exact (aligned.signal now).2 sender moved
  | command =>
      obtain rfl := Except.ok.inj moved
      exact aligned.same rfl

end Arrays

/-- In every run with repeated pushes, all accesses stay inside of the written part of the latest array exactly when
each of them comes in time. -/
theorem finishArray_inside_iff (config : AgentConfig) (multi : MulticastState) (events : List FinishEvent)
    (received : ∀ event ∈ events, event.Received) :
    StepsMeet (finishRunStep config) FinishEvent.AccessInside (FinishRun.initial multi) events ↔
      StepsMeet (finishRunStep config) FinishEvent.InTime (FinishRun.initial multi) events := by
  refine stepsMeet_congr_of_steps FinishRun.Aligned ?_ ?_ (FinishRun.initial_aligned multi)
    (stepsMeet_of_forall (fun event member _ => received event member) _)
  · intro run event aligned _
    cases event with
    | peek now => exact (aligned.peek now).1
    | signal now => exact (aligned.signal now).1
    | _ => exact Iff.rfl
  · intro run event next aligned fits _ taken
    exact aligned.step fits taken

/-- The only receiver of a push finishes after the transfer. -/
def finishedPush : List FinishEvent :=
  [.push [⟨9, false⟩] (1, 0), .approve 5, .queue ⟨1, 0, 8⟩ 2, .process 2 ⟨3, 0, 8⟩, .firstSeq 9 1 0,
    .queue ⟨3, 0, 8⟩ 1, .process 1 ⟨4, 0, 8⟩, .check ⟨4, 4, 8⟩, .peek (3, 0)]

/-- The receiver is passed before a second push arrives. -/
theorem finishArray_inside_iff_passed :
    StepsMeet (finishRunStep ⟨1, true, 2⟩) FinishEvent.AccessInside (FinishRun.initial twoPackets.created)
      (finishedPush ++ [.signal (5, 0), .push [⟨7, false⟩] (6, 0), .signal (7, 0)]) :=
  (finishArray_inside_iff ⟨1, true, 2⟩ twoPackets.created _ (by decide)).mpr (by decide)

/-- A second push arrives while the receiver of the first one still waits. The second loop reads a cell of the
new array that was never written. -/
theorem finishArray_unwritten :
    ¬ ∀ (config : AgentConfig) (multi : MulticastState) (events : List FinishEvent),
      (∀ event ∈ events, event.Received) →
      StepsMeet (finishRunStep config) FinishEvent.AccessInside (FinishRun.initial multi) events := by
  intro always
  have inside := always ⟨1, true, 2⟩ twoPackets.created
    (finishedPush ++ [.push [⟨7, false⟩] (3, 1), .signal (3, 2)]) (by decide)
  have split : finishedPush ++ [.push [⟨7, false⟩] (3, 1), .signal (3, 2)] =
      (finishedPush ++ [.push [⟨7, false⟩] (3, 1)]) ++ [.signal (3, 2)] := rfl
  rw [split, stepsMeet_append] at inside
  obtain ⟨middle, reached, lost⟩ := exists_of_check
    (execute (finishRunStep ⟨1, true, 2⟩) (FinishRun.initial twoPackets.created)
      (finishedPush ++ [.push [⟨7, false⟩] (3, 1)]))
    (fun run => (run.sender.signal (3, 2)).map (fun _ => ()) = .error .badPointer) (by decide)
  have failed := of_decide_eq_true lost
  apply (inside.2 middle reached).1
  cases outcome : middle.sender.signal (3, 2) with
  | error fault =>
      rw [outcome] at failed
      exact congrArg Except.error (Except.error.inj failed)
  | ok sender =>
      rw [outcome] at failed
      cases failed

end RepublicAgent
