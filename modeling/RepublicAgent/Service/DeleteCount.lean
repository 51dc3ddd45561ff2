/-
This file counts the requests to delete a broadcast against the connected executors of its application. The
handler keeps no set of the executors that asked.
-/

import Mathlib.Data.Finset.Card
import RepublicAgent.Service.FileStore

namespace RepublicAgent
open Execution MachineInteger

/-- The executors in `uds_hash` of the application. -/
def FileAgent.udsHash (agent : FileAgent) (appId : AppID) : Finset Nat :=
  ((agent.registry.lookup appId).map fun found => found.2.udsHash).getD ∅

/-- A broadcast has one `delete_counter` in its `MulticastState` and one in its `RecverState`. -/
def FileAgent.deleteCounter (agent : FileAgent) (bcdId : BcdID) (ofMaster : Bool) : Option Nat :=
  if ofMaster then (agent.sender.path.hashMulticast bcdId).map MulticastState.deleteCounter
  else agent.recvDeleteCounter bcdId

/-- The executors of one application come and go, and they delete one of its broadcasts. -/
inductive DeleteEvent where
  | connect (leftover : Option Nat) (garbage : MsgIntQ)
  | intReq (id : Nat) (statsOpens : Bool) (msgIntQ : MsgIntQ)
  | disconnect (id : Nat)
  | delete (id : Nat)
  | wrtReq (id : Nat) (dataSize : Nat)
  | createRecver
  | delReq (id : Nat)
deriving DecidableEq, Repr

def DeleteEvent.fileEvent (bcdId : BcdID) : DeleteEvent → FileEvent
  | .connect leftover garbage => .connect leftover garbage
  | .intReq id statsOpens msgIntQ => .intReq id bcdId.appId statsOpens msgIntQ
  | .disconnect id => .disconnect id
  | .delete id => .delete id
  | .wrtReq id dataSize => .wrtReq id bcdId dataSize
  | .createRecver => .createRecver bcdId
  | .delReq id => .delReq id bcdId

/-- The executors that asked for the deletion, and those that each counter counted, are kept for the statements
only. -/
structure DeleteRun where
  agent : FileAgent
  asked : Finset Nat
  counted : Bool → Finset Nat

def DeleteRun.initial : DeleteRun := ⟨FileAgent.initial, ∅, fun _ => ∅⟩

/-- The request of an open connection is noted, and it is counted when its counter exists. -/
def DeleteRun.note (config : FileConfig) (bcdId : BcdID) (run : DeleteRun) (next : FileAgent) :
    DeleteEvent → DeleteRun
  | .delReq id =>
      if run.agent.registry.isOpen id then
        let ofMaster := decide (run.agent.OfMaster config.hostAddr id)
        { agent := next
          asked := insert id run.asked
          counted := if run.agent.deleteCounter bcdId ofMaster = none then run.counted
            else Function.update run.counted ofMaster (insert id (run.counted ofMaster)) }
      else { run with agent := next }
  | _ => { run with agent := next }

def deleteStep (config : FileConfig) (bcdId : BcdID) (run : DeleteRun) (event : DeleteEvent) :
    Except Fault DeleteRun :=
  match fileStep config run.agent (event.fileEvent bcdId) with
  | .error fault => .error fault
  | .ok next => .ok (run.note config bcdId next event)

/-- The handler of `MSG_DEL_REQ` removes the file when it counts up to the connected executors. -/
def FileAgent.RemovesFile (hostAddr : Nat) (agent : FileAgent) (id : Nat) (bcdId : BcdID) : Prop :=
  agent.registry.isOpen id = true ∧ ∃ next counter, agent.delReq hostAddr id bcdId = .ok next ∧
    next.deleteCounter bcdId (decide (agent.OfMaster hostAddr id)) = some counter ∧
    (agent.udsHash bcdId.appId).card ≤ counter

/-- The file is removed only when every connected executor has asked. -/
def RemovesLast (config : FileConfig) (bcdId : BcdID) (run : DeleteRun) : DeleteEvent → Prop
  | .delReq id => run.agent.RemovesFile config.hostAddr id bcdId →
      run.agent.udsHash bcdId.appId ⊆ insert id run.asked
  | _ => True

/-- Each executor asks once. -/
def DeleteEvent.Once (run : DeleteRun) : DeleteEvent → Prop
  | .delReq id => id ∉ run.asked
  | _ => True

instance DeleteEvent.decidableOnce (run : DeleteRun) : ∀ event : DeleteEvent, Decidable (event.Once run)
  | .delReq _ => inferInstanceAs (Decidable (¬ _))
  | .connect _ _ | .intReq _ _ _ | .disconnect _ | .delete _ | .wrtReq _ _ | .createRecver =>
      inferInstanceAs (Decidable True)

/-- When a request is counted, every connected executor has asked, or fewer executors left behind a counted
request than connected ones are not counted, or the 16 bits of the counter wrapped below the connected ones. -/
def DeleteEvent.Timely (config : FileConfig) (bcdId : BcdID) (run : DeleteRun) : DeleteEvent → Prop
  | .delReq id =>
      let ofMaster := decide (run.agent.OfMaster config.hostAddr id)
      let connected := run.agent.udsHash bcdId.appId
      let counted := insert id (run.counted ofMaster)
      run.agent.registry.isOpen id = true → run.agent.deleteCounter bcdId ofMaster ≠ none →
        connected ⊆ insert id run.asked ∨ (counted \ connected).card < (connected \ counted).card ∨
          (65536 ≤ counted.card ∧ counted.card % 65536 < connected.card)
  | _ => True

instance DeleteEvent.decidableTimely (config : FileConfig) (bcdId : BcdID) (run : DeleteRun) :
    ∀ event : DeleteEvent, Decidable (event.Timely config bcdId run)
  | .delReq _ => inferInstanceAs (Decidable (_ → _ → _ ∨ _ ∨ _))
  | .connect _ _ | .intReq _ _ _ | .disconnect _ | .delete _ | .wrtReq _ _ | .createRecver =>
      inferInstanceAs (Decidable True)

/-- The counters count the requests of executors that asked. -/
structure DeleteRun.Sound (bcdId : BcdID) (run : DeleteRun) : Prop where
  counts : ∀ ofMaster counter, run.agent.deleteCounter bcdId ofMaster = some counter →
    counter = (run.counted ofMaster).card % 65536
  absent : ∀ ofMaster, run.agent.deleteCounter bcdId ofMaster = none → run.counted ofMaster = ∅
  known : ∀ ofMaster, run.counted ofMaster ⊆ run.asked

section Handler

variable {hostAddr id : Nat} {bcdId : BcdID} {agent next : FileAgent}

/-- As many counted executors left as connected ones are missing when the counter reaches the connected ones. -/
theorem card_le_card_iff {connected counted : Finset Nat} :
    connected.card ≤ counted.card ↔ (connected \ counted).card ≤ (counted \ connected).card := by
  have left := Finset.card_inter_add_card_sdiff connected counted
  have right := Finset.card_inter_add_card_sdiff counted connected
  rw [Finset.inter_comm] at right
  omega

/-- The handler counts a request in the counter of the executor, if there is one, and nowhere else. -/
theorem FileAgent.delReq_counts (opened : agent.registry.isOpen id = true)
    (handled : agent.delReq hostAddr id bcdId = .ok next) (ofMaster : Bool) :
    next.deleteCounter bcdId ofMaster = if ofMaster = decide (agent.OfMaster hostAddr id) then
      (agent.deleteCounter bcdId ofMaster).map fun counter : Nat => u16 ((counter : Int) + 1)
    else agent.deleteCounter bcdId ofMaster := by
  unfold delReq at handled
  rw [if_pos opened] at handled
  split at handled
  · cases handled
  · split at handled
    · next multi recv =>
        obtain rfl := Except.ok.inj handled
        cases ofMaster <;> simp [deleteCounter, multi, recv]
    · dsimp only at handled
      split_ifs at handled with failed owner
      · split at handled
        · cases handled
        · next multi found =>
            obtain rfl := Except.ok.inj handled
            have count : ∀ executors, (multi.countDelete executors).deleteCounter =
                u16 ((multi.deleteCounter : Int) + 1) := by
              intro executors
              unfold MulticastState.countDelete
              dsimp only
              split_ifs <;> rfl
            cases ofMaster <;> simp [deleteCounter, withPath, owner, found, count]
      · split at handled
        · cases handled
        · next counter found =>
            obtain rfl := Except.ok.inj handled
            cases ofMaster <;> simp [deleteCounter, owner, found]

/-- The handler ends when the counter of the executor exists. -/
theorem FileAgent.delReq_ok (opened : agent.registry.isOpen id = true)
    (registered : agent.registry.lookup bcdId.appId ≠ none)
    (counted : agent.deleteCounter bcdId (decide (agent.OfMaster hostAddr id)) ≠ none) :
    ∃ next, agent.delReq hostAddr id bcdId = .ok next := by
  obtain ⟨⟨ptr, app⟩, found⟩ := Option.ne_none_iff_exists'.mp registered
  unfold delReq
  rw [if_pos opened, found]
  by_cases owner : agent.OfMaster hostAddr id
  · simp only [deleteCounter, owner, decide_true, if_true, ne_eq, Option.map_eq_none_iff] at counted
    obtain ⟨multi, stored⟩ := Option.ne_none_iff_exists'.mp counted
    have asserted : ¬ ¬ (((agent.msgIntQ id).executorId = masterExecutorId ∧ (some multi).isSome = true) ∨
        ((agent.msgIntQ id).executorId ≠ masterExecutorId ∧ (agent.recvDeleteCounter bcdId).isSome = true) ∨
        ((agent.msgIntQ id).executorId ≠ masterExecutorId ∧ hostAddr = (agent.msgIntQ id).masterAddr)) :=
      not_not_intro (owner.imp (fun master => ⟨master, rfl⟩) .inr)
    simp only [stored]
    rw [if_neg asserted, if_pos owner]
    exact ⟨_, rfl⟩
  · simp only [deleteCounter, owner, decide_false, Bool.false_eq_true, if_false] at counted
    obtain ⟨counter, stored⟩ := Option.ne_none_iff_exists'.mp counted
    have other : (agent.msgIntQ id).executorId ≠ masterExecutorId := fun master => owner (.inl master)
    have asserted : ∀ multi : Option MulticastState, ¬ ¬ (((agent.msgIntQ id).executorId = masterExecutorId ∧
        multi.isSome = true) ∨
        ((agent.msgIntQ id).executorId ≠ masterExecutorId ∧ (some counter).isSome = true) ∨
        ((agent.msgIntQ id).executorId ≠ masterExecutorId ∧ hostAddr = (agent.msgIntQ id).masterAddr)) :=
      fun multi => not_not_intro (.inr (.inl ⟨other, rfl⟩))
    cases agent.sender.path.hashMulticast bcdId <;>
      · simp only [stored]
        rw [if_neg (asserted _), if_neg owner]
        exact ⟨_, rfl⟩

/-- The file is removed exactly when a counted request reaches the connected executors. -/
theorem FileAgent.removesFile_iff : agent.RemovesFile hostAddr id bcdId ↔
    agent.registry.isOpen id = true ∧ agent.registry.lookup bcdId.appId ≠ none ∧
      ∃ counter, agent.deleteCounter bcdId (decide (agent.OfMaster hostAddr id)) = some counter ∧
        (agent.udsHash bcdId.appId).card ≤ u16 ((counter : Int) + 1) := by
  constructor
  · rintro ⟨opened, next, counter, handled, counted, reached⟩
    have counts := delReq_counts opened handled (decide (agent.OfMaster hostAddr id))
    rw [if_pos rfl, counted] at counts
    obtain ⟨before, found, rfl⟩ := Option.map_eq_some_iff.mp counts.symm
    refine ⟨opened, ?_, before, found, reached⟩
    intro unregistered
    rw [delReq, if_pos opened, unregistered] at handled
    cases handled
  · rintro ⟨opened, registered, counter, found, reached⟩
    obtain ⟨next, handled⟩ := delReq_ok opened registered (by rw [found]; simp)
    have counts := delReq_counts opened handled (decide (agent.OfMaster hostAddr id))
    rw [if_pos rfl, found] at counts
    exact ⟨opened, next, _, handled, counts, reached⟩

end Handler

section Steps

variable {config : FileConfig} {bcdId : BcdID} {run next : DeleteRun}

/-- A counted request reaches the connected executors too early exactly when it is not timely. -/
theorem DeleteRun.Sound.removesLast_iff (sound : run.Sound bcdId) {event : DeleteEvent} (once : event.Once run) :
    RemovesLast config bcdId run event ↔ event.Timely config bcdId run := by
  cases event with
  | delReq id =>
      simp only [RemovesLast, DeleteEvent.Timely, FileAgent.removesFile_iff]
      generalize named : decide (run.agent.OfMaster config.hostAddr id) = ofMaster
      have new : id ∉ run.counted ofMaster := fun member => once (sound.known ofMaster member)
      have size := Finset.card_insert_of_notMem new
      have reaches : ∀ counter, run.agent.deleteCounter bcdId ofMaster = some counter →
          u16 ((counter : Int) + 1) = (insert id (run.counted ofMaster)).card % 65536 := by
        intro counter found
        rw [size, sound.counts ofMaster counter found, u16_eq]
        omega
      have parts := @card_le_card_iff (run.agent.udsHash bcdId.appId) (insert id (run.counted ofMaster))
      constructor
      · intro last opened counted
        obtain ⟨counter, found⟩ := Option.ne_none_iff_exists'.mp counted
        by_cases registered : run.agent.registry.lookup bcdId.appId = none
        · exact .inl (by simp [FileAgent.udsHash, registered])
        · by_cases reached : run.agent.udsHash bcdId.appId ⊆ insert id run.asked
          · exact .inl reached
          · have short : ¬ (run.agent.udsHash bcdId.appId).card ≤ u16 ((counter : Int) + 1) :=
              fun enough => reached (last ⟨opened, registered, counter, found, enough⟩)
            rw [reaches counter found] at short
            omega
      · rintro timely ⟨opened, _, counter, found, enough⟩
        rw [reaches counter found] at enough
        rcases timely opened (by simp [found]) with all | fewer | wrapped
        · exact all
        · omega
        · omega
  | connect leftover garbage => exact Iff.rfl
  | intReq id statsOpens msgIntQ => exact Iff.rfl
  | disconnect id => exact Iff.rfl
  | delete id => exact Iff.rfl
  | wrtReq id dataSize => exact Iff.rfl
  | createRecver => exact Iff.rfl

/-- Every other event leaves the counters or creates one of them. -/
theorem fileStep_deleteCounter {agent after : FileAgent} {event : DeleteEvent} (other : ∀ id, event ≠ .delReq id)
    (taken : fileStep config agent (event.fileEvent bcdId) = .ok after) (ofMaster : Bool) :
    after.deleteCounter bcdId ofMaster = agent.deleteCounter bcdId ofMaster ∨
      (agent.deleteCounter bcdId ofMaster = none ∧ after.deleteCounter bcdId ofMaster = some 0) := by
  cases event with
  | delReq id => exact absurd rfl (other id)
  | connect leftover garbage =>
      obtain rfl := Except.ok.inj taken
      exact .inl rfl
  | intReq id statsOpens msgIntQ =>
      simp only [DeleteEvent.fileEvent, fileStep, FileAgent.intReq] at taken
      split_ifs at taken
      · split at taken
        · cases taken
        · obtain rfl := Except.ok.inj taken
          exact .inl rfl
      · obtain rfl := Except.ok.inj taken
        exact .inl rfl
  | disconnect id =>
      obtain rfl := Except.ok.inj taken
      exact .inl rfl
  | delete id =>
      simp only [DeleteEvent.fileEvent, fileStep, FileAgent.deleteUDSState] at taken
      split at taken
      · cases taken
      · obtain rfl := Except.ok.inj taken
        left
        unfold FileAgent.deleteCounter FileAgent.withPath PathState.closeAll
        cases ofMaster with
        | false => rfl
        | true =>
            simp only [if_true]
            split_ifs
            · cases agent.sender.path.hashMulticast bcdId <;> rfl
            · rfl
  | wrtReq id dataSize =>
      simp only [DeleteEvent.fileEvent, fileStep, FileAgent.wrtReq] at taken
      split_ifs at taken
      · split at taken
        · cases taken
        · split at taken
          · cases taken
          · next path written =>
              obtain rfl := Except.ok.inj taken
              obtain ⟨absent, multi, created, rfl⟩ := PathState.wrtReq_ok written
              cases ofMaster with
              | false => exact .inl rfl
              | true =>
                  refine .inr ⟨by simp [FileAgent.deleteCounter, absent], ?_⟩
                  simp [FileAgent.deleteCounter, FileAgent.withPath, createBcdState_deleteCounter created]
      · obtain rfl := Except.ok.inj taken
        exact .inl rfl
  | createRecver =>
      obtain rfl := Except.ok.inj taken
      cases ofMaster with
      | true => exact .inl rfl
      | false =>
          unfold FileAgent.deleteCounter
          cases agent.recvDeleteCounter bcdId <;> simp

theorem DeleteRun.Sound.delReq (sound : run.Sound bcdId) {id : Nat} (fresh : id ∉ run.asked) {after : FileAgent}
    (handled : run.agent.delReq config.hostAddr id bcdId = .ok after) :
    (run.note config bcdId after (.delReq id)).Sound bcdId := by
  simp only [note]
  split_ifs with opened unknown
  · have same : ∀ ofMaster, after.deleteCounter bcdId ofMaster = run.agent.deleteCounter bcdId ofMaster := by
      intro ofMaster
      rw [FileAgent.delReq_counts opened handled]
      split_ifs with own
      · rw [own, unknown]
        rfl
      · rfl
    refine ⟨?_, ?_, fun ofMaster => (sound.known ofMaster).trans (Finset.subset_insert id run.asked)⟩
    · intro ofMaster counter found
      exact sound.counts ofMaster counter (same ofMaster ▸ found)
    · intro ofMaster absent
      exact sound.absent ofMaster (same ofMaster ▸ absent)
  · have counts := FileAgent.delReq_counts opened handled
    generalize decide (run.agent.OfMaster config.hostAddr id) = owner at unknown counts ⊢
    refine ⟨?_, ?_, ?_⟩
    · intro ofMaster counter found
      rw [counts] at found
      dsimp only
      split_ifs at found with own
      · subst own
        obtain ⟨before, stored, rfl⟩ := Option.map_eq_some_iff.mp found
        have new : id ∉ run.counted ofMaster := fun member => fresh (sound.known ofMaster member)
        rw [Function.update_self, Finset.card_insert_of_notMem new, sound.counts ofMaster before stored, u16_eq]
        omega
      · rw [Function.update_of_ne own]
        exact sound.counts ofMaster counter found
    · intro ofMaster absent
      rw [counts] at absent
      dsimp only
      split_ifs at absent with own
      · exact absurd (own ▸ Option.map_eq_none_iff.mp absent) unknown
      · rw [Function.update_of_ne own]
        exact sound.absent ofMaster absent
    · intro ofMaster
      dsimp only
      by_cases own : ofMaster = owner
      · rw [own, Function.update_self]
        exact Finset.insert_subset_insert id (sound.known owner)
      · rw [Function.update_of_ne own]
        exact (sound.known ofMaster).trans (Finset.subset_insert id run.asked)
  · rw [FileAgent.delReq, if_neg opened] at handled
    obtain rfl := Except.ok.inj handled
    exact ⟨sound.counts, sound.absent, sound.known⟩

/-- A step without a request to delete keeps what was counted. -/
theorem DeleteRun.Sound.keep (sound : run.Sound bcdId) {after : FileAgent}
    (counters : ∀ ofMaster, after.deleteCounter bcdId ofMaster = run.agent.deleteCounter bcdId ofMaster ∨
      (run.agent.deleteCounter bcdId ofMaster = none ∧ after.deleteCounter bcdId ofMaster = some 0)) :
    DeleteRun.Sound bcdId { run with agent := after } := by
  refine ⟨?_, ?_, sound.known⟩
  · intro ofMaster counter found
    rcases counters ofMaster with same | ⟨absent, created⟩
    · exact sound.counts ofMaster counter (same ▸ found)
    · obtain rfl := Option.some.inj (created.symm.trans found)
      rw [sound.absent ofMaster absent]
      rfl
  · intro ofMaster absent
    rcases counters ofMaster with same | ⟨_, created⟩
    · exact sound.absent ofMaster (same ▸ absent)
    · exact absurd (created.symm.trans absent) (by simp)

theorem DeleteRun.Sound.step (sound : run.Sound bcdId) {event : DeleteEvent} (once : event.Once run)
    (taken : deleteStep config bcdId run event = .ok next) : next.Sound bcdId := by
  unfold deleteStep at taken
  split at taken
  · cases taken
  · next after handled =>
      obtain rfl := Except.ok.inj taken
      cases event with
      | delReq id => exact sound.delReq once handled
      | connect leftover garbage => exact sound.keep (fileStep_deleteCounter (by simp) handled)
      | intReq id statsOpens msgIntQ => exact sound.keep (fileStep_deleteCounter (by simp) handled)
      | disconnect id => exact sound.keep (fileStep_deleteCounter (by simp) handled)
      | delete id => exact sound.keep (fileStep_deleteCounter (by simp) handled)
      | wrtReq id dataSize => exact sound.keep (fileStep_deleteCounter (by simp) handled)
      | createRecver => exact sound.keep (fileStep_deleteCounter (by simp) handled)

end Steps

/-- Nothing is counted before the first executor. -/
theorem DeleteRun.initial_sound (bcdId : BcdID) : DeleteRun.initial.Sound bcdId where
  counts ofMaster counter found := by
    cases ofMaster <;> cases found
  absent _ _ := rfl
  known _ := Finset.empty_subset _

/-- When each executor asks once, the file is removed behind the requests of all connected executors exactly in
the runs whose requests are timely. -/
theorem deletions_last_iff (config : FileConfig) (bcdId : BcdID) (events : List DeleteEvent)
    (once : StepsMeet (deleteStep config bcdId) (fun run event => event.Once run) .initial events) :
    StepsMeet (deleteStep config bcdId) (RemovesLast config bcdId) .initial events ↔
      StepsMeet (deleteStep config bcdId) (fun run event => event.Timely config bcdId run) .initial events :=
  stepsMeet_congr_of_steps (DeleteRun.Sound bcdId) (fun _ _ sound asks => sound.removesLast_iff asks)
    (fun _ _ _ sound asks _ taken => sound.step asks taken) (DeleteRun.initial_sound bcdId) once

/-- The master and one executor on its host delete a broadcast. -/
def bothDelete : List DeleteEvent :=
  [.connect none ⟨0, 0⟩, .intReq 0 true ⟨-1, 7⟩, .connect none ⟨0, 0⟩, .intReq 1 true ⟨1, 7⟩, .wrtReq 0 4,
    .delReq 1, .delReq 0]

/-- The host of the master. -/
def masterHost : FileConfig := ⟨7, ⟨1, true, 4⟩⟩

theorem deletions_last_bothDelete :
    StepsMeet (deleteStep masterHost ⟨1, 2, 3⟩) (RemovesLast masterHost ⟨1, 2, 3⟩) .initial bothDelete :=
  (deletions_last_iff masterHost ⟨1, 2, 3⟩ bothDelete (by decide)).mpr (by decide)

/-- An executor asks and leaves, and another one comes. -/
def replacedExecutor : List DeleteEvent :=
  [.connect none ⟨0, 0⟩, .intReq 0 true ⟨-1, 7⟩, .connect none ⟨0, 0⟩, .intReq 1 true ⟨1, 7⟩, .wrtReq 0 4,
    .delReq 1, .disconnect 1, .delete 1, .connect none ⟨0, 0⟩, .intReq 2 true ⟨2, 7⟩]

/-- The request of the master removes the file although the executor that came last has not asked. -/
theorem deletions_early : ¬ ∀ events,
    StepsMeet (deleteStep masterHost ⟨1, 2, 3⟩) (fun run event => event.Once run) .initial events →
      StepsMeet (deleteStep masterHost ⟨1, 2, 3⟩) (RemovesLast masterHost ⟨1, 2, 3⟩) .initial events := by
  intro always
  have met := always (replacedExecutor ++ [.delReq 0]) (by decide)
  obtain ⟨run, reached, checked⟩ := exists_of_check
    (execute (deleteStep masterHost ⟨1, 2, 3⟩) .initial replacedExecutor)
    (fun run => run.agent.registry.isOpen 0 ∧ (run.agent.registry.lookup ⟨1, 2⟩).isSome ∧
      run.agent.deleteCounter ⟨1, 2, 3⟩ (run.agent.OfMaster 7 0) = some 1 ∧
      (run.agent.udsHash ⟨1, 2⟩).card = 2 ∧ ¬ run.agent.udsHash ⟨1, 2⟩ ⊆ insert 0 run.asked) (by decide)
  obtain ⟨opened, registered, counter, executors, missing⟩ := of_decide_eq_true checked
  have last := ((stepsMeet_append.mp met).2 run reached).1
  apply missing
  apply last
  refine FileAgent.removesFile_iff.mpr ⟨opened, Option.isSome_iff_ne_none.mp registered, 1, counter, ?_⟩
  exact executors.le

end RepublicAgent
