/-
This file follows the messages `MSG_FAST_DONE` of one push. The skip list, the array and the command ring hold
each receiver at most once, and none is lost between them.
-/

import RepublicAgent.Sender.FinishWindow
import Mathlib.Data.List.TakeWhile

namespace RepublicAgent
open Execution MachineInteger

/-- The sender behind the handler of the push. -/
def Push.finishing (push : Push) : FinishSender := (FinishSender.initial push.created).push push.slaves push.tvPush

/-- One push is approved once. Each of its receivers sends at most one `MSG_FIRST_SEQ` and at most one
`MSG_ALL_DONE`. -/
def FinishEvent.Permitted (push : Push) (sender : FinishSender) : FinishEvent → Prop
  | .push .. => False
  | .approve _ => sender.side.multi.bcdState = .dead ∧ sender.raised = false
  | .firstSeq addr _ _ => addr ∈ push.slaves.map Slave.addr ∧ addr ∉ sender.reported
  | .allDone addr => addr ∈ push.slaves.map Slave.addr ∧ sender.hasAllDone (sender.senderOf addr) = false
  | _ => True

instance FinishEvent.decidablePermitted (push : Push) (sender : FinishSender) :
    ∀ event : FinishEvent, Decidable (event.Permitted push sender)
  | .push .. => inferInstanceAs (Decidable False)
  | .approve _ => inferInstanceAs (Decidable (_ ∧ _))
  | .firstSeq .. => inferInstanceAs (Decidable (_ ∧ _))
  | .allDone _ => inferInstanceAs (Decidable (_ ∧ _))
  | .queue .. | .process .. | .check _ | .peek _ | .signal _ | .command => inferInstanceAs (Decidable True)

/-- The calls of the data channel thread. -/
def FinishEvent.isData : FinishEvent → Bool
  | .queue .. | .process .. | .check _ => true
  | _ => false

def FinishEvent.isPeek : FinishEvent → Bool
  | .peek _ => true
  | _ => false

/-- The first loop may be interleaved with calls of the data channel thread. -/
def FinishEvent.inLoop (event : FinishEvent) : Bool := event.isData || event.isPeek

/-- A pass runs its first loop to the end, and every timeout has expired in its second loop. Then no receiver is
left in the skip list, and all receivers were passed. -/
def FinishSender.Drains (config : AgentConfig) (push : Push) (sender : FinishSender) : Prop :=
  ∀ loop now middle, (∀ event ∈ loop, FinishEvent.inLoop event = true) →
    sender.skipList.length ≤ loop.countP FinishEvent.isPeek →
    execute (finishStep config) sender loop = .ok middle →
    (∀ ref, some ref ∈ middle.window.arr → middle.expired now ref = true) →
    ∃ final, middle.signal now = .ok final ∧ final.skipList = [] ∧
      final.window.idxStart = push.slaves.length ∧ final.window.idxEnd = push.slaves.length

/-- The bookkeeping of the messages. -/
structure FinishSender.Kept (config : AgentConfig) (push : Push) (sender : FinishSender) : Prop where
  bounds : 0 ≤ sender.window.idxStart ∧ sender.window.idxStart ≤ sender.window.idxEnd ∧
    sender.window.idxEnd ≤ push.slaves.length
  distinct : (sender.window.arr.reduceOption.map SenderRef.addr).Nodup
  once : (sender.created.map SenderRef.addr).Nodup
  drains : sender.raised = true → sender.side.multi.bcdState = .dead → sender.Drains config push

/-- A message is created for a dead multicast only, when the last packet of its receiver was sent and no
`MSG_ALL_DONE` of this receiver was handled. -/
def FinishEvent.SignalsRight (config : AgentConfig) (sender : FinishSender) (event : FinishEvent) : Prop :=
  ∀ next, finishStep config sender event = .ok next → ∀ ref ∈ next.created, ref ∉ sender.created →
    sender.side.multi.bcdState = .dead ∧ sender.seqEndOf ref ≤ sender.side.multi.seqCur ∧
      sender.hasAllDone ref = false

/-- The state of a receiver of the push. -/
def receiverOf (addr : Nat) : SenderRef := ⟨addr, 1⟩

/-- The finished receivers left the skip list, and those up to `signalled` left the array. -/
structure FinishSender.Sound (push : Push) (finished : List SenderRef) (signalled : Nat) (sender : FinishSender) :
    Prop where
  quiet : sender.side.Quiet
  opened : sender.side.multi.fd = true
  fields : sender.side.multi.pushFields.Sound push sender.reported
  known : ∀ addr ∈ push.slaves.map Slave.addr, sender.side.multi.senderAddrHash addr ≠ none
  current : ∀ addr ∈ push.slaves.map Slave.addr, sender.senderOf addr = receiverOf addr
  window : sender.window.Holds push.slaves.length 0 finished signalled
  kept : (finished ++ sender.skipList).Perm (sender.reported.map receiverOf)
  ends : ∀ addr ∈ sender.reported, sender.seqEndOf (receiverOf addr) ≤ sender.side.multi.seqEndMax
  created : sender.created.reverse.Sublist (finished.take signalled)
  early : sender.raised = false → sender.side.multi.bcdState = .dead →
    sender.side.multi.seqCur = 0 ∧ ∀ ref ∈ finished, sender.seqEndOf ref = 0
  waits : sender.side.pathRelease.needReleasePath = true → sender.raised = true
  late : sender.raised = true → sender.side.multi.Terminated ∧ sender.side.multi.EndReached

/-- Some number of finished receivers was passed. -/
def FinishSender.Balanced (push : Push) (sender : FinishSender) : Prop :=
  ∃ finished signalled, sender.Sound push finished signalled

section Steps

variable {config : AgentConfig} {push : Push} {finished : List SenderRef} {signalled : Nat} {sender : FinishSender}

theorem receiverOf_injective : Function.Injective receiverOf := fun _ _ same => congrArg SenderRef.addr same

theorem receivers_addr (reported : List Nat) : (reported.map receiverOf).map SenderRef.addr = reported := by
  rw [List.map_map]
  exact List.map_id reported

theorem Push.finishing_sound (push : Push) : push.finishing.Sound push [] 0 := by
  have new := createBcdState_unpushed push.stored
  have opened := (createBcdState_new push.stored).2.2.2.2.1
  have multi : push.finishing.side.multi = push.pushed := rfl
  have seqCur : push.finishing.side.multi.seqCur = 0 :=
    (push.pushed_field MulticastState.seqCur (fun _ _ => rfl) fun _ => rfl).trans new.seqCur
  constructor
  · refine ⟨?_, fun _ quota waiting => nomatch waiting⟩
    rw [seqCur]
    decide
  · exact (push.pushed_field MulticastState.fd (fun _ _ => rfl) fun _ => rfl).trans opened
  · exact push.pushed_sound
  · intro addr receiver
    exact (createSenderStates_known (multicastStateReset push.created) push.slaves addr).mpr (.inl receiver)
  · intro addr receiver
    simp only [FinishSender.senderOf, Push.finishing, FinishSender.push, if_pos receiver]
    rfl
  · have empty : FinishWindow.Holds ⟨[], 0, 0⟩ 0 0 [] 0 := ⟨rfl, by simp, rfl, rfl, le_rfl, by decide⟩
    exact empty.allocate push.slaves.length
  · exact List.Perm.refl []
  · exact fun addr absent => nomatch absent
  · exact List.Sublist.refl []
  · exact fun _ _ => ⟨seqCur, by simp⟩
  · exact fun waiting => nomatch waiting
  · exact fun raised => nomatch raised

/-- The skip list and the array hold the receivers that reported. -/
theorem FinishSender.Sound.count (sound : sender.Sound push finished signalled) :
    finished.length + sender.skipList.length = sender.reported.length ∧
      sender.reported.length ≤ push.slaves.length := by
  have total := sound.kept.length_eq
  have fewer := sound.fields.reports.le
  have counted := sound.fields.reports.counted
  have created := sound.fields.reports.created
  rw [List.length_append, List.length_map] at total
  exact ⟨total, by omega⟩

/-- What the data channel thread does keeps the bookkeeping. -/
theorem FinishSender.Sound.moveData (sound : sender.Sound push finished signalled) {side : DataSide}
    (called : sender.side.Called side) : (sender.moveData side).Sound push finished signalled := by
  have hash := congrArg PushFields.senderAddrHash called.pushFields
  have largest := congrArg PushFields.seqEndMax called.pushFields
  simp only [MulticastState.pushFields] at hash largest
  constructor
  · exact called.quiet
  · exact called.fd.trans sound.opened
  · have fields := sound.fields
    rw [← called.pushFields] at fields
    exact fields
  · intro addr receiver
    have known := sound.known addr receiver
    rw [← hash] at known
    exact known
  · exact sound.current
  · exact sound.window
  · exact sound.kept
  · intro addr member
    have last := sound.ends addr member
    rw [← largest] at last
    exact last
  · exact sound.created
  · intro calm dead
    obtain ⟨before, noRelease⟩ := Bool.or_eq_false_iff.mp calm
    have stopped : sender.side.multi.bcdState = .dead := by
      refine (called.died dead).resolve_right fun waiting => ?_
      rw [sound.waits waiting] at before
      cases before
    obtain ⟨start, ends⟩ := sound.early before stopped
    exact ⟨(called.dead stopped).2.trans start, ends⟩
  · exact fun waiting => Bool.or_eq_true_iff.mpr (.inr waiting)
  · intro raised
    by_cases before : sender.raised = true
    · obtain ⟨terminated, ended⟩ := sound.late before
      obtain ⟨marked, seqCur⟩ := called.terminated terminated
      exact ⟨marked, (endReached_congr called.pushFields seqCur).mpr ended⟩
    · have waiting := (Bool.or_eq_true_iff.mp raised).resolve_left before
      exact (called.waits waiting).resolve_left fun earlier => before (sound.waits earlier)

theorem FinishSender.Sound.approve (sound : sender.Sound push finished signalled) (calm : sender.raised = false)
    (controllerXid : Int32) : (sender.approve controllerXid).Sound push finished signalled :=
  { sound with
    quiet := ⟨sound.quiet.bounded, sound.quiet.stopped⟩
    early := fun _ dead => nomatch dead
    late := fun raised => absurd (calm.symm.trans raised) (by decide) }

/-- The handler of `MSG_FIRST_SEQ` leaves the marks and the file, and it forgets no receiver. -/
theorem handleFirstSeq_frame {multi handled : MulticastState} {addr seqFirst : Nat}
    (taken : handleFirstSeq multi addr seqFirst = .ok handled) :
    handled.isTvLastData = multi.isTvLastData ∧ handled.fd = multi.fd ∧
      ∀ other, multi.senderAddrHash other ≠ none → handled.senderAddrHash other ≠ none := by
  obtain ⟨state, _, rfl⟩ := handleFirstSeq_ok taken
  rw [multicastStateUpdateSeqEnd_eq]
  refine ⟨rfl, rfl, ?_⟩
  intro other known
  by_cases same : other = addr
  · simp [same]
  · simpa [same] using known

/-- A report of a silent receiver enters the skip list. -/
theorem FinishSender.Sound.firstSeq (sound : sender.Sound push finished signalled) {addr : Nat} (seqFirst place : Nat)
    (receiver : addr ∈ push.slaves.map Slave.addr) (silent : addr ∉ sender.reported) :
    ∃ next, sender.firstSeq addr seqFirst place = .ok next ∧ next.Sound push finished signalled ∧
      next.created = sender.created := by
  obtain ⟨state, found⟩ := Option.ne_none_iff_exists'.mp (sound.known addr receiver)
  obtain ⟨handled, taken⟩ : ∃ handled, handleFirstSeq sender.side.multi addr seqFirst = .ok handled := by
    simp [handleFirstSeq, receiveFirstSeq, found]
  have fields := sound.fields.report silent taken
  obtain ⟨stored, lookup, last⟩ := fields.ends addr List.mem_cons_self
  have kept := handleFirstSeq_handled taken
  have open_ : sender.raised = false := by
    by_contra raised
    have ended := (sound.late (Bool.of_not_eq_false raised)).2
    exact absurd ended.2.symm (sound.fields.reports.room receiver silent).ne
  have fresh : receiverOf addr ∉ finished := by
    intro member
    have reports := sound.kept.mem_iff.mp (List.mem_append_left sender.skipList member)
    exact silent ((List.mem_map_of_injective receiverOf_injective).mp reports)
  have receive : sender.firstSeq addr seqFirst place = .ok (sender.report handled addr stored.seqEnd place) := by
    have same : handled.senderAddrHash addr = some stored := lookup
    simp only [FinishSender.firstSeq, taken, same]
  refine ⟨_, receive, ?_, rfl⟩
  have current := sound.current addr receiver
  have frame := handleFirstSeq_frame taken
  constructor
  · refine ⟨?_, ?_⟩
    · have bounded := sound.quiet.bounded
      rw [← kept.seqCur] at bounded
      exact bounded
    · have stopped := sound.quiet.stopped
      rw [MulticastState.Terminated, ← frame.1] at stopped
      exact stopped
  · exact frame.2.1.trans sound.opened
  · exact fields
  · exact fun other member => frame.2.2 other (sound.known other member)
  · exact sound.current
  · exact sound.window
  · have inserted : (sender.skipList.take place ++ receiverOf addr :: sender.skipList.drop place).Perm
        (receiverOf addr :: sender.skipList) := by
      have middle := @List.perm_middle _ (receiverOf addr) (sender.skipList.take place) (sender.skipList.drop place)
      rwa [List.take_append_drop] at middle
    simp only [FinishSender.report, current, List.map_cons]
    exact (inserted.append_left finished).trans (List.perm_middle.trans (sound.kept.cons (receiverOf addr)))
  · intro other member
    simp only [FinishSender.report, current, kept.seqEndMax]
    by_cases same : other = addr
    · subst same
      rw [Function.update_self, ← kept.seqEndMax]
      exact last
    · rw [Function.update_of_ne fun equal => same (receiverOf_injective equal)]
      exact (sound.ends other ((List.mem_cons.mp member).resolve_left same)).trans (le_max_left ..)
  · exact sound.created
  · intro _ dead
    obtain ⟨start, ends⟩ := sound.early open_ (kept.bcdState.symm.trans dead)
    refine ⟨kept.seqCur.trans start, fun ref member => ?_⟩
    have other : ref ≠ sender.senderOf addr := by
      rw [current]
      exact fun same => fresh (same ▸ member)
    exact (Function.update_of_ne other ..).trans (ends ref member)
  · exact sound.waits
  · exact fun raised => absurd (open_.symm.trans raised) (by decide)

/-- A handled `MSG_ALL_DONE` changes no other bookkeeping. -/
theorem FinishSender.Sound.allDone (sound : sender.Sound push finished signalled) {addr : Nat}
    (receiver : addr ∈ push.slaves.map Slave.addr) (first : sender.hasAllDone (sender.senderOf addr) = false) :
    ∃ next, sender.allDone addr = .ok next ∧ next.Sound push finished signalled ∧
      next.created = sender.created := by
  obtain ⟨state, found⟩ := Option.ne_none_iff_exists'.mp (sound.known addr receiver)
  refine ⟨{ sender with hasAllDone := Function.update sender.hasAllDone (sender.senderOf addr) true }, ?_, ?_, rfl⟩
  · simp [FinishSender.allDone, found, first]
  · exact { sound with }

/-- The head of the skip list stays, or it moves into the array. -/
theorem FinishSender.Sound.peek (sound : sender.Sound push finished signalled) (now : Timeval) :
    ∃ next moved, sender.peek now = .ok next ∧ next.Sound push (finished ++ moved) signalled ∧
      next.side = sender.side ∧ next.raised = sender.raised ∧ next.created = sender.created ∧
      sender.skipList = moved ++ next.skipList ∧
      (moved = [] → ∀ head, sender.skipList.head? = some head →
        sender.side.multi.seqCur < sender.seqEndOf head) := by
  cases list : sender.skipList with
  | nil =>
      refine ⟨sender, [], ?_, ?_, rfl, rfl, rfl, list.symm, by simp⟩
      · simp only [FinishSender.peek, list]
      · rw [List.append_nil]
        exact sound
  | cons head rest =>
      by_cases ready : sender.seqEndOf head ≤ sender.side.multi.seqCur
      · have count := sound.count
        rw [list, List.length_cons] at count
        have few := push.slaves_length
        obtain ⟨window, written, holds⟩ := sound.window.put (by omega) (by omega) head
        refine ⟨{ sender with
          tvFastDone := Function.update sender.tvFastDone head now
          skipList := rest
          window := window }, [head], ?_, ?_, rfl, rfl, rfl, rfl, by simp⟩
        · simp only [FinishSender.peek, list, if_pos ready, written]
        · have kept := sound.kept
          rw [list] at kept
          refine { sound with window := holds, kept := ?_, created := ?_, early := ?_ }
          · rw [List.append_assoc]
            exact kept
          · rw [List.take_append_of_le_length (by have ordered := sound.window.ordered; omega)]
            exact sound.created
          · intro calm dead
            obtain ⟨start, ends⟩ := sound.early calm dead
            refine ⟨start, fun ref member => ?_⟩
            rcases List.mem_append.mp member with before | last
            · exact ends ref before
            · obtain rfl := List.mem_singleton.mp last
              exact Nat.le_zero.mp (ready.trans start.le)
      · refine ⟨sender, [], ?_, ?_, rfl, rfl, rfl, list.symm, ?_⟩
        · simp only [FinishSender.peek, list, if_neg ready]
        · rw [List.append_nil]
          exact sound
        · rintro _ other ⟨⟩
          exact not_le.mp ready

/-- At the end of the transfer the last packets of all reported receivers were sent. -/
theorem FinishSender.Sound.ended (sound : sender.Sound push finished signalled) (raised : sender.raised = true)
    {ref : SenderRef} (member : ref ∈ finished ++ sender.skipList) :
    sender.seqEndOf ref ≤ sender.side.multi.seqCur := by
  obtain ⟨addr, reports, rfl⟩ := List.mem_map.mp (sound.kept.mem_iff.mp member)
  have ended := (sound.late raised).2
  have known := sound.fields.known ⟨List.ne_nil_of_mem reports, ended.2.symm⟩
  exact (sound.ends addr reports).trans (known.symm.le.trans ended.1)

/-- The last packets of the finished receivers were sent when the multicast is dead. -/
theorem FinishSender.Sound.sent (sound : sender.Sound push finished signalled)
    (dead : sender.side.multi.bcdState = .dead) {ref : SenderRef} (member : ref ∈ finished) :
    sender.seqEndOf ref ≤ sender.side.multi.seqCur := by
  by_cases raised : sender.raised = true
  · exact sound.ended raised (List.mem_append_left _ member)
  · rw [(sound.early (Bool.eq_false_iff.mpr raised) dead).2 ref member]
    exact Nat.zero_le _

/-- The second loop passes expired receivers. It creates messages for some of them. -/
theorem FinishSender.Sound.signal (sound : sender.Sound push finished signalled) (now : Timeval) :
    ∃ next later, sender.signal now = .ok next ∧ next.Sound push finished later ∧
      next.skipList = sender.skipList ∧
      (∀ ref ∈ next.created, ref ∉ sender.created →
        sender.side.multi.bcdState = .dead ∧ ref ∈ finished ∧ sender.hasAllDone ref = false) ∧
      (sender.side.multi.bcdState = .dead → (∀ ref ∈ finished, sender.expired now ref = true) →
        later = finished.length) := by
  by_cases dead : sender.side.multi.bcdState = .dead
  · have ordered := sound.window.ordered
    have counted : signalled + (sender.window.idxEnd - sender.window.idxStart).toNat = 0 + finished.length := by
      rw [sound.window.idxEnd, sound.window.idxStart]
      omega
    obtain ⟨window, taken, holds⟩ := sound.window.signal (Nat.zero_le _) (sender.expired now) sender.hasAllDone
      counted sender.ringCmd
    rw [Nat.sub_zero] at taken holds
    generalize passed : (finished.drop signalled).takeWhile (sender.expired now) = expired at taken holds
    have front : expired <+: finished.drop signalled := passed ▸ List.takeWhile_prefix _
    refine ⟨{ sender with
      window := window
      ringCmd := (expired.filter fun ref => !sender.hasAllDone ref).reverse ++ sender.ringCmd },
      signalled + expired.length, ?_, { sound with window := holds, created := ?_ }, rfl, ?_, ?_⟩
    · simp only [FinishSender.signal, if_pos dead, taken]
    · have split : finished.take (signalled + expired.length) = finished.take signalled ++ expired := by
        rw [List.take_add, ← List.prefix_iff_eq_take.mp front]
      have created := sound.created
      simp only [FinishSender.created, List.reverse_append, List.reverse_reverse, split] at created ⊢
      rw [← List.append_assoc]
      exact created.append List.filter_sublist
    · intro ref created new
      have member : ref ∈ expired.filter fun ref => !sender.hasAllDone ref := by
        simp only [FinishSender.created, List.append_assoc, List.mem_append, List.mem_reverse] at created new
        exact created.resolve_right new
      obtain ⟨late, silent⟩ := List.mem_filter.mp member
      refine ⟨dead, List.mem_of_mem_drop (front.subset late), ?_⟩
      simpa using silent
    · intro _ all
      have whole : expired = finished.drop signalled := by
        rw [← passed]
        exact List.takeWhile_eq_self_iff.mpr fun ref member => all ref (List.mem_of_mem_drop member)
      rw [whole, List.length_drop]
      omega
  · refine ⟨sender, signalled, if_neg dead, sound, rfl, ?_, fun died => absurd died dead⟩
    exact fun ref created new => absurd created new

/-- A command leaves the ring for a send queue. -/
theorem FinishSender.command_created (sender : FinishSender) : sender.command.created = sender.created := by
  have whole : sender.ringCmd.dropLast ++ sender.ringCmd.getLast?.toList = sender.ringCmd := by
    cases last : sender.ringCmd.getLast? with
    | none => simp [List.getLast?_eq_none_iff.mp last]
    | some ref => exact List.dropLast_append_getLast? ref last
  simp only [FinishSender.created, FinishSender.command]
  rw [← List.append_assoc, whole]

theorem FinishSender.Sound.command (sound : sender.Sound push finished signalled) :
    sender.command.Sound push finished signalled := by
  have same := sender.command_created
  refine { sound with created := ?_ }
  rw [same]
  exact sound.created

/-- A step of the data channel thread moves the data side only. -/
theorem FinishSender.Sound.dataStep (sound : sender.Sound push finished signalled) (config : AgentConfig) {event : FinishEvent}
    (data : event.isData = true) :
    ∃ side, finishStep config sender event = .ok (sender.moveData side) ∧ sender.side.Called side := by
  cases event with
  | queue ring estimate => exact ⟨_, rfl, sound.quiet.queue config.firstFirstSeqFullrate ring estimate⟩
  | process space ring =>
      obtain ⟨side, taken⟩ := DataSide.process_open sound.opened config.nmBurst space ring
      exact ⟨side, by simp only [finishStep, taken]; rfl, sound.quiet.process taken⟩
  | check ring => exact ⟨_, rfl, sound.quiet.check ring⟩
  | _ => cases data

/-- A step that creates no message. -/
theorem FinishEvent.signalsRight_of_created {event : FinishEvent} {next : FinishSender}
    (taken : finishStep config sender event = .ok next) (same : next.created = sender.created) :
    event.SignalsRight config sender := by
  intro other moved ref created new
  obtain rfl := Except.ok.inj (taken.symm.trans moved)
  rw [same] at created
  exact absurd created new

/-- Every permitted step is taken, keeps the bookkeeping and creates messages at the right time only. -/
theorem FinishSender.Sound.step (sound : sender.Sound push finished signalled) (config : AgentConfig) {event : FinishEvent}
    (permitted : event.Permitted push sender) :
    ∃ next finished signalled, finishStep config sender event = .ok next ∧ next.Sound push finished signalled ∧
      event.SignalsRight config sender := by
  have data : event.isData = true → ∃ next finished signalled, finishStep config sender event = .ok next ∧
      next.Sound push finished signalled ∧ event.SignalsRight config sender := by
    intro data
    obtain ⟨side, taken, called⟩ := sound.dataStep config data
    exact ⟨_, _, _, taken, sound.moveData called, event.signalsRight_of_created taken rfl⟩
  cases event with
  | push slaves now => exact permitted.elim
  | approve controllerXid =>
      exact ⟨_, _, _, rfl, sound.approve permitted.2 controllerXid, FinishEvent.signalsRight_of_created rfl rfl⟩
  | queue ring estimate => exact data rfl
  | process space ring => exact data rfl
  | check ring => exact data rfl
  | firstSeq addr seqFirst place =>
      obtain ⟨next, taken, after, same⟩ := sound.firstSeq seqFirst place permitted.1 permitted.2
      exact ⟨next, _, _, taken, after, FinishEvent.signalsRight_of_created taken same⟩
  | allDone addr =>
      obtain ⟨next, taken, after, same⟩ := sound.allDone permitted.1 permitted.2
      exact ⟨next, _, _, taken, after, FinishEvent.signalsRight_of_created taken same⟩
  | peek now =>
      obtain ⟨next, moved, taken, after, _, _, same, _⟩ := sound.peek now
      exact ⟨next, _, _, taken, after, FinishEvent.signalsRight_of_created taken same⟩
  | signal now =>
      obtain ⟨next, later, taken, after, _, created, _⟩ := sound.signal now
      refine ⟨next, _, _, taken, after, ?_⟩
      intro other moved ref present new
      obtain rfl := Except.ok.inj (taken.symm.trans moved)
      obtain ⟨dead, member, silent⟩ := created ref present new
      exact ⟨dead, sound.sent dead member, silent⟩
  | command => exact ⟨_, _, _, rfl, sound.command, FinishEvent.signalsRight_of_created rfl sender.command_created⟩

/-- Behind the end of the transfer, each step of the first loop takes one receiver from the skip list. -/
theorem FinishSender.Sound.loopStep (sound : sender.Sound push finished signalled) (raised : sender.raised = true)
    (dead : sender.side.multi.bcdState = .dead) {event : FinishEvent} (inside : event.inLoop = true)
    {next : FinishSender} (taken : finishStep config sender event = .ok next) :
    (∃ finished, next.Sound push finished signalled) ∧ next.raised = true ∧ next.side.multi.bcdState = .dead ∧
      next.skipList.length ≤ sender.skipList.length - [event].countP FinishEvent.isPeek := by
  rcases Bool.or_eq_true_iff.mp inside with data | peeked
  · obtain ⟨side, moved, called⟩ := sound.dataStep config data
    obtain rfl := Except.ok.inj (moved.symm.trans taken)
    have noPeek : event.isPeek = false := by cases event <;> first | rfl | cases data
    refine ⟨⟨finished, sound.moveData called⟩, ?_, (called.dead dead).1, ?_⟩
    · simp [FinishSender.moveData, raised]
    · simp [FinishSender.moveData, noPeek]
  · cases event with
    | peek now =>
        obtain ⟨other, moved, peeked, after, side, still, _, list, blocked⟩ := sound.peek now
        obtain rfl := Except.ok.inj (peeked.symm.trans taken)
        refine ⟨⟨_, after⟩, still.trans raised, side ▸ dead, ?_⟩
        rw [list, List.length_append]
        cases moved with
        | cons head rest => simp [FinishEvent.isPeek]
        | nil =>
            cases remaining : other.skipList with
            | nil => simp
            | cons head rest =>
                rw [remaining] at list
                have late := blocked rfl head (by rw [list]; rfl)
                exact absurd (sound.ended raised (by rw [list]; simp)) (not_le.mpr late)
    | _ => cases peeked

/-- Behind the end of the transfer, the first loop empties the skip list. -/
theorem FinishSender.Sound.loop (sound : sender.Sound push finished signalled) (raised : sender.raised = true)
    (dead : sender.side.multi.bcdState = .dead) {loop : List FinishEvent}
    (inside : ∀ event ∈ loop, FinishEvent.inLoop event = true)
    (enough : sender.skipList.length ≤ loop.countP FinishEvent.isPeek) {middle : FinishSender}
    (completed : execute (finishStep config) sender loop = .ok middle) :
    (∃ finished, middle.Sound push finished signalled) ∧ middle.raised = true ∧
      middle.side.multi.bcdState = .dead ∧ middle.skipList = [] := by
  induction loop generalizing sender finished with
  | nil =>
      obtain rfl := Except.ok.inj completed
      exact ⟨⟨finished, sound⟩, raised, dead, List.length_eq_zero_iff.mp (Nat.le_zero.mp enough)⟩
  | cons event loop ih =>
      obtain ⟨next, taken, rest⟩ := execute_cons_ok.mp completed
      obtain ⟨⟨finished, after⟩, still, died, shorter⟩ :=
        sound.loopStep raised dead (inside event List.mem_cons_self) taken
      refine ih after still died (fun other member => inside other (List.mem_cons_of_mem _ member)) ?_ rest
      rw [← List.singleton_append, List.countP_append] at enough
      omega

theorem FinishSender.Sound.drains (sound : sender.Sound push finished signalled) (raised : sender.raised = true)
    (dead : sender.side.multi.bcdState = .dead) : sender.Drains config push := by
  intro loop now middle inside enough completed expired
  obtain ⟨⟨finished, after⟩, still, died, empty⟩ := sound.loop raised dead inside enough completed
  obtain ⟨final, later, taken, last, list, _, all⟩ := after.signal now
  have total : finished.length = push.slaves.length := by
    have count := after.count
    have ended := (after.late still).2
    have counted := after.fields.reports.counted
    have created := after.fields.reports.created
    have same : middle.side.multi.pushFields.nInit = middle.side.multi.pushFields.nFirstSeq := ended.2
    rw [empty, List.length_nil] at count
    omega
  have passed := all died fun ref member => expired ref (by
    obtain ⟨index, inside, found⟩ := List.getElem_of_mem member
    have cell := (after.window.cells index ref).mpr ⟨Nat.zero_le _, by
      rw [Nat.sub_zero, ← found]
      exact List.getElem?_eq_getElem inside⟩
    exact List.mem_of_getElem? cell)
  refine ⟨final, taken, list.trans empty, ?_, ?_⟩
  · rw [last.window.idxStart, passed, total]
  · rw [last.window.idxEnd, total, Nat.zero_add]

theorem FinishSender.Sound.bookkeeping (sound : sender.Sound push finished signalled) :
    sender.Kept config push := by
  have once : (finished.map SenderRef.addr).Nodup := by
    have whole := (sound.kept.map SenderRef.addr).nodup_iff.mpr (by
      rw [receivers_addr]
      exact sound.fields.reports.once)
    rw [List.map_append] at whole
    exact whole.of_append_left
  constructor
  · have ordered := sound.window.ordered
    have count := sound.count
    rw [sound.window.idxStart, sound.window.idxEnd]
    omega
  · rw [sound.window.reduceOption]
    exact once
  · have created := (sound.created.trans (List.take_sublist signalled finished)).map SenderRef.addr
    rw [List.map_reverse] at created
    exact List.nodup_reverse.mp (once.sublist created)
  · exact sound.drains

end Steps

/-- The receiver that reported last ends first, so it enters the skip list in front of the other one. Each is
passed more than a second after its last packet was sent. -/
def finishInTurn : List FinishEvent :=
  [.approve 5, .queue ⟨1, 0, 8⟩ 2, .process 2 ⟨3, 0, 8⟩, .firstSeq 9 1 0, .firstSeq 11 0 0, .peek (2, 0),
    .queue ⟨3, 0, 8⟩ 1, .process 1 ⟨4, 0, 8⟩, .peek (2, 500000), .check ⟨4, 4, 8⟩, .signal (3, 200000), .command,
    .signal (4, 0), .command, .allDone 9, .allDone 11]

end RepublicAgent
