/-
This file says that the sender and the receivers of a push agree on its completion.
-/

import RepublicAgent.Completion.Traffic
import RepublicAgent.Sender.PacketBytes

namespace RepublicAgent
open Execution MachineInteger

/-- The sender writes `MSG_C_SEND2I_SEQ_ALL` at most once, and all receivers are finished when it does. -/
def Completion.Agrees (push : FilePush) (state : Completion) : Prop :=
  state.seqAll ≤ 1 ∧ (state.seqAll = 1 → ∀ slave ∈ push.slaves, ∃ recv,
    (state.links slave.addr).recv = some recv ∧ recv.isFinished = true)

/-- Data of one packet is done with the first packet, and other data with the last one. -/
def Completion.completed (push : FilePush) (done : List Nat) (state : Completion) : List Nat :=
  if push.broadcast.seqMax = 1 then state.finish.reported else done

/-- The sender handled the `MSG_ALL_DONE` of the receivers `done`. -/
structure Completion.Sound (push : FilePush) (done : List Nat) (state : Completion) : Prop where
  sender : state.finish.Balanced push.toPush
  seqMax : state.finish.side.multi.seqMax = push.broadcast.seqMax
  links : ∀ addr, (state.links addr).Sound push.broadcast (state.finish.reported.count addr) (done.count addr)
  receivers : ∀ addr, (state.links addr).recv ≠ none → addr ∈ push.slaves.map Slave.addr
  flags : ∀ addr, state.finish.hasAllDone (receiverOf addr) = true → addr ∈ done
  nAllDone : state.nAllDone = (state.completed push done).length
  seqAll : state.seqAll = if state.nAllDone = push.slaves.length ∧ 0 < state.nAllDone then 1 else 0

section Sender

variable {config : AgentConfig} {push : Push} {finished : List SenderRef} {signalled : Nat}
  {sender next : FinishSender}

/-- The steps of the threads of the sender leave what the messages of the receivers change. -/
theorem FinishSender.Sound.thread_frame (sound : sender.Sound push finished signalled) {event : FinishEvent}
    (thread : event.isThread = true) (taken : finishStep config sender event = .ok next) :
    next.reported = sender.reported ∧ next.hasAllDone = sender.hasAllDone ∧
      next.side.multi.seqMax = sender.side.multi.seqMax := by
  have data : event.isData = true → next.reported = sender.reported ∧ next.hasAllDone = sender.hasAllDone ∧
      next.side.multi.seqMax = sender.side.multi.seqMax := by
    intro data
    obtain ⟨side, moved, called⟩ := sound.dataStep config data
    obtain rfl := Except.ok.inj (moved.symm.trans taken)
    exact ⟨rfl, rfl, congrArg PushFields.seqMax called.pushFields⟩
  cases event with
  | push slaves now => cases thread
  | firstSeq addr seqFirst place => cases thread
  | allDone addr => cases thread
  | queue ring estimate => exact data rfl
  | process space ring => exact data rfl
  | check ring => exact data rfl
  | approve controllerXid =>
      obtain rfl := Except.ok.inj taken
      exact ⟨rfl, rfl, rfl⟩
  | peek now =>
      simp only [finishStep, FinishSender.peek] at taken
      split at taken
      · obtain rfl := Except.ok.inj taken
        exact ⟨rfl, rfl, rfl⟩
      · split_ifs at taken
        · split at taken
          · cases taken
          · obtain rfl := Except.ok.inj taken
            exact ⟨rfl, rfl, rfl⟩
        · obtain rfl := Except.ok.inj taken
          exact ⟨rfl, rfl, rfl⟩
  | signal now =>
      simp only [finishStep, FinishSender.signal] at taken
      split_ifs at taken
      · split at taken
        · cases taken
        · obtain rfl := Except.ok.inj taken
          exact ⟨rfl, rfl, rfl⟩
      · obtain rfl := Except.ok.inj taken
        exact ⟨rfl, rfl, rfl⟩
  | command =>
      obtain rfl := Except.ok.inj taken
      exact ⟨rfl, rfl, rfl⟩

/-- The handler of `MSG_FIRST_SEQ` records the receiver. -/
theorem FinishSender.firstSeq_frame {addr seqFirst place : Nat}
    (taken : sender.firstSeq addr seqFirst place = .ok next) :
    next.reported = addr :: sender.reported ∧ next.hasAllDone = sender.hasAllDone ∧
      next.side.multi.seqMax = sender.side.multi.seqMax := by
  unfold FinishSender.firstSeq at taken
  cases handled : handleFirstSeq sender.side.multi addr seqFirst with
  | error fault =>
      rw [handled] at taken
      cases taken
  | ok multi =>
      rw [handled] at taken
      dsimp only at taken
      split at taken
      · cases taken
      · obtain rfl := Except.ok.inj taken
        obtain ⟨state, _, rfl⟩ := handleFirstSeq_ok handled
        refine ⟨rfl, rfl, ?_⟩
        change (multicastStateUpdateSeqEnd _ _ _).seqMax = _
        rw [multicastStateUpdateSeqEnd_eq]

/-- The handler of `MSG_ALL_DONE` marks the receiver. -/
theorem FinishSender.allDone_frame {addr : Nat} (taken : sender.allDone addr = .ok next) :
    next.side = sender.side ∧ next.reported = sender.reported ∧
      next.hasAllDone = Function.update sender.hasAllDone (sender.senderOf addr) true := by
  unfold FinishSender.allDone at taken
  split at taken
  · cases taken
  · split_ifs at taken
    obtain rfl := Except.ok.inj taken
    exact ⟨rfl, rfl, rfl⟩

end Sender

section Steps

variable {config : AgentConfig} {push : FilePush} {done : List Nat} {state : Completion} {addr : Nat}

theorem FilePush.seqMax (push : FilePush) : push.finishing.side.multi.seqMax = push.broadcast.seqMax := by
  have width := push.broadcast.payloadFits
  have positive : 0 < push.dataPayloadLen := push.payload ▸ push.broadcast.payloadPositive
  obtain ⟨_, _, count, _⟩ := createBcdState_geometry positive (by rw [push.payload]; omega) push.stored
  have pushed : push.finishing.side.multi.seqMax = push.created.seqMax :=
    push.pushed_field MulticastState.seqMax (fun _ _ => rfl) fun _ => rfl
  rw [pushed, count, push.size, push.payload]
  exact u32_natCast push.broadcast.seqMaxFits

theorem FilePush.start_sound (push : FilePush) : push.start.Sound push [] where
  sender := ⟨[], 0, push.finishing_sound⟩
  seqMax := push.seqMax
  links _ := Link.initial_sound push.broadcast
  receivers _ present := absurd rfl present
  flags _ flagged := nomatch flagged
  nAllDone := by
    unfold Completion.completed
    split_ifs
    · rfl
    · rfl
  seqAll := (if_neg (fun counted => absurd counted.2 (Nat.lt_irrefl 0))).symm

/-- The completed receivers are distinct receivers of the push. -/
theorem completed_receivers {reported : List Nat} {links : Nat → Link}
    (sound : ∀ addr, (links addr).Sound push.broadcast (reported.count addr) (done.count addr))
    (receivers : ∀ addr, (links addr).recv ≠ none → addr ∈ push.slaves.map Slave.addr) :
    (if push.broadcast.seqMax = 1 then reported else done).Nodup ∧
      (if push.broadcast.seqMax = 1 then reported else done) ⊆ push.slaves.map Slave.addr := by
  have known : ∀ addr, 0 < (links addr).started + (links addr).announced push.broadcast →
      addr ∈ push.slaves.map Slave.addr := by
    intro addr counted
    apply receivers
    intro absent
    rw [Link.started, Link.announced, absent, Option.elim_none, Option.elim_none] at counted
    exact absurd counted (Nat.lt_irrefl 0)
  have total := fun addr => (sound addr).firsts
  have announced := fun addr => (sound addr).dones
  split_ifs with single
  · constructor
    · refine List.nodup_iff_count_le_one.mpr fun addr => ?_
      have once := (links addr).started_le
      have sum := total addr
      omega
    · intro addr member
      have counted := List.count_pos_iff.mpr member
      have sum := total addr
      exact known addr (by omega)
  · constructor
    · refine List.nodup_iff_count_le_one.mpr fun addr => ?_
      have once := (links addr).announced_le push.broadcast
      rw [if_neg single] at once
      have sum := announced addr
      omega
    · intro addr member
      have counted := List.count_pos_iff.mpr member
      have sum := announced addr
      exact known addr (by omega)

theorem completed_length {reported : List Nat} {links : Nat → Link}
    (sound : ∀ addr, (links addr).Sound push.broadcast (reported.count addr) (done.count addr))
    (receivers : ∀ addr, (links addr).recv ≠ none → addr ∈ push.slaves.map Slave.addr) :
    (if push.broadcast.seqMax = 1 then reported else done).length ≤ push.slaves.length := by
  obtain ⟨once, members⟩ := completed_receivers sound receivers
  have fewer := (List.subperm_of_subset once members).length_le
  rwa [List.length_map] at fewer

/-- The message is written when all receivers are completed, so all are finished. -/
theorem Completion.Sound.agrees (sound : state.Sound push done) : state.Agrees push := by
  have written := sound.seqAll
  constructor
  · rw [written]
    split_ifs
    · exact le_rfl
    · exact Nat.zero_le 1
  · intro sent slave member
    have all : state.nAllDone = push.slaves.length := by
      by_contra fewer
      rw [written, if_neg fun counted => fewer counted.1] at sent
      cases sent
    obtain ⟨once, members⟩ := completed_receivers sound.links sound.receivers
    have whole : (state.completed push done).length = (push.slaves.map Slave.addr).length := by
      rw [← sound.nAllDone, all, List.length_map]
    have perm := (List.subperm_of_subset once members).perm_of_length_le whole.ge
    have completed := perm.mem_iff.mpr (List.mem_map_of_mem member)
    apply (sound.links slave.addr).finished
    split_ifs at completed ⊢
    · exact List.count_pos_iff.mpr completed
    · exact List.count_pos_iff.mpr completed

theorem Completion.setLink_self (state : Completion) (addr : Nat) (link : Link) :
    (state.setLink addr link).links addr = link := Function.update_self ..

theorem Completion.setLink_of_ne (state : Completion) {addr other : Nat} (link : Link) (different : other ≠ addr) :
    (state.setLink addr link).links other = state.links other := Function.update_of_ne different ..

/-- The receivers of the changed connections are receivers of the push. -/
theorem Completion.Sound.setLink_receivers (sound : state.Sound push done) {link : Link}
    (receiver : link.recv ≠ none → addr ∈ push.slaves.map Slave.addr) (other : Nat)
    (present : ((state.setLink addr link).links other).recv ≠ none) : other ∈ push.slaves.map Slave.addr := by
  by_cases same : other = addr
  · subst same
    rw [Completion.setLink_self] at present
    exact receiver present
  · rw [Completion.setLink_of_ne state link same] at present
    exact sound.receivers other present

/-- A step on one connection that the sender does not handle. -/
theorem Completion.Sound.setLink (sound : state.Sound push done) {link : Link}
    (kept : link.Sound push.broadcast (state.finish.reported.count addr) (done.count addr))
    (receiver : link.recv ≠ none → addr ∈ push.slaves.map Slave.addr) : (state.setLink addr link).Sound push done := by
  refine { sound with links := ?_, receivers := sound.setLink_receivers receiver }
  intro other
  by_cases same : other = addr
  · subst same
    rw [Completion.setLink_self]
    exact kept
  · rw [Completion.setLink_of_ne state link same]
    exact sound.links other

/-- A command sends `MSG_FAST_DONE` on a connection. -/
theorem Completion.Sound.sendFastDone (sound : state.Sound push done) :
    (state.sendFastDone push.broadcast).Sound push done ∧
      (state.sendFastDone push.broadcast).finish = state.finish := by
  unfold Completion.sendFastDone
  split
  · exact ⟨sound, rfl⟩
  · next ref _ => exact ⟨sound.setLink (sound.links ref.addr).sendFastDone (sound.receivers ref.addr), rfl⟩

/-- The threads of the sender leave the counters of the messages. -/
theorem Completion.Sound.thread (sound : state.Sound push done) (config : AgentConfig) (event : FinishEvent) :
    ∃ next, state.thread config push event = .ok next ∧ next.Sound push done := by
  unfold Completion.thread
  by_cases permitted : event.isThread = true ∧ event.Permitted push.toPush state.finish
  · rw [if_pos permitted]
    obtain ⟨sent, shape⟩ : ∃ sent,
        sent = if event = .command then state.sendFastDone push.broadcast else state := ⟨_, rfl⟩
    obtain ⟨kept, same⟩ : sent.Sound push done ∧ sent.finish = state.finish := by
      rw [shape]
      split_ifs
      · exact sound.sendFastDone
      · exact ⟨sound, rfl⟩
    obtain ⟨finished, signalled, balanced⟩ := sound.sender
    obtain ⟨finish, later, passed, taken, after, _⟩ := balanced.step config permitted.2
    obtain ⟨reported, flags, seqMax⟩ := balanced.thread_frame permitted.1 taken
    refine ⟨{ sent with finish := finish }, by rw [← shape, taken], ?_⟩
    refine { kept with
      sender := ⟨later, passed, after⟩
      seqMax := seqMax.trans sound.seqMax
      links := ?_
      flags := ?_
      nAllDone := ?_ }
    · rw [reported, ← same]
      exact kept.links
    · rw [flags]
      exact sound.flags
    · have counted := kept.nAllDone
      unfold Completion.completed at counted ⊢
      rw [reported, ← same]
      exact counted
  · rw [if_neg permitted]
    exact ⟨state, rfl, sound⟩

/-- The multicast counts the receivers of the push. -/
theorem Completion.Sound.nInit (sound : state.Sound push done) :
    state.finish.side.multi.nInit = push.slaves.length := by
  obtain ⟨_, _, balanced⟩ := sound.sender
  exact balanced.fields.reports.created

/-- The counters after one more completed receiver. -/
theorem Completion.Sound.counters (sound : state.Sound push done) {completed : List Nat}
    (more : completed.length = (state.completed push done).length + 1) (fits : completed.length ≤ push.slaves.length) :
    u16 ((state.nAllDone : Int) + 1) = state.nAllDone + 1 ∧ state.nAllDone + 1 = completed.length ∧
      (if state.nAllDone + 1 = state.finish.side.multi.nInit then state.seqAll + 1 else state.seqAll) =
        if state.nAllDone + 1 = push.slaves.length ∧ 0 < state.nAllDone + 1 then 1 else 0 := by
  have counted := sound.nAllDone
  have few := push.slaves_length
  have next : u16 ((state.nAllDone : Int) + 1) = state.nAllDone + 1 := by
    have small : state.nAllDone + 1 < 65536 := by omega
    exact_mod_cast u16_natCast small
  have unwritten : state.seqAll = 0 := by
    rw [sound.seqAll, if_neg]
    omega
  refine ⟨next, by omega, ?_⟩
  rw [sound.nInit, unwritten]
  simp

section Master

variable {msgs : List ToMasterMsg}

/-- The first packet of a receiver is reported once. -/
theorem Completion.Sound.firstSeq (sound : state.Sound push done) {bcdId : BcdID} {seqFirst : Nat}
    (queued : (state.links addr).toMaster = .firstSeq bcdId seqFirst :: msgs) (place : Nat) :
    ∃ next, (state.setLink addr { state.links addr with toMaster := msgs }).firstSeq addr seqFirst place = .ok next ∧
      next.Sound push done := by
  have born := (sound.links addr).born queued
  have receiver := sound.receivers addr born
  obtain ⟨link, shape⟩ : ∃ link : Link, link = { state.links addr with toMaster := msgs } := ⟨_, rfl⟩
  have heard : link.Sound push.broadcast (state.finish.reported.count addr + 1) (done.count addr) :=
    shape ▸ ((sound.links addr).takeMaster queued).1
  have silent : addr ∉ state.finish.reported := by
    intro member
    have counted := List.count_pos_iff.mpr member
    have total := heard.firsts
    have once := link.started_le
    omega
  obtain ⟨finished, signalled, balanced⟩ := sound.sender
  obtain ⟨finish, handled, after, _⟩ := balanced.firstSeq seqFirst place receiver silent
  obtain ⟨reported, flags, seqMax⟩ := FinishSender.firstSeq_frame handled
  have links : ∀ other, ((state.setLink addr link).links other).Sound push.broadcast (finish.reported.count other)
      (done.count other) := by
    intro other
    rw [reported]
    by_cases same : other = addr
    · subst same
      rw [Completion.setLink_self, List.count_cons_self]
      exact heard
    · rw [Completion.setLink_of_ne state link same, List.count_cons_of_ne (Ne.symm same)]
      exact sound.links other
  have receivers : ∀ other, ((state.setLink addr link).links other).recv ≠ none → other ∈ push.slaves.map Slave.addr :=
    sound.setLink_receivers fun _ => receiver
  have fits := completed_length links receivers
  have taken : (state.setLink addr link).finish.firstSeq addr seqFirst place = .ok finish := handled
  have size : (state.setLink addr link).finish.side.multi.seqMax = push.broadcast.seqMax := sound.seqMax
  rw [← shape, Completion.firstSeq, taken]
  dsimp only
  rw [size]
  by_cases single : push.broadcast.seqMax = 1
  · rw [if_pos single] at fits
    rw [if_pos single]
    have more : finish.reported.length = (state.completed push done).length + 1 := by
      rw [reported, Completion.completed, if_pos single, List.length_cons]
    obtain ⟨next, total, written⟩ := sound.counters more fits
    refine ⟨_, rfl, ⟨finished, signalled, after⟩, seqMax.trans sound.seqMax, links, receivers, ?_, ?_, ?_⟩
    · rw [flags]
      exact sound.flags
    · rw [Completion.completed, if_pos single]
      exact next.trans total
    · change _ = if u16 ((state.nAllDone : Int) + 1) = push.slaves.length ∧ 0 < u16 ((state.nAllDone : Int) + 1)
        then 1 else 0
      rw [next]
      exact written
  · rw [if_neg single]
    refine ⟨_, rfl, ⟨finished, signalled, after⟩, seqMax.trans sound.seqMax, links, receivers, ?_, ?_, sound.seqAll⟩
    · rw [flags]
      exact sound.flags
    · have counted := sound.nAllDone
      rw [Completion.completed, if_neg single] at counted ⊢
      exact counted

/-- A receiver announces its last packet once, and it never does for data of one packet. -/
theorem Completion.Sound.allDone (sound : state.Sound push done) {bcdId : BcdID}
    (queued : (state.links addr).toMaster = .allDone bcdId :: msgs) :
    ∃ next, (state.setLink addr { state.links addr with toMaster := msgs }).allDone addr = .ok next ∧
      next.Sound push (addr :: done) := by
  have born := (sound.links addr).born queued
  have receiver := sound.receivers addr born
  obtain ⟨link, shape⟩ : ∃ link : Link, link = { state.links addr with toMaster := msgs } := ⟨_, rfl⟩
  have heard : link.Sound push.broadcast (state.finish.reported.count addr) (done.count addr + 1) :=
    shape ▸ ((sound.links addr).takeMaster queued).1
  have total := heard.dones
  have once := link.announced_le push.broadcast
  have several : push.broadcast.seqMax ≠ 1 := by
    intro single
    rw [if_pos single] at once
    omega
  rw [if_neg several] at once
  have silent : addr ∉ done := by
    intro member
    have counted := List.count_pos_iff.mpr member
    omega
  obtain ⟨finished, signalled, balanced⟩ := sound.sender
  have current := balanced.current addr receiver
  have first : state.finish.hasAllDone (state.finish.senderOf addr) = false := by
    rw [current]
    by_contra flagged
    exact silent (sound.flags addr (by simpa using flagged))
  obtain ⟨finish, handled, after, _⟩ := balanced.allDone receiver first
  obtain ⟨side, reported, flags⟩ := FinishSender.allDone_frame handled
  have links : ∀ other, ((state.setLink addr link).links other).Sound push.broadcast (finish.reported.count other)
      ((addr :: done).count other) := by
    intro other
    rw [reported]
    by_cases same : other = addr
    · subst same
      rw [Completion.setLink_self, List.count_cons_self]
      exact heard
    · rw [Completion.setLink_of_ne state link same, List.count_cons_of_ne (Ne.symm same)]
      exact sound.links other
  have receivers : ∀ other, ((state.setLink addr link).links other).recv ≠ none → other ∈ push.slaves.map Slave.addr :=
    sound.setLink_receivers fun _ => receiver
  have fits := completed_length links receivers
  rw [if_neg several] at fits
  have more : (addr :: done).length = (state.completed push done).length + 1 := by
    rw [Completion.completed, if_neg several, List.length_cons]
  obtain ⟨next, counted, written⟩ := sound.counters more fits
  have taken : (state.setLink addr link).finish.allDone addr = .ok finish := handled
  rw [← shape, Completion.allDone, taken]
  dsimp only
  refine ⟨_, rfl, ⟨finished, signalled, after⟩, side ▸ sound.seqMax, links, receivers, ?_, ?_, ?_⟩
  · intro other flagged
    rw [flags, current] at flagged
    by_cases same : other = addr
    · exact same ▸ List.mem_cons_self
    · rw [Function.update_of_ne fun equal => same (receiverOf_injective equal)] at flagged
      exact List.mem_cons_of_mem addr (sound.flags other flagged)
  · rw [Completion.completed, if_neg several]
    exact next.trans counted
  · change (if u16 ((state.nAllDone : Int) + 1) = state.finish.side.multi.nInit then state.seqAll + 1
      else state.seqAll) = if u16 ((state.nAllDone : Int) + 1) = push.slaves.length ∧
        0 < u16 ((state.nAllDone : Int) + 1) then 1 else 0
    rw [next]
    exact written

/-- The sender reads the packets of a request one by one. -/
theorem Completion.Sound.patchReq (sound : state.Sound push done) {bcdId : BcdID} {pt : PatchTuple}
    (queued : (state.links addr).toMaster = .patchReq bcdId pt :: msgs) :
    ∃ next, (state.setLink addr { state.links addr with toMaster := msgs }).patchReq addr pt = .ok next ∧
      next.Sound push done := by
  have born := (sound.links addr).born queued
  have receiver := sound.receivers addr born
  obtain ⟨link, shape⟩ : ∃ link : Link, link = { state.links addr with toMaster := msgs } := ⟨_, rfl⟩
  obtain ⟨heard, bounded⟩ := (sound.links addr).takeMaster queued
  rw [← shape] at heard ⊢
  have taken : (state.setLink addr link).Sound push done := sound.setLink heard fun _ => receiver
  obtain ⟨finished, signalled, balanced⟩ := sound.sender
  obtain ⟨sender, found⟩ := Option.ne_none_iff_exists'.mp (balanced.known addr receiver)
  have lookup : (state.setLink addr link).finish.side.multi.senderAddrHash addr = some sender := found
  have size : (state.setLink addr link).finish.side.multi.seqMax = push.broadcast.seqMax := sound.seqMax
  rw [Completion.patchReq, lookup]
  dsimp only
  rw [size, Completion.setLink_self]
  refine ⟨_, rfl, taken.setLink ?_ fun _ => receiver⟩
  exact heard.request (bounded pt (List.mem_singleton_self pt)) sender.seqEnd

theorem Completion.Sound.takeMaster (sound : state.Sound push done) (addr place : Nat) :
    ∃ next done, state.takeMaster addr place = .ok next ∧ next.Sound push done := by
  unfold Completion.takeMaster
  dsimp only
  cases queued : (state.links addr).toMaster with
  | nil => exact ⟨state, done, rfl, sound⟩
  | cons msg msgs =>
      cases msg with
      | firstSeq bcdId seqFirst =>
          obtain ⟨next, taken, after⟩ := sound.firstSeq queued place
          exact ⟨next, done, taken, after⟩
      | allDone bcdId =>
          obtain ⟨next, taken, after⟩ := sound.allDone queued
          exact ⟨next, addr :: done, taken, after⟩
      | patchReq bcdId pt =>
          obtain ⟨next, taken, after⟩ := sound.patchReq queued
          exact ⟨next, done, taken, after⟩

end Master

theorem Completion.Sound.sendPatch (sound : state.Sound push done) (addr index : Nat) (payload : List UInt8) :
    (state.sendPatch push.broadcast addr index payload).Sound push done := by
  unfold Completion.sendPatch
  dsimp only
  split
  · exact sound
  · next seq found => exact sound.setLink ((sound.links addr).sendPatch found payload) (sound.receivers addr)

/-- No step is a fault of the sender, and each keeps the bookkeeping. -/
theorem Completion.Sound.step (sound : state.Sound push done) (config : AgentConfig) (event : CompletionEvent) :
    ∃ next done, completionStep config push state event = .ok next ∧ next.Sound push done := by
  cases event with
  | sender event =>
      obtain ⟨next, taken, after⟩ := sound.thread config event
      exact ⟨next, done, taken, after⟩
  | sendPatch addr index payload => exact ⟨_, done, rfl, sound.sendPatch addr index payload⟩
  | packet addr seq opens =>
      dsimp only [completionStep]
      split_ifs with receiver
      · refine ⟨_, done, rfl, sound.setLink ?_ fun _ => receiver⟩
        exact (sound.links addr).survive fun next taken => (sound.links addr).packet taken
      · exact ⟨state, done, rfl, sound⟩
  | takeN2c addr =>
      refine ⟨_, done, rfl, sound.setLink ?_ ?_⟩
      · exact (sound.links addr).survive fun next taken => (sound.links addr).takeN2c taken
      · exact fun present => sound.receivers addr fun absent => present ((sound.links addr).unborn absent).1
  | takeReceiver addr =>
      refine ⟨_, done, rfl, sound.setLink ?_ ?_⟩
      · exact (sound.links addr).survive fun next taken => (sound.links addr).takeReceiver taken
      · exact fun present => sound.receivers addr fun absent => present ((sound.links addr).unborn absent).2
  | takeMaster addr place => exact sound.takeMaster addr place

end Steps

/-- In every run of one push, the sender fails no assert, and the receivers are finished when it reports the
completion. -/
theorem completion_agreement (config : AgentConfig) (push : FilePush) (events : List CompletionEvent) :
    (∃ final, execute (completionStep config push) push.start events = .ok final) ∧
      Throughout (completionStep config push) (Completion.Agrees push) push.start events := by
  have start : ∃ done, push.start.Sound push done := ⟨[], push.start_sound⟩
  have taken : ∀ state event, (∃ done, Completion.Sound push done state) →
      ∃ next, completionStep config push state event = .ok next ∧ ∃ done, next.Sound push done := by
    rintro state event ⟨done, sound⟩
    obtain ⟨next, later, moved, after⟩ := sound.step config event
    exact ⟨next, moved, later, after⟩
  constructor
  · obtain ⟨final, completed, _⟩ := execute_completes _ taken start events
    exact ⟨final, completed⟩
  · refine throughout_of_invariant (fun state => ∃ done, Completion.Sound push done state) ?_ ?_ start
    · intro state event next sound moved
      obtain ⟨other, reached, after⟩ := taken state event sound
      obtain rfl := Except.ok.inj (reached.symm.trans moved)
      exact after
    · rintro state ⟨done, sound⟩
      exact sound.agrees

/-- Two packets of one byte for one receiver. -/
def twoBytesPush : FilePush where
  toPush := twoPackets
  broadcast := { threeBytes with
    data := [10, 20]
    dataPositive := by decide
    seqMaxFits := by decide }
  size := rfl
  payload := rfl

/-- The receiver gets packet one and then packet zero, and the sender reports the completion. -/
example : (execute (completionStep ⟨1, true, 2⟩ twoBytesPush) twoBytesPush.start
    [.packet 9 1 true, .takeN2c 9, .takeMaster 9 0, .packet 9 0 true, .takeN2c 9, .takeN2c 9,
      .takeMaster 9 0]).map Completion.seqAll = .ok 1 := by
  decide +kernel

end RepublicAgent
