/-
This file says that a push whose sender passed all receivers is completed when no message is under way.
-/

import RepublicAgent.Completion.Delivery

namespace RepublicAgent
open CyclicWindow Execution MachineInteger

/-- Nothing is under way on a connection. -/
structure Link.Idle (link : Link) : Prop where
  n2c : link.n2c = []
  toMaster : link.toMaster = []
  pending : link.pending = []
  toReceiver : link.toReceiver = []

/-- The second loop of the sender passed all receivers, and all messages are handled. -/
structure Completion.Quiet (push : FilePush) (state : Completion) : Prop where
  passed : state.finish.window.idxStart = push.slaves.length
  commands : state.finish.ringCmd = []
  links : ∀ slave ∈ push.slaves, (state.links slave.addr).Idle

/-- A completed push is reported once, and its receivers hold the data. -/
def Completion.Complete (push : FilePush) (state : Completion) : Prop :=
  state.seqAll = 1 ∧ ∀ slave ∈ push.slaves, ∃ recv, (state.links slave.addr).recv = some recv ∧
    recv.isFinished = true ∧ recv.readBack = push.broadcast.data

/-- A passed receiver was signalled, or its report of the last packet was handled. -/
def FinishSender.Passes (push : Push) (sender : FinishSender) : Prop :=
  ∃ finished signalled, sender.Sound push finished signalled ∧
    ∀ ref ∈ finished.take signalled, ref ∈ sender.created ∨ sender.hasAllDone ref = true

section Sender

variable {config : AgentConfig} {push : Push} {sender next : FinishSender}

theorem Push.finishing_passes (push : Push) : push.finishing.Passes push :=
  ⟨[], 0, push.finishing_sound, fun _ absent => nomatch absent⟩

/-- The second loop of a dead multicast passes the expired receivers. -/
theorem FinishSender.Sound.signal_shape {finished : List SenderRef} {signalled : Nat}
    (sound : sender.Sound push finished signalled) (dead : sender.side.multi.bcdState = .dead) (now : Timeval) :
    ∃ window expired, sender.signal now = .ok { sender with
        window := window
        ringCmd := (expired.filter fun ref => !sender.hasAllDone ref).reverse ++ sender.ringCmd } ∧
      expired <+: finished.drop signalled ∧
      window.Holds push.slaves.length 0 finished (signalled + expired.length) := by
  have ordered := sound.window.ordered
  have counted : signalled + (sender.window.idxEnd - sender.window.idxStart).toNat = 0 + finished.length := by
    rw [sound.window.idxEnd, sound.window.idxStart]
    omega
  obtain ⟨window, looped, holds⟩ := sound.window.signal (Nat.zero_le _) (sender.expired now) sender.hasAllDone counted
    sender.ringCmd
  rw [Nat.sub_zero] at looped holds
  exact ⟨window, _, by simp only [FinishSender.signal, if_pos dead, looped], List.takeWhile_prefix _, holds⟩

/-- The second loop signals each receiver that it passes and that did not report its last packet. -/
theorem FinishSender.Passes.signal (passes : sender.Passes push) {now : Timeval}
    (taken : sender.signal now = .ok next) : next.Passes push := by
  obtain ⟨finished, signalled, sound, passed⟩ := passes
  obtain ⟨other, later, moved, after, -⟩ := sound.signal now
  obtain rfl := Except.ok.inj (taken.symm.trans moved)
  refine ⟨finished, later, after, ?_⟩
  by_cases dead : sender.side.multi.bcdState = .dead
  · obtain ⟨window, expired, looped, front, holds⟩ := sound.signal_shape dead now
    obtain rfl := Except.ok.inj (looped.symm.trans taken)
    have place : later = signalled + expired.length := by
      have start := after.window.idxStart
      rw [show window.idxStart = _ from holds.idxStart] at start
      exact_mod_cast start.symm
    have split : finished.take (signalled + expired.length) = finished.take signalled ++ expired := by
      rw [List.take_add, ← List.prefix_iff_eq_take.mp front]
    rw [place, split]
    intro ref member
    rcases List.mem_append.mp member with before | new
    · exact (passed ref before).imp_left fun created => by
        simp only [FinishSender.created, List.append_assoc, List.mem_append] at created ⊢
        exact .inr created
    · cases silent : sender.hasAllDone ref with
      | true => exact .inr rfl
      | false =>
          left
          simp only [FinishSender.created, List.mem_append, List.mem_reverse, List.mem_filter]
          exact .inl (.inl ⟨new, by simp [silent]⟩)
  · have same : next = sender := by
      simp only [FinishSender.signal, if_neg dead, Except.ok.injEq] at taken
      exact taken.symm
    subst same
    have start := sound.window.idxStart.symm.trans after.window.idxStart
    rwa [← show signalled = later by exact_mod_cast start]

/-- A step that creates no message and passes no receiver. -/
theorem FinishSender.Passes.keep (passes : sender.Passes push)
    (kept : ∀ finished signalled, sender.Sound push finished signalled → ∃ moved,
      next.Sound push (finished ++ moved) signalled)
    (created : next.created = sender.created)
    (flags : ∀ ref, sender.hasAllDone ref = true → next.hasAllDone ref = true) : next.Passes push := by
  obtain ⟨finished, signalled, sound, passed⟩ := passes
  obtain ⟨moved, after⟩ := kept finished signalled sound
  have inside : signalled ≤ finished.length := by
    have ordered := sound.window.ordered
    omega
  refine ⟨_, _, after, ?_⟩
  rw [List.take_append_of_le_length inside, created]
  exact fun ref member => (passed ref member).imp_right (flags ref)

/-- The threads of the sender forget no receiver. -/
theorem FinishSender.Passes.thread (passes : sender.Passes push) {event : FinishEvent}
    (thread : event.isThread = true) (permitted : event.Permitted push sender)
    (taken : finishStep config sender event = .ok next) : next.Passes push := by
  have data : event.isData = true → next.Passes push := by
    intro data
    refine passes.keep (fun finished signalled sound => ⟨[], ?_⟩) ?_ ?_
    · obtain ⟨side, moved, called⟩ := sound.dataStep config data
      obtain rfl := Except.ok.inj (moved.symm.trans taken)
      rw [List.append_nil]
      exact sound.moveData called
    · obtain ⟨_, _, sound, _⟩ := passes
      obtain ⟨side, moved, -⟩ := sound.dataStep config data
      rw [← Except.ok.inj (moved.symm.trans taken)]
      rfl
    · obtain ⟨_, _, sound, _⟩ := passes
      rw [(sound.thread_frame thread taken).2.1]
      exact fun _ done => done
  have flags : ∀ ref, sender.hasAllDone ref = true → next.hasAllDone ref = true := by
    obtain ⟨_, _, sound, _⟩ := passes
    rw [(sound.thread_frame thread taken).2.1]
    exact fun _ done => done
  cases event with
  | push slaves now => cases thread
  | firstSeq addr seqFirst place => cases thread
  | allDone addr => cases thread
  | queue ring estimate => exact data rfl
  | process space ring => exact data rfl
  | check ring => exact data rfl
  | approve controllerXid =>
      obtain rfl := Except.ok.inj taken
      refine passes.keep (fun finished signalled sound => ⟨[], ?_⟩) rfl flags
      rw [List.append_nil]
      exact sound.approve permitted.2 controllerXid
  | peek now =>
      refine passes.keep (fun finished signalled sound => ?_) ?_ flags
      · obtain ⟨other, moved, peeked, after, -⟩ := sound.peek now
        obtain rfl := Except.ok.inj (peeked.symm.trans taken)
        exact ⟨moved, after⟩
      · obtain ⟨_, _, sound, _⟩ := passes
        obtain ⟨other, moved, peeked, -, -, -, same, -⟩ := sound.peek now
        obtain rfl := Except.ok.inj (peeked.symm.trans taken)
        exact same
  | signal now => exact passes.signal taken
  | command =>
      obtain rfl := Except.ok.inj taken
      refine passes.keep (fun finished signalled sound => ⟨[], ?_⟩) sender.command_created flags
      rw [List.append_nil]
      exact sound.command

theorem FinishSender.Passes.firstSeq (passes : sender.Passes push) {addr seqFirst place : Nat}
    (receiver : addr ∈ push.slaves.map Slave.addr) (silent : addr ∉ sender.reported)
    (taken : sender.firstSeq addr seqFirst place = .ok next) : next.Passes push := by
  refine passes.keep (fun finished signalled sound => ⟨[], ?_⟩) ?_ ?_
  · obtain ⟨other, moved, after, -⟩ := sound.firstSeq seqFirst place receiver silent
    obtain rfl := Except.ok.inj (moved.symm.trans taken)
    rw [List.append_nil]
    exact after
  · obtain ⟨_, _, sound, _⟩ := passes
    obtain ⟨other, moved, -, same⟩ := sound.firstSeq seqFirst place receiver silent
    obtain rfl := Except.ok.inj (moved.symm.trans taken)
    exact same
  · rw [(FinishSender.firstSeq_frame taken).2.1]
    exact fun _ done => done

theorem FinishSender.Passes.allDone (passes : sender.Passes push) {addr : Nat}
    (receiver : addr ∈ push.slaves.map Slave.addr) (taken : sender.allDone addr = .ok next) : next.Passes push := by
  have first : sender.hasAllDone (sender.senderOf addr) = false := by
    unfold FinishSender.allDone at taken
    split at taken
    · cases taken
    · split_ifs at taken with done
      simpa using done
  refine passes.keep (fun finished signalled sound => ⟨[], ?_⟩) ?_ ?_
  · obtain ⟨other, moved, after, -⟩ := sound.allDone receiver first
    obtain rfl := Except.ok.inj (moved.symm.trans taken)
    rw [List.append_nil]
    exact after
  · obtain ⟨_, _, sound, _⟩ := passes
    obtain ⟨other, moved, -, same⟩ := sound.allDone receiver first
    obtain rfl := Except.ok.inj (moved.symm.trans taken)
    exact same
  · intro ref done
    rw [(FinishSender.allDone_frame taken).2.2]
    by_cases same : ref = sender.senderOf addr
    · rw [same, Function.update_self]
    · rw [Function.update_of_ne same, done]

end Sender

/-- The transfers are tracked, and no passed receiver is forgotten. -/
def Completion.Settles (push : FilePush) (state : Completion) : Prop :=
  (∃ done transfers, state.Tracks push done transfers) ∧ state.finish.Passes push.toPush

section Steps

variable {config : AgentConfig} {push : FilePush} {done : List Nat} {transfers : Nat → Transfer} {state : Completion}
  {addr : Nat}

theorem FilePush.start_settles (push : FilePush) : push.start.Settles push :=
  ⟨⟨[], _, push.start_tracks⟩, push.finishing_passes⟩

/-- The handlers of the sender forget no receiver. -/
theorem Completion.Tracks.takeMaster_passes (tracks : state.Tracks push done transfers)
    (passes : state.finish.Passes push.toPush) {place : Nat} {next : Completion}
    (taken : state.takeMaster addr place = .ok next) : next.finish.Passes push.toPush := by
  unfold Completion.takeMaster at taken
  dsimp only at taken
  cases queued : (state.links addr).toMaster with
  | nil =>
      rw [queued] at taken
      obtain rfl := Except.ok.inj taken
      exact passes
  | cons msg msgs =>
      rw [queued] at taken
      have receiver := tracks.receivers addr ((tracks.links addr).born queued)
      cases msg with
      | firstSeq bcdId seqFirst =>
          have silent : addr ∉ state.finish.reported := by
            intro member
            have counted := List.count_pos_iff.mpr member
            have total := (tracks.links addr).firsts
            have once := (state.links addr).started_le
            have waiting : 0 < (state.links addr).firsts := by
              rw [Link.firsts, queued]
              exact Nat.lt_of_lt_of_le (List.countP_pos_iff.mpr ⟨_, List.mem_cons_self, rfl⟩) (Nat.le_add_left _ _)
            omega
          exact passes.firstSeq receiver silent (Completion.firstSeq_shape taken).1
      | allDone bcdId => exact passes.allDone receiver (Completion.allDone_shape taken).1
      | patchReq bcdId pt =>
          dsimp only at taken
          unfold Completion.patchReq at taken
          split at taken
          · cases taken
          · obtain rfl := Except.ok.inj taken
            exact passes

/-- Every step in order keeps what settles the push. -/
theorem Completion.Settles.step (small : push.broadcast.seqMax < seqnumMax)
    (short : push.broadcast.data.length < 2147483648) (settles : state.Settles push) {event : CompletionEvent}
    (order : event.InOrder push state) {next : Completion}
    (taken : completionStep config push state event = .ok next) : next.Settles push := by
  obtain ⟨⟨done, transfers, tracks⟩, passes⟩ := settles
  refine ⟨tracks.step small short event order taken, ?_⟩
  cases event with
  | sender event =>
      rcases Completion.thread_cases taken with rfl | ⟨thread, permitted, finish, stepped, rfl⟩
      · exact passes
      · exact passes.thread thread permitted stepped
  | sendPatch addr index payload =>
      obtain rfl := Except.ok.inj taken
      unfold Completion.sendPatch
      dsimp only
      split
      · exact passes
      · exact passes
  | packet addr seq opens =>
      dsimp only [completionStep] at taken
      split_ifs at taken
      · obtain rfl := Except.ok.inj taken
        exact passes
      · obtain rfl := Except.ok.inj taken
        exact passes
  | takeN2c addr =>
      obtain rfl := Except.ok.inj taken
      exact passes
  | takeReceiver addr =>
      obtain rfl := Except.ok.inj taken
      exact passes
  | takeMaster addr place => exact tracks.takeMaster_passes passes taken

/-- A receiver that was signalled is finished when nothing is under way. -/
theorem Completion.Tracks.quiet_finished (tracks : state.Tracks push done transfers)
    (signalled : 0 < (state.links addr).signals (transfers addr)) (idle : (state.links addr).Idle) :
    ∃ recv, (state.links addr).recv = some recv ∧ recv.isFinished = true := by
  have follows := tracks.follows addr
  have fixed := tracks.begun (tracks.heard signalled)
  have closed : (transfers addr).fastDoneSeen = true := by
    by_contra open'
    rw [Link.signals, idle.toReceiver, show (transfers addr).fastDoneSeen = false by simpa using open'] at signalled
    exact absurd signalled (Nat.lt_irrefl 0)
  have delivered : (transfers addr).pending = [] := by
    rw [follows.queue, Link.undelivered, Link.asked, idle.toReceiver, idle.pending, idle.toMaster, idle.n2c]
    rfl
  have total := (follows.orderly.covered.started fixed).total
  rw [delivered, Transfer.reach, if_pos closed, List.length_nil, Nat.add_zero] at total
  have finished := follows.orderly.prompt fixed total
  obtain ⟨recv, present⟩ := Option.isSome_iff_exists.mp (follows.started.symm.trans fixed)
  exact ⟨recv, present, follows.recv recv present ▸ finished⟩

/-- All receivers reported when all were passed. -/
theorem FinishSender.Sound.allReported {push : Push} {finished : List SenderRef} {signalled : Nat}
    {sender : FinishSender} (sound : sender.Sound push finished signalled)
    (passed : sender.window.idxStart = push.slaves.length) :
    sender.reported.Perm (push.slaves.map Slave.addr) ∧ (∀ addr ∈ sender.reported, receiverOf addr ∈ finished) ∧
      finished.take signalled = finished := by
  have count := sound.count
  have all : signalled = push.slaves.length := by
    have start := sound.window.idxStart
    rw [passed] at start
    exact_mod_cast start.symm
  have ordered := sound.window.ordered
  have none : sender.skipList = [] := List.length_eq_zero_iff.mp (by omega)
  have kept := sound.kept
  rw [none, List.append_nil] at kept
  refine ⟨?_, ?_, List.take_of_length_le (by omega)⟩
  · refine (List.subperm_of_subset sound.fields.reports.once sound.fields.reports.members).perm_of_length_le ?_
    rw [List.length_map]
    omega
  · intro addr reports
    exact kept.mem_iff.mpr (List.mem_map_of_mem reports)

/-- A receiver of a quiet push is finished, and its last report was handled. -/
theorem Completion.Tracks.quiet_done (tracks : state.Tracks push done transfers)
    (idle : (state.links addr).Idle) (commands : state.finish.ringCmd = [])
    (passed : receiverOf addr ∈ state.finish.created ∨ state.finish.hasAllDone (receiverOf addr) = true) :
    push.broadcast.seqMax ≠ 1 → addr ∈ done := by
  intro several
  rcases passed with created | flagged
  · rw [FinishSender.created, commands, List.nil_append] at created
    have signalled : 0 < (state.links addr).signals (transfers addr) := by
      rw [tracks.signals addr]
      exact List.count_pos_iff.mpr created
    obtain ⟨recv, present, finished⟩ := tracks.quiet_finished signalled idle
    have total := (tracks.links addr).dones
    rw [Link.dones, idle.n2c, idle.toMaster, Link.announced, present, Option.elim_some, RecverState.announced,
      if_neg several, finished] at total
    apply List.count_pos_iff.mp
    have counted : 0 + 0 + done.count addr = 1 := total
    omega
  · exact tracks.flags addr flagged

/-- A quiet push is completed. -/
theorem Completion.Settles.complete (settles : state.Settles push) (some : push.slaves ≠ [])
    (quiet : state.Quiet push) : state.Complete push := by
  obtain ⟨⟨done, transfers, tracks⟩, finished, signalled, sound, passed⟩ := settles
  obtain ⟨reported, listed, whole⟩ := sound.allReported quiet.passed
  rw [whole] at passed
  have several (addr : Nat) (receiver : addr ∈ push.slaves.map Slave.addr) (many : push.broadcast.seqMax ≠ 1) :
      addr ∈ done := by
    have reports := reported.mem_iff.mpr receiver
    obtain ⟨slave, member, rfl⟩ := List.mem_map.mp receiver
    exact tracks.quiet_done (quiet.links slave member) quiet.commands (passed _ (listed _ reports)) many
  have most := completed_length tracks.links tracks.receivers
  have length : (state.completed push done).length = push.slaves.length := by
    unfold Completion.completed
    split_ifs at most ⊢ with single
    · have counted := reported.length_eq
      rwa [List.length_map] at counted
    · have fewer := (List.subperm_of_subset push.distinct fun addr member => several addr member single).length_le
      rw [List.length_map] at fewer
      omega
  have positive := List.length_pos_of_ne_nil some
  have written : state.seqAll = 1 := by
    rw [tracks.seqAll, tracks.nAllDone, length, if_pos ⟨rfl, positive⟩]
  exact ⟨written, tracks.delivers.2 written⟩

end Steps

end RepublicAgent
