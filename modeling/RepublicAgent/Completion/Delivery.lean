/-
This file proves that every finished receiver of a push holds the data of the sender.
-/

import RepublicAgent.Completion.Agreement
import RepublicAgent.Completion.Transfers
import RepublicAgent.Sender.PatchRead

namespace RepublicAgent
open CyclicWindow Execution MachineInteger

/-- The sender reads a packet behind the first one of its range. -/
def ReadInRange (b : Broadcast) (seq : Nat) (payload : List UInt8) : Prop :=
  ∃ sttSeq ≤ seq, (processPatchTuple b ⟨sttSeq, seq + 1⟩).getLast?.map DataPacket.payload = some payload

instance (b : Broadcast) (seq : Nat) (payload : List UInt8) : Decidable (ReadInRange b seq payload) :=
  inferInstanceAs (Decidable (∃ sttSeq ≤ seq, _))

/-- The requested packets are read in the order of the requests, and a message is handled at least one round before
the counter of the packets wraps. -/
def CompletionEvent.InOrder (push : FilePush) (state : Completion) : CompletionEvent → Prop
  | .sendPatch addr index payload =>
      index = 0 ∧ ∀ seq ∈ (state.links addr).pending.take 1, ReadInRange push.broadcast seq payload
  | .takeMaster _ _ => state.finish.side.multi.seqCur + push.broadcast.seqMax ≤ 4294967296
  | _ => True

instance CompletionEvent.decidableInOrder (push : FilePush) (state : Completion) :
    ∀ event : CompletionEvent, Decidable (event.InOrder push state)
  | .sendPatch .. => inferInstanceAs (Decidable (_ ∧ _))
  | .takeMaster .. => inferInstanceAs (Decidable (_ ≤ _))
  | .sender _ | .packet .. | .takeN2c _ | .takeReceiver _ => inferInstanceAs (Decidable True)

/-- Each finished receiver reads back the data, and all are finished when the sender reports the completion. -/
def Completion.Delivers (push : FilePush) (state : Completion) : Prop :=
  (∀ addr, ∀ recv ∈ (state.links addr).recv, recv.isFinished = true → recv.readBack = push.broadcast.data) ∧
    (state.seqAll = 1 → ∀ slave ∈ push.slaves, ∃ recv, (state.links slave.addr).recv = some recv ∧
      recv.isFinished = true ∧ recv.readBack = push.broadcast.data)

/-- The sender knows the first packet of each receiver that reported, and it signals each receiver once. -/
structure Completion.Tracks (push : FilePush) (done : List Nat) (transfers : Nat → Transfer) (state : Completion) :
    Prop extends state.Sound push done where
  follows : ∀ addr, (state.links addr).Follows push.broadcast (transfers addr)
  ends : ∀ addr ∈ state.finish.reported, ∃ sender, state.finish.side.multi.senderAddrHash addr = some sender ∧
    sender.seqEnd % push.broadcast.seqMax = (transfers addr).recv.seqFst
  signals : ∀ addr, (state.links addr).signals (transfers addr) = state.finish.sendQueues.count (receiverOf addr)

section Sender

variable {config : AgentConfig} {push : Push} {finished : List SenderRef} {signalled : Nat}
  {sender next : FinishSender}

/-- The threads leave what the sender knows about its receivers. Only a command reaches a send queue. -/
theorem FinishSender.Sound.thread_sent (sound : sender.Sound push finished signalled) {event : FinishEvent}
    (thread : event.isThread = true) (taken : finishStep config sender event = .ok next) :
    next.side.multi.senderAddrHash = sender.side.multi.senderAddrHash ∧
      next.sendQueues = if event = .command then sender.ringCmd.getLast?.toList ++ sender.sendQueues
        else sender.sendQueues := by
  have data : event.isData = true → next.side.multi.senderAddrHash = sender.side.multi.senderAddrHash ∧
      next.sendQueues = sender.sendQueues := by
    intro data
    obtain ⟨side, moved, called⟩ := sound.dataStep config data
    obtain rfl := Except.ok.inj (moved.symm.trans taken)
    exact ⟨congrArg PushFields.senderAddrHash called.pushFields, rfl⟩
  cases event with
  | push slaves now => cases thread
  | firstSeq addr seqFirst place => cases thread
  | allDone addr => cases thread
  | queue ring estimate => exact data rfl
  | process space ring => exact data rfl
  | check ring => exact data rfl
  | approve controllerXid =>
      obtain rfl := Except.ok.inj taken
      exact ⟨rfl, rfl⟩
  | peek now =>
      simp only [finishStep, FinishSender.peek] at taken
      split at taken
      · obtain rfl := Except.ok.inj taken
        exact ⟨rfl, rfl⟩
      · split_ifs at taken
        · split at taken
          · cases taken
          · obtain rfl := Except.ok.inj taken
            exact ⟨rfl, rfl⟩
        · obtain rfl := Except.ok.inj taken
          exact ⟨rfl, rfl⟩
  | signal now =>
      simp only [finishStep, FinishSender.signal] at taken
      split_ifs at taken
      · split at taken
        · cases taken
        · obtain rfl := Except.ok.inj taken
          exact ⟨rfl, rfl⟩
      · obtain rfl := Except.ok.inj taken
        exact ⟨rfl, rfl⟩
  | command =>
      obtain rfl := Except.ok.inj taken
      exact ⟨rfl, rfl⟩

/-- A message was created for a receiver that reported, and once only. -/
theorem FinishSender.Sound.sentOnce (sound : sender.Sound push finished signalled) :
    (∀ ref ∈ sender.created, ∃ addr ∈ sender.reported, ref = receiverOf addr) ∧
      ∀ addr, sender.sendQueues.count (receiverOf addr) ≤ 1 := by
  constructor
  · intro ref member
    have passed := sound.created.subset (List.mem_reverse.mpr member)
    have kept := sound.kept.mem_iff.mp (List.mem_append_left _ (List.mem_of_mem_take passed))
    obtain ⟨addr, reports, same⟩ := List.mem_map.mp kept
    exact ⟨addr, reports, same.symm⟩
  · intro addr
    have whole := sound.kept.nodup_iff.mpr (sound.fields.reports.once.map receiverOf_injective)
    have distinct := (sound.created.trans (List.take_sublist signalled finished)).nodup
      (List.nodup_append.mp whole).1
    have queued := (List.nodup_append.mp (List.nodup_reverse.mp distinct)).2.1
    exact List.nodup_iff_count_le_one.mp queued (receiverOf addr)

end Sender

section Reads

variable {b : Broadcast} {seq : Nat}

/-- The sender reads the bytes of a requested packet. -/
theorem ReadInRange.eq (short : b.data.length < 2147483648) (inside : seq < b.seqMax) {payload : List UInt8}
    (read : ReadInRange b seq payload) : payload = (b.packet seq).payload := by
  obtain ⟨sttSeq, before, last⟩ := read
  have near : sttSeq * b.payloadLen < 4294967296 := by
    rw [← b.offset_of_lt (by omega)]
    exact (b.offset_lt (by omega)).trans (by omega)
  rw [@processPatchTuple_eq b ⟨sttSeq, seq + 1⟩ (Nat.lt_succ_of_le before) inside near, PatchTuple.seqs,
    show seq + 1 - sttSeq = seq - sttSeq + 1 by omega, List.range'_concat, List.map_append, List.map_singleton,
    List.getLast?_concat, Option.map_some] at last
  have exact := Option.some.inj last
  rw [Nat.one_mul, show sttSeq + (seq - sttSeq) = seq by omega] at exact
  exact exact.symm

end Reads

section Steps

variable {config : AgentConfig} {push : FilePush} {done : List Nat} {transfers : Nat → Transfer} {state : Completion}
  {addr : Nat}

theorem FilePush.start_tracks (push : FilePush) :
    push.start.Tracks push [] fun _ => Transfer.fresh push.broadcast where
  toSound := push.start_sound
  follows _ := Link.initial_follows push.broadcast
  ends _ reports := nomatch reports
  signals _ := rfl

/-- A receiver that has seen the end of its transfer has reported. -/
theorem Completion.Tracks.heard (tracks : state.Tracks push done transfers)
    (sent : 0 < (state.links addr).signals (transfers addr)) : addr ∈ state.finish.reported := by
  obtain ⟨_, _, balanced⟩ := tracks.sender
  rw [tracks.signals addr] at sent
  obtain ⟨other, reports, same⟩ := balanced.sentOnce.1 _ (List.mem_append_right _ (List.count_pos_iff.mp sent))
  rw [receiverOf_injective same]
  exact reports

/-- A receiver that reported has its first packet. -/
theorem Completion.Tracks.begun (tracks : state.Tracks push done transfers) (reports : addr ∈ state.finish.reported) :
    (transfers addr).recv.isSeqFst = true := by
  have total := (tracks.links addr).firsts
  have some := List.count_pos_iff.mpr reports
  cases present : (state.links addr).recv with
  | none =>
      rw [Link.started, present, Option.elim_none] at total
      omega
  | some recv => exact ((tracks.follows addr).born present).2

theorem Completion.Tracks.signalledOnce (tracks : state.Tracks push done transfers) :
    (state.links addr).signals (transfers addr) ≤ 1 := by
  obtain ⟨_, _, balanced⟩ := tracks.sender
  rw [tracks.signals addr]
  exact balanced.sentOnce.2 addr

/-- A step of one receiver. -/
theorem Completion.Tracks.setLink (tracks : state.Tracks push done transfers) {after : Transfer} {link : Link}
    (sound : (state.setLink addr link).Sound push done)
    (goes : Link.Goes push.broadcast (transfers addr) (state.links addr) after link) :
    (state.setLink addr link).Tracks push done (Function.update transfers addr after) := by
  refine { sound with follows := ?_, ends := ?_, signals := ?_ }
  · intro other
    by_cases same : other = addr
    · subst same
      rw [Completion.setLink_self, Function.update_self]
      exact goes.follows
    · rw [Completion.setLink_of_ne state link same, Function.update_of_ne same]
      exact tracks.follows other
  · intro other reports
    obtain ⟨sender, found, place⟩ := tracks.ends other reports
    refine ⟨sender, found, ?_⟩
    by_cases same : other = addr
    · subst same
      rw [Function.update_self, goes.first (tracks.begun reports)]
      exact place
    · rw [Function.update_of_ne same]
      exact place
  · intro other
    by_cases same : other = addr
    · subst same
      rw [Completion.setLink_self, Function.update_self, goes.signals]
      exact tracks.signals other
    · rw [Completion.setLink_of_ne state link same, Function.update_of_ne same]
      exact tracks.signals other

/-- A step of one receiver that may fail. -/
theorem Completion.Tracks.survive (tracks : state.Tracks push done transfers) {outcome : Except Fault Link}
    (sound : (state.setLink addr ((state.links addr).survive outcome)).Sound push done)
    (taken : ∀ next, outcome = .ok next → ∃ after, Link.Goes push.broadcast (transfers addr) (state.links addr) after
      next) :
    ∃ transfers, (state.setLink addr ((state.links addr).survive outcome)).Tracks push done transfers := by
  obtain ⟨after, goes⟩ := (tracks.follows addr).survive taken
  exact ⟨_, tracks.setLink sound goes⟩

/-- What a thread of the sender does to the connections. -/
theorem Completion.thread_cases {event : FinishEvent} {next : Completion}
    (taken : state.thread config push event = .ok next) :
    next = state ∨ (event.isThread = true ∧ event.Permitted push.toPush state.finish ∧
      ∃ finish, finishStep config state.finish event = .ok finish ∧
        next = { (if event = .command then state.sendFastDone push.broadcast else state) with finish := finish }) := by
  unfold Completion.thread at taken
  by_cases permitted : event.isThread = true ∧ event.Permitted push.toPush state.finish
  · rw [if_pos permitted] at taken
    dsimp only at taken
    cases stepped : finishStep config state.finish event with
    | error fault =>
        rw [stepped] at taken
        cases taken
    | ok finish =>
        rw [stepped] at taken
        exact .inr ⟨permitted.1, permitted.2, finish, rfl, (Except.ok.inj taken).symm⟩
  · rw [if_neg permitted] at taken
    exact .inl (Except.ok.inj taken).symm

/-- A command signals the receiver that it names. -/
theorem Completion.Tracks.sendFastDone (tracks : state.Tracks push done transfers) (addr : Nat) :
    ((state.sendFastDone push.broadcast).links addr).Follows push.broadcast (transfers addr) ∧
      ((state.sendFastDone push.broadcast).links addr).signals (transfers addr) =
        (state.links addr).signals (transfers addr) +
          state.finish.ringCmd.getLast?.toList.count (receiverOf addr) := by
  unfold Completion.sendFastDone
  cases last : state.finish.ringCmd.getLast? with
  | none => exact ⟨tracks.follows addr, rfl⟩
  | some ref =>
      obtain ⟨_, _, balanced⟩ := tracks.sender
      obtain ⟨receiver, -, rfl⟩ := balanced.sentOnce.1 ref (List.mem_append_left _ (List.mem_of_getLast? last))
      dsimp only
      rw [show (receiverOf receiver).addr = receiver from rfl]
      by_cases same : addr = receiver
      · subst same
        rw [Completion.setLink_self]
        obtain ⟨follows, more⟩ := (tracks.follows addr).sendFastDone push.broadcast.bcdId
        exact ⟨follows, more.trans (by simp)⟩
      · rw [Completion.setLink_of_ne state _ same]
        refine ⟨tracks.follows addr, ?_⟩
        have other : receiverOf receiver ≠ receiverOf addr := fun equal => same (receiverOf_injective equal).symm
        simp [other]

/-- A thread of the sender takes a step. -/
theorem Completion.Tracks.thread (tracks : state.Tracks push done transfers) {event : FinishEvent} {next : Completion}
    (taken : state.thread config push event = .ok next) : next.Tracks push done transfers := by
  obtain ⟨other, moved, sound⟩ := tracks.toSound.thread config event
  obtain rfl := Except.ok.inj (moved.symm.trans taken)
  rcases Completion.thread_cases taken with rfl | ⟨thread, -, finish, stepped, rfl⟩
  · exact tracks
  obtain ⟨_, _, balanced⟩ := tracks.sender
  obtain ⟨reported, -, -⟩ := balanced.thread_frame thread stepped
  obtain ⟨hash, queued⟩ := balanced.thread_sent thread stepped
  have ends : ∀ addr ∈ finish.reported, ∃ sender, finish.side.multi.senderAddrHash addr = some sender ∧
      sender.seqEnd % push.broadcast.seqMax = (transfers addr).recv.seqFst := by
    rw [hash, reported]
    exact tracks.ends
  by_cases command : event = .command
  · rw [if_pos command] at sound queued ⊢
    refine { sound with follows := fun addr => (tracks.sendFastDone addr).1, ends := ends, signals := ?_ }
    intro addr
    rw [queued, List.count_append, ← tracks.signals addr, Nat.add_comm]
    exact (tracks.sendFastDone addr).2
  · rw [if_neg command] at sound queued ⊢
    refine { sound with follows := tracks.follows, ends := ends, signals := ?_ }
    rw [queued]
    exact tracks.signals

section Master

variable {msgs : List ToMasterMsg} {next : Completion}

theorem Completion.firstSeq_shape {seqFirst place : Nat} (taken : state.firstSeq addr seqFirst place = .ok next) :
    state.finish.firstSeq addr seqFirst place = .ok next.finish ∧ next.links = state.links := by
  unfold Completion.firstSeq at taken
  cases handled : state.finish.firstSeq addr seqFirst place with
  | error fault =>
      rw [handled] at taken
      cases taken
  | ok finish =>
      rw [handled] at taken
      dsimp only at taken
      split_ifs at taken <;> (obtain rfl := Except.ok.inj taken; exact ⟨rfl, rfl⟩)

theorem Completion.allDone_shape (taken : state.allDone addr = .ok next) :
    state.finish.allDone addr = .ok next.finish ∧ next.links = state.links := by
  unfold Completion.allDone at taken
  cases handled : state.finish.allDone addr with
  | error fault =>
      rw [handled] at taken
      cases taken
  | ok finish =>
      rw [handled] at taken
      obtain rfl := Except.ok.inj taken
      exact ⟨rfl, rfl⟩

/-- The end of a receiver is at the place of its first packet. -/
theorem FinishSender.firstSeq_end {sender next : FinishSender} {seqFirst place : Nat}
    (taken : sender.firstSeq addr seqFirst place = .ok next) (inside : seqFirst < sender.side.multi.seqMax)
    (room : sender.side.multi.seqCur + sender.side.multi.seqMax ≤ 4294967296) :
    next.sendQueues = sender.sendQueues ∧
      (∀ other, other ≠ addr → next.side.multi.senderAddrHash other = sender.side.multi.senderAddrHash other) ∧
      ∃ state, next.side.multi.senderAddrHash addr = some state ∧ state.seqEnd % sender.side.multi.seqMax = seqFirst := by
  unfold FinishSender.firstSeq at taken
  cases handled : handleFirstSeq sender.side.multi addr seqFirst with
  | error fault =>
      rw [handled] at taken
      cases taken
  | ok multi =>
      rw [handled] at taken
      dsimp only at taken
      split at taken
      · cases taken
      · obtain rfl := Except.ok.inj taken
        obtain ⟨state, -, rfl⟩ := handleFirstSeq_ok handled
        rw [multicastStateUpdateSeqEnd_eq] at *
        have last := nextPlace_lt sender.side.multi.seqCur inside
        have exact := u32_natCast (last.trans_le room)
        refine ⟨rfl, ?_, _, Function.update_self .., ?_⟩
        · intro other different
          show Function.update (Function.update _ addr _) addr _ other = _
          rw [Function.update_of_ne different, Function.update_of_ne different]
        · show u32 (nextPlace sender.side.multi.seqCur sender.side.multi.seqMax seqFirst : Nat) % _ = _
          rw [exact, nextPlace]
          exact Nat.mul_add_mod_of_lt inside

/-- A report that the sender takes leaves the transfers. -/
theorem Completion.Tracks.takeReport (tracks : state.Tracks push done transfers) {msg : ToMasterMsg}
    (queued : (state.links addr).toMaster = msg :: msgs) (report : patchTuples [msg] = []) (other : Nat) :
    ((state.setLink addr { state.links addr with toMaster := msgs }).links other).Follows push.broadcast
        (transfers other) ∧
      ((state.setLink addr { state.links addr with toMaster := msgs }).links other).signals (transfers other) =
        (state.links other).signals (transfers other) := by
  by_cases same : other = addr
  · subst same
    rw [Completion.setLink_self]
    exact ⟨(tracks.follows other).takeReport queued report, rfl⟩
  · rw [Completion.setLink_of_ne state _ same]
    exact ⟨tracks.follows other, rfl⟩

/-- The sender learns the first packet of a receiver. -/
theorem Completion.Tracks.firstSeq (tracks : state.Tracks push done transfers) {bcdId : BcdID} {seqFirst place : Nat}
    (queued : (state.links addr).toMaster = .firstSeq bcdId seqFirst :: msgs)
    (room : state.finish.side.multi.seqCur + push.broadcast.seqMax ≤ 4294967296)
    (taken : (state.setLink addr { state.links addr with toMaster := msgs }).firstSeq addr seqFirst place = .ok next) :
    next.Tracks push done transfers := by
  obtain ⟨other, moved, sound⟩ := tracks.toSound.firstSeq queued place
  obtain rfl := Except.ok.inj (taken.symm.trans moved)
  obtain ⟨handled, links⟩ := Completion.firstSeq_shape taken
  have first := (tracks.follows addr).reported bcdId seqFirst (queued ▸ List.mem_cons_self)
  obtain ⟨recv, present⟩ := Option.ne_none_iff_exists'.mp ((tracks.links addr).born queued)
  have fixed := ((tracks.follows addr).born present).2
  have inside := ((tracks.follows addr).orderly.covered.started fixed).fstInside
  have size : state.finish.side.multi.seqMax = push.broadcast.seqMax := tracks.seqMax
  obtain ⟨reported, -, -⟩ := FinishSender.firstSeq_frame handled
  obtain ⟨kept, others, sender, found, place⟩ := FinishSender.firstSeq_end handled
    (show seqFirst < state.finish.side.multi.seqMax by rw [size, first]; exact inside)
    (show state.finish.side.multi.seqCur + state.finish.side.multi.seqMax ≤ _ by rw [size]; exact room)
  have gone := tracks.takeReport queued rfl
  rw [← links] at gone
  refine { sound with follows := fun other => (gone other).1, ends := ?_, signals := ?_ }
  · intro other member
    by_cases same : other = addr
    · subst same
      refine ⟨sender, found, ?_⟩
      rw [← first, ← place]
      exact congrArg (sender.seqEnd % ·) size.symm
    · rw [others other same]
      rw [reported] at member
      exact tracks.ends other ((List.mem_cons.mp member).resolve_left same)
  · intro other
    rw [(gone other).2, kept]
    exact tracks.signals other

/-- The report of the last packet changes no request. -/
theorem Completion.Tracks.allDone (tracks : state.Tracks push done transfers) {bcdId : BcdID}
    (queued : (state.links addr).toMaster = .allDone bcdId :: msgs)
    (taken : (state.setLink addr { state.links addr with toMaster := msgs }).allDone addr = .ok next) :
    next.Tracks push (addr :: done) transfers := by
  obtain ⟨other, moved, sound⟩ := tracks.toSound.allDone queued
  obtain rfl := Except.ok.inj (taken.symm.trans moved)
  obtain ⟨handled, links⟩ := Completion.allDone_shape taken
  obtain ⟨side, reported, -⟩ := FinishSender.allDone_frame handled
  have kept : next.finish.sendQueues = state.finish.sendQueues := by
    unfold FinishSender.allDone at handled
    split at handled
    · cases handled
    · split_ifs at handled
      rw [← Except.ok.inj handled]
      rfl
  have gone := tracks.takeReport queued rfl
  rw [← links] at gone
  refine { sound with follows := fun other => (gone other).1, ends := ?_, signals := ?_ }
  · rw [reported, side]
    exact tracks.ends
  · intro other
    rw [(gone other).2, kept]
    exact tracks.signals other

/-- The sender splits a request as its receiver means it. -/
theorem Completion.Tracks.split (tracks : state.Tracks push done transfers) {pt : PatchTuple}
    (asked : pt ∈ (state.links addr).asked) {sender : SenderState}
    (found : state.finish.side.multi.senderAddrHash addr = some sender) :
    msgPatchReq push.broadcast.seqMax sender.seqEnd pt =
      msgPatchReq push.broadcast.seqMax (transfers addr).recv.seqFst pt := by
  by_cases final : pt.endSeq = seq2WardTheEnd
  · have closed := (tracks.follows addr).rounds pt asked final
    have reports : addr ∈ state.finish.reported := by
      apply tracks.heard
      rw [Link.signals, closed]
      exact Nat.succ_pos _
    obtain ⟨known, lookup, place⟩ := tracks.ends addr reports
    obtain rfl := Option.some.inj (found.symm.trans lookup)
    have inside := ((tracks.follows addr).orderly.covered.started (tracks.begun reports)).fstInside
    exact msgPatchReq_congr (by rw [place, Nat.mod_eq_of_lt inside]) pt
  · exact msgPatchReq_closed final _ _ _

/-- The sender takes a request. -/
theorem Completion.Tracks.patchReq (tracks : state.Tracks push done transfers) {bcdId : BcdID} {pt : PatchTuple}
    (queued : (state.links addr).toMaster = .patchReq bcdId pt :: msgs)
    (taken : (state.setLink addr { state.links addr with toMaster := msgs }).patchReq addr pt = .ok next) :
    next.Tracks push done transfers := by
  obtain ⟨other, moved, sound⟩ := tracks.toSound.patchReq queued
  obtain rfl := Except.ok.inj (taken.symm.trans moved)
  have asked : pt ∈ (state.links addr).asked := by
    rw [Link.asked, queued]
    exact List.mem_append_left _ List.mem_cons_self
  unfold Completion.patchReq at taken
  cases found : state.finish.side.multi.senderAddrHash addr with
  | none =>
      have lookup : (state.setLink addr { state.links addr with toMaster := msgs }).finish.side.multi.senderAddrHash
        addr = none := found
      rw [lookup] at taken
      cases taken
  | some sender =>
      have lookup : (state.setLink addr { state.links addr with toMaster := msgs }).finish.side.multi.senderAddrHash
        addr = some sender := found
      have size : (state.setLink addr { state.links addr with toMaster := msgs }).finish.side.multi.seqMax =
        push.broadcast.seqMax := tracks.seqMax
      rw [lookup] at taken
      dsimp only at taken
      rw [size, Completion.setLink_self] at taken
      obtain rfl := Except.ok.inj taken
      have twice (link other : Link) : (state.setLink addr link).setLink addr other = state.setLink addr other := by
        simp [Completion.setLink]
      rw [twice] at sound ⊢
      have follows := (tracks.follows addr).request queued (tracks.split asked found)
      have moved := tracks.setLink sound ⟨follows, fun _ => rfl, rfl⟩
      rwa [Function.update_eq_self] at moved

theorem Completion.Tracks.takeMaster (tracks : state.Tracks push done transfers) {place : Nat}
    (room : state.finish.side.multi.seqCur + push.broadcast.seqMax ≤ 4294967296)
    (taken : state.takeMaster addr place = .ok next) : ∃ done, next.Tracks push done transfers := by
  unfold Completion.takeMaster at taken
  dsimp only at taken
  cases queued : (state.links addr).toMaster with
  | nil =>
      rw [queued] at taken
      obtain rfl := Except.ok.inj taken
      exact ⟨done, tracks⟩
  | cons msg msgs =>
      rw [queued] at taken
      cases msg with
      | firstSeq bcdId seqFirst => exact ⟨done, tracks.firstSeq queued room taken⟩
      | allDone bcdId => exact ⟨addr :: done, tracks.allDone queued taken⟩
      | patchReq bcdId pt => exact ⟨done, tracks.patchReq queued taken⟩

end Master

/-- The sender reads the oldest requested packet. -/
theorem Completion.Tracks.sendPatch (short : push.broadcast.data.length < 2147483648)
    (tracks : state.Tracks push done transfers) {payload : List UInt8}
    (read : ∀ seq ∈ (state.links addr).pending.take 1, ReadInRange push.broadcast seq payload) :
    (state.sendPatch push.broadcast addr 0 payload).Tracks push done transfers := by
  have sound := tracks.toSound.sendPatch addr 0 payload
  unfold Completion.sendPatch at sound ⊢
  dsimp only at sound ⊢
  cases found : (state.links addr).pending[0]? with
  | none => exact tracks
  | some seq =>
      rw [found] at sound
      dsimp only at sound ⊢
      have oldest : seq ∈ (state.links addr).pending.take 1 := by
        cases waiting : (state.links addr).pending with
        | nil => simp [waiting] at found
        | cons head rest =>
            rw [waiting] at found
            simpa [eq_comm] using found
      have inside := (tracks.links addr).pending seq (List.mem_of_mem_take oldest)
      have exact := (read seq oldest).eq short inside
      subst exact
      have follows := (tracks.follows addr).sendPatch found
      have silent : fastDones ((state.links addr).toReceiver ++ [.patchData (push.broadcast.packet seq)]) =
          fastDones (state.links addr).toReceiver := by
        rw [fastDones_append]
        rfl
      have moved := tracks.setLink sound ⟨follows, fun _ => rfl, by
        rw [Link.signals, Link.signals]
        exact congrArg (· + _) silent⟩
      rwa [Function.update_eq_self] at moved

/-- Every step in order keeps the transfers. -/
theorem Completion.Tracks.step (small : push.broadcast.seqMax < seqnumMax)
    (short : push.broadcast.data.length < 2147483648) (tracks : state.Tracks push done transfers)
    (event : CompletionEvent) (order : event.InOrder push state) {next : Completion}
    (taken : completionStep config push state event = .ok next) :
    ∃ done transfers, next.Tracks push done transfers := by
  cases event with
  | sender event => exact ⟨done, transfers, tracks.thread taken⟩
  | sendPatch addr index payload =>
      obtain ⟨rfl, read⟩ := order
      obtain rfl := Except.ok.inj taken
      exact ⟨done, transfers, tracks.sendPatch short read⟩
  | packet addr seq opens =>
      dsimp only [completionStep] at taken
      split_ifs at taken with receiver
      · obtain rfl := Except.ok.inj taken
        have sound := tracks.links addr
        refine ⟨done, tracks.survive (tracks.toSound.setLink ?_ fun _ => receiver) ?_⟩
        · exact sound.survive fun next moved => sound.packet moved
        · exact fun next moved => (tracks.follows addr).packet small short sound.silent moved
      · obtain rfl := Except.ok.inj taken
        exact ⟨done, transfers, tracks⟩
  | takeN2c addr =>
      obtain rfl := Except.ok.inj taken
      have sound := tracks.links addr
      refine ⟨done, tracks.survive (tracks.toSound.setLink ?_ ?_) ?_⟩
      · exact sound.survive fun next moved => sound.takeN2c moved
      · exact fun present => tracks.receivers addr fun absent => present (sound.unborn absent).1
      · exact fun next moved => ⟨transfers addr, (tracks.follows addr).takeN2c moved⟩
  | takeReceiver addr =>
      obtain rfl := Except.ok.inj taken
      have sound := tracks.links addr
      refine ⟨done, tracks.survive (tracks.toSound.setLink ?_ ?_) ?_⟩
      · exact sound.survive fun next moved => sound.takeReceiver moved
      · exact fun present => tracks.receivers addr fun absent => present (sound.unborn absent).2
      · exact fun next moved => (tracks.follows addr).takeReceiver small short tracks.signalledOnce moved
  | takeMaster addr place =>
      obtain ⟨done, after⟩ := tracks.takeMaster order taken
      exact ⟨done, transfers, after⟩

/-- The finished receivers hold the data. -/
theorem Completion.Tracks.delivers (tracks : state.Tracks push done transfers) : state.Delivers push := by
  have reads : ∀ addr, ∀ recv ∈ (state.links addr).recv, recv.isFinished = true →
      recv.readBack = push.broadcast.data := by
    intro addr recv present finished
    obtain rfl := (tracks.follows addr).recv recv present
    exact ((tracks.follows addr).orderly.read finished).1
  refine ⟨reads, ?_⟩
  intro written slave member
  obtain ⟨recv, present, finished⟩ := tracks.toSound.agrees.2 written slave member
  exact ⟨recv, present, finished, reads slave.addr recv present finished⟩

end Steps

/-- The receiver misses packet zero of the second round. -/
def lossyRun : List CompletionEvent :=
  [.sender (.approve 5), .sender (.queue ⟨1, 0, 8⟩ 2), .sender (.process 2 ⟨3, 0, 8⟩), .packet 9 1 true, .takeN2c 9,
    .takeMaster 9 0, .sender (.queue ⟨3, 0, 8⟩ 1), .sender (.process 1 ⟨4, 0, 8⟩), .sender (.check ⟨4, 4, 8⟩),
    .sender (.peek (3, 0)), .sender (.signal (5, 0)), .sender .command, .takeReceiver 9, .takeMaster 9 0,
    .sendPatch 9 0 [10], .takeReceiver 9, .takeMaster 9 0]

end RepublicAgent
