/-
This file says that the messages under way lead to the completion of a push whose packets were sent.
-/

import RepublicAgent.Completion.Quiescence
import RepublicAgent.Completion.ReceiverFaults

namespace RepublicAgent
open CyclicWindow Execution MachineInteger

/-- What a message may still cause. A request asks for less than a round. -/
def ToMasterMsg.weight (b : Broadcast) : ToMasterMsg → Nat
  | .firstSeq .. => 2
  | .allDone _ => 1
  | .patchReq .. => 3 * b.seqMax + 1

def N2cMsg.weight (b : Broadcast) : N2cMsg → Nat
  | .seqFirst .. => 3
  | .seqZero _ => 1
  | .seqAll _ => 2
  | .seqJump .. => 3 * b.seqMax + 2

def ToReceiverMsg.weight (b : Broadcast) : ToReceiverMsg → Nat
  | .patchData _ => 2
  | .fastDone _ => 3 * b.seqMax + 2

/-- The work that is left on a connection. -/
def Link.work (b : Broadcast) (link : Link) : Nat :=
  (link.n2c.map (N2cMsg.weight b)).sum + (link.toMaster.map (ToMasterMsg.weight b)).sum + 3 * link.pending.length +
    (link.toReceiver.map (ToReceiverMsg.weight b)).sum

/-- The work that is left for the receivers and the sender. -/
def Completion.work (push : FilePush) (state : Completion) : Nat :=
  (push.slaves.map fun slave => (state.links slave.addr).work push.broadcast).sum +
    (3 * push.broadcast.seqMax + 3) * state.finish.ringCmd.length +
    (3 * push.broadcast.seqMax + 4) * ((push.slaves.length : Int) - state.finish.window.idxStart).toNat +
    state.finish.skipList.length

/-- All packets were sent and the path was released. No receiver failed. -/
structure Completion.Closing (push : FilePush) (state : Completion) : Prop where
  settles : state.Settles push
  raised : state.finish.raised = true
  dead : state.finish.side.multi.bcdState = .dead
  room : state.finish.side.multi.seqCur + push.broadcast.seqMax ≤ 4294967296
  running : ∀ slave ∈ push.slaves, (state.links slave.addr).halted = false

/-- A step in order that leaves less work. -/
def Completion.Advances (config : AgentConfig) (push : FilePush) (state : Completion) : Prop :=
  ∃ event next, CompletionEvent.InOrder push state event ∧ completionStep config push state event = .ok next ∧
    next.Closing push ∧ next.work push < state.work push

section Links

variable {b : Broadcast} {t : Transfer} {link next : Link} {recv : RecverState}

/-- A report causes less than what it came from. -/
theorem n2cHandler_weight {msg : N2cMsg} {output : HandlerOutput}
    (handled : n2cHandler false recv msg = .ok output) :
    (output.toMaster.map (ToMasterMsg.weight b)).sum < msg.weight b := by
  unfold n2cHandler at handled
  cases msg with
  | seqFirst bcdId seq =>
      obtain rfl := Except.ok.inj handled
      exact Nat.lt_succ_self 2
  | seqZero bcdId =>
      dsimp only at handled
      split_ifs at handled
      · obtain rfl := Except.ok.inj handled
        exact Nat.zero_lt_one
      · obtain rfl := Except.ok.inj handled
        exact Nat.zero_lt_one
  | seqAll bcdId =>
      dsimp only at handled
      split_ifs at handled
      obtain rfl := Except.ok.inj handled
      exact Nat.lt_succ_self 1
  | seqJump bcdId pt =>
      obtain rfl := Except.ok.inj handled
      exact Nat.lt_succ_self _

theorem Link.takeN2c_work (waiting : link.n2c ≠ []) (taken : link.takeN2c = .ok next) :
    next.work b < link.work b := by
  unfold Link.takeN2c at taken
  cases piped : link.n2c with
  | nil => exact absurd piped waiting
  | cons msg msgs =>
      rw [piped] at taken
      cases present : link.recv with
      | none =>
          rw [present] at taken
          cases taken
      | some recv =>
          rw [present] at taken
          dsimp only at taken
          cases handled : n2cHandler false recv msg with
          | error assertion =>
              rw [handled] at taken
              cases taken
          | ok output =>
              rw [handled] at taken
              obtain rfl := Except.ok.inj taken
              have less := @n2cHandler_weight b recv msg output handled
              simp only [Link.work, piped, List.map_append, List.sum_append, List.map_cons, List.sum_cons]
              omega

/-- A patch causes at most the report of the last packet. -/
theorem msgPatchData_weight {pkt : DataPacket} {stepped : RecverState} {output : HandlerOutput}
    (handled : msgPatchData recv pkt = .ok (stepped, output)) :
    (output.toMaster.map (ToMasterMsg.weight b)).sum ≤ 1 := by
  unfold msgPatchData at handled
  cases counting : patchDataCount recv pkt with
  | error fault => simp [counting, bind, Except.bind] at handled
  | ok outcome =>
      simp only [counting, bind, Except.bind, pure, Except.pure, Except.ok.injEq] at handled
      unfold patchDataTest at handled
      split_ifs at handled
      · obtain rfl := congrArg Prod.snd handled
        exact le_rfl
      · obtain rfl := congrArg Prod.snd handled
        exact Nat.zero_le 1
      · obtain rfl := congrArg Prod.snd handled
        exact Nat.zero_le 1

/-- The end of the transfer causes at most one request. -/
theorem msgFastDone_weight (recv : RecverState) (bcdId : BcdID) :
    (((msgFastDone recv).2.toList.map (ToMasterMsg.patchReq bcdId)).map (ToMasterMsg.weight b)).sum ≤
      3 * b.seqMax + 1 := by
  cases (msgFastDone recv).2 with
  | none => exact Nat.zero_le _
  | some pt => exact le_rfl

theorem Link.takeReceiver_work (waiting : link.toReceiver ≠ []) (taken : link.takeReceiver = .ok next) :
    next.work b < link.work b := by
  unfold Link.takeReceiver at taken
  cases queued : link.toReceiver with
  | nil => exact absurd queued waiting
  | cons msg msgs =>
      rw [queued] at taken
      cases present : link.recv with
      | none =>
          rw [present] at taken
          cases msg <;> cases taken
      | some recv =>
          rw [present] at taken
          cases msg with
          | patchData pkt =>
              dsimp only at taken
              cases processed : processPatch recv pkt with
              | error fault =>
                  rw [processed] at taken
                  cases taken
              | ok outcome =>
                  rw [processed] at taken
                  obtain rfl := Except.ok.inj taken
                  have less := @msgPatchData_weight b recv pkt outcome.1 outcome.2 (processPatch_ok processed).1
                  simp only [Link.work, queued, List.map_append, List.sum_append, List.map_cons, List.sum_cons,
                    ToReceiverMsg.weight]
                  omega
          | fastDone bcdId =>
              obtain rfl := Except.ok.inj taken
              have less := @msgFastDone_weight b recv bcdId
              simp only [Link.work, queued, List.map_append, List.sum_append, List.map_cons, List.sum_cons,
                ToReceiverMsg.weight]
              omega

/-- A request asks for at most one round. -/
theorem msgPatchReq_length {pt : PatchTuple} (bounded : pt.Bounded b) (seqEnd : Nat) :
    ((msgPatchReq b.seqMax seqEnd pt).flatMap PatchTuple.seqs).length ≤ b.seqMax := by
  have inside : (if pt.endSeq = seq2WardTheEnd then seqEnd % b.seqMax else pt.endSeq) ≤ b.seqMax := by
    split_ifs with final
    · exact (Nat.mod_lt seqEnd b.seqMax_pos).le
    · exact bounded.resolve_right final
  have start := Nat.mod_lt pt.sttSeq b.seqMax_pos
  rw [(msgPatchReq_seqs b.seqMax_pos pt rfl inside).length_eq, window_length]
  generalize (if pt.endSeq = seq2WardTheEnd then seqEnd % b.seqMax else pt.endSeq) = last at inside ⊢
  unfold distance
  split_ifs
  · exact (Nat.sub_le _ _).trans inside
  · omega

end Links

section Steps

variable {config : AgentConfig} {push : FilePush} {state next : Completion} {addr : Nat}

/-- The work on the connections after a step on one of them. -/
theorem Completion.links_setLink {slave : Slave} (member : slave ∈ push.slaves) {link : Link} {more : Nat}
    (less : link.work push.broadcast + more < (state.links slave.addr).work push.broadcast) :
    (push.slaves.map fun other => ((state.setLink slave.addr link).links other.addr).work push.broadcast).sum + more <
      (push.slaves.map fun other => (state.links other.addr).work push.broadcast).sum := by
  have fewer (slaves : List Slave) :
      (slaves.map fun other => ((state.setLink slave.addr link).links other.addr).work push.broadcast).sum ≤
        (slaves.map fun other => (state.links other.addr).work push.broadcast).sum := by
    apply List.sum_le_sum
    intro other _
    by_cases same : other.addr = slave.addr
    · rw [same, Completion.setLink_self]
      omega
    · rw [Completion.setLink_of_ne state link same]
  obtain ⟨front, rest, split⟩ := List.append_of_mem member
  have before := fewer front
  have behind := fewer rest
  rw [split]
  simp only [List.map_append, List.map_cons, List.sum_append, List.sum_cons, Completion.setLink_self]
  omega

/-- No other connection gains work. -/
theorem Completion.links_setLink_le (state : Completion) {link : Link} {b : Broadcast} {more : Nat}
    (bound : link.work b ≤ (state.links addr).work b + more) (slaves : List Slave)
    (distinct : (slaves.map Slave.addr).Nodup) :
    (slaves.map fun slave => ((state.setLink addr link).links slave.addr).work b).sum ≤
      (slaves.map fun slave => (state.links slave.addr).work b).sum + more := by
  induction slaves with
  | nil => exact Nat.zero_le _
  | cons slave slaves ih =>
      obtain ⟨fresh, distinct⟩ := List.nodup_cons.mp distinct
      rw [List.map_cons, List.map_cons, List.sum_cons, List.sum_cons]
      by_cases same : slave.addr = addr
      · have others : (slaves.map fun other => ((state.setLink addr link).links other.addr).work b) =
            slaves.map fun other => (state.links other.addr).work b := by
          apply List.map_congr_left
          intro other member
          rw [Completion.setLink_of_ne]
          rintro rfl
          exact fresh (same ▸ List.mem_map_of_mem member)
        rw [others, same, Completion.setLink_self]
        omega
      · have rest := ih distinct
        rw [Completion.setLink_of_ne state link same]
        omega

/-- A step on one connection that leaves less work there. -/
theorem Completion.work_setLink {slave : Slave} (member : slave ∈ push.slaves) {link : Link}
    (less : link.work push.broadcast < (state.links slave.addr).work push.broadcast) :
    (state.setLink slave.addr link).work push < state.work push := by
  have summed := @Completion.links_setLink push state slave member link 0 less
  unfold Completion.work
  change _ + _ * state.finish.ringCmd.length + _ * ((push.slaves.length : Int) - state.finish.window.idxStart).toNat +
    state.finish.skipList.length < _
  omega

/-- A step that leaves the end of the transfer closes the push further. -/
theorem Completion.Closing.keep (small : push.broadcast.seqMax < seqnumMax)
    (short : push.broadcast.data.length < 2147483648) (closing : state.Closing push) {event : CompletionEvent}
    (order : event.InOrder push state) (taken : completionStep config push state event = .ok next)
    (raised : next.finish.raised = state.finish.raised)
    (bcdState : next.finish.side.multi.bcdState = state.finish.side.multi.bcdState)
    (seqCur : next.finish.side.multi.seqCur = state.finish.side.multi.seqCur)
    (halted : ∀ slave ∈ push.slaves, (next.links slave.addr).halted = (state.links slave.addr).halted) :
    next.Closing push where
  settles := closing.settles.step small short order taken
  raised := raised.trans closing.raised
  dead := bcdState.trans closing.dead
  room := by
    rw [seqCur]
    exact closing.room
  running slave member := (halted slave member).trans (closing.running slave member)

/-- A step on one connection that leaves less work there. -/
theorem Completion.Closing.advanceLink (small : push.broadcast.seqMax < seqnumMax)
    (short : push.broadcast.data.length < 2147483648) (closing : state.Closing push) {slave : Slave}
    (member : slave ∈ push.slaves) (event : CompletionEvent) (link : Link) (order : event.InOrder push state)
    (taken : completionStep config push state event = .ok (state.setLink slave.addr link))
    (halted : link.halted = (state.links slave.addr).halted)
    (less : link.work push.broadcast < (state.links slave.addr).work push.broadcast) : state.Advances config push := by
  refine ⟨event, _, order, taken, closing.keep small short order taken rfl rfl rfl ?_, ?_⟩
  · exact fun other _ => Completion.setLink_halted halted other.addr
  · exact Completion.work_setLink member less

/-- The receiver handles what is under way to it. -/
theorem Completion.Closing.advanceReceiver (small : push.broadcast.seqMax < seqnumMax)
    (short : push.broadcast.data.length < 2147483648) (closing : state.Closing push) {slave : Slave}
    (member : slave ∈ push.slaves)
    (waiting : (state.links slave.addr).n2c ≠ [] ∨ (state.links slave.addr).toReceiver ≠ []) :
    state.Advances config push := by
  obtain ⟨done, transfers, tracks⟩ := closing.settles.1
  have running := closing.running slave member
  have survived {after : Link} : (state.links slave.addr).survive (.ok after) = after := by
    rw [Link.survive, if_neg (by simp [running])]
  rcases waiting with piped | queued
  · obtain ⟨after, moved⟩ := (tracks.follows slave.addr).takeN2c_completes (tracks.links slave.addr).silent
    refine closing.advanceLink small short member (.takeN2c slave.addr) after trivial ?_
      (Link.takeN2c_halted moved) (Link.takeN2c_work piped moved)
    simp only [completionStep, moved, survived]
  · obtain ⟨after, moved⟩ := (tracks.follows slave.addr).takeReceiver_completes short fun sent =>
      tracks.begun (tracks.heard sent)
    refine closing.advanceLink small short member (.takeReceiver slave.addr) after trivial ?_
      (Link.takeReceiver_halted moved) (Link.takeReceiver_work queued moved)
    simp only [completionStep, moved, survived]

/-- The sender can read the packets of a range. -/
theorem readInRange_packet {b : Broadcast} (short : b.data.length < 2147483648) {seq : Nat} (inside : seq < b.seqMax) :
    ReadInRange b seq (b.packet seq).payload := by
  have near : seq * b.payloadLen < 4294967296 := by
    rw [← b.offset_of_lt inside]
    exact (b.offset_lt inside).trans (by omega)
  refine ⟨seq, le_rfl, ?_⟩
  rw [@processPatchTuple_eq b ⟨seq, seq + 1⟩ (Nat.lt_succ_self seq) inside near, PatchTuple.seqs,
    show seq + 1 - seq = 1 by omega]
  rfl

/-- The sender reads the oldest requested packet. -/
theorem Completion.Closing.advancePatch (small : push.broadcast.seqMax < seqnumMax)
    (short : push.broadcast.data.length < 2147483648) (closing : state.Closing push) {slave : Slave}
    (member : slave ∈ push.slaves) (waiting : (state.links slave.addr).pending ≠ []) : state.Advances config push := by
  obtain ⟨done, transfers, tracks⟩ := closing.settles.1
  obtain ⟨seq, rest, asked⟩ := List.exists_cons_of_ne_nil waiting
  have inside := (tracks.links slave.addr).pending seq (asked ▸ List.mem_cons_self)
  refine closing.advanceLink small short member (.sendPatch slave.addr 0 (push.broadcast.packet seq).payload)
    { state.links slave.addr with
      pending := rest
      toReceiver := (state.links slave.addr).toReceiver ++ [.patchData (push.broadcast.packet seq)] }
    ⟨rfl, ?_⟩ ?_ rfl ?_
  · intro other oldest
    obtain rfl : other = seq := by simpa [asked] using oldest
    exact readInRange_packet short inside
  · simp only [completionStep, Completion.sendPatch, asked]
    rfl
  · simp only [Link.work, asked, List.map_append, List.sum_append, List.map_cons, List.sum_cons, List.map_nil,
      List.sum_nil, ToReceiverMsg.weight, List.length_cons]
    omega

section Master

variable {sender later : FinishSender}

/-- The handler of a report leaves the end of the transfer and adds at most one receiver to the skip list. -/
structure FinishSender.Calm (sender later : FinishSender) : Prop where
  raised : later.raised = sender.raised
  bcdState : later.side.multi.bcdState = sender.side.multi.bcdState
  seqCur : later.side.multi.seqCur = sender.side.multi.seqCur
  ringCmd : later.ringCmd = sender.ringCmd
  window : later.window = sender.window

theorem FinishSender.firstSeq_calm {seqFirst place : Nat} (taken : sender.firstSeq addr seqFirst place = .ok later) :
    sender.Calm later ∧ later.skipList.length = sender.skipList.length + 1 := by
  unfold FinishSender.firstSeq at taken
  cases handled : handleFirstSeq sender.side.multi addr seqFirst with
  | error fault =>
      rw [handled] at taken
      cases taken
  | ok multi =>
      rw [handled] at taken
      dsimp only at taken
      split at taken
      · cases taken
      · obtain rfl := Except.ok.inj taken
        have kept := handleFirstSeq_handled handled
        refine ⟨⟨rfl, kept.bcdState, kept.seqCur, rfl, rfl⟩, ?_⟩
        show (sender.skipList.take place ++ sender.senderOf addr :: sender.skipList.drop place).length = _
        rw [List.length_append, List.length_cons, ← Nat.add_assoc, ← List.length_append, List.take_append_drop]

theorem FinishSender.allDone_calm (taken : sender.allDone addr = .ok later) :
    sender.Calm later ∧ later.skipList = sender.skipList := by
  unfold FinishSender.allDone at taken
  split at taken
  · cases taken
  · split_ifs at taken
    obtain rfl := Except.ok.inj taken
    exact ⟨⟨rfl, rfl, rfl, rfl, rfl⟩, rfl⟩

/-- The work of the sender is the same but for the skip list. -/
theorem FinishSender.Calm.work (calm : state.finish.Calm next.finish) {slave : Slave} (member : slave ∈ push.slaves)
    {link : Link} (links : next.links = (state.setLink slave.addr link).links) {more : Nat}
    (skipped : next.finish.skipList.length = state.finish.skipList.length + more)
    (less : link.work push.broadcast + more < (state.links slave.addr).work push.broadcast) :
    next.work push < state.work push := by
  have summed := Completion.links_setLink member less
  unfold Completion.work
  rw [links, calm.ringCmd, calm.window, skipped]
  omega

/-- A request adds its packets to the connection that it came on. -/
theorem Completion.patchReq_shape {link : Link} {pt : PatchTuple}
    (taken : (state.setLink addr link).patchReq addr pt = .ok next) :
    ∃ seqEnd, next = state.setLink addr { link with
      pending := link.pending ++ (msgPatchReq state.finish.side.multi.seqMax seqEnd pt).flatMap PatchTuple.seqs } := by
  unfold Completion.patchReq at taken
  split at taken
  · cases taken
  · next sender _ =>
      obtain rfl := Except.ok.inj taken
      refine ⟨sender.seqEnd, ?_⟩
      rw [Completion.setLink_self, Completion.setLink, Completion.setLink, Completion.setLink, Function.update_idem]

/-- The sender handles the next message of a receiver. -/
theorem Completion.Closing.advanceMaster (small : push.broadcast.seqMax < seqnumMax)
    (short : push.broadcast.data.length < 2147483648) (closing : state.Closing push) {slave : Slave}
    (member : slave ∈ push.slaves) (waiting : (state.links slave.addr).toMaster ≠ []) :
    state.Advances config push := by
  obtain ⟨done, transfers, tracks⟩ := closing.settles.1
  obtain ⟨msg, msgs, queued⟩ := List.exists_cons_of_ne_nil waiting
  obtain ⟨next, later, taken, -⟩ := tracks.toSound.takeMaster slave.addr 0
  have order : CompletionEvent.InOrder push state (.takeMaster slave.addr 0) := closing.room
  have step : completionStep config push state (.takeMaster slave.addr 0) = .ok next := taken
  have halted := fun (other : Slave) (_ : other ∈ push.slaves) => Completion.takeMaster_halted taken other.addr
  refine ⟨.takeMaster slave.addr 0, next, order, step, ?_⟩
  unfold Completion.takeMaster at taken
  dsimp only at taken
  rw [queued] at taken
  have lighter : ({ state.links slave.addr with toMaster := msgs } : Link).work push.broadcast +
      msg.weight push.broadcast = (state.links slave.addr).work push.broadcast := by
    simp only [Link.work, queued, List.map_cons, List.sum_cons]
    omega
  cases msg with
  | firstSeq bcdId seqFirst =>
      obtain ⟨handled, links⟩ := Completion.firstSeq_shape taken
      obtain ⟨calm, skipped⟩ := FinishSender.firstSeq_calm handled
      change state.finish.Calm next.finish at calm
      refine ⟨closing.keep small short order step calm.raised calm.bcdState calm.seqCur halted, ?_⟩
      refine calm.work member links skipped ?_
      rw [← lighter]
      exact Nat.add_lt_add_left (Nat.lt_succ_self 1) _
  | allDone bcdId =>
      obtain ⟨handled, links⟩ := Completion.allDone_shape taken
      obtain ⟨calm, skipped⟩ := FinishSender.allDone_calm handled
      change state.finish.Calm next.finish at calm
      refine ⟨closing.keep small short order step calm.raised calm.bcdState calm.seqCur halted, ?_⟩
      have same : next.finish.skipList.length = state.finish.skipList.length + 0 := congrArg List.length skipped
      refine calm.work member links same ?_
      rw [← lighter]
      exact Nat.add_lt_add_left Nat.zero_lt_one _
  | patchReq bcdId pt =>
      have bounded := ((tracks.links slave.addr).takeMaster queued).2 pt (List.mem_singleton_self pt)
      obtain ⟨seqEnd, rfl⟩ := Completion.patchReq_shape taken
      refine ⟨closing.keep small short order step rfl rfl rfl halted, ?_⟩
      have asked := msgPatchReq_length bounded seqEnd
      refine Completion.work_setLink member ?_
      rw [tracks.seqMax]
      rw [← lighter, ToMasterMsg.weight]
      simp only [Link.work, List.length_append]
      omega

/-- The first loop moves the head of the skip list into the array. -/
theorem Completion.Closing.advancePeek (small : push.broadcast.seqMax < seqnumMax)
    (short : push.broadcast.data.length < 2147483648) (closing : state.Closing push)
    (waiting : state.finish.skipList ≠ []) : state.Advances config push := by
  obtain ⟨finished, signalled, sound⟩ := closing.settles.1.choose_spec.choose_spec.sender
  obtain ⟨finish, moved, taken, after, side, raised, -, list, blocked⟩ := sound.peek (0, 0)
  have ready : moved ≠ [] := by
    rintro rfl
    obtain ⟨head, rest, shape⟩ := List.exists_cons_of_ne_nil waiting
    have beyond := blocked rfl head (by rw [shape]; rfl)
    have member : head ∈ finished ++ state.finish.skipList := by
      rw [shape]
      exact List.mem_append_right _ List.mem_cons_self
    exact absurd (sound.ended closing.raised member) (not_le.mpr beyond)
  have step : completionStep config push state (.sender (.peek (0, 0))) = .ok { state with finish := finish } := by
    simp only [completionStep, Completion.thread, FinishEvent.isThread, FinishEvent.Permitted, finishStep, taken]
    rfl
  have window : finish.window.idxStart = state.finish.window.idxStart :=
    after.window.idxStart.trans sound.window.idxStart.symm
  have ring : finish.ringCmd = state.finish.ringCmd := by
    unfold FinishSender.peek at taken
    split at taken
    · rw [← Except.ok.inj taken]
    · split_ifs at taken
      · split at taken
        · cases taken
        · rw [← Except.ok.inj taken]
      · rw [← Except.ok.inj taken]
  have order : CompletionEvent.InOrder push state (.sender (.peek (0, 0))) := trivial
  refine ⟨.sender (.peek (0, 0)), _, order, step, ?_, ?_⟩
  · exact closing.keep small short order step raised (congrArg (·.multi.bcdState) side)
      (congrArg (·.multi.seqCur) side) fun _ _ => rfl
  · unfold Completion.work
    dsimp only
    have positive := List.length_pos_of_ne_nil ready
    rw [window, ring, list, List.length_append]
    omega

/-- There is a time when the receivers are expired. -/
theorem FinishSender.exists_expired (sender : FinishSender) (refs : List SenderRef) :
    ∃ now, ∀ ref ∈ refs, sender.expired now ref = true := by
  have bound : ∃ seconds, ∀ ref ∈ refs, (sender.tvFastDone ref).1 + |(sender.tvFastDone ref).2| + 2 ≤ seconds := by
    induction refs with
    | nil => exact ⟨0, fun _ absent => nomatch absent⟩
    | cons ref refs ih =>
        obtain ⟨seconds, late⟩ := ih
        refine ⟨max ((sender.tvFastDone ref).1 + |(sender.tvFastDone ref).2| + 2) seconds, ?_⟩
        intro other member
        rcases List.mem_cons.mp member with rfl | later
        · exact le_max_left _ _
        · exact (late other later).trans (le_max_right _ _)
  obtain ⟨seconds, late⟩ := bound
  refine ⟨(seconds, 0), fun ref member => ?_⟩
  have passed := late ref member
  have micros := le_abs_self (sender.tvFastDone ref).2
  have positive := abs_nonneg (sender.tvFastDone ref).2
  rw [FinishSender.expired, decide_eq_true_iff, fastDoneTimeoutMsec, elapsed]
  dsimp only
  omega

/-- The second loop passes the receivers that wait in the array. -/
theorem Completion.Closing.advanceSignal (small : push.broadcast.seqMax < seqnumMax)
    (short : push.broadcast.data.length < 2147483648) (closing : state.Closing push)
    (empty : state.finish.skipList = []) (waiting : state.finish.window.idxStart ≠ push.slaves.length) :
    state.Advances config push := by
  obtain ⟨finished, signalled, sound⟩ := closing.settles.1.choose_spec.choose_spec.sender
  obtain ⟨now, expired⟩ := state.finish.exists_expired finished
  obtain ⟨finish, later, taken, after, list, -, all⟩ := sound.signal now
  have whole := all closing.dead expired
  obtain ⟨window, passed, shape, front, holds⟩ := sound.signal_shape closing.dead now
  have same := Except.ok.inj (taken.symm.trans shape)
  have step : completionStep config push state (.sender (.signal now)) = .ok { state with finish := finish } := by
    simp only [completionStep, Completion.thread, FinishEvent.isThread, FinishEvent.Permitted, finishStep, taken]
    rfl
  have order : CompletionEvent.InOrder push state (.sender (.signal now)) := trivial
  refine ⟨.sender (.signal now), _, order, step, ?_, ?_⟩
  · exact closing.keep small short order step (by rw [same]) (by rw [same]) (by rw [same]) fun _ _ => rfl
  · have start := sound.window.idxStart
    have finalStart := after.window.idxStart
    have ordered := sound.window.ordered
    have total : finished.length = push.slaves.length := by
      have count := sound.count
      have ended := (sound.late closing.raised).2
      have counted := sound.fields.reports.counted
      have created := sound.fields.reports.created
      have reports : state.finish.side.multi.pushFields.nInit = state.finish.side.multi.pushFields.nFirstSeq := ended.2
      rw [empty, List.length_nil] at count
      omega
    have few : passed.length ≤ finished.length - signalled := by
      rw [← List.length_drop]
      exact front.length_le
    have ring : finish.ringCmd.length ≤ passed.length + state.finish.ringCmd.length := by
      rw [same, List.length_append, List.length_reverse]
      exact Nat.add_le_add_right (List.length_filter_le _ _) _
    unfold Completion.work
    dsimp only
    rw [list, finalStart, start, whole, total]
    have before : ((push.slaves.length : Int) - (signalled : Nat)).toNat = push.slaves.length - signalled := by omega
    have behind : ((push.slaves.length : Int) - (push.slaves.length : Nat)).toNat = 0 := by omega
    rw [before, behind]
    have inside : signalled < push.slaves.length := by
      rw [start] at waiting
      omega
    have more : finish.ringCmd.length ≤ push.slaves.length - signalled + state.finish.ringCmd.length := by omega
    have scaled := Nat.mul_le_mul_left (3 * push.broadcast.seqMax + 3) more
    rw [Nat.mul_add] at scaled
    have split : (3 * push.broadcast.seqMax + 4) * (push.slaves.length - signalled) =
        (3 * push.broadcast.seqMax + 3) * (push.slaves.length - signalled) + (push.slaves.length - signalled) := by ring
    omega

/-- The oldest command enters the send queue of its receiver. -/
theorem Completion.Closing.advanceCommand (small : push.broadcast.seqMax < seqnumMax)
    (short : push.broadcast.data.length < 2147483648) (closing : state.Closing push)
    (waiting : state.finish.ringCmd ≠ []) : state.Advances config push := by
  have step : completionStep config push state (.sender .command) =
      .ok { state.sendFastDone push.broadcast with finish := state.finish.command } := rfl
  have order : CompletionEvent.InOrder push state (.sender .command) := trivial
  refine ⟨.sender .command, _, order, step, closing.keep small short order step rfl rfl rfl ?_, ?_⟩
  · intro slave _
    exact @Completion.thread_halted config push state .command _ step slave.addr
  · obtain ⟨ref, last⟩ := Option.ne_none_iff_exists'.mp (mt List.getLast?_eq_none_iff.mp waiting)
    have sent : state.sendFastDone push.broadcast = state.setLink ref.addr { state.links ref.addr with
        toReceiver := (state.links ref.addr).toReceiver ++ [.fastDone push.broadcast.bcdId] } := by
      simp only [Completion.sendFastDone, last]
    have summed := @Completion.links_setLink_le ref.addr state { state.links ref.addr with
        toReceiver := (state.links ref.addr).toReceiver ++ [.fastDone push.broadcast.bcdId] } push.broadcast
      (3 * push.broadcast.seqMax + 2) (by
        simp only [Link.work, List.map_append, List.sum_append, List.map_cons, List.map_nil, List.sum_cons,
          List.sum_nil, ToReceiverMsg.weight]
        omega) push.slaves push.distinct
    rw [← sent] at summed
    have shorter : state.finish.command.ringCmd.length + 1 = state.finish.ringCmd.length := by
      rw [FinishSender.command, List.length_dropLast]
      exact Nat.sub_add_cancel (List.length_pos_of_ne_nil waiting)
    unfold Completion.work
    dsimp only
    rw [← shorter, Nat.mul_add]
    change _ + _ + _ * ((push.slaves.length : Int) - state.finish.window.idxStart).toNat + state.finish.skipList.length <
      _
    omega

end Master

/-- While something is left to do, a step leaves less. -/
theorem Completion.Closing.advance (small : push.broadcast.seqMax < seqnumMax)
    (short : push.broadcast.data.length < 2147483648) (closing : state.Closing push) (busy : ¬state.Quiet push) :
    state.Advances config push := by
  by_contra stuck
  apply busy
  have links : ∀ slave ∈ push.slaves, (state.links slave.addr).Idle := by
    intro slave member
    constructor
    · exact not_not.mp fun waiting => stuck (closing.advanceReceiver small short member (.inl waiting))
    · exact not_not.mp fun waiting => stuck (closing.advanceMaster small short member waiting)
    · exact not_not.mp fun waiting => stuck (closing.advancePatch small short member waiting)
    · exact not_not.mp fun waiting => stuck (closing.advanceReceiver small short member (.inr waiting))
  have empty : state.finish.skipList = [] :=
    not_not.mp fun waiting => stuck (closing.advancePeek small short waiting)
  refine ⟨?_, ?_, links⟩
  · exact not_not.mp fun waiting => stuck (closing.advanceSignal small short empty waiting)
  · exact not_not.mp fun waiting => stuck (closing.advanceCommand small short waiting)

end Steps

/-- What a run must have done before the push can be completed without another packet: all receivers reported and were
sent their last packet, the path was released, and no receiver failed. -/
structure Completion.Sent (push : FilePush) (state : Completion) : Prop where
  raised : state.finish.raised = true
  dead : state.finish.side.multi.bcdState = .dead
  room : state.finish.side.multi.seqCur + push.broadcast.seqMax ≤ 4294967296
  running : ∀ slave ∈ push.slaves, (state.links slave.addr).halted = false

end RepublicAgent
