/-
This file says which fault can end a receiver of a push.
-/

import RepublicAgent.Completion.Delivery

namespace RepublicAgent
open Execution MachineInteger

/-- A step that ends a receiver processes a packet behind a wrap whose file start is set already. -/
def CompletionEvent.HaltsRight (config : AgentConfig) (push : FilePush) (state : Completion) (event : CompletionEvent) :
    Prop :=
  ∀ next, completionStep config push state event = .ok next → ∀ addr, (state.links addr).halted = false →
    (next.links addr).halted = true → ∃ seq opens recv, event = .packet addr seq opens ∧
      (state.links addr).recv = some recv ∧
      processRings recv (push.broadcast.packet (seq % push.broadcast.seqMax)) = .error .fileStartUnset

section Links

variable {b : Broadcast} {t : Transfer} {link : Link}

/-- The control thread passes every report on. -/
theorem Link.Follows.takeN2c_completes (follows : link.Follows b t)
    (silent : link.recv = none → link.n2c = [] ∧ link.toMaster = []) : ∃ next, link.takeN2c = .ok next := by
  unfold Link.takeN2c
  cases piped : link.n2c with
  | nil => exact ⟨link, rfl⟩
  | cons msg msgs =>
      cases present : link.recv with
      | none =>
          rw [(silent present).1] at piped
          cases piped
      | some recv =>
          obtain ⟨rfl, -⟩ := follows.born present
          have knows := follows.orderly.covered.knows
          have several (bcdId : BcdID) (reports : msg = .seqZero bcdId ∨ msg = .seqAll bcdId) : t.recv.seqMax ≠ 1 := by
            have many := follows.several bcdId (by
              rw [piped]
              rcases reports with rfl | rfl
              · exact .inl List.mem_cons_self
              · exact .inr List.mem_cons_self)
            cases known : t.recv.isSeqZero with
            | true => rwa [(knows.learned known).1]
            | false =>
                rw [(knows.unlearned known).1]
                exact Nat.zero_ne_one
          dsimp only
          unfold n2cHandler
          cases msg with
          | seqFirst bcdId seq => exact ⟨_, rfl⟩
          | seqZero bcdId =>
              dsimp only
              rw [if_neg (several bcdId (.inl rfl))]
              exact ⟨_, rfl⟩
          | seqAll bcdId =>
              dsimp only
              rw [if_neg (several bcdId (.inr rfl))]
              exact ⟨_, rfl⟩
          | seqJump bcdId pt => exact ⟨_, rfl⟩

/-- A patch in order and the end of the transfer are handled. -/
theorem Link.Follows.takeReceiver_completes (short : b.data.length < 2147483648) (follows : link.Follows b t)
    (begun : 0 < link.signals t → t.recv.isSeqFst = true) : ∃ next, link.takeReceiver = .ok next := by
  unfold Link.takeReceiver
  cases queued : link.toReceiver with
  | nil => exact ⟨link, rfl⟩
  | cons msg msgs =>
      have fixed : t.recv.isSeqFst = true := by
        cases msg with
        | fastDone bcdId =>
            apply begun
            rw [Link.signals, queued]
            exact Nat.lt_of_lt_of_le (List.countP_pos_iff.mpr ⟨_, List.mem_cons_self, rfl⟩) (Nat.le_add_right _ _)
        | patchData pkt =>
            by_contra unstarted
            have empty := follows.queue
            rw [follows.orderly.covered.fresh (by simpa using unstarted), Link.undelivered, queued] at empty
            cases empty
      have started := follows.started
      rw [fixed] at started
      obtain ⟨recv, present⟩ := Option.isSome_iff_exists.mp started.symm
      obtain ⟨rfl, -⟩ := follows.born present
      rw [present]
      cases msg with
      | fastDone bcdId => exact ⟨_, rfl⟩
      | patchData pkt =>
          have oldest : t.pending[0]? = some pkt.seqNum := by
            rw [follows.queue, Link.undelivered, queued]
            rfl
          obtain ⟨opened, outcome, counting⟩ := follows.orderly.patch_completes short fixed oldest
          have exact := follows.patches pkt (queued ▸ List.mem_cons_self)
          rw [exact]
          have handled : ∃ result, msgPatchData t.recv (b.packet pkt.seqNum) = .ok result := by
            unfold msgPatchData
            rw [counting]
            exact ⟨_, rfl⟩
          obtain ⟨result, handled⟩ := handled
          have processed : processPatch t.recv (b.packet pkt.seqNum) = .ok result := by
            rw [processPatch, handled]
            dsimp only
            rw [if_neg fun missing => by rw [missing.1] at opened; cases opened]
          simp only [processed]
          exact ⟨_, rfl⟩

/-- The first packet is always taken. -/
theorem fresh_processPacket (b : Broadcast) {seq : Nat} (inside : seq < b.seqMax) :
    ∃ outcome, processPacket (Transfer.fresh b).recv (b.packet seq) = .ok outcome := by
  have bounded := b.seqMax_lt
  have shape : fastPathFirst (Transfer.fresh b).recv seq = _ := fastPathFirst_fresh rfl (by omega)
  obtain ⟨counted, flags, counting, -⟩ := @fastPathCount_completes b (Transfer.fresh b).recv seq
    ((fresh_knows b).first seq) inside ((fresh_covered b).last inside) (by
      rw [shape]
      exact fun wrap => absurd wrap.2.1 (Nat.lt_irrefl seq))
  have rings : ∃ outcome, processRings (Transfer.fresh b).recv (b.packet seq) = .ok outcome := by
    rw [processRings, if_pos (show (Transfer.fresh b).recv.isFastpath = true from rfl), counting]
    exact ⟨_, rfl⟩
  obtain ⟨outcome, rings⟩ := rings
  refine ⟨outcome, ?_⟩
  rw [processPacket, rings]
  refine if_neg ?_
  rintro ⟨-, closed, -⟩
  cases closed

/-- A packet fails only the assert of the wrap branch that the start of the file is unset. -/
theorem Link.Follows.packet_error (follows : link.Follows b t) {seq : Nat} {opens : Bool} {fault : Fault}
    (failed : link.packet b seq opens = .error fault) : ∃ recv, link.recv = some recv ∧
      processRings recv (b.packet (seq % b.seqMax)) = .error .fileStartUnset := by
  have inside := Nat.mod_lt seq b.seqMax_pos
  unfold Link.packet at failed
  cases present : link.recv with
  | none =>
      rw [present] at failed
      dsimp only at failed
      split_ifs at failed
      obtain ⟨outcome, processed⟩ := fresh_processPacket b inside
      change link.process b (Transfer.fresh b).recv seq = _ at failed
      rw [Link.process, processed] at failed
      cases failed
  | some recv =>
      rw [present] at failed
      obtain ⟨rfl, fixed⟩ := follows.born present
      refine ⟨_, rfl, ?_⟩
      dsimp only at failed
      unfold Link.process processPacket at failed
      cases rings : processRings t.recv (b.packet (seq % b.seqMax)) with
      | error assertion =>
          have running : t.recv.isFastpath = true := by
            by_contra stopped
            rw [processRings, if_neg stopped] at rings
            cases rings
          rw [(follows.orderly.packet_error fixed running inside).2 assertion rings]
      | ok outcome =>
          rw [rings] at failed
          dsimp only at failed
          split_ifs at failed with closed
          have opened := (follows.orderly.packet_error fixed closed.1 inside).1
          rw [closed.2.1] at opened
          cases opened

theorem Link.survive_halted {outcome : Except Fault Link} (running : link.halted = false)
    (kept : ∀ next, outcome = .ok next → next.halted = link.halted) (halted : (link.survive outcome).halted = true) :
    ∃ fault, outcome = .error fault := by
  unfold Link.survive at halted
  rw [if_neg (by simp [running])] at halted
  cases outcome with
  | error fault => exact ⟨fault, rfl⟩
  | ok next =>
      rw [kept next rfl, running] at halted
      cases halted

/-- The handlers that complete leave the flag. -/
theorem Link.packet_halted {next : Link} {seq : Nat} {opens : Bool} (taken : link.packet b seq opens = .ok next) :
    next.halted = link.halted := by
  unfold Link.packet Link.process at taken
  split at taken
  · split at taken
    · cases taken
    · rw [← Except.ok.inj taken]
  · split_ifs at taken
    · split at taken
      · cases taken
      · rw [← Except.ok.inj taken]
    · rw [← Except.ok.inj taken]

theorem Link.takeN2c_halted {next : Link} (taken : link.takeN2c = .ok next) : next.halted = link.halted := by
  unfold Link.takeN2c at taken
  split at taken
  · rw [← Except.ok.inj taken]
  · cases taken
  · split at taken
    · cases taken
    · rw [← Except.ok.inj taken]

theorem Link.takeReceiver_halted {next : Link} (taken : link.takeReceiver = .ok next) : next.halted = link.halted := by
  unfold Link.takeReceiver at taken
  split at taken
  · rw [← Except.ok.inj taken]
  · cases taken
  · split at taken
    · cases taken
    · rw [← Except.ok.inj taken]
  · rw [← Except.ok.inj taken]

end Links

section Steps

variable {config : AgentConfig} {push : FilePush} {done : List Nat} {transfers : Nat → Transfer} {state : Completion}
  {addr : Nat}

theorem Completion.setLink_halted {link : Link} (same : link.halted = (state.links addr).halted) (other : Nat) :
    ((state.setLink addr link).links other).halted = (state.links other).halted := by
  by_cases equal : other = addr
  · subst equal
    rw [Completion.setLink_self, same]
  · rw [Completion.setLink_of_ne state link equal]

/-- The steps of the sender end no receiver. -/
theorem Completion.thread_halted {event : FinishEvent} {next : Completion}
    (taken : state.thread config push event = .ok next) (other : Nat) :
    (next.links other).halted = (state.links other).halted := by
  rcases Completion.thread_cases taken with rfl | ⟨-, -, finish, -, rfl⟩
  · rfl
  · show ((if event = .command then state.sendFastDone push.broadcast else state).links other).halted = _
    split_ifs
    · unfold Completion.sendFastDone
      split
      · rfl
      · refine Completion.setLink_halted ?_ other
        rfl
    · rfl

theorem Completion.takeMaster_halted {place : Nat} {next : Completion}
    (taken : state.takeMaster addr place = .ok next) (other : Nat) :
    (next.links other).halted = (state.links other).halted := by
  unfold Completion.takeMaster at taken
  dsimp only at taken
  split at taken
  · obtain rfl := Except.ok.inj taken
    rfl
  · next msg msgs _ =>
      cases msg with
      | firstSeq bcdId seqFirst =>
          rw [(Completion.firstSeq_shape taken).2]
          refine Completion.setLink_halted ?_ other
          rfl
      | allDone bcdId =>
          rw [(Completion.allDone_shape taken).2]
          refine Completion.setLink_halted ?_ other
          rfl
      | patchReq bcdId pt =>
          dsimp only at taken
          unfold Completion.patchReq at taken
          split at taken
          · cases taken
          · obtain rfl := Except.ok.inj taken
            refine (Completion.setLink_halted ?_ other).trans (Completion.setLink_halted ?_ other)
            · rfl
            · rfl

/-- A step of one receiver ends no other one. -/
theorem Completion.survive_halted {outcome : Except Fault Link} {other : Nat}
    (running : (state.links other).halted = false)
    (kept : ∀ next, outcome = .ok next → next.halted = (state.links addr).halted)
    (halted : ((state.setLink addr ((state.links addr).survive outcome)).links other).halted = true) :
    other = addr ∧ ∃ fault, outcome = .error fault := by
  by_cases same : other = addr
  · subst same
    rw [Completion.setLink_self] at halted
    exact ⟨rfl, Link.survive_halted running kept halted⟩
  · rw [Completion.setLink_of_ne state _ same, running] at halted
    cases halted

/-- Only the wrap branch of the fast path ends a receiver. -/
theorem Completion.Tracks.haltsRight (short : push.broadcast.data.length < 2147483648)
    (tracks : state.Tracks push done transfers) (event : CompletionEvent) : event.HaltsRight config push state := by
  intro next taken other running halted
  have kept (same : (next.links other).halted = (state.links other).halted) : False := by
    rw [same, running] at halted
    cases halted
  cases event with
  | sender event => exact (kept (Completion.thread_halted taken other)).elim
  | sendPatch addr index payload =>
      obtain rfl := Except.ok.inj taken
      refine (kept ?_).elim
      unfold Completion.sendPatch
      dsimp only
      split
      · rfl
      · refine Completion.setLink_halted ?_ other
        rfl
  | packet addr seq opens =>
      dsimp only [completionStep] at taken
      split_ifs at taken with receiver
      · obtain rfl := Except.ok.inj taken
        obtain ⟨rfl, fault, failed⟩ := Completion.survive_halted running (fun next moved => Link.packet_halted moved)
          halted
        obtain ⟨recv, present, unset⟩ := (tracks.follows other).packet_error failed
        exact ⟨seq, opens, recv, rfl, present, unset⟩
      · obtain rfl := Except.ok.inj taken
        exact (kept rfl).elim
  | takeN2c addr =>
      obtain rfl := Except.ok.inj taken
      obtain ⟨after, moved⟩ := (tracks.follows addr).takeN2c_completes (tracks.links addr).silent
      obtain ⟨rfl, fault, failed⟩ := Completion.survive_halted running
        (fun next moved => Link.takeN2c_halted moved) halted
      rw [moved] at failed
      cases failed
  | takeReceiver addr =>
      obtain rfl := Except.ok.inj taken
      obtain ⟨after, moved⟩ := (tracks.follows addr).takeReceiver_completes short fun sent =>
        tracks.begun (tracks.heard sent)
      obtain ⟨rfl, fault, failed⟩ := Completion.survive_halted running
        (fun next moved => Link.takeReceiver_halted moved) halted
      rw [moved] at failed
      cases failed
  | takeMaster addr place => exact (kept (Completion.takeMaster_halted taken other)).elim

end Steps

/-- Four packets of one byte for one receiver. -/
def fourBytesPush : FilePush where
  toPush := { twoPackets with
    dataSize := 4
    created := (createBcdState 4 1).get rfl
    stored := rfl
    seqMaxPositive := by decide }
  broadcast := fourBytes
  size := rfl
  payload := rfl

end RepublicAgent
