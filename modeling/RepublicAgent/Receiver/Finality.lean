/-
This file says when the metadata that a receiver reads early are the ones of the finished file.
-/

import RepublicAgent.Receiver.Faithful

namespace RepublicAgent
open CyclicWindow Execution MachineInteger

/-- The metadata of the finished file follow from the first packet and the tail. -/
def finalMetadata (b : Broadcast) (recv : RecverState) : FileMetadata where
  start := if recv.seqFst = 0 then 0 else ((b.front recv.seqTail - b.offset recv.seqFst : Nat) : Int)
  jump := b.front recv.seqTail

/-- Metadata that are known are the ones of the finished file. -/
def Settled (b : Broadcast) (recv : RecverState) : Prop :=
  recv.isSeqZero = true → recv.fileMetadata = finalMetadata b recv

/-- The packet before the first one stops the fast path also when it was rejected. It keeps the metadata
when they are unknown and it is not a rejected packet zero. -/
def TransferEvent.keepsMetadata {b : Broadcast} (t : Transfer) : TransferEvent b → Prop
  | .packet seq => t.recv.isFastpath = true → seq.val + 1 = t.recv.seqFst → t.recv.seqFst ≤ t.recv.seqLst →
      t.recv.isSeqZero = false ∧
        ¬(seq.val = 0 ∧ t.recv.seqLst = t.recv.seqFst ∧ t.recv.seqLst + 1 ≠ b.seqMax)
  | _ => True

instance TransferEvent.decidableKeeps {b : Broadcast} (t : Transfer) :
    ∀ event : TransferEvent b, Decidable (event.keepsMetadata t)
  | .packet _ => inferInstanceAs (Decidable (_ → _ → _ → _ ∧ ¬_))
  | .patch _ | .fastDone => inferInstanceAs (Decidable True)

/-- Counting a packet keeps known metadata and learns the final jump position. -/
structure Learned (b : Broadcast) (recv counted : RecverState) : Prop where
  kept : recv.isSeqZero = true → counted.isSeqZero = true ∧ counted.fileMetadata = recv.fileMetadata ∧
    counted.seqFst = recv.seqFst ∧ counted.seqTail = recv.seqTail
  jump : recv.isSeqZero = false → counted.isSeqZero = true →
    counted.fileMetadata.jump = b.front counted.seqTail

section Counting

variable {b : Broadcast} {recv counted : RecverState} {flags : PacketFlags} {received : List Nat} {seq : Nat}

theorem Stored.tailInside (stored : Stored b recv received) : recv.seqTail < b.seqMax := by
  have positive := b.seqMax_pos
  by_cases wrapped : recv.seqTail = 0
  · omega
  · exact (stored.tailOrder wrapped).2

/-- Known metadata have a start inside the file. -/
theorem Stored.start_known (stored : Stored b recv received) (known : recv.isSeqZero = true) :
    recv.fileMetadata.start = (finalMetadata b recv).start := by
  rcases stored.start with ⟨_, unknown, _⟩ | ⟨_, set⟩
  · exact absurd (unknown.symm.trans known) (by simp)
  · exact set

theorem Stored.metadata (stored : Stored b recv received) (known : recv.isSeqZero = true)
    (jump : recv.fileMetadata.jump = b.front recv.seqTail) : recv.fileMetadata = finalMetadata b recv := by
  have start := stored.start_known known
  cases metadata : recv.fileMetadata with
  | mk first second =>
      rw [metadata] at start jump
      rw [finalMetadata, FileMetadata.mk.injEq]
      exact ⟨start, jump⟩

/-- Packet zero brings the final jump position. -/
theorem learn_jump (short : b.data.length < 2147483648) (knows : Knows b recv)
    (unknown : recv.isSeqZero = false) (inside : recv.seqTail < b.seqMax) :
    (recv.learn b.metadata).fileMetadata.jump = b.front recv.seqTail := by
  have upper := b.front_le recv.seqTail
  have measured := (learn_tail short knows unknown inside).1
  have jump : (recv.learn b.metadata).fileMetadata.jump =
      b.data.length - (recv.learn b.metadata).tailPatchBufferLen := rfl
  rw [jump, measured]
  omega

theorem FastCase.learned (short : b.data.length < 2147483648) (branch : FastCase b recv seq counted flags)
    (knows : Knows b recv) (stored : Stored b recv received) : Learned b recv counted := by
  have stays {next : RecverState} (zero : next.isSeqZero = recv.isSeqZero)
      (metadata : next.fileMetadata = recv.fileMetadata) (fst : next.seqFst = recv.seqFst)
      (tail : next.seqTail = recv.seqTail) : Learned b recv next :=
    ⟨fun known => ⟨zero.trans known, metadata, fst, tail⟩,
      fun unknown known => absurd (unknown.symm.trans (zero.symm.trans known)) (by simp)⟩
  have learns {next : RecverState} (unknown : recv.isSeqZero = false)
      (metadata : next.fileMetadata = (recv.learn b.metadata).fileMetadata)
      (tail : next.seqTail = recv.seqTail) : Learned b recv next := by
    refine ⟨fun known => absurd (unknown.symm.trans known) (by simp), fun _ _ => ?_⟩
    rw [metadata, tail]
    exact learn_jump short knows unknown stored.tailInside
  cases branch with
  | inOrder | jump => exact stays rfl rfl rfl rfl
  | zeroInOrder _ unknown | zeroJump _ unknown =>
      exact learns unknown (accept_fileMetadata ..) ((accept_seqTail ..).trans (learn_seqTail ..))
  | zeroRejected _ unknown => exact learns unknown rfl (learn_seqTail ..)
  | zeroAgain | jumpRejected | behind => exact stays rfl rfl rfl rfl
  | wrap _ _ _ _ start =>
      constructor
      · intro known
        have set := stored.start_known known
        rw [start] at set
        unfold finalMetadata at set
        split_ifs at set
      · intro unknown known
        exact absurd (unknown.symm.trans known) (by simp)

theorem SlowCase.learned {flag : Bool} (short : b.data.length < 2147483648)
    (branch : SlowCase b recv seq counted flag) (knows : Knows b recv) (stored : Stored b recv received) :
    Learned b recv counted := by
  cases branch with
  | tail | outOfRange | zeroAgain | inside =>
      exact ⟨fun known => ⟨known, rfl, rfl, rfl⟩,
        fun unknown known => absurd (unknown.symm.trans known) (by simp)⟩
  | zeroLearns _ _ unknown =>
      refine ⟨fun known => absurd (unknown.symm.trans known) (by simp), fun _ _ => ?_⟩
      rw [patch_fileMetadata, patch_seqTail, learn_seqTail]
      exact learn_jump short knows unknown stored.tailInside

theorem Learned.settled (learned : Learned b recv counted) (settled : Settled b recv)
    (stored : Stored b counted received) : Settled b counted := by
  intro known
  cases before : recv.isSeqZero with
  | true =>
      obtain ⟨_, metadata, fst, tail⟩ := learned.kept before
      rw [metadata, settled before]
      unfold finalMetadata
      rw [fst, tail]
  | false => exact stored.metadata known (learned.jump before known)

/-- A receiver that finishes with every packet has the final metadata. -/
theorem Stored.finish_metadata (stored : Stored b recv received) (fstInside : recv.seqFst < b.seqMax)
    (known : recv.isSeqZero = true) (all : ∀ seq < b.seqMax, seq ∈ received) (opened : recv.fdP.isSome = true) :
    (recverStateFinishRecv recv).fileMetadata = finalMetadata b recv := by
  have ordered : recv.seqTail ≠ 0 → recv.seqFst < recv.seqTail := fun wrapped => (stored.tailOrder wrapped).1
  have jump : (recverStateFinishRecv recv).fileMetadata.jump = b.front recv.seqTail := by
    show (if recv.fdP.isSome then (recv.file.length : Int) else recv.fileMetadata.jump) = _
    rw [if_pos opened, stored.file_eq fstInside all, b.layout_length ordered]
  have start : (recverStateFinishRecv recv).fileMetadata.start = (finalMetadata b recv).start :=
    stored.start_known known
  rw [finalMetadata, ← jump]
  exact congrArg (FileMetadata.mk · _) start

/-- The last optical packet ends at the end of the front when it was accepted. -/
theorem Positioned.ends (positioned : Positioned b recv received) (knows : Knows b recv)
    (known : recv.isSeqZero = true) (inside : seq < b.seqMax) (accepted : recv.seqLst = seq)
    (last : isLastOptical recv seq = true) : recv.fdP = some (b.front recv.seqTail) := by
  have bounded := b.seqMax_lt
  have grows := b.offset_lt_succ inside
  have lower := b.offset_le_front fun wrapped => (positioned.tailOrder wrapped).1
  simp only [isLastOptical, u32_succ (show seq + 1 < 4294967296 by omega), (knows.learned known).1,
    decide_eq_true_eq] at last
  rw [positioned.stream, accepted]
  congr 1
  rcases last with ⟨nonzero, next⟩ | ⟨zero, next⟩
  · rw [next] at grows ⊢
    unfold Broadcast.place
    rw [if_neg (by omega)]
    omega
  · have flat : recv.seqTail = 0 := by
      by_contra wrapped
      have half := positioned.half wrapped
      omega
    rw [next, b.offset_seqMax] at grows ⊢
    unfold Broadcast.place Broadcast.front
    rw [zero, flat, if_pos (Nat.zero_le _), if_pos rfl, b.offset_zero]
    omega

/-- A packet that keeps the metadata and is the last optical one was accepted when the metadata are known. -/
theorem FastCase.last_accepted (branch : FastCase b recv seq counted flags) (inside : seq < b.seqMax)
    (knows : Knows b counted) (unwrapped : recv.seqLst + 1 ≠ recv.seqFst)
    (zeroFirst : recv.seqFst = 0 → recv.seqLst + 1 < b.seqMax)
    (keeps : seq + 1 = recv.seqFst → recv.seqFst ≤ recv.seqLst → recv.isSeqZero = false ∧
      ¬(seq = 0 ∧ recv.seqLst = recv.seqFst ∧ recv.seqLst + 1 ≠ b.seqMax))
    (known : counted.isSeqZero = true) (last : isLastOptical counted seq = true) : counted.seqLst = seq := by
  have bounded := b.seqMax_lt
  have frame := branch.frame
  simp only [isLastOptical, u32_succ (show seq + 1 < 4294967296 by omega), (knows.learned known).1,
    decide_eq_true_eq, frame.2.1] at last
  cases branch with
  | inOrder | zeroInOrder | zeroJump | jump | wrap => rfl
  | zeroRejected zero unknown gap start outside =>
      exfalso
      rcases last with ⟨nonzero, next⟩ | ⟨first, next⟩
      · exact (keeps next (by omega)).2 ⟨zero, by omega, by omega⟩
      · have short := zeroFirst first
        omega
  | zeroAgain zero again =>
      exfalso
      rcases last with ⟨nonzero, next⟩ | ⟨first, next⟩
      · have unknown := (keeps next (by omega)).1
        exact absurd (unknown.symm.trans again) (by simp)
      · have short := zeroFirst first
        omega
  | jumpRejected beyond low high => omega
  | behind nonzero before outside =>
      exfalso
      rcases last with ⟨_, next⟩ | ⟨first, next⟩
      · have unknown := (keeps next (by omega)).1
        exact absurd (unknown.symm.trans known) (by simp)
      · have short := zeroFirst first
        omega

/-- The end of the fast path settles the metadata of a finished receiver. It keeps settled metadata of every
other one whose stream is at the end of the front. -/
theorem Positioned.last_settled (positioned : Positioned b recv received) (unfinished : recv.isFinished = false)
    (fstInside : recv.seqFst < b.seqMax)
    (complete : (fastPathLast recv seq).1.isFinished = true →
      recv.isSeqZero = true ∧ ∀ seq < b.seqMax, seq ∈ received) :
    ((fastPathLast recv seq).1.isFinished = true → Settled b (fastPathLast recv seq).1) ∧
      (Settled b recv → (recv.isSeqZero = true → isLastOptical recv seq = true →
        recv.fdP = some (b.front recv.seqTail)) → Settled b (fastPathLast recv seq).1) := by
  unfold fastPathLast fastPathTest at complete ⊢
  split_ifs at complete ⊢ with last gotten
  · have finished : Settled b (recverStateFinishRecv (fastPathStop recv)) := by
      intro _
      obtain ⟨known, all⟩ := complete rfl
      apply positioned.toStored.stop.finish_metadata fstInside known all
      show recv.fdP.isSome = true
      rw [positioned.stream]
      rfl
    exact ⟨fun _ => finished, fun _ _ => finished⟩
  · refine ⟨fun closed => absurd (unfinished.symm.trans closed) (by simp), ?_⟩
    intro settled ends known
    have start := positioned.toStored.start_known known
    have jump : ftell recv.fdP = b.front recv.seqTail := by
      rw [ends known last]
      rfl
    show FileMetadata.mk recv.fileMetadata.start (ftell recv.fdP) = finalMetadata b (fastPathStop recv)
    rw [start, jump]
    rfl
  · exact ⟨fun closed => absurd (unfinished.symm.trans closed) (by simp), fun settled _ => settled⟩

/-- The completion test of the control channel settles the metadata of a finished receiver and keeps
settled metadata. -/
theorem Positioned.test_settled (positioned : Positioned b recv received) (unfinished : recv.isFinished = false)
    (fstInside : recv.seqFst < b.seqMax)
    (complete : (patchDataTest recv).1.isFinished = true →
      recv.isSeqZero = true ∧ ∀ seq < b.seqMax, seq ∈ received) :
    ((patchDataTest recv).1.isFinished = true → Settled b (patchDataTest recv).1) ∧
      (Settled b recv → Settled b (patchDataTest recv).1) := by
  unfold patchDataTest at complete ⊢
  split_ifs at complete ⊢ with gotten
  · have finished : Settled b (recverStateFinishRecv recv) := by
      intro _
      obtain ⟨known, all⟩ := complete rfl
      exact positioned.toStored.finish_metadata fstInside known all (by rw [positioned.stream]; rfl)
    exact ⟨fun _ => finished, fun _ => finished⟩
  · exact ⟨fun closed => absurd (unfinished.symm.trans closed) (by simp), id⟩

end Counting

/-- One constructor for each way in which an event changes a receiver. -/
inductive Ending (b : Broadcast) (t next : Transfer) : TransferEvent b → Prop
  | idle (event : TransferEvent b) (same : next.recv = t.recv) : Ending b t next event
  | stopped (unfinished : t.recv.isFinished = false) (shape : next.recv = recverStateStopFathPath t.recv) :
      Ending b t next .fastDone
  | packet (seq : Fin b.seqMax) (counted : RecverState) (running : t.recv.isFastpath = true)
      (fixed : next.recv.isSeqFst = true) (learned : Learned b t.recv counted)
      (positioned : Positioned b counted (next.fastLog ++ next.slowLog)) (knows : Knows b counted)
      (unfinished : counted.isFinished = false) (shape : next.recv = (fastPathLast counted seq).1)
      (accepted : TransferEvent.keepsMetadata t (.packet seq) → counted.isSeqZero = true →
        isLastOptical counted seq = true → counted.seqLst = seq) :
      Ending b t next (.packet seq)
  | patch (counted : RecverState) (fixed : next.recv.isSeqFst = true) (learned : Learned b t.recv counted)
      (positioned : Positioned b counted (next.fastLog ++ next.slowLog))
      (unfinished : counted.isFinished = false) (shape : next.recv = (patchDataTest counted).1) :
      Ending b t next (.patch 0)

section Steps

variable {b : Broadcast} {round : Nat} {t next : Transfer}

/-- The first packet is accepted and learns the metadata when it is packet zero. -/
theorem fresh_ending (short : b.data.length < 2147483648) (seq : Fin b.seqMax)
    (completed : transferStep b round (Transfer.fresh b) (.packet seq) = .ok next) :
    Ending b (Transfer.fresh b) next (.packet seq) := by
  obtain ⟨active, covered⟩ := fresh_packet b seq completed
  obtain ⟨counted, flags, counting, rfl⟩ := transferStep_packet rfl completed
  obtain ⟨positioned, unfinished, fast⟩ := fresh_positioned short seq counting
  have bounded := b.seqMax_lt
  have inside := seq.isLt
  have first : fastPathFirst (Transfer.fresh b).recv seq = _ := fastPathFirst_fresh rfl (by omega)
  have knows := (fresh_knows b).first seq
  have branch := fastPathCount_cases knows inside (by rw [first]; dsimp only; split_ifs <;> omega) counting
  obtain ⟨accepted, calm, shape⟩ := FastCase.first rfl rfl inside branch
  have lst : counted.seqLst = seq := by
    rw [shape]
    split_ifs <;> rfl
  refine .packet seq counted rfl active ⟨nofun, ?_⟩ (positioned.mono ?_) (branch.knows knows) unfinished rfl
    fun _ _ _ => lst
  · intro _ known
    rw [shape] at known ⊢
    split_ifs at known ⊢ with zero
    · rw [accept_fileMetadata, accept_seqTail, learn_seqTail]
      exact learn_jump short knows (by rw [first]; rfl) (by rw [first]; exact b.seqMax_pos)
    · rw [accept_isSeqZero, first] at known
      cases known
  · intro other (member : other ∈ (if 0 < counted.numFastRecvEd then [] ++ [seq.val] else []) ++ [])
    rw [fast, if_pos Nat.one_pos] at member
    simpa using member

/-- Every completed event in the order of the requests is one of the endings. -/
theorem Faithful.ending (small : b.seqMax < seqnumMax) (short : b.data.length < 2147483648)
    (faithful : Faithful b t) (event : TransferEvent b) (order : event.fifo)
    (completed : transferStep b round t event = .ok next) : Ending b t next event := by
  cases fixed : t.recv.isSeqFst with
  | false =>
      obtain rfl := faithful.covered.fresh fixed
      cases event with
      | packet seq => exact fresh_ending short seq completed
      | patch index => exact .idle _ (by rw [← Except.ok.inj completed])
      | fastDone => exact .idle _ (by rw [← Except.ok.inj completed])
  | true =>
      have knows := faithful.covered.knows
      have started := faithful.covered.started fixed
      cases event with
      | packet seq =>
          cases running : t.recv.isFastpath with
          | false =>
              rw [transferStep_packet_stopped running] at completed
              exact .idle _ (by rw [← Except.ok.inj completed])
          | true =>
              obtain ⟨unclosed, unfinished, unwrapped, zeroFirst⟩ := started.running running
              obtain ⟨active, -⟩ := started.packet small knows fixed running seq completed
              obtain ⟨counted, flags, counting, rfl⟩ := transferStep_packet running completed
              obtain ⟨branch, positioned⟩ := faithful.packet_positioned small short fixed running seq counting
              have stored := (faithful.placed fixed unfinished).positioned.toStored
              exact .packet seq counted running active (branch.learned short knows stored)
                (positioned.mono branch.logged) (branch.knows knows)
                (branch.frame.2.2.2.2.1.trans unfinished) rfl
                (fun keeps => branch.last_accepted seq.isLt (branch.knows knows) unwrapped
                  (fun first => (zeroFirst first).2) (keeps running))
      | patch index =>
          obtain rfl : index = 0 := order
          obtain ⟨active, -⟩ := started.patch knows fixed completed
          rcases transferStep_patch completed with rfl | ⟨seq, recv, counted, requested, counting, rfl⟩
          · exact .idle _ rfl
          · have unfinished := started.unfinished (List.mem_of_getElem? requested)
            have stored := (faithful.placed fixed unfinished).positioned.toStored
            obtain ⟨branch, rfl, positioned⟩ := faithful.patch_positioned short fixed requested counting
            exact .patch recv active (branch.learned short knows stored) positioned
              (branch.frame.2.2.2.2.2.2.1.trans unfinished) rfl
      | fastDone =>
          rcases transferStep_fastDone completed with rfl | ⟨_, unclosed, rfl⟩
          · exact .idle _ rfl
          · cases finished : t.recv.isFinished with
            | true =>
                have same : (msgFastDone t.recv).1 = t.recv := by rw [msgFastDone_recv, if_pos finished]
                exact .idle _ same
            | false =>
                have stopped : (msgFastDone t.recv).1 = recverStateStopFathPath t.recv := by
                  rw [msgFastDone_recv, if_neg (by simp [finished])]
                exact .stopped finished stopped

/-- Known metadata stay known for the same first packet and the same tail. -/
theorem Ending.kept {event : TransferEvent b} (ending : Ending b t next event) (known : t.recv.isSeqZero = true) :
    next.recv.isSeqZero = true ∧ next.recv.seqFst = t.recv.seqFst ∧ next.recv.seqTail = t.recv.seqTail := by
  cases ending with
  | idle _ same => rw [same]; exact ⟨known, rfl, rfl⟩
  | stopped _ shape => rw [shape]; exact ⟨known, rfl, rfl⟩
  | packet seq counted _ _ learned _ _ _ shape =>
      obtain ⟨zero, -, fst, tail⟩ := learned.kept known
      rw [shape, fastPathLast_frame]
      exact ⟨zero, fst, tail⟩
  | patch counted _ learned _ _ shape =>
      obtain ⟨zero, -, fst, tail⟩ := learned.kept known
      rw [shape, patchDataTest_frame]
      exact ⟨zero, fst, tail⟩

/-- The end of an event settles a finished receiver, and every receiver when the event keeps the metadata. -/
theorem Ending.settled {event : TransferEvent b} (ending : Ending b t next event) (faithful : Faithful b next)
    (before : t.recv.isFinished = true → Settled b t.recv) :
    (next.recv.isFinished = true → Settled b next.recv) ∧
      (event.keepsMetadata t → Settled b t.recv → Settled b next.recv) := by
  cases ending with
  | idle _ same =>
      rw [same]
      exact ⟨before, fun _ settled => settled⟩
  | stopped unfinished shape =>
      rw [shape]
      exact ⟨fun closed => absurd (unfinished.symm.trans closed) (by simp), fun _ settled => settled⟩
  | packet seq counted running fixed learned positioned knows unfinished shape accepted =>
      have started := faithful.covered.started fixed
      have frame := fastPathLast_frame counted seq
      have fstInside : counted.seqFst < b.seqMax := by
        rw [show counted.seqFst = next.recv.seqFst by rw [shape, frame]]
        exact started.fstInside
      obtain ⟨finished, keeps⟩ := @Positioned.last_settled b counted _ seq positioned unfinished fstInside (by
        rw [← shape, show counted.isSeqZero = next.recv.isSeqZero by rw [shape, frame]]
        exact started.complete)
      rw [shape]
      refine ⟨finished, fun permitted settled => ?_⟩
      exact keeps (learned.settled settled positioned.toStored)
        fun known last => positioned.ends knows known seq.isLt (accepted permitted known last) last
  | patch counted fixed learned positioned unfinished shape =>
      have started := faithful.covered.started fixed
      have frame := patchDataTest_frame counted
      have fstInside : counted.seqFst < b.seqMax := by
        rw [show counted.seqFst = next.recv.seqFst by rw [shape, frame]]
        exact started.fstInside
      obtain ⟨finished, keeps⟩ := positioned.test_settled unfinished fstInside (by
        rw [← shape, show counted.isSeqZero = next.recv.isSeqZero by rw [shape, frame]]
        exact started.complete)
      rw [shape]
      exact ⟨finished, fun _ settled => keeps (learned.settled settled positioned.toStored)⟩

/-- A last optical packet of the first half that is rejected and leaves the metadata known records a wrong
jump position. -/
theorem Faithful.violates (small : b.seqMax < seqnumMax) (short : b.data.length < 2147483648)
    (faithful : Faithful b t) (seq : Fin b.seqMax) (completed : transferStep b round t (.packet seq) = .ok next)
    (violated : ¬TransferEvent.keepsMetadata t (.packet seq)) :
    next.recv.isSeqZero = true ∧ next.recv.fileMetadata.jump ≠ b.front next.recv.seqTail := by
  simp only [TransferEvent.keepsMetadata, Classical.not_imp] at violated
  obtain ⟨running, last, first, bad⟩ := violated
  have inside := seq.isLt
  have bounded := b.seqMax_lt
  have fixed : t.recv.isSeqFst = true := by
    by_contra unstarted
    have fresh := faithful.covered.fresh (by simpa using unstarted)
    rw [fresh] at last
    cases last
  have knows := faithful.covered.knows
  have started := faithful.covered.started fixed
  obtain ⟨unclosed, unfinished, unwrapped, zeroFirst⟩ := started.running running
  have positioned := (faithful.placed fixed unfinished).positioned
  obtain ⟨counted, flags, counting, rfl⟩ := transferStep_packet running completed
  obtain ⟨branch, -⟩ := faithful.packet_positioned small short fixed running seq counting
  have sentinel := seqnumMax_eq
  have lstInside := started.lstInside
  have frame := branch.frame
  have kept : counted.isSeqZero = true ∧ counted.fdP = t.recv.fdP ∧ counted.seqTail = t.recv.seqTail ∧
      counted.numFastRecvEd = t.recv.numFastRecvEd := by
    cases branch with
    | inOrder nonzero follows => omega
    | zeroInOrder zero unknown follows => exact absurd ⟨unknown, fun _ => by omega⟩ bad
    | zeroJump zero unknown gap start ahead => exact absurd ⟨unknown, fun _ => by omega⟩ bad
    | zeroRejected => exact ⟨rfl, rfl, rfl, rfl⟩
    | zeroAgain _ known => exact ⟨known, rfl, rfl, rfl⟩
    | jump beyond | jumpRejected beyond => omega
    | wrap nonzero below above tail start =>
        have unknown : t.recv.isSeqZero = false := by
          by_contra known
          have set := positioned.toStored.start_known (by simpa using known)
          rw [start] at set
          unfold finalMetadata at set
          split_ifs at set
        exact absurd ⟨unknown, fun zero => nonzero zero.1⟩ bad
    | behind nonzero before outside =>
        refine ⟨?_, rfl, rfl, rfl⟩
        by_contra unknown
        exact bad ⟨by simpa using unknown, fun zero => nonzero zero.1⟩
  obtain ⟨known, stream, tail, fast⟩ := kept
  have flat : t.recv.seqTail = 0 := by
    by_contra wrapped
    have half := positioned.half wrapped
    omega
  have position : ftell counted.fdP = ((b.offset (t.recv.seqLst + 1) - b.offset t.recv.seqFst : Nat) : Int) := by
    have lower := b.offset_mono first
    have upper : b.offset t.recv.seqLst ≤ b.offset (t.recv.seqLst + 1) := b.offset_mono (Nat.le_succ _)
    rw [stream, positioned.stream, Broadcast.place, if_pos first]
    show ((_ : Nat) : Int) = _
    omega
  have optical : isLastOptical counted seq = true := by
    unfold isLastOptical
    rw [frame.2.1, u32_succ (by omega), last]
    simp only [decide_eq_true_eq]
    exact .inl ⟨by omega, trivial⟩
  have missing : recverStateHasGottenAllData (fastPathStop counted) = false := by
    have total := started.total
    rw [Transfer.reach, if_neg (by simp [unclosed])] at total
    unfold distance at total
    rw [if_pos first] at total
    have partial' : ¬counted.numFastRecvEd + counted.numSlowRecvEd = counted.seqMax := by
      rw [fast, frame.2.2.1, ((branch.knows knows).learned known).1]
      omega
    exact decide_eq_false partial'
  have shape : (fastPathLast counted seq).1 = fastPathStop counted := by
    rw [fastPathLast, if_pos optical, fastPathTest, if_neg (by simp [missing])]
  show (fastPathLast counted seq).1.isSeqZero = true ∧
    (fastPathLast counted seq).1.fileMetadata.jump ≠ b.front (fastPathLast counted seq).1.seqTail
  rw [shape]
  refine ⟨known, ?_⟩
  show ftell counted.fdP ≠ b.front counted.seqTail
  rw [position, tail, flat, Broadcast.front, if_pos rfl]
  have positive : 0 < b.offset t.recv.seqFst := by
    rw [b.offset_of_lt started.fstInside]
    exact Nat.mul_pos (by omega) b.payloadPositive
  have nonempty := b.dataPositive
  have upper := b.offset_le (t.recv.seqLst + 1)
  omega

/-- Known metadata of every state on the way are the ones at the end of the run. -/
def MetadataFinal (b : Broadcast) (round : Nat) (events : List (TransferEvent b)) (final : Transfer) : Prop :=
  ∀ before after t, events = before ++ after → transferRun b round before = .ok t →
    t.recv.isSeqZero = true → t.recv.fileMetadata = final.recv.fileMetadata

/-- Known metadata stay known for the same first packet and the same tail up to the end of a run. -/
theorem Faithful.kept_run (small : b.seqMax < seqnumMax) (short : b.data.length < 2147483648)
    (faithful : Faithful b t) {events : List (TransferEvent b)} (order : ∀ event ∈ events, event.fifo)
    (completed : execute (transferStep b round) t events = .ok next) (known : t.recv.isSeqZero = true) :
    next.recv.isSeqZero = true ∧ finalMetadata b next.recv = finalMetadata b t.recv := by
  have kept := @execute_invariant Transfer (TransferEvent b) Assertion (transferStep b round)
    (fun state => Faithful b state ∧ state.recv.isSeqZero = true ∧
      finalMetadata b state.recv = finalMetadata b t.recv) TransferEvent.fifo
    (by
      rintro state event later ⟨right, read, same⟩ allowed taken
      obtain ⟨zero, fst, tail⟩ := (right.ending small short event allowed taken).kept read
      refine ⟨right.step small short event allowed taken, zero, ?_⟩
      rw [← same, finalMetadata, finalMetadata, fst, tail])
    _ _ _ ⟨faithful, known, rfl⟩ order completed
  exact kept.2

/-- A finished receiver has the final metadata. -/
theorem transferRun_finished (small : b.seqMax < seqnumMax) (short : b.data.length < 2147483648)
    {events : List (TransferEvent b)} (order : ∀ event ∈ events, event.fifo)
    (completed : transferRun b round events = .ok t) : t.recv.isFinished = true → Settled b t.recv := by
  have reached := @execute_invariant Transfer (TransferEvent b) Assertion (transferStep b round)
    (fun state => Faithful b state ∧ (state.recv.isFinished = true → Settled b state.recv)) TransferEvent.fifo
    (by
      rintro state event later ⟨right, settled⟩ allowed taken
      have faithful := right.step small short event allowed taken
      exact ⟨faithful, ((right.ending small short event allowed taken).settled faithful settled).1⟩)
    _ _ _ ⟨fresh_faithful_base b, nofun⟩ order completed
  exact reached.2

/-- Every step that keeps the metadata leaves them settled. -/
theorem Faithful.settled_run (small : b.seqMax < seqnumMax) (short : b.data.length < 2147483648)
    (faithful : Faithful b t) (settled : Settled b t.recv) {events : List (TransferEvent b)}
    (order : ∀ event ∈ events, event.fifo)
    (met : StepsMeet (transferStep b round) TransferEvent.keepsMetadata t events)
    (completed : execute (transferStep b round) t events = .ok next) : Settled b next.recv := by
  have ordered : StepsMeet (transferStep b round) (fun _ event => event.fifo) t events :=
    stepsMeet_of_forall (fun event member _ => order event member) t
  have reached := @execute_invariant_of_steps Transfer (TransferEvent b) Assertion (transferStep b round)
    (fun state => Faithful b state ∧ Settled b state.recv)
    (fun state event => event.keepsMetadata state ∧ event.fifo)
    (by
      rintro state event later ⟨right, settled⟩ ⟨keeps, allowed⟩ taken
      have faithful := right.step small short event allowed taken
      exact ⟨faithful, ((right.ending small short event allowed taken).settled faithful
        fun _ => settled).2 keeps settled⟩)
    _ _ _ ⟨faithful, settled⟩ (met.and ordered) completed
  exact reached.2

end Steps

/-- The metadata that are read early are final when every step keeps them, and a finished run whose early
metadata are final has no other step. -/
theorem transfer_metadata (b : Broadcast) (small : b.seqMax < seqnumMax) (short : b.data.length < 2147483648)
    (round : Nat) (events : List (TransferEvent b)) (order : ∀ event ∈ events, event.fifo) (final : Transfer)
    (completed : transferRun b round events = .ok final) :
    (StepsMeet (transferStep b round) TransferEvent.keepsMetadata (Transfer.fresh b) events →
        MetadataFinal b round events final) ∧
      (final.recv.isFinished = true → MetadataFinal b round events final →
        StepsMeet (transferStep b round) TransferEvent.keepsMetadata (Transfer.fresh b) events) := by
  constructor
  · rintro met before after t rfl reached known
    have earlier : ∀ event ∈ before, event.fifo := fun event member => order event (by simp [member])
    have later : ∀ event ∈ after, event.fifo := fun event member => order event (by simp [member])
    obtain ⟨middle, taken, rest⟩ := execute_append_ok.mp completed
    obtain rfl := Except.ok.inj (reached.symm.trans taken)
    obtain ⟨first, second⟩ := stepsMeet_append.mp met
    have faithful := transferRun_faithful small short earlier reached
    have settled := (fresh_faithful_base b).settled_run small short nofun earlier first reached
    have end' := faithful.settled_run small short settled later (second _ reached) rest
    obtain ⟨zero, same⟩ := faithful.kept_run small short later rest known
    rw [settled known, end' zero, same]
  · intro finished agreed
    apply stepsMeet_iff.mpr
    rintro before event after rfl middle reached
    by_contra violated
    cases event with
    | patch | fastDone => exact violated trivial
    | packet seq =>
        have earlier : ∀ event ∈ before, event.fifo := fun event member => order event (by simp [member])
        have later : ∀ event ∈ after, event.fifo := fun event member => order event (by simp [member])
        obtain ⟨same, taken, rest⟩ := execute_append_ok.mp completed
        obtain rfl := Except.ok.inj (reached.symm.trans taken)
        obtain ⟨next, stepped, rest⟩ := execute_cons_ok.mp rest
        have faithful := transferRun_faithful small short earlier reached
        obtain ⟨known, wrong⟩ := faithful.violates small short seq stepped violated
        have prefix' : transferRun b round (before ++ [.packet seq]) = .ok next :=
          execute_append_ok.mpr ⟨_, reached, by rw [execute_singleton]; exact stepped⟩
        have metadata := agreed (before ++ [.packet seq]) after next (by simp) prefix' known
        obtain ⟨zero, unchanged⟩ :=
          (faithful.step small short (.packet seq) trivial stepped).kept_run small short later rest known
        have settled := transferRun_finished small short order completed finished zero
        rw [metadata, settled, unchanged] at wrong
        exact wrong rfl

/-- A lost packet that comes as a patch leaves the metadata final, and a rejected packet zero does not. -/
theorem transfer_metadata_lossy :
    (∃ final, transferRun fourBytes 0 [.packet ⟨1, by decide⟩, .packet ⟨3, by decide⟩, .packet ⟨0, by decide⟩,
        .fastDone, .patch 0] = .ok final ∧ final.recv.isFinished = true ∧
      MetadataFinal fourBytes 0 [.packet ⟨1, by decide⟩, .packet ⟨3, by decide⟩, .packet ⟨0, by decide⟩,
        .fastDone, .patch 0] final) ∧
    ∃ final, transferRun threeBytes 0 [.packet ⟨1, by decide⟩, .packet ⟨0, by decide⟩, .fastDone, .patch 0,
        .patch 0] = .ok final ∧
      ¬MetadataFinal threeBytes 0 [.packet ⟨1, by decide⟩, .packet ⟨0, by decide⟩, .fastDone, .patch 0,
        .patch 0] final := by
  constructor
  · obtain ⟨final, completed, finished⟩ := exists_of_check
      (transferRun fourBytes 0 [.packet ⟨1, by decide⟩, .packet ⟨3, by decide⟩, .packet ⟨0, by decide⟩,
        .fastDone, .patch 0])
      (fun final => final.recv.isFinished) (by decide +kernel)
    exact ⟨final, completed, finished, (transfer_metadata fourBytes (by decide) (by decide) 0 _
      (by simp [TransferEvent.fifo]) final completed).1 (by decide +kernel)⟩
  · obtain ⟨final, completed, finished⟩ := exists_of_check
      (transferRun threeBytes 0 [.packet ⟨1, by decide⟩, .packet ⟨0, by decide⟩, .fastDone, .patch 0, .patch 0])
      (fun final => final.recv.isFinished) (by decide +kernel)
    refine ⟨final, completed, fun same => ?_⟩
    have met := (transfer_metadata threeBytes (by decide) (by decide) 0 _ (by simp [TransferEvent.fifo]) final
      completed).2 finished same
    revert met
    decide +kernel

/-- The packets 1 and 0 of three make a receiver report a jump position that is not the final one. -/
theorem transfer_metadata_changes :
    ¬∀ (b : Broadcast), b.data.length < 2147483648 → ∀ (round : Nat) (events : List (TransferEvent b)),
      (∀ event ∈ events, event.fifo) → ∀ final, transferRun b round events = .ok final →
        final.recv.isFinished = true → MetadataFinal b round events final := by
  intro agreed
  obtain ⟨early, reached, metadata⟩ := exists_of_check
    (transferRun threeBytes 0 [.packet ⟨1, by decide⟩, .packet ⟨0, by decide⟩])
    (fun early => decide (early.recv.isSeqZero = true ∧ early.recv.fileMetadata = ⟨2, 1⟩)) (by decide +kernel)
  have later : (transferRun threeBytes 0 ([.packet ⟨1, by decide⟩, .packet ⟨0, by decide⟩] ++
      [.fastDone, .patch 0, .patch 0])).map
        (fun final => decide (final.recv.isFinished = true ∧ final.recv.fileMetadata = ⟨2, 3⟩)) = .ok true := by
    decide +kernel
  obtain ⟨final, completed, finished⟩ := exists_of_check _ _ later
  rw [decide_eq_true_eq] at metadata finished
  have same := agreed threeBytes (by decide) 0 _ (by simp [TransferEvent.fifo]) final completed finished.1 _ _
    early rfl reached metadata.1
  rw [metadata.2, finished.2] at same
  exact absurd same (by decide)

end RepublicAgent
