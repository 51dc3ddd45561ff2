/-
This file proves that every event keeps the received packets at their places in the file.
-/

import RepublicAgent.Receiver.Storage

namespace RepublicAgent
open CyclicWindow Execution MachineInteger PositionedWrite

/-- The fast stream stands behind the last packet, and the halves of the round are known. -/
structure Positioned (b : Broadcast) (recv : RecverState) (received : List Nat) : Prop
    extends Stored b recv received where
  stream : recv.fdP = some (b.place recv.seqFst recv.seqTail recv.seqLst +
    (b.offset (recv.seqLst + 1) - b.offset recv.seqLst))
  half : recv.seqTail ≠ 0 → recv.seqLst < recv.seqFst
  second : recv.seqLst < recv.seqFst → recv.isSeqZero = true ∨ recv.seqTail ≠ 0
  bounded : recv.isFastpath = true → recv.seqFst ≤ recv.seqLst →
    recv.file.length ≤ b.offset (recv.seqLst + 1) - b.offset recv.seqFst

section Positions

variable {b : Broadcast} {recv next : RecverState} {flags : PacketFlags} {received : List Nat} {seq : Nat}

/-- The place behind a packet is the place of the next one. -/
theorem place_succ {fst tail lst : Nat} (inside : lst < b.seqMax) (unwrapped : lst + 1 ≠ fst) :
    b.place fst tail lst + (b.offset (lst + 1) - b.offset lst) = b.place fst tail (lst + 1) := by
  have grows := b.offset_lt_succ inside
  unfold Broadcast.place
  split_ifs with above next
  · have lower := b.offset_mono above
    omega
  · omega
  · omega
  · omega

/-- A gap of whole payloads leads to the place of a later packet in the same half. -/
theorem place_jump {fst tail lst : Nat} (beyond : lst + 1 < seq) (inside : seq < b.seqMax)
    (half : seq < fst ∨ fst ≤ lst) :
    b.place fst tail lst + (b.offset (lst + 1) - b.offset lst) + (seq - lst - 1) * b.payloadLen =
      b.place fst tail seq := by
  have grows := b.offset_lt_succ (show lst < b.seqMax by omega)
  have span := b.offset_sub (show lst + 1 ≤ seq by omega) inside
  have later : b.offset (lst + 1) ≤ b.offset seq := b.offset_mono (by omega)
  rw [show seq - lst - 1 = seq - (lst + 1) by omega, span]
  unfold Broadcast.place
  split_ifs with above next
  · have lower := b.offset_mono above
    omega
  · omega
  · omega
  · omega

/-- An accepted packet whose gap leads to its place keeps the positions. -/
theorem Stored.positioned (stored : Stored b recv received) (inside : seq < b.seqMax)
    {position gap : Nat} (stream : recv.fdP = some position)
    (lands : position + gap = b.place recv.seqFst recv.seqTail seq)
    (half : recv.seqTail ≠ 0 → seq < recv.seqFst)
    (second : seq < recv.seqFst → recv.isSeqZero = true ∨ recv.seqTail ≠ 0)
    (bounded : recv.seqFst ≤ seq → recv.file.length ≤ b.offset (seq + 1) - b.offset recv.seqFst) :
    Positioned b (recv.accept gap (b.slice seq) seq) (received ++ [seq]) := by
  have near : recv.seqTail ≠ 0 → seq ≤ recv.seqTail := by
    intro wrapped
    have before := half wrapped
    have order := stored.tailOrder wrapped
    omega
  obtain ⟨kept, moved⟩ := stored.accept inside near stream lands
  refine ⟨kept, moved, half, second, ?_⟩
  intro _ (above : recv.seqFst ≤ seq)
  have grows := b.offset_lt_succ inside
  have lower := b.offset_mono above
  have seeked : recv.fdP.map (· + gap) = some (b.place recv.seqFst recv.seqTail seq) := by
    rw [stream, Option.map_some, lands]
  show (streamWrite (recv.fdP.map (· + gap)) recv.file (b.slice seq)).length ≤ _
  rw [seeked]
  apply writeAt_length_le _ _ _ _ _ (bounded above)
  rw [b.slice_length inside]
  unfold Broadcast.place
  rw [if_pos above]
  show _ ≤ b.offset (seq + 1) - b.offset recv.seqFst
  omega

/-- Each case of the fast path keeps the packets at their places. -/
theorem FastCase.positioned (small : b.seqMax < seqnumMax) (short : b.data.length < 2147483648)
    (branch : FastCase b recv seq next flags) (knows : Knows b recv)
    (positioned : Positioned b recv received) (running : recv.isFastpath = true) (inside : seq < b.seqMax)
    (fstInside : recv.seqFst < b.seqMax) (lstInside : recv.seqLst < b.seqMax)
    (unwrapped : recv.seqLst + 1 ≠ recv.seqFst)
    (zeroFirst : recv.seqFst = 0 → recv.isSeqZero = true)
    (firstHalf : recv.seqFst ≤ recv.seqLst → ∀ seq ∈ received, recv.seqFst ≤ seq ∧ seq ≤ recv.seqLst) :
    Positioned b next (if flags.seqError then received else received ++ [seq]) := by
  have sentinel := seqnumMax_eq
  have stored := positioned.toStored
  have stream := positioned.stream
  have room (below : recv.seqLst < seq) (above : recv.seqFst ≤ seq) (first : recv.seqFst ≤ recv.seqLst) :
      recv.file.length ≤ b.offset (seq + 1) - b.offset recv.seqFst := by
    have bounded := positioned.bounded running first
    have later : b.offset (recv.seqLst + 1) ≤ b.offset (seq + 1) := b.offset_mono (by omega)
    omega
  -- A receiver in the first half has recorded no tail.
  have flat (first : recv.seqFst ≤ recv.seqLst) : recv.seqTail = 0 := by
    by_contra wrapped
    have behind := positioned.half wrapped
    omega
  cases branch with
  | inOrder nonzero follows =>
      apply stored.positioned inside stream
      · rw [Nat.add_zero, place_succ lstInside unwrapped, follows]
      · intro wrapped
        have behind := positioned.half wrapped
        omega
      · intro below
        exact positioned.second (by omega)
      · intro above
        exact room (by omega) above (by omega)
  | zeroInOrder zero unknown follows =>
      have last : recv.seqLst + 1 = b.seqMax := by omega
      have nonzero : recv.seqFst ≠ 0 := fun first => by simp [zeroFirst first] at unknown
      have first : recv.seqFst ≤ recv.seqLst := by omega
      have below := b.offset_mono first
      have whole := b.offset_lt_succ lstInside
      apply (stored.learn short knows unknown fstInside).positioned inside stream
      · show _ = b.place recv.seqFst recv.seqTail seq
        unfold Broadcast.place Broadcast.front
        rw [if_pos first, if_neg (by omega), if_pos (flat first), zero, b.offset_zero, last,
          b.offset_seqMax] at *
        omega
      · intro wrapped
        exact absurd (flat first) wrapped
      · exact fun _ => .inl rfl
      · intro above
        exact absurd above (by show ¬recv.seqFst ≤ seq; omega)
  | zeroJump zero unknown gap started ahead nonzero =>
      have first : recv.seqFst ≤ recv.seqLst := by omega
      have below := b.offset_mono first
      have whole := b.offset_lt_succ lstInside
      have final : b.seqMax - 1 < b.seqMax := by omega
      have last := b.offset_lt final
      have span := b.offset_sub (show recv.seqLst + 1 ≤ b.seqMax - 1 by omega) final
      have later : b.offset (recv.seqLst + 1) ≤ b.offset (b.seqMax - 1) := b.offset_mono (by omega)
      apply (stored.learn short knows unknown fstInside).positioned inside stream
      · show _ = b.place recv.seqFst recv.seqTail seq
        rw [show b.seqMax - recv.seqLst - 2 = b.seqMax - 1 - (recv.seqLst + 1) by omega, span]
        unfold Broadcast.place Broadcast.front
        rw [if_pos first, if_neg (by omega), if_pos (flat first), zero, b.offset_zero]
        omega
      · intro wrapped
        exact absurd (flat first) wrapped
      · exact fun _ => .inl rfl
      · intro above
        exact absurd above (by show ¬recv.seqFst ≤ seq; omega)
  | zeroRejected zero unknown gap started behind =>
      exact ⟨stored.learn short knows unknown fstInside, stream, positioned.half, fun _ => .inl rfl,
        positioned.bounded⟩
  | jump beyond half =>
      apply stored.positioned inside stream
      · exact place_jump beyond inside half
      · intro wrapped
        have behind := positioned.half wrapped
        omega
      · intro below
        exact positioned.second (by omega)
      · intro above
        exact room (by omega) above (by omega)
  | wrap nonzero below above tail start =>
      have first : recv.seqFst ≤ recv.seqLst := by omega
      have lower := b.offset_mono first
      have whole := b.offset_lt_succ lstInside
      have place : b.place recv.seqFst recv.seqTail recv.seqLst +
          (b.offset (recv.seqLst + 1) - b.offset recv.seqLst) =
          b.offset (recv.seqLst + 1) - b.offset recv.seqFst := by
        unfold Broadcast.place
        rw [if_pos first]
        omega
      rw [place] at stream
      have recorded := stored.recordTail knows tail start (by omega) above lstInside stream
        (positioned.bounded running first) (firstHalf first)
      apply recorded.positioned inside stream
      · show _ = b.place recv.seqFst recv.seqLst seq
        unfold Broadcast.place Broadcast.front
        rw [if_neg (by omega), if_neg (by omega), b.offset_of_lt inside]
      · exact fun _ => below
      · exact fun _ => .inr (by show recv.seqLst ≠ 0; omega)
      · intro high
        exact absurd high (by show ¬recv.seqFst ≤ seq; omega)
  | zeroAgain | jumpRejected | behind => exact positioned

end Positions

/-- The file reads as the data in the documented order. -/
def ReadsBack (b : Broadcast) (recv : RecverState) : Prop :=
  recv.readBack = b.data ∧ 0 ≤ recv.fileMetadata.start ∧ recv.fileMetadata.start ≤ recv.fileMetadata.jump

/-- A patch before the first packet is pending only behind packet zero. -/
def ZeroFirst (fst : Nat) (pending : List Nat) : Prop :=
  ∃ early late, pending = early ++ late ∧ (∀ seq ∈ early, fst ≤ seq) ∧ (late = [] ∨ ∃ rest, late = 0 :: rest)

/-- The received packets of an unfinished transfer are at their places. -/
structure Placed (b : Broadcast) (t : Transfer) : Prop where
  positioned : Positioned b t.recv (t.fastLog ++ t.slowLog)
  zeroFirst : t.recv.isSeqZero = false → t.recv.seqTail = 0 → ZeroFirst t.recv.seqFst t.pending

/-- The file of a transfer is right while it grows and when it is finished. -/
structure Faithful (b : Broadcast) (t : Transfer) : Prop where
  covered : Covered b t
  placed : t.recv.isSeqFst = true → t.recv.isFinished = false → Placed b t
  read : t.recv.isFinished = true → ReadsBack b t.recv

/-- The order of delivery is the order of the requests. -/
def TransferEvent.fifo {b : Broadcast} : TransferEvent b → Prop
  | .patch index => index = 0
  | _ => True

section Endings

variable {b : Broadcast} {recv : RecverState} {received : List Nat} {seq : Nat} {t : Transfer}

/-- A complete accounting has received every packet. -/
theorem Accounted.complete (accounted : Accounted b t)
    (sum : t.recv.numFastRecvEd + t.recv.numSlowRecvEd = b.seqMax) (seq : Nat) (inside : seq < b.seqMax) :
    seq ∈ t.fastLog ++ t.slowLog := by
  have total := accounted.total
  have bounded := accounted.reach_le
  have empty : t.pending = [] := List.length_eq_zero_iff.mp (by omega)
  have covers := accounted.covers
  rw [show t.reach b = b.seqMax by omega] at covers
  have member := (covers.trans (window_full accounted.fstInside)).mem_iff.mpr (List.mem_range.mpr inside)
  have moved := accounted.delivered
  rw [empty, List.nil_append] at moved
  rcases List.mem_append.mp member with fast | slow
  · exact List.mem_append_left _ fast
  · exact List.mem_append_right _ (moved.mem_iff.mp slow)

/-- In the first half of the round the accounted packets lie between the first and the last. -/
theorem Accounted.firstHalf (accounted : Accounted b t) (unclosed : t.fastDoneSeen = false)
    (first : t.recv.seqFst ≤ t.recv.seqLst) (seq : Nat) (member : seq ∈ t.fastLog ++ t.requested) :
    t.recv.seqFst ≤ seq ∧ seq ≤ t.recv.seqLst := by
  have inside := accounted.lstInside
  have placed := accounted.covers.mem_iff.mp member
  rw [mem_window accounted.fstInside accounted.reach_le, Transfer.reach, if_neg (by simp [unclosed])] at placed
  unfold distance at placed
  rw [if_pos first] at placed
  split_ifs at placed <;> omega

theorem Accounted.received_subset (accounted : Accounted b t) {seq : Nat}
    (member : seq ∈ t.fastLog ++ t.slowLog) : seq ∈ t.fastLog ++ t.requested := by
  rcases List.mem_append.mp member with fast | slow
  · exact List.mem_append_left _ fast
  · exact List.mem_append_right _ (accounted.delivered.mem_iff.mpr (List.mem_append_right _ slow))

theorem Positioned.mono (positioned : Positioned b recv received) {other : List Nat}
    (known : ∀ seq ∈ other, seq ∈ received) : Positioned b recv other :=
  ⟨positioned.toStored.mono known, positioned.stream, positioned.half, positioned.second, positioned.bounded⟩

/-- The end of the fast path leaves what is stored. -/
theorem Stored.stop (stored : Stored b recv received) : Stored b (fastPathStop recv) received :=
  ⟨stored.tailOrder, stored.patchStream, stored.start, stored.bufferLength, stored.buffer,
    stored.allocated, stored.fits, stored.held⟩

/-- The last optical packet keeps the positions unless it finishes the receiver. -/
theorem Positioned.last (positioned : Positioned b recv received) (unfinished : recv.isFinished = false)
    (fstInside : recv.seqFst < b.seqMax)
    (complete : (fastPathLast recv seq).1.isFinished = true →
      recv.isSeqZero = true ∧ ∀ seq < b.seqMax, seq ∈ received) :
    ((fastPathLast recv seq).1.isFinished = false → Positioned b (fastPathLast recv seq).1 received) ∧
      ((fastPathLast recv seq).1.isFinished = true → ReadsBack b (fastPathLast recv seq).1) := by
  have stopped := positioned.toStored.stop
  unfold fastPathLast fastPathTest at complete ⊢
  split_ifs at complete ⊢ with last gotten
  · obtain ⟨known, all⟩ := complete rfl
    refine ⟨nofun, fun _ => ?_⟩
    exact stopped.finish fstInside known all (by
      show recv.fdP.isSome = true
      rw [positioned.stream]
      rfl)
  · exact ⟨fun _ => ⟨stopped, positioned.stream, positioned.half, positioned.second, fun active => by cases active⟩,
      fun closed => absurd (unfinished.symm.trans closed) (by simp)⟩
  · exact ⟨fun _ => positioned, fun closed => absurd (unfinished.symm.trans closed) (by simp)⟩

/-- The completion test keeps the positions unless it finishes the receiver. -/
theorem Positioned.test (positioned : Positioned b recv received) (unfinished : recv.isFinished = false)
    (fstInside : recv.seqFst < b.seqMax)
    (complete : (patchDataTest recv).1.isFinished = true →
      recv.isSeqZero = true ∧ ∀ seq < b.seqMax, seq ∈ received) :
    ((patchDataTest recv).1.isFinished = false → Positioned b (patchDataTest recv).1 received) ∧
      ((patchDataTest recv).1.isFinished = true → ReadsBack b (patchDataTest recv).1) := by
  unfold patchDataTest at complete ⊢
  split_ifs at complete ⊢ with gotten
  · obtain ⟨known, all⟩ := complete rfl
    refine ⟨nofun, fun _ => ?_⟩
    exact positioned.toStored.finish fstInside known all (by rw [positioned.stream]; rfl)
  · exact ⟨fun _ => positioned, fun closed => absurd (unfinished.symm.trans closed) (by simp)⟩

end Endings

section Steps

variable {b : Broadcast} {round : Nat} {t next : Transfer} {seq : Nat}

/-- A transfer that still runs in the first half has requested no packet before the first one. -/
theorem Accounted.zeroFirst (accounted : Accounted b t) (unclosed : t.fastDoneSeen = false)
    (first : t.recv.seqFst ≤ t.recv.seqLst) : ZeroFirst t.recv.seqFst t.pending := by
  refine ⟨t.pending, [], by simp, ?_, .inl rfl⟩
  intro seq member
  have asked : seq ∈ t.requested := accounted.delivered.mem_iff.mpr (List.mem_append_left _ member)
  exact (accounted.firstHalf unclosed first seq (List.mem_append_right _ asked)).1

/-- A finished receiver knows the metadata and has every packet. -/
theorem Started.complete (started : Started b t) (finished : t.recv.isFinished = true) :
    t.recv.isSeqZero = true ∧ ∀ seq < b.seqMax, seq ∈ t.fastLog ++ t.slowLog := by
  have all := started.toAccounted.complete (started.finished finished)
  exact ⟨started.zero (all 0 b.seqMax_pos), all⟩

/-- A counted packet at its place leaves a faithful transfer. -/
theorem Positioned.faithful {counted : RecverState} {received : List Nat}
    (positioned : Positioned b counted received) (unfinished : counted.isFinished = false)
    (covered : Covered b next) (fixed : next.recv.isSeqFst = true) (unclosed : next.fastDoneSeen = false)
    (last : next.recv = (fastPathLast counted seq).1)
    (logs : ∀ other ∈ next.fastLog ++ next.slowLog, other ∈ received) : Faithful b next := by
  have started := covered.started fixed
  have fst : counted.seqFst = next.recv.seqFst := by rw [last, fastPathLast_frame]
  have zero : counted.isSeqZero = next.recv.isSeqZero := by rw [last, fastPathLast_frame]
  obtain ⟨kept, reads⟩ := (positioned.mono logs).last unfinished (by rw [fst]; exact started.fstInside)
    (by rw [← last, zero]; exact started.complete)
  rw [← last] at kept reads
  refine ⟨covered, ?_, reads⟩
  intro _ open'
  refine ⟨kept open', ?_⟩
  intro unknown flat
  apply started.toAccounted.zeroFirst unclosed
  by_contra later
  rcases (kept open').second (by omega) with known | wrapped
  · exact absurd (unknown.symm.trans known) (by simp)
  · exact wrapped flat

/-- The first packet stands at the start of the file. -/
theorem fresh_positioned (short : b.data.length < 2147483648) (seq : Fin b.seqMax) {counted : RecverState}
    {flags : PacketFlags}
    (counting : fastPathCount (Transfer.fresh b).recv (b.packet seq) = .ok (counted, flags)) :
    Positioned b counted [seq.val] ∧ counted.isFinished = false ∧ counted.numFastRecvEd = 1 := by
  have bounded := b.seqMax_lt
  have inside := seq.isLt
  have first : fastPathFirst (Transfer.fresh b).recv seq = _ := fastPathFirst_fresh rfl (by omega)
  have branch := fastPathCount_cases ((fresh_knows b).first seq) inside
    (by rw [first]; dsimp only; split_ifs <;> omega) counting
  obtain ⟨accepted, calm, shape⟩ := FastCase.first rfl rfl inside branch
  have knows := (fresh_knows b).first seq
  have fst : (fastPathFirst (Transfer.fresh b).recv seq).seqFst = seq := by rw [first]
  have empty : Stored b (fastPathFirst (Transfer.fresh b).recv seq) [] := by
    rw [first]
    exact ⟨fun wrapped => absurd rfl wrapped, rfl, .inl ⟨rfl, rfl, rfl⟩, nofun, nofun, nofun,
      Nat.zero_le _, nofun⟩
  have base : Stored b (if seq.val = 0 then (fastPathFirst (Transfer.fresh b).recv seq).learn b.metadata
      else fastPathFirst (Transfer.fresh b).recv seq) [] := by
    split_ifs with zero
    · exact empty.learn short knows (by rw [first]; rfl) (by rw [fst]; exact inside)
    · exact empty
  have place : b.place seq 0 seq = 0 := by
    unfold Broadcast.place
    rw [if_pos (le_refl _), Nat.sub_self]
  refine ⟨?_, ?_, ?_⟩
  · rw [shape]
    split_ifs at base ⊢ with zero
    · apply base.positioned inside (show _ = some 0 by rw [learn_fdP, first]; rfl)
      · rw [learn_seqFst, learn_seqTail, fst, first]
        exact place.symm
      · intro wrapped
        rw [learn_seqTail, first] at wrapped
        exact absurd rfl wrapped
      · exact fun _ => .inl rfl
      · intro _
        rw [learn_file, first]
        exact Nat.zero_le _
    · apply base.positioned inside (show _ = some 0 by rw [first]; rfl)
      · rw [fst, first]
        exact place.symm
      · intro wrapped
        rw [first] at wrapped
        exact absurd rfl wrapped
      · intro below
        rw [fst] at below
        omega
      · intro _
        rw [first]
        exact Nat.zero_le _
  · rw [shape]
    split_ifs <;> rw [accept_isFinished, first] <;> rfl
  · rw [branch.counts, accepted, first]
    rfl

theorem fresh_faithful (short : b.data.length < 2147483648) (seq : Fin b.seqMax)
    (completed : transferStep b round (Transfer.fresh b) (.packet seq) = .ok next) : Faithful b next := by
  obtain ⟨fixed, covered⟩ := fresh_packet b seq completed
  obtain ⟨counted, flags, counting, rfl⟩ := transferStep_packet rfl completed
  obtain ⟨positioned, unfinished, fast⟩ := fresh_positioned short seq counting
  apply positioned.faithful unfinished covered fixed rfl rfl
  intro other (member : other ∈ (if 0 < counted.numFastRecvEd then [] ++ [seq.val] else []) ++ [])
  rw [fast, if_pos Nat.one_pos] at member
  simpa using member

/-- A counted packet of the running fast path stands at its place. -/
theorem Faithful.packet_positioned (small : b.seqMax < seqnumMax) (short : b.data.length < 2147483648)
    (faithful : Faithful b t) (fixed : t.recv.isSeqFst = true) (running : t.recv.isFastpath = true)
    (seq : Fin b.seqMax) {counted : RecverState} {flags : PacketFlags}
    (counting : fastPathCount t.recv (b.packet seq) = .ok (counted, flags)) :
    FastCase b t.recv seq counted flags ∧
      Positioned b counted (if flags.seqError then t.fastLog ++ t.slowLog
        else t.fastLog ++ t.slowLog ++ [seq.val]) := by
  have knows := faithful.covered.knows
  have started := faithful.covered.started fixed
  obtain ⟨unclosed, unfinished, unwrapped, zeroFirst⟩ := started.running running
  have placed := faithful.placed fixed unfinished
  have same : fastPathFirst t.recv seq = t.recv := fastPathFirst_started fixed
  have branch := fastPathCount_cases (knows.first seq) seq.isLt (by rw [same]; exact .inl started.lstInside)
    counting
  rw [same] at branch
  refine ⟨branch, branch.positioned small short knows placed.positioned running seq.isLt started.fstInside
    started.lstInside unwrapped (fun first => (zeroFirst first).1) ?_⟩
  exact fun first other member => started.toAccounted.firstHalf unclosed first other
    (started.toAccounted.received_subset member)

/-- The log keeps exactly the accepted packets. -/
theorem FastCase.logged {counted : RecverState} {flags : PacketFlags}
    (branch : FastCase b t.recv seq counted flags) :
    ∀ other ∈ (if t.recv.numFastRecvEd < counted.numFastRecvEd then t.fastLog ++ [seq] else t.fastLog) ++
      t.slowLog, other ∈ if flags.seqError then t.fastLog ++ t.slowLog else t.fastLog ++ t.slowLog ++ [seq] := by
  intro other
  rw [branch.counts]
  cases flags.seqError with
  | true => simp
  | false =>
      simp only [Bool.false_eq_true, if_false, List.mem_append, List.mem_singleton]
      rw [if_pos (Nat.lt_succ_self _)]
      intro member
      simp only [List.mem_append, List.mem_singleton] at member
      tauto

/-- A packet of the running fast path keeps the file right. -/
theorem Faithful.packet (small : b.seqMax < seqnumMax) (short : b.data.length < 2147483648)
    (faithful : Faithful b t) (fixed : t.recv.isSeqFst = true) (running : t.recv.isFastpath = true)
    (seq : Fin b.seqMax) (completed : transferStep b round t (.packet seq) = .ok next) :
    Faithful b next := by
  have started := faithful.covered.started fixed
  obtain ⟨unclosed, unfinished, -⟩ := started.running running
  obtain ⟨active, covered⟩ := started.packet small faithful.covered.knows fixed running seq completed
  obtain ⟨counted, flags, counting, rfl⟩ := transferStep_packet running completed
  obtain ⟨branch, positioned⟩ := faithful.packet_positioned small short fixed running seq counting
  exact positioned.faithful (branch.frame.2.2.2.2.1.trans unfinished) covered active unclosed rfl branch.logged

/-- A patch of the first half stays inside the written part of the file. -/
theorem Positioned.patch {recv : RecverState} {received : List Nat} (positioned : Positioned b recv received)
    (knows : Knows b recv) (inside : seq < b.seqMax) (near : recv.seqTail ≠ 0 → seq ≤ recv.seqTail)
    (started : seq < recv.seqFst → recv.seqTail ≠ 0 ∨ recv.isSeqZero = true)
    (firstHalf : recv.isFastpath = true → recv.seqFst ≤ recv.seqLst → recv.seqFst ≤ seq ∧ seq ≤ recv.seqLst) :
    Positioned b (recv.patch (b.slice seq) seq) (received ++ [seq]) := by
  obtain ⟨stored, file⟩ := positioned.toStored.patch knows inside near started
  refine ⟨stored, positioned.stream, positioned.half, positioned.second, ?_⟩
  intro (running : recv.isFastpath = true) (first : recv.seqFst ≤ recv.seqLst)
  obtain ⟨above, below⟩ := firstHalf running first
  have grows := b.offset_lt_succ inside
  have lower := b.offset_mono above
  have upper : b.offset (seq + 1) ≤ b.offset (recv.seqLst + 1) := b.offset_mono (by omega)
  rw [file]
  apply writeAt_length_le _ _ _ _ _ (positioned.bounded running first)
  rw [b.slice_length inside]
  unfold Broadcast.place
  rw [if_pos above]
  show _ ≤ b.offset (recv.seqLst + 1) - b.offset recv.seqFst
  omega

/-- Each case of the slow path keeps the packets at their places. -/
theorem SlowCase.positioned {recv counted : RecverState} {received : List Nat} {flag : Bool}
    (short : b.data.length < 2147483648) (branch : SlowCase b recv seq counted flag) (knows : Knows b recv)
    (positioned : Positioned b recv received) (inside : seq < b.seqMax) (fstInside : recv.seqFst < b.seqMax)
    (other : seq ≠ recv.seqFst)
    (started : seq < recv.seqFst → seq ≠ 0 → recv.seqTail ≠ 0 ∨ recv.isSeqZero = true)
    (firstHalf : recv.isFastpath = true → recv.seqFst ≤ recv.seqLst → recv.seqFst ≤ seq ∧ seq ≤ recv.seqLst) :
    Positioned b counted (received ++ [seq]) := by
  cases branch with
  | tail wrapped behind buffer allocated =>
      exact ⟨positioned.toStored.patchTail short knows inside wrapped behind allocated, positioned.stream,
        positioned.half, positioned.second, positioned.bounded⟩
  | outOfRange front first => exact absurd first other
  | zeroLearns zero _ unknown start =>
      have learned : Positioned b (recv.learn b.metadata) received :=
        ⟨positioned.toStored.learn short knows unknown fstInside, positioned.stream, positioned.half,
          fun _ => .inl rfl, positioned.bounded⟩
      exact learned.patch knows.learn inside (fun _ => by omega) (fun _ => .inr rfl) firstHalf
  | zeroAgain zero _ known start =>
      exact positioned.patch knows inside (fun _ => by omega) (fun _ => .inr known) firstHalf
  | inside front _ nonzero =>
      exact positioned.patch knows inside (by omega) (fun below => started below nonzero) firstHalf

/-- A finished receiver has no pending patch. -/
theorem Started.unfinished (started : Started b t) (member : seq ∈ t.pending) : t.recv.isFinished = false := by
  by_contra finished
  have sum := started.finished (by simpa using finished)
  have total := started.total
  have bounded := started.reach_le
  have some := List.length_pos_of_mem member
  omega

/-- The oldest pending patch stands at its place when it is counted. -/
theorem Faithful.patch_positioned (short : b.data.length < 2147483648) (faithful : Faithful b t)
    (fixed : t.recv.isSeqFst = true) (requested : t.pending[0]? = some seq) {recv : RecverState} {counted : Bool}
    (counting : patchDataCount t.recv (b.packet seq) = .ok (recv, counted)) :
    SlowCase b t.recv seq recv counted ∧ counted = true ∧ Positioned b recv (t.fastLog ++ (t.slowLog ++ [seq])) := by
  have knows := faithful.covered.knows
  have started := faithful.covered.started fixed
  have member : seq ∈ t.pending := List.mem_of_getElem? requested
  have placed := faithful.placed fixed (started.unfinished member)
  have branch := patchDataCount_cases knows counting
  have asked : seq ∈ t.requested := started.delivered.mem_iff.mpr (List.mem_append_left _ member)
  have order : t.recv.isSeqZero = false → t.recv.seqTail = 0 → seq < t.recv.seqFst →
      seq = 0 := by
    intro unknown flat below
    obtain ⟨early, late, split, above, head⟩ := placed.zeroFirst unknown flat
    rw [split] at requested
    cases early with
    | cons first rest =>
        have same : first = seq := by simpa using requested
        have high := above first (by simp)
        omega
    | nil =>
        rcases head with none | ⟨rest, some⟩
        · rw [none] at requested
          cases requested
        · rw [some] at requested
          simpa [eq_comm] using requested
  refine ⟨branch, (branch.counts (started.pending_ne_first member)).1, ?_⟩
  rw [← List.append_assoc]
  apply branch.positioned short knows placed.positioned (started.pending_inside member) started.fstInside
    (started.pending_ne_first member)
  · intro below nonzero
    by_contra neither
    rw [not_or] at neither
    exact nonzero (order (by simpa using neither.2) (by simpa using neither.1) below)
  · exact fun running first => started.toAccounted.firstHalf (started.running running).1 first seq
      (List.mem_append_right _ asked)

/-- A patch event in the order of the requests keeps the file right. -/
theorem Faithful.patch (short : b.data.length < 2147483648) (faithful : Faithful b t)
    (fixed : t.recv.isSeqFst = true) (completed : transferStep b round t (.patch 0) = .ok next) :
    Faithful b next := by
  have knows := faithful.covered.knows
  have started := faithful.covered.started fixed
  obtain ⟨active, covered⟩ := started.patch knows fixed completed
  rcases transferStep_patch completed with rfl | ⟨seq, recv, counted, requested, counting, rfl⟩
  · exact faithful
  have member : seq ∈ t.pending := List.mem_of_getElem? requested
  have unfinished := started.unfinished member
  have placed := faithful.placed fixed unfinished
  obtain ⟨branch, rfl, logs⟩ := faithful.patch_positioned short fixed requested counting
  obtain ⟨_, fst, lst, tail, fast, fastpath, finished, zero⟩ := branch.frame
  have frame := patchDataTest_frame recv
  have final := covered.started active
  obtain ⟨kept, reads⟩ := logs.test (finished.trans unfinished) (by rw [fst]; exact started.fstInside) (by
    intro closed
    have complete := final.complete closed
    rw [show recv.isSeqZero = (patchDataTest recv).1.isSeqZero by rw [frame]]
    exact complete)
  refine ⟨covered, fun _ open' => ⟨kept open', ?_⟩, reads⟩
  intro (unknown : (patchDataTest recv).1.isSeqZero = false) (flat : (patchDataTest recv).1.seqTail = 0)
  show ZeroFirst (patchDataTest recv).1.seqFst (t.pending.eraseIdx 0)
  rw [frame] at unknown flat ⊢
  show ZeroFirst recv.seqFst (t.pending.eraseIdx 0)
  have before : t.recv.isSeqZero = false := by
    by_contra known
    exact absurd (unknown.symm.trans (zero (by simpa using known))) (by simp)
  obtain ⟨early, late, split, above, head⟩ := placed.zeroFirst before (tail.symm.trans flat)
  rw [fst, split]
  rw [split] at requested
  cases early with
  | cons first rest =>
      exact ⟨rest, late, by simp, fun other known => above other (by simp [known]), head⟩
  | nil =>
      rcases head with none | ⟨rest, some⟩
      · rw [none] at requested
        cases requested
      · rw [some] at requested
        have now : seq = 0 := by simpa [eq_comm] using requested
        have learned := branch.zero (started.pending_ne_first member) now
        exact absurd (unknown.symm.trans learned) (by simp)

/-- The last request of a receiver without metadata starts with packet zero when it wraps. -/
theorem fastDoneParts_zeroFirst {recv : RecverState} (unfinished : recv.isFinished = false)
    (unknown : recv.isSeqZero = false) (fstInside : recv.seqFst < b.seqMax) (lstInside : recv.seqLst < b.seqMax)
    (nonzero : recv.seqFst ≠ 0) (first : recv.seqFst ≤ recv.seqLst) (round : Nat) :
    ∃ rest, (fastDoneParts b round recv).flatMap PatchTuple.seqs = 0 :: rest := by
  have bounded := b.seqMax_lt
  have after : u32 (((recverStateStopFathPath recv).seqLst : Int) + 1) = recv.seqLst + 1 :=
    @u32_succ recv.seqLst (by omega)
  have target : (round * b.seqMax + recv.seqFst) % b.seqMax = recv.seqFst := Nat.mul_add_mod_of_lt fstInside
  unfold fastDoneParts msgFastDone
  rw [if_neg (by simp [unfinished])]
  dsimp only
  rw [after, if_neg (by simp [recverStateStopFathPath, unknown])]
  simp only [Option.toList_some, List.flatMap_singleton, msgPatchReq, if_true, target]
  obtain ⟨count, some⟩ : ∃ count, recv.seqFst = count + 1 := ⟨recv.seqFst - 1, by omega⟩
  by_cases last : recv.seqLst + 1 < b.seqMax
  · rw [Nat.mod_eq_of_lt last, if_neg (by omega), if_pos (by omega)]
    rw [some]
    exact ⟨_, rfl⟩
  · rw [show recv.seqLst + 1 = b.seqMax by omega, Nat.mod_self, if_pos (by omega)]
    rw [some]
    exact ⟨_, rfl⟩

/-- The message keeps the file right. -/
theorem Faithful.fastDone (small : b.seqMax < seqnumMax) (faithful : Faithful b t)
    (fixed : t.recv.isSeqFst = true) (completed : transferStep b round t .fastDone = .ok next) :
    Faithful b next := by
  have started := faithful.covered.started fixed
  obtain ⟨active, covered⟩ := started.fastDone small faithful.covered.knows fixed completed
  rcases transferStep_fastDone completed with rfl | ⟨_, unclosed, rfl⟩
  · exact faithful
  cases finished : t.recv.isFinished with
  | true =>
      have same : (msgFastDone t.recv).1 = t.recv := by rw [msgFastDone_recv, if_pos finished]
      have closed : (msgFastDone t.recv).1.isFinished = true := by rw [same, finished]
      refine ⟨covered, fun _ open' => absurd (closed.symm.trans open') (by simp), fun _ => ?_⟩
      show ReadsBack b (msgFastDone t.recv).1
      rw [same]
      exact faithful.read finished
  | false =>
      have placed := faithful.placed fixed finished
      have stopped : (msgFastDone t.recv).1 = recverStateStopFathPath t.recv := by
        rw [msgFastDone_recv, if_neg (by simp [finished])]
      have stored := placed.positioned.toStored
      have open' : (msgFastDone t.recv).1.isFinished = false := by
        rw [stopped]
        exact finished
      refine ⟨covered, fun _ _ => ⟨?_, ?_⟩, fun closed => absurd (open'.symm.trans closed) (by simp)⟩
      · show Positioned b (msgFastDone t.recv).1 (t.fastLog ++ t.slowLog)
        rw [stopped]
        exact ⟨⟨stored.tailOrder, stored.patchStream, stored.start, stored.bufferLength, stored.buffer,
          stored.allocated, stored.fits, stored.held⟩, placed.positioned.stream, placed.positioned.half,
          placed.positioned.second, fun running => by cases running⟩
      · intro (unknown : (msgFastDone t.recv).1.isSeqZero = false) (flat : (msgFastDone t.recv).1.seqTail = 0)
        rw [stopped] at unknown flat
        have first : t.recv.seqFst ≤ t.recv.seqLst := by
          by_contra later
          rcases placed.positioned.second (by omega) with known | wrapped
          · exact absurd (unknown.symm.trans known) (by simp)
          · exact wrapped flat
        have nonzero : t.recv.seqFst ≠ 0 := by
          intro zero
          have arrived := started.zero (List.mem_append_left _ (zero ▸ started.first))
          exact absurd (unknown.symm.trans arrived) (by simp)
        obtain ⟨rest, asked⟩ := fastDoneParts_zeroFirst finished unknown started.fstInside
          started.lstInside nonzero first round
        obtain ⟨early, late, split, above, head⟩ := placed.zeroFirst unknown flat
        have fst : (msgFastDone t.recv).1.seqFst = t.recv.seqFst := by rw [stopped]; rfl
        have queue : (({ t with recv := (msgFastDone t.recv).1, fastDoneSeen := true } : Transfer).request b round
            (msgFastDone t.recv).2.toList).pending = early ++ (late ++ 0 :: rest) := by
          rw [← List.append_assoc, ← split, ← asked]
          unfold Transfer.request fastDoneParts
          dsimp only
          rw [fst]
        rw [queue]
        show ZeroFirst (msgFastDone t.recv).1.seqFst _
        rw [fst]
        refine ⟨early, late ++ 0 :: rest, rfl, above, .inr ?_⟩
        rcases head with none | ⟨old, some⟩
        · exact ⟨rest, by rw [none, List.nil_append]⟩
        · exact ⟨old ++ 0 :: rest, by rw [some, List.cons_append]⟩

theorem fresh_faithful_base (b : Broadcast) : Faithful b (Transfer.fresh b) :=
  ⟨fresh_covered b, nofun, nofun⟩

/-- Every event keeps the file right. -/
theorem Faithful.step (small : b.seqMax < seqnumMax) (short : b.data.length < 2147483648)
    (faithful : Faithful b t) (event : TransferEvent b) (order : event.fifo)
    (completed : transferStep b round t event = .ok next) : Faithful b next := by
  cases fixed : t.recv.isSeqFst with
  | false =>
      obtain rfl := faithful.covered.fresh fixed
      cases event with
      | packet seq => exact fresh_faithful short seq completed
      | patch index =>
          obtain rfl := Except.ok.inj completed
          exact faithful
      | fastDone =>
          obtain rfl := Except.ok.inj completed
          exact faithful
  | true =>
      cases event with
      | packet seq =>
          cases running : t.recv.isFastpath with
          | true => exact faithful.packet small short fixed running seq completed
          | false =>
              rw [transferStep_packet_stopped running] at completed
              obtain rfl := Except.ok.inj completed
              exact faithful
      | patch index =>
          obtain rfl : index = 0 := order
          exact faithful.patch short fixed completed
      | fastDone => exact faithful.fastDone small fixed completed

theorem transferRun_faithful (small : b.seqMax < seqnumMax) (short : b.data.length < 2147483648)
    {events : List (TransferEvent b)} (order : ∀ event ∈ events, event.fifo)
    (completed : transferRun b round events = .ok t) : Faithful b t :=
  execute_invariant (fun _ event _ faithful allowed taken => faithful.step small short event allowed taken)
    (fresh_faithful_base b) order completed

end Steps

end RepublicAgent
