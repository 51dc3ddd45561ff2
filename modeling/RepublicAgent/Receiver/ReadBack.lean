/-
This file proves that a finished receiver reads back the data of the broadcast.
-/

import RepublicAgent.Receiver.Faithful

namespace RepublicAgent
open CyclicWindow Execution MachineInteger PositionedWrite

/-- A finished receiver has the data of the broadcast in its file, in the documented order. -/
theorem transfer_readBack (b : Broadcast) (small : b.seqMax < seqnumMax)
    (short : b.data.length < 2147483648) (round : Nat) (events : List (TransferEvent b))
    (order : ∀ event ∈ events, event.fifo) (t : Transfer) (completed : transferRun b round events = .ok t)
    (finished : t.recv.isFinished = true) :
    t.recv.readBack = b.data ∧ 0 ≤ t.recv.fileMetadata.start ∧
      t.recv.fileMetadata.start ≤ t.recv.fileMetadata.jump :=
  (transferRun_faithful small short order completed).read finished

theorem transfer_readBack_threeBytes :
    ∃ t, transferRun threeBytes 0 [.packet ⟨2, by decide⟩, .packet ⟨1, by decide⟩, .fastDone, .patch 0,
      .patch 0] = .ok t ∧ t.recv.readBack = [10, 20, 30] := by
  obtain ⟨t, completed, finished⟩ := exists_of_check
    (transferRun threeBytes 0 [.packet ⟨2, by decide⟩, .packet ⟨1, by decide⟩, .fastDone, .patch 0, .patch 0])
    (fun t => t.recv.isFinished) (by decide +kernel)
  exact ⟨t, completed, (transfer_readBack threeBytes (by decide) (by decide) 0 _
    (by simp [TransferEvent.fifo]) t completed finished).1⟩

section Sentinel

variable {b : Broadcast} {t : Transfer}

/-- The receiver got packets 1, 2 and 0 of `SEQNUM_MAX` packets. The sender reads the request up to
`seq_max` as a request up to the end of the round, so packet 0 is pending again. -/
structure Misread (b : Broadcast) (t : Transfer) (count : Nat) : Prop where
  fst : t.recv.seqFst = 1
  tail : t.recv.seqTail = 0
  known : t.recv.isSeqZero = true
  seqMax : t.recv.seqMax = seqnumMax
  payload : t.recv.bytePayload = 1
  fast : t.recv.numFastRecvEd = 3
  slow : t.recv.numSlowRecvEd = count
  start : t.recv.fileMetadata.start = seqnumMax - 1
  buffer : t.recv.tailPatchBuffer = none
  patchStream : count < seqnumMax - 3 → t.recv.fdPatchP.isSome = true
  hole : t.recv.file[seqnumMax - 2]? = some 0
  pending : t.pending = (0 :: List.range' 3 (seqnumMax - 3)).drop count
  finished : t.recv.isFinished = decide (count = seqnumMax - 3)

theorem misread_pending {count : Nat} (more : count < seqnumMax - 3) :
    (0 :: List.range' 3 (seqnumMax - 3))[count]? = some (if count = 0 then 0 else count + 2) := by
  cases count with
  | zero => rfl
  | succ count =>
      rw [List.getElem?_cons_succ, List.getElem?_range' (by omega), if_neg (by omega)]
      congr 1
      omega

/-- A patch leaves the hole of the last packet until the counters reach the packet count. -/
theorem Misread.patch (unit : b.payloadLen = 1) (total : b.seqMax = seqnumMax) {count : Nat}
    (more : count < seqnumMax - 3) (misread : Misread b t count) :
    ∃ next, transferStep b 0 t (.patch 0) = .ok next ∧ Misread b next (count + 1) := by
  have sentinel := seqnumMax_eq
  have found : t.pending[0]? = some (if count = 0 then 0 else count + 2) := by
    rw [misread.pending, List.getElem?_drop, Nat.add_zero, misread_pending more]
  obtain ⟨seq, named, other, low⟩ : ∃ seq, seq = (if count = 0 then 0 else count + 2) ∧ seq ≠ 1 ∧
      seq < seqnumMax - 1 := ⟨_, rfl, by split_ifs <;> omega, by split_ifs <;> omega⟩
  rw [← named] at found
  have inside : seq < b.seqMax := by omega
  have counting := @patchDataCount_known b t.recv seq misread.known (by rw [misread.start]; omega)
    (by rw [misread.tail]; omega) (by rw [misread.fst]; exact other)
  obtain ⟨recv, patched⟩ : ∃ recv, recv = t.recv.patch (b.slice seq) seq := ⟨_, rfl⟩
  have length : (b.slice seq).length = 1 := by
    rw [b.slice_length inside, b.offset_of_lt inside, Broadcast.offset, unit]
    have bytes := (b.lt_seqMax_iff seq).mp inside
    rw [unit] at bytes
    omega
  have hole : recv.file[seqnumMax - 2]? = some 0 := by
    obtain ⟨position, stream⟩ := Option.isSome_iff_exists.mp (misread.patchStream more)
    have lands : getFilePosition seq t.recv.seqFst t.recv.seqTail t.recv.bytePayload
        t.recv.fileMetadata.start = ((if seq = 0 then seqnumMax - 1 else seq - 1 : Nat) : Int) := by
      unfold getFilePosition
      rw [misread.fst, misread.tail, misread.payload, misread.start]
      have shifted : u32 ((seq : Int) - (1 : Nat)) = seq - 1 ∨ seq = 0 := by
        rw [u32_eq]
        omega
      split_ifs <;> omega
    have file : recv.file =
        writeAt 0 t.recv.file (if seq = 0 then seqnumMax - 1 else seq - 1) (b.slice seq) := by
      rw [patched]
      show streamWrite (fseekSet t.recv.fdPatchP _) t.recv.file (b.slice seq) = _
      rw [lands, stream]
      simp only [fseekSet, Option.map_some, if_pos (Int.natCast_nonneg _), Int.toNat_natCast]
      rfl
    have present : seqnumMax - 2 < t.recv.file.length := (List.getElem?_eq_some_iff.mp misread.hole).1
    rw [file, writeAt_outside _ _ _ _ _ present (by rw [length]; split_ifs <;> omega)]
    exact misread.hole
  have gotten : recverStateHasGottenAllData recv = decide (count + 1 = seqnumMax - 3) := by
    unfold recverStateHasGottenAllData
    rw [patched, patch_numFastRecvEd, patch_numSlowRecvEd, patch_seqMax, misread.fast, misread.slow,
      misread.seqMax]
    simp only [decide_eq_decide]
    omega
  have stream : recv.fdPatchP.isSome = true := by
    obtain ⟨position, stream⟩ := Option.isSome_iff_exists.mp (misread.patchStream more)
    rw [patched]
    show ((fseekSet t.recv.fdPatchP _).map _).isSome = true
    rw [stream]
    rfl
  have frame := patchDataTest_frame recv
  refine ⟨{ t with
    recv := (patchDataTest recv).1
    pending := t.pending.eraseIdx 0
    slowLog := t.slowLog ++ [seq] }, ?_, ?_⟩
  · simp only [transferStep, found, msgPatchData, counting, bind, Except.bind, pure, Except.pure, patched]
    rfl
  · have buffer : recv.tailPatchBuffer = none := by rw [patched, patch_tailPatchBuffer, misread.buffer]
    have unfinished : recv.isFinished = false := by
      rw [patched, patch_isFinished, misread.finished, decide_eq_false_iff_not]
      omega
    obtain ⟨start, kept, file, finished, open'⟩ :
        (patchDataTest recv).1.fileMetadata.start = recv.fileMetadata.start ∧
        (patchDataTest recv).1.tailPatchBuffer = none ∧ (patchDataTest recv).1.file = recv.file ∧
        (patchDataTest recv).1.isFinished = decide (count + 1 = seqnumMax - 3) ∧
        (count + 1 < seqnumMax - 3 → (patchDataTest recv).1.fdPatchP.isSome = true) := by
      unfold patchDataTest
      rw [gotten]
      by_cases last : count + 1 = seqnumMax - 3
      · rw [if_pos (by simpa using last)]
        refine ⟨rfl, rfl, ?_, (decide_eq_true last).symm, fun short => by omega⟩
        show (if recv.fdP.isSome then writeAt 0 recv.file recv.file.length
          ((recv.tailPatchBuffer.getD []).take recv.tailPatchBufferLen.toNat) else recv.file) = recv.file
        rw [buffer]
        simp
      · rw [if_neg (by simpa using last)]
        exact ⟨rfl, buffer, rfl, unfinished.trans (decide_eq_false last).symm, fun _ => stream⟩
    refine ⟨?_, ?_, ?_, ?_, ?_, ?_, ?_, ?_, kept, open', ?_, ?_, finished⟩
    · rw [frame, patched]
      exact misread.fst
    · rw [frame, patched]
      exact misread.tail
    · rw [frame, patched]
      exact misread.known
    · rw [frame, patched]
      exact misread.seqMax
    · rw [frame, patched]
      exact misread.payload
    · rw [frame, patched]
      exact misread.fast
    · rw [frame, patched]
      show t.recv.numSlowRecvEd + 1 = count + 1
      rw [misread.slow]
    · rw [start, patched]
      exact misread.start
    · rw [file]
      exact hole
    · show t.pending.eraseIdx 0 = _
      rw [misread.pending, List.eraseIdx_zero, List.tail_drop]

/-- After every counted patch the receiver is finished with the hole of the last packet. -/
theorem Misread.patches (unit : b.payloadLen = 1) (total : b.seqMax = seqnumMax) {count : Nat} (more : Nat)
    (bounded : count + more ≤ seqnumMax - 3) (misread : Misread b t count) :
    ∃ final, execute (transferStep b 0) t (List.replicate more (.patch 0)) = .ok final ∧
      Misread b final (count + more) := by
  induction more generalizing t count with
  | zero => exact ⟨t, rfl, misread⟩
  | succ more ih =>
      obtain ⟨next, taken, patched⟩ := misread.patch unit total (by omega)
      obtain ⟨final, rest, reached⟩ := ih (by omega) patched
      refine ⟨final, ?_, ?_⟩
      · rw [List.replicate_succ, execute_cons_ok]
        exact ⟨next, taken, rest⟩
      · rw [show count + (more + 1) = count + 1 + more by omega]
        exact reached

/-- A packet that does not wrap is counted and may be the last optical one. -/
theorem transferStep_counts {seq : Nat} (inside : seq < b.seqMax) (knows : Knows b (fastPathFirst t.recv seq))
    (running : t.recv.isFastpath = true)
    (last : (fastPathFirst t.recv seq).seqLst < b.seqMax ∨ (fastPathFirst t.recv seq).seqLst = seqnumMax)
    (safe : ¬(seq ≠ 0 ∧ seq < (fastPathFirst t.recv seq).seqFst ∧
      (fastPathFirst t.recv seq).seqFst < (fastPathFirst t.recv seq).seqLst)) :
    ∃ counted flags, FastCase b (fastPathFirst t.recv seq) seq counted flags ∧
      transferStep b 0 t (.packet ⟨seq, inside⟩) = .ok (({ t with
        recv := (fastPathLast counted seq).1
        fastLog := if t.recv.numFastRecvEd < counted.numFastRecvEd then t.fastLog ++ [seq]
          else t.fastLog } : Transfer).request b 0 (if flags.seqJump then flags.pt.toList else [])) := by
  obtain ⟨counted, flags, counting, branch⟩ := fastPathCount_completes knows inside last safe
  refine ⟨counted, flags, branch, ?_⟩
  rw [transferStep_packet_eq running ⟨seq, inside⟩, counting]
  rfl

/-- The receiver got the first `count` packets from packet 1 on and nothing else. -/
structure InOrder (b : Broadcast) (t : Transfer) (count : Nat) : Prop where
  knows : Knows b t.recv
  started : t.recv.isSeqFst = true
  running : t.recv.isFastpath = true
  fst : t.recv.seqFst = 1
  lst : t.recv.seqLst = count
  tail : t.recv.seqTail = 0
  unknown : t.recv.isSeqZero = false
  fast : t.recv.numFastRecvEd = count
  slow : t.recv.numSlowRecvEd = 0
  unfinished : t.recv.isFinished = false
  start : t.recv.fileMetadata.start = -1
  patchStream : t.recv.fdPatchP.isSome = true
  stream : t.recv.fdP = some count
  length : t.recv.file.length = count
  pending : t.pending = []

theorem slice_unit (unit : b.payloadLen = 1) {seq : Nat} (inside : seq < b.seqMax) :
    (b.slice seq).length = 1 := by
  have bytes := (b.lt_seqMax_iff seq).mp inside
  rw [b.slice_length inside, b.offset_of_lt inside, Broadcast.offset, unit]
  rw [unit] at bytes
  omega

/-- A packet of one byte goes behind the gap. -/
theorem accept_unit {recv : RecverState} {payload : List UInt8} {position : Nat} (unit : payload.length = 1)
    (stream : recv.fdP = some position) (length : recv.file.length ≤ position) (gap seqNum : Nat) :
    (recv.accept gap payload seqNum).fdP = some (position + gap + 1) ∧
      (recv.accept gap payload seqNum).file = writeAt 0 recv.file (position + gap) payload ∧
      (recv.accept gap payload seqNum).file.length = position + gap + 1 := by
  have written : (recv.accept gap payload seqNum).file = writeAt 0 recv.file (position + gap) payload := by
    show streamWrite (recv.fdP.map (· + gap)) recv.file payload = _
    rw [stream]
    rfl
  have nonempty : payload ≠ [] := by
    rintro rfl
    cases unit
  refine ⟨?_, written, ?_⟩
  · show (recv.fdP.map (· + gap)).map (· + payload.length) = _
    rw [stream, unit]
    rfl
  · rw [written, writeAt_length _ _ _ _ nonempty, unit]
    omega

/-- An accepted packet in order that is not the last optical one leads to the next state. -/
theorem inOrder_step {seq : Nat} (inside : seq < b.seqMax) (unit : b.payloadLen = 1)
    {recv : RecverState} (knows : Knows b recv) (started : recv.isSeqFst = true)
    (running : recv.isFastpath = true) (fst : recv.seqFst = 1) (tail : recv.seqTail = 0)
    (unknown : recv.isSeqZero = false) (fast : recv.numFastRecvEd + 1 = seq)
    (slow : recv.numSlowRecvEd = 0) (unfinished : recv.isFinished = false)
    (start : recv.fileMetadata.start = -1) (patchStream : recv.fdPatchP.isSome = true)
    (stream : recv.fdP = some (seq - 1)) (length : recv.file.length = seq - 1)
    (pending : t.pending = []) (log : List Nat) :
    InOrder b { t with
      recv := (fastPathLast (recv.accept 0 (b.slice seq) seq) seq).1
      fastLog := log } seq := by
  have bounded := b.seqMax_lt
  have other : isLastOptical (recv.accept 0 (b.slice seq) seq) seq = false := by
    unfold isLastOptical
    rw [accept_seqFst, fst, u32_succ (by omega)]
    simp only [decide_eq_false_iff_not]
    omega
  have kept : (fastPathLast (recv.accept 0 (b.slice seq) seq) seq).1 = recv.accept 0 (b.slice seq) seq := by
    rw [fastPathLast, if_neg (by simp [other])]
  obtain ⟨advanced, -, grown⟩ := accept_unit (slice_unit unit inside) stream length.le 0 seq
  rw [kept]
  refine ⟨?_, started, running, fst, rfl, tail, unknown, fast, slow, unfinished, start, patchStream, ?_, ?_,
    pending⟩
  · exact ⟨knows.bcdId, knows.payload, knows.learned, knows.unlearned⟩
  · rw [advanced]
    congr 1
    omega
  · rw [grown]
    omega

/-- Packet 1 is the first one. -/
theorem misread_first (unit : b.payloadLen = 1) (inside : 1 < b.seqMax) :
    ∃ next, transferStep b 0 (Transfer.fresh b) (.packet ⟨1, inside⟩) = .ok next ∧ InOrder b next 1 := by
  have first : fastPathFirst (Transfer.fresh b).recv 1 =
      { (Transfer.fresh b).recv with seqLst := 0, seqFst := 1, isSeqFst := true } := rfl
  have knows := (fresh_knows b).first 1
  obtain ⟨counted, flags, branch, taken⟩ := @transferStep_counts b (Transfer.fresh b) 1 inside knows rfl
    (by rw [first]; exact .inl b.seqMax_pos) (by rw [first]; simp)
  obtain ⟨shape, calm⟩ : counted = (fastPathFirst (Transfer.fresh b).recv 1).accept 0 (b.slice 1) 1 ∧
      flags.seqJump = false := by
    obtain ⟨accepted, quiet, shape⟩ := FastCase.first rfl rfl inside branch
    exact ⟨shape, quiet⟩
  refine ⟨_, taken, ?_⟩
  have silent : (if flags.seqJump = true then flags.pt.toList else []) = [] := by simp [calm]
  rw [silent, request_nil, shape]
  apply inOrder_step inside unit knows <;> rfl

/-- Packet 2 follows in order. -/
theorem misread_second (unit : b.payloadLen = 1) (inside : 2 < b.seqMax) (order : InOrder b t 1) :
    ∃ next, transferStep b 0 t (.packet ⟨2, inside⟩) = .ok next ∧ InOrder b next 2 := by
  have fixed : fastPathFirst t.recv 2 = t.recv := fastPathFirst_started order.started
  have lst := order.lst
  have fst := order.fst
  obtain ⟨counted, flags, branch, taken⟩ := transferStep_counts inside (order.knows.first 2) order.running
    (by rw [fixed, lst]; exact .inl (by omega)) (by rw [fixed, lst, fst]; omega)
  rw [fixed] at branch
  obtain ⟨shape, calm⟩ : counted = t.recv.accept 0 (b.slice 2) 2 ∧ flags.seqJump = false := by
    cases branch with
    | inOrder => exact ⟨rfl, rfl⟩
    | zeroInOrder zero | zeroJump zero | zeroRejected zero | zeroAgain zero => cases zero
    | jump beyond | jumpRejected beyond | wrap nonzero below | behind nonzero late => omega
  refine ⟨_, taken, ?_⟩
  have silent : (if flags.seqJump = true then flags.pt.toList else []) = [] := by simp [calm]
  rw [silent, request_nil, shape]
  exact inOrder_step inside unit order.knows order.started order.running fst order.tail order.unknown
    (by rw [order.fast]) order.slow order.unfinished order.start order.patchStream order.stream order.length
    order.pending _

/-- Packet 0 after packet 2 shows a loss of every other packet. -/
theorem InOrder.zero (order : InOrder b t 2) (long : 4 < b.seqMax) {counted : RecverState} {flags : PacketFlags}
    (branch : FastCase b t.recv 0 counted flags) :
    counted = (t.recv.learn b.metadata).accept
        ((b.seqMax - 4) * b.payloadLen + (b.data.length - b.offset (b.seqMax - 1))) (b.slice 0) 0 ∧
      flags = ⟨true, true, false, some ⟨3, b.seqMax⟩⟩ := by
  have sentinel := seqnumMax_eq
  have lst := order.lst
  have fst := order.fst
  cases branch with
  | inOrder nonzero | wrap nonzero | behind nonzero => exact absurd rfl nonzero
  | jump beyond | jumpRejected beyond => omega
  | zeroAgain _ known => exact absurd (order.unknown.symm.trans known) (by simp)
  | zeroInOrder _ _ follows => omega
  | zeroRejected _ _ _ _ outside => omega
  | zeroJump =>
      rw [lst]
      exact ⟨rfl, rfl⟩

/-- The request up to `seq_max` reads as a request up to packet 1 of the next round. -/
theorem msgPatchReq_misread (total : b.seqMax = seqnumMax) :
    msgPatchReq b.seqMax (0 * b.seqMax + 1) ⟨3, b.seqMax⟩ = [⟨0, 1⟩, ⟨3, b.seqMax⟩] := by
  have sentinel := seqnumMax_eq
  have target : (if b.seqMax = seq2WardTheEnd then (0 * b.seqMax + 1) % b.seqMax else b.seqMax) = 1 := by
    have misread : b.seqMax = seq2WardTheEnd := total
    rw [if_pos misread, Nat.zero_mul, Nat.zero_add, Nat.mod_eq_of_lt (by omega)]
  unfold msgPatchReq
  simp only [target]
  rw [Nat.mod_eq_of_lt (by omega), if_neg (by decide), if_pos (by decide)]

/-- Packet 0 shows a loss up to `seq_max`, and the sender misreads the request. -/
theorem misread_zero (unit : b.payloadLen = 1) (total : b.seqMax = seqnumMax)
    (size : b.data.length = seqnumMax) (inside : 0 < b.seqMax) (order : InOrder b t 2) :
    ∃ next, transferStep b 0 t (.packet ⟨0, inside⟩) = .ok next ∧ Misread b next 0 := by
  have sentinel := seqnumMax_eq
  have fixed : fastPathFirst t.recv 0 = t.recv := fastPathFirst_started order.started
  obtain ⟨counted, flags, branch, taken⟩ := transferStep_counts inside (order.knows.first 0) order.running
    (by rw [fixed, order.lst]; exact .inl (by omega)) (by simp)
  rw [fixed] at branch
  obtain ⟨shape, reported⟩ := order.zero (by omega) branch
  obtain ⟨gap, width, wide⟩ : ∃ gap, (b.seqMax - 4) * b.payloadLen +
      (b.data.length - b.offset (b.seqMax - 1)) = gap ∧ gap + 3 = b.seqMax := by
    refine ⟨_, rfl, ?_⟩
    rw [b.offset_of_lt (by omega), unit]
    omega
  rw [width] at shape
  have last : isLastOptical counted 0 = true := by
    rw [shape]
    unfold isLastOptical
    rw [accept_seqFst, learn_seqFst, order.fst]
    rfl
  have missing : recverStateHasGottenAllData (fastPathStop counted) = false := by
    simp only [recverStateHasGottenAllData, fastPathStop, recverStateStopFathPath, shape,
      accept_numFastRecvEd, accept_numSlowRecvEd, accept_seqMax, learn_numFastRecvEd, learn_numSlowRecvEd,
      learn_seqMax_eq order.knows.payload, order.fast, order.slow, decide_eq_false_iff_not]
    omega
  have stopped : (fastPathLast counted 0).1 = fastPathStop counted := by
    rw [fastPathLast, if_pos last, fastPathTest, if_neg (by simp [missing])]
  obtain ⟨advanced, written, grown⟩ := @accept_unit (t.recv.learn b.metadata) (b.slice 0) 2
    (slice_unit unit inside) order.stream order.length.le gap 0
  rw [← shape] at advanced written grown
  have unbuffered : (t.recv.learn b.metadata).tailPatchBuffer = none := by
    have kept := congrArg Prod.fst (learn_tailBuffer order.knows)
    rw [if_pos order.tail] at kept
    exact kept.trans (order.knows.unlearned order.unknown).2.1
  have start : (t.recv.learn b.metadata).fileMetadata.start = seqnumMax - 1 := by
    rw [learn_start (by omega) order.knows order.unknown (by rw [order.fst]; omega) order.tail order.start,
      order.fst, order.tail, if_neg (by decide), Broadcast.front, if_pos rfl, b.offset_of_lt (by omega), unit]
    omega
  have fst : counted.seqFst = 1 := by rw [shape, accept_seqFst, learn_seqFst, order.fst]
  have requested : t.pending ++ ([PatchTuple.mk 3 b.seqMax].flatMap (msgPatchReq b.seqMax
      (0 * b.seqMax + counted.seqFst))).flatMap PatchTuple.seqs = 0 :: List.range' 3 (seqnumMax - 3) := by
    rw [List.flatMap_singleton, fst, msgPatchReq_misread total, order.pending, total]
    simp [PatchTuple.seqs]
  refine ⟨_, taken, ?_⟩
  rw [reported, stopped]
  constructor
  · exact fst
  · show counted.seqTail = 0
    rw [shape, accept_seqTail, learn_seqTail, order.tail]
  · show counted.isSeqZero = true
    rw [shape, accept_isSeqZero, learn_isSeqZero]
  · show counted.seqMax = seqnumMax
    rw [shape, accept_seqMax, learn_seqMax_eq order.knows.payload, total]
  · show counted.bytePayload = 1
    rw [shape, accept_bytePayload, learn_bytePayload, order.knows.payload, unit]
  · show counted.numFastRecvEd = 3
    rw [shape, accept_numFastRecvEd, learn_numFastRecvEd, order.fast]
  · show counted.numSlowRecvEd = 0
    rw [shape, accept_numSlowRecvEd, learn_numSlowRecvEd, order.slow]
  · show counted.fileMetadata.start = seqnumMax - 1
    rw [shape, accept_fileMetadata, start]
  · show counted.tailPatchBuffer = none
    rw [shape, accept_tailPatchBuffer, unbuffered]
  · intro _
    show counted.fdPatchP.isSome = true
    rw [shape, accept_fdPatchP, learn_fdPatchP, order.patchStream]
  · show counted.file[seqnumMax - 2]? = some 0
    rw [written]
    apply writeAt_hole
    · exact List.ne_nil_of_length_eq_add_one (slice_unit unit inside)
    · rw [learn_file, order.length]
      omega
    · omega
  · exact requested
  · show counted.isFinished = _
    rw [shape, accept_isFinished, learn_isFinished, order.unfinished]
    rfl

/-- The packets 1, 2 and 0 lead to the misread request. -/
theorem misread_packets (unit : b.payloadLen = 1) (total : b.seqMax = seqnumMax)
    (length : b.data.length = seqnumMax) :
    ∃ (packets : List (TransferEvent b)) (final : Transfer), (∀ event ∈ packets, event.fifo) ∧
      transferRun b 0 packets = .ok final ∧ Misread b final 0 := by
  have sentinel := seqnumMax_eq
  have inside : ∀ seq, seq < 3 → seq < b.seqMax := fun seq small => by omega
  obtain ⟨first, taken, one⟩ := misread_first unit (inside 1 (by decide))
  obtain ⟨second, followed, two⟩ := misread_second unit (inside 2 (by decide)) one
  obtain ⟨third, jumped, misread⟩ := misread_zero unit total length (inside 0 (by decide)) two
  refine ⟨[.packet ⟨1, inside 1 (by decide)⟩, .packet ⟨2, inside 2 (by decide)⟩,
    .packet ⟨0, inside 0 (by decide)⟩], third, ?_, ?_, misread⟩
  · intro event member
    simp only [List.mem_cons, List.not_mem_nil, or_false] at member
    rcases member with rfl | rfl | rfl <;> trivial
  · rw [transferRun, execute_cons_ok]
    refine ⟨first, taken, execute_cons_ok.mpr ⟨second, followed, ?_⟩⟩
    rw [execute_singleton]
    exact jumped

/-- A file that is rotated around a blank byte reads back with the blank byte. -/
theorem Misread.blank {count : Nat} (misread : Misread b t count) : 0 ∈ t.recv.readBack := by
  have sentinel := seqnumMax_eq
  have start : t.recv.fileMetadata.start.toNat = seqnumMax - 1 := by
    rw [misread.start]
    omega
  have early : (t.recv.file.take (seqnumMax - 1))[seqnumMax - 2]? = some 0 := by
    rw [List.getElem?_take_of_lt (by omega)]
    exact misread.hole
  unfold RecverState.readBack
  rw [start]
  exact List.mem_append_left _ (List.mem_append_right _ (List.mem_of_getElem? early))

/-- A broadcast of `SEQNUM_MAX` packets of one byte can finish with a blank byte. -/
theorem misread_run (unit : b.payloadLen = 1) (total : b.seqMax = seqnumMax)
    (length : b.data.length = seqnumMax) :
    ∃ (events : List (TransferEvent b)) (final : Transfer), (∀ event ∈ events, event.fifo) ∧
      transferRun b 0 events = .ok final ∧ final.recv.isFinished = true ∧ 0 ∈ final.recv.readBack := by
  obtain ⟨packets, middle, delivered, reaching, misread⟩ := misread_packets unit total length
  obtain ⟨final, patches, reached⟩ := misread.patches unit total (seqnumMax - 3) (Nat.zero_add _).le
  refine ⟨_, final, ?_, execute_append_ok.mpr ⟨middle, reaching, patches⟩, ?_, reached.blank⟩
  · intro event member
    rcases List.mem_append.mp member with packet | patch
    · exact delivered event packet
    · rw [List.eq_of_mem_replicate patch]
      rfl
  · rw [reached.finished]
    exact decide_eq_true (Nat.zero_add _)

end Sentinel

/-- The broadcast has as many packets as the sentinel says, each of one byte that is not blank. -/
def sentinelBroadcast : Broadcast where
  bcdId := ⟨1, 2, 3⟩
  appId := []
  data := List.replicate seqnumMax 1
  payloadLen := 1
  appIdShort := threeBytes.appIdShort
  dataPositive := by rw [List.length_replicate]; decide
  payloadPositive := threeBytes.payloadPositive
  payloadFits := threeBytes.payloadFits
  seqMaxFits := by rw [List.length_replicate]; decide

theorem sentinelBroadcast_length : sentinelBroadcast.data.length = seqnumMax := List.length_replicate

theorem sentinelBroadcast_seqMax : sentinelBroadcast.seqMax = seqnumMax :=
  (Broadcast.seqMax_unit rfl).trans sentinelBroadcast_length

/-- The data cannot be read back when the packet count reaches the sentinel. -/
theorem transfer_readBack_sentinel :
    ¬∀ (b : Broadcast), b.data.length < 2147483648 → ∀ (round : Nat) (events : List (TransferEvent b)),
      (∀ event ∈ events, event.fifo) → ∀ t, transferRun b round events = .ok t →
        t.recv.isFinished = true → t.recv.readBack = b.data := by
  intro faithful
  obtain ⟨events, final, order, run, finished, blank⟩ :=
    misread_run rfl sentinelBroadcast_seqMax sentinelBroadcast_length
  have short : sentinelBroadcast.data.length < 2147483648 := by
    rw [sentinelBroadcast_length]
    decide
  rw [faithful sentinelBroadcast short 0 events order final run finished] at blank
  exact absurd (List.eq_of_mem_replicate blank) (by decide)

end RepublicAgent
