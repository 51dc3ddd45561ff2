/-
This file follows a receiver whose patches come in the order of their requests. It fails no assert on a patch,
and its last packet finishes it.
-/

import RepublicAgent.Receiver.Faithful

namespace RepublicAgent
open CyclicWindow Execution MachineInteger

/-- A wrap that lost packet zero asks for it before the tail, whose buffer comes with the metadata. -/
def ZeroBeforeTail (seqTail : Nat) (pending : List Nat) : Prop :=
  ∃ early late, pending = early ++ 0 :: late ∧ ∀ seq ∈ early, seq ≤ seqTail

/-- A faithful transfer is finished with its last packet. -/
structure Orderly (b : Broadcast) (t : Transfer) : Prop extends Faithful b t where
  tail : t.recv.isSeqZero = false → t.recv.seqTail ≠ 0 → ZeroBeforeTail t.recv.seqTail t.pending
  prompt : t.recv.isSeqFst = true → t.recv.numFastRecvEd + t.recv.numSlowRecvEd = b.seqMax →
    t.recv.isFinished = true

section Requests

variable {b : Broadcast} {recv counted : RecverState} {flags : PacketFlags} {pending : List Nat} {seq : Nat}

theorem ZeroBeforeTail.append {seqTail : Nat} (before : ZeroBeforeTail seqTail pending) (later : List Nat) :
    ZeroBeforeTail seqTail (pending ++ later) := by
  obtain ⟨early, late, rfl, low⟩ := before
  exact ⟨early, late ++ later, by simp, low⟩

/-- The request of a wrap begins with packet zero. -/
theorem wrapRequest_zeroFirst {lst : Nat} (inside : lst < b.seqMax) (nonzero : seq ≠ 0) (below : seq ≤ lst)
    (plain : seq ≠ seq2WardTheEnd) (seqEnd : Nat) :
    ∃ rest, (msgPatchReq b.seqMax seqEnd ⟨lst + 1, seq⟩).flatMap PatchTuple.seqs = 0 :: rest := by
  obtain ⟨count, rfl⟩ : ∃ count, seq = count + 1 := ⟨seq - 1, by omega⟩
  simp only [msgPatchReq, if_neg plain]
  by_cases last : lst + 1 < b.seqMax
  · rw [Nat.mod_eq_of_lt last, if_neg (by omega), if_pos (by omega)]
    exact ⟨_, rfl⟩
  · rw [show lst + 1 = b.seqMax by omega, Nat.mod_self, if_pos (by omega)]
    exact ⟨_, rfl⟩

/-- A packet without the metadata keeps packet zero before the tail. -/
theorem FastCase.zeroBeforeTail (small : b.seqMax < seqnumMax) (branch : FastCase b recv seq counted flags)
    (inside : seq < b.seqMax) (lstInside : recv.seqLst < b.seqMax)
    (before : recv.isSeqZero = false → recv.seqTail ≠ 0 → ZeroBeforeTail recv.seqTail pending)
    (firstHalf : recv.seqFst ≤ recv.seqLst → ∀ seq ∈ pending, seq ≤ recv.seqLst)
    (unknown : counted.isSeqZero = false) (wrapped : counted.seqTail ≠ 0) (round : Nat) :
    ZeroBeforeTail counted.seqTail
      (pending ++ (requestParts b round recv.seqFst flags).flatMap PatchTuple.seqs) := by
  have bounded := b.seqMax_lt
  have sentinel := seqnumMax_eq
  cases branch with
  | inOrder | jump => exact (before unknown wrapped).append _
  | zeroInOrder | zeroJump =>
      rw [accept_isSeqZero, learn_isSeqZero] at unknown
      cases unknown
  | zeroRejected =>
      rw [learn_isSeqZero] at unknown
      cases unknown
  | zeroAgain | jumpRejected | behind => exact (before unknown wrapped).append _
  | wrap nonzero below above tail start =>
      have after : u32 ((recv.seqLst : Int) + 1) = recv.seqLst + 1 := u32_succ (by omega)
      obtain ⟨rest, asked⟩ := @wrapRequest_zeroFirst b seq recv.seqLst lstInside nonzero (by omega)
        (by unfold seq2WardTheEnd; omega) (round * b.seqMax + recv.seqFst)
      refine ⟨pending, rest, ?_, firstHalf (by omega)⟩
      rw [← asked, requestParts, if_pos rfl, after]
      simp

end Requests

section Steps

variable {b : Broadcast} {round : Nat} {t next : Transfer} {seq : Nat}

/-- A receiver with every packet passes the completion test. -/
theorem Started.gottenAll (started : Started b t) (knows : Knows b t.recv)
    (sum : t.recv.numFastRecvEd + t.recv.numSlowRecvEd = b.seqMax) :
    recverStateHasGottenAllData t.recv = true := by
  have known := started.zero (started.toAccounted.complete sum 0 b.seqMax_pos)
  have count := (knows.learned known).1
  simp [recverStateHasGottenAllData, count, sum]

/-- A running receiver misses a packet. -/
theorem Started.missing (started : Started b t) (running : t.recv.isFastpath = true) :
    t.recv.numFastRecvEd + t.recv.numSlowRecvEd < b.seqMax := by
  obtain ⟨unclosed, -, unwrapped, zeroFirst⟩ := started.running running
  have total := started.total
  have fstInside := started.fstInside
  have lstInside := started.lstInside
  have low := fun first => (zeroFirst first).2
  rw [Transfer.reach, if_neg (by simp [unclosed])] at total
  unfold distance at total
  split_ifs at total <;> omega

/-- The last optical packet tests for completion. -/
theorem Started.promptLast (started : Started b next) (knows : Knows b next.recv) {counted : RecverState}
    (running : counted.isFastpath = true) (ended : next.recv = (fastPathLast counted seq).1)
    (sum : next.recv.numFastRecvEd + next.recv.numSlowRecvEd = b.seqMax) : next.recv.isFinished = true := by
  have stopped : next.recv.isFastpath = false := by
    by_contra active
    have fewer := started.missing (by simpa using active)
    omega
  have gotten := started.gottenAll knows sum
  rw [ended] at stopped gotten ⊢
  have frame := fastPathLast_frame counted seq
  unfold fastPathLast at stopped frame gotten ⊢
  split_ifs at stopped frame gotten ⊢ with last
  · unfold fastPathTest at gotten ⊢
    split_ifs at gotten ⊢ with all
    · rfl
    · exact absurd gotten all
  · exact absurd (running.symm.trans stopped) (by simp)

/-- The first packet of a receiver leaves no tail. -/
theorem Orderly.first (short : b.data.length < 2147483648) (seq : Fin b.seqMax)
    (completed : transferStep b round (Transfer.fresh b) (.packet seq) = .ok next) : Orderly b next := by
  have faithful := fresh_faithful short seq completed
  have fixed := (fresh_packet b seq completed).1
  have started := faithful.covered.started fixed
  obtain ⟨counted, flags, counting, rfl⟩ := transferStep_packet rfl completed
  have first := fresh_counted b seq counting
  refine ⟨faithful, ?_, ?_⟩
  · intro unknown wrapped
    have bounded := b.seqMax_lt
    have inside := seq.isLt
    have shape : fastPathFirst (Transfer.fresh b).recv seq = _ := fastPathFirst_fresh rfl (by omega)
    have branch := fastPathCount_cases ((fresh_knows b).first seq) inside
      (by rw [shape]; dsimp only; split_ifs <;> omega) counting
    have exact := (FastCase.first rfl rfl inside branch).2.2
    have flat : counted.seqTail = 0 := by
      rw [exact, accept_seqTail, shape]
      split_ifs
      · rfl
      · rfl
    refine absurd ?_ wrapped
    rw [request_last]
    show (fastPathLast counted seq).1.seqTail = 0
    rw [fastPathLast_frame]
    exact flat
  · exact fun _ sum => started.promptLast faithful.covered.knows first.running rfl sum

/-- A packet of the running fast path keeps the order. -/
theorem Orderly.packet (small : b.seqMax < seqnumMax) (short : b.data.length < 2147483648)
    (orderly : Orderly b t) (fixed : t.recv.isSeqFst = true) (running : t.recv.isFastpath = true)
    (seq : Fin b.seqMax) (completed : transferStep b round t (.packet seq) = .ok next) : Orderly b next := by
  have faithful := orderly.toFaithful.packet small short fixed running seq completed
  have started := orderly.covered.started fixed
  obtain ⟨unclosed, -⟩ := started.running running
  obtain ⟨active, covered⟩ := started.packet small orderly.covered.knows fixed running seq completed
  obtain ⟨counted, flags, counting, rfl⟩ := transferStep_packet running completed
  obtain ⟨branch, -⟩ := orderly.toFaithful.packet_positioned small short fixed running seq counting
  have frame := fastPathLast_frame counted seq
  have fst : (fastPathLast counted seq).1.seqFst = t.recv.seqFst := by
    rw [frame]
    exact branch.frame.2.1
  have final := covered.started active
  refine ⟨faithful, ?_, ?_⟩
  · intro (unknown : (fastPathLast counted seq).1.isSeqZero = false)
      (wrapped : (fastPathLast counted seq).1.seqTail ≠ 0)
    show ZeroBeforeTail (fastPathLast counted seq).1.seqTail (t.pending ++ ((if flags.seqJump then flags.pt.toList
      else []).flatMap (msgPatchReq b.seqMax
        (round * b.seqMax + (fastPathLast counted seq).1.seqFst))).flatMap PatchTuple.seqs)
    rw [fst]
    rw [frame] at unknown wrapped ⊢
    apply branch.zeroBeforeTail small seq.isLt started.lstInside orderly.tail ?_ unknown wrapped round
    intro first other member
    have asked : other ∈ t.requested := started.delivered.mem_iff.mpr (List.mem_append_left _ member)
    exact (started.toAccounted.firstHalf unclosed first other (List.mem_append_right _ asked)).2
  · intro _ sum
    exact final.promptLast covered.knows (branch.frame.2.2.2.1.trans running) rfl sum

/-- The oldest patch keeps the order. -/
theorem Orderly.patch (short : b.data.length < 2147483648) (orderly : Orderly b t)
    (fixed : t.recv.isSeqFst = true) (completed : transferStep b round t (.patch 0) = .ok next) :
    Orderly b next := by
  have faithful := orderly.toFaithful.patch short fixed completed
  have started := orderly.covered.started fixed
  obtain ⟨active, covered⟩ := started.patch orderly.covered.knows fixed completed
  have final := covered.started active
  rcases transferStep_patch completed with rfl | ⟨seq, recv, counted, requested, counting, rfl⟩
  · exact orderly
  have member : seq ∈ t.pending := List.mem_of_getElem? requested
  have branch := patchDataCount_cases orderly.covered.knows counting
  have other := started.pending_ne_first member
  obtain ⟨rfl, -⟩ := branch.counts other
  obtain ⟨-, -, -, tail, -, -, -, zero⟩ := branch.frame
  have frame := patchDataTest_frame recv
  refine ⟨faithful, ?_, ?_⟩
  · intro (unknown : (patchDataTest recv).1.isSeqZero = false) (wrapped : (patchDataTest recv).1.seqTail ≠ 0)
    show ZeroBeforeTail (patchDataTest recv).1.seqTail (t.pending.eraseIdx 0)
    rw [frame] at unknown wrapped ⊢
    show ZeroBeforeTail recv.seqTail (t.pending.eraseIdx 0)
    have before : t.recv.isSeqZero = false := by
      by_contra known
      exact absurd (unknown.symm.trans (zero (by simpa using known))) (by simp)
    obtain ⟨early, late, split, low⟩ := orderly.tail before (by rw [← tail]; exact wrapped)
    rw [split] at requested ⊢
    rw [tail]
    cases early with
    | nil =>
        have now : seq = 0 := by simpa [eq_comm] using requested
        exact absurd (unknown.symm.trans (branch.zero other now)) (by simp)
    | cons first rest => exact ⟨rest, late, rfl, fun other known => low other (List.mem_cons_of_mem first known)⟩
  · intro _ sum
    have gotten := final.gottenAll covered.knows sum
    change recverStateHasGottenAllData (patchDataTest recv).1 = true at gotten
    change (patchDataTest recv).1.isFinished = true
    unfold patchDataTest at gotten ⊢
    split_ifs at gotten ⊢ with all
    · rfl
    · exact absurd gotten all

/-- The accounting does not depend on the order of the pending patches. -/
theorem Covered.reorder (covered : Covered b t) (fixed : t.recv.isSeqFst = true) {pending : List Nat}
    (perm : t.pending.Perm pending) : Covered b { t with pending := pending } := by
  have started := covered.started fixed
  have delivered := started.delivered.trans (perm.append_right t.slowLog)
  refine ⟨covered.knows, fun unstarted => absurd (fixed.symm.trans unstarted) (by simp), fun _ => ?_⟩
  exact ⟨⟨started.fstInside, started.lstInside, started.first, started.covers, delivered, started.ranges,
    started.fastCount, started.slowCount⟩, started.running, started.zero, started.finished⟩

/-- The last request of a receiver in the second half stays before the tail. -/
theorem fastDoneParts_lt (small : b.seqMax < seqnumMax) (started : Started b t) (knows : Knows b t.recv)
    (unclosed : t.fastDoneSeen = false) (half : t.recv.seqLst < t.recv.seqFst) (round : Nat) :
    ∀ seq ∈ (fastDoneParts b round t.recv).flatMap PatchTuple.seqs, seq < t.recv.seqFst := by
  intro seq member
  have fstInside := started.fstInside
  have placed := (started.fastDoneParts small knows unclosed round).1.mem_iff.mp member
  rw [← window_mod, Nat.mod_eq_of_lt (show t.recv.seqLst + 1 < b.seqMax by omega)] at placed
  have inside : t.recv.seqLst + 1 < b.seqMax := by omega
  rw [mem_window inside (distance_lt inside fstInside).le] at placed
  unfold distance at placed
  split_ifs at placed <;> omega

/-- A request below the tail may stand before packet zero. -/
theorem ZeroBeforeTail.insert {seqTail : Nat} {front middle rest : List Nat}
    (before : ZeroBeforeTail seqTail (front ++ rest)) (low : ∀ seq ∈ middle, seq ≤ seqTail) :
    ZeroBeforeTail seqTail (front ++ (middle ++ rest)) := by
  obtain ⟨early, late, same, below⟩ := before
  rcases List.append_eq_append_iff.mp same with ⟨between, rfl, tail⟩ | ⟨between, rfl, tail⟩
  · -- Packet zero stands in the overtaken part.
    refine ⟨front ++ (middle ++ between), late, by rw [tail]; simp, ?_⟩
    intro seq member
    simp only [List.mem_append] at member below
    rcases member with first | inserted | later
    · exact below seq (.inl first)
    · exact low seq inserted
    · exact below seq (.inr later)
  · cases between with
    | nil =>
        obtain rfl : rest = 0 :: late := tail.symm
        refine ⟨early ++ middle, late, by simp, ?_⟩
        intro seq member
        exact (List.mem_append.mp member).elim (below seq) (low seq)
    | cons head between =>
        obtain ⟨rfl, rfl⟩ := List.cons.inj tail
        exact ⟨early, between ++ (middle ++ rest), by simp, below⟩

/-- A receiver without the metadata and without a tail is in its first half. -/
theorem Faithful.firstHalf (faithful : Faithful b t) (fixed : t.recv.isSeqFst = true)
    (unfinished : t.recv.isFinished = false) (unknown : t.recv.isSeqZero = false) (flat : t.recv.seqTail = 0) :
    t.recv.seqFst ≤ t.recv.seqLst ∧ t.recv.seqFst ≠ 0 := by
  have started := faithful.covered.started fixed
  constructor
  · by_contra later
    rcases (faithful.placed fixed unfinished).positioned.second (by omega) with known | wrapped
    · exact absurd (unknown.symm.trans known) (by simp)
    · exact wrapped flat
  · intro zero
    have arrived := started.zero (List.mem_append_left _ (zero ▸ started.first))
    exact absurd (unknown.symm.trans arrived) (by simp)

/-- The last request of a receiver without a tail asks for packet zero first. -/
theorem Faithful.overtake_zeroFirst (faithful : Faithful b t) (fixed : t.recv.isSeqFst = true)
    (unclosed : t.fastDoneSeen = false) (unfinished : t.recv.isFinished = false) (unknown : t.recv.isSeqZero = false)
    (flat : t.recv.seqTail = 0) {front rest : List Nat} (split : t.pending = front ++ rest) :
    ZeroFirst t.recv.seqFst
      (front ++ ((fastDoneParts b round t.recv).flatMap PatchTuple.seqs ++ rest)) := by
  have started := faithful.covered.started fixed
  obtain ⟨first, nonzero⟩ := faithful.firstHalf fixed unfinished unknown flat
  obtain ⟨later, asked⟩ := fastDoneParts_zeroFirst unfinished unknown started.fstInside started.lstInside nonzero first
    round
  refine ⟨front, 0 :: (later ++ rest), by rw [asked]; rfl, ?_, .inr ⟨_, rfl⟩⟩
  intro seq member
  have waiting : seq ∈ t.pending := split ▸ List.mem_append_left rest member
  have requested : seq ∈ t.requested := started.delivered.mem_iff.mpr (List.mem_append_left _ waiting)
  exact (started.toAccounted.firstHalf unclosed first seq (List.mem_append_right _ requested)).1

/-- The last request of a receiver with a tail lies before it. -/
theorem Orderly.overtake_tail (small : b.seqMax < seqnumMax) (orderly : Orderly b t) (fixed : t.recv.isSeqFst = true)
    (unclosed : t.fastDoneSeen = false) (unknown : t.recv.isSeqZero = false) (wrapped : t.recv.seqTail ≠ 0)
    {front rest : List Nat} (split : t.pending = front ++ rest) :
    ZeroBeforeTail t.recv.seqTail
      (front ++ ((fastDoneParts b round t.recv).flatMap PatchTuple.seqs ++ rest)) := by
  have started := orderly.covered.started fixed
  have unfinished : t.recv.isFinished = false := by
    by_contra finished
    exact absurd (unknown.symm.trans (started.complete (by simpa using finished)).1) (by simp)
  have positioned := (orderly.placed fixed unfinished).positioned
  have order := positioned.toStored.tailOrder wrapped
  have before := orderly.tail unknown wrapped
  rw [split] at before
  apply before.insert
  intro seq member
  have low := fastDoneParts_lt small started orderly.covered.knows unclosed (positioned.half wrapped) round seq member
  omega

/-- The request of `MSG_FAST_DONE` may overtake the last of the earlier ones. -/
theorem Orderly.overtake (small : b.seqMax < seqnumMax) (orderly : Orderly b t) (fixed : t.recv.isSeqFst = true)
    (unclosed : t.fastDoneSeen = false) {front rest : List Nat} (split : t.pending = front ++ rest) :
    Orderly b { t with
      recv := (msgFastDone t.recv).1
      ring := t.ring ++ fastDoneParts b round t.recv
      pending := front ++ ((fastDoneParts b round t.recv).flatMap PatchTuple.seqs ++ rest)
      fastDoneSeen := true } := by
  have started := orderly.covered.started fixed
  obtain ⟨recv, stopped⟩ : ∃ recv, recv = (msgFastDone t.recv).1 := ⟨_, rfl⟩
  have fields : recv = { t.recv with isFastpath := recv.isFastpath } := by
    rw [stopped, msgFastDone_recv]
    split <;> rfl
  have taken : transferStep b round t .fastDone = .ok { t with
      recv := recv
      ring := t.ring ++ fastDoneParts b round t.recv
      pending := t.pending ++ (fastDoneParts b round t.recv).flatMap PatchTuple.seqs
      fastDoneSeen := true } := by
    have fst : (msgFastDone t.recv).1.seqFst = t.recv.seqFst := by
      rw [← stopped, fields]
    simp [transferStep, fixed, unclosed, Transfer.request, fastDoneParts, stopped, fst]
  have faithful := orderly.toFaithful.fastDone small fixed taken
  have active := (started.fastDone small orderly.covered.knows fixed taken).1
  have perm : (t.pending ++ (fastDoneParts b round t.recv).flatMap PatchTuple.seqs).Perm
      (front ++ ((fastDoneParts b round t.recv).flatMap PatchTuple.seqs ++ rest)) := by
    rw [split, List.append_assoc]
    exact List.perm_append_comm.append_left front
  have fst : recv.seqFst = t.recv.seqFst := by rw [fields]
  have tail : recv.seqTail = t.recv.seqTail := by rw [fields]
  have zero : recv.isSeqZero = t.recv.isSeqZero := by rw [fields]
  have done : recv.isFinished = t.recv.isFinished := by rw [fields]
  have counts : recv.numFastRecvEd + recv.numSlowRecvEd = t.recv.numFastRecvEd + t.recv.numSlowRecvEd := by
    rw [fields]
  rw [← stopped]
  refine ⟨⟨faithful.covered.reorder active perm, ?_, faithful.read⟩, ?_, ?_⟩
  · intro _ open'
    refine ⟨(faithful.placed active open').positioned, ?_⟩
    intro unknown flat
    have order := @Faithful.overtake_zeroFirst b round t orderly.toFaithful fixed unclosed (done ▸ open')
      (zero ▸ unknown) (tail ▸ flat) front rest split
    rw [← fst] at order
    exact order
  · intro unknown wrapped
    have order := @Orderly.overtake_tail b round t small orderly fixed unclosed (zero ▸ unknown) (tail ▸ wrapped)
      front rest split
    rw [← tail] at order
    exact order
  · intro _ sum
    exact done.trans (orderly.prompt fixed (counts.symm.trans sum))

/-- Every event keeps the order. -/
theorem Orderly.step (small : b.seqMax < seqnumMax) (short : b.data.length < 2147483648) (orderly : Orderly b t)
    (event : TransferEvent b) (order : event.fifo) (completed : transferStep b round t event = .ok next) :
    Orderly b next := by
  cases fixed : t.recv.isSeqFst with
  | false =>
      obtain rfl := orderly.covered.fresh fixed
      cases event with
      | packet seq => exact Orderly.first short seq completed
      | patch index =>
          obtain rfl := Except.ok.inj completed
          exact orderly
      | fastDone =>
          obtain rfl := Except.ok.inj completed
          exact orderly
  | true =>
      cases event with
      | packet seq =>
          cases running : t.recv.isFastpath with
          | true => exact orderly.packet small short fixed running seq completed
          | false =>
              rw [transferStep_packet_stopped running] at completed
              obtain rfl := Except.ok.inj completed
              exact orderly
      | patch index =>
          obtain rfl : index = 0 := order
          exact orderly.patch short fixed completed
      | fastDone =>
          rcases transferStep_fastDone completed with rfl | ⟨-, unclosed, rfl⟩
          · exact orderly
          have overtaken := @Orderly.overtake b round t small orderly fixed unclosed t.pending [] (by simp)
          have fst : (msgFastDone t.recv).1.seqFst = t.recv.seqFst := by
            rw [msgFastDone_recv]
            split <;> rfl
          unfold Transfer.request
          dsimp only
          rw [fst]
          rw [List.append_nil] at overtaken
          exact overtaken

section Faults

/-- The oldest patch finds its stream open and fails no assert. -/
theorem Orderly.patch_completes (short : b.data.length < 2147483648) (orderly : Orderly b t)
    (fixed : t.recv.isSeqFst = true) (requested : t.pending[0]? = some seq) :
    t.recv.fdPatchP.isSome = true ∧ ∃ outcome, patchDataCount t.recv (b.packet seq) = .ok outcome := by
  have knows := orderly.covered.knows
  have started := orderly.covered.started fixed
  have member : seq ∈ t.pending := List.mem_of_getElem? requested
  have inside := started.pending_inside member
  have stored := (orderly.placed fixed (started.unfinished member)).positioned.toStored
  refine ⟨stored.patchStream, ?_⟩
  have start : t.recv.seqTail ≠ 0 ∨ t.recv.isSeqZero = true → 0 ≤ t.recv.fileMetadata.start := by
    intro known
    rcases stored.start with ⟨flat, unknown, -⟩ | ⟨-, set⟩
    · exact absurd known (by simp [flat, unknown])
    · rw [set]
      split_ifs
      · exact le_rfl
      · exact Int.natCast_nonneg _
  unfold patchDataCount
  rw [show (b.packet seq).seqNum = seq from rfl, show (b.packet seq).metadata = b.metadata from rfl]
  split_ifs with behind first zero
  · have known : t.recv.isSeqZero = true := by
      by_contra unknown
      obtain ⟨early, late, split, low⟩ := orderly.tail (by simpa using unknown) behind.1.ne'
      rw [split] at requested
      cases early with
      | nil =>
          have now : seq = 0 := by simpa [eq_comm] using requested
          omega
      | cons head rest =>
          have now : head = seq := by simpa using requested
          have below := low head List.mem_cons_self
          omega
    have tail : b.offset (t.recv.seqTail + 1) < b.data.length :=
      (b.offset_mono behind.2).trans_lt (b.offset_lt inside)
    have allocated := stored.allocated known (by
      unfold Broadcast.front
      rw [if_neg behind.1.ne']
      exact tail)
    obtain ⟨buffer, present⟩ := Option.isSome_iff_exists.mp allocated
    simp only [RecverState.copyToTail, present]
    exact ⟨_, rfl⟩
  · exact ⟨_, rfl⟩
  · cases known : t.recv.isSeqZero with
    | true =>
        have set := start (.inr known)
        rw [update_again known]
        simp only [bind, Except.bind, pure, Except.pure, if_neg (not_lt.mpr set)]
        exact ⟨_, rfl⟩
    | false =>
        have learned := stored.learn short knows known started.fstInside
        have set : 0 ≤ (t.recv.learn b.metadata).fileMetadata.start := by
          rcases learned.start with ⟨-, unknown, -⟩ | ⟨-, set⟩
          · rw [learn_isSeqZero] at unknown
            cases unknown
          · rw [set]
            split_ifs
            · exact le_rfl
            · exact Int.natCast_nonneg _
        rw [update_learns knows known]
        simp only [bind, Except.bind, pure, Except.pure, if_neg (not_lt.mpr set)]
        exact ⟨_, rfl⟩
  · exact ⟨_, rfl⟩

/-- A packet of the running fast path finds its stream open, and it fails only the assert of the wrap branch
that the start of the file is unset. -/
theorem Orderly.packet_error (orderly : Orderly b t) (fixed : t.recv.isSeqFst = true)
    (running : t.recv.isFastpath = true) (inside : seq < b.seqMax) :
    t.recv.fdP.isSome = true ∧ ∀ fault, processRings t.recv (b.packet seq) = .error fault →
      fault = .fileStartUnset := by
  have knows := orderly.covered.knows
  have started := orderly.covered.started fixed
  have positioned := (orderly.placed fixed (started.running running).2.1).positioned
  have same : fastPathFirst t.recv seq = t.recv := fastPathFirst_started fixed
  refine ⟨by rw [positioned.stream]; rfl, ?_⟩
  intro fault failed
  rw [processRings, if_pos running] at failed
  cases counting : fastPathCount t.recv (b.packet seq) with
  | ok outcome => simp [counting, bind, Except.bind, pure, Except.pure] at failed
  | error assertion =>
      simp only [counting, bind, Except.bind, Except.error.injEq] at failed
      subst failed
      have branch := (fastPathCount_error t.recv seq _).mp counting
      rw [same] at branch
      obtain ⟨⟨-, below, above⟩, wrapped | unset⟩ :=
        (fastPathBranch_error knows inside (.inl started.lstInside) _).mp branch
      · have half := positioned.half wrapped.1
        omega
      · exact unset.2.2

end Faults

end Steps

end RepublicAgent
