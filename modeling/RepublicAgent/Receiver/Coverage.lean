/-
This file proves that the fast path and the requested ranges cover every packet exactly once.
-/

import RepublicAgent.Receiver.Transfer

namespace RepublicAgent
open CyclicWindow Execution MachineInteger

/-- The sequence numbers of all requested ranges. -/
def Transfer.requested (t : Transfer) : List Nat := t.ring.flatMap PatchTuple.seqs

/-- The length of the accounted window. The message `MSG_FAST_DONE` closes the round. -/
def Transfer.reach (b : Broadcast) (t : Transfer) : Nat :=
  if t.fastDoneSeen then b.seqMax else distance b.seqMax t.recv.seqFst t.recv.seqLst + 1

/-- The accepted and the requested packets form the window from `seq_fst` to `seq_lst`. -/
structure Accounted (b : Broadcast) (t : Transfer) : Prop where
  fstInside : t.recv.seqFst < b.seqMax
  lstInside : t.recv.seqLst < b.seqMax
  first : t.recv.seqFst ∈ t.fastLog
  covers : (t.fastLog ++ t.requested).Perm (window b.seqMax t.recv.seqFst (t.reach b))
  delivered : t.requested.Perm (t.pending ++ t.slowLog)
  ranges : ∀ part ∈ t.ring, part.endSeq ≤ b.seqMax
  fastCount : t.recv.numFastRecvEd = t.fastLog.length
  slowCount : t.recv.numSlowRecvEd = t.slowLog.length

/-- The running fast path has not closed the round, packet zero brings the metadata, and a
finished receiver has every packet. -/
structure Started (b : Broadcast) (t : Transfer) : Prop extends Accounted b t where
  running : t.recv.isFastpath = true →
    t.fastDoneSeen = false ∧ t.recv.isFinished = false ∧ t.recv.seqLst + 1 ≠ t.recv.seqFst ∧
      (t.recv.seqFst = 0 → t.recv.isSeqZero = true ∧ t.recv.seqLst + 1 < b.seqMax)
  zero : 0 ∈ t.fastLog ++ t.slowLog → t.recv.isSeqZero = true
  finished : t.recv.isFinished = true → t.recv.numFastRecvEd + t.recv.numSlowRecvEd = b.seqMax

/-- A transfer is fresh up to its first packet. -/
structure Covered (b : Broadcast) (t : Transfer) : Prop where
  knows : Knows b t.recv
  fresh : t.recv.isSeqFst = false → t = Transfer.fresh b
  started : t.recv.isSeqFst = true → Started b t

section Cases

variable {b : Broadcast} {recv next : RecverState} {flags : PacketFlags} {seq : Nat}

/-- A request behind `seq_lst` fills the gap up to the packet that shows it. -/
theorem jump_window {fst lst last seqEnd : Nat} (fstInside : fst < b.seqMax) (lstInside : lst < b.seqMax)
    (inside : seq < b.seqMax) (plain : last ≠ seq2WardTheEnd) (lastInside : last ≤ b.seqMax)
    (steps : distance b.seqMax fst seq =
      distance b.seqMax fst lst + 1 + distance b.seqMax ((lst + 1) % b.seqMax) last) :
    (window b.seqMax fst (distance b.seqMax fst lst + 1) ++
      (msgPatchReq b.seqMax seqEnd ⟨lst + 1, last⟩).flatMap PatchTuple.seqs ++ [seq]).Perm
      (window b.seqMax fst (distance b.seqMax fst seq + 1)) := by
  have filled := @msgPatchReq_seqs b.seqMax seqEnd last b.seqMax_pos ⟨lst + 1, last⟩ (if_neg plain)
    lastInside
  rw [window_jump fstInside lstInside inside steps]
  exact (filled.append_left _).append_right _

/-- The tuples that the sender derives from the report of one packet. -/
def requestParts (b : Broadcast) (round seqFst : Nat) (flags : PacketFlags) : List PatchTuple :=
  (if flags.seqJump then flags.pt.toList else []).flatMap
    (msgPatchReq b.seqMax (round * b.seqMax + seqFst))

/-- An accepted packet extends the accounted window by the requested gap and itself. -/
theorem FastCase.window (small : b.seqMax < seqnumMax) (branch : FastCase b recv seq next flags)
    (inside : seq < b.seqMax) (fstInside : recv.seqFst < b.seqMax) (lstInside : recv.seqLst < b.seqMax)
    (unclosed : recv.seqLst + 1 ≠ recv.seqFst)
    (zeroFirst : recv.seqFst = 0 → recv.isSeqZero = true) (round : Nat) :
    (flags.seqError = true ∧ flags.seqJump = false ∧ next.seqLst = recv.seqLst ∧
        next.numFastRecvEd = recv.numFastRecvEd) ∨
      (flags.seqError = false ∧ next.seqLst = seq ∧ next.numFastRecvEd = recv.numFastRecvEd + 1 ∧
        (∀ part ∈ requestParts b round recv.seqFst flags, part.endSeq ≤ b.seqMax) ∧
        (CyclicWindow.window b.seqMax recv.seqFst (distance b.seqMax recv.seqFst recv.seqLst + 1) ++
          (requestParts b round recv.seqFst flags).flatMap PatchTuple.seqs ++ [seq]).Perm
          (CyclicWindow.window b.seqMax recv.seqFst (distance b.seqMax recv.seqFst seq + 1))) := by
  have bounded := b.seqMax_lt
  have sentinel := seqnumMax_eq
  have after : u32 ((recv.seqLst : Int) + 1) = recv.seqLst + 1 := u32_succ (by omega)
  have turn : recv.seqLst + 1 < b.seqMax → (recv.seqLst + 1) % b.seqMax = recv.seqLst + 1 := Nat.mod_eq_of_lt
  have plain {last : Nat} (within : last ≤ b.seqMax) : last ≠ seq2WardTheEnd := by
    unfold seq2WardTheEnd
    omega
  have asked (last : Nat) (zero : Bool) :
      requestParts b round recv.seqFst ⟨zero, true, false, some ⟨recv.seqLst + 1, last⟩⟩ =
        msgPatchReq b.seqMax (round * b.seqMax + recv.seqFst) ⟨recv.seqLst + 1, last⟩ := by
    simp [requestParts]
  cases branch with
  | inOrder nonzero follows =>
      refine .inr ⟨rfl, rfl, rfl, by simp [requestParts, PacketFlags.clear], ?_⟩
      have steps : distance b.seqMax recv.seqFst seq = distance b.seqMax recv.seqFst recv.seqLst + 1 + 0 := by
        unfold distance
        split_ifs <;> omega
      rw [window_jump fstInside lstInside inside steps]
      simp [requestParts, PacketFlags.clear]
  | zeroInOrder zero unknown follows =>
      refine .inr ⟨rfl, rfl, rfl, by simp [requestParts, PacketFlags.clear], ?_⟩
      have steps : distance b.seqMax recv.seqFst seq = distance b.seqMax recv.seqFst recv.seqLst + 1 + 0 := by
        have nonzero : recv.seqFst ≠ 0 := fun first => by simp [zeroFirst first] at unknown
        unfold distance
        split_ifs <;> omega
      rw [window_jump fstInside lstInside inside steps]
      simp [requestParts, PacketFlags.clear]
  | zeroJump zero unknown gap started ahead nonzero =>
      rw [after, asked]
      refine .inr ⟨rfl, rfl, rfl, ?_, ?_⟩
      · exact msgPatchReq_inside _ (if_neg (plain (le_refl _))) (le_refl _)
      · apply jump_window fstInside lstInside inside (plain (le_refl _)) (le_refl _)
        rw [turn (by omega)]
        unfold distance
        split_ifs <;> omega
  | zeroRejected => exact .inl ⟨rfl, rfl, rfl, rfl⟩
  | zeroAgain => exact .inl ⟨rfl, rfl, rfl, rfl⟩
  | jump beyond half =>
      rw [asked]
      refine .inr ⟨rfl, rfl, rfl, ?_, ?_⟩
      · exact msgPatchReq_inside _ (if_neg (plain inside.le)) inside.le
      · apply jump_window fstInside lstInside inside (plain inside.le) inside.le
        rw [turn (by omega)]
        unfold distance
        split_ifs <;> omega
  | jumpRejected => exact .inl ⟨rfl, rfl, rfl, rfl⟩
  | wrap nonzero below above tail start =>
      rw [after, asked]
      refine .inr ⟨rfl, rfl, rfl, ?_, ?_⟩
      · exact msgPatchReq_inside _ (if_neg (plain inside.le)) inside.le
      · apply jump_window fstInside lstInside inside (plain inside.le) inside.le
        -- The request starts behind the last packet or, when that one arrived, at zero.
        by_cases final : recv.seqLst + 1 < b.seqMax
        · rw [turn final]
          unfold distance
          split_ifs <;> omega
        · rw [show recv.seqLst + 1 = b.seqMax by omega, Nat.mod_self]
          unfold distance
          split_ifs <;> omega
  | behind => exact .inl ⟨rfl, rfl, rfl, rfl⟩

end Cases

section Logs

variable {b : Broadcast} {t : Transfer}

/-- The accounted window never exceeds one round. -/
theorem Accounted.reach_le (accounted : Accounted b t) : t.reach b ≤ b.seqMax := by
  have inside := distance_lt accounted.fstInside accounted.lstInside
  unfold Transfer.reach
  split_ifs <;> omega

/-- The counters and the pending patches add up to the accounted window. -/
theorem Accounted.total (accounted : Accounted b t) :
    t.recv.numFastRecvEd + t.recv.numSlowRecvEd + t.pending.length = t.reach b := by
  have whole := accounted.covers.length_eq
  have parts := accounted.delivered.length_eq
  rw [List.length_append, window_length] at whole
  rw [List.length_append] at parts
  rw [accounted.fastCount, accounted.slowCount]
  omega

theorem Accounted.nodup (accounted : Accounted b t) : (t.fastLog ++ t.requested).Nodup :=
  accounted.covers.nodup_iff.mpr (window_nodup accounted.fstInside accounted.reach_le)

/-- A pending patch is never the first packet. -/
theorem Accounted.pending_ne_first (accounted : Accounted b t) {seq : Nat} (member : seq ∈ t.pending) :
    seq ≠ t.recv.seqFst := by
  have disjoint := (List.nodup_append.mp accounted.nodup).2.2
  have asked : seq ∈ t.requested := accounted.delivered.mem_iff.mpr (List.mem_append_left _ member)
  exact fun same => disjoint _ accounted.first _ asked same.symm

theorem Accounted.pending_inside (accounted : Accounted b t) {seq : Nat} (member : seq ∈ t.pending) :
    seq < b.seqMax := by
  have asked : seq ∈ t.requested := accounted.delivered.mem_iff.mpr (List.mem_append_left _ member)
  have placed := accounted.covers.mem_iff.mp (List.mem_append_right _ asked)
  exact ((mem_window accounted.fstInside accounted.reach_le seq).mp placed).1

/-- The completion test holds only when the counters reach the packet count. -/
theorem Accounted.gotten (accounted : Accounted b t) (knows : Knows b t.recv)
    (gotten : recverStateHasGottenAllData t.recv = true) :
    t.recv.numFastRecvEd + t.recv.numSlowRecvEd = b.seqMax := by
  have counted : t.recv.numFastRecvEd + t.recv.numSlowRecvEd = t.recv.seqMax := by
    simpa [recverStateHasGottenAllData] using gotten
  have some := List.length_pos_of_mem accounted.first
  have fast := accounted.fastCount
  cases known : t.recv.isSeqZero with
  | true => rw [counted, (knows.learned known).1]
  | false =>
      have unknown := (knows.unlearned known).1
      omega

/-- The accounting depends on four fields of the receiver. -/
theorem Accounted.congr (accounted : Accounted b t) {recv : RecverState}
    (fst : recv.seqFst = t.recv.seqFst) (lst : recv.seqLst = t.recv.seqLst)
    (fast : recv.numFastRecvEd = t.recv.numFastRecvEd) (slow : recv.numSlowRecvEd = t.recv.numSlowRecvEd) :
    Accounted b { t with recv := recv } := by
  obtain ⟨fstInside, lstInside, first, covers, delivered, ranges, fastCount, slowCount⟩ := accounted
  refine ⟨by rwa [fst], by rwa [lst], by rwa [fst], ?_, delivered, ranges, by rwa [fast], by rwa [slow]⟩
  unfold Transfer.reach at covers ⊢
  rw [fst, lst]
  exact covers

/-- An accepted packet and its requests extend the accounting. -/
theorem Accounted.extend (accounted : Accounted b t) (unclosed : t.fastDoneSeen = false)
    {recv : RecverState} {seq : Nat} {parts : List PatchTuple} (inside : seq < b.seqMax)
    (fst : recv.seqFst = t.recv.seqFst) (lst : recv.seqLst = seq)
    (fast : recv.numFastRecvEd = t.recv.numFastRecvEd + 1) (slow : recv.numSlowRecvEd = t.recv.numSlowRecvEd)
    (ranges : ∀ part ∈ parts, part.endSeq ≤ b.seqMax)
    (grows : (window b.seqMax t.recv.seqFst (distance b.seqMax t.recv.seqFst t.recv.seqLst + 1) ++
      parts.flatMap PatchTuple.seqs ++ [seq]).Perm
      (window b.seqMax t.recv.seqFst (distance b.seqMax t.recv.seqFst seq + 1))) :
    Accounted b { t with
      recv := recv
      fastLog := t.fastLog ++ [seq]
      ring := t.ring ++ parts
      pending := t.pending ++ parts.flatMap PatchTuple.seqs } := by
  have covers := accounted.covers
  simp only [Transfer.reach, unclosed] at covers
  refine ⟨by rw [fst]; exact accounted.fstInside, by rw [lst]; exact inside,
    by rw [fst]; exact List.mem_append_left _ accounted.first, ?_, ?_, ?_, ?_, ?_⟩
  · simp only [Transfer.reach, Transfer.requested, unclosed, fst, lst, List.flatMap_append]
    refine List.Perm.trans ?_ grows
    refine List.Perm.trans ?_ ((covers.append_right _).append_right _)
    apply List.perm_iff_count.mpr
    intro value
    simp only [Transfer.requested, List.count_append]
    omega
  · simp only [Transfer.requested, List.flatMap_append]
    refine List.Perm.trans (accounted.delivered.append_right _) ?_
    apply List.perm_iff_count.mpr
    intro value
    simp only [List.count_append]
    omega
  · intro part member
    rcases List.mem_append.mp member with old | new
    · exact accounted.ranges part old
    · exact ranges part new
  · simp [fast, accounted.fastCount]
  · rw [slow]
    exact accounted.slowCount

end Logs

section Steps

variable {b : Broadcast} {round : Nat} {t next : Transfer} {seq : Nat}

theorem isLastOptical_false {recv : RecverState} (bounded : seq + 1 < 4294967296)
    (other : isLastOptical recv seq = false) :
    (recv.seqFst ≠ 0 → seq + 1 ≠ recv.seqFst) ∧ (recv.seqFst = 0 → seq + 1 ≠ recv.seqMax) := by
  have after := u32_succ bounded
  simp only [isLastOptical, after, decide_eq_false_iff_not, not_or, not_and] at other
  exact other

/-- An accounted packet of the running fast path leaves a started transfer. -/
theorem Accounted.last (accounted : Accounted b t) (knows : Knows b t.recv)
    (unclosed : t.fastDoneSeen = false) (unfinished : t.recv.isFinished = false)
    (zero : 0 ∈ t.fastLog ++ t.slowLog → t.recv.isSeqZero = true)
    (running : isLastOptical t.recv seq = false → t.recv.seqLst + 1 ≠ t.recv.seqFst ∧
      (t.recv.seqFst = 0 → t.recv.isSeqZero = true ∧ t.recv.seqLst + 1 < b.seqMax)) :
    Started b { t with recv := (fastPathLast t.recv seq).1 } := by
  have frame := fastPathLast_frame t.recv seq
  have same := @Accounted.congr _ _ accounted (fastPathLast t.recv seq).1 (by rw [frame]) (by rw [frame])
    (by rw [frame]) (by rw [frame])
  refine ⟨same, ?_, ?_, ?_⟩
  · intro active
    obtain ⟨other, kept⟩ := fastPathLast_running active
    show t.fastDoneSeen = false ∧ (fastPathLast t.recv seq).1.isFinished = false ∧ _
    rw [kept]
    exact ⟨unclosed, unfinished, running other⟩
  · intro arrived
    show (fastPathLast t.recv seq).1.isSeqZero = true
    rw [frame]
    exact zero arrived
  · intro finished
    have total := accounted.gotten knows (fastPathLast_finished unfinished finished)
    show (fastPathLast t.recv seq).1.numFastRecvEd + (fastPathLast t.recv seq).1.numSlowRecvEd = b.seqMax
    rw [frame]
    exact total

/-- The receiver has counted its first packet. -/
structure FirstCounted (b : Broadcast) (seq : Nat) (counted : RecverState) (flags : PacketFlags) : Prop where
  knows : Knows b counted
  started : counted.isSeqFst = true
  running : counted.isFastpath = true
  unfinished : counted.isFinished = false
  calm : flags.seqJump = false
  fst : counted.seqFst = seq
  lst : counted.seqLst = seq
  fast : counted.numFastRecvEd = 1
  slow : counted.numSlowRecvEd = 0
  zero : counted.isSeqZero = decide (seq = 0)

/-- The first packet is always counted. -/
theorem fresh_counted (b : Broadcast) (seq : Fin b.seqMax) {counted : RecverState} {flags : PacketFlags}
    (counting : fastPathCount (Transfer.fresh b).recv (b.packet seq) = .ok (counted, flags)) :
    FirstCounted b seq counted flags := by
  have bounded := b.seqMax_lt
  have inside := seq.isLt
  have fixed : fastPathFirst (Transfer.fresh b).recv seq = _ := fastPathFirst_fresh rfl (by omega)
  have branch := fastPathCount_cases ((fresh_knows b).first seq) inside
    (by rw [fixed]; dsimp only; split_ifs <;> omega) counting
  have knows := branch.knows ((fresh_knows b).first seq)
  obtain ⟨accepted, calm, shape⟩ := FastCase.first rfl rfl inside branch
  rw [fixed] at shape
  by_cases zero : seq.val = 0
  · rw [if_pos zero] at shape
    refine ⟨knows, ?_, ?_, ?_, calm, ?_, ?_, ?_, ?_, ?_⟩ <;>
      simp [shape, zero, Transfer.fresh, recverStateStartFathPath, createRecverState]
  · rw [if_neg zero] at shape
    refine ⟨knows, ?_, ?_, ?_, calm, ?_, ?_, ?_, ?_, ?_⟩ <;>
      simp [shape, zero, Transfer.fresh, recverStateStartFathPath, createRecverState]

section First

variable {counted : RecverState} {flags : PacketFlags}

theorem FirstCounted.accounted (first : FirstCounted b seq counted flags) (inside : seq < b.seqMax) :
    Accounted b { Transfer.fresh b with recv := counted, fastLog := [seq] } := by
  obtain ⟨_, _, _, _, _, fst, lst, fast, slow, _⟩ := first
  refine ⟨by rw [fst]; exact inside, by rw [lst]; exact inside, by rw [fst]; simp, ?_,
    by simp [Transfer.requested, Transfer.fresh], by simp [Transfer.fresh], by rw [fast]; rfl, slow⟩
  simp [Transfer.requested, Transfer.reach, Transfer.fresh, fst, lst, window_singleton inside]

theorem FirstCounted.arrived (first : FirstCounted b seq counted flags) (arrived : 0 ∈ [seq]) :
    counted.isSeqZero = true := by
  rw [first.zero]
  simpa [eq_comm] using arrived

/-- A first packet that is not the last optical one leaves the round open. -/
theorem FirstCounted.unclosed (first : FirstCounted b seq counted flags) (inside : seq < b.seqMax)
    (other : isLastOptical counted seq = false) : counted.seqLst + 1 ≠ counted.seqFst ∧
      (counted.seqFst = 0 → counted.isSeqZero = true ∧ counted.seqLst + 1 < b.seqMax) := by
  have bounded := b.seqMax_lt
  have open' := @isLastOptical_false seq counted (by omega) other
  rw [first.fst] at open' ⊢
  rw [first.lst]
  refine ⟨by omega, fun zero => ?_⟩
  have known : counted.isSeqZero = true := by rw [first.zero, decide_eq_true zero]
  rw [(first.knows.learned known).1] at open'
  have short := open'.2 zero
  exact ⟨known, by omega⟩

/-- The log of the first packet has exactly this packet. -/
theorem FirstCounted.transfer (first : FirstCounted b seq counted flags) (recv : RecverState) :
    ({ Transfer.fresh b with
      recv := recv
      fastLog := if (Transfer.fresh b).recv.numFastRecvEd < counted.numFastRecvEd
        then (Transfer.fresh b).fastLog ++ [seq] else (Transfer.fresh b).fastLog } : Transfer).request b round
        (if flags.seqJump then flags.pt.toList else []) =
      { Transfer.fresh b with recv := recv, fastLog := [seq] } := by
  have grew : (Transfer.fresh b).recv.numFastRecvEd < counted.numFastRecvEd := by
    rw [first.fast]
    exact Nat.one_pos
  rw [if_pos grew, if_neg (by simp [first.calm]), request_nil]
  rfl

end First

/-- The first packet opens the accounting. -/
theorem fresh_packet (b : Broadcast) (seq : Fin b.seqMax)
    (completed : transferStep b round (Transfer.fresh b) (.packet seq) = .ok next) :
    next.recv.isSeqFst = true ∧ Covered b next := by
  obtain ⟨counted, flags, counting, rfl⟩ := transferStep_packet rfl completed
  have first := fresh_counted b seq counting
  have final := @Accounted.last _ _ seq (first.accounted seq.isLt) first.knows rfl first.unfinished
    (fun arrived => first.arrived (by simpa [Transfer.fresh] using arrived)) (first.unclosed seq.isLt)
  have active : (fastPathLast counted seq).1.isSeqFst = true := by
    rw [fastPathLast_frame]
    exact first.started
  rw [first.transfer]
  exact ⟨active, first.knows.last seq, fun fresh => absurd (active.symm.trans fresh) (by simp), fun _ => final⟩

/-- A counted packet keeps the accounting with its requests. -/
theorem Accounted.packet (small : b.seqMax < seqnumMax) (accounted : Accounted b t)
    (unclosed : t.fastDoneSeen = false) (unwrapped : t.recv.seqLst + 1 ≠ t.recv.seqFst)
    (zeroFirst : t.recv.seqFst = 0 → t.recv.isSeqZero = true) {counted : RecverState} {flags : PacketFlags}
    (branch : FastCase b t.recv seq counted flags) (inside : seq < b.seqMax) (round : Nat) :
    Accounted b (({ t with
      recv := counted
      fastLog := if t.recv.numFastRecvEd < counted.numFastRecvEd then t.fastLog ++ [seq]
        else t.fastLog } : Transfer).request b round (if flags.seqJump then flags.pt.toList else [])) := by
  obtain ⟨_, fst, slow, _⟩ := branch.frame
  rcases branch.window small inside accounted.fstInside accounted.lstInside unwrapped zeroFirst round with
    ⟨_, calm, lst, fast⟩ | ⟨_, lst, fast, ranges, grows⟩
  · rw [if_neg (by omega), if_neg (by simp [calm]), request_nil]
    exact accounted.congr fst lst fast slow
  · rw [if_pos (by omega)]
    unfold Transfer.request
    dsimp only
    rw [fst]
    exact accounted.extend unclosed inside fst lst fast slow ranges grows

/-- A log with packet zero belongs to a receiver that counted it. -/
theorem FastCase.arrived {counted : RecverState} {flags : PacketFlags}
    (branch : FastCase b t.recv seq counted flags) (zero : 0 ∈ t.fastLog ++ t.slowLog → t.recv.isSeqZero = true)
    (arrived : 0 ∈ (if t.recv.numFastRecvEd < counted.numFastRecvEd then t.fastLog ++ [seq] else t.fastLog) ++
      t.slowLog) : counted.isSeqZero = true := by
  have kept := branch.frame.2.2.2.2.2
  have counts := branch.counts
  cases error : flags.seqError with
  | true =>
      rw [error, if_pos rfl] at counts
      rw [if_neg (by omega)] at arrived
      exact kept (zero arrived)
  | false =>
      rw [error, if_neg (by decide)] at counts
      rw [if_pos (by omega)] at arrived
      by_cases now : seq = 0
      · exact branch.zero error now
      · apply kept (zero ?_)
        simp only [List.mem_append, List.mem_singleton] at arrived ⊢
        rcases arrived with (fast | same) | slow
        · exact .inl fast
        · exact absurd same.symm now
        · exact .inr slow

/-- A packet that is not the last optical one leaves the round open. -/
theorem FastCase.unclosed {recv counted : RecverState} {flags : PacketFlags}
    (branch : FastCase b recv seq counted flags) (knows : Knows b counted) (inside : seq < b.seqMax)
    (unwrapped : recv.seqLst + 1 ≠ recv.seqFst)
    (zeroFirst : recv.seqFst = 0 → recv.isSeqZero = true ∧ recv.seqLst + 1 < b.seqMax)
    (other : isLastOptical counted seq = false) :
    counted.seqLst + 1 ≠ counted.seqFst ∧
      (counted.seqFst = 0 → counted.isSeqZero = true ∧ counted.seqLst + 1 < b.seqMax) := by
  have bounded := b.seqMax_lt
  obtain ⟨_, fst, _, _, _, zero⟩ := branch.frame
  have open' := @isLastOptical_false seq counted (by omega) other
  rw [fst] at open' ⊢
  have last : counted.seqLst = seq ∨ counted.seqLst = recv.seqLst := by
    cases branch with
    | inOrder | zeroInOrder | zeroJump | jump | wrap => exact .inl rfl
    | zeroRejected | zeroAgain | jumpRejected | behind => exact .inr rfl
  have count : recv.seqFst = 0 → counted.seqMax = b.seqMax := fun first =>
    (knows.learned (zero (zeroFirst first).1)).1
  constructor
  · omega
  · intro first
    have short := (zeroFirst first).2
    have known := zero (zeroFirst first).1
    have final := open'.2 first
    rw [count first] at final
    exact ⟨known, by omega⟩

/-- The requests of a packet do not depend on the end of the fast path. -/
theorem request_last (t : Transfer) (counted : RecverState) (seqNum : Nat) (fastLog : List Nat)
    (tuples : List PatchTuple) :
    ({ t with recv := (fastPathLast counted seqNum).1, fastLog := fastLog } : Transfer).request b round tuples =
      { ({ t with recv := counted, fastLog := fastLog } : Transfer).request b round tuples with
        recv := (fastPathLast counted seqNum).1 } := by
  have fst : (fastPathLast counted seqNum).1.seqFst = counted.seqFst := by rw [fastPathLast_frame]
  unfold Transfer.request
  rw [fst]

/-- A packet of the running fast path keeps the accounting. -/
theorem Started.packet (small : b.seqMax < seqnumMax) (started : Started b t) (knows : Knows b t.recv)
    (fixed : t.recv.isSeqFst = true) (running : t.recv.isFastpath = true) (seq : Fin b.seqMax)
    (completed : transferStep b round t (.packet seq) = .ok next) :
    next.recv.isSeqFst = true ∧ Covered b next := by
  obtain ⟨unclosed, unfinished, unwrapped, zeroFirst⟩ := started.running running
  obtain ⟨counted, flags, counting, rfl⟩ := transferStep_packet running completed
  have inside := seq.isLt
  have same : fastPathFirst t.recv seq = t.recv := fastPathFirst_started fixed
  have branch := fastPathCount_cases (knows.first seq) inside (by rw [same]; exact .inl started.lstInside) counting
  rw [same] at branch
  have learned := branch.knows knows
  obtain ⟨active, fst, slow, fastpath, finished, zero⟩ := branch.frame
  have accounted := started.toAccounted.packet small unclosed unwrapped (fun first => (zeroFirst first).1)
    branch inside round
  have final := @Accounted.last _ _ seq accounted learned unclosed (finished.trans unfinished)
    (branch.arrived started.zero) (branch.unclosed learned inside unwrapped zeroFirst)
  have still : (fastPathLast counted seq).1.isSeqFst = true := by
    rw [fastPathLast_frame, active]
    exact fixed
  rw [request_last]
  exact ⟨still, learned.last seq, fun fresh => absurd (still.symm.trans fresh) (by simp), fun _ => final⟩

/-- A delivered patch moves from the pending patches to the slow path. -/
theorem Accounted.deliver (accounted : Accounted b t) {index : Nat} {recv : RecverState}
    (requested : t.pending[index]? = some seq)
    (fst : recv.seqFst = t.recv.seqFst) (lst : recv.seqLst = t.recv.seqLst)
    (fast : recv.numFastRecvEd = t.recv.numFastRecvEd) (slow : recv.numSlowRecvEd = t.recv.numSlowRecvEd + 1) :
    Accounted b { t with
      recv := recv
      pending := t.pending.eraseIdx index
      slowLog := t.slowLog ++ [seq] } := by
  obtain ⟨below, found⟩ := List.getElem?_eq_some_iff.mp requested
  have removed : (seq :: t.pending.eraseIdx index).Perm t.pending := by
    rw [← found]
    exact List.getElem_cons_eraseIdx_perm below
  have covers := accounted.covers
  refine ⟨by rw [fst]; exact accounted.fstInside, by rw [lst]; exact accounted.lstInside,
    by rw [fst]; exact accounted.first, ?_, ?_, accounted.ranges, by rw [fast]; exact accounted.fastCount, ?_⟩
  · simp only [Transfer.reach, Transfer.requested, fst, lst] at covers ⊢
    exact covers
  · refine accounted.delivered.trans ?_
    apply List.perm_iff_count.mpr
    intro value
    have same := removed.count_eq value
    simp only [List.count_append, List.count_cons, List.count_nil] at same ⊢
    omega
  · rw [slow, accounted.slowCount]
    simp

/-- A patch keeps the accounting. -/
theorem Started.patch (started : Started b t) (knows : Knows b t.recv) (fixed : t.recv.isSeqFst = true)
    {index : Nat} (completed : transferStep b round t (.patch index) = .ok next) :
    next.recv.isSeqFst = true ∧ Covered b next := by
  rcases transferStep_patch completed with rfl | ⟨seq, recv, counted, requested, counting, rfl⟩
  · exact ⟨fixed, knows, fun fresh => absurd (fixed.symm.trans fresh) (by simp), fun _ => started⟩
  have member : seq ∈ t.pending := List.mem_of_getElem? requested
  have branch := patchDataCount_cases knows counting
  obtain ⟨rfl, slow⟩ := branch.counts (started.pending_ne_first member)
  obtain ⟨active, fst, lst, tail, fast, fastpath, finished, zero⟩ := branch.frame
  have learned := branch.knows knows
  have counted := started.toAccounted.deliver requested fst lst fast slow
  have frame := patchDataTest_frame recv
  have accounted := @Accounted.congr _ _ counted (patchDataTest recv).1 (by rw [frame]) (by rw [frame])
    (by rw [frame]) (by rw [frame])
  have total : recv.numFastRecvEd + recv.numSlowRecvEd + (t.pending.eraseIdx index).length = t.reach b := by
    have sum := counted.total
    simp only [Transfer.reach, fst, lst] at sum ⊢
    exact sum
  have complete (gotten : recverStateHasGottenAllData recv = true) :
      recv.numFastRecvEd + recv.numSlowRecvEd = b.seqMax :=
    counted.gotten learned gotten
  have bounded := started.reach_le
  have still : (patchDataTest recv).1.isSeqFst = true := by
    rw [frame]
    exact active.trans fixed
  have final : Started b { t with
      recv := (patchDataTest recv).1
      pending := t.pending.eraseIdx index
      slowLog := t.slowLog ++ [seq] } := by
    refine ⟨accounted, ?_, ?_, ?_⟩
    · intro running
      -- The window of the running fast path is open, so the counters stay below the packet count.
      have before : t.recv.isFastpath = true := by
        rw [← fastpath, ← running, frame]
      obtain ⟨unclosed, unfinished, unwrapped, zeroFirst⟩ := started.running before
      have short : distance b.seqMax t.recv.seqFst t.recv.seqLst + 1 < b.seqMax := by
        have fstInside := started.fstInside
        have lstInside := started.lstInside
        have low := fun first => (zeroFirst first).2
        unfold distance
        split_ifs <;> omega
      have unfilled : (patchDataTest recv).1.isFinished = false := by
        by_contra filled
        have sum := complete (patchDataTest_finished (finished.trans unfinished) (by simpa using filled))
        rw [Transfer.reach, if_neg (by simp [unclosed])] at total
        omega
      show t.fastDoneSeen = false ∧ (patchDataTest recv).1.isFinished = false ∧
        (patchDataTest recv).1.seqLst + 1 ≠ (patchDataTest recv).1.seqFst ∧
          ((patchDataTest recv).1.seqFst = 0 → (patchDataTest recv).1.isSeqZero = true ∧
            (patchDataTest recv).1.seqLst + 1 < b.seqMax)
      refine ⟨unclosed, unfilled, ?_⟩
      rw [frame]
      show recv.seqLst + 1 ≠ recv.seqFst ∧ (recv.seqFst = 0 → recv.isSeqZero = true ∧ recv.seqLst + 1 < b.seqMax)
      rw [fst, lst]
      exact ⟨unwrapped, fun first => ⟨zero (zeroFirst first).1, (zeroFirst first).2⟩⟩
    · intro arrived
      show (patchDataTest recv).1.isSeqZero = true
      rw [frame]
      by_cases now : seq = 0
      · exact branch.zero (started.pending_ne_first member) now
      · apply zero (started.zero ?_)
        simp only [List.mem_append, List.mem_singleton] at arrived ⊢
        rcases arrived with fast | slow | same
        · exact .inl fast
        · exact .inr slow
        · exact absurd same.symm now
    · intro filled
      have sum : recv.numFastRecvEd + recv.numSlowRecvEd = b.seqMax := by
        cases before : t.recv.isFinished with
        | true =>
            have old := started.finished before
            omega
        | false => exact complete (patchDataTest_finished (finished.trans before) filled)
      show (patchDataTest recv).1.numFastRecvEd + (patchDataTest recv).1.numSlowRecvEd = b.seqMax
      rw [frame]
      exact sum
  exact ⟨still, learned.test, fun fresh => absurd (still.symm.trans fresh) (by simp), fun _ => final⟩

/-- The tuples that the sender derives from the last request of a receiver. -/
def fastDoneParts (b : Broadcast) (round : Nat) (recv : RecverState) : List PatchTuple :=
  (msgFastDone recv).2.toList.flatMap (msgPatchReq b.seqMax (round * b.seqMax + recv.seqFst))

/-- The last request reaches from `seq_lst` to the first packet of the round. -/
theorem fastDoneParts_seqs {recv : RecverState} (small : b.seqMax < seqnumMax) (knows : Knows b recv)
    (fstInside : recv.seqFst < b.seqMax) (lstInside : recv.seqLst < b.seqMax)
    (unfinished : recv.isFinished = false) (round : Nat) :
    ((fastDoneParts b round recv).flatMap PatchTuple.seqs).Perm
        (window b.seqMax (recv.seqLst + 1) (distance b.seqMax ((recv.seqLst + 1) % b.seqMax) recv.seqFst)) ∧
      ∀ part ∈ fastDoneParts b round recv, part.endSeq ≤ b.seqMax := by
  have bounded := b.seqMax_lt
  have sentinel := seqnumMax_eq
  have after : u32 (((recverStateStopFathPath recv).seqLst : Int) + 1) = recv.seqLst + 1 :=
    @u32_succ recv.seqLst (by omega)
  have asked (last : Nat) (target : (if last = seq2WardTheEnd then (round * b.seqMax + recv.seqFst) % b.seqMax
      else last) = recv.seqFst) :
      (([(⟨recv.seqLst + 1, last⟩ : PatchTuple)].flatMap
        (msgPatchReq b.seqMax (round * b.seqMax + recv.seqFst))).flatMap PatchTuple.seqs).Perm
          (window b.seqMax (recv.seqLst + 1) (distance b.seqMax ((recv.seqLst + 1) % b.seqMax) recv.seqFst)) ∧
        ∀ part ∈ [(⟨recv.seqLst + 1, last⟩ : PatchTuple)].flatMap
          (msgPatchReq b.seqMax (round * b.seqMax + recv.seqFst)), part.endSeq ≤ b.seqMax := by
    rw [List.flatMap_singleton]
    exact ⟨msgPatchReq_seqs b.seqMax_pos ⟨recv.seqLst + 1, last⟩ target fstInside.le,
      msgPatchReq_inside _ target fstInside.le⟩
  unfold fastDoneParts msgFastDone
  rw [if_neg (by simp [unfinished])]
  dsimp only
  rw [after]
  cases known : recv.isSeqZero with
  | false =>
      rw [if_neg (by simp [recverStateStopFathPath, known])]
      exact asked seq2WardTheEnd (by rw [if_pos rfl, Nat.mul_add_mod_of_lt fstInside])
  | true =>
      rw [if_pos (by simpa [recverStateStopFathPath] using known)]
      have count : (recverStateStopFathPath recv).seqMax = b.seqMax := (knows.learned known).1
      have first : (recverStateStopFathPath recv).seqFst = recv.seqFst := rfl
      rw [count, first]
      split_ifs with unclosed
      · exact asked recv.seqFst (if_neg (by unfold seq2WardTheEnd; omega))
      · have closed : (recv.seqLst + 1) % b.seqMax = recv.seqFst := by simpa using unclosed
        simp [closed]

/-- A finished receiver has a whole round, so nothing is left to request. -/
theorem Started.fastDoneParts (small : b.seqMax < seqnumMax) (started : Started b t)
    (knows : Knows b t.recv) (unclosed : t.fastDoneSeen = false) (round : Nat) :
    ((fastDoneParts b round t.recv).flatMap PatchTuple.seqs).Perm
        (window b.seqMax (t.recv.seqLst + 1)
          (distance b.seqMax ((t.recv.seqLst + 1) % b.seqMax) t.recv.seqFst)) ∧
      ∀ part ∈ fastDoneParts b round t.recv, part.endSeq ≤ b.seqMax := by
  cases finished : t.recv.isFinished with
  | false => exact fastDoneParts_seqs small knows started.fstInside started.lstInside finished round
  | true =>
      have sum := started.finished finished
      have total := started.total
      have bounded := started.reach_le
      have closing := congrArg List.length (window_close started.fstInside started.lstInside)
      simp only [List.length_append, window_length] at closing
      rw [Transfer.reach, if_neg (by simp [unclosed])] at total
      rw [RepublicAgent.fastDoneParts, msgFastDone, if_pos finished,
        show distance b.seqMax ((t.recv.seqLst + 1) % b.seqMax) t.recv.seqFst = 0 by omega]
      simp

/-- The message closes the window with the last request of the round. -/
theorem Started.fastDone (small : b.seqMax < seqnumMax) (started : Started b t) (knows : Knows b t.recv)
    (fixed : t.recv.isSeqFst = true) (completed : transferStep b round t .fastDone = .ok next) :
    next.recv.isSeqFst = true ∧ Covered b next := by
  rcases transferStep_fastDone completed with rfl | ⟨_, unclosed, rfl⟩
  · exact ⟨fixed, knows, fun fresh => absurd (fixed.symm.trans fresh) (by simp), fun _ => started⟩
  obtain ⟨filled, ranges⟩ := started.fastDoneParts small knows unclosed round
  obtain ⟨recv, stopped⟩ : ∃ recv, recv = (msgFastDone t.recv).1 := ⟨_, rfl⟩
  have fields : recv = { t.recv with isFastpath := recv.isFastpath } := by
    rw [stopped, msgFastDone_recv]
    split <;> rfl
  have inactive : recv.isFastpath = false := by
    rw [stopped, msgFastDone_recv]
    split_ifs with finished
    · by_contra running
      have open' := (started.running (by simpa using running)).2.1
      exact absurd (open'.symm.trans finished) (by simp)
    · rfl
  have covers := started.covers
  rw [Transfer.reach, if_neg (by simp [unclosed])] at covers
  have final : Started b { t with
      recv := recv
      ring := t.ring ++ RepublicAgent.fastDoneParts b round t.recv
      pending := t.pending ++ (RepublicAgent.fastDoneParts b round t.recv).flatMap PatchTuple.seqs
      fastDoneSeen := true } := by
    rw [fields]
    refine ⟨⟨started.fstInside, started.lstInside, started.first, ?_, ?_, ?_, started.fastCount,
      started.slowCount⟩, ?_, started.zero, started.finished⟩
    · simp only [Transfer.reach, Transfer.requested, if_true, List.flatMap_append]
      rw [window_close started.fstInside started.lstInside, ← List.append_assoc]
      exact covers.append filled
    · simp only [Transfer.requested, List.flatMap_append]
      refine (started.delivered.append_right _).trans ?_
      apply List.perm_iff_count.mpr
      intro value
      simp only [List.count_append]
      omega
    · intro part member
      rcases List.mem_append.mp member with old | new
      · exact started.ranges part old
      · exact ranges part new
    · intro running
      exact absurd (inactive.symm.trans running) (by simp)
  have fst : recv.seqFst = t.recv.seqFst := by rw [fields]
  have still : recv.isSeqFst = true := by
    rw [fields]
    exact fixed
  have learned : Knows b recv := stopped ▸ knows.fastDone
  unfold Transfer.request
  rw [← stopped]
  dsimp only
  rw [fst]
  exact ⟨still, learned, fun fresh => absurd (still.symm.trans fresh) (by simp), fun _ => final⟩

theorem fresh_covered (b : Broadcast) : Covered b (Transfer.fresh b) :=
  ⟨fresh_knows b, fun _ => rfl, fun started => by cases started⟩

/-- Every event keeps the accounting. -/
theorem Covered.step (small : b.seqMax < seqnumMax) (covered : Covered b t) (event : TransferEvent b)
    (completed : transferStep b round t event = .ok next) : Covered b next := by
  cases fixed : t.recv.isSeqFst with
  | false =>
      obtain rfl := covered.fresh fixed
      cases event with
      | packet seq => exact (fresh_packet b seq completed).2
      | patch index =>
          obtain rfl := Except.ok.inj completed
          exact covered
      | fastDone =>
          obtain rfl := Except.ok.inj completed
          exact covered
  | true =>
      have started := covered.started fixed
      cases event with
      | packet seq =>
          cases running : t.recv.isFastpath with
          | true => exact (started.packet small covered.knows fixed running seq completed).2
          | false =>
              rw [transferStep_packet_stopped running] at completed
              obtain rfl := Except.ok.inj completed
              exact covered
      | patch index => exact (started.patch covered.knows fixed completed).2
      | fastDone => exact (started.fastDone small covered.knows fixed completed).2

/-- Every run keeps the accounting. -/
theorem transferRun_covered (small : b.seqMax < seqnumMax) {events : List (TransferEvent b)}
    (completed : transferRun b round events = .ok t) : Covered b t :=
  execute_invariant (fun _ event _ covered _ taken => covered.step small event taken) (fresh_covered b)
    (fun _ _ => trivial) completed

/-- An interval that holds a sequence number holds it once. -/
theorem count_requested (ring : List PatchTuple) (seq : Nat) :
    (ring.flatMap PatchTuple.seqs).count seq =
      ring.countP fun part => part.sttSeq ≤ seq ∧ seq < part.endSeq := by
  induction ring with
  | nil => rfl
  | cons part rest ih =>
      have single : part.seqs.count seq = if part.sttSeq ≤ seq ∧ seq < part.endSeq then 1 else 0 := by
        have distinct : part.seqs.Nodup := List.nodup_range'
        rw [distinct.count]
        simp only [part.mem_seqs]
      rw [List.flatMap_cons, List.count_append, single, ih, List.countP_cons, Nat.add_comm]
      simp

end Steps

/-- After `MSG_FAST_DONE` each packet is either accepted once on the fast path or lies in exactly one
interval of the patch ring. The completion test holds exactly when no patch is pending. -/
theorem transfer_exactlyOnce (b : Broadcast) (small : b.seqMax < seqnumMax) (round : Nat)
    (events : List (TransferEvent b)) (t : Transfer) (completed : transferRun b round events = .ok t)
    (closed : t.fastDoneSeen = true) :
    (∀ seq < b.seqMax, t.fastLog.count seq +
        (t.ring.countP fun part => part.sttSeq ≤ seq ∧ seq < part.endSeq) = 1) ∧
      t.recv.numFastRecvEd = t.fastLog.length ∧
      (∀ part ∈ t.ring, part.endSeq ≤ b.seqMax) ∧
      t.recv.numFastRecvEd + t.recv.numSlowRecvEd + t.pending.length = b.seqMax ∧
      (recverStateHasGottenAllData t.recv = true ↔ t.pending = []) := by
  have covered := transferRun_covered small completed
  have started : Started b t := by
    cases fixed : t.recv.isSeqFst with
    | true => exact covered.started fixed
    | false =>
        rw [covered.fresh fixed] at closed
        cases closed
  have covers := started.covers
  have total := started.total
  rw [Transfer.reach, if_pos closed] at covers total
  have full := covers.trans (window_full started.fstInside)
  refine ⟨?_, started.fastCount, started.ranges, total, ?_, ?_⟩
  · intro seq inside
    have once := full.count_eq seq
    rw [List.count_append, Transfer.requested, count_requested,
      List.nodup_range.count, if_pos (List.mem_range.mpr inside)] at once
    exact once
  · intro gotten
    have sum := started.gotten covered.knows gotten
    exact List.length_eq_zero_iff.mp (by omega)
  · intro delivered
    have present : 0 ∈ t.fastLog ++ t.slowLog := by
      have member := full.mem_iff.mpr (List.mem_range.mpr b.seqMax_pos)
      have moved := started.delivered
      rw [delivered, List.nil_append] at moved
      rcases List.mem_append.mp member with fast | slow
      · exact List.mem_append_left _ fast
      · exact List.mem_append_right _ (moved.mem_iff.mp slow)
    have count := (covered.knows.learned (started.zero present)).1
    rw [delivered] at total
    simp only [List.length_nil, Nat.add_zero] at total
    simp [recverStateHasGottenAllData, count, total]

theorem transfer_exactlyOnce_threeBytes :
    ∃ t, transferRun threeBytes 0 [.packet ⟨2, by decide⟩, .packet ⟨1, by decide⟩, .fastDone] = .ok t ∧
      ∀ seq < threeBytes.seqMax, t.fastLog.count seq +
        (t.ring.countP fun part => part.sttSeq ≤ seq ∧ seq < part.endSeq) = 1 := by
  obtain ⟨t, completed, closed⟩ := exists_of_check
    (transferRun threeBytes 0 [.packet ⟨2, by decide⟩, .packet ⟨1, by decide⟩, .fastDone])
    (fun t => t.fastDoneSeen) (by decide +kernel)
  exact ⟨t, completed, (transfer_exactlyOnce threeBytes (by decide) 0 _ t completed closed).1⟩

end RepublicAgent
