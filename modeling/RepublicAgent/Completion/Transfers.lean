/-
This file follows the transfer of a receiver through its connection. The requested patches are under way in the
order of the requests, except that the request of `MSG_FAST_DONE` overtakes the reports in the pipe.
-/

import RepublicAgent.Completion.Traffic
import RepublicAgent.Receiver.Orderly

namespace RepublicAgent
open CyclicWindow Execution MachineInteger

/-- The packets that the sender reads for some requests. The first packet of the receiver ends its round. -/
def askedPatches (b : Broadcast) (seqFst : Nat) (tuples : List PatchTuple) : List Nat :=
  (tuples.flatMap (msgPatchReq b.seqMax seqFst)).flatMap PatchTuple.seqs

def patchSeqs (msgs : List ToReceiverMsg) : List Nat :=
  msgs.filterMap fun msg => match msg with
    | .patchData pkt => some pkt.seqNum
    | _ => none

def fastDones (msgs : List ToReceiverMsg) : Nat :=
  msgs.countP fun msg => match msg with
    | .fastDone _ => true
    | _ => false

/-- The requests under way, the oldest first. -/
def Link.asked (link : Link) : List PatchTuple := patchTuples link.toMaster ++ jumpTuples link.n2c

/-- The patches under way and the ones that are asked for. -/
def Link.undelivered (b : Broadcast) (seqFst : Nat) (link : Link) : List Nat :=
  patchSeqs link.toReceiver ++ (link.pending ++ askedPatches b seqFst link.asked)

/-- The messages `MSG_FAST_DONE` that were sent to the receiver. -/
def Link.signals (t : Transfer) (link : Link) : Nat := fastDones link.toReceiver + t.fastDoneSeen.toNat

/-- The receiver has gone through the transfer. A request up to the end of the round follows `MSG_FAST_DONE`. -/
structure Link.Follows (b : Broadcast) (t : Transfer) (link : Link) : Prop where
  orderly : Orderly b t
  recv : ∀ recv ∈ link.recv, recv = t.recv
  started : t.recv.isSeqFst = link.recv.isSome
  queue : t.pending = link.undelivered b t.recv.seqFst
  patches : ∀ pkt, .patchData pkt ∈ link.toReceiver → pkt = b.packet pkt.seqNum
  piped : ∀ bcdId seq, .seqFirst bcdId seq ∈ link.n2c → seq = t.recv.seqFst
  reported : ∀ bcdId seq, .firstSeq bcdId seq ∈ link.toMaster → seq = t.recv.seqFst
  several : ∀ bcdId, .seqZero bcdId ∈ link.n2c ∨ .seqAll bcdId ∈ link.n2c → b.seqMax ≠ 1
  rounds : ∀ pt ∈ link.asked, pt.endSeq = seq2WardTheEnd → t.fastDoneSeen = true

/-- A step of a receiver. The first packet stays, and no message `MSG_FAST_DONE` is lost. -/
structure Link.Goes (b : Broadcast) (t : Transfer) (link : Link) (after : Transfer) (next : Link) : Prop where
  follows : next.Follows b after
  first : t.recv.isSeqFst = true → after.recv.seqFst = t.recv.seqFst
  signals : next.signals after = link.signals t

section Counting

variable {b : Broadcast}

theorem askedPatches_append (b : Broadcast) (seqFst : Nat) (first second : List PatchTuple) :
    askedPatches b seqFst (first ++ second) = askedPatches b seqFst first ++ askedPatches b seqFst second := by
  simp [askedPatches]

theorem patchSeqs_append (first second : List ToReceiverMsg) :
    patchSeqs (first ++ second) = patchSeqs first ++ patchSeqs second := List.filterMap_append ..

theorem fastDones_append (first second : List ToReceiverMsg) :
    fastDones (first ++ second) = fastDones first + fastDones second := List.countP_append ..

/-- The ring entries of a request depend on the end of the round only through its place. -/
theorem msgPatchReq_congr {seqMax first second : Nat} (same : first % seqMax = second % seqMax) (pt : PatchTuple) :
    msgPatchReq seqMax first pt = msgPatchReq seqMax second pt := by
  unfold msgPatchReq
  rw [same]

/-- A request inside of the data does not depend on the end of the round. -/
theorem msgPatchReq_closed {pt : PatchTuple} (closed : pt.endSeq ≠ seq2WardTheEnd) (seqMax first second : Nat) :
    msgPatchReq seqMax first pt = msgPatchReq seqMax second pt := by
  unfold msgPatchReq
  rw [if_neg closed, if_neg closed]

end Counting

section Steps

variable {b : Broadcast} {t : Transfer} {link next : Link} {recv stepped : RecverState}

theorem Link.initial_follows (b : Broadcast) : Link.initial.Follows b (Transfer.fresh b) where
  orderly := ⟨fresh_faithful_base b, fun _ wrapped => absurd rfl wrapped, nofun⟩
  recv _ present := by cases present
  started := rfl
  queue := rfl
  patches _ queued := by cases queued
  piped _ _ queued := by cases queued
  reported _ _ queued := by cases queued
  several _ queued := by rcases queued with zero | all <;> contradiction
  rounds _ requested := by cases requested

section Packets

variable {seq : Nat} {msgs : List N2cMsg}

/-- The messages of a packet follow its step of the transfer. -/
theorem transferStep_processRings (inside : seq < b.seqMax)
    (processed : processRings t.recv (b.packet seq) = .ok (stepped, msgs)) :
    transferStep b 0 t (.packet ⟨seq, inside⟩) = .ok (({ t with
      recv := stepped
      fastLog := if t.recv.numFastRecvEd < stepped.numFastRecvEd then t.fastLog ++ [seq]
        else t.fastLog } : Transfer).request b 0 (jumpTuples msgs)) := by
  simp only [transferStep, processed, bind, Except.bind, pure, Except.pure]

theorem Transfer.request_pending (b : Broadcast) (t : Transfer) (tuples : List PatchTuple) :
    (t.request b 0 tuples).pending = t.pending ++ askedPatches b t.recv.seqFst tuples := by
  unfold Transfer.request askedPatches
  rw [Nat.zero_mul, Nat.zero_add]

/-- A jump ends inside of the data. -/
theorem FastCase.closed {flags : PacketFlags} (branch : FastCase b recv seq stepped flags) (inside : seq < b.seqMax) :
    ∀ pt ∈ flags.pt, pt.endSeq ≤ b.seqMax := by
  intro pt requested
  cases branch with
  | zeroJump =>
      obtain rfl := Option.some.inj requested
      exact le_rfl
  | jump | wrap =>
      obtain rfl := Option.some.inj requested
      exact inside.le
  | inOrder | zeroInOrder | zeroRejected | zeroAgain | jumpRejected | behind => cases requested

/-- The last packet of a covered transfer is inside of the data, and a fresh one has none. -/
theorem Covered.last (covered : Covered b t) (inside : seq < b.seqMax) :
    (fastPathFirst t.recv seq).seqLst < b.seqMax ∨ (fastPathFirst t.recv seq).seqLst = seqnumMax := by
  cases fixed : t.recv.isSeqFst with
  | true =>
      rw [fastPathFirst_started fixed]
      exact .inl (covered.started fixed).lstInside
  | false =>
      have bounded := b.seqMax_lt
      rw [fastPathFirst_fresh fixed (by omega)]
      dsimp only
      split_ifs
      · exact .inr rfl
      · exact .inl (by omega)

/-- The end of a broadcast is reported for more than one packet only. -/
theorem n2cMessages_several {seqFirst seqAll : Bool} {flags : PacketFlags} {bcdId : BcdID}
    (reports : .seqZero bcdId ∈ n2cMessages recv seq seqFirst seqAll flags ∨
      .seqAll bcdId ∈ n2cMessages recv seq seqFirst seqAll flags) : 1 < recv.seqMax := by
  by_contra single
  have absent : ∀ flag : Prop, ¬(flag ∧ 1 < recv.seqMax) := fun flag both => single both.2
  unfold n2cMessages at reports
  rw [if_neg (absent _), if_neg (absent _)] at reports
  simp only [List.append_nil, List.mem_append] at reports
  rcases reports with (first | jump) | (first | jump)
  · split_ifs at first <;> simp at first
  · split at jump
    · split_ifs at jump <;> simp at jump
    · cases jump
  · split_ifs at first <;> simp at first
  · split at jump
    · split_ifs at jump <;> simp at jump
    · cases jump

/-- A packet keeps the first one, which reports itself, and asks for packets inside of the data. -/
theorem Covered.processRings (covered : Covered b t) (inside : seq < b.seqMax)
    (processed : processRings t.recv (b.packet seq) = .ok (stepped, msgs)) :
    stepped.isSeqFst = true ∧ (t.recv.isSeqFst = true → stepped.seqFst = t.recv.seqFst) ∧
      (∀ bcdId other, .seqFirst bcdId other ∈ msgs → other = stepped.seqFst) ∧
      (∀ bcdId, .seqZero bcdId ∈ msgs ∨ .seqAll bcdId ∈ msgs → b.seqMax ≠ 1) ∧
      ∀ pt ∈ jumpTuples msgs, pt.endSeq ≤ b.seqMax := by
  cases running : t.recv.isFastpath with
  | false =>
      have fixed : t.recv.isSeqFst = true := by
        by_contra unstarted
        rw [covered.fresh (by simpa using unstarted)] at running
        cases running
      rw [RepublicAgent.processRings, if_neg (by simp [running])] at processed
      obtain ⟨rfl, rfl⟩ := Prod.mk.inj (Except.ok.inj processed)
      refine ⟨fixed, fun _ => rfl, ?_, fun _ absent => by simp at absent, ?_⟩
      · exact fun _ _ absent => absurd absent List.not_mem_nil
      · exact fun _ absent => absurd absent List.not_mem_nil
  | true =>
      obtain ⟨counted, flags, counting, rfl, rfl⟩ := processRings_running running processed
      have branch := fastPathCount_cases (covered.knows.first seq) inside (covered.last inside) counting
      have fst : (fastPathLast counted seq).1.seqFst = (fastPathFirst t.recv seq).seqFst := by
        rw [fastPathLast_frame]
        exact branch.frame.2.1
      refine ⟨?_, ?_, ?_, ?_, ?_⟩
      · rw [fastPathLast_frame]
        exact branch.frame.1.trans (fastPathFirst_frame t.recv seq).1
      · intro fixed
        rw [fastPathFirst_started fixed] at fst
        exact fst
      · intro bcdId other member
        rw [show (b.packet seq).seqNum = seq from rfl] at member ⊢
        have once := seqFirsts_n2cMessages (fastPathLast counted seq).1 seq (!t.recv.isSeqFst)
          (fastPathLast counted seq).2 flags
        have some : 0 < seqFirsts (n2cMessages (fastPathLast counted seq).1 seq (!t.recv.isSeqFst)
          (fastPathLast counted seq).2 flags) := List.countP_pos_iff.mpr ⟨_, member, rfl⟩
        have unstarted : t.recv.isSeqFst = false := by
          by_contra fixed
          rw [once, show t.recv.isSeqFst = true by simpa using fixed] at some
          exact absurd some (Nat.lt_irrefl 0)
        have bounded := b.seqMax_lt
        rw [fst, fastPathFirst_fresh unstarted (by omega)]
        rcases n2cMessages_bcdId member with same | same | same | ⟨pt, same⟩
        · exact (N2cMsg.seqFirst.inj same).2
        · cases same
        · cases same
        · cases same
      · intro bcdId reports
        rw [show (b.packet seq).seqNum = seq from rfl] at reports
        have many := n2cMessages_several reports
        have knows := (branch.knows (covered.knows.first seq)).last seq
        cases known : (fastPathLast counted seq).1.isSeqZero with
        | true =>
            rw [(knows.learned known).1] at many
            exact many.ne'
        | false =>
            rw [(knows.unlearned known).1] at many
            exact absurd many (by decide)
      · rw [jumpTuples_n2cMessages]
        intro pt requested
        split_ifs at requested
        · exact branch.closed inside pt (Option.mem_toList.mp requested)
        · cases requested

/-- A packet of the broadcast extends the transfer, and its messages enter the pipe. -/
theorem Link.Follows.process (small : b.seqMax < seqnumMax) (short : b.data.length < 2147483648)
    (follows : link.Follows b t) (quiet : t.recv.isSeqFst = false → link.n2c = [] ∧ link.toMaster = [])
    (taken : link.process b t.recv seq = .ok next) : ∃ after, Link.Goes b t link after next := by
  have inside := Nat.mod_lt seq b.seqMax_pos
  unfold Link.process at taken
  cases processed : processPacket t.recv (b.packet (seq % b.seqMax)) with
  | error fault =>
      rw [processed] at taken
      cases taken
  | ok outcome =>
      obtain ⟨stepped, msgs⟩ := outcome
      rw [processed] at taken
      obtain rfl := Except.ok.inj taken
      have rings := processPacket_ok processed
      obtain ⟨fixed, first, reports, several, closed⟩ := follows.orderly.covered.processRings inside rings
      have moved := transferStep_processRings inside rings
      have kept : askedPatches b stepped.seqFst link.asked = askedPatches b t.recv.seqFst link.asked := by
        cases started : t.recv.isSeqFst with
        | true => rw [first started]
        | false =>
            obtain ⟨empty, silent⟩ := quiet started
            rw [Link.asked, empty, silent]
            rfl
      have sentinel := seqnumMax_eq
      refine ⟨({ t with
        recv := stepped
        fastLog := if t.recv.numFastRecvEd < stepped.numFastRecvEd then t.fastLog ++ [seq % b.seqMax]
          else t.fastLog } : Transfer).request b 0 (jumpTuples msgs),
        ⟨?_, ?_, ?_, ?_, follows.patches, ?_, ?_, ?_, ?_⟩, first, rfl⟩
      · exact follows.orderly.step small short (.packet ⟨_, inside⟩) trivial moved
      · intro recv present
        exact (Option.some.inj present).symm
      · exact fixed
      · rw [Transfer.request_pending, follows.queue]
        show link.undelivered b t.recv.seqFst ++ askedPatches b stepped.seqFst (jumpTuples msgs) =
          patchSeqs link.toReceiver ++ (link.pending ++ askedPatches b stepped.seqFst
            (patchTuples link.toMaster ++ jumpTuples (link.n2c ++ msgs)))
        rw [jumpTuples_append, ← List.append_assoc (patchTuples link.toMaster), askedPatches_append,
          show patchTuples link.toMaster ++ jumpTuples link.n2c = link.asked from rfl, kept]
        simp [Link.undelivered]
      · intro bcdId other member
        rcases List.mem_append.mp member with before | new
        · cases started : t.recv.isSeqFst with
          | true => exact (follows.piped bcdId other before).trans (first started).symm
          | false =>
              rw [(quiet started).1] at before
              cases before
        · exact reports bcdId other new
      · intro bcdId other member
        cases started : t.recv.isSeqFst with
        | true => exact (follows.reported bcdId other member).trans (first started).symm
        | false =>
            have silent := (quiet started).2
            change _ ∈ link.toMaster at member
            rw [silent] at member
            cases member
      · intro bcdId reports
        simp only [List.mem_append] at reports
        rcases reports with (before | new) | (before | new)
        · exact follows.several bcdId (.inl before)
        · exact several bcdId (.inl new)
        · exact follows.several bcdId (.inr before)
        · exact several bcdId (.inr new)
      · intro pt requested final
        have split : pt ∈ link.asked ∨ pt ∈ jumpTuples msgs := by
          simp only [Link.asked, jumpTuples_append, List.mem_append] at requested ⊢
          tauto
        rcases split with before | new
        · exact follows.rounds pt before final
        · have last := closed pt new
          unfold seq2WardTheEnd at final
          omega

theorem Link.Follows.stay (follows : link.Follows b t) : Link.Goes b t link t link := ⟨follows, fun _ => rfl, rfl⟩

/-- A receiver without a state has received nothing. -/
theorem Link.Follows.unborn (follows : link.Follows b t) (absent : link.recv = none) : t = Transfer.fresh b := by
  have started := follows.started
  rw [absent] at started
  exact follows.orderly.covered.fresh started

theorem Link.Follows.born (follows : link.Follows b t) (present : link.recv = some recv) :
    recv = t.recv ∧ t.recv.isSeqFst = true := by
  have started := follows.started
  rw [present] at started
  exact ⟨follows.recv recv present, started⟩

/-- The first packet of a receiver finds no message under way. -/
theorem Link.Follows.packet (small : b.seqMax < seqnumMax) (short : b.data.length < 2147483648)
    (follows : link.Follows b t) (silent : link.recv = none → link.n2c = [] ∧ link.toMaster = []) {opens : Bool}
    (taken : link.packet b seq opens = .ok next) : ∃ after, Link.Goes b t link after next := by
  unfold Link.packet at taken
  cases present : link.recv with
  | some recv =>
      rw [present] at taken
      obtain ⟨rfl, fixed⟩ := follows.born present
      exact follows.process small short (fun unstarted => absurd (fixed.symm.trans unstarted) (by simp)) taken
  | none =>
      rw [present] at taken
      dsimp only at taken
      split_ifs at taken
      · obtain rfl := follows.unborn present
        exact follows.process small short (fun _ => silent present) taken
      · obtain rfl := Except.ok.inj taken
        exact ⟨t, follows.stay⟩

end Packets

section Control

/-- A report of the first packet passes the control thread unchanged. -/
theorem n2cHandler_reports {notify : Bool} {msg : N2cMsg} {output : HandlerOutput} {bcdId : BcdID} {seq : Nat}
    (handled : n2cHandler notify recv msg = .ok output) (member : .firstSeq bcdId seq ∈ output.toMaster) :
    msg = .seqFirst bcdId seq := by
  unfold n2cHandler at handled
  cases msg with
  | seqFirst id first =>
      obtain rfl := Except.ok.inj handled
      obtain ⟨rfl, rfl⟩ := ToMasterMsg.firstSeq.inj (List.mem_singleton.mp member)
      rfl
  | seqZero id =>
      dsimp only at handled
      split_ifs at handled
      · obtain rfl := Except.ok.inj handled
        cases member
      · obtain rfl := Except.ok.inj handled
        cases member
  | seqAll id =>
      dsimp only at handled
      split_ifs at handled
      obtain rfl := Except.ok.inj handled
      cases List.mem_singleton.mp member
  | seqJump id pt =>
      obtain rfl := Except.ok.inj handled
      cases List.mem_singleton.mp member

/-- A report leaves the pipe for the connection. -/
theorem Link.Follows.takeN2c (follows : link.Follows b t) (taken : link.takeN2c = .ok next) :
    Link.Goes b t link t next := by
  unfold Link.takeN2c at taken
  cases piped : link.n2c with
  | nil =>
      rw [piped] at taken
      obtain rfl := Except.ok.inj taken
      exact follows.stay
  | cons msg msgs =>
      cases present : link.recv with
      | none =>
          rw [piped, present] at taken
          cases taken
      | some recv =>
          rw [piped, present] at taken
          dsimp only at taken
          cases handled : n2cHandler false recv msg with
          | error assertion =>
              rw [handled] at taken
              cases taken
          | ok output =>
              rw [handled] at taken
              obtain rfl := Except.ok.inj taken
              obtain ⟨-, -, tuples⟩ := n2cHandler_toMaster handled
              have asked : patchTuples (link.toMaster ++ output.toMaster) ++ jumpTuples msgs = link.asked := by
                have first : jumpTuples (msg :: msgs) = jumpTuples [msg] ++ jumpTuples msgs :=
                  jumpTuples_append [msg] msgs
                rw [patchTuples_append, tuples, Link.asked, piped, first, List.append_assoc]
              refine ⟨⟨follows.orderly, ?_, ?_, ?_, follows.patches, ?_, ?_, ?_, ?_⟩, fun _ => rfl, rfl⟩
              · exact present ▸ follows.recv
              · rw [follows.started, present]
              · rw [follows.queue]
                show link.undelivered b t.recv.seqFst = patchSeqs link.toReceiver ++ (link.pending ++
                  askedPatches b t.recv.seqFst (patchTuples (link.toMaster ++ output.toMaster) ++ jumpTuples msgs))
                rw [asked]
                rfl
              · intro bcdId other member
                exact follows.piped bcdId other (piped ▸ List.mem_cons_of_mem msg member)
              · intro bcdId other member
                rcases List.mem_append.mp member with before | new
                · exact follows.reported bcdId other before
                · obtain rfl := n2cHandler_reports handled new
                  exact follows.piped bcdId other (piped ▸ List.mem_cons_self)
              · intro bcdId reports
                apply follows.several bcdId
                rw [piped]
                exact reports.imp (List.mem_cons_of_mem msg) (List.mem_cons_of_mem msg)
              · intro pt requested
                exact follows.rounds pt (asked ▸ requested)

theorem msgPatchData_first {seq : Nat} {output : HandlerOutput} (knows : Knows b recv)
    (handled : msgPatchData recv (b.packet seq) = .ok (stepped, output)) :
    stepped.isSeqFst = recv.isSeqFst ∧ stepped.seqFst = recv.seqFst := by
  unfold msgPatchData at handled
  cases counting : patchDataCount recv (b.packet seq) with
  | error fault => simp [counting, bind, Except.bind] at handled
  | ok outcome =>
      obtain ⟨patched, counted⟩ := outcome
      obtain ⟨begun, fst, -⟩ := (patchDataCount_cases knows counting).frame
      simp only [counting, bind, Except.bind, pure, Except.pure, Except.ok.injEq] at handled
      split_ifs at handled
      · obtain rfl : (patchDataTest patched).1 = stepped := congrArg Prod.fst handled
        rw [patchDataTest_frame]
        exact ⟨begun, fst⟩
      · obtain rfl : patched = stepped := congrArg Prod.fst handled
        exact ⟨begun, fst⟩

/-- A patch is the oldest pending one of the transfer. -/
theorem Link.Follows.takePatch (small : b.seqMax < seqnumMax) (short : b.data.length < 2147483648)
    (follows : link.Follows b t) {pkt : DataPacket} {msgs : List ToReceiverMsg}
    (queued : link.toReceiver = .patchData pkt :: msgs) (present : link.recv = some recv) {output : HandlerOutput}
    (processed : processPatch recv pkt = .ok (stepped, output)) :
    ∃ after, Link.Goes b t link after { link with
      recv := some stepped
      toReceiver := msgs
      toMaster := link.toMaster ++ output.toMaster } := by
  obtain ⟨rfl, fixed⟩ := follows.born present
  have exact := follows.patches pkt (queued ▸ List.mem_cons_self)
  rw [exact] at processed
  obtain ⟨handled, -⟩ := processPatch_ok processed
  obtain ⟨begun, fst⟩ := msgPatchData_first follows.orderly.covered.knows handled
  obtain ⟨firsts, tuples⟩ := msgPatchData_toMaster handled
  have split : t.pending = pkt.seqNum :: (patchSeqs msgs ++ (link.pending ++
      askedPatches b t.recv.seqFst link.asked)) := by
    rw [follows.queue, Link.undelivered, queued]
    rfl
  have moved : transferStep b 0 t (.patch 0) = .ok { t with
      recv := stepped
      pending := t.pending.eraseIdx 0
      slowLog := t.slowLog ++ [pkt.seqNum] } := by
    simp only [transferStep, split, List.getElem?_cons_zero, handled, bind, Except.bind, pure, Except.pure]
  refine ⟨{ t with
    recv := stepped
    pending := t.pending.eraseIdx 0
    slowLog := t.slowLog ++ [pkt.seqNum] }, ⟨?_, ?_, ?_, ?_, ?_, ?_, ?_, follows.several, ?_⟩, fun _ => fst, ?_⟩
  · exact follows.orderly.step small short (.patch 0) rfl moved
  · intro recv same
    exact (Option.some.inj same).symm
  · exact begun.trans fixed
  · show t.pending.eraseIdx 0 = patchSeqs msgs ++ (link.pending ++ askedPatches b stepped.seqFst
      (patchTuples (link.toMaster ++ output.toMaster) ++ jumpTuples link.n2c))
    rw [split, patchTuples_append, tuples, List.append_nil, fst]
    rfl
  · exact fun other member => follows.patches other (queued ▸ List.mem_cons_of_mem _ member)
  · exact fun bcdId other member => (follows.piped bcdId other member).trans fst.symm
  · intro bcdId other member
    rcases List.mem_append.mp member with before | new
    · exact (follows.reported bcdId other before).trans fst.symm
    · have some : 0 < firstSeqs output.toMaster := List.countP_pos_iff.mpr ⟨_, new, rfl⟩
      omega
  · intro pt requested
    apply follows.rounds pt
    simp only [Link.asked, patchTuples_append, tuples, List.append_nil] at requested ⊢
    exact requested
  · show fastDones msgs + t.fastDoneSeen.toNat = fastDones link.toReceiver + t.fastDoneSeen.toNat
    rw [queued]
    rfl

/-- The request of `MSG_FAST_DONE` stands before the reports that are still in the pipe. -/
theorem Link.Follows.takeFastDone (small : b.seqMax < seqnumMax) (follows : link.Follows b t)
    (once : link.signals t ≤ 1) {bcdId : BcdID} {msgs : List ToReceiverMsg}
    (queued : link.toReceiver = .fastDone bcdId :: msgs) (present : link.recv = some recv) :
    ∃ after, Link.Goes b t link after { link with
      recv := some (msgFastDone recv).1
      toReceiver := msgs
      toMaster := link.toMaster ++ (msgFastDone recv).2.toList.map (ToMasterMsg.patchReq bcdId) } := by
  obtain ⟨rfl, fixed⟩ := follows.born present
  have counted : fastDones link.toReceiver = fastDones msgs + 1 := by
    rw [queued]
    exact List.countP_cons_of_pos rfl
  have unclosed : t.fastDoneSeen = false := by
    by_contra seen
    rw [Link.signals, counted, show t.fastDoneSeen = true by simpa using seen] at once
    exact absurd once (by simp)
  have fst : (msgFastDone t.recv).1.seqFst = t.recv.seqFst := by
    rw [msgFastDone_recv]
    split <;> rfl
  have begun : (msgFastDone t.recv).1.isSeqFst = true := by
    rw [msgFastDone_recv]
    split <;> exact fixed
  have created : patchTuples ((msgFastDone t.recv).2.toList.map (ToMasterMsg.patchReq bcdId)) =
      (msgFastDone t.recv).2.toList := by
    unfold patchTuples
    simp
  have parts : (fastDoneParts b 0 t.recv).flatMap PatchTuple.seqs =
      askedPatches b t.recv.seqFst (msgFastDone t.recv).2.toList := by
    rw [fastDoneParts, askedPatches, Nat.zero_mul, Nat.zero_add]
  have split : t.pending = (patchSeqs msgs ++ (link.pending ++ askedPatches b t.recv.seqFst
      (patchTuples link.toMaster))) ++ askedPatches b t.recv.seqFst (jumpTuples link.n2c) := by
    rw [follows.queue, Link.undelivered, queued, Link.asked, askedPatches_append]
    simp [patchSeqs]
  have overtaken := @Orderly.overtake b 0 t small follows.orderly fixed unclosed _ _ split
  refine ⟨_, ⟨overtaken, ?_, ?_, ?_, ?_, ?_, ?_, follows.several, ?_⟩, fun _ => fst, ?_⟩
  · intro recv same
    exact (Option.some.inj same).symm
  · exact begun
  · show _ = patchSeqs msgs ++ (link.pending ++ askedPatches b (msgFastDone t.recv).1.seqFst
      (patchTuples (link.toMaster ++ (msgFastDone t.recv).2.toList.map (ToMasterMsg.patchReq bcdId)) ++
        jumpTuples link.n2c))
    rw [patchTuples_append, created, fst, askedPatches_append, askedPatches_append, ← parts]
    simp only [List.append_assoc]
  · exact fun other member => follows.patches other (queued ▸ List.mem_cons_of_mem _ member)
  · exact fun bcdId other member => (follows.piped bcdId other member).trans fst.symm
  · intro other seq member
    rcases List.mem_append.mp member with before | new
    · exact (follows.reported other seq before).trans fst.symm
    · obtain ⟨pt, -, same⟩ := List.mem_map.mp new
      cases same
  · exact fun _ _ _ => rfl
  · show fastDones msgs + 1 = fastDones link.toReceiver + t.fastDoneSeen.toNat
    rw [counted, unclosed]
    rfl

/-- The receiver handles a patch or the end of the transfer. -/
theorem Link.Follows.takeReceiver (small : b.seqMax < seqnumMax) (short : b.data.length < 2147483648)
    (follows : link.Follows b t) (once : link.signals t ≤ 1) (taken : link.takeReceiver = .ok next) :
    ∃ after, Link.Goes b t link after next := by
  unfold Link.takeReceiver at taken
  cases queued : link.toReceiver with
  | nil =>
      rw [queued] at taken
      obtain rfl := Except.ok.inj taken
      exact ⟨t, follows.stay⟩
  | cons msg msgs =>
      cases present : link.recv with
      | none =>
          rw [queued, present] at taken
          cases msg <;> cases taken
      | some recv =>
          rw [queued, present] at taken
          cases msg with
          | patchData pkt =>
              dsimp only at taken
              cases processed : processPatch recv pkt with
              | error fault =>
                  rw [processed] at taken
                  cases taken
              | ok outcome =>
                  rw [processed] at taken
                  obtain rfl := Except.ok.inj taken
                  exact follows.takePatch small short queued present processed
          | fastDone bcdId =>
              obtain rfl := Except.ok.inj taken
              exact follows.takeFastDone small once queued present

/-- A fault ends the receiver, and its transfer stays. -/
theorem Link.Follows.survive (follows : link.Follows b t) {outcome : Except Fault Link}
    (taken : ∀ next, outcome = .ok next → ∃ after, Link.Goes b t link after next) :
    ∃ after, Link.Goes b t link after (link.survive outcome) := by
  unfold Link.survive
  split_ifs
  · exact ⟨t, follows.stay⟩
  · cases outcome with
    | error fault => exact ⟨t, { follows with }, fun _ => rfl, rfl⟩
    | ok next => exact taken next rfl

end Control

section Sender

variable {msg : ToMasterMsg} {msgs : List ToMasterMsg} {seq : Nat}

/-- The sender takes a report. -/
theorem Link.Follows.takeReport (follows : link.Follows b t) (queued : link.toMaster = msg :: msgs)
    (report : patchTuples [msg] = []) : ({ link with toMaster := msgs } : Link).Follows b t := by
  have asked : patchTuples msgs ++ jumpTuples link.n2c = link.asked := by
    have first : patchTuples (msg :: msgs) = patchTuples [msg] ++ patchTuples msgs := patchTuples_append [msg] msgs
    rw [Link.asked, queued, first, report, List.nil_append]
  have sent : ({ link with toMaster := msgs } : Link).asked = link.asked := asked
  refine { follows with queue := ?_, reported := ?_, rounds := ?_ }
  · rw [follows.queue, Link.undelivered, Link.undelivered, sent]
  · exact fun bcdId other member => follows.reported bcdId other (queued ▸ List.mem_cons_of_mem msg member)
  · exact fun pt requested => follows.rounds pt (sent ▸ requested)

/-- The sender splits a request with the end of the round that the first packet of the receiver gives. -/
theorem Link.Follows.request (follows : link.Follows b t) {bcdId : BcdID} {pt : PatchTuple}
    (queued : link.toMaster = .patchReq bcdId pt :: msgs) {seqEnd : Nat}
    (split : msgPatchReq b.seqMax seqEnd pt = msgPatchReq b.seqMax t.recv.seqFst pt) :
    ({ link with
      toMaster := msgs
      pending := link.pending ++ (msgPatchReq b.seqMax seqEnd pt).flatMap PatchTuple.seqs } : Link).Follows b t := by
  have asked : link.asked = pt :: (patchTuples msgs ++ jumpTuples link.n2c) := by
    rw [Link.asked, queued]
    rfl
  refine { follows with queue := ?_, reported := ?_, rounds := ?_ }
  · rw [follows.queue, Link.undelivered, Link.undelivered, asked, ← List.singleton_append, askedPatches_append, split]
    simp only [askedPatches, List.flatMap_singleton, List.append_assoc]
    rfl
  · exact fun id other member => follows.reported id other (queued ▸ List.mem_cons_of_mem _ member)
  · exact fun other requested => follows.rounds other (asked ▸ List.mem_cons_of_mem pt requested)

/-- The oldest requested packet is sent. -/
theorem Link.Follows.sendPatch (follows : link.Follows b t) (found : link.pending[0]? = some seq) :
    ({ link with
      pending := link.pending.eraseIdx 0
      toReceiver := link.toReceiver ++ [.patchData (b.packet seq)] } : Link).Follows b t := by
  refine { follows with queue := ?_, patches := ?_ }
  · rw [follows.queue]
    unfold Link.undelivered
    cases waiting : link.pending with
    | nil =>
        rw [waiting] at found
        cases found
    | cons head rest =>
        obtain rfl : head = seq := by simpa [waiting] using found
        rw [patchSeqs_append]
        show patchSeqs link.toReceiver ++ (head :: rest ++ _) = patchSeqs link.toReceiver ++ [head] ++ (rest ++ _)
        simp [Link.asked]
  · intro pkt member
    rcases List.mem_append.mp member with before | new
    · exact follows.patches pkt before
    · obtain rfl := ToReceiverMsg.patchData.inj (List.mem_singleton.mp new)
      rfl

/-- The sender tells the receiver that the transfer is over. -/
theorem Link.Follows.sendFastDone (follows : link.Follows b t) (bcdId : BcdID) :
    ({ link with toReceiver := link.toReceiver ++ [.fastDone bcdId] } : Link).Follows b t ∧
      ({ link with toReceiver := link.toReceiver ++ [.fastDone bcdId] } : Link).signals t = link.signals t + 1 := by
  have silent : patchSeqs (link.toReceiver ++ [.fastDone bcdId]) = patchSeqs link.toReceiver := by
    rw [patchSeqs_append]
    exact List.append_nil _
  refine ⟨{ follows with queue := ?_, patches := ?_ }, ?_⟩
  · rw [follows.queue, Link.undelivered, Link.undelivered, silent]
    rfl
  · intro pkt member
    rcases List.mem_append.mp member with before | new
    · exact follows.patches pkt before
    · cases List.mem_singleton.mp new
  · rw [Link.signals, Link.signals, fastDones_append]
    show fastDones link.toReceiver + 1 + _ = _
    omega

end Sender

end Steps

end RepublicAgent
