/-
This file follows the messages on the connection of one receiver. None is lost before the sender has handled it.
-/

import RepublicAgent.Completion.Receivers

namespace RepublicAgent

section Counting

/-- The reports of the first packet that the sender has still to handle. -/
def Link.firsts (link : Link) : Nat := seqFirsts link.n2c + firstSeqs link.toMaster

/-- The reports of the last packet that the sender has still to handle. -/
def Link.dones (link : Link) : Nat := seqAlls link.n2c + allDones link.toMaster

def Link.requests (link : Link) : List PatchTuple := jumpTuples link.n2c ++ patchTuples link.toMaster

def Link.started (link : Link) : Nat := link.recv.elim 0 fun recv => recv.isSeqFst.toNat

def Link.announced (b : Broadcast) (link : Link) : Nat := link.recv.elim 0 (RecverState.announced b)

end Counting

/-- The sender handled `heard` reports of the first packet and `done` reports of the last one. -/
structure Link.Sound (b : Broadcast) (heard done : Nat) (link : Link) : Prop where
  regular : ∀ recv ∈ link.recv, Regular b recv
  silent : link.recv = none → link.n2c = [] ∧ link.toMaster = []
  firsts : link.firsts + heard = link.started
  dones : link.dones + done = link.announced b
  requests : ∀ pt ∈ link.requests, pt.Bounded b
  pending : ∀ seq ∈ link.pending, seq < b.seqMax
  patches : ∀ pkt, .patchData pkt ∈ link.toReceiver → ∃ seq payload, seq < b.seqMax ∧
    pkt = { b.packet seq with payload := payload }

section Steps

variable {b : Broadcast} {heard done : Nat} {link next : Link} {recv : RecverState}

theorem seqFirsts_append (first second : List N2cMsg) :
    seqFirsts (first ++ second) = seqFirsts first + seqFirsts second := List.countP_append ..

theorem seqAlls_append (first second : List N2cMsg) :
    seqAlls (first ++ second) = seqAlls first + seqAlls second := List.countP_append ..

theorem jumpTuples_append (first second : List N2cMsg) :
    jumpTuples (first ++ second) = jumpTuples first ++ jumpTuples second := List.filterMap_append ..

theorem firstSeqs_append (first second : List ToMasterMsg) :
    firstSeqs (first ++ second) = firstSeqs first + firstSeqs second := List.countP_append ..

theorem allDones_append (first second : List ToMasterMsg) :
    allDones (first ++ second) = allDones first + allDones second := List.countP_append ..

theorem patchTuples_append (first second : List ToMasterMsg) :
    patchTuples (first ++ second) = patchTuples first ++ patchTuples second := List.filterMap_append ..

theorem Link.initial_sound (b : Broadcast) : Link.initial.Sound b 0 0 := by
  refine ⟨?_, fun _ => ⟨rfl, rfl⟩, rfl, rfl, ?_, ?_, ?_⟩
  · intro recv present
    cases present
  · intro pt requested
    cases requested
  · intro seq requested
    cases requested
  · intro pkt queued
    cases queued

/-- A step of the receiver adds its messages to those under way. -/
theorem Link.Sound.announce (sound : link.Sound b heard done) (present : link.recv = some recv)
    {stepped : RecverState} {firsts dones : Nat} {tuples : List PatchTuple}
    (announces : Announces b recv stepped firsts dones tuples) (stored : next.recv = some stepped)
    (moreFirsts : next.firsts = link.firsts + firsts) (moreDones : next.dones = link.dones + dones)
    (moreTuples : ∀ pt ∈ next.requests, pt ∈ link.requests ∨ pt ∈ tuples) (pending : next.pending = link.pending)
    (rest : next.toReceiver ⊆ link.toReceiver) : next.Sound b heard done := by
  have firstTotal := sound.firsts
  have doneTotal := sound.dones
  have reported := announces.firsts
  have announced := announces.dones
  rw [Link.started, present, Option.elim_some] at firstTotal
  rw [Link.announced, present, Option.elim_some] at doneTotal
  constructor
  · intro other same
    obtain rfl := Option.some.inj (stored.symm.trans same)
    exact announces.regular
  · intro absent
    rw [stored] at absent
    cases absent
  · rw [Link.started, stored, Option.elim_some]
    omega
  · rw [Link.announced, stored, Option.elim_some]
    omega
  · intro pt requested
    rcases moreTuples pt requested with before | new
    · exact sound.requests pt before
    · exact announces.bounded pt new
  · rw [pending]
    exact sound.pending
  · exact fun pkt member => sound.patches pkt (rest member)

/-- The messages of a packet enter the pipe. -/
theorem Link.Sound.process (sound : link.Sound b heard done) (present : link.recv = some recv) {seq : Nat}
    (taken : link.process b recv seq = .ok next) : next.Sound b heard done := by
  unfold Link.process at taken
  cases processed : processPacket recv (b.packet (seq % b.seqMax)) with
  | error fault =>
      rw [processed] at taken
      cases taken
  | ok outcome =>
      obtain ⟨stepped, msgs⟩ := outcome
      rw [processed] at taken
      obtain rfl := Except.ok.inj taken
      have announces := (sound.regular recv present).packet (Nat.mod_lt seq b.seqMax_pos) processed
      refine sound.announce present announces rfl ?_ ?_ ?_ rfl (List.Subset.refl _)
      · simp only [Link.firsts, seqFirsts_append]
        omega
      · simp only [Link.dones, seqAlls_append]
        omega
      · simp only [Link.requests, jumpTuples_append, List.mem_append]
        tauto

/-- The first packet finds no messages. -/
theorem Link.Sound.create (sound : link.Sound b heard done) (absent : link.recv = none) :
    ({ link with recv := some (recverStateStartFathPath (createRecverState b.bcdId b.payloadLen)) } : Link).Sound b
      heard done := by
  have firsts := sound.firsts
  have dones := sound.dones
  rw [Link.started, absent, Option.elim_none] at firsts
  rw [Link.announced, absent, Option.elim_none] at dones
  refine ⟨?_, nofun, firsts, ?_, sound.requests, sound.pending, sound.patches⟩
  · intro other same
    obtain rfl := Option.some.inj same
    exact created_regular b
  · unfold Link.announced RecverState.announced
    rw [Option.elim_some]
    split_ifs
    · exact dones
    · exact dones

theorem Link.Sound.packet (sound : link.Sound b heard done) {seq : Nat} {opens : Bool}
    (taken : link.packet b seq opens = .ok next) : next.Sound b heard done := by
  unfold Link.packet at taken
  cases present : link.recv with
  | some recv =>
      rw [present] at taken
      exact sound.process present taken
  | none =>
      rw [present] at taken
      dsimp only at taken
      split_ifs at taken
      · apply (sound.create present).process rfl
        unfold Link.process at taken ⊢
        exact taken
      · obtain rfl := Except.ok.inj taken
        exact sound

/-- The control thread of the receiver passes one report on. -/
theorem Link.Sound.takeN2c (sound : link.Sound b heard done) (taken : link.takeN2c = .ok next) :
    next.Sound b heard done := by
  unfold Link.takeN2c at taken
  cases piped : link.n2c with
  | nil =>
      rw [piped] at taken
      obtain rfl := Except.ok.inj taken
      exact sound
  | cons msg msgs =>
      cases present : link.recv with
      | none =>
          rw [piped, present] at taken
          cases taken
      | some recv =>
          rw [piped, present] at taken
          dsimp only at taken
          cases handled : n2cHandler false recv msg with
          | error assertion =>
              rw [handled] at taken
              cases taken
          | ok output =>
              rw [handled] at taken
              obtain rfl := Except.ok.inj taken
              obtain ⟨firsts, dones, tuples⟩ := n2cHandler_toMaster handled
              have split : link.n2c = [msg] ++ msgs := piped
              refine sound.announce present (sound.regular recv present).idle rfl ?_ ?_ ?_ rfl
                (List.Subset.refl _)
              · simp only [Link.firsts, split, seqFirsts_append, firstSeqs_append, firsts]
                omega
              · simp only [Link.dones, split, seqAlls_append, allDones_append, dones]
                omega
              · simp only [Link.requests, split, jumpTuples_append, patchTuples_append, tuples, List.mem_append]
                tauto

/-- The control thread of the receiver handles a patch or the end of the transfer. -/
theorem Link.Sound.takeReceiver (sound : link.Sound b heard done) (taken : link.takeReceiver = .ok next) :
    next.Sound b heard done := by
  unfold Link.takeReceiver at taken
  cases queued : link.toReceiver with
  | nil =>
      rw [queued] at taken
      obtain rfl := Except.ok.inj taken
      exact sound
  | cons msg msgs =>
      have rest : msgs ⊆ link.toReceiver := queued ▸ List.subset_cons_self msg msgs
      cases present : link.recv with
      | none =>
          rw [queued, present] at taken
          cases msg <;> cases taken
      | some recv =>
          rw [queued, present] at taken
          have regular := sound.regular recv present
          cases msg with
          | patchData pkt =>
              obtain ⟨seq, payload, inside, rfl⟩ := sound.patches pkt (queued ▸ List.mem_cons_self)
              dsimp only at taken
              cases processed : processPatch recv { b.packet seq with payload := payload } with
              | error fault =>
                  rw [processed] at taken
                  cases taken
              | ok outcome =>
                  obtain ⟨stepped, output⟩ := outcome
                  rw [processed] at taken
                  obtain rfl := Except.ok.inj taken
                  refine sound.announce present (regular.patchPayload inside processed) rfl ?_ ?_ ?_ rfl rest
                  · simp only [Link.firsts, firstSeqs_append]
                    omega
                  · simp only [Link.dones, allDones_append]
                    omega
                  · simp only [Link.requests, patchTuples_append, List.mem_append]
                    tauto
          | fastDone bcdId =>
              obtain rfl := Except.ok.inj taken
              have created : ∀ tuples : List PatchTuple, firstSeqs (tuples.map (ToMasterMsg.patchReq bcdId)) = 0 ∧
                  allDones (tuples.map (ToMasterMsg.patchReq bcdId)) = 0 ∧
                  patchTuples (tuples.map (ToMasterMsg.patchReq bcdId)) = tuples := by
                intro tuples
                unfold firstSeqs allDones patchTuples
                simp [Function.comp_def]
              obtain ⟨firsts, dones, tuples⟩ := created (msgFastDone recv).2.toList
              refine sound.announce present regular.fastDone rfl ?_ ?_ ?_ rfl rest
              · simp only [Link.firsts, firstSeqs_append, firsts]
                omega
              · simp only [Link.dones, allDones_append, dones]
                omega
              · simp only [Link.requests, patchTuples_append, tuples, List.mem_append]
                tauto

/-- A fault ends the receiver and leaves the messages under way. -/
theorem Link.Sound.survive (sound : link.Sound b heard done) {outcome : Except Fault Link}
    (taken : ∀ next, outcome = .ok next → next.Sound b heard done) : (link.survive outcome).Sound b heard done := by
  unfold Link.survive
  split_ifs
  · exact sound
  · cases outcome with
    | error fault => exact { sound with }
    | ok next => exact taken next rfl

/-- The handlers of the control thread create no receiver. -/
theorem Link.Sound.unborn (sound : link.Sound b heard done) (absent : link.recv = none) :
    (link.survive link.takeN2c).recv = none ∧ (link.survive link.takeReceiver).recv = none := by
  constructor
  · have idle : link.takeN2c = .ok link := by rw [Link.takeN2c, (sound.silent absent).1]
    rw [idle, Link.survive]
    split_ifs
    · exact absent
    · exact absent
  · unfold Link.takeReceiver Link.survive
    rw [absent]
    split_ifs
    · exact absent
    · cases link.toReceiver with
      | nil => exact absent
      | cons msg msgs => cases msg <;> rfl

section Master

variable {msg : ToMasterMsg} {msgs : List ToMasterMsg}

/-- A message for the sender belongs to a receiver. -/
theorem Link.Sound.born (sound : link.Sound b heard done) (queued : link.toMaster = msg :: msgs) :
    link.recv ≠ none := by
  intro absent
  rw [(sound.silent absent).2] at queued
  cases queued

/-- A message that the sender takes is no longer under way. -/
theorem Link.Sound.takeMaster (sound : link.Sound b heard done) (queued : link.toMaster = msg :: msgs) :
    ({ link with toMaster := msgs } : Link).Sound b (heard + firstSeqs [msg]) (done + allDones [msg]) ∧
      ∀ pt ∈ patchTuples [msg], pt.Bounded b := by
  have split : link.toMaster = [msg] ++ msgs := queued
  have firsts := sound.firsts
  have dones := sound.dones
  have requests := sound.requests
  rw [Link.firsts, split, firstSeqs_append] at firsts
  rw [Link.dones, split, allDones_append] at dones
  rw [Link.requests, split, patchTuples_append] at requests
  refine ⟨⟨sound.regular, fun absent => absurd absent (sound.born queued), ?_, ?_, ?_, sound.pending, sound.patches⟩,
    ?_⟩
  · change seqFirsts link.n2c + firstSeqs msgs + (heard + firstSeqs [msg]) = link.started
    omega
  · change seqAlls link.n2c + allDones msgs + (done + allDones [msg]) = link.announced b
    omega
  · intro pt member
    apply requests pt
    simp only [Link.requests, List.mem_append] at member ⊢
    tauto
  · intro pt member
    apply requests pt
    simp only [List.mem_append]
    tauto

end Master

/-- The sender reads only packets of the data. -/
theorem Link.Sound.request (sound : link.Sound b heard done) {pt : PatchTuple} (bounded : pt.Bounded b) (seqEnd : Nat) :
    ({ link with
      pending := link.pending ++ (msgPatchReq b.seqMax seqEnd pt).flatMap PatchTuple.seqs } : Link).Sound b heard
      done := by
  have inside : (if pt.endSeq = seq2WardTheEnd then seqEnd % b.seqMax else pt.endSeq) ≤ b.seqMax := by
    split_ifs with final
    · exact (Nat.mod_lt seqEnd b.seqMax_pos).le
    · exact bounded.resolve_right final
  refine { sound with pending := ?_ }
  intro seq member
  rcases List.mem_append.mp member with before | requested
  · exact sound.pending seq before
  · obtain ⟨part, created, covered⟩ := List.mem_flatMap.mp requested
    have last := msgPatchReq_inside pt rfl inside part created
    exact ((part.mem_seqs seq).mp covered).2.trans_le last

theorem Link.Sound.sendPatch (sound : link.Sound b heard done) {index seq : Nat} (found : link.pending[index]? = some seq)
    (payload : List UInt8) :
    ({ link with
      pending := link.pending.eraseIdx index
      toReceiver := link.toReceiver ++ [.patchData { b.packet seq with payload := payload }] } : Link).Sound b heard
      done := by
  refine { sound with pending := ?_, patches := ?_ }
  · exact fun other member => sound.pending other ((List.eraseIdx_sublist _ _).subset member)
  · intro pkt member
    rcases List.mem_append.mp member with before | new
    · exact sound.patches pkt before
    · obtain rfl := ToReceiverMsg.patchData.inj (List.mem_singleton.mp new)
      exact ⟨seq, payload, sound.pending seq (List.mem_of_getElem? found), rfl⟩

theorem Link.Sound.sendFastDone (sound : link.Sound b heard done) :
    ({ link with toReceiver := link.toReceiver ++ [.fastDone b.bcdId] } : Link).Sound b heard done := by
  refine { sound with patches := ?_ }
  intro pkt member
  rcases List.mem_append.mp member with before | new
  · exact sound.patches pkt before
  · cases List.mem_singleton.mp new

/-- A receiver reports once, and it announces the last packet only when it is finished. -/
theorem Link.Sound.finished (sound : link.Sound b heard done)
    (reported : if b.seqMax = 1 then 0 < heard else 0 < done) :
    ∃ recv, link.recv = some recv ∧ recv.isFinished = true := by
  have firsts := sound.firsts
  have dones := sound.dones
  unfold Link.started at firsts
  unfold Link.announced at dones
  cases present : link.recv with
  | none =>
      rw [present, Option.elim_none] at firsts dones
      split_ifs at reported <;> omega
  | some recv =>
      rw [present, Option.elim_some] at firsts dones
      refine ⟨recv, rfl, ?_⟩
      unfold RecverState.announced at dones
      split_ifs at reported dones with single
      · apply (sound.regular recv present).sane.atOnce single
        cases started : recv.isSeqFst with
        | true => rfl
        | false =>
            rw [started, Bool.toNat_false] at firsts
            omega
      · cases finished : recv.isFinished with
        | true => rfl
        | false =>
            rw [finished, Bool.toNat_false] at dones
            omega

theorem Link.started_le (link : Link) : link.started ≤ 1 := by
  unfold Link.started
  cases link.recv with
  | none => exact Nat.zero_le 1
  | some recv => exact Bool.toNat_le _

theorem Link.announced_le (b : Broadcast) (link : Link) :
    link.announced b ≤ if b.seqMax = 1 then 0 else 1 := by
  unfold Link.announced RecverState.announced
  cases link.recv with
  | none => exact Nat.zero_le _
  | some recv =>
      rw [Option.elim_some]
      split_ifs
      · exact le_rfl
      · exact Bool.toNat_le _

end Steps

end RepublicAgent
