/-
This file follows one push from its approval to the end of its transfer. Each step is a call of the data
channel thread or one of the two parts in which the control thread handles `FIRST_SEQ`.
-/

import RepublicAgent.Sender.Push

namespace RepublicAgent
open Execution MachineInteger

/-- The address belongs to the `FIRST_SEQ` between its two parts. The first packets of the receivers are
kept for the statements only. -/
structure PushSender where
  multi : MulticastState
  pathRelease : PathRelease
  firstSeq : Option Nat
  firsts : List (Nat × Nat)

def Push.start (push : Push) : PushSender := ⟨push.approved, ⟨false, 0, 0⟩, none, []⟩

/-- A receiver reports the first packet that it got by the place of the packet in its round. -/
inductive PushEvent where
  | queue (ring : TxRing) (estimate : Int)
  | process (space maxPktnum : Int) (ring : TxRing)
  | firstSeq (addr first : Nat)
  | updateSeqEnd
  | check (ring : TxRing)
deriving DecidableEq, Repr

def PushSender.queue (option : Bool) (sender : PushSender) (ring : TxRing) (estimate : Int) : PushSender :=
  let outcome := amNPktQueued option sender.multi sender.pathRelease ring estimate
  { sender with multi := outcome.1, pathRelease := outcome.2.1 }

/-- The function `am_move` leaves a dead multicast. -/
def PushSender.process (sender : PushSender) (space maxPktnum : Int) (ring : TxRing) :
    Except Fault PushSender :=
  if sender.multi.bcdState = .dead then .ok sender
  else
    match amProcessRings sender.multi sender.pathRelease space maxPktnum ring with
    | .error fault => .error fault
    | .ok outcome => .ok { sender with multi := outcome.1, pathRelease := outcome.2 }

/-- The control thread takes the next message only after both parts of the last one. -/
def PushSender.receiveFirstSeq (sender : PushSender) (addr first : Nat) : Except Fault PushSender :=
  match sender.firstSeq with
  | some _ => .ok sender
  | none =>
      match RepublicAgent.receiveFirstSeq sender.multi addr (first % sender.multi.seqMax) with
      | .error fault => .error fault
      | .ok counted => .ok { sender with
          multi := counted
          firstSeq := some addr
          firsts := (addr, first) :: sender.firsts }

def PushSender.updateSeqEnd (sender : PushSender) : PushSender :=
  match sender.firstSeq with
  | none => sender
  | some addr =>
      match sender.multi.senderAddrHash addr with
      | none => { sender with firstSeq := none }
      | some state => { sender with
          multi := multicastStateUpdateSeqEnd sender.multi addr state
          firstSeq := none }

def PushSender.check (sender : PushSender) (ring : TxRing) : PushSender :=
  if sender.pathRelease.needReleasePath = false then sender
  else if sender.pathRelease.passed ring then { sender with
    multi := { sender.multi with bcdState := .dead }
    pathRelease := { sender.pathRelease with needReleasePath := false } }
  else { sender with pathRelease := { sender.pathRelease with amTxringTailLast := ring.tail } }

def pushStep (option : Bool) (sender : PushSender) : PushEvent → Except Fault PushSender
  | .queue ring estimate => .ok (sender.queue option ring estimate)
  | .process space maxPktnum ring => sender.process space maxPktnum ring
  | .firstSeq addr first => sender.receiveFirstSeq addr first
  | .updateSeqEnd => .ok sender.updateSeqEnd
  | .check ring => .ok (sender.check ring)

/-- The part of the sender that decides the end of the transfer. -/
structure PushView where
  seqMax : Nat
  nInit : Nat
  nFirstSeq : Nat
  seqEnd : Nat
  seqEndMax : Nat
  seqCur : Nat
  senderAddrHash : Nat → Option SenderState
  firstSeq : Option Nat
  firsts : List (Nat × Nat)

def PushSender.view (sender : PushSender) : PushView where
  seqMax := sender.multi.seqMax
  nInit := sender.multi.nInit
  nFirstSeq := sender.multi.nFirstSeq
  seqEnd := sender.multi.seqEnd
  seqEndMax := sender.multi.seqEndMax
  seqCur := sender.multi.seqCur
  senderAddrHash := sender.multi.senderAddrHash
  firstSeq := sender.firstSeq
  firsts := sender.firsts

/-- Every receiver reported its first packet, and the whole round from that packet on was sent before the
end of the receiver. -/
structure PushView.Complete (push : Push) (view : PushView) : Prop where
  counted : view.nFirstSeq = view.nInit
  emitted : ∀ slave ∈ push.slaves, ∃ first state, (slave.addr, first) ∈ view.firsts ∧
    view.senderAddrHash slave.addr = some state ∧ first + view.seqMax ≤ state.seqEnd ∧
    state.seqEnd ≤ view.seqCur

/-- The release of the path was asked for, or the multicast is dead already. -/
def PushSender.Raised (sender : PushSender) : Prop :=
  sender.pathRelease.needReleasePath = true ∨ sender.multi.bcdState = .dead

/-- The transfer ends only when it is complete. -/
def EndsComplete (push : Push) (sender : PushSender) : Prop := sender.Raised → sender.view.Complete push

/-- Each receiver sends one `FIRST_SEQ` for a packet that was sent before. The sum of `seqCur` and `seqMax`
fits into 32 bits. -/
def PushEvent.Promised (sender : PushSender) : PushEvent → Prop
  | .process space maxPktnum _ => sender.multi.bcdState ≠ .dead →
      sender.multi.seqCur + (min maxPktnum space).toNat + sender.multi.seqMax < 4294967296
  | .firstSeq addr first => sender.firstSeq = none →
      addr ∉ sender.firsts.map Prod.fst ∧ first < sender.multi.seqCur
  | _ => True

instance (sender : PushSender) : ∀ event : PushEvent, Decidable (event.Promised sender)
  | .process .. => inferInstanceAs (Decidable (_ → _))
  | .firstSeq .. => inferInstanceAs (Decidable (_ → _))
  | .queue .. | .updateSeqEnd | .check .. => inferInstanceAs (Decidable True)

/-- The last `FIRST_SEQ` is counted and has not updated the end of the transfer. -/
def PushSender.Counted (sender : PushSender) : Prop :=
  sender.firstSeq ≠ none ∧ sender.multi.nFirstSeq = sender.multi.nInit

/-- The data channel thread sends no packet `SEQNUM_MAX` between the two parts of the last `FIRST_SEQ`. -/
def PushEvent.BelowSentinel (sender : PushSender) : PushEvent → Prop
  | .queue _ _ => sender.Counted → sender.multi.seqCur < seqnumMax
  | .process space maxPktnum _ => sender.Counted →
      sender.multi.seqCur + (min maxPktnum space).toNat < seqnumMax
  | _ => True

instance (sender : PushSender) : Decidable sender.Counted := inferInstanceAs (Decidable (_ ∧ _))

instance (sender : PushSender) : ∀ event : PushEvent, Decidable (event.BelowSentinel sender)
  | .queue .. => inferInstanceAs (Decidable (_ → _))
  | .process .. => inferInstanceAs (Decidable (_ → _))
  | .firstSeq .. | .updateSeqEnd | .check .. => inferInstanceAs (Decidable True)

/-- The counters agree with the receivers that reported. The end of the transfer is unknown until the last
of them is known. -/
structure PushView.Tracked (push : Push) (view : PushView) : Prop where
  reports : Reports push view.nInit view.nFirstSeq view.senderAddrHash (view.firsts.map Prod.fst)
  bounded : view.seqCur + view.seqMax < 4294967296
  pending : ∀ addr, view.firstSeq = some addr → ∃ first state, (addr, first) ∈ view.firsts ∧
    view.senderAddrHash addr = some state ∧ state.seqFirst = first % view.seqMax ∧ first < view.seqCur
  served : ∀ addr first, (addr, first) ∈ view.firsts → view.firstSeq ≠ some addr →
    ∃ state, view.senderAddrHash addr = some state ∧ first + view.seqMax ≤ state.seqEnd ∧
      state.seqEnd ≤ view.seqEndMax
  unknown : view.firstSeq ≠ none ∨ view.nFirstSeq ≠ view.nInit → view.seqEnd = seqnumMax
  ended : view.firstSeq = none → view.nFirstSeq = view.nInit → view.firsts ≠ [] →
    view.seqEnd = view.seqEndMax

section Ends

variable {push : Push} {view : PushView}

/-- With all reports counted and the known end reached, the transfer is complete. -/
theorem PushView.Tracked.complete (tracked : view.Tracked push) (idle : view.firstSeq = none)
    (all : view.nFirstSeq = view.nInit) (reached : view.seqEnd ≤ view.seqCur) : view.Complete push := by
  refine ⟨all, ?_⟩
  intro slave member
  obtain ⟨⟨addr, first⟩, reported, same⟩ := List.mem_map.mp (tracked.reports.all all member)
  obtain rfl : addr = slave.addr := same
  obtain ⟨state, found, round, last⟩ := tracked.served slave.addr first reported (by simp [idle])
  have ended := tracked.ended idle all (List.ne_nil_of_mem reported)
  exact ⟨first, state, reported, found, round, by omega⟩

/-- More packets keep the counters. -/
theorem PushView.Tracked.send (tracked : view.Tracked push) {seqCur : Nat} (later : view.seqCur ≤ seqCur)
    (bounded : seqCur + view.seqMax < 4294967296) : PushView.Tracked push { view with seqCur := seqCur } := by
  refine ⟨tracked.reports, bounded, ?_, tracked.served, tracked.unknown, tracked.ended⟩
  intro addr handling
  obtain ⟨first, state, reported, found, place, sent⟩ := tracked.pending addr handling
  exact ⟨first, state, reported, found, place, sent.trans_le later⟩

/-- More packets keep a complete transfer. -/
theorem PushView.Complete.send (complete : view.Complete push) {seqCur : Nat}
    (later : view.seqCur ≤ seqCur) : PushView.Complete push { view with seqCur := seqCur } := by
  refine ⟨complete.counted, ?_⟩
  intro slave member
  obtain ⟨first, state, reported, found, round, sent⟩ := complete.emitted slave member
  exact ⟨first, state, reported, found, round, sent.trans later⟩

/-- The first part of a new report. -/
theorem PushView.Tracked.receive (tracked : view.Tracked push) {addr first : Nat} {state : SenderState}
    (found : view.senderAddrHash addr = some state) (idle : view.firstSeq = none)
    (silent : addr ∉ view.firsts.map Prod.fst) (sent : first < view.seqCur) :
    PushView.Tracked push { view with
      senderAddrHash := Function.update view.senderAddrHash addr
        (some { state with seqFirst := first % view.seqMax })
      nFirstSeq := u16 ((view.nFirstSeq : Int) + 1)
      firstSeq := some addr
      firsts := (addr, first) :: view.firsts } := by
  have room := tracked.reports.room (tracked.reports.known addr state found) silent
  constructor
  · exact tracked.reports.report found silent
  · exact tracked.bounded
  · rintro other ⟨rfl⟩
    exact ⟨first, { state with seqFirst := first % view.seqMax }, List.mem_cons_self, Function.update_self ..,
      rfl, sent⟩
  · intro other seq member different
    have apart : other ≠ addr := fun same => different (same ▸ rfl)
    rcases List.mem_cons.mp member with same | member
    · exact absurd (congrArg Prod.fst same) apart
    · simp only [Function.update_of_ne apart]
      exact tracked.served other seq member (by simp [idle])
  · intro _
    exact tracked.unknown (.inr room.ne)
  · intro handled
    cases handled

/-- The end of a receiver is at least one round behind its first packet. -/
theorem round_le_end {seqCur first : Nat} (seqMax : Nat) (sent : first < seqCur) :
    first + seqMax ≤ nextPlace seqCur seqMax (first % seqMax) := by
  have split := Nat.div_add_mod first seqMax
  have whole := Nat.div_add_mod seqCur seqMax
  have earlier : first / seqMax ≤ seqCur / seqMax := Nat.div_le_div_right sent.le
  unfold nextPlace
  split_ifs with later
  · have before : first / seqMax < seqCur / seqMax := by
      by_contra same
      have equal : first / seqMax = seqCur / seqMax := by omega
      rw [equal] at split
      omega
    have rounds := Nat.mul_le_mul_left seqMax before
    rw [Nat.mul_succ] at rounds
    rw [Nat.mul_comm]
    omega
  · have rounds := Nat.mul_le_mul_left seqMax earlier
    rw [Nat.add_mul, Nat.one_mul, Nat.mul_comm]
    omega

/-- The end of a receiver is less than a round behind the last packet. -/
theorem end_lt_round {seqCur first : Nat} (seqMax : Nat) (sent : first < seqCur) :
    nextPlace seqCur seqMax (first % seqMax) < seqCur + seqMax := by
  rcases Nat.eq_zero_or_pos seqMax with rfl | positive
  · unfold nextPlace
    simpa using sent
  · exact nextPlace_lt seqCur (Nat.mod_lt first positive)

/-- The updated end covers the round of the receiver. -/
theorem updateSeqEnd_covers (multi : MulticastState) (addr : Nat) (state : SenderState)
    {first : Nat} (place : state.seqFirst = first % multi.seqMax) (sent : first < multi.seqCur)
    (bounded : multi.seqCur + multi.seqMax < 4294967296) :
    ∃ seqEnd, first + multi.seqMax ≤ seqEnd ∧ multicastStateUpdateSeqEnd multi addr state = { multi with
      senderAddrHash := Function.update multi.senderAddrHash addr (some { state with seqEnd := seqEnd })
      seqEndMax := max multi.seqEndMax seqEnd
      seqEnd := if multi.nInit = multi.nFirstSeq then max multi.seqEndMax seqEnd else multi.seqEnd } := by
  have round := round_le_end multi.seqMax sent
  have last := end_lt_round multi.seqMax sent
  have exact := u32_natCast (last.trans bounded)
  refine ⟨_, round, ?_⟩
  rw [multicastStateUpdateSeqEnd_eq, place, exact]

/-- The second part of a report. -/
theorem PushView.Tracked.update (tracked : view.Tracked push) {addr seqEnd : Nat} {state : SenderState}
    (handling : view.firstSeq = some addr) (found : view.senderAddrHash addr = some state)
    (round : ∀ first, (addr, first) ∈ view.firsts → first + view.seqMax ≤ seqEnd) :
    PushView.Tracked push { view with
      senderAddrHash := Function.update view.senderAddrHash addr (some { state with seqEnd := seqEnd })
      seqEndMax := max view.seqEndMax seqEnd
      seqEnd := if view.nInit = view.nFirstSeq then max view.seqEndMax seqEnd else view.seqEnd
      firstSeq := none } := by
  constructor
  · exact tracked.reports.store found
  · exact tracked.bounded
  · intro other handled
    cases handled
  · intro other first member _
    by_cases same : other = addr
    · subst same
      exact ⟨{ state with seqEnd := seqEnd }, Function.update_self .., round first member, le_max_right ..⟩
    · simp only [Function.update_of_ne same]
      obtain ⟨stored, lookup, whole, last⟩ := tracked.served other first member
        (by simpa [handling] using Ne.symm same)
      exact ⟨stored, lookup, whole, last.trans (le_max_left ..)⟩
  · intro missing
    have partial_ : view.nFirstSeq ≠ view.nInit := missing.resolve_left fun handled => handled rfl
    simp only [if_neg partial_.symm]
    exact tracked.unknown (.inl (by simp [handling]))
  · intro _ all _
    exact if_pos all.symm

/-- A receiver has one first packet. -/
theorem PushView.Tracked.unique (tracked : view.Tracked push) {addr first other : Nat}
    (one : (addr, first) ∈ view.firsts) (two : (addr, other) ∈ view.firsts) : first = other :=
  congrArg Prod.snd (List.inj_on_of_nodup_map tracked.reports.once one two rfl)

end Ends

section Steps

variable {push : Push} {option : Bool} {sender next : PushSender}

theorem PushSender.queue_view (ring : TxRing) (estimate : Int) :
    (sender.queue option ring estimate).view = sender.view :=
  amNPktQueued_keeps (fun multi => PushSender.view { sender with multi := multi }) (fun _ _ => rfl)
    (fun _ _ => rfl) option sender.multi sender.pathRelease ring estimate

/-- The first test for the end of the transfer. -/
theorem PushSender.queue_raised {ring : TxRing} {estimate : Int}
    (raised : (sender.queue option ring estimate).Raised) : sender.Raised ∨ sender.multi.EndReached := by
  by_cases dead : sender.multi.bcdState = .dead
  · exact .inl (.inr dead)
  rcases raised with waiting | died
  · rcases (amNPktQueued_ends option sender.multi sender.pathRelease ring estimate).2 waiting with before | reached
    · exact .inl (.inl before)
    · have ended : (sender.queue option ring estimate).view.seqEnd ≤ (sender.queue option ring estimate).view.seqCur ∧
          (sender.queue option ring estimate).view.nInit = (sender.queue option ring estimate).view.nFirstSeq := reached
      rw [PushSender.queue_view] at ended
      exact .inr ended
  · have state := (amNPktQueued_queued option sender.pathRelease ring estimate dead).state
    exact absurd (state.symm.trans died) (upgrade_ne_dead option dead)

/-- A burst sends packets and changes the marks only, unless it reaches the end of the transfer. -/
theorem PushSender.process_ok {space maxPktnum : Int} {ring : TxRing} (alive : sender.multi.bcdState ≠ .dead)
    (bounded : sender.multi.seqCur + (min maxPktnum space).toNat < 4294967296)
    (taken : sender.process space maxPktnum ring = .ok next) :
    next.view = { sender.view with seqCur := sender.multi.seqCur + (min maxPktnum space).toNat } ∧
      next.multi.fd = sender.multi.fd ∧ next.multi.bcdState = sender.multi.bcdState ∧
      (next.multi.EndReached ∨ next.pathRelease.needReleasePath = sender.pathRelease.needReleasePath ∧
        (next.multi.Terminated → sender.multi.Terminated)) := by
  unfold PushSender.process at taken
  rw [if_neg alive] at taken
  split at taken
  · cases taken
  · next outcome sent =>
      obtain rfl := Except.ok.inj taken
      obtain ⟨cur, _, burst⟩ := amProcessRings_sent sent
      have exact : u32 ((sender.multi.seqCur : Int) + (min maxPktnum space).toNat) =
          sender.multi.seqCur + (min maxPktnum space).toNat := by
        exact_mod_cast u32_natCast bounded
      rw [exact] at cur
      have kept := amProcessRings_keeps (fun multi => { PushSender.view { sender with multi := multi } with
        seqCur := sender.multi.seqCur + (min maxPktnum space).toNat })
        (fun _ _ => rfl) (fun _ _ => rfl) (fun _ _ _ => rfl) sent
      refine ⟨?_, amProcessRings_keeps MulticastState.fd (fun _ _ => rfl) (fun _ _ => rfl) (fun _ _ _ => rfl) sent,
        (amProcessRings_processed sent).state, burst⟩
      rw [← cur] at kept ⊢
      exact kept

/-- The counters are tracked, and a transfer that ends is complete. -/
structure PushSender.Sound (push : Push) (sender : PushSender) : Prop where
  tracked : sender.view.Tracked push
  complete : sender.Raised → sender.firstSeq = none ∧ sender.view.Complete push

/-- Below the sentinel a reached end is known. -/
theorem PushView.Tracked.ends {view : PushView} (tracked : view.Tracked push)
    (below : view.firstSeq ≠ none → view.nFirstSeq = view.nInit → view.seqCur < seqnumMax)
    (reached : view.seqEnd ≤ view.seqCur) (all : view.nInit = view.nFirstSeq) :
    view.firstSeq = none ∧ view.Complete push := by
  by_cases idle : view.firstSeq = none
  · exact ⟨idle, tracked.complete idle all.symm reached⟩
  · have sentinel := tracked.unknown (.inl idle)
    have early := below idle all.symm
    omega

theorem PushSender.Sound.queue (sound : sender.Sound push) {ring : TxRing} {estimate : Int}
    (below : sender.Counted → sender.multi.seqCur < seqnumMax) :
    (sender.queue option ring estimate).Sound push := by
  have same : (sender.queue option ring estimate).view = sender.view := PushSender.queue_view ring estimate
  refine ⟨same ▸ sound.tracked, ?_⟩
  intro raised
  rw [same]
  rcases PushSender.queue_raised raised with before | ended
  · exact sound.complete before
  · exact sound.tracked.ends (fun some all => below ⟨some, all⟩) ended.1 ended.2

theorem PushSender.Sound.process (sound : sender.Sound push) {space maxPktnum : Int} {ring : TxRing}
    (promised : PushEvent.Promised sender (.process space maxPktnum ring))
    (below : PushEvent.BelowSentinel sender (.process space maxPktnum ring))
    (taken : sender.process space maxPktnum ring = .ok next) : next.Sound push := by
  by_cases dead : sender.multi.bcdState = .dead
  · rw [PushSender.process, if_pos dead] at taken
    exact Except.ok.inj taken ▸ sound
  have bounded := promised dead
  obtain ⟨same, _, state, burst⟩ := PushSender.process_ok dead (by omega) taken
  have tracked : next.view.Tracked push := same ▸ sound.tracked.send (Nat.le_add_right ..) bounded
  refine ⟨tracked, ?_⟩
  intro raised
  rcases burst with ended | ⟨waits, _⟩
  · refine tracked.ends ?_ ended.1 ended.2
    intro some all
    rw [same] at some all ⊢
    exact below ⟨some, all⟩
  · rw [PushSender.Raised, waits, state] at raised
    obtain ⟨idle, complete⟩ := sound.complete raised
    have kept : next.firstSeq = sender.firstSeq := congrArg PushView.firstSeq same
    exact ⟨kept.trans idle, same ▸ complete.send (Nat.le_add_right ..)⟩

theorem PushSender.Sound.receiveFirstSeq (sound : sender.Sound push) {addr first : Nat}
    (promised : PushEvent.Promised sender (.firstSeq addr first))
    (taken : sender.receiveFirstSeq addr first = .ok next) : next.Sound push := by
  unfold PushSender.receiveFirstSeq at taken
  split at taken
  · exact Except.ok.inj taken ▸ sound
  · next idle =>
      obtain ⟨silent, sent⟩ := promised idle
      unfold RepublicAgent.receiveFirstSeq at taken
      cases found : sender.multi.senderAddrHash addr with
      | none => simp [found] at taken
      | some state =>
          simp only [found] at taken
          obtain rfl := Except.ok.inj taken
          refine ⟨sound.tracked.receive found idle silent sent, ?_⟩
          intro raised
          have complete := (sound.complete raised).2
          have reports := sound.tracked.reports
          exact absurd complete.counted (reports.room (reports.known addr state found) silent).ne

theorem PushSender.Sound.updateSeqEnd (sound : sender.Sound push) : sender.updateSeqEnd.Sound push := by
  unfold PushSender.updateSeqEnd
  split
  · exact sound
  · next addr handling =>
      have tracked := sound.tracked
      obtain ⟨first, state, reported, found, place, sent⟩ := tracked.pending addr handling
      have stored : sender.multi.senderAddrHash addr = some state := found
      simp only [stored]
      obtain ⟨seqEnd, round, updated⟩ :=
        updateSeqEnd_covers sender.multi addr state place sent tracked.bounded
      rw [updated]
      refine ⟨tracked.update handling found ?_, ?_⟩
      · intro other member
        rw [tracked.unique member reported]
        exact round
      · intro raised
        have idle := (sound.complete raised).1
        rw [handling] at idle
        cases idle

theorem PushSender.Sound.check (sound : sender.Sound push) (ring : TxRing) : (sender.check ring).Sound push := by
  unfold PushSender.check
  split_ifs with quiet
  · exact sound
  · exact ⟨sound.tracked, fun _ => sound.complete (.inl (by simpa using quiet))⟩
  · exact ⟨sound.tracked, sound.complete⟩

/-- Each step that keeps the promises and the sentinel keeps a sound sender. -/
theorem PushSender.Sound.step (sound : sender.Sound push) {event : PushEvent}
    (promised : event.Promised sender) (below : event.BelowSentinel sender)
    (taken : pushStep option sender event = .ok next) : next.Sound push := by
  cases event with
  | queue ring estimate =>
      obtain rfl := Except.ok.inj taken
      exact sound.queue below
  | process space maxPktnum ring => exact sound.process promised below taken
  | firstSeq addr first => exact sound.receiveFirstSeq promised taken
  | updateSeqEnd =>
      obtain rfl := Except.ok.inj taken
      exact sound.updateSeqEnd
  | check ring =>
      obtain rfl := Except.ok.inj taken
      exact sound.check ring

end Steps

/-- An approved push has counted its receivers and sent nothing. -/
theorem Push.start_sound (push : Push) : push.start.Sound push := by
  have new := createBcdState_unpushed push.stored
  have unsent : push.start.view.seqCur = 0 :=
    (push.pushed_field MulticastState.seqCur (fun _ _ => rfl) fun _ => rfl).trans new.seqCur
  have small : push.start.view.seqMax < 4294967296 :=
    (push.pushed_field MulticastState.seqMax (fun _ _ => rfl) fun _ => rfl).trans_lt new.seqMax
  have empty : push.start.view.firsts = [] := rfl
  have idle : push.start.view.firstSeq = none := rfl
  constructor
  · exact ⟨push.pushed_reports, by omega, by simp [idle], by simp [empty],
      fun _ => (push.pushed_field MulticastState.seqEnd (fun _ _ => rfl) fun _ => rfl).trans new.seqEnd,
      by simp [empty]⟩
  · rintro (waiting | dead)
    · cases waiting
    · cases dead

/-- In a run that keeps the promises and stays below the sentinel, the transfer ends only after all receivers
reported and got their whole round. -/
theorem push_endsComplete (option : Bool) (push : Push) (events : List PushEvent)
    (promised : StepsMeet (pushStep option) (fun sender event => event.Promised sender) push.start events)
    (below : StepsMeet (pushStep option) (fun sender event => event.BelowSentinel sender) push.start events) :
    Throughout (pushStep option) (EndsComplete push) push.start events := by
  apply throughout_of_steps (fun sender => sender.Sound push) _ _ push.start_sound (promised.and below)
  · intro sender event next sound met taken
    exact sound.step met.1 met.2 taken
  · intro sender sound raised
    exact (sound.complete raised).2

/-- The file has two packets and one receiver. -/
def twoPackets : Push where
  dataSize := 2
  dataPayloadLen := 1
  created := (createBcdState 2 1).get rfl
  slaves := [⟨9, false⟩]
  tvPush := (1, 0)
  controllerXid := 5
  stored := rfl
  seqMaxPositive := by decide
  distinct := by decide
  fits := by decide

/-- Two receivers get the two packets. -/
def twoReceivers : Push :=
  { twoPackets with
    slaves := [⟨9, false⟩, ⟨11, false⟩]
    distinct := by decide
    fits := by decide }

/-- One receiver gets packet one first, and the other one reports packet two while the thread goes on. -/
def bothRounds : List PushEvent :=
  [.queue ⟨1, 0, 8⟩ 2, .process 2 2 ⟨3, 0, 8⟩, .firstSeq 9 1, .updateSeqEnd, .queue ⟨3, 0, 8⟩ 2,
    .process 2 2 ⟨5, 0, 8⟩, .firstSeq 11 2, .queue ⟨5, 0, 8⟩ 1, .updateSeqEnd, .process 1 1 ⟨6, 0, 8⟩,
    .queue ⟨6, 0, 8⟩ 1, .check ⟨6, 6, 8⟩]

theorem push_endsComplete_twoReceivers : ∃ final,
    execute (pushStep true) twoReceivers.start bothRounds = .ok final ∧ final.view.Complete twoReceivers := by
  obtain ⟨final, reached, dead⟩ := exists_of_check (execute (pushStep true) twoReceivers.start bothRounds)
    (fun sender => sender.multi.bcdState = .dead) (by decide)
  have always := push_endsComplete true twoReceivers bothRounds (by decide) (by decide)
  exact ⟨final, reached, always.final reached (.inr (of_decide_eq_true dead))⟩

/-- Each pass of the data channel thread sends one packet. -/
def passes : Nat → List PushEvent
  | 0 => []
  | count + 1 => .queue ⟨1, 0, 8⟩ 1 :: .process 1 1 ⟨1, 0, 8⟩ :: passes count

/-- The receiver of the two packets has reported nothing while some packets were sent. -/
def waitingView (seqCur : Nat) : PushView where
  seqMax := 2
  nInit := 1
  nFirstSeq := 0
  seqEnd := seqnumMax
  seqEndMax := 0
  seqCur := seqCur
  senderAddrHash := Function.update (fun _ => none) 9 (some ⟨0, 0, false⟩)
  firstSeq := none
  firsts := []

/-- The receiver has not reported, and the transfer goes on at the attempt rate. -/
structure Waiting (seqCur : Nat) (sender : PushSender) : Prop where
  view : sender.view = waitingView seqCur
  rate : (startAttempt sender.multi).bcdState = .attempt
  unmarked : ¬ sender.multi.Terminated
  opened : sender.multi.fd = true

theorem twoPackets_waiting : Waiting 0 twoPackets.start := ⟨rfl, rfl, by decide, rfl⟩

section Passes

variable {sender : PushSender} {seqCur : Nat}

/-- Without all reports the thread starts the attempt only. -/
theorem Waiting.queue (waiting : Waiting seqCur sender) (ring : TxRing) (estimate : Int) :
    (sender.queue false ring estimate).multi = startAttempt sender.multi := by
  have nInit : (startAttempt sender.multi).nInit ≠ (startAttempt sender.multi).nFirstSeq := by
    have same : (startAttempt sender.multi).nInit = sender.view.nInit ∧
        (startAttempt sender.multi).nFirstSeq = sender.view.nFirstSeq := by
      unfold startAttempt
      split_ifs <;> exact ⟨rfl, rfl⟩
    rw [same.1, same.2, waiting.view]
    exact Nat.one_ne_zero
  have slow : startFullrate false (startAttempt sender.multi) = startAttempt sender.multi := by
    rw [startFullrate, if_neg (by simp [nInit])]
  have alive : sender.multi.bcdState ≠ .dead := by
    intro dead
    have rate := waiting.rate
    rw [startAttempt, if_neg (by simp [dead]), dead] at rate
    cases rate
  unfold PushSender.queue amNPktQueued
  rw [if_neg alive]
  simp only [slow, waiting.rate]
  simp only [reduceCtorEq, false_and, if_false]
  split_ifs <;> rfl

/-- A pass sends one packet and leaves the receiver waiting. -/
theorem Waiting.pass (waiting : Waiting seqCur sender) (bounded : seqCur + 1 < 4294967296) :
    ∃ next, (sender.queue false ⟨1, 0, 8⟩ 1).process 1 1 ⟨1, 0, 8⟩ = .ok next ∧ Waiting (seqCur + 1) next := by
  have upgraded := waiting.queue ⟨1, 0, 8⟩ 1
  have queued : (sender.queue false ⟨1, 0, 8⟩ 1).view = waitingView seqCur :=
    (PushSender.queue_view ⟨1, 0, 8⟩ 1).trans waiting.view
  generalize sender.queue false ⟨1, 0, 8⟩ 1 = middle at upgraded queued
  have rate : middle.multi.bcdState = .attempt := upgraded ▸ waiting.rate
  have alive : middle.multi.bcdState ≠ .dead := by simp [rate]
  have sent : middle.multi.seqCur = seqCur := congrArg PushView.seqCur queued
  have opened : middle.multi.fd = true := by
    rw [upgraded]
    unfold startAttempt
    split_ifs <;> exact waiting.opened
  have unmarked : ¬ middle.multi.Terminated := by
    rw [upgraded]
    unfold startAttempt
    split_ifs <;> exact waiting.unmarked
  obtain ⟨next, taken⟩ : ∃ next, middle.process 1 1 ⟨1, 0, 8⟩ = .ok next := by
    obtain ⟨outcome, processed⟩ := amProcessRings_open middle.pathRelease 1 1 ⟨1, 0, 8⟩ opened
    exact ⟨_, by rw [PushSender.process, if_neg alive, processed]⟩
  have one : (min 1 1 : Int).toNat = 1 := by decide
  obtain ⟨view, fd, state, burst⟩ := PushSender.process_ok alive (by omega) taken
  rw [queued, sent, one] at view
  have attempt : next.multi.bcdState = .attempt := state.trans rate
  refine ⟨next, taken, view, ?_, ?_, fd.trans opened⟩
  · rw [startAttempt, if_neg (by simp [attempt])]
    exact attempt
  · rcases burst with ended | ⟨_, kept⟩
    · have nInit : next.multi.nInit = 1 := congrArg PushView.nInit view
      have nFirstSeq : next.multi.nFirstSeq = 0 := congrArg PushView.nFirstSeq view
      have all := ended.2
      omega
    · exact fun terminated => unmarked (kept terminated)

/-- Any number of passes below the wrap leaves the receiver waiting. -/
theorem Waiting.run (waiting : Waiting seqCur sender) (count : Nat)
    (bounded : seqCur + count + 2 < 4294967296) : ∃ final,
      execute (pushStep false) sender (passes count) = .ok final ∧ Waiting (seqCur + count) final ∧
      StepsMeet (pushStep false) (fun sender event => event.Promised sender) sender (passes count) := by
  induction count generalizing sender seqCur with
  | zero => exact ⟨sender, rfl, waiting, trivial⟩
  | succ count ih =>
      obtain ⟨next, taken, rest⟩ := waiting.pass (by omega)
      obtain ⟨final, reached, ended, met⟩ := ih rest (by omega)
      have total : seqCur + 1 + count = seqCur + (count + 1) := by omega
      have queued : (sender.queue false ⟨1, 0, 8⟩ 1).view = sender.view :=
        PushSender.queue_view ⟨1, 0, 8⟩ 1
      have sent : (sender.queue false ⟨1, 0, 8⟩ 1).multi.seqCur = seqCur :=
        congrArg PushView.seqCur (queued.trans waiting.view)
      have round : (sender.queue false ⟨1, 0, 8⟩ 1).multi.seqMax = 2 :=
        congrArg PushView.seqMax (queued.trans waiting.view)
      refine ⟨final, ?_, total ▸ ended, ?_⟩
      · exact execute_cons_ok.mpr ⟨_, rfl, execute_cons_ok.mpr ⟨next, taken, reached⟩⟩
      · refine ⟨trivial, ?_⟩
        rintro _ ⟨rfl⟩
        refine ⟨fun _ => ?_, ?_⟩
        · have one : (min 1 1 : Int).toNat = 1 := by decide
          omega
        · intro other same
          obtain rfl := Except.ok.inj (taken.symm.trans same)
          exact met

/-- With all reports counted, an attempt behind the end of the transfer is upgraded and ended. -/
theorem amNPktQueued_raises {multi : MulticastState} (release : PathRelease) (ring : TxRing) (estimate : Int)
    (rate : (startAttempt multi).bcdState = .attempt) (unmarked : ¬ multi.Terminated)
    (ended : multi.EndReached) : (amNPktQueued false multi release ring estimate).2.1.needReleasePath = true := by
  have alive : multi.bcdState ≠ .dead := by
    intro dead
    rw [startAttempt, if_neg (by simp [dead]), dead] at rate
    cases rate
  have same : (startAttempt multi).nInit = multi.nInit ∧ (startAttempt multi).nFirstSeq = multi.nFirstSeq := by
    unfold startAttempt
    split_ifs <;> exact ⟨rfl, rfl⟩
  have full : (startFullrate false (startAttempt multi)).bcdState = .fullrate := by
    rw [startFullrate, if_pos ⟨rate, .inr ⟨rfl, by rw [same.1, same.2, ended.2]⟩⟩]
  have kept := upgrade_keeps (fun multi => (multi.seqEnd, multi.seqCur, multi.nInit, multi.nFirstSeq))
    (fun _ _ => rfl) multi false
  simp only [Prod.mk.injEq] at kept
  obtain ⟨seqEnd, seqCur, nInit, nFirstSeq⟩ := kept
  have marks := upgrade_isTvLastData multi false
  have reached : (startFullrate false (startAttempt multi)).EndReached := by
    rw [MulticastState.EndReached, seqEnd, seqCur, nInit, nFirstSeq]
    exact ended
  unfold amNPktQueued
  rw [if_neg alive, if_pos ⟨full, reached⟩, if_neg (by rwa [MulticastState.Terminated, marks])]
  rfl

/-- After the report of the last packet the thread reaches the sentinel before the end is updated. -/
theorem Waiting.reports (waiting : Waiting seqCur sender) (sentinel : seqnumMax ≤ seqCur) (first : Nat) :
    ∃ counted, sender.receiveFirstSeq 9 first = .ok counted ∧
      (counted.queue false ⟨1, 0, 8⟩ 1).Raised ∧ ¬ (counted.queue false ⟨1, 0, 8⟩ 1).view.Complete twoPackets := by
  have idle : sender.firstSeq = none := congrArg PushView.firstSeq waiting.view
  have found : sender.multi.senderAddrHash 9 = some ⟨0, 0, false⟩ :=
    congrArg (fun view => view.senderAddrHash 9) waiting.view
  have nInit : sender.multi.nInit = 1 := congrArg PushView.nInit waiting.view
  have nFirstSeq : sender.multi.nFirstSeq = 0 := congrArg PushView.nFirstSeq waiting.view
  have seqMax : sender.multi.seqMax = 2 := congrArg PushView.seqMax waiting.view
  have seqEnd : sender.multi.seqEnd = seqnumMax := congrArg PushView.seqEnd waiting.view
  have sent : sender.multi.seqCur = seqCur := congrArg PushView.seqCur waiting.view
  obtain ⟨counted, received, same⟩ : ∃ counted, RepublicAgent.receiveFirstSeq sender.multi 9
      (first % sender.multi.seqMax) = .ok counted ∧ counted = { sender.multi with
        senderAddrHash := Function.update sender.multi.senderAddrHash 9
          (some ⟨first % sender.multi.seqMax, 0, false⟩)
        isFirstSeqDistinctRack := sender.multi.isFirstSeqDistinctRack || false
        nFirstSeq := 1 } := by
    refine ⟨_, by rw [RepublicAgent.receiveFirstSeq, found], ?_⟩
    rw [nFirstSeq]
    rfl
  refine ⟨⟨counted, sender.pathRelease, some 9, (9, first) :: sender.firsts⟩, ?_, .inl ?_, ?_⟩
  · rw [PushSender.receiveFirstSeq, idle]
    simp only [received]
  · apply amNPktQueued_raises
    · have rate := waiting.rate
      rw [same]
      unfold startAttempt at rate ⊢
      split_ifs at rate ⊢
      · rfl
      · exact rate
    · rw [same]
      exact waiting.unmarked
    · rw [same]
      exact ⟨by simp only [seqEnd, sent]; exact sentinel, nInit⟩
  · intro complete
    rw [PushSender.queue_view] at complete
    obtain ⟨other, state, _, lookup, round, _⟩ := complete.emitted ⟨9, false⟩ (by simp [twoPackets])
    have stored : counted.senderAddrHash 9 = some ⟨first % sender.multi.seqMax, 0, false⟩ := by
      simp [same]
    obtain rfl := Option.some.inj (stored.symm.trans lookup)
    have two : counted.seqMax = 2 := by
      rw [same]
      exact seqMax
    have late : other + counted.seqMax ≤ 0 := round
    omega

end Passes

/-- The sender reaches packet `SEQNUM_MAX` before the only receiver reports. -/
def lateReport : List PushEvent :=
  passes seqnumMax ++ [.firstSeq 9 (seqnumMax - 1), .queue ⟨1, 0, 8⟩ 1]

/-- The transfer ends although the end of the receiver is not updated. -/
theorem push_endsEarly :
    ¬ ∀ (option : Bool) (push : Push) (events : List PushEvent),
      StepsMeet (pushStep option) (fun sender event => event.Promised sender) push.start events →
        Throughout (pushStep option) (EndsComplete push) push.start events := by
  intro always
  have sentinel := seqnumMax_eq
  obtain ⟨late, reached, waiting, promised⟩ := twoPackets_waiting.run seqnumMax (by omega)
  rw [Nat.zero_add] at waiting
  obtain ⟨counted, received, raised, partial_⟩ := waiting.reports le_rfl (seqnumMax - 1)
  have idle : late.firsts = [] := congrArg PushView.firsts waiting.view
  have sent : late.multi.seqCur = seqnumMax := congrArg PushView.seqCur waiting.view
  have met : StepsMeet (pushStep false) (fun sender event => event.Promised sender) twoPackets.start
      lateReport := by
    refine stepsMeet_append.mpr ⟨promised, ?_⟩
    intro middle same
    obtain rfl := Except.ok.inj (same.symm.trans reached)
    exact ⟨fun _ => ⟨by simp [idle], by omega⟩, fun next _ => ⟨trivial, fun _ _ => trivial⟩⟩
  have run : execute (pushStep false) twoPackets.start lateReport =
      .ok (counted.queue false ⟨1, 0, 8⟩ 1) :=
    execute_append_ok.mpr ⟨late, reached, execute_cons_ok.mpr ⟨counted, received, rfl⟩⟩
  exact partial_ ((always false twoPackets lateReport met).final run raised)

end RepublicAgent
