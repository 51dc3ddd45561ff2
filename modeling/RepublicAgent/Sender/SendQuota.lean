/-
This file says that the quota of the data channel thread keeps the counters of a push exact.
-/

import RepublicAgent.Sender.DataSide

namespace RepublicAgent
open Execution MachineInteger

/-- The addresses of the receivers that reported are kept for the statements only. -/
structure QuotaSender where
  side : DataSide
  reported : List Nat

def Push.paced (push : Push) : QuotaSender := ⟨⟨push.approved, ⟨false, 0, 0⟩, none⟩, []⟩

inductive QuotaEvent where
  | queue (ring : TxRing) (estimate : Int)
  | process (space : Nat) (ring : TxRing)
  | firstSeq (addr seqFirst : Nat)
  | check (ring : TxRing)
deriving DecidableEq, Repr

def quotaStep (option : Bool) (nmBurst : Int) (sender : QuotaSender) : QuotaEvent → Except Fault QuotaSender
  | .queue ring estimate => .ok { sender with side := sender.side.queue option ring estimate }
  | .process space ring =>
      match sender.side.process nmBurst space ring with
      | .error fault => .error fault
      | .ok side => .ok { sender with side := side }
  | .firstSeq addr seqFirst =>
      match handleFirstSeq sender.side.multi addr seqFirst with
      | .error fault => .error fault
      | .ok multi => .ok ⟨{ sender.side with multi := multi }, addr :: sender.reported⟩
  | .check ring => .ok { sender with side := sender.side.check ring }

/-- The states of an approved transfer in their order. -/
def BcdState.rank : BcdState → Nat
  | .initiated => 0
  | .attempt => 1
  | .fullrate => 2
  | .dead => 3

/-- The sent packets are counted, and at most one burst lies behind the known end of the transfer. -/
structure QuotaSender.Paced (nmBurst : Int) (sender : QuotaSender) : Prop where
  counted : sender.side.multi.nPacketTotal = sender.side.multi.seqCur
  beyond : sender.side.multi.pushFields.EndKnown sender.reported →
    (sender.side.multi.seqCur : Int) ≤ sender.side.multi.seqEnd + nmBurst

/-- A quota is not negative and does not reach beyond a known end. No step takes the transfer back. -/
structure SoundQuota (option : Bool) (nmBurst : Int) (sender : QuotaSender) (event : QuotaEvent) : Prop where
  nonneg : ∀ ring estimate, event = .queue ring estimate → 0 ≤ sender.side.nMultiRx option ring estimate
  within : ∀ ring estimate, event = .queue ring estimate → sender.side.multi.seqEnd ≠ seqnumMax →
    sender.side.nMultiRx option ring estimate ≤
      max 0 ((sender.side.multi.seqEnd : Int) - sender.side.multi.seqCur)
  forward : ∀ next, quotaStep option nmBurst sender event = .ok next →
    sender.side.multi.bcdState.rank ≤ next.side.multi.bcdState.rank

/-- Each receiver sends one `FIRST_SEQ`. The 32 bits of the sequence numbers, of the packet counter and of
their differences suffice. -/
def QuotaEvent.Permitted (nmBurst : Int) (sender : QuotaSender) : QuotaEvent → Prop
  | .queue _ _ => sender.side.multi.seqEnd < sender.side.multi.seqCur + 2147483648
  | .process space _ => ∀ limit ∈ sender.side.limit nmBurst,
      sender.side.multi.seqCur + (min limit space).toNat < 2147483648
  | .firstSeq addr seqFirst => addr ∉ sender.reported ∧
      nextPlace sender.side.multi.seqCur sender.side.multi.seqMax seqFirst < 4294967296
  | .check _ => True

instance QuotaEvent.decidablePermitted (nmBurst : Int) (sender : QuotaSender) :
    ∀ event : QuotaEvent, Decidable (event.Permitted nmBurst sender)
  | .queue _ _ => inferInstanceAs (Decidable (_ < _))
  | .process _ _ => inferInstanceAs (Decidable (∀ limit ∈ sender.side.limit nmBurst, _ < _))
  | .firstSeq _ _ => inferInstanceAs (Decidable (_ ∧ _))
  | .check _ => inferInstanceAs (Decidable True)

/-- What the steps of the sender keep. -/
structure QuotaSender.Sound (push : Push) (nmBurst : Int) (sender : QuotaSender) : Prop where
  fields : sender.side.multi.pushFields.Sound push sender.reported
  fresh : sender.side.multi.bcdState = .initiated →
    sender.side.multi.nPacketTotal = 0 ∧ sender.side.multi.nByteTotal = 0 ∧ sender.side.quota = none
  quota : ∀ quota ∈ sender.side.quota, 0 ≤ quota
  counted : sender.side.multi.nPacketTotal = sender.side.multi.seqCur
  beyond : sender.side.multi.pushFields.EndKnown sender.reported →
    (sender.side.multi.seqCur : Int) + (sender.side.limit nmBurst).getD 0 ≤ sender.side.multi.seqEnd + nmBurst

section Steps

variable {push : Push} {option : Bool} {nmBurst : Int} {sender next : QuotaSender}

/-- The upgrades start the full rate of every transfer whose receivers all reported. -/
theorem QuotaSender.Sound.full (sound : sender.Sound push nmBurst)
    (known : sender.side.multi.pushFields.EndKnown sender.reported) (alive : sender.side.multi.bcdState ≠ .dead) :
    (startFullrate option (startAttempt sender.side.multi)).bcdState = .fullrate := by
  have upgrade : (option = true ∧ ((sender.side.multi.isDistinctRack = true ∧
        sender.side.multi.isFirstSeqDistinctRack = true) ∨
      (sender.side.multi.isDistinctRack = false ∧ sender.side.multi.nFirstSeq ≠ 0))) ∨
      (option = false ∧ sender.side.multi.nInit = sender.side.multi.nFirstSeq) := by
    cases option with
    | false => exact .inr ⟨rfl, known.2.symm⟩
    | true =>
        refine .inl ⟨rfl, ?_⟩
        cases rack : sender.side.multi.isDistinctRack with
        | true =>
            obtain ⟨slave, member, distinct⟩ := sound.fields.racks rack
            have reported := sound.fields.reports.all known.2 member
            exact .inl ⟨rfl, sound.fields.marked slave member reported distinct⟩
        | false =>
            have counted := sound.fields.reports.counted
            have some_ := List.length_pos_of_ne_nil known.1
            exact .inr ⟨rfl, by simp only [MulticastState.pushFields] at counted; omega⟩
  cases state : sender.side.multi.bcdState with
  | dead => exact absurd state alive
  | initiated =>
      obtain ⟨packets, bytes, _⟩ := sound.fresh state
      rw [startAttempt, if_pos ⟨state, packets, bytes⟩, startFullrate, if_pos ⟨rfl, upgrade⟩]
  | attempt => rw [startAttempt, if_neg (by simp [state]), startFullrate, if_pos ⟨state, upgrade⟩]
  | fullrate =>
      rw [startAttempt, if_neg (by simp [state]), startFullrate, if_neg (by simp [state])]
      exact state

/-- A quota is zero, or the transfer has a known end ahead or no end yet. -/
theorem QuotaSender.Sound.nMultiRx (sound : sender.Sound push nmBurst) (option : Bool) (ring : TxRing)
    (estimate : Int)
    (fits : sender.side.multi.seqEnd < sender.side.multi.seqCur + 2147483648) :
    sender.side.nMultiRx option ring estimate = 0 ∨
      (0 ≤ sender.side.nMultiRx option ring estimate ∧
        (sender.side.multi.pushFields.EndKnown sender.reported →
          sender.side.multi.seqCur < sender.side.multi.seqEnd) ∧
        (sender.side.multi.seqEnd ≠ seqnumMax → sender.side.nMultiRx option ring estimate ≤
          (sender.side.multi.seqEnd : Int) - sender.side.multi.seqCur)) := by
  rcases sender.side.nMultiRx_cases ring estimate with none | ⟨alive, nonneg, _, open_, value⟩
  · exact .inl none
  · have ahead : sender.side.multi.pushFields.EndKnown sender.reported →
        sender.side.multi.seqCur < sender.side.multi.seqEnd := by
      intro known
      by_contra reached
      exact open_ ⟨sound.full known alive, not_lt.mp reached, known.2.symm⟩
    by_cases unknown : sender.side.multi.seqEnd = seqnumMax
    · rw [if_pos unknown] at value
      exact .inr ⟨by omega, ahead, fun known => absurd unknown known⟩
    · have known : sender.side.multi.pushFields.EndKnown sender.reported := by
        by_contra early
        exact unknown (sound.fields.unknown early)
      have distance : s32 ((sender.side.multi.seqEnd : Int) - sender.side.multi.seqCur) =
          (sender.side.multi.seqEnd : Int) - sender.side.multi.seqCur := by
        have before := ahead known
        exact s32_eq (by omega) (by omega)
      rw [if_neg unknown, distance] at value
      have before := ahead known
      exact .inr ⟨by omega, ahead, fun _ => by omega⟩

theorem BcdState.rank_le_dead (state : BcdState) : state.rank ≤ BcdState.dead.rank := by
  cases state <;> decide

/-- The upgrades take the transfer forward. -/
theorem upgrade_rank (multi : MulticastState) (option : Bool) :
    multi.bcdState.rank ≤ (startFullrate option (startAttempt multi)).bcdState.rank := by
  have attempt : multi.bcdState.rank ≤ (startAttempt multi).bcdState.rank := by
    unfold startAttempt
    split_ifs with fresh
    · rw [fresh.1]
      exact Nat.zero_le _
    · exact le_rfl
  refine attempt.trans ?_
  rcases startFullrate_bcdState (startAttempt multi) option with same | ⟨before, full⟩
  · rw [same]
  · rw [before, full]
    decide

/-- A call of `amNPktQueued` leaves a dead multicast and upgrades any other. -/
theorem DataSide.queue_bcdState (side : DataSide) (option : Bool) (ring : TxRing) (estimate : Int) :
    (side.queue option ring estimate).multi.bcdState = side.multi.bcdState ∧ side.multi.bcdState = .dead ∨
      (side.queue option ring estimate).multi.bcdState =
        (startFullrate option (startAttempt side.multi)).bcdState := by
  by_cases dead : side.multi.bcdState = .dead
  · refine .inl ⟨?_, dead⟩
    unfold DataSide.queue amNPktQueued
    simp only [dead, if_true]
  · exact .inr (amNPktQueued_queued option side.pathRelease ring estimate dead).state

/-- A transfer that starts fresh is not fresh behind the upgrades. -/
theorem QuotaSender.Sound.started (sound : sender.Sound push nmBurst) :
    (startFullrate option (startAttempt sender.side.multi)).bcdState ≠ .initiated := by
  intro initiated
  have before := upgrade_rank sender.side.multi option
  rw [initiated] at before
  cases state : sender.side.multi.bcdState with
  | initiated =>
      obtain ⟨packets, bytes, _⟩ := sound.fresh state
      have attempt := startAttempt_fresh state packets bytes
      rcases startFullrate_bcdState (startAttempt sender.side.multi) option with same | ⟨_, full⟩
      · rw [same, attempt] at initiated
        cases initiated
      · rw [full] at initiated
        cases initiated
  | dead => simp [state, BcdState.rank] at before
  | attempt => simp [state, BcdState.rank] at before
  | fullrate => simp [state, BcdState.rank] at before

/-- The limit of the next burst is not negative. -/
theorem QuotaSender.Sound.limit_nonneg (sound : sender.Sound push nmBurst) (positive : 0 < nmBurst) :
    0 ≤ (sender.side.limit nmBurst).getD 0 := by
  unfold DataSide.limit
  cases waiting : sender.side.quota with
  | none => simp
  | some quota =>
      have nonneg := sound.quota quota (by simp [waiting])
      simp only [Option.map_some, Option.getD_some]
      omega

/-- The limit of the next burst is at most the burst. -/
theorem DataSide.limit_le (side : DataSide) (positive : 0 < nmBurst) : (side.limit nmBurst).getD 0 ≤ nmBurst := by
  unfold DataSide.limit
  cases side.quota with
  | none => simpa using positive.le
  | some quota =>
      simp only [Option.map_some, Option.getD_some]
      omega

theorem QuotaSender.Sound.queue (sound : sender.Sound push nmBurst) (positive : 0 < nmBurst) (ring : TxRing)
    (estimate : Int) (fits : sender.side.multi.seqEnd < sender.side.multi.seqCur + 2147483648) :
    QuotaSender.Sound push nmBurst { sender with side := sender.side.queue option ring estimate } := by
  have fields := sender.side.queue_pushFields option ring estimate
  have counters := sender.side.queue_keeps option (fun multi => (multi.nPacketTotal, multi.seqCur))
    (fun _ _ => rfl) (fun _ _ => rfl) ring estimate
  obtain ⟨packets, seqCur⟩ := Prod.mk.inj counters
  have seqEnd : (sender.side.queue option ring estimate).multi.seqEnd = sender.side.multi.seqEnd :=
    congrArg PushFields.seqEnd fields
  have quota := sound.nMultiRx option ring estimate fits
  constructor
  · rw [fields]
    exact sound.fields
  · intro initiated
    rcases sender.side.queue_bcdState option ring estimate with ⟨same, dead⟩ | upgraded
    · rw [same, dead] at initiated
      cases initiated
    · exact absurd (upgraded.symm.trans initiated) sound.started
  · intro value member
    obtain rfl := Option.some.inj member
    rcases quota with none | ⟨nonneg, _⟩
    · exact none.ge
    · exact nonneg
  · rw [packets, seqCur]
    exact sound.counted
  · dsimp only
    rw [fields, seqEnd, seqCur]
    intro known
    have before := sound.beyond known
    have limit := sound.limit_nonneg positive
    have next : ((sender.side.queue option ring estimate).limit nmBurst).getD 0 =
        min (sender.side.nMultiRx option ring estimate) nmBurst := rfl
    rw [next]
    rcases quota with none | ⟨_, ahead, _⟩
    · omega
    · have open_ := ahead known
      omega

theorem QuotaSender.Sound.process (sound : sender.Sound push nmBurst) (positive : 0 < nmBurst) {space : Nat}
    {ring : TxRing} {side : DataSide}
    (fits : ∀ limit ∈ sender.side.limit nmBurst,
      sender.side.multi.seqCur + (min limit space).toNat < 2147483648)
    (taken : sender.side.process nmBurst space ring = .ok side) :
    QuotaSender.Sound push nmBurst { sender with side := side } ∧
      side.multi.bcdState = sender.side.multi.bcdState := by
  have fields := DataSide.process_pushFields taken
  have nonneg := sound.limit_nonneg positive
  rcases DataSide.process_ok taken with ⟨same, _, spent⟩ | ⟨limit, limited, _, spent, sent⟩
  · refine ⟨⟨?_, ?_, by simp [spent], ?_, ?_⟩, by rw [same]⟩
    · rw [same]
      exact sound.fields
    · intro initiated
      rw [same] at initiated ⊢
      obtain ⟨packets, bytes, _⟩ := sound.fresh initiated
      exact ⟨packets, bytes, spent⟩
    · rw [same]
      exact sound.counted
    · intro known
      rw [same] at known ⊢
      have before := sound.beyond known
      have rest : (side.limit nmBurst).getD 0 = 0 := by simp [DataSide.limit, spent]
      rw [rest]
      omega
  · rw [limited, Option.getD_some] at nonneg
    have small := fits limit limited
    have counted := sound.counted
    obtain ⟨seqCur, packets, _⟩ := amProcessRings_sent sent
    have state := (amProcessRings_processed sent).state
    have places : side.multi.seqCur = sender.side.multi.seqCur + (min limit space).toNat := by
      rw [seqCur]
      exact_mod_cast u32_natCast (by omega)
    have total : side.multi.nPacketTotal = side.multi.seqCur := by
      rw [packets, s32_eq (by omega) (by omega), places]
      omega
    refine ⟨⟨?_, ?_, by simp [spent], total, ?_⟩, state⟩
    · rw [fields]
      exact sound.fields
    · intro initiated
      have none := (sound.fresh (state.symm.trans initiated)).2.2
      simp [DataSide.limit, none] at limited
    · intro known
      have before := sound.beyond (fields ▸ known)
      have seqEnd : side.multi.seqEnd = sender.side.multi.seqEnd := congrArg PushFields.seqEnd fields
      have rest : (side.limit nmBurst).getD 0 = 0 := by simp [DataSide.limit, spent]
      rw [limited, Option.getD_some] at before
      simp only [rest, seqEnd, places]
      omega

theorem QuotaSender.Sound.firstSeq (sound : sender.Sound push nmBurst) (positive : 0 < nmBurst)
    {addr seqFirst : Nat} {multi : MulticastState} (silent : addr ∉ sender.reported)
    (fits : nextPlace sender.side.multi.seqCur sender.side.multi.seqMax seqFirst < 4294967296)
    (taken : handleFirstSeq sender.side.multi addr seqFirst = .ok multi) :
    QuotaSender.Sound push nmBurst ⟨{ sender.side with multi := multi }, addr :: sender.reported⟩ ∧
      multi.bcdState = sender.side.multi.bcdState := by
  have fields := sound.fields.report silent taken
  have handled := handleFirstSeq_handled taken
  refine ⟨⟨fields, ?_, sound.quota, ?_, ?_⟩, handled.bcdState⟩
  · dsimp only
    rw [handled.bcdState, handled.nPacketTotal, handled.nByteTotal]
    exact sound.fresh
  · dsimp only
    rw [handled.nPacketTotal, handled.seqCur]
    exact sound.counted
  · intro known
    have final : multi.seqEnd = multi.seqEndMax := fields.known known
    have place := nextPlace_ge sound.fields.positive sender.side.multi.seqCur seqFirst
    have limit := sender.side.limit_le positive
    rw [handled.seqEndMax, u32_natCast fits] at final
    have same : DataSide.limit { sender.side with multi := multi } nmBurst = sender.side.limit nmBurst := rfl
    simp only [final, handled.seqCur, same]
    simp only [MulticastState.pushFields] at place
    omega

theorem QuotaSender.Sound.check (sound : sender.Sound push nmBurst) (ring : TxRing) :
    QuotaSender.Sound push nmBurst { sender with side := sender.side.check ring } ∧
      sender.side.multi.bcdState.rank ≤ (sender.side.check ring).multi.bcdState.rank := by
  unfold DataSide.check
  split_ifs
  · exact ⟨sound, le_rfl⟩
  · refine ⟨⟨sound.fields, ?_, sound.quota, sound.counted, sound.beyond⟩, ?_⟩
    · intro initiated
      cases initiated
    · exact BcdState.rank_le_dead sender.side.multi.bcdState
  · exact ⟨⟨sound.fields, sound.fresh, sound.quota, sound.counted, sound.beyond⟩, le_rfl⟩

/-- Each permitted step keeps a sound sender and takes the transfer forward. -/
theorem QuotaSender.Sound.step (sound : sender.Sound push nmBurst) (positive : 0 < nmBurst) {event : QuotaEvent}
    (permitted : event.Permitted nmBurst sender) (taken : quotaStep option nmBurst sender event = .ok next) :
    next.Sound push nmBurst ∧ sender.side.multi.bcdState.rank ≤ next.side.multi.bcdState.rank := by
  cases event with
  | queue ring estimate =>
      obtain rfl := Except.ok.inj taken
      refine ⟨sound.queue positive ring estimate permitted, ?_⟩
      rcases sender.side.queue_bcdState option ring estimate with ⟨same, _⟩ | upgraded
      · exact le_of_eq (congrArg BcdState.rank same.symm)
      · exact (upgrade_rank sender.side.multi option).trans_eq (congrArg BcdState.rank upgraded.symm)
  | process space ring =>
      simp only [quotaStep] at taken
      split at taken
      · cases taken
      · next side processed =>
          obtain rfl := Except.ok.inj taken
          obtain ⟨kept, state⟩ := sound.process positive permitted processed
          exact ⟨kept, le_of_eq (congrArg BcdState.rank state.symm)⟩
  | firstSeq addr seqFirst =>
      simp only [quotaStep] at taken
      split at taken
      · cases taken
      · next multi handled =>
          obtain rfl := Except.ok.inj taken
          obtain ⟨kept, state⟩ := sound.firstSeq positive permitted.1 permitted.2 handled
          exact ⟨kept, le_of_eq (congrArg BcdState.rank state.symm)⟩
  | check ring =>
      obtain rfl := Except.ok.inj taken
      exact sound.check ring

/-- A sound sender paces its packets. -/
theorem QuotaSender.Sound.paced (sound : sender.Sound push nmBurst) (positive : 0 < nmBurst) :
    sender.Paced nmBurst := by
  refine ⟨sound.counted, fun known => ?_⟩
  have before := sound.beyond known
  have limit := sound.limit_nonneg positive
  omega

/-- The quota of a sound sender is sound. -/
theorem QuotaSender.Sound.soundQuota (sound : sender.Sound push nmBurst) (positive : 0 < nmBurst)
    {event : QuotaEvent} (permitted : event.Permitted nmBurst sender) :
    SoundQuota option nmBurst sender event := by
  constructor
  · rintro ring estimate rfl
    rcases sound.nMultiRx option ring estimate permitted with none | ⟨nonneg, _⟩
    · exact none.ge
    · exact nonneg
  · rintro ring estimate rfl known
    rcases sound.nMultiRx option ring estimate permitted with none | ⟨_, _, within⟩
    · exact none.le.trans (le_max_left ..)
    · exact (within known).trans (le_max_right ..)
  · intro next taken
    exact (sound.step positive permitted taken).2

end Steps

/-- An approved push has no report, no packet and no quota. -/
theorem Push.paced_sound (push : Push) (nmBurst : Int) : push.paced.Sound push nmBurst := by
  obtain ⟨_, _, packets, bytes, _⟩ := createBcdState_new push.stored
  have totals := push.pushed_field (fun multi => (multi.nPacketTotal, multi.nByteTotal)) (fun _ _ => rfl)
    fun _ => rfl
  rw [packets, bytes] at totals
  obtain ⟨unsent, empty⟩ := Prod.mk.inj totals
  have seqCur : push.paced.side.multi.seqCur = 0 :=
    (push.pushed_field MulticastState.seqCur (fun _ _ => rfl) fun _ => rfl).trans
      (createBcdState_unpushed push.stored).seqCur
  constructor
  · exact push.pushed_sound
  · exact fun _ => ⟨unsent, empty, rfl⟩
  · intro quota member
    cases member
  · rw [seqCur]
    exact unsent
  · exact fun known => absurd rfl known.1

/-- In a run without a wrap of the counters, the quota of one push is sound at each call and paces the
packets. -/
theorem quota_sound (option : Bool) {nmBurst : Int} (positive : 0 < nmBurst) (push : Push)
    (events : List QuotaEvent)
    (permitted : StepsMeet (quotaStep option nmBurst) (fun sender event => event.Permitted nmBurst sender)
      push.paced events) :
    Throughout (quotaStep option nmBurst) (QuotaSender.Paced nmBurst) push.paced events ∧
      StepsMeet (quotaStep option nmBurst) (SoundQuota option nmBurst) push.paced events := by
  have kept : ∀ sender event next, sender.Sound push nmBurst → event.Permitted nmBurst sender →
      quotaStep option nmBurst sender event = .ok next → next.Sound push nmBurst :=
    fun sender event next sound met taken => (sound.step positive met taken).1
  have start := push.paced_sound nmBurst
  exact ⟨throughout_of_steps _ kept (fun sender sound => sound.paced positive) start permitted,
    permitted.of_invariant _ kept (fun sender event sound met => sound.soundQuota positive met) start⟩

/-- The last receiver reports between the quota and its burst, so the burst reaches beyond the end. -/
def lateEnd : List QuotaEvent :=
  [.queue ⟨1, 0, 8⟩ 2, .process 8 ⟨3, 0, 8⟩, .firstSeq 9 1, .queue ⟨3, 0, 8⟩ 6, .firstSeq 11 0,
    .process 8 ⟨7, 0, 8⟩, .queue ⟨7, 0, 8⟩ 6, .check ⟨7, 7, 8⟩]

theorem quota_sound_twoReceivers : ∃ final,
    execute (quotaStep true 4) twoReceivers.paced lateEnd = .ok final ∧ final.Paced 4 := by
  obtain ⟨final, reached, _⟩ := exists_of_check (execute (quotaStep true 4) twoReceivers.paced lateEnd)
    (fun sender => sender.side.multi.bcdState = .dead) (by decide)
  have always := quota_sound true (by decide : (0 : Int) < 4) twoReceivers lateEnd (by decide)
  exact ⟨final, reached, always.1.final reached⟩

end RepublicAgent
