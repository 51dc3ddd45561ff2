/-
This file says where the transfer to a receiver ends. The data channel thread may send packets between the two
reads of the current packet.
-/

import RepublicAgent.Sender.DataSide

namespace RepublicAgent
open Execution MachineInteger

/-- The sum before its conversion to 32 bits. The first read of the current packet decides on another round, and
the second read gives the round. -/
def placeOfReads (seqMax seqFirst first second : Nat) : Nat :=
  (if first % seqMax ≤ seqFirst then second / seqMax else second / seqMax + 1) * seqMax + seqFirst

/-- The round behind the second read fits 32 bits when the first read asks for another round. -/
def RoundFits (seqMax seqFirst first second : Nat) : Prop :=
  seqFirst < first % seqMax → (second / seqMax + 1) * seqMax + seqFirst < 4294967296

/-- The function `multicastStateUpdateSeqEnd` with its two reads of the current packet. -/
def updateSeqEndReads (multi : MulticastState) (addr : Nat) (sender : SenderState) (first second : Nat) :
    MulticastState :=
  let round := if first % multi.seqMax ≤ sender.seqFirst then second / multi.seqMax
    else second / multi.seqMax + 1
  let seqEnd := u32 ((round : Int) * multi.seqMax + sender.seqFirst)
  let updated := { multi with
    senderAddrHash := Function.update multi.senderAddrHash addr (some { sender with seqEnd := seqEnd })
    seqEndMax := if multi.seqEndMax < seqEnd then seqEnd else multi.seqEndMax }
  if updated.nInit = updated.nFirstSeq then { updated with seqEnd := updated.seqEndMax } else updated

/-- The handler of `MSG_FIRST_SEQ` counts the message before the update. -/
def firstSeqReads (multi : MulticastState) (addr seqFirst first second : Nat) : Except Fault MulticastState :=
  match receiveFirstSeq multi addr seqFirst with
  | .error fault => .error fault
  | .ok counted =>
      match counted.senderAddrHash addr with
      | none => .error .badPointer
      | some sender => .ok (updateSeqEndReads counted addr sender first second)

/-- One message with the values of the current packet that its handler reads. -/
structure FirstSeqCall where
  addr : Nat
  seqFirst : Nat
  first : Nat
  second : Nat
deriving DecidableEq, Repr

/-- The ends that were stored are kept for the statements only, the last one first. -/
structure SeqEndHistory where
  multi : MulticastState
  seqEnds : List Nat

/-- The packets up to the second read are sent before the end of the handler. -/
def seqEndStep (history : SeqEndHistory) (call : FirstSeqCall) : Except Fault SeqEndHistory :=
  match firstSeqReads { history.multi with seqCur := call.second } call.addr call.seqFirst call.first call.second with
  | .error fault => .error fault
  | .ok multi =>
      match multi.senderAddrHash call.addr with
      | none => .error .badPointer
      | some sender => .ok ⟨multi, sender.seqEnd :: history.seqEnds⟩

/-- The largest end is the greatest of the ends that were stored and the one from the start. -/
def SeqEndHistory.Greatest (start : MulticastState) (history : SeqEndHistory) : Prop :=
  IsGreatest (insert start.seqEndMax {seqEnd | seqEnd ∈ history.seqEnds}) history.multi.seqEndMax

section Ends

variable {multi : MulticastState} {addr seqMax seqFirst first second : Nat} {sender : SenderState}
  {history next : SeqEndHistory} {call : FirstSeqCall}

/-- Both reads give the current packet when no packet is sent between them. -/
theorem updateSeqEndReads_same (multi : MulticastState) (addr : Nat) (sender : SenderState) :
    updateSeqEndReads multi addr sender multi.seqCur multi.seqCur = multicastStateUpdateSeqEnd multi addr sender :=
  rfl

theorem placeOfReads_same (seqMax seqFirst seqCur : Nat) :
    placeOfReads seqMax seqFirst seqCur seqCur = nextPlace seqCur seqMax seqFirst := rfl

theorem updateSeqEndReads_eq (multi : MulticastState) (addr : Nat) (sender : SenderState) (first second : Nat) :
    updateSeqEndReads multi addr sender first second =
      let seqEnd := u32 (placeOfReads multi.seqMax sender.seqFirst first second : Nat)
      { multi with
        senderAddrHash := Function.update multi.senderAddrHash addr (some { sender with seqEnd := seqEnd })
        seqEndMax := max multi.seqEndMax seqEnd
        seqEnd := if multi.nInit = multi.nFirstSeq then max multi.seqEndMax seqEnd else multi.seqEnd } := by
  unfold updateSeqEndReads placeOfReads
  simp only [Nat.cast_add, Nat.cast_mul, max_def_lt]
  split_ifs <;> rfl

/-- The places of the first packet of a receiver that are not sent yet. -/
def placesFrom (seqCur seqMax seqFirst : Nat) : Set Nat :=
  {place | seqCur ≤ place ∧ place ≡ seqFirst [MOD seqMax]}

/-- A place of the first packet is the first packet behind some rounds. -/
theorem placeOfReads_modEq (seqMax seqFirst first second : Nat) :
    placeOfReads seqMax seqFirst first second ≡ seqFirst [MOD seqMax] := by
  unfold placeOfReads
  rw [Nat.ModEq, Nat.mul_add_mod']

/-- Two places of one packet are a round apart. -/
theorem round_le_of_lt {place other : Nat} (same : place ≡ other [MOD seqMax]) (before : place < other) :
    place + seqMax ≤ other := by
  have divides : seqMax ∣ other - place := (Nat.modEq_iff_dvd' before.le).mp same
  have round := Nat.le_of_dvd (by omega) divides
  omega

theorem nextPlace_isLeast (seqCur : Nat) (inside : seqFirst < seqMax) :
    IsLeast (placesFrom seqCur seqMax seqFirst) (nextPlace seqCur seqMax seqFirst) := by
  have place := placeOfReads_modEq seqMax seqFirst seqCur seqCur
  refine ⟨⟨nextPlace_ge (by omega) seqCur seqFirst, place⟩, ?_⟩
  rintro other ⟨later, same⟩
  by_contra before
  have round := round_le_of_lt (same.trans place.symm) (not_le.mp before)
  have last := nextPlace_lt seqCur inside
  rw [placeOfReads_same] at round
  omega

/-- A later second read gives the same place or a later one. -/
theorem nextPlace_le_placeOfReads (grows : first ≤ second) :
    nextPlace first seqMax seqFirst ≤ placeOfReads seqMax seqFirst first second := by
  have rounds := Nat.div_le_div_right (c := seqMax) grows
  unfold nextPlace placeOfReads
  apply Nat.add_le_add_right
  apply Nat.mul_le_mul_right
  split_ifs <;> omega

/-- The converted sum is a right place behind the first read exactly when another round fits. -/
theorem u32_placeOfReads_iff (inside : seqFirst < seqMax) (grows : first ≤ second)
    (room : second + seqMax < 4294967296) :
    (u32 (placeOfReads seqMax seqFirst first second : Nat) ≡ seqFirst [MOD seqMax] ∧
        nextPlace first seqMax seqFirst ≤ u32 (placeOfReads seqMax seqFirst first second : Nat)) ↔
      RoundFits seqMax seqFirst first second := by
  have whole := Nat.div_add_mod second seqMax
  rw [Nat.mul_comm] at whole
  constructor
  · rintro ⟨_, later⟩ another
    by_contra beyond
    -- The sum wraps to a number below the first round.
    have wrapped : u32 (placeOfReads seqMax seqFirst first second : Nat) < seqMax := by
      rw [placeOfReads, if_neg (by omega), u32_eq]
      rw [Nat.add_mul, Nat.one_mul] at beyond ⊢
      omega
    have round : seqMax ≤ nextPlace first seqMax seqFirst := by
      rw [nextPlace, if_neg (by omega), Nat.add_mul, Nat.one_mul]
      omega
    omega
  · intro fits
    have exact : placeOfReads seqMax seqFirst first second < 4294967296 := by
      unfold placeOfReads
      split_ifs with behind
      · omega
      · exact fits (by omega)
    rw [u32_natCast exact]
    exact ⟨placeOfReads_modEq .., nextPlace_le_placeOfReads grows⟩

/-- The update stores the end of the receiver. -/
theorem updateSeqEndReads_stored (multi : MulticastState) (addr : Nat) (sender : SenderState) (first second : Nat) :
    (updateSeqEndReads multi addr sender first second).senderAddrHash addr =
      some { sender with seqEnd := u32 (placeOfReads multi.seqMax sender.seqFirst first second : Nat) } := by
  rw [updateSeqEndReads_eq]
  exact Function.update_self ..

/-- A handled message stores one end. It raises the largest end, and the last message fixes the end of the
transfer. -/
theorem seqEndStep_ok (taken : seqEndStep history call = .ok next) : ∃ seqEnd,
    next.seqEnds = seqEnd :: history.seqEnds ∧
      next.multi.seqEndMax = max history.multi.seqEndMax seqEnd ∧
      next.multi.seqEnd =
        if next.multi.nInit = next.multi.nFirstSeq then next.multi.seqEndMax else history.multi.seqEnd := by
  unfold seqEndStep firstSeqReads receiveFirstSeq at taken
  cases found : history.multi.senderAddrHash call.addr with
  | none => simp [found] at taken
  | some sender =>
      simp only [found, Function.update_self, updateSeqEndReads_stored, Except.ok.injEq] at taken
      subst taken
      rw [updateSeqEndReads_eq]
      exact ⟨_, rfl, rfl, rfl⟩

theorem SeqEndHistory.Greatest.step {start : MulticastState} (greatest : history.Greatest start)
    (taken : seqEndStep history call = .ok next) : next.Greatest start := by
  obtain ⟨seqEnd, ends, largest, _⟩ := seqEndStep_ok taken
  have stored : insert start.seqEndMax {place | place ∈ next.seqEnds} =
      insert seqEnd (insert start.seqEndMax {place | place ∈ history.seqEnds}) := by
    ext place
    rw [ends, Set.insert_comm]
    exact or_congr_right List.mem_cons
  rw [SeqEndHistory.Greatest, stored, largest, max_comm]
  exact IsGreatest.insert seqEnd greatest

theorem seqEndMax_isGreatest {start : MulticastState} {calls : List FirstSeqCall}
    (completed : execute seqEndStep ⟨start, []⟩ calls = .ok history) : history.Greatest start := by
  have initial : (SeqEndHistory.mk start []).Greatest start := by
    simp [SeqEndHistory.Greatest]
  exact execute_invariant (fun _ _ _ greatest _ taken => greatest.step taken) initial (fun _ _ => trivial) completed

end Ends

/-- Without a packet between the reads, the end of a receiver is the least place of its first packet that is not
sent yet. The transfer ends at the greatest of these ends, which is fixed with the last message. With packets
between the reads, the end is still a place that is not sent at the first read, exactly when another round fits. -/
theorem seqEnd_tight_iff (multi : MulticastState) (addr : Nat) (sender : SenderState) (first second : Nat)
    (inside : sender.seqFirst < multi.seqMax) (grows : first ≤ second)
    (room : second + multi.seqMax < 4294967296) :
    (∃ state, (multicastStateUpdateSeqEnd { multi with seqCur := first } addr sender).senderAddrHash addr =
        some state ∧ IsLeast (placesFrom first multi.seqMax sender.seqFirst) state.seqEnd) ∧
      (∀ start calls history, execute seqEndStep ⟨start, []⟩ calls = .ok history → history.Greatest start) ∧
      (∀ history call next, seqEndStep history call = .ok next →
        next.multi.seqEnd =
          if next.multi.nInit = next.multi.nFirstSeq then next.multi.seqEndMax else history.multi.seqEnd) ∧
      ((∃ state, (updateSeqEndReads multi addr sender first second).senderAddrHash addr = some state ∧
          state.seqEnd ≡ sender.seqFirst [MOD multi.seqMax] ∧
          ∀ least, IsLeast (placesFrom first multi.seqMax sender.seqFirst) least → least ≤ state.seqEnd) ↔
        RoundFits multi.seqMax sender.seqFirst first second) := by
  have place := nextPlace_isLeast first inside
  refine ⟨?_, fun _ _ _ => seqEndMax_isGreatest, ?_, ?_⟩
  · have exact := u32_natCast ((nextPlace_lt first inside).trans (by omega))
    rw [← updateSeqEndReads_same]
    refine ⟨_, updateSeqEndReads_stored .., ?_⟩
    rw [placeOfReads_same, exact]
    exact place
  · intro history call next taken
    obtain ⟨_, _, _, fixed⟩ := seqEndStep_ok taken
    exact fixed
  · rw [← u32_placeOfReads_iff inside grows room]
    constructor
    · rintro ⟨state, stored, same, later⟩
      obtain rfl := Option.some.inj ((updateSeqEndReads_stored ..).symm.trans stored)
      exact ⟨same, later _ place⟩
    · rintro ⟨same, later⟩
      refine ⟨_, updateSeqEndReads_stored .., same, ?_⟩
      intro least other
      exact (other.unique place).le.trans later

/-- A multicast of almost `2 ^ 31` packets. -/
def longMulti : MulticastState := (createBcdState 2147483638 1).get rfl

/-- The first packet of the second round is sent between the reads. The end is fixed two rounds later, which is
more than 32 bits can hold. -/
theorem seqEnd_tight_wraps :
    ¬ ∀ (multi : MulticastState) addr sender first second, sender.seqFirst < multi.seqMax → first ≤ second →
      second + multi.seqMax < 4294967296 →
      ∃ state, (updateSeqEndReads multi addr sender first second).senderAddrHash addr = some state ∧
        state.seqEnd ≡ sender.seqFirst [MOD multi.seqMax] ∧
        ∀ least, IsLeast (placesFrom first multi.seqMax sender.seqFirst) least → least ≤ state.seqEnd := by
  intro right
  have seqMax : longMulti.seqMax = 2147483638 := rfl
  obtain ⟨state, stored, same, _⟩ := right longMulti 9 ⟨20, 0, false⟩ 2147483637 2147483638
    (by rw [seqMax]; decide) (by decide) (by rw [seqMax]; decide)
  obtain rfl := Option.some.inj ((updateSeqEndReads_stored ..).symm.trans stored)
  rw [seqMax] at same
  revert same
  decide

/-- A receiver whose first packet was sent already has its end in the next round. -/
theorem seqEnd_tight_iff_long :
    ∃ state, (multicastStateUpdateSeqEnd { longMulti with seqCur := 30 } 9 ⟨20, 0, false⟩).senderAddrHash 9 =
        some state ∧ IsLeast (placesFrom 30 2147483638 20) state.seqEnd :=
  (seqEnd_tight_iff longMulti 9 ⟨20, 0, false⟩ 30 30 (by decide) (by decide) (by decide)).1

end RepublicAgent
