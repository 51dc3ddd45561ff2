/-
This file says at which check of the data channel thread the path of a terminated transfer is released.
-/

import RepublicAgent.Library.CyclicWindow
import RepublicAgent.Sender.PushTransfer

namespace RepublicAgent
open CyclicWindow MachineInteger

/-- Between two checks the card takes some slots, and other traffic may fill new ones. -/
structure RingMove where
  taken : Nat
  head : Nat
deriving DecidableEq, Repr

def TxRing.move (ring : TxRing) (move : RingMove) : TxRing where
  head := move.head
  tail := (ring.tail + move.taken) % ring.numSlots
  numSlots := ring.numSlots

/-- The thread checks the ring after each move. -/
def PushSender.watch (sender : PushSender) (ring : TxRing) : List RingMove → PushSender
  | [] => sender
  | move :: moves => (sender.check (ring.move move)).watch (ring.move move) moves

/-- The number of slots that the card has taken. -/
def takenSlots (moves : List RingMove) : Nat := (moves.map RingMove.taken).sum

section Checks

variable {ring : TxRing} {sender : PushSender}

/-- The check passes when the last slot lies within the slots that were taken since the last check. -/
theorem PathRelease.passed_iff {lastSlot : Nat} (lastInside : lastSlot < ring.numSlots)
    (tailInside : ring.tail < ring.numSlots) (small : ring.numSlots ≤ 2147483648) {move : RingMove}
    (within : move.taken < ring.numSlots) :
    (PathRelease.mk true lastSlot ring.tail).passed (ring.move move) = true ↔
      distance ring.numSlots ring.tail lastSlot ≤ move.taken := by
  have moved := mod_next_round (Nat.add_lt_add tailInside within)
  simp only [PathRelease.passed, TxRing.move, moved, distance, u32_eq, decide_eq_true_eq]
  split_ifs <;> omega

/-- A check that does not pass leaves the rest of the way to the last slot. -/
theorem distance_move {lastSlot : Nat} (lastInside : lastSlot < ring.numSlots)
    (tailInside : ring.tail < ring.numSlots) {move : RingMove}
    (short : move.taken < distance ring.numSlots ring.tail lastSlot) :
    distance (ring.move move).numSlots (ring.move move).tail lastSlot =
      distance ring.numSlots ring.tail lastSlot - move.taken := by
  have within : move.taken < ring.numSlots := short.trans (distance_lt tailInside lastInside)
  have moved := mod_next_round (Nat.add_lt_add tailInside within)
  simp only [TxRing.move, moved]
  unfold distance at *
  split_ifs at * <;> omega

/-- A sender that waits for nothing stays as it is. -/
theorem PushSender.watch_done (quiet : sender.pathRelease.needReleasePath = false) (moves : List RingMove) :
    sender.watch ring moves = sender := by
  induction moves generalizing ring with
  | nil => rfl
  | cons move moves ih =>
      have same : sender.check (ring.move move) = sender := by rw [check, if_pos quiet]
      rw [watch, same]
      exact ih

/-- A waiting sender is dead as soon as the slots up to the last one are taken. -/
theorem PushSender.watch_dead_iff {lastSlot : Nat} (waits : sender.pathRelease = ⟨true, lastSlot, ring.tail⟩)
    (alive : sender.multi.bcdState ≠ .dead) (lastInside : lastSlot < ring.numSlots)
    (tailInside : ring.tail < ring.numSlots) (small : ring.numSlots ≤ 2147483648) {moves : List RingMove}
    (within : ∀ move ∈ moves, move.taken < ring.numSlots) :
    (sender.watch ring moves).multi.bcdState = .dead ↔
      moves ≠ [] ∧ distance ring.numSlots ring.tail lastSlot ≤ takenSlots moves := by
  induction moves generalizing sender ring with
  | nil => exact iff_of_false alive fun released => released.1 rfl
  | cons move moves ih =>
      have first := within move List.mem_cons_self
      have exact := PathRelease.passed_iff lastInside tailInside small first
      rw [← waits] at exact
      have total : takenSlots (move :: moves) = move.taken + takenSlots moves := List.sum_cons
      have waiting : ¬ sender.pathRelease.needReleasePath = false := by simp [waits]
      rw [watch, total]
      by_cases reached : distance ring.numSlots ring.tail lastSlot ≤ move.taken
      · -- The last slot is taken, so this check releases the path and no later one changes it.
        have dead : sender.check (ring.move move) = { sender with
            multi := { sender.multi with bcdState := .dead }
            pathRelease := { sender.pathRelease with needReleasePath := false } } := by
          rw [check, if_neg waiting, if_pos (exact.mpr reached)]
        rw [dead, watch_done rfl]
        exact iff_of_true rfl ⟨List.cons_ne_nil _ _, by omega⟩
      · have kept : sender.check (ring.move move) = { sender with
            pathRelease := { sender.pathRelease with amTxringTailLast := (ring.move move).tail } } := by
          rw [check, if_neg waiting, if_neg fun passed => reached (exact.mp passed)]
        have left := distance_move lastInside tailInside (not_le.mp reached)
        have later := @ih (ring.move move) (sender.check (ring.move move)) (by rw [kept, waits])
          (by rw [kept]; exact alive) lastInside (Nat.mod_lt _ (Nat.zero_lt_of_lt tailInside)) small
          fun other member => within other (List.mem_cons_of_mem _ member)
        rw [later, left]
        constructor
        · rintro ⟨_, far⟩
          exact ⟨List.cons_ne_nil _ _, by omega⟩
        · rintro ⟨_, far⟩
          refine ⟨?_, by omega⟩
          rintro rfl
          have none : takenSlots [] = 0 := rfl
          omega

theorem TxRing.lastSlot_lt (headInside : ring.head < ring.numSlots) (small : ring.numSlots ≤ 2147483648) :
    ring.lastSlot < ring.numSlots := by
  unfold lastSlot
  split_ifs
  · rw [u32_eq]
    omega
  · omega

end Checks

/-- After the request for the release was raised, the multicast dies at the first check at which the card has
taken the slots up to the last one, and at no earlier check. -/
theorem releaseCheck_exact (sender : PushSender) (ring : TxRing) (moves : List RingMove)
    (raised : sender.pathRelease = .await ring) (alive : sender.multi.bcdState ≠ .dead)
    (headInside : ring.head < ring.numSlots) (tailInside : ring.tail < ring.numSlots)
    (small : ring.numSlots ≤ 2147483648) (within : ∀ move ∈ moves, move.taken < ring.numSlots) :
    (sender.watch ring moves).multi.bcdState = .dead ↔
      moves ≠ [] ∧ distance ring.numSlots ring.tail ring.lastSlot ≤ takenSlots moves :=
  PushSender.watch_dead_iff raised alive (TxRing.lastSlot_lt headInside small) tailInside small within

/-- A sender that waits for the card. -/
def waitingSender (ring : TxRing) : PushSender := { twoPackets.start with pathRelease := .await ring }

/-- The last slot is two slots away, and the second check finds that it was taken. -/
theorem releaseCheck_exact_fourSlots :
    ((waitingSender ⟨1, 2, 4⟩).watch ⟨1, 2, 4⟩ [⟨1, 1⟩, ⟨1, 3⟩]).multi.bcdState = .dead ∧
      ((waitingSender ⟨1, 2, 4⟩).watch ⟨1, 2, 4⟩ [⟨1, 1⟩]).multi.bcdState ≠ .dead := by
  constructor
  · rw [releaseCheck_exact _ _ _ rfl (by decide) (by decide) (by decide) (by decide) (by decide)]
    decide
  · rw [Ne, releaseCheck_exact _ _ _ rfl (by decide) (by decide) (by decide) (by decide) (by decide)]
    decide

/-- With more than half of the slots that a `uint32_t` can count, the sum of the distances wraps. The first
check releases the path although no slot was taken. -/
theorem releaseCheck_wraps :
    ¬ ∀ (sender : PushSender) (ring : TxRing) (moves : List RingMove), 2 ≤ ring.numSlots →
      ring.numSlots < 4294967296 → sender.pathRelease = .await ring → sender.multi.bcdState ≠ .dead →
      ring.head < ring.numSlots → ring.tail < ring.numSlots →
      (∀ move ∈ moves, move.taken < ring.numSlots) →
      ((sender.watch ring moves).multi.bcdState = .dead ↔
        moves ≠ [] ∧ distance ring.numSlots ring.tail ring.lastSlot ≤ takenSlots moves) := by
  intro always
  have exact := always (waitingSender ⟨2, 0, 2147483649⟩) ⟨2, 0, 2147483649⟩ [⟨0, 2⟩] (by decide) (by decide) rfl
    (by decide) (by decide) (by decide) (by decide)
  have dead : ((waitingSender ⟨2, 0, 2147483649⟩).watch ⟨2, 0, 2147483649⟩ [⟨0, 2⟩]).multi.bcdState = .dead := by
    decide
  exact absurd (exact.mp dead).2 (by decide)

end RepublicAgent
