/-
This file models the comparators of the two skip lists of the sender and says when they order the
queues by the keys that they are meant for. The elements of a list are addresses of cells, and each cell
holds the pointer to a state.
-/

import RepublicAgent.Library.ComparatorQueue
import RepublicAgent.Sender.Multicast
import Mathlib.Data.Prod.Lex

namespace RepublicAgent
open ComparatorQueue

/-- The memory has a word at each address. -/
abbrev WordMemory : Type := Nat → UInt64

/-- The place of `seqEnd` in a `SenderState`. -/
def seqEndOffset : Nat := 40

/-- The place of `tv_push` in a `MulticastState`. -/
def tvPushOffset : Nat := 504

/-- The content of a cell as a pointer. -/
def pointee (memory : WordMemory) (cell : Nat) : Nat := (memory cell).toNat

/-- The field `seqEnd` of a `SenderState` is the lower half of its word. -/
def seqEnd (memory : WordMemory) (sender : Nat) : Nat := (memory (sender + seqEndOffset)).toUInt32.toNat

/-- The seconds and the microseconds of a time are signed. -/
def tvPush (memory : WordMemory) (multi : Nat) : Timeval :=
  ((memory (multi + tvPushOffset)).toInt64.toInt, (memory (multi + tvPushOffset + 8)).toInt64.toInt)

/-- The comparator takes the addresses in the list for pointers to a `SenderState`. -/
def senderStateCmp (memory : WordMemory) (a b : Nat) : Int :=
  if seqEnd memory a < seqEnd memory b then -1 else 1

/-- The comparator takes the addresses in the list for pointers to a `MulticastState`. -/
def pushcmp (memory : WordMemory) (a b : Nat) : Int :=
  if timerLess (tvPush memory a) (tvPush memory b) then 1 else -1

/-- Under every skip list that keeps its elements ordered, the head of `senderEndSeqPq` points to a
sender with the smallest `seqEnd`. -/
def SenderHeadsRight (memory : WordMemory) (cells : Set Nat) : Prop :=
  ∀ insert, KeepsOrdered (senderStateCmp memory) insert → ∀ events, From cells events →
    HeadBest (fun head cell => seqEnd memory (pointee memory head) ≤ seqEnd memory (pointee memory cell))
      (run insert events)

/-- Under every skip list that keeps its elements ordered, the head of `queuePush` points to a
multicast with the earliest `tvPush`. -/
def PushHeadsRight (memory : WordMemory) (cells : Set Nat) : Prop :=
  ∀ insert, KeepsOrdered (pushcmp memory) insert → ∀ events, From cells events →
    HeadBest (fun head cell =>
        timerLess (tvPush memory (pointee memory cell)) (tvPush memory (pointee memory head)) = false)
      (run insert events)

/-- The order of times is the lexicographic one. -/
theorem timerLess_iff (first second : Timeval) :
    timerLess first second = true ↔ toLex first < toLex second := by
  rw [Prod.Lex.toLex_lt_toLex]
  unfold timerLess
  split_ifs with same
  · simp [same]
  · simp [same]

theorem timerLess_eq_false_iff (first second : Timeval) :
    timerLess first second = false ↔ toLex second ≤ toLex first := by
  rw [← not_lt, ← timerLess_iff, Bool.not_eq_true]

theorem precedes_senderStateCmp (memory : WordMemory) (first second : Nat) :
    Precedes (senderStateCmp memory) first second ↔ seqEnd memory first ≤ seqEnd memory second :=
  precedes_ascending (seqEnd memory)

theorem precedes_pushcmp (memory : WordMemory) (first second : Nat) :
    Precedes (pushcmp memory) first second ↔
      toLex (tvPush memory second) ≤ toLex (tvPush memory first) := by
  have compare : pushcmp memory = fun left right =>
      if toLex (tvPush memory left) < toLex (tvPush memory right) then 1 else -1 := by
    funext left right
    simp only [pushcmp, timerLess_iff]
  rw [compare]
  exact precedes_descending fun multi => toLex (tvPush memory multi)

instance (memory : WordMemory) : Std.Refl (Precedes (senderStateCmp memory)) where
  refl cell := (precedes_senderStateCmp memory cell cell).mpr le_rfl

instance (memory : WordMemory) : Std.Total (Precedes (senderStateCmp memory)) where
  total first second := by
    rw [precedes_senderStateCmp, precedes_senderStateCmp]
    exact le_total _ _

instance (memory : WordMemory) : IsTrans Nat (Precedes (senderStateCmp memory)) where
  trans first second third before after := by
    rw [precedes_senderStateCmp] at *
    exact before.trans after

instance (memory : WordMemory) : Std.Refl (Precedes (pushcmp memory)) where
  refl cell := (precedes_pushcmp memory cell cell).mpr le_rfl

instance (memory : WordMemory) : Std.Total (Precedes (pushcmp memory)) where
  total first second := by
    rw [precedes_pushcmp, precedes_pushcmp]
    exact le_total _ _

instance (memory : WordMemory) : IsTrans Nat (Precedes (pushcmp memory)) where
  trans first second third before after := by
    rw [precedes_pushcmp] at *
    exact after.trans before

/-- The heads are right exactly when the memory behind the cells is ordered like the `seqEnd` of the
senders, and in the reverse order of the `tvPush` of the multicasts. -/
theorem priorityQueues_ordered_iff (memory : WordMemory) (senderCells pushCells : Set Nat) :
    SenderHeadsRight memory senderCells ∧ PushHeadsRight memory pushCells ↔
      (∀ first ∈ senderCells, ∀ second ∈ senderCells, seqEnd memory first ≤ seqEnd memory second →
        seqEnd memory (pointee memory first) ≤ seqEnd memory (pointee memory second)) ∧
      ∀ first ∈ pushCells, ∀ second ∈ pushCells,
        timerLess (tvPush memory first) (tvPush memory second) = false →
        timerLess (tvPush memory (pointee memory second)) (tvPush memory (pointee memory first)) = false := by
  apply and_congr
  · unfold SenderHeadsRight
    rw [heads_best_iff]
    simp only [precedes_senderStateCmp]
  · unfold PushHeadsRight
    rw [heads_best_iff]
    simp only [precedes_pushcmp, timerLess_eq_false_iff]

/-- Two cells lie at the addresses 8 and 16. Their senders at 1000 and 2000 have the ends seven and three,
but the words behind the cells are zero and one. -/
def misorderedMemory : WordMemory
  | 8 => 1000
  | 16 => 2000
  | 1040 => 7
  | 2040 => 3
  | 56 => 1
  | _ => 0

/-- The sender with the later end comes first. -/
theorem priorityQueues_misordered :
    ¬ ∀ (memory : WordMemory) (senderCells pushCells : Set Nat),
      SenderHeadsRight memory senderCells ∧ PushHeadsRight memory pushCells := by
  intro always
  have heads := (always misorderedMemory {8, 16} ∅).1
  have first := heads (List.orderedInsert (Precedes (senderStateCmp misorderedMemory)))
    keepsOrdered_orderedInsert [.insert 8, .insert 16] (by simp [From])
  have queue : run (List.orderedInsert (Precedes (senderStateCmp misorderedMemory)))
      [.insert 8, .insert 16] = [8, 16] := by decide
  rw [queue] at first
  exact absurd (first 8 rfl 16 (by simp)) (by decide)

end RepublicAgent
