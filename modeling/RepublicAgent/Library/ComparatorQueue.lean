/-
This file gives priority queues that are ordered by a comparison function with an integer result, and
says when the heads of such a queue are the best elements for another relation.
-/

import Mathlib.Data.List.Induction
import Mathlib.Data.List.Sort
import Mathlib.Data.Set.Basic

namespace RepublicAgent.ComparatorQueue

section Comparison

variable {α : Type}

/-- An element may stand before another one when the comparison says so from either side. -/
def Precedes (compare : α → α → Int) (first second : α) : Prop :=
  compare first second ≤ 0 ∨ 0 ≤ compare second first

instance (compare : α → α → Int) : DecidableRel (Precedes compare) := fun _ _ =>
  inferInstanceAs (Decidable (_ ∨ _))

def Ordered (compare : α → α → Int) (queue : List α) : Prop := queue.Pairwise (Precedes compare)

/-- An insertion adds the element to an ordered queue and keeps the order. -/
structure KeepsOrdered (compare : α → α → Int) (insert : α → List α → List α) : Prop where
  holds : ∀ element queue, Ordered compare queue → (insert element queue).Perm (element :: queue)
  ordered : ∀ element queue, Ordered compare queue → Ordered compare (insert element queue)

/-- A queue takes an element at its place or gives its head away. -/
inductive QueueEvent (α : Type) where
  | insert (element : α)
  | pop
deriving DecidableEq, Repr

def QueueEvent.apply (insert : α → List α → List α) (queue : List α) : QueueEvent α → List α
  | .insert element => insert element queue
  | .pop => queue.tail

/-- The queue after a sequence of events. -/
def run (insert : α → List α → List α) (events : List (QueueEvent α)) : List α :=
  events.foldl (QueueEvent.apply insert) []

/-- The events insert members only. -/
def From (members : Set α) (events : List (QueueEvent α)) : Prop :=
  ∀ element, QueueEvent.insert element ∈ events → element ∈ members

/-- The head is at least as good as every element of the queue. -/
def HeadBest (better : α → α → Prop) (queue : List α) : Prop :=
  ∀ head, queue.head? = some head → ∀ element ∈ queue, better head element

variable {compare : α → α → Int} {insert : α → List α → List α} {members : Set α}

/-- Every run over members gives an ordered queue of members. -/
theorem run_ordered (keeps : KeepsOrdered compare insert) {events : List (QueueEvent α)}
    (inside : From members events) :
    Ordered compare (run insert events) ∧ ∀ element ∈ run insert events, element ∈ members := by
  induction events using List.reverseRecOn with
  | nil => exact ⟨List.Pairwise.nil, by simp [run]⟩
  | append_singleton events event ih =>
      obtain ⟨ordered, within⟩ := ih fun element member => inside element (by simp [member])
      have stepped : run insert (events ++ [event]) = event.apply insert (run insert events) := by
        simp [run]
      rw [stepped]
      cases event with
      | insert element =>
          refine ⟨keeps.ordered element _ ordered, ?_⟩
          intro other present
          rcases List.mem_cons.mp ((keeps.holds element _ ordered).mem_iff.mp present) with rfl | old
          · exact inside other (by simp)
          · exact within other old
      | pop => exact ⟨ordered.tail, fun other present => within other (List.mem_of_mem_tail present)⟩

/-- The head of an ordered queue may stand before each of its elements. -/
theorem head_precedes [Std.Refl (Precedes compare)] {queue : List α} (ordered : Ordered compare queue)
    {head element : α} (first : queue.head? = some head) (member : element ∈ queue) :
    Precedes compare head element := by
  cases queue with
  | nil => cases member
  | cons front rest =>
      obtain rfl := Option.some.inj first
      rcases List.mem_cons.mp member with rfl | later
      · exact Std.Refl.refl element
      · exact List.rel_of_pairwise_cons ordered later

/-- The insertion of the standard library keeps the order. -/
theorem keepsOrdered_orderedInsert [Std.Total (Precedes compare)] [IsTrans α (Precedes compare)] :
    KeepsOrdered compare (List.orderedInsert (Precedes compare)) where
  holds element queue _ := List.perm_orderedInsert (Precedes compare) element queue
  ordered element queue ordered := List.Pairwise.orderedInsert element queue ordered

/-- Over all queues that keep the order, the heads are always best exactly when the order of the
comparison implies the relation. -/
theorem heads_best_iff [Std.Refl (Precedes compare)] [Std.Total (Precedes compare)]
    [IsTrans α (Precedes compare)] (better : α → α → Prop) :
    (∀ insert, KeepsOrdered compare insert → ∀ events, From members events →
        HeadBest better (run insert events)) ↔
      ∀ first ∈ members, ∀ second ∈ members, Precedes compare first second → better first second := by
  constructor
  · intro always first firstMember second secondMember order
    have best := always _ keepsOrdered_orderedInsert [.insert second, .insert first] (by
      intro element present
      simp only [List.mem_cons, QueueEvent.insert.injEq, List.not_mem_nil, or_false] at present
      rcases present with rfl | rfl
      · exact secondMember
      · exact firstMember)
    simp only [run, List.foldl_cons, List.foldl_nil, QueueEvent.apply, List.orderedInsert_nil,
      List.orderedInsert_cons, if_pos order] at best
    exact best first rfl second (by simp)
  · intro implies insert keeps events inside head first element member
    obtain ⟨ordered, within⟩ := run_ordered keeps inside
    have present := List.mem_of_mem_head? first
    exact implies head (within head present) element (within element member)
      (head_precedes ordered first member)

end Comparison

section Ranks

variable {α β : Type} [LinearOrder β] (rank : α → β)

/-- A comparison by rank that answers at least one for equal ranks puts lower ranks first. -/
theorem precedes_ascending {first second : α} :
    Precedes (fun left right => if rank left < rank right then -1 else 1) first second ↔
      rank first ≤ rank second := by
  unfold Precedes
  rcases lt_trichotomy (rank first) (rank second) with before | same | after
  · simp [before, before.le]
  · simp [same]
  · simp [after, not_lt.mpr after.le]

/-- A comparison by rank that answers one for a lower rank puts higher ranks first. -/
theorem precedes_descending {first second : α} :
    Precedes (fun left right => if rank left < rank right then 1 else -1) first second ↔
      rank second ≤ rank first := by
  unfold Precedes
  rcases lt_trichotomy (rank first) (rank second) with before | same | after
  · simp [before, not_lt.mpr before.le]
  · simp [same]
  · simp [after, after.le, not_lt.mpr after.le]

end Ranks

end RepublicAgent.ComparatorQueue
