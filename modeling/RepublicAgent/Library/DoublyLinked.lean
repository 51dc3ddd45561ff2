/-
This file gives the cells of a doubly linked chain and the rules for a store to one of its links.
-/

import Mathlib.Data.Finmap
import Mathlib.Tactic

namespace RepublicAgent.DoublyLinked

/-- A link is empty at the end of the chain. -/
structure Cell (V : Type) where
  next : Option Nat
  prev : Option Nat
  value : V
deriving DecidableEq, Repr

abbrev Cells (V : Type) := Finmap (fun _ : Nat => Cell V)

section Chains

variable {V : Type}

/-- The address of the first node, or the address behind an empty chain. -/
def entry : List (Nat × V) → Option Nat → Option Nat
  | [], after => after
  | node :: _, _ => some node.1

/-- The address of the last node, or the address in front of an empty chain. -/
def exit : Option Nat → List (Nat × V) → Option Nat
  | before, [] => before
  | _, node :: nodes => exit (some node.1) nodes

/-- The cells spell the nodes in order, between two addresses outside. -/
def Linked (cells : Cells V) : Option Nat → List (Nat × V) → Option Nat → Prop
  | _, [], _ => True
  | before, node :: nodes, after =>
      cells.lookup node.1 = some ⟨entry nodes after, before, node.2⟩ ∧
        Linked cells (some node.1) nodes after

/-- A traversal follows one link up to its empty end and collects the nodes. -/
inductive Walk (cells : Cells V) (link : Cell V → Option Nat) : Option Nat → List (Nat × V) → Prop
  | stop : Walk cells link none []
  | visit {addr : Nat} {cell : Cell V} {nodes : List (Nat × V)} (found : cells.lookup addr = some cell)
      (rest : Walk cells link (link cell) nodes) : Walk cells link (some addr) ((addr, cell.value) :: nodes)

variable {cells other : Cells V} {before after target : Option Nat} {nodes left right : List (Nat × V)}
  {node : Nat × V} {addr : Nat} {cell : Cell V}

@[simp] theorem entry_nil (after : Option Nat) : entry ([] : List (Nat × V)) after = after := rfl

@[simp] theorem entry_cons (node : Nat × V) (nodes : List (Nat × V)) (after : Option Nat) :
    entry (node :: nodes) after = some node.1 := rfl

@[simp] theorem exit_nil (before : Option Nat) : exit before ([] : List (Nat × V)) = before := rfl

@[simp] theorem exit_cons (before : Option Nat) (node : Nat × V) (nodes : List (Nat × V)) :
    exit before (node :: nodes) = exit (some node.1) nodes := rfl

theorem entry_append (left right : List (Nat × V)) (after : Option Nat) :
    entry (left ++ right) after = entry left (entry right after) := by
  cases left <;> rfl

@[simp] theorem exit_append (before : Option Nat) (left right : List (Nat × V)) :
    exit before (left ++ right) = exit (exit before left) right := by
  induction left generalizing before with
  | nil => rfl
  | cons node left ih => exact ih (some node.1)

theorem entry_none (nodes : List (Nat × V)) : entry nodes none = nodes.head?.map Prod.fst := by
  cases nodes <;> rfl

theorem exit_none (nodes : List (Nat × V)) : exit none nodes = nodes.getLast?.map Prod.fst := by
  cases nodes using List.reverseRecOn with
  | nil => rfl
  | append_singleton nodes node => simp

/-- The first node of a chain is one of its nodes. -/
theorem entry_ne (filled : nodes ≠ []) (outside : addr ∉ nodes.map Prod.fst) (after : Option Nat) :
    some addr ≠ entry nodes after := by
  cases nodes with
  | nil => exact absurd rfl filled
  | cons node nodes =>
      intro same
      exact outside (by simp [Option.some.inj same])

/-- The last node of a chain is one of its nodes. -/
theorem exit_ne (filled : nodes ≠ []) (outside : addr ∉ nodes.map Prod.fst) (before : Option Nat) :
    some addr ≠ exit before nodes := by
  cases nodes using List.reverseRecOn with
  | nil => exact absurd rfl filled
  | append_singleton nodes node =>
      rw [exit_append]
      intro same
      exact outside (by simp [Option.some.inj same])

/-- A chain splits at every place, and the parts name each other's ends. -/
theorem linked_append : Linked cells before (left ++ right) after ↔
    Linked cells before left (entry right after) ∧ Linked cells (exit before left) right after := by
  induction left generalizing before with
  | nil => simp [Linked]
  | cons node left ih => simp [Linked, ih, entry_append, and_assoc]

theorem linked_singleton : Linked cells before [node] after ↔
    cells.lookup node.1 = some ⟨after, before, node.2⟩ := by
  simp [Linked]

/-- The node of a chain that splits there. -/
theorem Linked.middle (linked : Linked cells before (left ++ node :: right) after) :
    cells.lookup node.1 = some ⟨entry right after, exit before left, node.2⟩ :=
  (linked_append.mp linked).2.1

/-- Only the cells of its own nodes matter to a chain. -/
theorem Linked.frame (linked : Linked cells before nodes after)
    (same : ∀ addr ∈ nodes.map Prod.fst, other.lookup addr = cells.lookup addr) :
    Linked other before nodes after := by
  induction nodes generalizing before with
  | nil => trivial
  | cons node nodes ih =>
      rw [List.map_cons, List.forall_mem_cons] at same
      exact ⟨same.1.trans linked.1, ih linked.2 same.2⟩

theorem Linked.insert_outside (linked : Linked cells before nodes after) (outside : addr ∉ nodes.map Prod.fst)
    (cell : Cell V) : Linked (cells.insert addr cell) before nodes after := by
  apply linked.frame
  intro other listed
  have different : other ≠ addr := by
    rintro rfl
    exact outside listed
  rw [Finmap.lookup_insert_of_ne _ different]

theorem Linked.erase_outside (linked : Linked cells before nodes after) (outside : addr ∉ nodes.map Prod.fst) :
    Linked (cells.erase addr) before nodes after := by
  apply linked.frame
  intro other listed
  have different : other ≠ addr := by
    rintro rfl
    exact outside listed
  rw [Finmap.lookup_erase_ne different]

/-- A store to the first back link changes only the address in front of the chain. -/
theorem Linked.store_prev (linked : Linked cells before (node :: nodes) after)
    (distinct : ((node :: nodes).map Prod.fst).Nodup) (target : Option Nat) :
    ∃ cell, cells.lookup node.1 = some cell ∧
      Linked (cells.insert node.1 { cell with prev := target }) target (node :: nodes) after := by
  rw [List.map_cons, List.nodup_cons] at distinct
  refine ⟨_, linked.1, ?_, linked.2.insert_outside distinct.1 _⟩
  rw [Finmap.lookup_insert]

/-- A store to the last forward link changes only the address behind the chain. -/
theorem Linked.store_next (linked : Linked cells before (nodes ++ [node]) after)
    (distinct : ((nodes ++ [node]).map Prod.fst).Nodup) (target : Option Nat) :
    ∃ cell, cells.lookup node.1 = some cell ∧
      Linked (cells.insert node.1 { cell with next := target }) before (nodes ++ [node]) target := by
  obtain ⟨front, last⟩ := linked_append.mp linked
  have outside : node.1 ∉ nodes.map Prod.fst := by
    rw [List.map_append, List.nodup_append] at distinct
    intro listed
    exact distinct.2.2 node.1 listed node.1 (by simp) rfl
  refine ⟨_, last.1, linked_append.mpr ⟨front.insert_outside outside _, ?_⟩⟩
  rw [linked_singleton, Finmap.lookup_insert]

/-- The forward traversal of a chain collects its nodes. -/
theorem Linked.walk_next (linked : Linked cells before nodes none) :
    Walk cells Cell.next (entry nodes none) nodes := by
  induction nodes generalizing before with
  | nil => exact Walk.stop
  | cons node nodes ih => exact Walk.visit linked.1 (ih linked.2)

/-- The backward traversal of a chain collects its nodes in reverse. -/
theorem Linked.walk_prev (linked : Linked cells none nodes after) :
    Walk cells Cell.prev (exit none nodes) nodes.reverse := by
  induction nodes using List.reverseRecOn generalizing after with
  | nil => exact Walk.stop
  | append_singleton nodes node ih =>
      obtain ⟨front, last⟩ := linked_append.mp linked
      rw [exit_append, List.reverse_append]
      exact Walk.visit last.1 (ih front)

end Chains

end RepublicAgent.DoublyLinked
