/-
This file models the doubly linked lists of connections and the loop that removes and adds nodes on its way.
-/

import RepublicAgent.Library.DoublyLinked
import RepublicAgent.Library.Execution
import RepublicAgent.Library.MachineInteger
import RepublicAgent.Message.Types

namespace RepublicAgent
open DoublyLinked Execution MachineInteger

/-- A call of `calloc` gives an address that is not in use, or none. A freed address may come again. -/
structure Allocator where
  calloc : Nat → Finset Nat → Option Nat
  fresh : ∀ {calls : Nat} {live : Finset Nat} {addr : Nat}, calloc calls live = some addr → addr ∉ live

/-- The process aborts when `calloc` gives no memory. -/
def Allocator.Refuses (alloc : Allocator) (fault : Fault) : Prop :=
  fault = .abort ∧ ∃ calls live, alloc.calloc calls live = none

abbrev ListNode (V : Type) := Cell V

/-- The record `List` with the memory of its nodes and the number of calls of `calloc`. -/
structure ConnectionList (V : Type) where
  count : Int
  first : Option Nat
  last : Option Nat
  cells : Cells V
  calls : Nat

/-- The addresses above all others are never in use. -/
example : ∃ alloc : Allocator, ∀ fault, ¬ alloc.Refuses fault :=
  ⟨⟨fun _ live => some (live.sup id + 1), fun {_ live addr} given inside => by
    cases given
    exact Nat.not_succ_le_self _ (Finset.le_sup (f := id) inside)⟩, by simp [Allocator.Refuses]⟩

section Operations

variable {V : Type}

def listCreate : ConnectionList V := ⟨0, none, none, ∅, 0⟩

def check (holds : Prop) [Decidable holds] : Except Fault Unit :=
  if holds then .ok () else .error .abort

/-- A read through a pointer that is `NULL` or freed does not return. -/
def loadNode (cells : Cells V) (pointer : Option Nat) : Except Fault (ListNode V) :=
  match pointer.bind cells.lookup with
  | none => .error .badPointer
  | some node => .ok node

/-- A store through a pointer that is `NULL` or freed does not return. -/
def storeNode (cells : Cells V) (pointer : Option Nat) (change : ListNode V → ListNode V) :
    Except Fault (Cells V) :=
  match pointer with
  | none => .error .badPointer
  | some addr =>
      match cells.lookup addr with
      | none => .error .badPointer
      | some node => .ok (cells.insert addr (change node))

/-- The memory of a new node is cleared. -/
def ConnectionList.addNode (list : ConnectionList V) (node : Nat) (value : V) : ConnectionList V :=
  { list with cells := list.cells.insert node ⟨none, none, value⟩, calls := list.calls + 1 }

def newNode (alloc : Allocator) (list : ConnectionList V) (value : V) : Except Fault (Nat × ConnectionList V) :=
  match alloc.calloc list.calls list.cells.keys with
  | none => .error .abort
  | some node => .ok (node, list.addNode node value)

def linkLast (list : ConnectionList V) (node : Nat) : Except Fault (ConnectionList V) :=
  if list.last = none then .ok { list with first := some node, last := some node }
  else do
    let cells ← storeNode list.cells list.last fun last => { last with next := some node }
    let cells ← storeNode cells (some node) fun cell => { cell with prev := list.last }
    return { list with cells := cells, last := some node }

/-- The function `List_push` appends a node and returns it. -/
def listPush (alloc : Allocator) (list : ConnectionList V) (value : V) :
    Except Fault (Nat × ConnectionList V) := do
  let (node, list) ← newNode alloc list value
  let list ← linkLast list node
  return (node, { list with count := s32 (list.count + 1) })

def linkFirst (list : ConnectionList V) (node : Nat) : Except Fault (ConnectionList V) :=
  if list.first = none then .ok { list with first := some node, last := some node }
  else do
    let cells ← storeNode list.cells (some node) fun cell => { cell with next := list.first }
    let cells ← storeNode cells list.first fun first => { first with prev := some node }
    return { list with cells := cells, first := some node }

/-- The function `List_unshift` puts a node in front. -/
def listUnshift (alloc : Allocator) (list : ConnectionList V) (value : V) : Except Fault (ConnectionList V) := do
  let (node, list) ← newNode alloc list value
  let list ← linkFirst list node
  return { list with count := s32 (list.count + 1) }

/-- The four link cases of `List_remove`. -/
def unlinkNode (list : ConnectionList V) (node : Nat) : Except Fault (ConnectionList V) :=
  if some node = list.first ∧ some node = list.last then .ok { list with first := none, last := none }
  else if some node = list.first then do
    let cell ← loadNode list.cells (some node)
    check (cell.next ≠ none)
    let cells ← storeNode list.cells cell.next fun first => { first with prev := none }
    return { list with cells := cells, first := cell.next }
  else if some node = list.last then do
    let cell ← loadNode list.cells (some node)
    check (cell.prev ≠ none)
    let cells ← storeNode list.cells cell.prev fun last => { last with next := none }
    return { list with cells := cells, last := cell.prev }
  else do
    let cell ← loadNode list.cells (some node)
    let cells ← storeNode list.cells cell.next fun after => { after with prev := cell.prev }
    let cells ← storeNode cells cell.prev fun before => { before with next := cell.next }
    return { list with cells := cells }

/-- The function `List_remove` unlinks a node, frees it and returns its value. -/
def listRemove (list : ConnectionList V) (node : Nat) : Except Fault (V × ConnectionList V) := do
  check (list.first ≠ none ∧ list.last ≠ none)
  let list ← unlinkNode list node
  let cell ← loadNode list.cells (some node)
  return (cell.value, { list with count := s32 (list.count - 1), cells := list.cells.erase node })

/-- The function `List_pop` removes the first node, as `List_shift` does. -/
def listPop (list : ConnectionList V) : Except Fault (Option V × ConnectionList V) :=
  match list.first with
  | none => .ok (none, list)
  | some node => do
      let (value, list) ← listRemove list node
      return (some value, list)

def listShift (list : ConnectionList V) : Except Fault (Option V × ConnectionList V) :=
  match list.first with
  | none => .ok (none, list)
  | some node => do
      let (value, list) ← listRemove list node
      return (some value, list)

end Operations

/-- The memory of the list spells the nodes between its ends. -/
structure ConnectionList.Spells {V : Type} (list : ConnectionList V) (nodes : List (Nat × V)) : Prop where
  linked : Linked list.cells none nodes none
  distinct : (nodes.map Prod.fst).Nodup
  first : list.first = entry nodes none
  last : list.last = exit none nodes

/-- No other node is allocated, and the counter wraps as its type does. -/
structure ConnectionList.Represents {V : Type} (list : ConnectionList V) (nodes : List (Nat × V)) : Prop
    extends list.Spells nodes where
  live : ∀ addr, addr ∈ list.cells ↔ addr ∈ nodes.map Prod.fst
  count : list.count = s32 nodes.length

/-- A change of links allocates and frees no node and counts none. -/
structure ConnectionList.OnlyLinks {V : Type} (list linked : ConnectionList V) : Prop where
  live : ∀ addr, addr ∈ linked.cells ↔ addr ∈ list.cells
  count : linked.count = list.count

/-- A node that left the list is still allocated with its value. -/
structure ConnectionList.Unlinks {V : Type} (list unlinked : ConnectionList V) (node : Nat) (value : V)
    (nodes : List (Nat × V)) : Prop where
  spells : unlinked.Spells nodes
  only : list.OnlyLinks unlinked
  kept : ∃ cell, unlinked.cells.lookup node = some cell ∧ cell.value = value

section Representation

variable {V : Type} {alloc : Allocator} {list : ConnectionList V} {nodes before after : List (Nat × V)}
  {cells : Cells V} {cell : ListNode V} {addr node : Nat} {value : V}

theorem listCreate_represents : (listCreate : ConnectionList V).Represents [] where
  linked := trivial
  distinct := List.nodup_nil
  first := rfl
  last := rfl
  live := by simp [listCreate, Finmap.notMem_empty]
  count := ((signed_exact_iff 31 0).mpr (by norm_num)).symm

theorem loadNode_eq (found : cells.lookup addr = some cell) : loadNode cells (some addr) = .ok cell := by
  simp [loadNode, found]

theorem storeNode_eq (found : cells.lookup addr = some cell) (change : ListNode V → ListNode V) :
    storeNode cells (some addr) change = .ok (cells.insert addr (change cell)) := by
  simp [storeNode, found]

theorem check_eq {holds : Prop} [Decidable holds] (met : holds) : check holds = .ok () := by
  simp [check, met]

theorem s32_add (value other : Int) : s32 (s32 value + other) = s32 (value + other) :=
  Int.bmod_add_bmod

/-- A store to an allocated node keeps the allocated nodes. -/
theorem mem_insert_of_lookup (found : cells.lookup addr = some cell) (changed : ListNode V) (other : Nat) :
    other ∈ cells.insert addr changed ↔ other ∈ cells := by
  rw [Finmap.mem_insert]
  constructor
  · rintro (rfl | member)
    · exact Finmap.mem_of_lookup_eq_some found
    · exact member
  · exact Or.inr

theorem newNode_yields (represents : list.Represents nodes) (value : V) :
    Yields alloc.Refuses (newNode alloc list value) fun new =>
      ∃ node ∉ nodes.map Prod.fst, new = (node, list.addNode node value) := by
  unfold newNode
  cases given : alloc.calloc list.calls list.cells.keys with
  | none => exact ⟨rfl, list.calls, list.cells.keys, given⟩
  | some addr =>
      refine ⟨addr, ?_, rfl⟩
      rw [← represents.live, ← Finmap.mem_keys]
      exact alloc.fresh given

/-- The new node is not linked yet. -/
theorem ConnectionList.Spells.addNode (spells : list.Spells nodes) (outside : node ∉ nodes.map Prod.fst)
    (value : V) : (list.addNode node value).Spells nodes where
  linked := spells.linked.insert_outside outside _
  distinct := spells.distinct
  first := spells.first
  last := spells.last

theorem addNode_lookup (list : ConnectionList V) (node : Nat) (value : V) :
    (list.addNode node value).cells.lookup node = some ⟨none, none, value⟩ :=
  Finmap.lookup_insert _

/-- The stores to the last node and to the new node link the two. -/
theorem linkLast_ok (spells : list.Spells nodes) (outside : node ∉ nodes.map Prod.fst)
    (found : list.cells.lookup node = some ⟨none, none, value⟩) :
    ∃ linked, linkLast list node = .ok linked ∧ linked.Spells (nodes ++ [(node, value)]) ∧
      list.OnlyLinks linked := by
  have distinct : ((nodes ++ [(node, value)]).map Prod.fst).Nodup := by
    rw [List.map_append, List.map_singleton, ← List.concat_eq_append]
    exact spells.distinct.concat outside
  cases nodes using List.reverseRecOn with
  | nil =>
      have empty : list.last = none := spells.last
      refine ⟨{ list with first := some node, last := some node }, if_pos empty, ?_, fun _ => Iff.rfl, rfl⟩
      exact ⟨linked_singleton.mpr found, distinct, rfl, rfl⟩
  | append_singleton front back =>
      have last : list.last = some back.1 := by simpa using spells.last
      have different : node ≠ back.1 := by
        rintro rfl
        exact outside (by simp)
      obtain ⟨cell, present, relinked⟩ := spells.linked.store_next spells.distinct (some node)
      have kept : (list.cells.insert back.1 { cell with next := some node }).lookup node =
          some ⟨none, none, value⟩ := by
        rw [Finmap.lookup_insert_of_ne _ different, found]
      refine ⟨{ list with
          cells := (list.cells.insert back.1 { cell with next := some node }).insert node ⟨none, some back.1, value⟩
          last := some node }, ?_, ⟨?_, distinct, ?_, ?_⟩, ?_, rfl⟩
      · rw [linkLast, if_neg (by simp [last]), last, storeNode_eq present, ok_bind, storeNode_eq kept]
        rfl
      · refine linked_append.mpr ⟨relinked.insert_outside outside _, ?_⟩
        rw [linked_singleton, Finmap.lookup_insert, exit_append]
        rfl
      · rw [spells.first, entry_append, entry_append, entry_append]
        rfl
      · rw [exit_append]
        rfl
      · intro addr
        rw [mem_insert_of_lookup kept, mem_insert_of_lookup present]

/-- The stores to the new node and to the first node link the two. -/
theorem linkFirst_ok (spells : list.Spells nodes) (outside : node ∉ nodes.map Prod.fst)
    (found : list.cells.lookup node = some ⟨none, none, value⟩) :
    ∃ linked, linkFirst list node = .ok linked ∧ linked.Spells ((node, value) :: nodes) ∧
      list.OnlyLinks linked := by
  have distinct : (((node, value) :: nodes).map Prod.fst).Nodup := by
    rw [List.map_cons, List.nodup_cons]
    exact ⟨outside, spells.distinct⟩
  cases nodes with
  | nil =>
      have empty : list.first = none := spells.first
      refine ⟨{ list with first := some node, last := some node }, if_pos empty, ?_, fun _ => Iff.rfl, rfl⟩
      exact ⟨linked_singleton.mpr found, distinct, rfl, rfl⟩
  | cons front nodes =>
      have first : list.first = some front.1 := spells.first
      have different : front.1 ≠ node := by
        rintro rfl
        exact outside (by simp)
      have unlinked := spells.linked.insert_outside outside ⟨some front.1, none, value⟩
      obtain ⟨cell, present, relinked⟩ := unlinked.store_prev spells.distinct (some node)
      refine ⟨{ list with
          cells := (list.cells.insert node ⟨some front.1, none, value⟩).insert front.1
            { cell with prev := some node }
          first := some node }, ?_, ⟨⟨?_, relinked⟩, distinct, rfl, ?_⟩, ?_, rfl⟩
      · rw [linkFirst, if_neg (by simp [first]), first, storeNode_eq found, ok_bind, storeNode_eq present]
        rfl
      · rw [Finmap.lookup_insert_of_ne _ different.symm, Finmap.lookup_insert]
        rfl
      · rw [spells.last]
        rfl
      · intro addr
        rw [mem_insert_of_lookup present, mem_insert_of_lookup found]

/-- The node that was linked is counted. -/
theorem ConnectionList.Represents.added {linked : ConnectionList V} {longer : List (Nat × V)}
    (represents : list.Represents nodes) (spells : linked.Spells longer)
    (only : (list.addNode node value).OnlyLinks linked) (order : longer.Perm ((node, value) :: nodes)) :
    { linked with count := s32 (linked.count + 1) }.Represents longer where
  linked := spells.linked
  distinct := spells.distinct
  first := spells.first
  last := spells.last
  live addr := by
    rw [(order.map Prod.fst).mem_iff, List.map_cons, List.mem_cons, ← represents.live, only.live,
      ConnectionList.addNode, Finmap.mem_insert, eq_comm]
  count := by
    rw [only.count, ConnectionList.addNode, represents.count, s32_add, order.length_eq,
      List.length_cons, Nat.cast_succ]

/-- The function `List_push` puts its node behind the others. -/
theorem listPush_yields (represents : list.Represents nodes) (value : V) :
    Yields alloc.Refuses (listPush alloc list value) fun pushed =>
      pushed.2.Represents (nodes ++ [(pushed.1, value)]) := by
  apply (newNode_yields represents value).bind
  rintro _ ⟨node, outside, rfl⟩
  obtain ⟨linked, made, spells, only⟩ :=
    linkLast_ok (represents.toSpells.addNode outside value) outside (addNode_lookup list node value)
  dsimp only
  rw [made, ok_bind]
  exact represents.added spells only (List.perm_append_singleton _ _)

/-- The function `List_unshift` puts its node in front of the others. -/
theorem listUnshift_yields (represents : list.Represents nodes) (value : V) :
    Yields alloc.Refuses (listUnshift alloc list value) fun unshifted =>
      ∃ node, unshifted.Represents ((node, value) :: nodes) := by
  apply (newNode_yields represents value).bind
  rintro _ ⟨node, outside, rfl⟩
  obtain ⟨linked, made, spells, only⟩ :=
    linkFirst_ok (represents.toSpells.addNode outside value) outside (addNode_lookup list node value)
  dsimp only
  rw [made, ok_bind]
  exact ⟨node, represents.added spells only (List.Perm.refl _)⟩

/-- The node is on no side of itself. -/
theorem split_distinct (distinct : ((before ++ (node, value) :: after).map Prod.fst).Nodup) :
    node ∉ before.map Prod.fst ∧ node ∉ after.map Prod.fst ∧ ((before ++ after).map Prod.fst).Nodup := by
  rw [List.map_append, List.map_cons, List.nodup_middle, List.nodup_cons, List.mem_append, not_or] at distinct
  rw [List.map_append]
  exact ⟨distinct.1.1, distinct.1.2, distinct.2⟩

/-- The only node leaves an empty list. -/
theorem unlinkNode_only (spells : list.Spells [(node, value)]) :
    ∃ unlinked, unlinkNode list node = .ok unlinked ∧ list.Unlinks unlinked node value [] := by
  have first : some node = list.first := spells.first.symm
  have last : some node = list.last := spells.last.symm
  refine ⟨_, if_pos ⟨first, last⟩, ⟨trivial, List.nodup_nil, rfl, rfl⟩, ⟨fun _ => Iff.rfl, rfl⟩, ?_⟩
  exact ⟨_, spells.linked.1, rfl⟩

/-- The node behind the first one becomes the first. -/
theorem unlinkNode_first {next : Nat × V} (spells : list.Spells ((node, value) :: next :: after)) :
    ∃ unlinked, unlinkNode list node = .ok unlinked ∧ list.Unlinks unlinked node value (next :: after) := by
  have front : (([] ++ (node, value) :: next :: after).map Prod.fst).Nodup := spells.distinct
  obtain ⟨_, outside, distinct⟩ := split_distinct front
  have first : some node = list.first := spells.first.symm
  have last : some node ≠ list.last := by
    rw [spells.last, exit_cons]
    exact exit_ne (List.cons_ne_nil _ _) outside _
  have found := spells.linked.1
  obtain ⟨cell, present, relinked⟩ := spells.linked.2.store_prev distinct none
  have different : node ≠ next.1 := by
    rintro rfl
    exact outside (by simp)
  refine ⟨{ list with cells := list.cells.insert next.1 { cell with prev := none }, first := some next.1 }, ?_,
    ⟨relinked, distinct, rfl, spells.last⟩, ⟨mem_insert_of_lookup present _, rfl⟩, _,
    (Finmap.lookup_insert_of_ne _ different).trans found, rfl⟩
  rw [unlinkNode, if_neg (fun both => last both.2), if_pos first, loadNode_eq found, ok_bind,
    check_eq (by simp), ok_bind, entry_cons, storeNode_eq present]
  rfl

/-- The node in front of the last one becomes the last. -/
theorem unlinkNode_last {prev : Nat × V} (spells : list.Spells ((before ++ [prev]) ++ [(node, value)])) :
    ∃ unlinked, unlinkNode list node = .ok unlinked ∧ list.Unlinks unlinked node value (before ++ [prev]) := by
  obtain ⟨outside, _, distinct⟩ := split_distinct spells.distinct
  rw [List.append_nil] at distinct
  have first : some node ≠ list.first := by
    rw [spells.first, entry_append]
    exact entry_ne (by simp) outside _
  have last : some node = list.last := by
    rw [spells.last, exit_append]
    rfl
  have found := spells.linked.middle
  obtain ⟨front, _⟩ := linked_append.mp spells.linked
  obtain ⟨cell, present, relinked⟩ := front.store_next distinct none
  have different : node ≠ prev.1 := by
    rintro rfl
    exact outside (by simp)
  refine ⟨{ list with cells := list.cells.insert prev.1 { cell with next := none }, last := some prev.1 }, ?_,
    ⟨relinked, distinct, ?_, ?_⟩, ⟨mem_insert_of_lookup present _, rfl⟩, _,
    (Finmap.lookup_insert_of_ne _ different).trans found, rfl⟩
  · rw [unlinkNode, if_neg (fun both => first both.1), if_neg first, if_pos last, loadNode_eq found, ok_bind,
      check_eq (by simp), ok_bind, exit_append, exit_cons, exit_nil, storeNode_eq present]
    rfl
  · rw [spells.first, entry_append, entry_append, entry_append]
    rfl
  · rw [exit_append]
    rfl

/-- The nodes on both sides name each other. -/
theorem unlinkNode_middle {prev next : Nat × V}
    (spells : list.Spells ((before ++ [prev]) ++ (node, value) :: next :: after)) :
    ∃ unlinked, unlinkNode list node = .ok unlinked ∧
      list.Unlinks unlinked node value ((before ++ [prev]) ++ next :: after) := by
  obtain ⟨outsideBefore, outsideAfter, distinct⟩ := split_distinct spells.distinct
  have apart := distinct
  rw [List.map_append, List.nodup_append] at apart
  obtain ⟨distinctBefore, distinctAfter, apart⟩ := apart
  have first : some node ≠ list.first := by
    rw [spells.first, entry_append]
    exact entry_ne (by simp) outsideBefore _
  have last : some node ≠ list.last := by
    rw [spells.last, exit_append, exit_cons]
    exact exit_ne (List.cons_ne_nil _ _) outsideAfter _
  have found := spells.linked.middle
  obtain ⟨front, _, back⟩ := linked_append.mp spells.linked
  have nextOutside : next.1 ∉ (before ++ [prev]).map Prod.fst := fun listed => apart _ listed _ (by simp) rfl
  have prevOutside : prev.1 ∉ (next :: after).map Prod.fst := fun listed => apart _ (by simp) _ listed rfl
  obtain ⟨cellNext, presentNext, back⟩ := back.store_prev distinctAfter (some prev.1)
  obtain ⟨cellPrev, presentPrev, front⟩ :=
    (front.insert_outside nextOutside { cellNext with prev := some prev.1 }).store_next distinctBefore (some next.1)
  have differentNext : node ≠ next.1 := by
    rintro rfl
    exact outsideAfter (by simp)
  have differentPrev : node ≠ prev.1 := by
    rintro rfl
    exact outsideBefore (by simp)
  refine ⟨{ list with
      cells := (list.cells.insert next.1 { cellNext with prev := some prev.1 }).insert prev.1
        { cellPrev with next := some next.1 } }, ?_,
    ⟨linked_append.mpr ⟨front, ?_⟩, distinct, ?_, ?_⟩, ⟨fun addr => ?_, rfl⟩, _,
    (Finmap.lookup_insert_of_ne _ differentPrev).trans ((Finmap.lookup_insert_of_ne _ differentNext).trans found),
    rfl⟩
  · rw [unlinkNode, if_neg (fun both => first both.1), if_neg first, if_neg last, loadNode_eq found, ok_bind,
      entry_cons, exit_append, exit_cons, exit_nil, storeNode_eq presentNext, ok_bind, storeNode_eq presentPrev]
    rfl
  · rw [exit_append]
    exact back.insert_outside prevOutside _
  · rw [spells.first]
    simp only [entry_append, entry_cons]
  · rw [spells.last]
    simp only [exit_append, exit_cons]
  · rw [mem_insert_of_lookup presentPrev, mem_insert_of_lookup presentNext]

/-- Every place of the node is one of the four link cases. -/
theorem unlinkNode_ok (spells : list.Spells (before ++ (node, value) :: after)) :
    ∃ unlinked, unlinkNode list node = .ok unlinked ∧ list.Unlinks unlinked node value (before ++ after) := by
  cases before using List.reverseRecOn with
  | nil =>
      cases after with
      | nil => exact unlinkNode_only spells
      | cons next after => exact unlinkNode_first spells
  | append_singleton before prev =>
      cases after with
      | nil =>
          rw [List.append_nil]
          exact unlinkNode_last spells
      | cons next after => exact unlinkNode_middle spells

/-- The function `List_remove` frees the node and keeps the order of the others. -/
theorem listRemove_ok (represents : list.Represents (before ++ (node, value) :: after)) :
    ∃ removed, listRemove list node = .ok (value, removed) ∧ removed.Represents (before ++ after) := by
  obtain ⟨outsideBefore, outsideAfter, distinct⟩ := split_distinct represents.distinct
  have outside : node ∉ (before ++ after).map Prod.fst := by
    rw [List.map_append, List.mem_append, not_or]
    exact ⟨outsideBefore, outsideAfter⟩
  have filled : list.first ≠ none ∧ list.last ≠ none := by
    rw [represents.first, represents.last, entry_none, exit_none]
    simp
  obtain ⟨unlinked, made, spells, only, cell, kept, rfl⟩ := unlinkNode_ok represents.toSpells
  refine ⟨{ unlinked with count := s32 (unlinked.count - 1), cells := unlinked.cells.erase node }, ?_,
    ⟨spells.linked.erase_outside outside, distinct, spells.first, spells.last⟩, ?_, ?_⟩
  · rw [listRemove, check_eq filled, ok_bind, made, ok_bind, loadNode_eq kept]
    rfl
  · intro addr
    rw [Finmap.mem_erase, only.live, represents.live, (List.perm_middle.map Prod.fst).mem_iff, List.map_cons,
      List.mem_cons]
    constructor
    · rintro ⟨different, rfl | listed⟩
      · exact absurd rfl different
      · exact listed
    · intro listed
      refine ⟨?_, Or.inr listed⟩
      rintro rfl
      exact outside listed
  · rw [only.count, represents.count, sub_eq_add_neg, s32_add, List.perm_middle.length_eq, List.length_cons,
      Nat.cast_succ, add_neg_cancel_right]

/-- The function `List_pop` removes the first node. -/
theorem listPop_ok (represents : list.Represents nodes) :
    ∃ popped, listPop list = .ok (nodes.head?.map Prod.snd, popped) ∧ popped.Represents nodes.tail := by
  unfold listPop
  cases nodes with
  | nil =>
      rw [represents.first]
      exact ⟨list, rfl, represents⟩
  | cons node nodes =>
      have front : list.Represents ([] ++ (node.1, node.2) :: nodes) := represents
      obtain ⟨removed, made, shorter⟩ := listRemove_ok front
      rw [represents.first]
      dsimp only [entry_cons]
      rw [made]
      exact ⟨removed, rfl, shorter⟩

end Representation

end RepublicAgent
