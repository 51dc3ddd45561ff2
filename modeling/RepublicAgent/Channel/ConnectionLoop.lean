/-
This file runs the operations of a connection list and the loop that removes and adds nodes on its way.
-/

import RepublicAgent.Channel.ConnectionList

namespace RepublicAgent
open DoublyLinked Execution MachineInteger

/-- A removal takes the node behind `index` links, when there is one. -/
inductive ListEvent (V : Type) where
  | push (value : V)
  | unshift (value : V)
  | pop
  | shift
  | remove (index : Nat)
deriving DecidableEq, Repr

/-- The operation on the values alone. The function `List_pop` takes the first one. -/
def ListEvent.effect {V : Type} (values : List V) : ListEvent V → List V
  | .push value => values ++ [value]
  | .unshift value => value :: values
  | .pop => values.tail
  | .shift => values.tail
  | .remove index => values.eraseIdx index

/-- A body may remove the node of its round once, and appends nodes before and after that. -/
structure LoopBody (V : Type) where
  pushedBefore : List V
  removed : Bool
  pushedAfter : List V
deriving DecidableEq, Repr

/-- The node with its value and the body that ran for it. -/
structure Visit (V : Type) where
  node : Nat × V
  body : LoopBody V
deriving DecidableEq, Repr

/-- The visits and the appended nodes are kept for the statements only. -/
structure ConnectionLoop (V : Type) where
  list : ConnectionList V
  nodeNext : Option Nat
  visits : List (Visit V)
  pushed : List (Nat × V)

section Steps

variable {V : Type}

/-- The node behind some forward links. -/
def nodeAt (cells : Cells V) : Option Nat → Nat → Option Nat
  | pointer, 0 => pointer
  | pointer, index + 1 => nodeAt cells ((pointer.bind cells.lookup).bind Cell.next) index

def listStep (alloc : Allocator) (list : ConnectionList V) : ListEvent V → Except Fault (ConnectionList V)
  | .push value => (listPush alloc list value).map Prod.snd
  | .unshift value => listUnshift alloc list value
  | .pop => (listPop list).map Prod.snd
  | .shift => (listShift list).map Prod.snd
  | .remove index =>
      match nodeAt list.cells list.first index with
      | none => .ok list
      | some node => (listRemove list node).map Prod.snd

def pushAll (alloc : Allocator) : ConnectionList V → List V → Except Fault (List (Nat × V) × ConnectionList V)
  | list, [] => .ok ([], list)
  | list, value :: values => do
      let (node, list) ← listPush alloc list value
      let (nodes, list) ← pushAll alloc list values
      return ((node, value) :: nodes, list)

/-- The loop starts as `LIST_FOREACH_DOUBLYLINKEDLIST` does. -/
def loopStart (list : ConnectionList V) : ConnectionLoop V := ⟨list, list.first, [], []⟩

def removeCur (list : ConnectionList V) (nodeCur : Nat) (body : LoopBody V) : Except Fault (ConnectionList V) :=
  if body.removed then (listRemove list nodeCur).map Prod.snd else .ok list

def runBody (alloc : Allocator) (list : ConnectionList V) (nodeCur : Nat) (body : LoopBody V) :
    Except Fault (List (Nat × V) × ConnectionList V) := do
  let (before, list) ← pushAll alloc list body.pushedBefore
  let list ← removeCur list nodeCur body
  let (after, list) ← pushAll alloc list body.pushedAfter
  return (before ++ after, list)

/-- A round saves the next pointer before its body runs. The loop has ended when the saved pointer is `NULL`. -/
def loopStep (alloc : Allocator) (loop : ConnectionLoop V) (body : LoopBody V) :
    Except Fault (ConnectionLoop V) :=
  match loop.nodeNext with
  | none => .ok loop
  | some nodeCur => do
      let cell ← loadNode loop.list.cells (some nodeCur)
      let (pushed, list) ← runBody alloc loop.list nodeCur body
      return ⟨list, cell.next, loop.visits ++ [⟨(nodeCur, cell.value), body⟩], loop.pushed ++ pushed⟩

end Steps

/-- Both traversals give the nodes, which are all that is allocated. The counter is their number as an `int`. -/
structure ConnectionList.TraversedAs {V : Type} (list : ConnectionList V) (nodes : List (Nat × V)) : Prop where
  forward : Walk list.cells Cell.next list.first nodes
  backward : Walk list.cells Cell.prev list.last nodes.reverse
  first : list.first = nodes.head?.map Prod.fst
  last : list.last = nodes.getLast?.map Prod.fst
  count : list.count = s32 nodes.length
  countExact : nodes.length < 2147483648 → list.count = nodes.length
  distinct : (nodes.map Prod.fst).Nodup
  live : ∀ addr, addr ∈ list.cells ↔ addr ∈ nodes.map Prod.fst

/-- The visited nodes that their bodies did not remove. -/
def survivors {V : Type} (visits : List (Visit V)) : List (Nat × V) :=
  (visits.filter fun visit => !visit.body.removed).map Visit.node

/-- The loop visits the nodes in order and then the appended ones. It ends behind the nodes, and at the latest behind
the appended ones. -/
structure ConnectionLoop.Survives {V : Type} (nodes : List (Nat × V)) (bodies : List (LoopBody V))
    (loop : ConnectionLoop V) : Prop where
  ran : loop.visits.map Visit.body <+: bodies
  pushes : loop.pushed.map Prod.snd = loop.visits.flatMap fun visit => visit.body.pushedBefore ++ visit.body.pushedAfter
  partly : ∃ rest, loop.visits.map Visit.node ++ rest = nodes ++ loop.pushed ∧
    loop.list.TraversedAs (survivors loop.visits ++ rest)
  wholly : nodes.length ≤ bodies.length → ∃ visited later rest, loop.visits = visited ++ later ∧
    visited.map Visit.node = nodes ∧ loop.pushed = later.map Visit.node ++ rest ∧
    loop.list.TraversedAs (survivors visited ++ (survivors later ++ rest))
  ended : loop.nodeNext = none → nodes.length ≤ bodies.length
  goesOn : loop.nodeNext ≠ none →
    loop.visits.length = bodies.length ∧ bodies.length < nodes.length + loop.pushed.length

section Loops

variable {V : Type} {alloc : Allocator} {list : ConnectionList V} {nodes before after : List (Nat × V)}
  {cells : Cells V} {loop : ConnectionLoop V} {past : List (LoopBody V)}

theorem ConnectionList.Represents.traversed (represents : list.Represents nodes) : list.TraversedAs nodes where
  forward := represents.first ▸ represents.linked.walk_next
  backward := represents.last ▸ represents.linked.walk_prev
  first := represents.first.trans (entry_none nodes)
  last := represents.last.trans (exit_none nodes)
  count := represents.count
  countExact short := by
    rw [represents.count]
    exact (signed_exact_iff 31 _).mpr (by omega)
  distinct := represents.distinct
  live := represents.live

theorem nodeAt_none (cells : Cells V) (index : Nat) : nodeAt cells none index = none := by
  induction index with
  | zero => rfl
  | succ index ih => exact ih

/-- A removal finds the node at its index. -/
theorem nodeAt_eq {front : Option Nat} (linked : Linked cells front nodes none) (index : Nat) :
    nodeAt cells (entry nodes none) index = nodes[index]?.map Prod.fst := by
  induction nodes generalizing front index with
  | nil => simp [nodeAt_none]
  | cons node nodes ih =>
      cases index with
      | zero => rfl
      | succ index =>
          have rest := ih linked.2 index
          simpa [nodeAt, linked.1] using rest

/-- A removal of the node at an index removes the entry at the index. -/
theorem listRemove_at {index : Nat} {node : Nat × V} (represents : list.Represents nodes)
    (present : nodes[index]? = some node) : ∃ removed, listRemove list node.1 = .ok (node.2, removed) ∧
      removed.Represents (nodes.eraseIdx index) := by
  obtain ⟨inside, rfl⟩ := List.getElem?_eq_some_iff.mp present
  have split : nodes = nodes.take index ++ nodes[index] :: nodes.drop (index + 1) := by
    rw [List.cons_getElem_drop_succ, List.take_append_drop]
  rw [split] at represents
  rw [List.eraseIdx_eq_take_drop_succ]
  exact listRemove_ok represents

/-- Every operation does to the values what the abstract one does. -/
theorem listStep_yields (represents : list.Represents nodes) (event : ListEvent V) :
    Yields alloc.Refuses (listStep alloc list event) fun next =>
      ∃ others, others.map Prod.snd = event.effect (nodes.map Prod.snd) ∧ next.Represents others := by
  cases event with
  | push value =>
      apply (listPush_yields represents value).map
      intro pushed longer
      exact ⟨_, by simp [ListEvent.effect], longer⟩
  | unshift value =>
      apply (listUnshift_yields represents value).mono
      rintro unshifted ⟨node, longer⟩
      exact ⟨_, rfl, longer⟩
  | pop =>
      obtain ⟨popped, made, shorter⟩ := listPop_ok represents
      rw [listStep, made]
      exact ⟨_, List.map_tail, shorter⟩
  | shift =>
      -- Both functions have the same body.
      obtain ⟨shifted, made, shorter⟩ := listPop_ok represents
      rw [listStep, show listShift list = listPop list from rfl, made]
      exact ⟨_, List.map_tail, shorter⟩
  | remove index =>
      have found := nodeAt_eq represents.linked index
      rw [← represents.first] at found
      rw [listStep, found]
      cases present : nodes[index]? with
      | none =>
          have beyond := List.getElem?_eq_none_iff.mp present
          exact ⟨nodes, (List.eraseIdx_of_length_le (by simpa using beyond)).symm, represents⟩
      | some node =>
          obtain ⟨removed, made, shorter⟩ := listRemove_at represents present
          dsimp only [Option.map_some]
          rw [made]
          exact ⟨_, (List.eraseIdx_map _ _ _).symm, shorter⟩

/-- The list holds the values of the abstract run. -/
def ConnectionList.Refines (past : List (ListEvent V)) (list : ConnectionList V) : Prop :=
  ∃ nodes, nodes.map Prod.snd = past.foldl ListEvent.effect [] ∧ list.Represents nodes

/-- Every run refines the abstract run. -/
theorem listRun_yields (events : List (ListEvent V)) :
    Yields alloc.Refuses (execute (listStep alloc) listCreate events) (ConnectionList.Refines events) := by
  have kept (past : List (ListEvent V)) (list : ConnectionList V) (event : ListEvent V)
      (refines : list.Refines past) :
      Yields alloc.Refuses (listStep alloc list event) (ConnectionList.Refines (past ++ [event])) := by
    obtain ⟨nodes, values, represents⟩ := refines
    apply (listStep_yields represents event).mono
    rintro next ⟨others, effect, after⟩
    refine ⟨others, ?_, after⟩
    rw [List.foldl_append, ← values]
    exact effect
  have start : ConnectionList.Refines [] (listCreate : ConnectionList V) := ⟨[], rfl, listCreate_represents⟩
  exact Yields.execute kept start events

theorem pushAll_yields (represents : list.Represents nodes) (values : List V) :
    Yields alloc.Refuses (pushAll alloc list values) fun pushed =>
      pushed.1.map Prod.snd = values ∧ pushed.2.Represents (nodes ++ pushed.1) := by
  induction values generalizing list nodes with
  | nil => exact ⟨rfl, by rwa [List.append_nil]⟩
  | cons value values ih =>
      apply (listPush_yields represents value).bind
      intro pushed longer
      apply (ih longer).bind
      rintro rest ⟨added, longest⟩
      refine ⟨by rw [List.map_cons, added], ?_⟩
      rwa [List.append_assoc] at longest

/-- The visited nodes come before the rest. The saved pointer is the start of the rest, unless the loop has ended. -/
structure ConnectionLoop.Follows (nodes : List (Nat × V)) (past : List (LoopBody V)) (loop : ConnectionLoop V)
    (rest : List (Nat × V)) : Prop where
  order : loop.visits.map Visit.node ++ rest = nodes ++ loop.pushed
  represents : loop.list.Represents (survivors loop.visits ++ rest)
  ran : loop.visits.map Visit.body <+: past
  pushes : loop.pushed.map Prod.snd = loop.visits.flatMap fun visit => visit.body.pushedBefore ++ visit.body.pushedAfter
  next : loop.nodeNext = entry rest none ∧ loop.visits.length = past.length ∨
    loop.nodeNext = none ∧ nodes.length ≤ loop.visits.length

theorem loopStart_follows (represents : list.Represents nodes) : (loopStart list).Follows nodes [] nodes where
  order := (List.append_nil nodes).symm
  represents := represents
  ran := List.nil_prefix
  pushes := rfl
  next := Or.inl ⟨represents.first, rfl⟩

theorem survivors_append (first second : List (Visit V)) :
    survivors (first ++ second) = survivors first ++ survivors second := by
  simp [survivors]

/-- The node of the round stays in its place or is removed. -/
theorem removeCur_ok {node : Nat × V} (represents : list.Represents (before ++ node :: after)) (body : LoopBody V) :
    ∃ next, removeCur list node.1 body = .ok next ∧
      next.Represents (before ++ survivors [⟨node, body⟩] ++ after) := by
  unfold removeCur
  cases kept : body.removed with
  | false =>
      have stays : survivors [⟨node, body⟩] = [node] := by
        simp [survivors, kept]
      rw [if_neg (by simp), stays, List.append_assoc]
      exact ⟨list, rfl, represents⟩
  | true =>
      have leaves : survivors [⟨node, body⟩] = [] := by
        simp [survivors, kept]
      obtain ⟨removed, made, shorter⟩ := listRemove_ok represents
      rw [if_pos rfl, made, leaves, List.append_nil]
      exact ⟨removed, rfl, shorter⟩

/-- A body changes nothing but its own node and the end of the list. -/
theorem runBody_yields {node : Nat × V} (represents : list.Represents (before ++ node :: after))
    (body : LoopBody V) :
    Yields alloc.Refuses (runBody alloc list node.1 body) fun ran =>
      ran.1.map Prod.snd = body.pushedBefore ++ body.pushedAfter ∧
        ran.2.Represents (before ++ survivors [⟨node, body⟩] ++ (after ++ ran.1)) := by
  apply (pushAll_yields represents body.pushedBefore).bind
  rintro ⟨first, list⟩ ⟨firstValues, longer⟩
  rw [List.append_assoc, List.cons_append] at longer
  obtain ⟨next, made, shorter⟩ := removeCur_ok longer body
  dsimp only
  rw [made, ok_bind]
  apply (pushAll_yields shorter body.pushedAfter).bind
  rintro ⟨second, list⟩ ⟨secondValues, longest⟩
  rw [List.append_assoc, List.append_assoc after] at longest
  exact ⟨by rw [List.map_append, firstValues, secondValues], longest⟩

/-- The end of the loop is kept. -/
theorem ConnectionLoop.Follows.ended {rest : List (Nat × V)} (follows : loop.Follows nodes past rest)
    (done : loop.nodeNext = none) : nodes.length ≤ loop.visits.length := by
  rcases follows.next with ⟨same, _⟩ | ⟨_, whole⟩
  · have empty : rest = [] := by
      simpa [entry_none] using same.symm.trans done
    have lengths := congrArg List.length follows.order
    simp only [empty, List.append_nil, List.length_map, List.length_append] at lengths
    omega
  · exact whole

/-- The state after a round that visited the first node of the rest. -/
theorem ConnectionLoop.Follows.round {node : Nat × V} {rest pushed : List (Nat × V)} {body : LoopBody V}
    (follows : loop.Follows nodes past (node :: rest)) (equal : loop.visits.length = past.length)
    (represents : list.Represents (survivors (loop.visits ++ [⟨node, body⟩]) ++ (rest ++ pushed)))
    (values : pushed.map Prod.snd = body.pushedBefore ++ body.pushedAfter) :
    ConnectionLoop.Follows nodes (past ++ [body])
      ⟨list, entry rest none, loop.visits ++ [⟨node, body⟩], loop.pushed ++ pushed⟩ (rest ++ pushed) where
  order := by
    rw [← List.append_assoc nodes, ← follows.order]
    simp
  represents := represents
  ran := by
    have all := follows.ran.eq_of_length (by rw [List.length_map, equal])
    rw [List.map_append, all]
    exact List.prefix_rfl
  pushes := by
    rw [List.map_append, follows.pushes, values, List.flatMap_append, List.flatMap_singleton]
  next := by
    cases rest with
    | nil =>
        -- The saved pointer does not see the nodes that the body appended.
        have lengths := congrArg List.length follows.order
        simp only [List.length_map, List.length_append, List.length_singleton] at lengths
        refine Or.inr ⟨rfl, ?_⟩
        rw [List.length_append, List.length_singleton]
        omega
    | cons next rest => exact Or.inl ⟨rfl, by simp [equal]⟩

/-- A round visits the first node of the rest and appends to the rest. -/
theorem loopStep_yields {rest : List (Nat × V)} (follows : loop.Follows nodes past rest) (body : LoopBody V) :
    Yields alloc.Refuses (loopStep alloc loop body) fun next =>
      ∃ rest, next.Follows nodes (past ++ [body]) rest := by
  unfold loopStep
  cases pointer : loop.nodeNext with
  | none =>
      refine ⟨rest, follows.order, follows.represents, ?_, follows.pushes, ?_⟩
      · exact follows.ran.trans (List.prefix_append past [body])
      · exact Or.inr ⟨pointer, follows.ended pointer⟩
  | some nodeCur =>
      rcases follows.next with ⟨same, equal⟩ | ⟨done, _⟩
      · cases rest with
        | nil => cases pointer.symm.trans same
        | cons node rest =>
            obtain rfl : nodeCur = node.1 := Option.some.inj (pointer.symm.trans same)
            dsimp only
            rw [loadNode_eq follows.represents.linked.middle, ok_bind]
            apply (runBody_yields follows.represents body).bind
            rintro ⟨pushed, list⟩ ⟨values, after⟩
            rw [← survivors_append] at after
            exact ⟨rest ++ pushed, follows.round equal after values⟩
      · cases pointer.symm.trans done

/-- The part of the visits that is as long as the list at the start is the list at the start. -/
theorem ConnectionLoop.Follows.split {rest : List (Nat × V)} (follows : loop.Follows nodes past rest)
    (enough : nodes.length ≤ loop.visits.length) : ∃ visited later, loop.visits = visited ++ later ∧
      visited.map Visit.node = nodes ∧ loop.pushed = later.map Visit.node ++ rest := by
  have whole := (List.take_append_drop nodes.length loop.visits).symm
  have order := follows.order
  rw [whole, List.map_append, List.append_assoc] at order
  obtain ⟨front, back⟩ := List.append_inj order (by simp [enough])
  exact ⟨_, _, whole, front, back.symm⟩

theorem ConnectionLoop.Follows.survives {rest : List (Nat × V)} {bodies : List (LoopBody V)}
    (follows : loop.Follows nodes bodies rest) : loop.Survives nodes bodies where
  ran := follows.ran
  pushes := follows.pushes
  partly := ⟨rest, follows.order, follows.represents.traversed⟩
  wholly long := by
    have enough : nodes.length ≤ loop.visits.length := by
      rcases follows.next with ⟨_, equal⟩ | ⟨_, whole⟩
      · omega
      · exact whole
    obtain ⟨visited, later, whole, front, back⟩ := follows.split enough
    refine ⟨visited, later, rest, whole, front, back, ?_⟩
    have traversed := follows.represents.traversed
    rwa [whole, survivors_append, List.append_assoc] at traversed
  ended done := by
    have bound := follows.ran.length_le
    rw [List.length_map] at bound
    exact (follows.ended done).trans bound
  goesOn more := by
    rcases follows.next with ⟨same, equal⟩ | ⟨done, _⟩
    · have filled : rest ≠ [] := by
        rintro rfl
        exact more same
      have positive := List.length_pos_of_ne_nil filled
      have lengths := congrArg List.length follows.order
      simp only [List.length_append, List.length_map] at lengths
      exact ⟨equal, by omega⟩
    · exact absurd done more

theorem loopRun_yields (represents : list.Represents nodes) (bodies : List (LoopBody V)) :
    Yields alloc.Refuses (execute (loopStep alloc) (loopStart list) bodies)
      (ConnectionLoop.Survives nodes bodies) := by
  have start : ∃ rest, (loopStart list).Follows nodes [] rest := ⟨nodes, loopStart_follows represents⟩
  have kept (past : List (LoopBody V)) (loop : ConnectionLoop V) (body : LoopBody V)
      (follows : ∃ rest, loop.Follows nodes past rest) :
      Yields alloc.Refuses (loopStep alloc loop body) fun next =>
        ∃ rest, next.Follows nodes (past ++ [body]) rest := by
    obtain ⟨rest, follows⟩ := follows
    exact loopStep_yields follows body
  apply (Yields.execute kept start bodies).mono
  rintro loop ⟨rest, follows⟩
  exact follows.survives

/-- After every history both traversals give the values of the abstract list, and a loop over it visits each of
its nodes once and keeps the nodes that were not removed in front of the appended ones. No pointer that is `NULL`
or freed is used, and only a lack of memory stops the process. -/
theorem connectionLoop_survives (alloc : Allocator) (events : List (ListEvent V)) :
    Yields alloc.Refuses (execute (listStep alloc) listCreate events) fun list =>
      ∃ nodes, nodes.map Prod.snd = events.foldl ListEvent.effect [] ∧ list.TraversedAs nodes ∧
        ∀ bodies, Yields alloc.Refuses (execute (loopStep alloc) (loopStart list) bodies)
          (ConnectionLoop.Survives nodes bodies) := by
  apply (listRun_yields events).mono
  rintro list ⟨nodes, values, represents⟩
  exact ⟨nodes, values, represents.traversed, loopRun_yields represents⟩

end Loops

end RepublicAgent
