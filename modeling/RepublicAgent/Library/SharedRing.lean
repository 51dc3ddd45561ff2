/-
This file gives a ring of slots that a program shares with a kernel. Each slot goes round from the one to the other.
-/

import RepublicAgent.Library.CyclicWindow

namespace RepublicAgent
open CyclicWindow

/-- The slots from `kernel` on are released to the kernel, the ones from `head` on are owned by the program, and the
ones from `tail` on are reserved for the kernel. -/
structure SharedRing (Slot : Type*) where
  numSlots : Nat
  slots : Nat → Slot
  kernel : Nat
  head : Nat
  tail : Nat

namespace SharedRing

variable {Slot : Type*} {ring : SharedRing Slot}

/-- The position behind the last one is the first one. -/
def next (ring : SharedRing Slot) (position : Nat) : Nat :=
  if position + 1 = ring.numSlots then 0 else position + 1

/-- The number of slots that the program owns. -/
def space (ring : SharedRing Slot) : Nat := distance ring.numSlots ring.head ring.tail

def releasedCount (ring : SharedRing Slot) : Nat := distance ring.numSlots ring.kernel ring.head

def released (ring : SharedRing Slot) : List Slot :=
  (window ring.numSlots ring.kernel ring.releasedCount).map ring.slots

def owned (ring : SharedRing Slot) : List Slot := (window ring.numSlots ring.head ring.space).map ring.slots

def reserved (ring : SharedRing Slot) : List Slot :=
  (window ring.numSlots ring.tail (ring.numSlots - ring.releasedCount - ring.space)).map ring.slots

/-- The positions are inside of the ring, and they follow one another. -/
structure Sound (ring : SharedRing Slot) : Prop where
  kernelInside : ring.kernel < ring.numSlots
  headInside : ring.head < ring.numSlots
  tailInside : ring.tail < ring.numSlots
  ordered : ring.releasedCount + ring.space < ring.numSlots

/-- A slot is replaced. -/
def modify (ring : SharedRing Slot) (position : Nat) (slot : Slot) : SharedRing Slot :=
  { ring with slots := Function.update ring.slots position slot }

/-- The program gives its first slot to the kernel. -/
def release (ring : SharedRing Slot) (slot : Slot) : SharedRing Slot :=
  { ring.modify ring.head slot with head := ring.next ring.head }

/-- The kernel is done with the first slot that was released. -/
def collect (ring : SharedRing Slot) (slot : Slot) : SharedRing Slot :=
  { ring.modify ring.kernel slot with kernel := ring.next ring.kernel }

/-- The kernel gives its first reserved slot to the program. -/
def supply (ring : SharedRing Slot) (slot : Slot) : SharedRing Slot :=
  { ring.modify ring.tail slot with tail := ring.next ring.tail }

theorem next_eq {position : Nat} (inside : position < ring.numSlots) :
    ring.next position = (position + 1) % ring.numSlots := by
  unfold next
  split_ifs with last
  · rw [last, Nat.mod_self]
  · rw [Nat.mod_eq_of_lt (by omega)]

theorem next_inside {position : Nat} (inside : position < ring.numSlots) : ring.next position < ring.numSlots := by
  unfold next
  split_ifs <;> omega

/-- One step further is one step more, unless the last position is reached from the first. -/
theorem distance_next {first last : Nat} (firstInside : first < ring.numSlots)
    (apart : distance ring.numSlots first last + 1 < ring.numSlots) :
    distance ring.numSlots first (ring.next last) = distance ring.numSlots first last + 1 := by
  unfold distance next at *
  split_ifs at * <;> omega

/-- One step from the first position is one step less. -/
theorem next_distance {first last : Nat} (firstInside : first < ring.numSlots) (lastInside : last < ring.numSlots)
    (apart : first ≠ last) :
    distance ring.numSlots (ring.next first) last + 1 = distance ring.numSlots first last := by
  unfold distance next
  split_ifs <;> omega

theorem distance_eq_zero_iff {first last : Nat} (firstInside : first < ring.numSlots) :
    distance ring.numSlots first last = 0 ↔ first = last := by
  unfold distance
  split_ifs <;> omega

/-- A window of the ring starts with its first position. -/
theorem window_next {first count : Nat} (inside : first < ring.numSlots) :
    window ring.numSlots first (count + 1) = first :: window ring.numSlots (ring.next first) count := by
  rw [window_succ, Nat.mod_eq_of_lt inside, next_eq inside, window_mod]

@[simp] theorem owned_length (ring : SharedRing Slot) : ring.owned.length = ring.space := by
  rw [owned, List.length_map, window_length]

/-- A slot can be released as it is. -/
theorem release_self (ring : SharedRing Slot) :
    ring.release (ring.slots ring.head) = { ring with head := ring.next ring.head } := by
  rw [release, modify, Function.update_eq_self]

/-- The three windows are the whole ring. -/
theorem Sound.windows (sound : ring.Sound) :
    window ring.numSlots ring.kernel ring.numSlots = window ring.numSlots ring.kernel ring.releasedCount ++
      window ring.numSlots ring.head ring.space ++
      window ring.numSlots ring.tail (ring.numSlots - ring.releasedCount - ring.space) := by
  have toHead := add_distance sound.kernelInside sound.headInside
  have toTail := add_distance sound.headInside sound.tailInside
  have ordered := sound.ordered
  have whole : ring.numSlots = ring.releasedCount + ring.space + (ring.numSlots - ring.releasedCount - ring.space) := by
    omega
  have first := window_add ring.numSlots ring.kernel (ring.releasedCount + ring.space)
    (ring.numSlots - ring.releasedCount - ring.space)
  have second := window_add ring.numSlots ring.kernel ring.releasedCount ring.space
  rw [← window_mod _ (ring.kernel + ring.releasedCount), show (ring.kernel + ring.releasedCount) % _ = _ from toHead]
    at second
  have tail : (ring.kernel + (ring.releasedCount + ring.space)) % ring.numSlots = ring.tail := by
    rw [← Nat.add_assoc, ← Nat.mod_add_mod, show (ring.kernel + ring.releasedCount) % _ = _ from toHead]
    exact toTail
  rw [← window_mod _ (ring.kernel + (ring.releasedCount + ring.space)), tail, second, ← whole] at first
  exact first

/-- No position is in two of the windows. -/
theorem Sound.nodup (sound : ring.Sound) :
    (window ring.numSlots ring.kernel ring.releasedCount ++ window ring.numSlots ring.head ring.space ++
      window ring.numSlots ring.tail (ring.numSlots - ring.releasedCount - ring.space)).Nodup :=
  sound.windows ▸ window_nodup sound.kernelInside le_rfl

/-- Other positions keep their slots. -/
theorem map_update {slots : Nat → Slot} {position : Nat} {slot : Slot} {positions : List Nat}
    (other : position ∉ positions) : positions.map (Function.update slots position slot) = positions.map slots := by
  apply List.map_congr_left
  intro index member
  exact Function.update_of_ne (ne_of_mem_of_not_mem member other) _ _

/-- The first owned slot moves behind the released ones. -/
theorem Sound.release (sound : ring.Sound) {first : Slot} {rest : List Slot} (owned : ring.owned = first :: rest)
    (slot : Slot) : ring.slots ring.head = first ∧ (ring.release slot).Sound ∧
      (ring.release slot).released = ring.released ++ [slot] ∧ (ring.release slot).owned = rest ∧
      (ring.release slot).reserved = ring.reserved := by
  have headInside := sound.headInside
  have ordered := sound.ordered
  have some : ring.space ≠ 0 := by
    intro none
    rw [SharedRing.owned, none] at owned
    cases owned
  have apart : ring.head ≠ ring.tail := by rwa [Ne, ← distance_eq_zero_iff headInside]
  have room : ring.releasedCount + 1 < ring.numSlots := by omega
  have more : (ring.release slot).releasedCount = ring.releasedCount + 1 := distance_next sound.kernelInside room
  have less : (ring.release slot).space + 1 = ring.space := next_distance headInside sound.tailInside apart
  have split : window ring.numSlots ring.head ring.space =
      ring.head :: window ring.numSlots (ring.next ring.head) (ring.release slot).space := by
    rw [← less, window_next headInside]
  have distinct := sound.nodup
  rw [split] at distinct
  have parts : ring.slots ring.head = first ∧
      (window ring.numSlots (ring.next ring.head) (ring.release slot).space).map ring.slots = rest := by
    rw [SharedRing.owned, split, List.map_cons] at owned
    exact List.cons.inj owned
  simp only [List.append_assoc, List.cons_append, List.nodup_append, List.nodup_cons, List.mem_append,
    List.mem_cons] at distinct
  refine ⟨parts.1, ⟨sound.kernelInside, next_inside headInside, sound.tailInside, ?_⟩, ?_, ?_, ?_⟩
  · rw [more]
    show _ < ring.numSlots
    omega
  · have reach : (ring.kernel + ring.releasedCount) % ring.numSlots = ring.head :=
      add_distance sound.kernelInside headInside
    rw [released, more]
    show (window ring.numSlots ring.kernel (ring.releasedCount + 1)).map (Function.update ring.slots ring.head slot) = _
    rw [window_extend reach, List.map_append, List.map_singleton, Function.update_self, map_update]
    · rfl
    · intro member
      exact distinct.2.2 _ member _ (.inl rfl) rfl
  · exact (map_update fun member => distinct.2.1.1 (.inl member)).trans parts.2
  · have same : ring.numSlots - (ring.release slot).releasedCount - (ring.release slot).space =
        ring.numSlots - ring.releasedCount - ring.space := by omega
    rw [reserved]
    show (window ring.numSlots ring.tail (ring.numSlots - (ring.release slot).releasedCount -
      (ring.release slot).space)).map (Function.update ring.slots ring.head slot) = _
    rw [same]
    exact map_update fun member => distinct.2.1.1 (.inr member)

/-- The first released slot moves behind the reserved ones. -/
theorem Sound.collect (sound : ring.Sound) {first : Slot} {rest : List Slot} (released : ring.released = first :: rest)
    (slot : Slot) : ring.slots ring.kernel = first ∧ (ring.collect slot).Sound ∧
      (ring.collect slot).released = rest ∧ (ring.collect slot).owned = ring.owned ∧
      (ring.collect slot).reserved = ring.reserved ++ [slot] := by
  have kernelInside := sound.kernelInside
  have ordered := sound.ordered
  have some : ring.releasedCount ≠ 0 := by
    intro none
    rw [SharedRing.released, none] at released
    cases released
  have apart : ring.kernel ≠ ring.head := by rwa [Ne, ← distance_eq_zero_iff kernelInside]
  have less : (ring.collect slot).releasedCount + 1 = ring.releasedCount :=
    next_distance kernelInside sound.headInside apart
  have split : window ring.numSlots ring.kernel ring.releasedCount =
      ring.kernel :: window ring.numSlots (ring.next ring.kernel) (ring.collect slot).releasedCount := by
    rw [← less, window_next kernelInside]
  have distinct := sound.nodup
  rw [split] at distinct
  have parts : ring.slots ring.kernel = first ∧
      (window ring.numSlots (ring.next ring.kernel) (ring.collect slot).releasedCount).map ring.slots = rest := by
    rw [SharedRing.released, split, List.map_cons] at released
    exact List.cons.inj released
  simp only [List.append_assoc, List.cons_append, List.nodup_cons, List.mem_append, not_or] at distinct
  refine ⟨parts.1, ⟨next_inside kernelInside, sound.headInside, sound.tailInside, ?_⟩, ?_, ?_, ?_⟩
  · show (ring.collect slot).releasedCount + ring.space < ring.numSlots
    omega
  · exact (map_update distinct.1.1).trans parts.2
  · exact map_update distinct.1.2.1
  · have more : ring.numSlots - (ring.collect slot).releasedCount - ring.space =
        ring.numSlots - ring.releasedCount - ring.space + 1 := by omega
    have whole : ring.releasedCount + (ring.space + (ring.numSlots - ring.releasedCount - ring.space)) =
        ring.numSlots := by omega
    have reach : (ring.tail + (ring.numSlots - ring.releasedCount - ring.space)) % ring.numSlots = ring.kernel := by
      have toHead : (ring.kernel + ring.releasedCount) % ring.numSlots = ring.head :=
        add_distance kernelInside sound.headInside
      have toTail : (ring.head + ring.space) % ring.numSlots = ring.tail :=
        add_distance sound.headInside sound.tailInside
      rw [← toTail, Nat.mod_add_mod, ← toHead, Nat.add_assoc, Nat.mod_add_mod, Nat.add_assoc, whole, Nat.add_mod_right,
        Nat.mod_eq_of_lt kernelInside]
    show (window ring.numSlots ring.tail (ring.numSlots - (ring.collect slot).releasedCount - ring.space)).map
      (Function.update ring.slots ring.kernel slot) = _
    rw [more, window_extend reach, List.map_append, List.map_singleton, Function.update_self,
      map_update distinct.1.2.2]
    rfl

/-- The first reserved slot moves behind the owned ones when another one stays. -/
theorem Sound.supply (sound : ring.Sound) {first other : Slot} {rest : List Slot}
    (reserved : ring.reserved = first :: other :: rest) (slot : Slot) :
    ring.slots ring.tail = first ∧ (ring.supply slot).Sound ∧ (ring.supply slot).released = ring.released ∧
      (ring.supply slot).owned = ring.owned ++ [slot] ∧ (ring.supply slot).reserved = other :: rest := by
  have tailInside := sound.tailInside
  have ordered := sound.ordered
  have count : ring.numSlots - ring.releasedCount - ring.space = rest.length + 2 := by
    have same := congrArg List.length reserved
    rwa [SharedRing.reserved, List.length_map, window_length] at same
  have room : ring.space + 1 < ring.numSlots := by omega
  have more : (ring.supply slot).space = ring.space + 1 := distance_next sound.headInside room
  have split : window ring.numSlots ring.tail (ring.numSlots - ring.releasedCount - ring.space) =
      ring.tail :: window ring.numSlots (ring.next ring.tail) (rest.length + 1) := by
    rw [count, window_next tailInside]
  have distinct := sound.nodup
  rw [split] at distinct
  have parts : ring.slots ring.tail = first ∧
      (window ring.numSlots (ring.next ring.tail) (rest.length + 1)).map ring.slots = other :: rest := by
    rw [SharedRing.reserved, split, List.map_cons] at reserved
    exact List.cons.inj reserved
  simp only [List.append_assoc, List.nodup_append, List.nodup_cons, List.mem_append, List.mem_cons] at distinct
  refine ⟨parts.1, ⟨sound.kernelInside, sound.headInside, next_inside tailInside, ?_⟩, ?_, ?_, ?_⟩
  · rw [more]
    show ring.releasedCount + (ring.space + 1) < ring.numSlots
    omega
  · exact map_update fun member => distinct.2.2 _ member _ (.inr (.inl rfl)) rfl
  · have reach : (ring.head + ring.space) % ring.numSlots = ring.tail := add_distance sound.headInside tailInside
    rw [owned, more]
    show (window ring.numSlots ring.head (ring.space + 1)).map (Function.update ring.slots ring.tail slot) = _
    rw [window_extend reach, List.map_append, List.map_singleton, Function.update_self, map_update]
    · rfl
    · intro member
      exact distinct.2.1.2.2 _ member _ (.inl rfl) rfl
  · have same : ring.numSlots - ring.releasedCount - (ring.supply slot).space = rest.length + 1 := by omega
    show (window ring.numSlots (ring.next ring.tail) (ring.numSlots - ring.releasedCount -
      (ring.supply slot).space)).map (Function.update ring.slots ring.tail slot) = _
    rw [same]
    exact (map_update distinct.2.1.2.1.1).trans parts.2

/-- Slots are owned as long as the head has not reached the tail. -/
theorem Sound.owned_cons (sound : ring.Sound) (some : ring.space ≠ 0) :
    ∃ rest, ring.owned = ring.slots ring.head :: rest := by
  obtain ⟨count, positive⟩ := Nat.exists_eq_succ_of_ne_zero some
  rw [owned, positive, window_next sound.headInside]
  exact ⟨_, rfl⟩

theorem Sound.released_cons (sound : ring.Sound) (some : ring.kernel ≠ ring.head) :
    ∃ rest, ring.released = ring.slots ring.kernel :: rest := by
  have positive : ring.releasedCount ≠ 0 := by rwa [releasedCount, Ne, distance_eq_zero_iff sound.kernelInside]
  obtain ⟨count, positive⟩ := Nat.exists_eq_succ_of_ne_zero positive
  rw [released, positive, window_next sound.kernelInside]
  exact ⟨_, rfl⟩

/-- Another slot stays reserved as long as the next tail is not the position of the kernel. -/
theorem Sound.reserved_cons (sound : ring.Sound) (room : ring.next ring.tail ≠ ring.kernel) :
    ∃ other rest, ring.reserved = ring.slots ring.tail :: other :: rest := by
  have ordered := sound.ordered
  have kernelInside := sound.kernelInside
  have headInside := sound.headInside
  have tailInside := sound.tailInside
  have several : 2 ≤ ring.numSlots - ring.releasedCount - ring.space := by
    unfold releasedCount space distance next at *
    split_ifs at * <;> omega
  obtain ⟨count, enough⟩ := Nat.exists_eq_add_of_le' several
  rw [reserved, enough, window_next tailInside, window_next (next_inside tailInside)]
  exact ⟨_, _, rfl⟩

end SharedRing

end RepublicAgent
