/-
This file gives the windows of consecutive positions on a cycle.
-/

import Mathlib.Tactic

namespace RepublicAgent.CyclicWindow

/-- The window lists `count` consecutive positions of a cycle from `first` on. -/
def window (size first count : Nat) : List Nat :=
  (List.range count).map fun index => (first + index) % size

/-- The number of steps from one position of a cycle to another. -/
def distance (size first last : Nat) : Nat := if first ≤ last then last - first else last + size - first

/-- A position in the next round turns once. -/
theorem mod_next_round {size position : Nat} (near : position < size + size) :
    position % size = if position < size then position else position - size := by
  split_ifs with before
  · exact Nat.mod_eq_of_lt before
  · rw [Nat.mod_eq_sub_mod (by omega), Nat.mod_eq_of_lt (by omega)]

@[simp] theorem window_zero (size first : Nat) : window size first 0 = [] := rfl

@[simp] theorem window_length (size first count : Nat) : (window size first count).length = count := by
  simp [window]

/-- A window continues where its first part ends. -/
theorem window_add (size first count more : Nat) :
    window size first (count + more) = window size first count ++ window size (first + count) more := by
  simp only [window, List.range_add, List.map_append, List.map_map]
  congr 2
  funext index
  simp [Nat.add_assoc]

/-- Whole turns of the first position do not change the window. -/
theorem window_mod (size first count : Nat) :
    window size (first % size) count = window size first count := by
  simp [window, Nat.mod_add_mod]

/-- A window that ends before the turn is an interval. -/
theorem window_inside {size first count : Nat} (inside : first + count ≤ size) :
    window size first count = List.range' first count := by
  rw [window, List.range'_eq_map_range]
  apply List.map_congr_left
  intro index member
  rw [List.mem_range] at member
  exact Nat.mod_eq_of_lt (by omega)

theorem window_singleton {size first : Nat} (inside : first < size) : window size first 1 = [first] := by
  simp [window, Nat.mod_eq_of_lt inside]

/-- A window over the turn is an interval up to the end and an interval from zero. -/
theorem window_turn {size first : Nat} (inside : first ≤ size) (rest : Nat) (fits : rest ≤ size) :
    window size first (size - first + rest) = List.range' first (size - first) ++ List.range' 0 rest := by
  rw [window_add, window_inside (by omega), show first + (size - first) = size by omega]
  congr 1
  rw [← window_mod, Nat.mod_self, window_inside (by omega)]

/-- The whole cycle holds every position once. -/
theorem window_full {size first : Nat} (inside : first < size) :
    (window size first size).Perm (List.range size) := by
  have split : size = size - first + first := by omega
  have turned := @window_turn size first (by omega) first (by omega)
  rw [← split] at turned
  rw [turned, List.range_eq_range']
  refine List.perm_append_comm.trans ?_
  have joined := List.range'_append_1 (s := 0) (m := first) (n := size - first)
  rw [Nat.zero_add, show first + (size - first) = size by omega] at joined
  rw [joined]

/-- No position occurs twice in a window of at most one turn. -/
theorem window_nodup {size first count : Nat} (inside : first < size) (fits : count ≤ size) :
    (window size first count).Nodup := by
  have whole := (window_full inside).nodup_iff.mpr List.nodup_range
  have split := window_add size first count (size - count)
  rw [show count + (size - count) = size by omega] at split
  rw [split] at whole
  exact (List.nodup_append.mp whole).1

theorem distance_lt {size first last : Nat} (firstInside : first < size) (lastInside : last < size) :
    distance size first last < size := by
  unfold distance
  split <;> omega

@[simp] theorem distance_self (size first : Nat) : distance size first first = 0 := by
  simp [distance]

/-- The distance leads from the first position to the last. -/
theorem add_distance {size first last : Nat} (firstInside : first < size) (lastInside : last < size) :
    (first + distance size first last) % size = last := by
  unfold distance
  split
  · rw [Nat.add_sub_cancel' (by assumption), Nat.mod_eq_of_lt lastInside]
  · rw [show first + (last + size - first) = last + size by omega, Nat.add_mod_right,
      Nat.mod_eq_of_lt lastInside]

theorem add_distance_succ {size first last : Nat} (firstInside : first < size) (lastInside : last < size) :
    (first + (distance size first last + 1)) % size = (last + 1) % size := by
  rw [← Nat.add_assoc, ← Nat.mod_add_mod, add_distance firstInside lastInside]

/-- A window reaches one position further when the next position is appended. -/
theorem window_extend {size first last count : Nat} (reach : (first + count) % size = last) :
    window size first (count + 1) = window size first count ++ [last] := by
  rw [window_add]
  simp [window, reach]

/-- A window reaches a later position over the gap between the two. -/
theorem window_jump {size first last gap position : Nat} (firstInside : first < size)
    (lastInside : last < size) (positionInside : position < size)
    (steps : distance size first position = distance size first last + 1 + gap) :
    window size first (distance size first position + 1) =
      window size first (distance size first last + 1) ++ window size (last + 1) gap ++ [position] := by
  have shifted := add_distance_succ firstInside lastInside
  rw [window_extend (add_distance firstInside positionInside), steps, window_add,
    ← window_mod size (first + _), shifted, window_mod]

/-- Two windows make a whole turn when the second leads back to the first position. -/
theorem window_close {size first last : Nat} (firstInside : first < size) (lastInside : last < size) :
    window size first size = window size first (distance size first last + 1) ++
      window size (last + 1) (distance size ((last + 1) % size) first) := by
  have shifted := add_distance_succ firstInside lastInside
  have total : size = distance size first last + 1 + distance size ((last + 1) % size) first := by
    by_cases turn : last + 1 < size
    · rw [Nat.mod_eq_of_lt turn]
      unfold distance
      split_ifs <;> omega
    · rw [show last + 1 = size by omega, Nat.mod_self]
      unfold distance
      split_ifs <;> omega
  have split := window_add size first (distance size first last + 1)
    (distance size ((last + 1) % size) first)
  rw [← total, ← window_mod size (first + _), shifted, window_mod] at split
  exact split

theorem mem_window {size first count : Nat} (firstInside : first < size) (fits : count ≤ size)
    (position : Nat) :
    position ∈ window size first count ↔ position < size ∧ distance size first position < count := by
  simp only [window, List.mem_map, List.mem_range]
  constructor
  · rintro ⟨index, below, rfl⟩
    have inside := Nat.mod_lt (first + index) (show 0 < size by omega)
    refine ⟨inside, ?_⟩
    by_cases before : first + index < size
    · rw [Nat.mod_eq_of_lt before, distance, if_pos (by omega)]
      omega
    · rw [Nat.mod_eq_sub_mod (by omega), Nat.mod_eq_of_lt (by omega), distance]
      split <;> omega
  · rintro ⟨inside, below⟩
    exact ⟨distance size first position, below, add_distance firstInside inside⟩

/-- The items go to consecutive slots of a cycle. -/
def writeWindow {Slot Item : Type} (merge : Slot → Item → Slot) (slots : List Slot) (first : Nat) :
    List Item → List Slot
  | [] => slots
  | item :: items =>
      writeWindow merge (slots.modify (first % slots.length) fun slot => merge slot item) (first + 1) items

section Writing

variable {Slot Item : Type} {merge : Slot → Item → Slot}

@[simp] theorem writeWindow_length (slots : List Slot) (first : Nat) (items : List Item) :
    (writeWindow merge slots first items).length = slots.length := by
  induction items generalizing slots first with
  | nil => rfl
  | cons item items ih => rw [writeWindow, ih, List.length_modify]

theorem window_succ (size first count : Nat) :
    window size first (count + 1) = first % size :: window size (first + 1) count := by
  rw [Nat.add_comm, window_add]
  rfl

/-- Whole turns of the first position write the same slots. -/
theorem writeWindow_congr {slots : List Slot} {first other : Nat}
    (same : first % slots.length = other % slots.length) (items : List Item) :
    writeWindow merge slots first items = writeWindow merge slots other items := by
  induction items generalizing slots first other with
  | nil => rfl
  | cons item items ih =>
      rw [writeWindow, writeWindow, same]
      apply ih
      rw [List.length_modify, ← Nat.mod_add_mod, same, Nat.mod_add_mod]

/-- Slots outside of the window stay. -/
theorem writeWindow_outside {slots : List Slot} {first position : Nat} {items : List Item}
    (outside : position ∉ window slots.length first items.length) :
    (writeWindow merge slots first items)[position]? = slots[position]? := by
  induction items generalizing slots first with
  | nil => rfl
  | cons item items ih =>
      rw [List.length_cons, window_succ, List.mem_cons, not_or] at outside
      rw [writeWindow, ih (by rw [List.length_modify]; exact outside.2),
        List.getElem?_modify_ne _ _ (Ne.symm outside.1)]

/-- Each item is merged into its slot of a window of at most one turn. -/
theorem writeWindow_inside {slots : List Slot} {first : Nat} {items : List Item}
    (fits : items.length ≤ slots.length) {index : Nat} (inside : index < items.length) :
    (writeWindow merge slots first items)[(first + index) % slots.length]? =
      (slots[(first + index) % slots.length]?).map fun slot => merge slot items[index] := by
  induction items generalizing slots first index with
  | nil => simp at inside
  | cons item items ih =>
      rw [List.length_cons] at fits inside
      have positive : 0 < slots.length := by omega
      have distinct : (window slots.length (first % slots.length) (items.length + 1)).Nodup :=
        window_nodup (Nat.mod_lt _ positive) fits
      rw [window_mod, window_succ, List.nodup_cons] at distinct
      rw [writeWindow]
      cases index with
      | zero =>
          rw [Nat.add_zero, writeWindow_outside (by rw [List.length_modify]; exact distinct.1)]
          simp
      | succ index =>
          have later : (first + (index + 1)) % slots.length ∈ window slots.length (first + 1) items.length := by
            rw [window, List.mem_map]
            exact ⟨index, List.mem_range.mpr (by omega), by rw [Nat.add_right_comm, Nat.add_assoc]⟩
          have other : first % slots.length ≠ (first + (index + 1)) % slots.length := by
            intro same
            exact distinct.1 (same ▸ later)
          have rest := @ih (slots.modify (first % slots.length) fun slot => merge slot item) (first + 1)
            (by rw [List.length_modify]; omega) index (by omega)
          rw [List.length_modify, Nat.add_right_comm, Nat.add_assoc, List.getElem?_modify_ne _ _ other] at rest
          exact rest

end Writing

end RepublicAgent.CyclicWindow
