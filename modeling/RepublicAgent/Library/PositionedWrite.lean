/-
This file models a file as a list of cells that grows under positioned writes.
-/

import Mathlib.Tactic

namespace RepublicAgent.PositionedWrite

section Cells

variable {Cell : Type}

/-- A write past the end fills the hole with the blank cell. An empty write has no effect. -/
def writeAt (blank : Cell) (file : List Cell) (position : Nat) (cells : List Cell) : List Cell :=
  if cells = [] then file
  else (file ++ List.replicate (position - file.length) blank).take position ++ cells ++
    file.drop (position + cells.length)

/-- The two lists hold the same cells from `first` up to `last`. -/
def AgreesOn (file expected : List Cell) (first last : Nat) : Prop :=
  ∀ index, first ≤ index → index < last → file[index]? = expected[index]?

@[simp] theorem writeAt_nil (blank : Cell) (file : List Cell) (position : Nat) :
    writeAt blank file position [] = file := by
  simp [writeAt]

/-- The kept part of a write has exactly the length of the write position. -/
theorem writeAt_kept_length (blank : Cell) (file : List Cell) (position : Nat) :
    ((file ++ List.replicate (position - file.length) blank).take position).length = position := by
  simp only [List.length_take, List.length_append, List.length_replicate]
  omega

theorem writeAt_length (blank : Cell) (file : List Cell) (position : Nat) (cells : List Cell)
    (nonempty : cells ≠ []) :
    (writeAt blank file position cells).length = max file.length (position + cells.length) := by
  rw [writeAt, if_neg nonempty, List.length_append, List.length_append, writeAt_kept_length,
    List.length_drop]
  omega

theorem writeAt_length_le (blank : Cell) (file : List Cell) (position : Nat) (cells : List Cell)
    (bound : Nat) (fileFits : file.length ≤ bound) (cellsFit : position + cells.length ≤ bound) :
    (writeAt blank file position cells).length ≤ bound := by
  by_cases empty : cells = []
  · simpa [empty] using fileFits
  · rw [writeAt_length blank file position cells empty]
    omega

/-- A write puts its own cells at its position. -/
theorem writeAt_inside (blank : Cell) (file : List Cell) (position : Nat) (cells : List Cell)
    (index : Nat) (lower : position ≤ index) (upper : index < position + cells.length) :
    (writeAt blank file position cells)[index]? = cells[index - position]? := by
  have nonempty : cells ≠ [] := by
    rintro rfl
    simp at upper
    omega
  have kept := writeAt_kept_length blank file position
  rw [writeAt, if_neg nonempty, List.append_assoc, List.getElem?_append_right (by omega), kept,
    List.getElem?_append_left (by omega)]

/-- A write keeps every cell of the file outside its range. -/
theorem writeAt_outside (blank : Cell) (file : List Cell) (position : Nat) (cells : List Cell)
    (index : Nat) (present : index < file.length)
    (outside : index < position ∨ position + cells.length ≤ index) :
    (writeAt blank file position cells)[index]? = file[index]? := by
  by_cases empty : cells = []
  · simp [empty]
  have kept := writeAt_kept_length blank file position
  rw [writeAt, if_neg empty, List.append_assoc]
  rcases outside with before | after
  · rw [List.getElem?_append_left (by omega), List.getElem?_take_of_lt before,
      List.getElem?_append_left present]
  · rw [List.getElem?_append_right (by omega), kept, List.getElem?_append_right (by omega),
      List.getElem?_drop]
    congr 1
    omega

/-- A hole reads as blank. -/
theorem writeAt_hole (blank : Cell) (file : List Cell) (position : Nat) (cells : List Cell)
    (nonempty : cells ≠ []) (index : Nat) (absent : file.length ≤ index) (before : index < position) :
    (writeAt blank file position cells)[index]? = some blank := by
  have kept := writeAt_kept_length blank file position
  rw [writeAt, if_neg nonempty, List.append_assoc, List.getElem?_append_left (by omega),
    List.getElem?_take_of_lt before, List.getElem?_append_right absent,
    List.getElem?_replicate_of_lt (by omega)]

/-- An append puts its cells behind the whole file. -/
theorem writeAt_end (blank : Cell) (file cells : List Cell) :
    writeAt blank file file.length cells = file ++ cells := by
  by_cases empty : cells = []
  · simp [empty]
  · simp [writeAt, empty]

theorem AgreesOn.mono {file expected : List Cell} {first last first' last' : Nat}
    (agrees : AgreesOn file expected first last) (lower : first ≤ first') (upper : last' ≤ last) :
    AgreesOn file expected first' last' :=
  fun index above below => agrees index (by omega) (by omega)

theorem AgreesOn.empty (file expected : List Cell) {first last : Nat} (none : last ≤ first) :
    AgreesOn file expected first last :=
  fun _ _ _ => by omega

/-- Adjacent agreeing ranges join. -/
theorem AgreesOn.join {file expected : List Cell} {first middle last : Nat}
    (left : AgreesOn file expected first middle) (right : AgreesOn file expected middle last) :
    AgreesOn file expected first last := by
  intro index lower upper
  by_cases before : index < middle
  · exact left index lower before
  · exact right index (by omega) upper

/-- The expected list may be exchanged for one that agrees with it. -/
theorem AgreesOn.trans {file expected other : List Cell} {first last : Nat}
    (agrees : AgreesOn file expected first last) (same : AgreesOn expected other first last) :
    AgreesOn file other first last :=
  fun index lower upper => (agrees index lower upper).trans (same index lower upper)

/-- A file of the expected length that agrees everywhere is the expected list. -/
theorem AgreesOn.eq {file expected : List Cell}
    (agrees : AgreesOn file expected 0 expected.length) (fits : file.length ≤ expected.length) :
    file = expected := by
  apply List.ext_getElem?
  intro index
  by_cases inside : index < expected.length
  · exact agrees index (Nat.zero_le _) inside
  · rw [List.getElem?_eq_none (by omega), List.getElem?_eq_none (by omega)]

/-- A write of the expected cells brings its own range into agreement. -/
theorem AgreesOn.written (blank : Cell) (file expected : List Cell) (position count : Nat)
    (fits : position + count ≤ expected.length) :
    AgreesOn (writeAt blank file position ((expected.drop position).take count)) expected
      position (position + count) := by
  intro index lower upper
  have size : ((expected.drop position).take count).length = count := by
    simp only [List.length_take, List.length_drop]
    omega
  rw [writeAt_inside _ _ _ _ _ lower (by omega), List.getElem?_take_of_lt (by omega),
    List.getElem?_drop]
  congr 1
  omega

/-- A write of the expected cells never breaks an agreement, wherever it lands. -/
theorem AgreesOn.writeAt {blank : Cell} {file expected : List Cell} {first last : Nat}
    (agrees : AgreesOn file expected first last) (position count : Nat)
    (fits : position + count ≤ expected.length) (within : last ≤ expected.length) :
    AgreesOn (writeAt blank file position ((expected.drop position).take count)) expected
      first last := by
  intro index lower upper
  have size : ((expected.drop position).take count).length = count := by
    simp only [List.length_take, List.length_drop]
    omega
  by_cases inside : position ≤ index ∧ index < position + count
  · exact AgreesOn.written blank file expected position count fits index inside.1 inside.2
  · have kept := agrees index lower upper
    have present : index < file.length := by
      by_contra absent
      rw [List.getElem?_eq_none (by omega), List.getElem?_eq_getElem (by omega)] at kept
      exact absurd kept (by simp)
    rw [writeAt_outside _ _ _ _ _ present (by omega), kept]

/-- Agreement on adjacent tiles is agreement on their union. -/
theorem AgreesOn.tiles {file expected : List Cell} (boundary : Nat → Nat) (first count : Nat)
    (each : ∀ tile, first ≤ tile → tile < first + count →
      AgreesOn file expected (boundary tile) (boundary (tile + 1))) :
    AgreesOn file expected (boundary first) (boundary (first + count)) := by
  induction count with
  | zero => exact AgreesOn.empty file expected (le_refl _)
  | succ count ih =>
      have before := ih fun tile above below => each tile above (by omega)
      exact before.join (each (first + count) (by omega) (by omega))

end Cells

end RepublicAgent.PositionedWrite
