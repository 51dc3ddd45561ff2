/-
This file prints natural numbers and integers as numerals of a minimal width and reads them back.
-/

import Mathlib.Data.Nat.Digits.Lemmas
import Mathlib.Tactic

namespace RepublicAgent.Numerals

/-- The digits have the most significant one first, with zeros before it up to the width. -/
def numeral (base width value : Nat) : List Char :=
  ((Nat.digits base value).reverse.map Nat.digitChar).leftpad width '0'

/-- A negative number has a sign before its numeral. -/
def decimal (value : Int) : List Char :=
  (if value < 0 then ['-'] else []) ++ numeral 10 1 value.natAbs

/-- The value of a lower case digit. -/
def digitValue (digit : Char) : Nat :=
  if digit.toNat < 'a'.toNat then digit.toNat - '0'.toNat else digit.toNat - 'a'.toNat + 10

def readNumeral (base : Nat) (text : List Char) : Nat := Nat.ofDigits base (text.reverse.map digitValue)

section Numerals

variable {base width value : Nat}

theorem digitValue_digitChar {digit : Nat} (small : digit < 16) : digitValue digit.digitChar = digit := by
  interval_cases digit <;> rfl

/-- The padding of a numeral does not change its value. -/
theorem readNumeral_numeral (several : 1 < base) (few : base ≤ 16) (width value : Nat) :
    readNumeral base (numeral base width value) = value := by
  have read : (Nat.digits base value).map (digitValue ∘ Nat.digitChar) = Nat.digits base value := by
    have same : ∀ digit ∈ Nat.digits base value, (digitValue ∘ Nat.digitChar) digit = id digit := by
      intro digit member
      exact digitValue_digitChar ((Nat.digits_lt_base several member).trans_le few)
    rw [List.map_congr_left same, List.map_id]
  have zeros : digitValue '0' = 0 := rfl
  rw [readNumeral, numeral, List.leftpad, List.reverse_append, ← List.map_reverse, List.reverse_reverse,
    List.map_append, List.map_map, read, List.reverse_replicate, List.map_replicate, zeros,
    Nat.ofDigits_append_replicate_zero, Nat.ofDigits_digits]

theorem numeral_injective (several : 1 < base) (few : base ≤ 16) (width : Nat) :
    Function.Injective (numeral base width) :=
  Function.LeftInverse.injective (readNumeral_numeral several few width)

theorem length_numeral (base width value : Nat) :
    (numeral base width value).length = max width (Nat.digits base value).length := by
  rw [numeral, List.length_leftpad, List.length_map, List.length_reverse]

/-- A value that fits the width fills it. -/
theorem length_numeral_of_lt (several : 1 < base) (fits : value < base ^ width) :
    (numeral base width value).length = width := by
  rw [length_numeral]
  exact max_eq_left ((Nat.digits_length_le_iff several value).mpr fits)

/-- A numeral has no more characters than its width or the width of its value. -/
theorem length_numeral_le (several : 1 < base) {bound : Nat} (wide : width ≤ bound)
    (fits : value < base ^ bound) : (numeral base width value).length ≤ bound := by
  rw [length_numeral]
  exact max_le wide ((Nat.digits_length_le_iff several value).mpr fits)

/-- The characters of a decimal numeral are digits. -/
theorem sign_notMem_numeral (width value : Nat) : '-' ∉ numeral 10 width value := by
  intro member
  rcases List.mem_append.mp member with padding | digits
  · cases List.eq_of_mem_replicate padding
  · obtain ⟨digit, inside, equal⟩ := List.mem_map.mp digits
    have small := Nat.digits_lt_base (show 1 < 10 by decide) (List.mem_reverse.mp inside)
    interval_cases digit <;> cases equal

/-- The characters of a numeral are digits. -/
theorem mem_numeral {char : Char} (several : 1 < base) (few : base ≤ 16) (member : char ∈ numeral base width value) :
    ∃ digit < 16, char = Nat.digitChar digit := by
  rcases List.mem_append.mp member with padding | digits
  · exact ⟨0, by decide, List.eq_of_mem_replicate padding⟩
  · obtain ⟨digit, inside, rfl⟩ := List.mem_map.mp digits
    exact ⟨digit, (Nat.digits_lt_base several (List.mem_reverse.mp inside)).trans_le few, rfl⟩

theorem decimal_injective : Function.Injective decimal := by
  intro first second same
  have read := numeral_injective (show 1 < 10 by decide) (by decide) 1
  unfold decimal at same
  split_ifs at same with negative below below
  · have equal := read (List.append_cancel_left same)
    omega
  · exfalso
    apply sign_notMem_numeral 1 second.natAbs
    rw [List.nil_append] at same
    rw [← same]
    exact List.mem_cons_self
  · exfalso
    apply sign_notMem_numeral 1 first.natAbs
    rw [List.nil_append] at same
    rw [same]
    exact List.mem_cons_self
  · have equal := read (List.append_cancel_left same)
    omega

/-- A sign and the digits of the absolute value. -/
theorem length_decimal_le {value : Int} {bound : Nat} (wide : 1 ≤ bound) (fits : value.natAbs < 10 ^ bound) :
    (decimal value).length ≤ bound + 1 := by
  have digits := length_numeral_le (show 1 < 10 by decide) wide fits
  rw [decimal, List.length_append]
  split_ifs
  · rw [List.length_singleton]
    omega
  · rw [List.length_nil]
    omega

end Numerals

/-- The first separator ends the first part. -/
theorem append_cons_inj {Item : Type} {separator : Item} {first second left right : List Item}
    (plain : separator ∉ first) (other : separator ∉ second)
    (same : first ++ separator :: left = second ++ separator :: right) : first = second ∧ left = right := by
  induction first generalizing second with
  | nil =>
      cases second with
      | nil => exact ⟨rfl, (List.cons.inj same).2⟩
      | cons item second =>
          have equal : separator = item := (List.cons.inj same).1
          exact absurd (equal ▸ List.mem_cons_self) other
  | cons item first ih =>
      cases second with
      | nil =>
          have equal : item = separator := (List.cons.inj same).1
          exact absurd (equal ▸ List.mem_cons_self) plain
      | cons head second =>
          obtain ⟨rfl, rest⟩ := List.cons.inj same
          obtain ⟨equal, behind⟩ := ih (fun member => plain (List.mem_cons_of_mem _ member))
            (fun member => other (List.mem_cons_of_mem _ member)) rest
          exact ⟨congrArg _ equal, behind⟩

end RepublicAgent.Numerals
