/-
This file reads bytes as words of a little-endian machine and writes the words back.
-/

import Mathlib.Tactic

namespace RepublicAgent.LittleEndian

/-- The first of two bytes is the lower half of a word. A single byte at the end is left out. -/
def words : List UInt8 → List UInt16
  | low :: high :: bytes => UInt16.ofNat (low.toNat + 256 * high.toNat) :: words bytes
  | _ => []

def bytes : List UInt16 → List UInt8
  | [] => []
  | word :: words => UInt8.ofNat word.toNat :: UInt8.ofNat (word.toNat / 256) :: bytes words

@[simp] theorem bytes_length (words : List UInt16) : (bytes words).length = 2 * words.length := by
  induction words with
  | nil => rfl
  | cons word words ih =>
      rw [bytes, List.length_cons, List.length_cons, ih, List.length_cons]
      omega

@[simp] theorem words_length (list : List UInt8) : (words list).length = list.length / 2 := by
  induction list using words.induct with
  | case1 low high list ih =>
      rw [words, List.length_cons, ih, List.length_cons, List.length_cons]
      omega
  | case2 list short =>
      cases list with
      | nil => rfl
      | cons low list =>
          cases list with
          | nil => simp [words]
          | cons high list => exact (short low high list rfl).elim

/-- The words are read back from their bytes. -/
theorem words_bytes (list : List UInt16) : words (bytes list) = list := by
  induction list with
  | nil => rfl
  | cons word list ih =>
      rw [bytes, words, ih]
      congr 1
      apply UInt16.toNat.inj
      have bounded := word.toNat_lt
      rw [UInt16.toNat_ofNat', UInt8.toNat_ofNat', UInt8.toNat_ofNat']
      omega

/-- Whole words are written as the bytes that they were read from. -/
theorem bytes_words {list : List UInt8} (even : 2 ∣ list.length) : bytes (words list) = list := by
  induction list using words.induct with
  | case1 low high list ih =>
      have rest : 2 ∣ list.length := by
        rw [List.length_cons, List.length_cons] at even
        omega
      rw [words, bytes, ih rest]
      congr 1
      · apply UInt8.toNat.inj
        have lower := low.toNat_lt
        have upper := high.toNat_lt
        rw [UInt8.toNat_ofNat', UInt16.toNat_ofNat']
        omega
      · congr 1
        apply UInt8.toNat.inj
        have lower := low.toNat_lt
        have upper := high.toNat_lt
        rw [UInt8.toNat_ofNat', UInt16.toNat_ofNat']
        omega
  | case2 list short =>
      cases list with
      | nil => rfl
      | cons low list =>
          cases list with
          | nil => exact absurd even (by simp)
          | cons high list => exact (short low high list rfl).elim

/-- A word is two bytes of the front. -/
theorem bytes_set (list : List UInt16) (index : Nat) (word : UInt16) :
    bytes (list.set index word) =
      ((bytes list).set (2 * index) (UInt8.ofNat word.toNat)).set (2 * index + 1) (UInt8.ofNat (word.toNat / 256)) := by
  induction list generalizing index with
  | nil => rfl
  | cons first list ih =>
      cases index with
      | zero => rfl
      | succ index =>
          rw [List.set_cons_succ, bytes, ih, bytes]
          rfl

end RepublicAgent.LittleEndian
