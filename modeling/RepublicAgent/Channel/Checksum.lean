/-
This file models the checksum of an IP header in `checksum.c`.
-/

import RepublicAgent.Library.MachineInteger
import RepublicAgent.Library.OnesComplement

namespace RepublicAgent
open MachineInteger OnesComplement

/-- A byte that is left at the end counts with its value on a little-endian machine. -/
def sumWords : List UInt16 → Nat → Nat → Nat
  | word :: addr, count + 2, sum => sumWords addr count (sum + word.toNat)
  | word :: _, 1, sum => sum + (word &&& 0x00ff).toNat
  | _, _, sum => sum

/-- The loop moves the carriers of the `unsigned long` sum into its lower half. -/
def foldSum (sum : Nat) : Nat := foldCarries (show 1 < 2 ^ 16 by decide) sum

/-- The complement has the width of an `unsigned long`. -/
def computeChecksum (addr : List UInt16) (count : Nat) : UInt16 :=
  UInt16.ofNat (2 ^ 64 - 1 - foldSum (sumWords addr count 0))

/-- The field `ihl` is the lower half of the first byte. -/
def ihl (words : List UInt16) : Nat := (words.headD 0).toNat % 16

/-- A header has five to fifteen lines of four bytes. The field `check` is the sixth word. -/
structure IpHdr where
  words : List UInt16
  complete : words.length = 2 * ihl words
  long : 5 ≤ ihl words
deriving DecidableEq

/-- A word of a header is replaced by one that leaves the field `ihl`. -/
def IpHdr.replace (hdr : IpHdr) (index : Nat) (word : UInt16)
    (kept : ihl (hdr.words.set index word) = ihl hdr.words) : IpHdr where
  words := hdr.words.set index word
  complete := by rw [List.length_set, kept, hdr.complete]
  long := kept ▸ hdr.long

theorem ihl_set_check (words : List UInt16) (word : UInt16) : ihl (words.set 5 word) = ihl words := by
  cases words <;> rfl

/-- The field is zero while the sum is taken. -/
def computeIpChecksum (hdr : IpHdr) : IpHdr :=
  let cleared := hdr.replace 5 0 (ihl_set_check hdr.words 0)
  cleared.replace 5 (computeChecksum cleared.words (ihl cleared.words <<< 2)) (ihl_set_check cleared.words _)

def validateIpChecksum (hdr : IpHdr) : UInt16 := computeChecksum hdr.words (ihl hdr.words <<< 2)

section Sums

variable {hdr : IpHdr} {words : List UInt16}

/-- An even count takes the sum of the words. -/
theorem sumWords_eq (words : List UInt16) (sum : Nat) :
    sumWords words (2 * words.length) sum = sum + (words.map UInt16.toNat).sum := by
  induction words generalizing sum with
  | nil => rfl
  | cons word addr ih =>
      rw [List.length_cons, Nat.mul_succ, sumWords, ih, List.map_cons, List.sum_cons, Nat.add_assoc]

/-- The complement of the largest folded sum is zero. -/
theorem complement_toNat (sum : Nat) : (UInt16.ofNat (2 ^ 64 - 1 - foldSum sum)).toNat = 2 ^ 16 - 1 - foldSum sum := by
  have bounded : foldSum sum < 2 ^ 16 := foldCarries_lt _ sum
  rw [UInt16.toNat_ofNat']
  omega

/-- The count of a header covers its words. -/
theorem checksum_toNat (hdr : IpHdr) :
    (validateIpChecksum hdr).toNat = 2 ^ 16 - 1 - foldSum (hdr.words.map UInt16.toNat).sum := by
  have count : ihl hdr.words <<< 2 = 2 * hdr.words.length := by
    rw [hdr.complete, Nat.shiftLeft_eq]
    omega
  rw [validateIpChecksum, computeChecksum, complement_toNat, count, sumWords_eq, Nat.zero_add]

/-- A header is valid when its sum folds to the largest word. -/
theorem validateIpChecksum_eq_zero_iff (hdr : IpHdr) :
    validateIpChecksum hdr = 0 ↔ foldSum (hdr.words.map UInt16.toNat).sum = 2 ^ 16 - 1 := by
  have bounded : foldSum (hdr.words.map UInt16.toNat).sum < 2 ^ 16 := foldCarries_lt _ _
  rw [← UInt16.toNat_inj, checksum_toNat, UInt16.toNat_zero]
  omega

/-- Each word counts once in the sum. -/
theorem sum_set {index : Nat} (inside : index < words.length) : ∃ rest, ∀ word,
    ((words.set index word).map UInt16.toNat).sum = rest + word.toNat := by
  refine ⟨((words.take index).map UInt16.toNat).sum + ((words.drop (index + 1)).map UInt16.toNat).sum, ?_⟩
  intro word
  rw [List.set_eq_take_append_cons_drop, if_pos inside, List.map_append, List.map_cons, List.sum_append, List.sum_cons]
  omega

/-- The first word holds the positive field `ihl`. -/
theorem IpHdr.sum_pos (hdr : IpHdr) : 0 < (hdr.words.map UInt16.toNat).sum := by
  have long := hdr.long
  have complete := hdr.complete
  cases present : hdr.words with
  | nil =>
      rw [present] at complete long
      exact absurd (complete.symm.le.trans_lt (by decide : 0 < 2 * 5)) (by omega)
  | cons word addr =>
      rw [present] at long
      have first : word.toNat % 16 = ihl (word :: addr) := rfl
      rw [List.map_cons, List.sum_cons]
      omega

/-- The word `check` is inside of each header. -/
theorem IpHdr.check_inside (hdr : IpHdr) : 5 < hdr.words.length := by
  have long := hdr.long
  rw [hdr.complete]
  omega

/-- The computed checksum completes the sum of the other words. -/
theorem validate_computeIpChecksum (hdr : IpHdr) : validateIpChecksum (computeIpChecksum hdr) = 0 := by
  obtain ⟨rest, sums⟩ := sum_set hdr.check_inside
  let cleared := hdr.replace 5 0 (ihl_set_check hdr.words 0)
  have sum : (cleared.words.map UInt16.toNat).sum = rest := sums 0
  have check : (validateIpChecksum cleared).toNat = 2 ^ 16 - 1 - foldSum rest := sum ▸ checksum_toNat cleared
  have words : (computeIpChecksum hdr).words = hdr.words.set 5 (validateIpChecksum cleared) := List.set_set ..
  rw [validateIpChecksum_eq_zero_iff, words, sums, check]
  exact foldCarries_add_complement _ rest

/-- A valid header stays valid when a word is replaced by an equal one or by the other zero. -/
theorem validate_replace_iff (hdr : IpHdr) (valid : validateIpChecksum hdr = 0) {index : Nat}
    (inside : index < hdr.words.length) {word : UInt16}
    (kept : ihl (hdr.words.set index word) = ihl hdr.words) :
    validateIpChecksum (hdr.replace index word kept) = 0 ↔ word = hdr.words[index] ∨
      hdr.words[index] = 0x0000 ∧ word = 0xffff ∨ hdr.words[index] = 0xffff ∧ word = 0x0000 := by
  obtain ⟨rest, sums⟩ := sum_set inside
  have before := sums hdr.words[index]
  rw [List.set_getElem_self] at before
  have after : ((hdr.replace index word kept).words.map UInt16.toNat).sum = rest + word.toNat := sums word
  have positive := (hdr.replace index word kept).sum_pos
  rw [after] at positive
  rw [validateIpChecksum_eq_zero_iff, before] at valid
  rw [validateIpChecksum_eq_zero_iff, after]
  have same := foldCarries_replace_iff _ positive hdr.words[index].toNat_lt word.toNat_lt valid
  rw [foldSum, same]
  simp only [← UInt16.toNat_inj]
  rfl

end Sums

/-- A computed checksum is valid. In a valid header every other word is noticed, but for the two words that are
zero as complements. -/
theorem ipChecksum_detects :
    (∀ hdr, validateIpChecksum (computeIpChecksum hdr) = 0) ∧
      ∀ hdr : IpHdr, validateIpChecksum hdr = 0 → ∀ (index : Nat) (inside : index < hdr.words.length)
        (word : UInt16) (kept : ihl (hdr.words.set index word) = ihl hdr.words),
        validateIpChecksum (hdr.replace index word kept) = 0 ↔ word = hdr.words[index] ∨
          hdr.words[index] = 0x0000 ∧ word = 0xffff ∨ hdr.words[index] = 0xffff ∧ word = 0x0000 :=
  ⟨validate_computeIpChecksum, fun hdr valid _ inside _ kept => validate_replace_iff hdr valid inside kept⟩

/-- A header of ten words without its checksum. -/
def shortHdr : IpHdr where
  words := [0x0045, 0x3400, 0, 0x0040, 0x1140, 0, 0x000a, 0x0100, 0x000a, 0x0200]
  complete := by decide
  long := by decide

/-- The length of the packet is replaced, and the checksum does not fit any more. -/
theorem ipChecksum_detects_shortHdr :
    validateIpChecksum ((computeIpChecksum shortHdr).replace 1 0x3500 rfl) ≠ 0 := by
  have valid := ipChecksum_detects.1 shortHdr
  have inside : 1 < (computeIpChecksum shortHdr).words.length := by decide
  have noticed := (ipChecksum_detects.2 (computeIpChecksum shortHdr) valid 1 inside 0x3500 rfl).not
  rw [ne_eq, noticed]
  have word : (computeIpChecksum shortHdr).words[1] = 0x3400 := rfl
  rw [word]
  decide

end RepublicAgent
