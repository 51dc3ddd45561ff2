/-
This file models the names of the directory of an application and of the files of its broadcasts in `msg.c`.
-/

import RepublicAgent.Library.MachineInteger
import RepublicAgent.Library.Numerals
import RepublicAgent.Message.Types

namespace RepublicAgent
open MachineInteger Numerals

/-- The constant `BCD_DIR_PREFIX`. -/
def bcdDirPrefix : String := "/mnt/ramdisk/"

/-- The constant `FILENAME_LEN` includes the terminator. -/
def filenameLen : Nat := 128

/-- The conversions `%s`, `%0` with a width and `lx`, and `%ld`. -/
inductive FormatPart where
  | text (chars : String)
  | hex (width : Nat) (value : UInt64)
  | signed (value : UInt64)
deriving DecidableEq, Repr

def FormatPart.print : FormatPart → List Char
  | .text chars => chars.toList
  | .hex width value => numeral 16 width value.toNat
  | .signed value => decimal (s64 value.toNat)

/-- The terminator of the buffer is left out. -/
def sprintf (parts : List FormatPart) : List Char := parts.flatMap FormatPart.print

/-- Both format strings begin with the parts of the application. -/
def appIdParts (appId : AppID) : List FormatPart :=
  [.text bcdDirPrefix, .text "broadcast-", .hex 8 ((appId.msb &&& 0xffffffff00000000) >>> 32), .text "-",
    .hex 4 ((appId.msb &&& 0x00000000ffff0000) >>> 16), .text "-", .hex 4 (appId.msb &&& 0x000000000000ffff),
    .text "-", .hex 4 ((appId.lsb &&& 0xffff000000000000) >>> 48), .text "-",
    .hex 12 (appId.lsb &&& 0x0000ffffffffffff)]

/-- The identifier `data_id` is unsigned and printed as signed. -/
def bcdIdToFilename (bcdId : BcdID) : List Char :=
  sprintf (appIdParts bcdId.appId ++ [.text "/broadcast_", .signed bcdId.dataId])

def appIdToDir (appId : AppID) : List Char := sprintf (appIdParts appId ++ [.text "/"])

/-- The command `rm -rf` removes what is in the directory. The name of a directory ends with a slash. -/
def deleteDir (files : Finset (List Char)) (dir : List Char) : Finset (List Char) :=
  files.filter fun name => ¬ dir <+: name

example : bcdIdToFilename ⟨0x123456789abcdef, 0xfedc00000000001f, 0xffffffffffffffff⟩ =
    "/mnt/ramdisk/broadcast-01234567-89ab-cdef-fedc-00000000001f/broadcast_-1".toList := by decide

section Fields

/-- A masked field that is shifted down is a remainder of a quotient. -/
theorem toNat_field (word : UInt64) {mask shift : UInt64} {low width : Nat} (shifted : shift.toNat % 64 = low)
    (masked : mask.toNat >>> low = 2 ^ width - 1) :
    ((word &&& mask) >>> shift).toNat = word.toNat / 2 ^ low % 2 ^ width := by
  rw [UInt64.toNat_shiftRight, shifted, UInt64.toNat_and, Nat.shiftRight_and_distrib, masked,
    Nat.and_two_pow_sub_one_eq_mod, Nat.shiftRight_eq_div_pow]

theorem toNat_lowField (word : UInt64) {mask : UInt64} {width : Nat} (masked : mask.toNat = 2 ^ width - 1) :
    (word &&& mask).toNat = word.toNat % 2 ^ width := by
  rw [UInt64.toNat_and, masked, Nat.and_two_pow_sub_one_eq_mod]

end Fields

section Names

variable {appId other : AppID}

/-- The fields of an application cover all bits of its words. -/
theorem appIdParts_print (appId : AppID) : (appIdParts appId).map FormatPart.print =
    [bcdDirPrefix.toList, "broadcast-".toList, numeral 16 8 (appId.msb.toNat / 2 ^ 32 % 2 ^ 32), "-".toList,
      numeral 16 4 (appId.msb.toNat / 2 ^ 16 % 2 ^ 16), "-".toList, numeral 16 4 (appId.msb.toNat % 2 ^ 16),
      "-".toList, numeral 16 4 (appId.lsb.toNat / 2 ^ 48 % 2 ^ 16), "-".toList,
      numeral 16 12 (appId.lsb.toNat % 2 ^ 48)] := by
  have high : ((appId.msb &&& 0xffffffff00000000) >>> 32).toNat = appId.msb.toNat / 2 ^ 32 % 2 ^ 32 :=
    toNat_field appId.msb rfl rfl
  have middle : ((appId.msb &&& 0x00000000ffff0000) >>> 16).toNat = appId.msb.toNat / 2 ^ 16 % 2 ^ 16 :=
    toNat_field appId.msb rfl rfl
  have low : (appId.msb &&& 0x000000000000ffff).toNat = appId.msb.toNat % 2 ^ 16 :=
    toNat_lowField appId.msb rfl
  have top : ((appId.lsb &&& 0xffff000000000000) >>> 48).toNat = appId.lsb.toNat / 2 ^ 48 % 2 ^ 16 :=
    toNat_field appId.lsb rfl rfl
  have bottom : (appId.lsb &&& 0x0000ffffffffffff).toNat = appId.lsb.toNat % 2 ^ 48 :=
    toNat_lowField appId.lsb rfl
  simp only [appIdParts, List.map_cons, List.map_nil, FormatPart.print, high, middle, low, top, bottom]

/-- Each part of an application has a fixed width. -/
theorem appIdParts_widths (appId : AppID) :
    ((appIdParts appId).map FormatPart.print).map List.length = [13, 10, 8, 1, 4, 1, 4, 1, 4, 1, 12] := by
  have width {digits value : Nat} (fits : value < 16 ^ digits) : (numeral 16 digits value).length = digits :=
    length_numeral_of_lt (by decide) fits
  have prefixLength : bcdDirPrefix.toList.length = 13 := by decide
  have nameLength : "broadcast-".toList.length = 10 := by decide
  have dashLength : "-".toList.length = 1 := by decide
  simp only [appIdParts_print, List.map_cons, List.map_nil, prefixLength, nameLength, dashLength]
  rw [width (by omega), width (by omega), width (by omega), width (by omega), width (by omega)]

/-- The text of an application determines it. -/
theorem appIdParts_injective (same : sprintf (appIdParts appId) = sprintf (appIdParts other)) : appId = other := by
  have texts : (appIdParts appId).map FormatPart.print = (appIdParts other).map FormatPart.print :=
    List.eq_iff_flatten_eq.mpr ⟨same, (appIdParts_widths appId).trans (appIdParts_widths other).symm⟩
  have read {digits value second : Nat} (equal : numeral 16 digits value = numeral 16 digits second) :
      value = second := numeral_injective (by decide) (by decide) digits equal
  simp only [appIdParts_print, List.cons.injEq, true_and, and_true] at texts
  obtain ⟨high, middle, low, top, bottom⟩ := texts
  have msb : appId.msb.toNat = other.msb.toNat := by
    have bounds := And.intro appId.msb.toNat_lt other.msb.toNat_lt
    have fields := And.intro (read high) (And.intro (read middle) (read low))
    omega
  have lsb : appId.lsb.toNat = other.lsb.toNat := by
    have bounds := And.intro appId.lsb.toNat_lt other.lsb.toNat_lt
    have fields := And.intro (read top) (read bottom)
    omega
  cases appId
  exact AppID.mk.injEq .. ▸ ⟨UInt64.toNat_inj.mp msb, UInt64.toNat_inj.mp lsb⟩

theorem sprintf_append (first second : List FormatPart) :
    sprintf (first ++ second) = sprintf first ++ sprintf second := List.flatMap_append

theorem length_appIdToDir (appId : AppID) : (appIdToDir appId).length = 60 := by
  have application : (sprintf (appIdParts appId)).length = 59 := by
    rw [sprintf, List.flatMap_def, List.length_flatten, appIdParts_widths]
    decide
  have slash : (sprintf [.text "/"]).length = 1 := by decide
  rw [appIdToDir, sprintf_append, List.length_append, application, slash]

theorem appIdToDir_injective : Function.Injective appIdToDir := by
  intro appId other same
  unfold appIdToDir at same
  rw [sprintf_append, sprintf_append] at same
  exact appIdParts_injective (List.append_cancel_right same)

/-- A broadcast lies in the directory of its application. -/
theorem bcdIdToFilename_eq (bcdId : BcdID) : bcdIdToFilename bcdId =
    appIdToDir bcdId.appId ++ ("broadcast_".toList ++ decimal (s64 bcdId.dataId.toNat)) := by
  have slash : "/broadcast_".toList = "/".toList ++ "broadcast_".toList := by decide
  have name : sprintf [.text "/broadcast_", .signed bcdId.dataId] =
      sprintf [.text "/"] ++ ("broadcast_".toList ++ decimal (s64 bcdId.dataId.toNat)) := by
    simp only [sprintf, FormatPart.print, List.flatMap_cons, List.flatMap_nil, List.append_nil, slash,
      List.append_assoc]
  rw [bcdIdToFilename, appIdToDir, sprintf_append, sprintf_append, name, List.append_assoc]

/-- The signed value of an identifier determines it. -/
theorem signedDataId_injective {first second : UInt64} (same : s64 first.toNat = s64 second.toNat) :
    first = second := by
  have bounds := And.intro first.toNat_lt second.toNat_lt
  unfold s64 signed at same
  rw [Int.bmod_def, Int.bmod_def] at same
  rw [← UInt64.toNat_inj]
  split_ifs at same <;> omega

/-- A directory is a prefix of the names in it only. -/
theorem appIdToDir_prefix_iff (appId : AppID) (bcdId : BcdID) :
    appIdToDir appId <+: bcdIdToFilename bcdId ↔ appId = bcdId.appId := by
  have own : appIdToDir bcdId.appId <+: bcdIdToFilename bcdId := by
    rw [bcdIdToFilename_eq]
    exact List.prefix_append ..
  constructor
  · intro inside
    have lengths := (length_appIdToDir appId).trans (length_appIdToDir bcdId.appId).symm
    exact appIdToDir_injective ((List.prefix_of_prefix_length_le inside own lengths.le).eq_of_length lengths)
  · rintro rfl
    exact own

theorem bcdIdToFilename_injective : Function.Injective bcdIdToFilename := by
  intro first second same
  rw [bcdIdToFilename_eq, bcdIdToFilename_eq] at same
  have lengths := (length_appIdToDir first.appId).trans (length_appIdToDir second.appId).symm
  obtain ⟨directory, name⟩ := List.append_inj same lengths
  obtain ⟨msb, lsb⟩ := AppID.mk.inj (appIdToDir_injective directory)
  have data := signedDataId_injective (decimal_injective (List.append_cancel_left name))
  cases first
  exact BcdID.mk.injEq .. ▸ ⟨msb, lsb, data⟩

theorem length_bcdIdToFilename (bcdId : BcdID) : (bcdIdToFilename bcdId).length ≤ 90 := by
  have digits : (decimal (s64 bcdId.dataId.toNat)).length ≤ 19 + 1 := by
    apply length_decimal_le (by decide)
    have bound := bcdId.dataId.toNat_lt
    unfold s64 signed
    rw [Int.bmod_def]
    split_ifs <;> omega
  have name : "broadcast_".toList.length = 10 := by decide
  rw [bcdIdToFilename_eq, List.length_append, List.length_append, length_appIdToDir, name]
  omega

end Names

/-- The names of broadcasts are distinct, the directory of an application holds its own broadcasts only, and all
names fit their buffers. -/
theorem fileNames_distinct :
    (∀ first second, bcdIdToFilename first = bcdIdToFilename second ↔ first = second) ∧
      (∀ appId bcdId, appIdToDir appId <+: bcdIdToFilename bcdId ↔ appId = bcdId.appId) ∧
      (∀ files appId bcdId, bcdIdToFilename bcdId ∈ deleteDir files (appIdToDir appId) ↔
        bcdIdToFilename bcdId ∈ files ∧ appId ≠ bcdId.appId) ∧
      (∀ bcdId, (bcdIdToFilename bcdId).length + 1 ≤ filenameLen) ∧
      ∀ appId, (appIdToDir appId).length + 1 ≤ filenameLen := by
  refine ⟨fun _ _ => bcdIdToFilename_injective.eq_iff, appIdToDir_prefix_iff, ?_, ?_, ?_⟩
  · intro files appId bcdId
    rw [deleteDir, Finset.mem_filter, appIdToDir_prefix_iff]
  · intro bcdId
    have fits := length_bcdIdToFilename bcdId
    unfold filenameLen
    omega
  · intro appId
    rw [length_appIdToDir]
    decide

end RepublicAgent
