/-
This file fixes one broadcast and the packets into which the sender cuts its data.
-/

import RepublicAgent.Library.Slices
import RepublicAgent.Receiver.State

namespace RepublicAgent
open MachineInteger Slices

/-- A broadcast carries the bounds that its C types and its packet format impose. -/
structure Broadcast where
  bcdId : BcdID
  appId : List UInt8
  data : List UInt8
  payloadLen : Nat
  appIdShort : appId.length < appIdLen
  dataPositive : 0 < data.length
  payloadPositive : 0 < payloadLen
  payloadFits : payloadLen < 65536
  seqMaxFits : (data.length + payloadLen - 1) / payloadLen < 4294967296

/-- The exact quotient rounds up to the number of slices. -/
theorem ceilQuotient_natCast {length width : Nat} (positive : 0 < width) :
    ceilQuotient length width = sliceCount length width := by
  have divisor : (0 : Int) < width := by exact_mod_cast positive
  have above : (length : Int) ≤ sliceCount length width * width := by exact_mod_cast length_le positive
  have below : (sliceCount length width : Int) * width < length + width := by
    have whole := Nat.div_mul_le_self (length + width - 1) width
    rw [← sliceCount] at whole
    exact_mod_cast (show sliceCount length width * width < length + width by omega)
  have floor : (-(length : Int)) / width = -sliceCount length width := by
    apply le_antisymm
    · rw [← Int.lt_add_one_iff, Int.ediv_lt_iff_lt_mul divisor]
      linarith
    · rw [Int.le_ediv_iff_mul_le divisor]
      linarith
  rw [ceilQuotient, floor, neg_neg]

/-- The remainder of the division, with a full slice for an even cut, is the last slice. -/
theorem lastPayload_natCast {length width : Nat} (positive : 0 < width) (fits : width < 65536)
    (nonempty : 0 < length) :
    (if u16 ((length : Int).tmod width) = 0 then width else u16 ((length : Int).tmod width)) =
      length - Slices.offset length width (sliceCount length width - 1) := by
  have remainderBound := Nat.mod_lt length positive
  have remainder : u16 ((length : Int).tmod width) = length % width := by
    rw [Int.tmod_eq_emod_of_nonneg (by omega), ← Int.natCast_mod]
    exact u16_natCast (by omega)
  rw [remainder]
  exact (last_slice_eq positive nonempty).symm

namespace Broadcast

variable (b : Broadcast)

/-- The number of packets of the data. -/
def seqMax : Nat := (b.data.length + b.payloadLen - 1) / b.payloadLen

/-- The payload of a packet. -/
def slice (seq : Nat) : List UInt8 := (b.data.drop (seq * b.payloadLen)).take b.payloadLen

def metadata : BcdMetadata := ⟨b.data.length, b.appId⟩

def packet (seq : Nat) : DataPacket := ⟨b.bcdId, seq, b.slice seq, b.metadata⟩

/-- The offset of a packet in the data. The packet count has the offset of the end. -/
def offset (seq : Nat) : Nat := min (seq * b.payloadLen) b.data.length

theorem seqMax_lt : b.seqMax < 4294967296 := b.seqMaxFits

/-- A sequence number is in range exactly when its packet has a byte. -/
theorem lt_seqMax_iff (seq : Nat) : seq < b.seqMax ↔ seq * b.payloadLen < b.data.length :=
  lt_sliceCount_iff b.payloadPositive seq

theorem seqMax_pos : 0 < b.seqMax := sliceCount_pos b.payloadPositive b.dataPositive

theorem seqMax_unit {b : Broadcast} (unit : b.payloadLen = 1) : b.seqMax = b.data.length := by
  rw [seqMax, unit, Nat.div_one, Nat.add_sub_cancel]

theorem data_le : b.data.length ≤ b.seqMax * b.payloadLen := length_le b.payloadPositive

@[simp] theorem offset_zero : b.offset 0 = 0 := by simp [offset]

@[simp] theorem offset_seqMax : b.offset b.seqMax = b.data.length := offset_sliceCount b.payloadPositive

theorem offset_le (seq : Nat) : b.offset seq ≤ b.data.length := Nat.min_le_right _ _

theorem offset_mono {first second : Nat} (ordered : first ≤ second) :
    b.offset first ≤ b.offset second := by
  have product := Nat.mul_le_mul_right b.payloadLen ordered
  unfold offset
  omega

theorem offset_of_lt {seq : Nat} (inside : seq < b.seqMax) : b.offset seq = seq * b.payloadLen :=
  Slices.offset_of_lt b.payloadPositive inside

theorem offset_lt_succ {seq : Nat} (inside : seq < b.seqMax) : b.offset seq < b.offset (seq + 1) :=
  Slices.offset_lt_succ b.payloadPositive inside

theorem offset_lt {seq : Nat} (inside : seq < b.seqMax) : b.offset seq < b.data.length :=
  (b.offset_lt_succ inside).trans_le (b.offset_le _)

/-- Two sequence numbers in range differ by whole payloads. -/
theorem offset_sub {first second : Nat} (ordered : first ≤ second) (inside : second < b.seqMax) :
    (second - first) * b.payloadLen = b.offset second - b.offset first := by
  rw [b.offset_of_lt inside, b.offset_of_lt (by omega), Nat.sub_mul]

/-- A payload is the part of the data between two offsets. -/
theorem slice_eq {seq : Nat} (inside : seq < b.seqMax) :
    b.slice seq = (b.data.drop (b.offset seq)).take (b.offset (seq + 1) - b.offset seq) :=
  Slices.slice_eq b.payloadPositive inside

theorem slice_length {seq : Nat} (inside : seq < b.seqMax) :
    (b.slice seq).length = b.offset (seq + 1) - b.offset seq :=
  Slices.slice_length b.payloadPositive inside

theorem slice_ne_nil {seq : Nat} (inside : seq < b.seqMax) : b.slice seq ≠ [] := by
  have size := b.slice_length inside
  have positive := b.offset_lt_succ inside
  intro empty
  rw [empty] at size
  simp at size
  omega

/-- The exact quotient rounds up to the packet count. -/
theorem ceilQuotient_eq : ceilQuotient b.data.length b.payloadLen = b.seqMax :=
  ceilQuotient_natCast b.payloadPositive

/-- The remainder of the division, with a full payload for an even cut, is the last payload. -/
theorem lastPayload_eq :
    (if u16 ((b.data.length : Int).tmod b.payloadLen) = 0 then b.payloadLen
      else u16 ((b.data.length : Int).tmod b.payloadLen)) =
      b.data.length - b.offset (b.seqMax - 1) :=
  lastPayload_natCast b.payloadPositive b.payloadFits b.dataPositive

end Broadcast

/-- Three packets of one byte make a small broadcast. -/
def threeBytes : Broadcast where
  bcdId := ⟨1, 2, 3⟩
  appId := []
  data := [10, 20, 30]
  payloadLen := 1
  appIdShort := by decide
  dataPositive := by decide
  payloadPositive := by decide
  payloadFits := by decide
  seqMaxFits := by decide

/-- Four packets of one byte. -/
def fourBytes : Broadcast where
  bcdId := ⟨1, 2, 3⟩
  appId := []
  data := [10, 20, 30, 40]
  payloadLen := 1
  appIdShort := by decide
  dataPositive := by decide
  payloadPositive := by decide
  payloadFits := by decide
  seqMaxFits := by decide

end RepublicAgent
