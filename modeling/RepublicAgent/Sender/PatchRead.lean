/-
This file models how the sender reads the data of a patch tuple.
-/

import RepublicAgent.Receiver.Broadcast

namespace RepublicAgent
open MachineInteger

/-- The C expression computes the position of the first packet as `uint32_t`. -/
def patchOffset (sttSeq bytePayload : Nat) : Nat := u32 ((sttSeq : Int) * bytePayload)

/-- A read that gets no byte starts again at the front of the file. -/
def createDataFromFile (file : List UInt8) (position len : Nat) : List UInt8 × Nat :=
  let bytes := (file.drop position).take len
  if bytes.length = 0 then (file.take len, (file.take len).length) else (bytes, position + bytes.length)

/-- The last packet takes `byte_payload_min` bytes from the stream and every other one `byte_payload`. -/
def createData (b : Broadcast) (position seq : Nat) : DataPacket × Nat :=
  let dataBytes := if seq + 1 = b.seqMax then b.data.length - b.offset (b.seqMax - 1) else b.payloadLen
  let (bytes, position) := createDataFromFile b.data position dataBytes
  (⟨b.bcdId, seq, bytes, b.metadata⟩, position)

/-- The inner loop reads `count` packets one after the other. -/
def readPatches (b : Broadcast) (position seq : Nat) : Nat → List DataPacket
  | 0 => []
  | count + 1 =>
      let (pkt, position) := createData b position seq
      pkt :: readPatches b position (seq + 1) count

/-- A patch tuple is read from the position of its first packet on. -/
def processPatchTuple (b : Broadcast) (pt : PatchTuple) : List DataPacket :=
  readPatches b (patchOffset pt.sttSeq b.payloadLen) pt.sttSeq (pt.endSeq - pt.sttSeq)

section Reads

variable {b : Broadcast}

/-- A read at the offset of a packet gives the packet and leads to the next offset. -/
theorem createData_eq {seq : Nat} (inside : seq < b.seqMax) :
    createData b (b.offset seq) seq = (b.packet seq, b.offset (seq + 1)) := by
  have grows := b.offset_lt_succ inside
  have length := b.slice_length inside
  have width : (if seq + 1 = b.seqMax then b.data.length - b.offset (b.seqMax - 1) else b.payloadLen) =
      b.offset (seq + 1) - b.offset seq :=
    (Slices.offset_succ_sub b.payloadPositive inside).symm
  unfold createData createDataFromFile
  simp only [width, ← b.slice_eq inside]
  rw [if_neg (by omega)]
  simp only [Broadcast.packet, length, Prod.mk.injEq, true_and]
  omega

/-- Reads from the offset of a packet on give the packets in order. -/
theorem readPatches_eq {seq count : Nat} (inside : seq + count ≤ b.seqMax) :
    readPatches b (b.offset seq) seq count = (List.range' seq count).map b.packet := by
  induction count generalizing seq with
  | zero => rfl
  | succ count ih =>
      simp only [readPatches, createData_eq (show seq < b.seqMax by omega)]
      rw [ih (by omega), List.range'_succ, List.map_cons]

/-- The packets of a patch tuple are the requested ones when its position fits `uint32_t`. -/
theorem processPatchTuple_eq {pt : PatchTuple} (ordered : pt.sttSeq < pt.endSeq)
    (inside : pt.endSeq ≤ b.seqMax) (near : pt.sttSeq * b.payloadLen < 4294967296) :
    processPatchTuple b pt = pt.seqs.map b.packet := by
  have position : patchOffset pt.sttSeq b.payloadLen = b.offset pt.sttSeq := by
    rw [b.offset_of_lt (by omega), patchOffset]
    exact_mod_cast u32_natCast near
  rw [processPatchTuple, position, readPatches_eq (by omega), PatchTuple.seqs]

end Reads

end RepublicAgent
