/-
This file models how the sender reads the bytes of a packet from the file of its multicast.
-/

import RepublicAgent.Channel.DataHdr
import RepublicAgent.Library.Slices
import RepublicAgent.Sender.Multicast

namespace RepublicAgent
open MachineInteger Slices

/-- A stream that is open for reading has the content of its file and a position. -/
structure ReadStream where
  file : List UInt8
  position : Nat
deriving DecidableEq, Repr

/-- The call gives fewer bytes only at the end of the file. -/
def ReadStream.fread (fd : ReadStream) (len : Nat) : List UInt8 × ReadStream :=
  let bytes := (fd.file.drop fd.position).take len
  (bytes, { fd with position := fd.position + bytes.length })

def ReadStream.rewind (fd : ReadStream) : ReadStream := { fd with position := 0 }

/-- The fields of a multicast state from which its packets are made, with the content of its file. -/
structure PacketSource where
  bcdId : BcdID
  appId : List UInt8
  data : List UInt8
  seqMax : Nat
  bytePayload : Nat
  bytePayloadMin : Nat
deriving DecidableEq, Repr

/-- The fields of a multicast state. -/
def MulticastState.packetSource (multi : MulticastState) (bcdId : BcdID) (appId data : List UInt8) :
    PacketSource where
  bcdId := bcdId
  appId := appId
  data := data
  seqMax := multi.seqMax
  bytePayload := multi.bytePayload
  bytePayloadMin := multi.bytePayloadMin

/-- The number of bytes of the data in a packet. -/
def PacketSource.dataBytes (source : PacketSource) (seq : Nat) : Nat :=
  if u32 ((seq : Int) + 1) = source.seqMax then source.bytePayloadMin else source.bytePayload

/-- The number of bytes behind the headers of the network. -/
def PacketSource.payloadBytes (source : PacketSource) (seq : Nat) : Nat :=
  dataHdrLen + source.dataBytes seq + if seq = 0 then bcdMetadataLen else 0

namespace PacketBytes

/-- A read that gets no byte starts again at the front of the file. The bytes that it does not fill keep
what the buffer held before. -/
def createDataFromFile (buf : List UInt8) (bcdId : BcdID) (seq len : Nat) (fd : ReadStream) :
    List UInt8 × ReadStream :=
  let ret := if (fd.fread len).1.length = 0 then fd.rewind.fread len else fd.fread len
  (createDataHdr bcdId seq len ++ (ret.1 ++ buf.drop (dataHdrLen + ret.1.length)).take len, ret.2)

/-- The metadata follow the data of packet zero. -/
def createData (buf : List UInt8) (source : PacketSource) (fd : ReadStream) (seq : Nat) :
    List UInt8 × ReadStream :=
  let written := createDataFromFile buf source.bcdId seq (source.dataBytes seq) fd
  (if seq = 0 then written.1 ++ createBcdMetadata source.data.length source.appId else written.1, written.2)

/-- A read that fills the buffer leaves nothing of what it held. -/
theorem createDataFromFile_full {fd next : ReadStream} {bytes : List UInt8} (buf : List UInt8) (bcdId : BcdID)
    (seq : Nat) (read : fd.fread bytes.length = (bytes, next)) (nonempty : bytes ≠ []) :
    createDataFromFile buf bcdId seq bytes.length fd = (createDataHdr bcdId seq bytes.length ++ bytes, next) := by
  have filled := List.length_pos_of_ne_nil nonempty
  rw [createDataFromFile, read]
  rw [if_neg filled.ne']
  simp

/-- A read at the end of the file is a read at its front. -/
theorem createDataFromFile_end {fd next : ReadStream} {bytes : List UInt8} (buf : List UInt8) (bcdId : BcdID)
    (seq : Nat) (read : fd.rewind.fread bytes.length = (bytes, next)) (atEnd : (fd.fread bytes.length).1 = []) :
    createDataFromFile buf bcdId seq bytes.length fd = (createDataHdr bcdId seq bytes.length ++ bytes, next) := by
  rw [createDataFromFile, atEnd, if_pos List.length_nil, read]
  simp

end PacketBytes

/-- The geometry of a packet source cuts its data into payloads. -/
structure PacketSource.Cut (source : PacketSource) : Prop where
  nonempty : 0 < source.data.length
  positive : 0 < source.bytePayload
  payloadFits : source.bytePayload < 4294967296
  seqMax : source.seqMax = sliceCount source.data.length source.bytePayload
  seqMaxFits : source.seqMax < 4294967296
  bytePayloadMin : source.bytePayloadMin =
    source.data.length - offset source.data.length source.bytePayload (source.seqMax - 1)

/-- The geometry of a new multicast state is the one of the cut, up to the width of its types. -/
theorem createBcdState_geometry {dataSize dataPayloadLen : Nat} {multi : MulticastState}
    (positive : 0 < dataPayloadLen) (payloadFits : dataPayloadLen < 4294967296)
    (created : createBcdState dataSize dataPayloadLen = some multi) :
    0 < dataSize ∧ multi.bytePayload = dataPayloadLen ∧
      multi.seqMax = u32 (sliceCount dataSize dataPayloadLen) ∧
      multi.bytePayloadMin =
        dataSize - offset dataSize dataPayloadLen (sliceCount dataSize dataPayloadLen - 1) := by
  have remainder := Nat.mod_lt dataSize positive
  have rest : u32 (dataSize % dataPayloadLen : Nat) = dataSize % dataPayloadLen := u32_natCast (by omega)
  unfold createBcdState at created
  split_ifs at created with empty
  obtain rfl := Option.some.inj created
  have nonempty : 0 < dataSize := Nat.pos_of_ne_zero empty
  rw [multicastStateReset, if_pos rfl, last_slice_eq positive nonempty, sliceCount_eq positive]
  dsimp only
  rw [rest]
  refine ⟨nonempty, rfl, ?_, rfl⟩
  split_ifs with even
  · rfl
  · rw [u32_add_u32]
    norm_cast

/-- The data of a new multicast state are cut into its packets when their number fits. -/
theorem MulticastState.packetSource_cut {data : List UInt8} {dataPayloadLen : Nat} {multi : MulticastState}
    (positive : 0 < dataPayloadLen) (payloadFits : dataPayloadLen < 4294967296)
    (countFits : sliceCount data.length dataPayloadLen < 4294967296)
    (created : createBcdState data.length dataPayloadLen = some multi) (bcdId : BcdID) (appId : List UInt8) :
    (multi.packetSource bcdId appId data).Cut := by
  obtain ⟨nonempty, payload, seqMax, payloadMin⟩ := createBcdState_geometry positive payloadFits created
  rw [u32_natCast countFits] at seqMax
  constructor
  · exact nonempty
  · simpa only [packetSource, payload] using positive
  · simpa only [packetSource, payload] using payloadFits
  · simp only [packetSource, seqMax, payload]
  · simpa only [packetSource, seqMax] using countFits
  · simp only [packetSource, seqMax, payload, payloadMin]

namespace PacketSource

variable {source : PacketSource}

/-- The position of a packet in the file. -/
def offset (source : PacketSource) (seq : Nat) : Nat := Slices.offset source.data.length source.bytePayload seq

/-- The data of a packet. -/
def slice (source : PacketSource) (seq : Nat) : List UInt8 := Slices.slice source.data source.bytePayload seq

/-- The bytes of a packet. -/
def packet (source : PacketSource) (seq : Nat) : List UInt8 :=
  createDataHdr source.bcdId seq (source.slice seq).length ++ source.slice seq ++
    if seq = 0 then createBcdMetadata source.data.length source.appId else []

namespace Cut

theorem seqMax_pos (cut : source.Cut) : 0 < source.seqMax := by
  rw [cut.seqMax]
  exact sliceCount_pos cut.positive cut.nonempty

theorem offset_seqMax (cut : source.Cut) : source.offset source.seqMax = source.data.length := by
  rw [cut.seqMax]
  exact offset_sliceCount cut.positive

theorem inside (cut : source.Cut) {seq : Nat} (inRange : seq < source.seqMax) :
    seq < sliceCount source.data.length source.bytePayload := cut.seqMax ▸ inRange

theorem offset_lt_succ (cut : source.Cut) {seq : Nat} (inRange : seq < source.seqMax) :
    source.offset seq < source.offset (seq + 1) :=
  Slices.offset_lt_succ cut.positive (cut.inside inRange)

theorem slice_length (cut : source.Cut) {seq : Nat} (inRange : seq < source.seqMax) :
    (source.slice seq).length = source.offset (seq + 1) - source.offset seq :=
  Slices.slice_length cut.positive (cut.inside inRange)

/-- The length of the data in a packet is the length of its slice. -/
theorem dataBytes_eq (cut : source.Cut) {seq : Nat} (inRange : seq < source.seqMax) :
    source.dataBytes seq = (source.slice seq).length := by
  have fits := cut.seqMaxFits
  rw [cut.slice_length inRange, offset, offset, offset_succ_sub cut.positive (cut.inside inRange), dataBytes,
    u32_succ (by omega), cut.bytePayloadMin, cut.seqMax]

theorem payloadBytes_eq (cut : source.Cut) {seq : Nat} (inRange : seq < source.seqMax) :
    source.payloadBytes seq = (source.packet seq).length := by
  rw [payloadBytes, cut.dataBytes_eq inRange, packet]
  split_ifs <;> simp [Nat.add_assoc]

theorem slice_ne_nil (cut : source.Cut) {seq : Nat} (inRange : seq < source.seqMax) : source.slice seq ≠ [] := by
  have grows := cut.offset_lt_succ inRange
  have length := cut.slice_length inRange
  exact List.ne_nil_of_length_pos (by omega)

/-- A read at the position of a packet gets the whole slice. -/
theorem fread_offset (cut : source.Cut) {seq : Nat} (inRange : seq < source.seqMax) :
    (ReadStream.mk source.data (source.offset seq)).fread (source.slice seq).length =
      (source.slice seq, ⟨source.data, source.offset (seq + 1)⟩) := by
  have grows := cut.offset_lt_succ inRange
  have length := cut.slice_length inRange
  have part : (source.data.drop (source.offset seq)).take (source.slice seq).length = source.slice seq := by
    rw [length]
    exact (slice_eq cut.positive (cut.inside inRange)).symm
  have moved : source.offset seq + (source.slice seq).length = source.offset (seq + 1) := by omega
  simp only [ReadStream.fread, part, moved]

/-- A packet that is made at its position is the expected one and leads to the position of the next. -/
theorem createData_eq (cut : source.Cut) {seq : Nat} (inRange : seq < source.seqMax) (buf : List UInt8) :
    PacketBytes.createData buf source ⟨source.data, source.offset seq⟩ seq =
      (source.packet seq, ⟨source.data, source.offset (seq + 1)⟩) := by
  have read := PacketBytes.createDataFromFile_full buf source.bcdId seq (cut.fread_offset inRange)
    (cut.slice_ne_nil inRange)
  rw [PacketBytes.createData, cut.dataBytes_eq inRange, read, packet]
  split_ifs <;> simp

/-- Packet zero is made at the end of the file as at its front. -/
theorem createData_end (cut : source.Cut) (buf : List UInt8) :
    PacketBytes.createData buf source ⟨source.data, source.data.length⟩ 0 =
      (source.packet 0, ⟨source.data, source.offset 1⟩) := by
  have front := cut.fread_offset cut.seqMax_pos
  rw [show source.offset 0 = 0 from Slices.offset_zero] at front
  have read := @PacketBytes.createDataFromFile_end ⟨source.data, source.data.length⟩ _ _ buf source.bcdId 0 front
    (by simp [ReadStream.fread])
  rw [PacketBytes.createData, cut.dataBytes_eq cut.seqMax_pos, read, packet]
  rfl

end Cut

/-- The fields of a packet are read back. -/
theorem parseDataHdr_packet (cut : source.Cut) {seq : Nat} (inRange : seq < source.seqMax) :
    parseDataHdr (source.packet seq) = ⟨source.bcdId, seq, (source.slice seq).length⟩ := by
  have fits := cut.seqMaxFits
  have payloadFits := cut.payloadFits
  have short : (source.slice seq).length ≤ source.bytePayload := List.length_take_le _ _
  rw [packet, List.append_assoc]
  exact parseDataHdr_createDataHdr _ (by omega) (by omega) _

theorem packet_payload (source : PacketSource) (seq : Nat) :
    ((source.packet seq).drop dataHdrLen).take (source.slice seq).length = source.slice seq := by
  rw [packet, List.append_assoc, List.drop_left' (createDataHdr_length _ _ _), List.take_left]

/-- The metadata stand behind the data of packet zero. -/
theorem parseBcdMetadata_packet (sizeFits : source.data.length < 9223372036854775808)
    (short : source.appId.length < appIdLen) (string : 0 ∉ source.appId) :
    parseBcdMetadata ((source.packet 0).drop (dataHdrLen + (source.slice 0).length)) =
      ⟨source.data.length, source.appId⟩ := by
  rw [packet, if_pos rfl, List.drop_left' (by simp)]
  have read := parseBcdMetadata_createBcdMetadata sizeFits short string []
  rwa [List.append_nil] at read

end PacketSource

end RepublicAgent
