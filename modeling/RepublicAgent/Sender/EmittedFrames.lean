/-
This file says that the frames of a multicast are whole datagrams, and that the receivers find its packets in them.
-/

import RepublicAgent.Channel.Frame
import RepublicAgent.Sender.EmittedPackets
import RepublicAgent.Sender.HostTraffic

namespace RepublicAgent
open BigEndian MachineInteger Slices

/-- The thread fills the buffer of a slot and sets the length of the slot, which has sixteen bits. -/
def fillFrame (channel : HostChannel) (source : PacketSource) (cursor : SendCursor) (buf : List UInt8) :
    Option ((List UInt8 × Nat) × SendCursor) :=
  let payloadBytes := source.payloadBytes (cursor.seqCur % source.seqMax)
  (fillSlot source cursor (buf.drop dataHdrOffset)).map fun made =>
    ((frameHdr channel payloadBytes ++ made.1 ++ buf.drop (dataHdrOffset + made.1.length),
      u16 (dataHdrOffset + payloadBytes : Nat)), made.2)

/-- The frames go to one slot after the other. -/
def fillFrames (channel : HostChannel) (source : PacketSource) :
    SendCursor → List (List UInt8) → Option (List (List UInt8 × Nat) × SendCursor)
  | cursor, [] => some ([], cursor)
  | cursor, buf :: bufs =>
      (fillFrame channel source cursor buf).bind fun filled =>
        (fillFrames channel source filled.2 bufs).map fun rest => (filled.1 :: rest.1, rest.2)

/-- The card sends the bytes of a slot. -/
def frameOf (slot : List UInt8 × Nat) : List UInt8 := slot.1.take slot.2

/-- The headers of a frame agree with its length, its checksum and the address of its sender. -/
structure FrameValid (channel : HostChannel) (frame : List UInt8) : Prop where
  fast : isFastPath .nicToHost frame = true
  sender : field frame 26 4 = channel.inAddr.bytes
  receivers : field frame 30 4 = [238, 238, 238, channel.inAddr.fourth]
  totLen : ethHLen + decode (field frame 16 2) = frame.length
  udpLen : ethHLen + ip4HdrLen + decode (field frame 38 2) = frame.length
  check : ∃ hdr : IpHdr, hdr.words = LittleEndian.words (field frame ethHLen ip4HdrLen) ∧ validateIpChecksum hdr = 0

section Headers

variable (channel : HostChannel) {payload : List UInt8}

/-- The header of the Ethernet comes first. -/
theorem field_ethHdr (rest : List UInt8) {offset width : Nat} (behind : ethHLen ≤ offset) :
    field (channel.ethHdr ++ rest) offset width = field rest (offset - ethHLen) width := by
  rw [field_append_right (by rwa [channel.ethHdr_length]), channel.ethHdr_length]

/-- The fields of the IP header stand behind the header of the Ethernet, but for the checksum. -/
theorem field_frameHdr (payloadBytes : Nat) (rest : List UInt8) {offset width : Nat}
    (apart : offset + width ≤ 10 ∨ 12 ≤ offset) (inside : offset + width ≤ ip4HdrLen) :
    field (frameHdr channel payloadBytes ++ rest) (ethHLen + offset) width =
      field (ipBytes channel.inAddr payloadBytes) offset width := by
  obtain ⟨low, high, same⟩ := computeIpChecksum_bytes payloadBytes channel.inAddr
  have length : (((ipBytes channel.inAddr payloadBytes).set 10 low).set 11 high).length = ip4HdrLen := by
    rw [List.length_set, List.length_set]
    rfl
  rw [frameHdr, same, List.append_assoc, List.append_assoc, field_ethHdr _ _ (Nat.le_add_right _ _),
    Nat.add_sub_cancel_left, field_append_left (length ▸ inside)]
  apply List.ext_getElem?
  intro index
  rw [field, field, List.getElem?_take, List.getElem?_take]
  split_ifs with near
  · rw [List.getElem?_drop, List.getElem?_drop, List.getElem?_set_ne (by omega), List.getElem?_set_ne (by omega)]
  · rfl

/-- The fields of the UDP header stand behind the IP header. -/
theorem field_frameHdr_udp (payloadBytes : Nat) (rest : List UInt8) {offset width : Nat}
    (inside : offset + width ≤ udpHdrLen) :
    field (frameHdr channel payloadBytes ++ rest) (ethHLen + ip4HdrLen + offset) width =
      field (udpBytes payloadBytes) offset width := by
  have length := computeIpChecksum_bytes_length payloadBytes channel.inAddr
  rw [frameHdr, List.append_assoc, List.append_assoc, field_ethHdr _ _ (by omega), field_append_right (by omega),
    length, show ethHLen + ip4HdrLen + offset - ethHLen - ip4HdrLen = offset by omega]
  exact field_append_left inside

/-- The headers are valid in front of a payload that fits a datagram. -/
theorem frameHdr_valid (fits : dataHdrOffset + payload.length ≤ 65535) :
    FrameValid channel (frameHdr channel payload.length ++ payload) := by
  have length : (frameHdr channel payload.length ++ payload).length = dataHdrOffset + payload.length := by
    rw [List.length_append, frameHdr_length]
  have offset : dataHdrOffset = 42 := rfl
  have hlen : ethHLen = 14 := rfl
  have ipLen : ip4HdrLen = 20 := rfl
  have udpLen : udpHdrLen = 8 := rfl
  constructor
  · have protocol := @field_frameHdr channel payload.length payload 9 1 (.inl le_rfl) (by decide)
    have port := @field_frameHdr_udp channel payload.length payload 2 2 (by decide)
    have proto : field (frameHdr channel payload.length ++ payload) 12 2 = encode 2 ethPIp := by
      rw [frameHdr, List.append_assoc, List.append_assoc, field_append_left (by rw [channel.ethHdr_length]; decide)]
      rw [HostChannel.ethHdr, field_append_right (by simp [channel.complete])]
      simp [channel.complete, field]
    have udp : field (ipBytes channel.inAddr payload.length) 9 1 = [17] := rfl
    have dest : field (udpBytes payload.length) 2 2 = encode 2 dataDstPort := rfl
    unfold isFastPath
    rw [show field _ 23 1 = _ from protocol.trans udp, show field _ 36 2 = _ from port.trans dest, proto]
    decide
  · exact (@field_frameHdr channel payload.length payload 12 4 (.inr le_rfl) (by decide)).trans rfl
  · exact (@field_frameHdr channel payload.length payload 16 4 (.inr (by decide)) (by decide)).trans rfl
  · have total := @field_frameHdr channel payload.length payload 2 2 (.inl (by decide)) (by decide)
    have written : field (ipBytes channel.inAddr payload.length) 2 2 =
        encode 2 (ip4HdrLen + udpHdrLen + payload.length) := rfl
    rw [show field _ 16 2 = _ from total, written, decode_encode, length, Nat.mod_eq_of_lt (by omega)]
    omega
  · have total := @field_frameHdr_udp channel payload.length payload 4 2 (by decide)
    have written : field (udpBytes payload.length) 4 2 = encode 2 (udpHdrLen + payload.length) := rfl
    rw [show field _ 38 2 = _ from total, written, decode_encode, length, Nat.mod_eq_of_lt (by omega)]
    omega
  · refine ⟨computeIpChecksum (ipHdr channel.inAddr payload.length), ?_, validate_computeIpChecksum _⟩
    have bytes := computeIpChecksum_bytes_length payload.length channel.inAddr
    rw [frameHdr, List.append_assoc, List.append_assoc, field_ethHdr _ _ le_rfl, Nat.sub_self,
      field_append_left (by rw [bytes, Nat.zero_add]), field, List.drop_zero, List.take_of_length_le bytes.le,
      LittleEndian.words_bytes]

end Headers

/-- The frame of a packet. -/
def PacketSource.frame (source : PacketSource) (channel : HostChannel) (seq : Nat) : List UInt8 :=
  frameHdr channel (source.packet seq).length ++ source.packet seq

section Emission

variable {source : PacketSource} {channel : HostChannel}

/-- The packet is found behind the headers. -/
theorem PacketSource.drop_frame (source : PacketSource) (channel : HostChannel) (seq : Nat) :
    (source.frame channel seq).drop dataHdrOffset = source.packet seq :=
  List.drop_left' (frameHdr_length channel _)

theorem PacketSource.Cut.packet_length_le (cut : source.Cut) {seq : Nat} (inRange : seq < source.seqMax) :
    (source.packet seq).length ≤ dataHdrLen + source.bytePayload + bcdMetadataLen := by
  have short : (source.slice seq).length ≤ source.bytePayload := List.length_take_le _ _
  rw [← cut.payloadBytes_eq inRange, payloadBytes, cut.dataBytes_eq inRange]
  split_ifs <;> omega

/-- An aligned frame is the one of its place, whatever the buffer held. -/
theorem fillFrame_aligned (cut : source.Cut)
    (fits : dataHdrOffset + dataHdrLen + source.bytePayload + bcdMetadataLen ≤ 65535) {index : Nat}
    {cursor : SendCursor} (start : CursorAt source index cursor) (aligned : Aligned source.seqMax index)
    (buf : List UInt8) : ∃ slot next, fillFrame channel source cursor buf = some (slot, next) ∧
      frameOf slot = source.frame channel (index % source.seqMax) ∧ CursorAt source (index + 1) next := by
  have inRange := Nat.mod_lt index cut.seqMax_pos
  have bounded := cut.packet_length_le inRange
  obtain ⟨next, filled, after⟩ := fillSlot_aligned cut start aligned (buf.drop dataHdrOffset)
  have length : source.payloadBytes (cursor.seqCur % source.seqMax) =
      (source.packet (index % source.seqMax)).length := by
    rw [start.seqCur, aligned, cut.payloadBytes_eq inRange]
  have whole : dataHdrOffset + (source.packet (index % source.seqMax)).length =
      (source.frame channel (index % source.seqMax)).length := by
    rw [PacketSource.frame, List.length_append, frameHdr_length]
  rw [fillFrame, filled, Option.map_some]
  refine ⟨_, next, rfl, ?_, after⟩
  rw [frameOf, length, u16_natCast (by omega), whole]
  exact List.take_left

/-- Aligned frames are the ones of their places. -/
theorem fillFrames_aligned (cut : source.Cut)
    (fits : dataHdrOffset + dataHdrLen + source.bytePayload + bcdMetadataLen ≤ 65535) {bufs : List (List UInt8)}
    {index : Nat} {cursor : SendCursor} (start : CursorAt source index cursor)
    (aligned : ∀ later, index ≤ later → later < index + bufs.length → Aligned source.seqMax later) :
    ∃ slots last, fillFrames channel source cursor bufs = some (slots, last) ∧
      slots.map frameOf =
        (List.range' index bufs.length).map fun later => source.frame channel (later % source.seqMax) := by
  induction bufs generalizing index cursor with
  | nil => exact ⟨[], cursor, rfl, rfl⟩
  | cons buf bufs ih =>
      rw [List.length_cons] at aligned
      obtain ⟨slot, next, filled, frame, after⟩ :=
        fillFrame_aligned cut fits start (aligned index le_rfl (by omega)) buf
      obtain ⟨slots, last, rest, frames⟩ := ih after fun later lower upper => aligned later (by omega) (by omega)
      refine ⟨slot :: slots, last, ?_, ?_⟩
      · rw [fillFrames, filled, Option.bind_some, rest]
        rfl
      · rw [List.map_cons, frame, frames, List.length_cons, List.range'_succ, List.map_cons]

end Emission

end RepublicAgent
