/-
This file models the headers of the network in front of a packet of the fast path.
-/

import RepublicAgent.Channel.Checksum
import RepublicAgent.Channel.DataHdr
import RepublicAgent.Library.LittleEndian

namespace RepublicAgent
open BigEndian

def ethHLen : Nat := 14

def ip4HdrLen : Nat := 20

def udpHdrLen : Nat := 8

/-- The value `DATA_HDR_OFFSET` counts the headers of the network. -/
def dataHdrOffset : Nat := ethHLen + ip4HdrLen + udpHdrLen

def dataSrcPort : Nat := 0x6363

def dataDstPort : Nat := 0x6262

def ethPIp : Nat := 0x0800

def ipprotoUdp : UInt8 := 17

/-- The bytes of an address in the order of the network. -/
structure InAddr where
  first : UInt8
  second : UInt8
  third : UInt8
  fourth : UInt8
deriving DecidableEq, Repr

def InAddr.bytes (addr : InAddr) : List UInt8 := [addr.first, addr.second, addr.third, addr.fourth]

/-- The addresses of the card of the data channel. -/
structure HostChannel where
  hwaddr : List UInt8
  complete : hwaddr.length = 6
  inAddr : InAddr
deriving DecidableEq

/-- The frames go to all hosts. -/
def HostChannel.ethHdr (channel : HostChannel) : List UInt8 :=
  List.replicate 6 0xff ++ channel.hwaddr ++ encode 2 ethPIp

/-- A field of a header is overwritten. -/
def setField (buf : List UInt8) (offset : Nat) (bytes : List UInt8) : List UInt8 :=
  buf.take offset ++ bytes ++ buf.drop (offset + bytes.length)

/-- The address of the multicast ends with the last byte of the address of the host. -/
def initIPHeader (ipSrc : InAddr) (ipP : UInt8) : List UInt8 :=
  -- `version` and `ihl`, `tos`
  [0x45, 0x00] ++
  -- `tot_len` is filled later, `id`, `frag_off`
  encode 2 0 ++ encode 2 0 ++ encode 2 0 ++
  -- `ttl`, `protocol`, `check` is filled later
  [255, ipP] ++ [0, 0] ++
  ipSrc.bytes ++ [238, 238, 238, ipSrc.fourth]

def initUDPHeader (source dest : Nat) : List UInt8 :=
  encode 2 source ++ encode 2 dest ++ encode 2 0 ++ encode 2 0

/-- The length of the datagram is cut to sixteen bits. -/
def ipBytes (ipSrc : InAddr) (payloadBytes : Nat) : List UInt8 :=
  setField (initIPHeader ipSrc ipprotoUdp) 2 (encode 2 (ip4HdrLen + udpHdrLen + payloadBytes))

theorem ipBytes_eq (ipSrc : InAddr) (payloadBytes : Nat) : ipBytes ipSrc payloadBytes =
    0x45 :: 0x00 :: (encode 2 (ip4HdrLen + udpHdrLen + payloadBytes) ++ [0, 0, 0, 0, 255, 17, 0, 0] ++ ipSrc.bytes ++
      [238, 238, 238, ipSrc.fourth]) := rfl

theorem ihl_words (low high : UInt8) (bytes : List UInt8) :
    ihl (LittleEndian.words (low :: high :: bytes)) = low.toNat % 16 := by
  have lower := low.toNat_lt
  have upper := high.toNat_lt
  rw [LittleEndian.words, ihl, List.headD_cons, UInt16.toNat_ofNat']
  omega

/-- The header before its checksum is computed. -/
def ipHdr (ipSrc : InAddr) (payloadBytes : Nat) : IpHdr where
  words := LittleEndian.words (ipBytes ipSrc payloadBytes)
  complete := by
    rw [LittleEndian.words_length, ipBytes_eq, ihl_words]
    simp [InAddr.bytes]
  long := by
    rw [ipBytes_eq, ihl_words]
    decide

/-- The checksum of the datagram is not used. -/
def udpBytes (payloadBytes : Nat) : List UInt8 :=
  setField (initUDPHeader dataSrcPort dataDstPort) 4 (encode 2 (udpHdrLen + payloadBytes))

/-- The headers in front of the bytes of a packet. -/
def frameHdr (channel : HostChannel) (payloadBytes : Nat) : List UInt8 :=
  channel.ethHdr ++ LittleEndian.bytes (computeIpChecksum (ipHdr channel.inAddr payloadBytes)).words ++
    udpBytes payloadBytes

section Fields

variable {front back : List UInt8} {offset width : Nat}

theorem field_append_left (inside : offset + width ≤ front.length) :
    field (front ++ back) offset width = field front offset width := by
  rw [field, field, List.drop_append_of_le_length (by omega), List.take_append_of_le_length]
  rw [List.length_drop]
  omega

theorem field_append_right (behind : front.length ≤ offset) :
    field (front ++ back) offset width = field back (offset - front.length) width := by
  rw [field, field, List.drop_append, List.drop_eq_nil_of_le behind, List.nil_append]

end Fields

section Headers

variable (channel : HostChannel) (payloadBytes : Nat)

@[simp] theorem HostChannel.ethHdr_length : channel.ethHdr.length = ethHLen := by
  simp [HostChannel.ethHdr, channel.complete, ethHLen]

/-- The checksum is written over the eleventh and the twelfth byte. -/
theorem computeIpChecksum_bytes (ipSrc : InAddr) : ∃ low high : UInt8,
    LittleEndian.bytes (computeIpChecksum (ipHdr ipSrc payloadBytes)).words =
      ((ipBytes ipSrc payloadBytes).set 10 low).set 11 high := by
  obtain ⟨check, words⟩ : ∃ check, (computeIpChecksum (ipHdr ipSrc payloadBytes)).words =
      (LittleEndian.words (ipBytes ipSrc payloadBytes)).set 5 check := ⟨_, List.set_set ..⟩
  rw [words, LittleEndian.bytes_set, LittleEndian.bytes_words ⟨10, rfl⟩]
  exact ⟨_, _, rfl⟩

@[simp] theorem computeIpChecksum_bytes_length (ipSrc : InAddr) :
    (LittleEndian.bytes (computeIpChecksum (ipHdr ipSrc payloadBytes)).words).length = ip4HdrLen := by
  obtain ⟨low, high, same⟩ := computeIpChecksum_bytes payloadBytes ipSrc
  rw [same, List.length_set, List.length_set]
  rfl

@[simp] theorem frameHdr_length : (frameHdr channel payloadBytes).length = dataHdrOffset := by
  rw [frameHdr, List.length_append, List.length_append, channel.ethHdr_length, computeIpChecksum_bytes_length]
  rfl

end Headers

end RepublicAgent
