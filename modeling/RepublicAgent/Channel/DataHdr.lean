/-
This file models the header of a data packet and the metadata of packet zero in `msg.c`.
-/

import RepublicAgent.Channel.Receive

namespace RepublicAgent
open BigEndian MachineInteger

/-- The value `DATA_HDRLEN` counts the identifier, the sequence number and the length. -/
def dataHdrLen : Nat := 32

/-- The value `BCDMETADATA_LEN` counts the data size and the application. -/
def bcdMetadataLen : Nat := 8 + appIdLen

def createBcdId (bcdId : BcdID) : List UInt8 :=
  encode 8 bcdId.msb.toNat ++ encode 8 bcdId.lsb.toNat ++ encode 8 bcdId.dataId.toNat

def createDataHdr (bcdId : BcdID) (seq len : Nat) : List UInt8 :=
  createBcdId bcdId ++ encode 4 seq ++ encode 4 len

/-- The fields of the header of a data packet. -/
structure DataHdr where
  bcdId : BcdID
  seqNum : Nat
  len : Nat
deriving DecidableEq, Repr

def parseDataHdr (buf : List UInt8) : DataHdr where
  bcdId := parseBcdId buf
  seqNum := decode (field buf 24 4)
  len := decode (field buf 28 4)

/-- The text in front of the terminator is copied and the rest of the array is cleared. -/
def strncpy (source : List UInt8) (len : Nat) : List UInt8 :=
  let text := (source.takeWhile (· ≠ 0)).take len
  text ++ List.replicate (len - text.length) 0

/-- The data size is sent as the pattern of its `int64_t`. -/
def createBcdMetadata (dataSize : Int) (appId : List UInt8) : List UInt8 :=
  encode 8 (unsigned 64 dataSize) ++ strncpy appId appIdLen

/-- The application is read as a string. -/
def parseBcdMetadata (buf : List UInt8) : BcdMetadata where
  dataSize := s64 (decode (field buf 0 8))
  appId := (strncpy (field buf 8 appIdLen) appIdLen).takeWhile (· ≠ 0)

@[simp] theorem createBcdId_length (bcdId : BcdID) : (createBcdId bcdId).length = 24 := by
  simp [createBcdId]

@[simp] theorem createDataHdr_length (bcdId : BcdID) (seq len : Nat) :
    (createDataHdr bcdId seq len).length = dataHdrLen := by
  simp [createDataHdr, dataHdrLen]

@[simp] theorem strncpy_length (source : List UInt8) (len : Nat) : (strncpy source len).length = len := by
  simp only [strncpy, List.length_append, List.length_replicate, List.length_take]
  omega

@[simp] theorem createBcdMetadata_length (dataSize : Int) (appId : List UInt8) :
    (createBcdMetadata dataSize appId).length = bcdMetadataLen := by
  simp [createBcdMetadata, bcdMetadataLen]

/-- A header in front of any bytes gives its fields back. -/
theorem parseDataHdr_createDataHdr (bcdId : BcdID) {seq len : Nat} (seqFits : seq < 4294967296)
    (lenFits : len < 4294967296) (rest : List UInt8) :
    parseDataHdr (createDataHdr bcdId seq len ++ rest) = ⟨bcdId, seq, len⟩ := by
  simp [parseDataHdr, parseBcdId, field, createDataHdr, createBcdId, List.drop_append, decode_encode,
    drop_encode]
  exact ⟨seqFits, lenFits⟩

theorem takeWhile_string {text : List UInt8} (string : 0 ∉ text) (rest : List UInt8) :
    (text ++ rest).takeWhile (· ≠ 0) = text ++ rest.takeWhile (· ≠ 0) := by
  apply List.takeWhile_append_of_pos
  intro byte member
  simpa using ne_of_mem_of_not_mem member string

/-- A string that leaves room for its terminator is copied with zero bytes behind it. -/
theorem strncpy_eq {text : List UInt8} {len : Nat} (short : text.length < len) (string : 0 ∉ text)
    (count : Nat) :
    strncpy (text ++ List.replicate count 0) len = text ++ List.replicate (len - text.length) 0 := by
  have front : (text ++ List.replicate count 0).takeWhile (· ≠ 0) = text := by
    rw [takeWhile_string string, List.takeWhile_replicate]
    simp
  rw [strncpy, front, List.take_of_length_le short.le]

/-- The text of an array with a terminator comes out as it went in. -/
theorem strncpy_text {text : List UInt8} {len : Nat} (short : text.length < len) (string : 0 ∉ text) :
    (strncpy (strncpy text len) len).takeWhile (· ≠ 0) = text := by
  have once := strncpy_eq short string 0
  rw [List.replicate_zero, List.append_nil] at once
  rw [once, strncpy_eq short string, takeWhile_string string, List.takeWhile_replicate]
  simp

/-- The metadata in front of any bytes give the data size and the application back. -/
theorem parseBcdMetadata_createBcdMetadata {dataSize : Nat} {appId : List UInt8}
    (sizeFits : dataSize < 9223372036854775808) (short : appId.length < appIdLen) (string : 0 ∉ appId)
    (rest : List UInt8) :
    parseBcdMetadata (createBcdMetadata dataSize appId ++ rest) = ⟨dataSize, appId⟩ := by
  have size : field (createBcdMetadata dataSize appId ++ rest) 0 8 = encode 8 dataSize := by
    rw [createBcdMetadata, unsigned_natCast (by omega), field, List.drop_zero, List.append_assoc,
      List.take_left' (encode_length 8 dataSize)]
  have text : field (createBcdMetadata dataSize appId ++ rest) 8 appIdLen = strncpy appId appIdLen := by
    rw [createBcdMetadata, field, List.append_assoc, List.drop_left' (encode_length 8 _),
      List.take_left' (strncpy_length appId appIdLen)]
  rw [parseBcdMetadata, size, text, strncpy_text short string, decode_encode, Nat.mod_eq_of_lt (by omega),
    s64_natCast sizeFits]

end RepublicAgent
