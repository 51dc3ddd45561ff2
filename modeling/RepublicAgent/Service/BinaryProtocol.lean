/-
This file gives the binary protocol of the library as far as the controller service uses it. Numbers are big-endian.
-/

import RepublicAgent.Library.BigEndian
import RepublicAgent.Service.ControllerFormat

namespace RepublicAgent.BinaryProtocol
open BigEndian TaggedRecord

def typeCode : ThriftType → Nat
  | .stop => 0
  | .i32 => 8
  | .string => 11
  | .struct => 12
  | .set => 14
  | .other code => code

def typeOfCode : Nat → ThriftType
  | 0 => .stop
  | 8 => .i32
  | 11 => .string
  | 12 => .struct
  | 14 => .set
  | code => .other code

def messageTypeCode : ThriftMessageType → Nat
  | .call => 1
  | .reply => 2
  | .exception => 3
  | .oneway => 4
  | .other code => code

def messageTypeOfCode : Nat → ThriftMessageType
  | 1 => .call
  | 2 => .reply
  | 3 => .exception
  | 4 => .oneway
  | code => .other code

def readBytes (count : Nat) : ValueReader (List UInt8) := fun stream =>
  if stream.length < count then none else some (stream.take count, stream.drop count)

def readNat (width : Nat) : ValueReader Nat := mapValue (readBytes width) decode

/-- Only numbers of the width are written. -/
def writeNat (width value : Nat) : Option (List UInt8) :=
  if value < 256 ^ width then some (encode width value) else none

def writeI32 (value : Int32) : Option (List UInt8) := writeNat 4 value.toUInt32.toNat

def readI32 : ValueReader Int32 := mapValue (readNat 4) fun value => (UInt32.ofNat value).toInt32

/-- A type without a code of its own is not written. -/
def writeType (kind : ThriftType) : Option (List UInt8) :=
  if typeOfCode (typeCode kind) = kind then writeNat 1 (typeCode kind) else none

def readType : ValueReader ThriftType := mapValue (readNat 1) typeOfCode

/-- An empty string is read as a null pointer. -/
def textOfBytes (bytes : List UInt8) : Option Text :=
  let chars := bytes.map fun byte => Char.ofNat byte.toNat
  if valid : chars ≠ [] ∧ Char.ofNat 0 ∉ chars then some ⟨chars, valid.1, valid.2⟩ else none

def writeText (text : Text) : Option (List UInt8) :=
  if text.chars.all fun char => decide (char.toNat < 256) then
    written [writeNat 4 text.chars.length, some (text.chars.map fun char => UInt8.ofNat char.toNat)]
  else none

def writeString : Option Text → Option (List UInt8)
  | none => writeNat 4 0
  | some text => writeText text

def readString : ValueReader (Option Text) :=
  bindValue (readNat 4) fun length => mapValue (readBytes length) textOfBytes

/-- A stop has no number. -/
def readNumber (kind : ThriftType) : ValueReader (ThriftType × Int) :=
  if kind = .stop then fun stream => some ((.stop, 0), stream) else mapValue (readNat 2) fun number => (kind, number)

/-- The upper half of the version tells the format, and its last byte the type of the message. -/
def readNamed (version : Nat) : ValueReader (Option Text × ThriftMessageType × Int32) :=
  if version / 65536 = 0x8001 then
    bindValue readString fun name => mapValue readI32 fun sequenceId =>
      (name, messageTypeOfCode (version % 256), sequenceId)
  else fun _ => none

/-- The marks of a struct and the ends of a field, a set and a message have no bytes. -/
def protocol : ThriftProtocol where
  writeMessageBegin name type sequenceId :=
    if messageTypeOfCode (messageTypeCode type) = type ∧ messageTypeCode type < 256 then
      written [writeNat 4 (0x80010000 + messageTypeCode type), writeText name, writeI32 sequenceId]
    else none
  writeMessageEnd := some []
  writeStructBegin _ := some []
  writeStructEnd := some []
  writeFieldBegin _ kind number :=
    if kind = .stop ∨ number < 0 then none else written [writeType kind, writeNat 2 number.toNat]
  writeFieldEnd := some []
  writeFieldStop := writeType .stop
  writeSetBegin kind size := written [writeType kind, writeNat 4 size]
  writeSetEnd := some []
  writeI32 := writeI32
  writeString := writeString
  readMessageBegin := bindValue (readNat 4) readNamed
  readMessageEnd stream := some ((), stream)
  readStructBegin stream := some ((), stream)
  readStructEnd stream := some ((), stream)
  readFieldBegin := bindValue readType readNumber
  readFieldEnd stream := some ((), stream)
  readSetBegin := bindValue readType fun kind => mapValue (readNat 4) fun size => (kind, size)
  readSetEnd stream := some ((), stream)
  readI32 := readI32
  readString := readString
  skip
    | .i32 => mapValue readI32 fun _ => ()
    | .string => mapValue readString fun _ => ()
    | _ => fun _ => none

section Values

variable {bytes : List UInt8}

theorem exact_readBytes (bytes : List UInt8) : Exact (readBytes bytes.length) bytes bytes := by
  constructor
  · intro rest
    rw [readBytes, if_neg (by rw [List.length_append]; omega), List.take_left, List.drop_left]
  · intro count short
    rw [readBytes, if_pos (by rw [List.length_take]; omega)]

theorem exact_readNat {width value : Nat} (put : writeNat width value = some bytes) :
    Exact (readNat width) bytes value := by
  unfold writeNat at put
  split_ifs at put with fits
  obtain rfl := Option.some.inj put
  have exact := exact_readBytes (encode width value)
  rw [encode_length] at exact
  have read := exact.map decode
  rwa [decode_encode, Nat.mod_eq_of_lt fits] at read

theorem exact_readI32 {value : Int32} (put : writeI32 value = some bytes) : Exact readI32 bytes value := by
  have read := (exact_readNat put).map fun value => (UInt32.ofNat value).toInt32
  rwa [UInt32.ofNat_toNat] at read

theorem exact_readType {kind : ThriftType} (put : writeType kind = some bytes) : Exact readType bytes kind := by
  unfold writeType at put
  split_ifs at put with own
  have read := (exact_readNat put).map typeOfCode
  rwa [own] at read

/-- The bytes of a text give its characters back. -/
theorem textOfBytes_chars {text : Text} (plain : ∀ char ∈ text.chars, char.toNat < 256) :
    textOfBytes (text.chars.map fun char => UInt8.ofNat char.toNat) = some text := by
  have chars : (text.chars.map fun char => UInt8.ofNat char.toNat).map (fun byte => Char.ofNat byte.toNat) =
      text.chars := by
    rw [List.map_map]
    calc text.chars.map ((fun byte : UInt8 => Char.ofNat byte.toNat) ∘ fun char => UInt8.ofNat char.toNat)
      _ = text.chars.map id := by
          apply List.map_congr_left
          intro char member
          have small := plain char member
          rw [Function.comp_apply, UInt8.toNat_ofNat', Nat.mod_eq_of_lt small, Char.ofNat_toNat, id]
      _ = text.chars := List.map_id _
  unfold textOfBytes
  simp only [chars]
  rw [dif_pos ⟨text.nonempty, text.terminated⟩]

theorem exact_readString {text : Text} (put : writeText text = some bytes) : Exact readString bytes (some text) := by
  unfold writeText at put
  split_ifs at put with plain
  simp only [written_cons, written_nil] at put
  obtain ⟨size, counted, behind, ⟨content, same, last, rfl, rfl⟩, rfl⟩ := put
  obtain rfl := Option.some.inj same
  have read := (exact_readBytes (text.chars.map fun char => UInt8.ofNat char.toNat)).map textOfBytes
  rw [textOfBytes_chars (by simpa using plain), List.length_map] at read
  rw [List.append_nil]
  exact (exact_readNat counted).bind (fun length => mapValue (readBytes length) textOfBytes) read

theorem exact_nothing : Exact (fun stream => some ((), stream)) [] () :=
  ⟨fun _ => rfl, fun _ short => absurd short (Nat.not_lt_zero _)⟩

end Values

/-- The binary protocol reads back what it writes. -/
theorem protocol_documented : protocol.Documented where
  messageBegin name type sequenceId bytes put := by
    simp only [protocol] at put
    split_ifs at put with own
    simp only [written_cons, written_nil] at put
    obtain ⟨version, marked, behind, ⟨named, called, last, ⟨numbered, counted, none, rfl, rfl⟩, rfl⟩, rfl⟩ := put
    rw [List.append_nil]
    have high : (0x80010000 + messageTypeCode type) / 65536 = 0x8001 := by omega
    have low : (0x80010000 + messageTypeCode type) % 256 = messageTypeCode type := by omega
    apply (exact_readNat marked).bind readNamed
    rw [readNamed, if_pos high, low, own.1]
    exact (exact_readString called).bind (fun name => mapValue readI32 fun sequenceId => (name, type, sequenceId))
      ((exact_readI32 counted).map fun sequenceId => (some name, type, sequenceId))
  messageEnd bytes put := Option.some.inj put ▸ exact_nothing
  structBegin name bytes put := Option.some.inj put ▸ exact_nothing
  structEnd bytes put := Option.some.inj put ▸ exact_nothing
  fieldBegin name kind number bytes put := by
    simp only [protocol] at put
    split_ifs at put with outside
    push Not at outside
    simp only [written_cons, written_nil] at put
    obtain ⟨code, typed, behind, ⟨index, counted, none, rfl, rfl⟩, rfl⟩ := put
    rw [List.append_nil]
    apply (exact_readType typed).bind readNumber
    rw [readNumber, if_neg outside.1]
    have read := (exact_readNat counted).map fun number => (kind, (number : Int))
    rwa [Int.toNat_of_nonneg outside.2] at read
  fieldEnd bytes put := Option.some.inj put ▸ exact_nothing
  fieldStop bytes put := by
    have stop : Exact (readNumber .stop) [] (.stop, 0) :=
      ⟨fun _ => rfl, fun _ short => absurd short (Nat.not_lt_zero _)⟩
    have typed : writeType .stop = some bytes := put
    have read := (exact_readType typed).bind readNumber stop
    rw [List.append_nil] at read
    exact ⟨0, read⟩
  setBegin kind size bytes few put := by
    simp only [protocol, written_cons, written_nil] at put
    obtain ⟨code, typed, behind, ⟨count, counted, none, rfl, rfl⟩, rfl⟩ := put
    rw [List.append_nil]
    exact (exact_readType typed).bind (fun kind => mapValue (readNat 4) fun size => (kind, size))
      ((exact_readNat counted).map fun size => (kind, size))
  setEnd bytes put := Option.some.inj put ▸ exact_nothing
  i32 value bytes put := exact_readI32 put
  string text bytes put := exact_readString put

end RepublicAgent.BinaryProtocol
