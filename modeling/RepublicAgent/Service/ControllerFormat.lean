/-
This file models the records of the controller service as the generated code writes and reads them. The protocol and
the hash table of the libraries are parameters.
-/

import RepublicAgent.Channel.Frame
import RepublicAgent.Library.TaggedRecord
import RepublicAgent.Message.FileNames
import RepublicAgent.Service.PathRequest

namespace RepublicAgent
open Numerals TaggedRecord

/-- The characters of a string in front of its terminator. The library reads an empty string as a null pointer. -/
structure Text where
  chars : List Char
  nonempty : chars ≠ []
  terminated : Char.ofNat 0 ∉ chars
deriving DecidableEq, Repr

/-- The type codes of the fields, such as `T_STOP`. -/
inductive ThriftType where
  | stop
  | i32
  | string
  | struct
  | set
  | other (code : Nat)
deriving DecidableEq, Repr

inductive ThriftMessageType where
  | call
  | reply
  | exception
  | oneway
  | other (code : Nat)
deriving DecidableEq, Repr

/-- The functions of the protocol. A function that writes gives the bytes for the stream. -/
structure ThriftProtocol where
  writeMessageBegin : Text → ThriftMessageType → Int32 → Option (List UInt8)
  writeMessageEnd : Option (List UInt8)
  writeStructBegin : String → Option (List UInt8)
  writeStructEnd : Option (List UInt8)
  writeFieldBegin : String → ThriftType → Int → Option (List UInt8)
  writeFieldEnd : Option (List UInt8)
  writeFieldStop : Option (List UInt8)
  writeSetBegin : ThriftType → Nat → Option (List UInt8)
  writeSetEnd : Option (List UInt8)
  writeI32 : Int32 → Option (List UInt8)
  writeString : Option Text → Option (List UInt8)
  readMessageBegin : ValueReader (Option Text × ThriftMessageType × Int32)
  readMessageEnd : ValueReader Unit
  readStructBegin : ValueReader Unit
  readStructEnd : ValueReader Unit
  readFieldBegin : ValueReader (ThriftType × Int)
  readFieldEnd : ValueReader Unit
  readSetBegin : ValueReader (ThriftType × Nat)
  readSetEnd : ValueReader Unit
  readI32 : ValueReader Int32
  readString : ValueReader (Option Text)
  skip : ThriftType → ValueReader Unit

/-- What a function writes is read back by its counterpart, and not from fewer bytes. -/
structure ThriftProtocol.Documented (protocol : ThriftProtocol) : Prop where
  messageBegin : ∀ name type sequenceId bytes, protocol.writeMessageBegin name type sequenceId = some bytes →
    Exact protocol.readMessageBegin bytes (some name, type, sequenceId)
  messageEnd : ∀ bytes, protocol.writeMessageEnd = some bytes → Exact protocol.readMessageEnd bytes ()
  structBegin : ∀ name bytes, protocol.writeStructBegin name = some bytes → Exact protocol.readStructBegin bytes ()
  structEnd : ∀ bytes, protocol.writeStructEnd = some bytes → Exact protocol.readStructEnd bytes ()
  fieldBegin : ∀ name kind number bytes, protocol.writeFieldBegin name kind number = some bytes →
    Exact protocol.readFieldBegin bytes (kind, number)
  fieldEnd : ∀ bytes, protocol.writeFieldEnd = some bytes → Exact protocol.readFieldEnd bytes ()
  fieldStop : ∀ bytes, protocol.writeFieldStop = some bytes →
    ∃ number, Exact protocol.readFieldBegin bytes (.stop, number)
  setBegin : ∀ kind size bytes, size < 2147483648 → protocol.writeSetBegin kind size = some bytes →
    Exact protocol.readSetBegin bytes (kind, size)
  setEnd : ∀ bytes, protocol.writeSetEnd = some bytes → Exact protocol.readSetEnd bytes ()
  i32 : ∀ value bytes, protocol.writeI32 value = some bytes → Exact protocol.readI32 bytes value
  string : ∀ text bytes, protocol.writeString (some text) = some bytes → Exact protocol.readString bytes (some text)

/-- The order in which the hash table is walked. -/
structure Walk where
  keys : Finset Text → List Text
  nodup : ∀ table, (keys table).Nodup
  all : ∀ table, (keys table).toFinset = table

structure BcdInfo where
  id : Option Text
  size : Int32
deriving DecidableEq

structure PushArgs where
  master : Option Text
  slaves : Finset Text
  data : BcdInfo
deriving DecidableEq

structure PushResult where
  success : PushReply
  issetSuccess : Bool
deriving DecidableEq

structure UnpushArgs where
  xid : Int32
deriving DecidableEq

/-- The objects behind the functions `instance_init`. -/
def BcdInfo.fresh : BcdInfo := ⟨none, 0⟩

def PushArgs.fresh : PushArgs := ⟨none, ∅, BcdInfo.fresh⟩

def PushResult.fresh : PushResult := ⟨PushReply.fresh, false⟩

def UnpushArgs.fresh : UnpushArgs := ⟨0⟩

section Functions

variable (protocol : ThriftProtocol)

def ThriftProtocol.framing : Framing ThriftType where
  recordBegin := protocol.readStructBegin
  fieldBegin := protocol.readFieldBegin
  fieldEnd := protocol.readFieldEnd
  recordEnd := protocol.readStructEnd
  stop := .stop

def ThriftProtocol.writeField (name : String) (kind : ThriftType) (number : Int) (content : Option (List UInt8)) :
    Option (List UInt8) :=
  written [protocol.writeFieldBegin name kind number, content, protocol.writeFieldEnd]

def ThriftProtocol.writeRecord (name : String) (fields : List (Option (List UInt8))) : Option (List UInt8) :=
  written [protocol.writeStructBegin name, written fields, protocol.writeFieldStop, protocol.writeStructEnd]

def bcdInfoWrite (object : BcdInfo) : Option (List UInt8) :=
  protocol.writeRecord "BcdInfo"
    [protocol.writeField "id" .string 1 (protocol.writeString object.id),
      protocol.writeField "size" .i32 2 (protocol.writeI32 object.size)]

/-- A field of the wrong type is skipped, as an unknown one is. The old string is freed first. -/
def bcdInfoField : ThriftType → Int → Reader BcdInfo
  | .string, 1 => andThen (update fun object => { object with id := none })
      (readInto protocol.readString fun id object => { object with id := id })
  | .i32, 2 => readInto protocol.readI32 fun size object => { object with size := size }
  | kind, _ => readOver (protocol.skip kind)

def bcdInfoRead (fuel : Nat) : Reader BcdInfo := readRecord protocol.framing (bcdInfoField protocol) fuel

def pushReplyWrite (object : PushReply) : Option (List UInt8) :=
  protocol.writeRecord "PushReply"
    [protocol.writeField "xid" .i32 1 (protocol.writeI32 object.xid),
      protocol.writeField "cmd" .i32 2 (protocol.writeI32 object.cmd)]

def pushReplyField : ThriftType → Int → Reader PushReply
  | .i32, 1 => readInto protocol.readI32 fun xid object => { object with xid := xid }
  | .i32, 2 => readInto protocol.readI32 fun cmd object => { object with cmd := cmd }
  | kind, _ => readOver (protocol.skip kind)

def pushReplyRead (fuel : Nat) : Reader PushReply := readRecord protocol.framing (pushReplyField protocol) fuel

/-- The keys of a hash table as a set. -/
def writeServers (walk : Walk) (servers : Finset Text) : Option (List UInt8) :=
  written [protocol.writeSetBegin .string servers.card,
    written ((walk.keys servers).map fun elem => protocol.writeString (some elem)), protocol.writeSetEnd]

/-- The fields of the arguments. The client writes them as the record does. -/
def pushArgsFields (walk : Walk) (object : PushArgs) : List (Option (List UInt8)) :=
  [protocol.writeField "master" .string 1 (protocol.writeString object.master),
    protocol.writeField "slaves" .set 2 (writeServers protocol walk object.slaves),
    protocol.writeField "data" .struct 3 (bcdInfoWrite protocol object.data)]

def pushArgsWrite (walk : Walk) (object : PushArgs) : Option (List UInt8) :=
  protocol.writeRecord "BcdServicePushArgs" (pushArgsFields protocol walk object)

def insertServer (elem : Option Text) (object : PushArgs) : PushArgs :=
  match elem with
  | none => object
  | some server => { object with slaves := insert server object.slaves }

def pushArgsField (fuel : Nat) : ThriftType → Int → Reader PushArgs
  | .string, 1 => andThen (update fun object => { object with master := none })
      (readInto protocol.readString fun master object => { object with master := master })
  | .set, 2 => andThen
      (readThen protocol.readSetBegin fun header => readMany protocol.readString insertServer header.2)
      (readOver protocol.readSetEnd)
  | .struct, 3 => within PushArgs.data (fun data object => { object with data := data }) (bcdInfoRead protocol fuel)
  | kind, _ => readOver (protocol.skip kind)

def pushArgsRead (fuel : Nat) : Reader PushArgs := readRecord protocol.framing (pushArgsField protocol fuel) fuel

def pushResultWrite (object : PushResult) : Option (List UInt8) :=
  protocol.writeRecord "BcdServicePushResult"
    (if object.issetSuccess then
      [protocol.writeField "success" .struct 0 (pushReplyWrite protocol object.success)] else [])

def pushResultField (fuel : Nat) : ThriftType → Int → Reader PushResult
  | .struct, 0 => andThen
      (within PushResult.success (fun success object => { object with success := success })
        (pushReplyRead protocol fuel))
      (update fun object => { object with issetSuccess := true })
  | kind, _ => readOver (protocol.skip kind)

def pushResultRead (fuel : Nat) : Reader PushResult := readRecord protocol.framing (pushResultField protocol fuel) fuel

def unpushArgsFields (object : UnpushArgs) : List (Option (List UInt8)) :=
  [protocol.writeField "xid" .i32 1 (protocol.writeI32 object.xid)]

def unpushArgsWrite (object : UnpushArgs) : Option (List UInt8) :=
  protocol.writeRecord "BcdServiceUnpushArgs" (unpushArgsFields protocol object)

def unpushArgsField : ThriftType → Int → Reader UnpushArgs
  | .i32, 1 => readInto protocol.readI32 fun xid object => { object with xid := xid }
  | kind, _ => readOver (protocol.skip kind)

def unpushArgsRead (fuel : Nat) : Reader UnpushArgs := readRecord protocol.framing (unpushArgsField protocol) fuel

end Functions

/-- The part reads as a field that makes the updates. -/
def FieldReads {Object : Type} (protocol : ThriftProtocol) (handler : ThriftType → Int → Reader Object)
    (part : Option (List UInt8)) (updates : List (Object → Object)) : Prop :=
  ∀ bytes, part = some bytes → ∃ field : Field ThriftType Object, field.Written protocol.framing handler ∧
    field.bytes = bytes ∧ field.updates = updates

section Records

variable {Object : Type} {protocol : ThriftProtocol} {handler : ThriftType → Int → Reader Object}
  {bytes : List UInt8}

/-- The handler of the field reads what was written between its marks. -/
theorem ThriftProtocol.Documented.field (documented : protocol.Documented) {name : String} {kind : ThriftType}
    {number : Int} {content : Option (List UInt8)} {updates : List (Object → Object)} (continues : kind ≠ .stop)
    (reads : ∀ inner, content = some inner → Reads (handler kind number) inner updates) :
    FieldReads protocol handler (protocol.writeField name kind number content) updates := by
  intro whole put
  simp only [ThriftProtocol.writeField, written_cons, written_nil] at put
  obtain ⟨opening, begun, middle, ⟨inner, held, more, ⟨closing, ended, last, rfl, rfl⟩, rfl⟩, rfl⟩ := put
  refine ⟨⟨kind, number, opening, inner, closing, updates⟩, ⟨continues, ?_, reads inner held, ?_⟩, ?_, rfl⟩
  · exact documented.fieldBegin name kind number opening begun
  · exact documented.fieldEnd closing ended
  · rw [Field.bytes, List.append_nil]

/-- A record reads as its fields do. -/
theorem ThriftProtocol.Documented.record (documented : protocol.Documented) {name : String}
    {parts : List (Option (List UInt8))} {updates : List (List (Object → Object))}
    (each : List.Forall₂ (FieldReads protocol handler) parts updates)
    (put : protocol.writeRecord name parts = some bytes) {fuel : Nat} (enough : parts.length < fuel) :
    Reads (readRecord protocol.framing handler fuel) bytes updates.flatten := by
  simp only [ThriftProtocol.writeRecord, written_cons, written_nil] at put
  obtain ⟨opening, begun, behind, ⟨body, inner, marks, ⟨stopping, stopped, last, ⟨closing, ended, none, rfl, rfl⟩, rfl⟩,
    rfl⟩, rfl⟩ := put
  have fields : ∃ fields : List (Field ThriftType Object), (∀ field ∈ fields, field.Written protocol.framing handler) ∧
      fields.flatMap Field.bytes = body ∧ fields.flatMap Field.updates = updates.flatten ∧
      fields.length = parts.length := by
    clear enough
    induction each generalizing body with
    | nil =>
        exact ⟨[], fun _ member => absurd member List.not_mem_nil, (written_nil.mp inner).symm, rfl, rfl⟩
    | cons first rest ih =>
        obtain ⟨one, held, others, behind, rfl⟩ := written_cons.mp inner
        obtain ⟨field, done, rfl, rfl⟩ := first one held
        obtain ⟨fields, all, rfl, made, size⟩ := ih others behind
        refine ⟨field :: fields, ?_, rfl, ?_, congrArg (· + 1) size⟩
        · intro other member
          rcases List.mem_cons.mp member with rfl | later
          · exact done
          · exact all other later
        · rw [List.flatMap_cons, made, List.flatten_cons]
  obtain ⟨fields, all, rfl, made, size⟩ := fields
  have begins : Exact protocol.framing.recordBegin opening () := documented.structBegin name opening begun
  have ends : Exact protocol.framing.recordEnd closing () := documented.structEnd closing ended
  obtain ⟨number, stop⟩ : ∃ number, Exact protocol.framing.fieldBegin stopping (protocol.framing.stop, number) :=
    documented.fieldStop stopping stopped
  have reads := readRecord_reads begins all stop ends (size ▸ enough : fields.length < fuel)
  rw [made] at reads
  convert reads using 1
  simp only [List.append_nil, List.append_assoc]

end Records

section Objects

variable {protocol : ThriftProtocol} {walk : Walk} {bytes : List UInt8} {fuel : Nat}

/-- The changes of an object into which a record is read. -/
def BcdInfo.updates (id : Text) (size : Int32) : List (BcdInfo → BcdInfo) :=
  [fun object => { object with id := none }, fun object => { object with id := some id },
    fun object => { object with size := size }]

theorem bcdInfo_reads (documented : protocol.Documented) {id : Text} {size : Int32}
    (put : bcdInfoWrite protocol ⟨some id, size⟩ = some bytes) (enough : 2 < fuel) :
    Reads (bcdInfoRead protocol fuel) bytes (BcdInfo.updates id size) := by
  have idField : FieldReads protocol (bcdInfoField protocol)
      (protocol.writeField "id" .string 1 (protocol.writeString (some id)))
      [fun object => { object with id := none }, fun object => { object with id := some id }] :=
    documented.field (by decide) fun inner held =>
      (reads_update fun object : BcdInfo => { object with id := none }).andThen
        ((documented.string id inner held).readInto _)
  have sizeField : FieldReads protocol (bcdInfoField protocol)
      (protocol.writeField "size" .i32 2 (protocol.writeI32 size)) [fun object => { object with size := size }] :=
    documented.field (by decide) fun inner held => (documented.i32 size inner held).readInto _
  exact documented.record (.cons idField (.cons sizeField .nil)) put enough

theorem pushReply_reads (documented : protocol.Documented) {reply : PushReply}
    (put : pushReplyWrite protocol reply = some bytes) (enough : 2 < fuel) :
    Reads (pushReplyRead protocol fuel) bytes
      [fun object => { object with xid := reply.xid }, fun object => { object with cmd := reply.cmd }] := by
  have xidField : FieldReads protocol (pushReplyField protocol)
      (protocol.writeField "xid" .i32 1 (protocol.writeI32 reply.xid))
      [fun object => { object with xid := reply.xid }] :=
    documented.field (by decide) fun inner held => (documented.i32 reply.xid inner held).readInto _
  have cmdField : FieldReads protocol (pushReplyField protocol)
      (protocol.writeField "cmd" .i32 2 (protocol.writeI32 reply.cmd))
      [fun object => { object with cmd := reply.cmd }] :=
    documented.field (by decide) fun inner held => (documented.i32 reply.cmd inner held).readInto _
  exact documented.record (.cons xidField (.cons cmdField .nil)) put enough

theorem unpushArgs_reads (documented : protocol.Documented) {name : String} {object : UnpushArgs}
    (put : protocol.writeRecord name (unpushArgsFields protocol object) = some bytes) (enough : 1 < fuel) :
    Reads (unpushArgsRead protocol fuel) bytes [fun args => { args with xid := object.xid }] := by
  have xidField : FieldReads protocol (unpushArgsField protocol)
      (protocol.writeField "xid" .i32 1 (protocol.writeI32 object.xid)) [fun args => { args with xid := object.xid }] :=
    documented.field (by decide) fun inner held => (documented.i32 object.xid inner held).readInto _
  exact documented.record (.cons xidField .nil) put enough

/-- The servers of a set are read in the order of the walk. -/
theorem servers_read (documented : protocol.Documented) {servers : Finset Text} (few : servers.card < 2147483648)
    (put : writeServers protocol walk servers = some bytes) :
    Reads (pushArgsField protocol fuel .set 2) bytes ((walk.keys servers).map fun elem => insertServer (some elem)) := by
  simp only [writeServers, written_cons, written_nil] at put
  obtain ⟨opening, begun, behind, ⟨body, inner, last, ⟨closing, ended, none, rfl, rfl⟩, rfl⟩, rfl⟩ := put
  have length : (walk.keys servers).length = servers.card := by
    rw [← List.toFinset_card_of_nodup (walk.nodup servers), walk.all]
  have elements := readMany_reads (documented.string · · ·) insertServer inner
  rw [length] at elements
  have reads := ((documented.setBegin .string servers.card opening few begun).readThen
    (fun header => readMany protocol.readString insertServer header.2) elements).andThen
    (documented.setEnd closing ended).readOver
  rwa [List.append_nil, List.append_assoc, ← List.append_nil closing] at reads

theorem updated_insertServer (object : PushArgs) (servers : List Text) :
    updated object (servers.map fun elem => insertServer (some elem)) =
      { object with slaves := servers.toFinset ∪ object.slaves } := by
  induction servers generalizing object with
  | nil => simp [updated]
  | cons server servers ih =>
      show updated (insertServer (some server) object) (servers.map _) = _
      rw [ih, insertServer]
      simp only [PushArgs.mk.injEq, true_and, and_true]
      rw [List.toFinset_cons, Finset.insert_union, Finset.union_insert]

/-- The strings of the arguments are set, and the number of servers has a sign bit to spare. -/
structure PushArgs.Complete (object : PushArgs) : Prop where
  master : object.master ≠ none
  id : object.data.id ≠ none
  few : object.slaves.card < 2147483648

/-- A fresh object takes the arguments that were written. -/
theorem pushArgs_reads (documented : protocol.Documented) {name : String} {object : PushArgs}
    (complete : object.Complete) (put : protocol.writeRecord name (pushArgsFields protocol walk object) = some bytes)
    (enough : 3 < fuel) : ∃ updates, Reads (pushArgsRead protocol fuel) bytes updates ∧
      updated PushArgs.fresh updates = object := by
  obtain ⟨master, slaves, ⟨id, size⟩⟩ := object
  obtain ⟨master, rfl⟩ := Option.ne_none_iff_exists'.mp complete.master
  obtain ⟨id, same⟩ := Option.ne_none_iff_exists'.mp complete.id
  obtain rfl : _ = _ := same
  have masterField : FieldReads protocol (pushArgsField protocol fuel)
      (protocol.writeField "master" .string 1 (protocol.writeString (some master)))
      [fun object => { object with master := none }, fun object => { object with master := some master }] :=
    documented.field (by decide) fun inner held =>
      (reads_update fun object : PushArgs => { object with master := none }).andThen
        ((documented.string master inner held).readInto _)
  have slavesField : FieldReads protocol (pushArgsField protocol fuel)
      (protocol.writeField "slaves" .set 2 (writeServers protocol walk slaves))
      ((walk.keys slaves).map fun elem => insertServer (some elem)) :=
    documented.field (by decide) fun inner held => servers_read documented complete.few held
  have dataField : FieldReads protocol (pushArgsField protocol fuel)
      (protocol.writeField "data" .struct 3 (bcdInfoWrite protocol ⟨some id, size⟩))
      ((BcdInfo.updates id size).map fun change object => { object with data := change object.data }) := by
    apply documented.field (by decide)
    intro inner held
    have info := bcdInfo_reads documented held (show 2 < fuel by omega)
    show Reads (within PushArgs.data (fun data object => { object with data := data }) _) inner _
    exact info.within (fun _ _ => rfl) (fun _ => rfl) (fun _ _ _ => rfl)
  refine ⟨_, documented.record (.cons masterField (.cons slavesField (.cons dataField .nil))) put enough, ?_⟩
  simp only [List.flatten_cons, List.flatten_nil, updated_append, updated_insertServer, walk.all]
  simp [updated, PushArgs.fresh, BcdInfo.updates]

end Objects

end RepublicAgent
