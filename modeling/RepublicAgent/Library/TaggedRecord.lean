/-
This file reads records from a stream of bytes into an object. The fields of a record carry a kind and a number, and a
reader that is stopped in the middle keeps what it has read.
-/

import Mathlib.Tactic

namespace RepublicAgent.TaggedRecord

variable {Value Object Inner Kind : Type}

/-- A value and the rest of the stream, or a failure. -/
abbrev ValueReader (Value : Type) := List UInt8 → Option (Value × List UInt8)

/-- The changed object, and the rest of the stream without a failure. -/
abbrev Reader (Object : Type) := Object → List UInt8 → Object × Option (List UInt8)

/-- The value is read from these bytes, and fewer bytes are not enough. -/
structure Exact (read : ValueReader Value) (bytes : List UInt8) (value : Value) : Prop where
  whole : ∀ rest, read (bytes ++ rest) = some (value, rest)
  cut : ∀ count < bytes.length, read (bytes.take count) = none

/-- The first value tells how to read the second. -/
def bindValue {Other : Type} (read : ValueReader Value) (next : Value → ValueReader Other) : ValueReader Other :=
  fun stream => (read stream).bind fun result => next result.1 result.2

def mapValue {Other : Type} (read : ValueReader Value) (convert : Value → Other) : ValueReader Other :=
  fun stream => (read stream).map fun result => (convert result.1, result.2)

/-- The object behind one update after the other. -/
def updated (object : Object) (updates : List (Object → Object)) : Object :=
  updates.foldl (fun current update => update current) object

/-- These bytes make the updates. Fewer bytes make only the first of them, and the reader fails. -/
structure Reads (reader : Reader Object) (bytes : List UInt8) (updates : List (Object → Object)) : Prop where
  whole : ∀ object rest, reader object (bytes ++ rest) = (updated object updates, some rest)
  cut : ∀ object, ∀ count < bytes.length, ∃ made, made <+: updates ∧
    reader object (bytes.take count) = (updated object made, none)

/-- The bytes of calls that write one after the other. The first failure ends them. -/
def written : List (Option (List UInt8)) → Option (List UInt8)
  | [] => some []
  | part :: parts => part.bind fun bytes => (written parts).map fun more => bytes ++ more

/-- Nothing is read. -/
def update (change : Object → Object) : Reader Object := fun object stream => (change object, some stream)

def done : Reader Object := update id

def andThen (first second : Reader Object) : Reader Object := fun object stream =>
  match first object stream with
  | (changed, none) => (changed, none)
  | (changed, some rest) => second changed rest

/-- The value tells how to go on. -/
def readThen (read : ValueReader Value) (next : Value → Reader Object) : Reader Object := fun object stream =>
  match read stream with
  | none => (object, none)
  | some (value, rest) => next value object rest

/-- The value goes into the object. -/
def readInto (read : ValueReader Value) (change : Value → Object → Object) : Reader Object :=
  readThen read fun value => update (change value)

/-- The value is dropped. -/
def readOver (read : ValueReader Value) : Reader Object := readThen read fun _ => done

/-- The reader works on a part of the object. -/
def within (get : Object → Inner) (set : Inner → Object → Object) (reader : Reader Inner) : Reader Object :=
  fun object stream =>
    let result := reader (get object) stream
    (set result.1 object, result.2)

/-- The value of each element goes into the object. -/
def readMany (read : ValueReader Value) (change : Value → Object → Object) : Nat → Reader Object
  | 0 => done
  | size + 1 => andThen (readInto read change) (readMany read change size)

/-- The marks of a record on the stream. The kind `stop` ends the fields. -/
structure Framing (Kind : Type) where
  recordBegin : ValueReader Unit
  fieldBegin : ValueReader (Kind × Int)
  fieldEnd : ValueReader Unit
  recordEnd : ValueReader Unit
  stop : Kind

/-- The handler reads the content of each field. The number of fields is bounded by the fuel. -/
def readFields [DecidableEq Kind] (framing : Framing Kind) (handler : Kind → Int → Reader Object) :
    Nat → Reader Object
  | 0 => fun object _ => (object, none)
  | fuel + 1 => readThen framing.fieldBegin fun mark =>
      if mark.1 = framing.stop then done
      else andThen (andThen (handler mark.1 mark.2) (readOver framing.fieldEnd)) (readFields framing handler fuel)

def readRecord [DecidableEq Kind] (framing : Framing Kind) (handler : Kind → Int → Reader Object) (fuel : Nat) :
    Reader Object :=
  andThen (andThen (readOver framing.recordBegin) (readFields framing handler fuel)) (readOver framing.recordEnd)

/-- A field on the stream with the updates that it makes. -/
structure Field (Kind Object : Type) where
  kind : Kind
  number : Int
  opening : List UInt8
  content : List UInt8
  closing : List UInt8
  updates : List (Object → Object)

def Field.bytes (field : Field Kind Object) : List UInt8 := field.opening ++ (field.content ++ field.closing)

/-- The handler reads the content of the field between its marks. -/
structure Field.Written (framing : Framing Kind) (handler : Kind → Int → Reader Object) (field : Field Kind Object) :
    Prop where
  continues : field.kind ≠ framing.stop
  opening : Exact framing.fieldBegin field.opening (field.kind, field.number)
  content : Reads (handler field.kind field.number) field.content field.updates
  closing : Exact framing.fieldEnd field.closing ()

section Updates

theorem updated_append (object : Object) (first second : List (Object → Object)) :
    updated object (first ++ second) = updated (updated object first) second := List.foldl_append

end Updates

section Writers

variable {parts : List (Option (List UInt8))} {part : Option (List UInt8)} {bytes : List UInt8}

theorem written_nil : written [] = some bytes ↔ bytes = [] := by
  rw [written, Option.some.injEq, eq_comm]

theorem written_cons : written (part :: parts) = some bytes ↔
    ∃ first, part = some first ∧ ∃ rest, written parts = some rest ∧ bytes = first ++ rest := by
  simp only [written, Option.bind_eq_some_iff, Option.map_eq_some_iff, @eq_comm _ bytes]

end Writers

section Readers

variable {reader first second : Reader Object} {bytes more : List UInt8} {updates others : List (Object → Object)}
  {read : ValueReader Value} {value : Value}

theorem reads_update (change : Object → Object) : Reads (update change) [] [change] :=
  ⟨fun _ _ => rfl, fun _ _ short => absurd short (Nat.not_lt_zero _)⟩

theorem reads_done : Reads (done : Reader Object) [] [] :=
  ⟨fun _ _ => rfl, fun _ _ short => absurd short (Nat.not_lt_zero _)⟩

/-- The bytes of both values stand behind one another. -/
theorem Exact.bind {Other : Type} {other : Other} (exact : Exact read bytes value) (next : Value → ValueReader Other)
    (behind : Exact (next value) more other) : Exact (bindValue read next) (bytes ++ more) other := by
  constructor
  · intro rest
    rw [bindValue, List.append_assoc, exact.whole]
    exact behind.whole rest
  · intro count short
    rw [List.length_append] at short
    rw [bindValue]
    by_cases early : count < bytes.length
    · rw [List.take_append_of_le_length early.le, exact.cut count early]
      rfl
    · rw [List.take_append, List.take_of_length_le (by omega), exact.whole]
      exact behind.cut (count - bytes.length) (by omega)

theorem Exact.map {Other : Type} (exact : Exact read bytes value) (convert : Value → Other) :
    Exact (mapValue read convert) bytes (convert value) := by
  constructor
  · intro rest
    rw [mapValue, exact.whole]
    rfl
  · intro count short
    rw [mapValue, exact.cut count short]
    rfl

/-- One reader after the other. -/
theorem Reads.andThen (before : Reads first bytes updates) (behind : Reads second more others) :
    Reads (andThen first second) (bytes ++ more) (updates ++ others) := by
  constructor
  · intro object rest
    rw [TaggedRecord.andThen, List.append_assoc, before.whole]
    exact (behind.whole _ rest).trans (by rw [updated_append])
  · intro object count short
    rw [List.length_append] at short
    by_cases early : count < bytes.length
    · obtain ⟨made, inside, stopped⟩ := before.cut object count early
      refine ⟨made, inside.trans (List.prefix_append _ _), ?_⟩
      rw [TaggedRecord.andThen, List.take_append_of_le_length early.le, stopped]
    · obtain ⟨made, inside, stopped⟩ := behind.cut (updated object updates) (count - bytes.length) (by omega)
      refine ⟨updates ++ made, (List.prefix_append_right_inj updates).mpr inside, ?_⟩
      rw [TaggedRecord.andThen, List.take_append, List.take_of_length_le (by omega), before.whole, updated_append]
      exact stopped

theorem Exact.readThen (exact : Exact read bytes value) (next : Value → Reader Object)
    (behind : Reads (next value) more updates) : Reads (readThen read next) (bytes ++ more) updates := by
  constructor
  · intro object rest
    rw [TaggedRecord.readThen, List.append_assoc, exact.whole]
    exact behind.whole object rest
  · intro object count short
    rw [List.length_append] at short
    by_cases early : count < bytes.length
    · refine ⟨[], List.nil_prefix, ?_⟩
      rw [TaggedRecord.readThen, List.take_append_of_le_length early.le, exact.cut count early]
      rfl
    · obtain ⟨made, inside, stopped⟩ := behind.cut object (count - bytes.length) (by omega)
      refine ⟨made, inside, ?_⟩
      rw [TaggedRecord.readThen, List.take_append, List.take_of_length_le (by omega), exact.whole]
      exact stopped

theorem Exact.readInto (exact : Exact read bytes value) (change : Value → Object → Object) :
    Reads (readInto read change) bytes [change value] := by
  have reads := exact.readThen (fun value => update (change value)) (reads_update (change value))
  rwa [List.append_nil] at reads

theorem Exact.readOver (exact : Exact read bytes value) : Reads (readOver read : Reader Object) bytes [] := by
  have reads := exact.readThen (fun _ => (done : Reader Object)) reads_done
  rwa [List.append_nil] at reads

/-- The updates of a part are updates of the object. -/
theorem Reads.within {inner : Reader Inner} {changes : List (Inner → Inner)} (reads : Reads inner bytes changes)
    {get : Object → Inner} {set : Inner → Object → Object} (getSet : ∀ part object, get (set part object) = part)
    (setGet : ∀ object, set (get object) object = object)
    (setSet : ∀ part other object, set part (set other object) = set part object) :
    Reads (within get set inner) bytes (changes.map fun change object => set (change (get object)) object) := by
  have fold (made : List (Inner → Inner)) (object : Object) :
      updated object (made.map fun change object => set (change (get object)) object) =
        set (updated (get object) made) object := by
    induction made generalizing object with
    | nil => exact (setGet object).symm
    | cons change made ih =>
        show updated (set (change (get object)) object) (made.map _) = set (updated (change (get object)) made) object
        rw [ih, getSet, setSet]
  constructor
  · intro object rest
    rw [TaggedRecord.within, reads.whole, fold]
  · intro object count short
    obtain ⟨made, inside, stopped⟩ := reads.cut (get object) count short
    refine ⟨made.map _, inside.map _, ?_⟩
    rw [TaggedRecord.within, stopped, fold]

/-- The elements are read back in the order in which they were written. -/
theorem readMany_reads {Item : Type} {write : Item → Option (List UInt8)} {reading : Item → Value}
    (back : ∀ item piece, write item = some piece → Exact read piece (reading item))
    (change : Value → Object → Object) {items : List Item} (put : written (items.map write) = some bytes) :
    Reads (readMany read change items.length) bytes (items.map fun item => change (reading item)) := by
  induction items generalizing bytes with
  | nil =>
      obtain rfl := written_nil.mp put
      exact reads_done
  | cons item items ih =>
      obtain ⟨piece, made, more, behind, rfl⟩ := written_cons.mp put
      exact ((back item piece made).readInto change).andThen (ih behind)

end Readers

section Records

variable [DecidableEq Kind] {framing : Framing Kind} {handler : Kind → Int → Reader Object}
  {fields : List (Field Kind Object)} {stopping opening closing : List UInt8} {number : Int}

/-- The fields stand behind one another up to the stop. -/
theorem readFields_reads (written : ∀ field ∈ fields, field.Written framing handler)
    (stop : Exact framing.fieldBegin stopping (framing.stop, number)) {fuel : Nat} (enough : fields.length < fuel) :
    Reads (readFields framing handler fuel) (fields.flatMap Field.bytes ++ stopping)
      (fields.flatMap Field.updates) := by
  obtain ⟨fuel, rfl⟩ : ∃ less, fuel = less + 1 := ⟨fuel - 1, by omega⟩
  induction fields generalizing fuel with
  | nil =>
      have ended : Reads (if framing.stop = framing.stop then (done : Reader Object) else
          andThen (andThen (handler framing.stop number) (readOver framing.fieldEnd))
            (readFields framing handler fuel)) [] [] := by
        rw [if_pos rfl]
        exact reads_done
      have reads := stop.readThen (fun mark => if mark.1 = framing.stop then (done : Reader Object) else
        andThen (andThen (handler mark.1 mark.2) (readOver framing.fieldEnd)) (readFields framing handler fuel)) ended
      rwa [List.append_nil] at reads
  | cons field fields ih =>
      obtain ⟨fuel, rfl⟩ : ∃ less, fuel = less + 1 := ⟨fuel - 1, by simp only [List.length_cons] at enough; omega⟩
      have head := written field List.mem_cons_self
      have tail := ih (fun other member => written other (List.mem_cons_of_mem field member)) fuel
        (by simpa using enough)
      have content := (head.content.andThen head.closing.readOver).andThen tail
      rw [List.append_nil] at content
      rw [List.flatMap_cons, Field.bytes, List.append_assoc, List.append_assoc, List.flatMap_cons]
      apply head.opening.readThen fun mark => if mark.1 = framing.stop then (done : Reader Object) else
        andThen (andThen (handler mark.1 mark.2) (readOver framing.fieldEnd)) (readFields framing handler (fuel + 1))
      rw [if_neg head.continues]
      exact content

/-- A record consists of its fields between two marks. -/
theorem readRecord_reads (begins : Exact framing.recordBegin opening ())
    (written : ∀ field ∈ fields, field.Written framing handler)
    (stop : Exact framing.fieldBegin stopping (framing.stop, number)) (ends : Exact framing.recordEnd closing ())
    {fuel : Nat} (enough : fields.length < fuel) :
    Reads (readRecord framing handler fuel) (opening ++ (fields.flatMap Field.bytes ++ stopping) ++ closing)
      (fields.flatMap Field.updates) := by
  have reads := (begins.readOver.andThen (readFields_reads written stop enough)).andThen
    (ends.readOver : Reads (readOver framing.recordEnd : Reader Object) closing [])
  rwa [List.nil_append, List.append_nil] at reads

end Records

end RepublicAgent.TaggedRecord
