/-
This file follows the bytes of the fast path from the file of the sender to the fields that a receiver reads.
-/

import RepublicAgent.Sender.DataThread
import RepublicAgent.Sender.PacketBytes
import RepublicAgent.Sender.PatchRead

namespace RepublicAgent
open MachineInteger Slices

/-- The next packet and the position of the file are carried from packet to packet. -/
structure SendCursor where
  seqCur : Nat
  fd : ReadStream
deriving DecidableEq, Repr

/-- The next packet is put over the old bytes of a slot. A remainder by zero ends the agent. -/
def fillSlot (source : PacketSource) (cursor : SendCursor) (slot : List UInt8) :
    Option (List UInt8 × SendCursor) :=
  if source.seqMax = 0 then none
  else
    let made := PacketBytes.createData slot source cursor.fd (cursor.seqCur % source.seqMax)
    some (made.1, ⟨u32 ((cursor.seqCur : Int) + 1), made.2⟩)

/-- The loop of `am_process_rings` fills the free slots one after the other. -/
def fillSlots (source : PacketSource) : SendCursor → List (List UInt8) → Option (List (List UInt8) × SendCursor)
  | cursor, [] => some ([], cursor)
  | cursor, slot :: slots =>
      (fillSlot source cursor slot).bind fun filled =>
        (fillSlots source filled.2 slots).map fun rest => (filled.1 :: rest.1, rest.2)

/-- The calls follow one another, each with its own slots. -/
def processBursts (source : PacketSource) :
    SendCursor → List (List (List UInt8)) → Option (List (List UInt8) × SendCursor)
  | cursor, [] => some ([], cursor)
  | cursor, burst :: bursts =>
      (fillSlots source cursor burst).bind fun filled =>
        (processBursts source filled.2 bursts).map fun rest => (filled.1 ++ rest.1, rest.2)

/-- The data of a received packet are the bytes behind its header. -/
def dataOf (packet : List UInt8) : List UInt8 := (packet.drop dataHdrLen).take (parseDataHdr packet).len

/-- A receiver reads packet number `index` of the fast path as the one of its place in the round. -/
structure Decoded (source : PacketSource) (index : Nat) (packet : List UInt8) : Prop where
  bcdId : (parseDataHdr packet).bcdId = source.bcdId
  seqNum : (parseDataHdr packet).seqNum = index % source.seqMax
  len : (parseDataHdr packet).len = (slice source.data source.bytePayload (index % source.seqMax)).length
  payload : dataOf packet = slice source.data source.bytePayload (index % source.seqMax)
  metadata : index % source.seqMax = 0 →
    parseBcdMetadata (packet.drop (dataHdrLen + (parseDataHdr packet).len)) = ⟨source.data.length, source.appId⟩

/-- The receivers decode the packets of a source, know its geometry and get its whole file with the first
round. -/
structure ReceiverDecodes (source : PacketSource) (packets : List (List UInt8)) : Prop where
  rounded : (source.seqMax : Int) = ceilQuotient source.data.length source.bytePayload
  geometry : ∀ recv : RecverState, recv.bytePayload = source.bytePayload →
    (recv.withGeometry ⟨source.data.length, source.appId⟩).seqMax = source.seqMax ∧
      (recv.withGeometry ⟨source.data.length, source.appId⟩).bytePayloadMin = source.bytePayloadMin
  decoded : ∀ index packet, packets[index]? = some packet → Decoded source index packet
  firstRound : source.seqMax ≤ packets.length → (packets.take source.seqMax).flatMap dataOf = source.data

section Splits

variable {source : PacketSource}

theorem fillSlots_append (cursor : SendCursor) (first second : List (List UInt8)) :
    fillSlots source cursor (first ++ second) =
      (fillSlots source cursor first).bind fun filled =>
        (fillSlots source filled.2 second).map fun rest => (filled.1 ++ rest.1, rest.2) := by
  induction first generalizing cursor with
  | nil => simp [fillSlots]
  | cons slot slots inductionHypothesis =>
      simp only [List.cons_append, fillSlots, inductionHypothesis]
      cases fillSlot source cursor slot with
      | none => rfl
      | some filled =>
          simp only [Option.bind_some]
          cases fillSlots source filled.2 slots <;> simp [Option.map_map, Function.comp_def]

/-- The split into bursts does not matter. -/
theorem processBursts_eq (cursor : SendCursor) (bursts : List (List (List UInt8))) :
    processBursts source cursor bursts = fillSlots source cursor bursts.flatten := by
  induction bursts generalizing cursor with
  | nil => rfl
  | cons burst bursts inductionHypothesis =>
      simp only [processBursts, List.flatten_cons, fillSlots_append, inductionHypothesis]

/-- The next packet after a burst is the one of the counters of the multicast. -/
theorem fillSlots_seqCur {cursor last : SendCursor} {slots packets : List (List UInt8)}
    (bounded : cursor.seqCur < 4294967296) (filled : fillSlots source cursor slots = some (packets, last)) :
    packets.length = slots.length ∧ last.seqCur = u32 ((cursor.seqCur : Int) + slots.length) := by
  induction slots generalizing cursor packets with
  | nil =>
      obtain ⟨rfl, rfl⟩ := Prod.mk.inj (Option.some.inj filled)
      exact ⟨rfl, (by simpa using (u32_natCast bounded).symm)⟩
  | cons slot slots inductionHypothesis =>
      simp only [fillSlots, Option.bind_eq_some_iff, Option.map_eq_some_iff, Prod.exists] at filled
      obtain ⟨packet, next, put, rest, final, behind, same⟩ := filled
      obtain ⟨rfl, rfl⟩ := Prod.mk.inj same
      simp only [fillSlot] at put
      split_ifs at put
      obtain ⟨-, rfl⟩ := Prod.mk.inj (Option.some.inj put)
      have wrapped : u32 ((cursor.seqCur : Int) + 1) < 4294967296 := unsigned_lt 32 _
      obtain ⟨length, counted⟩ := inductionHypothesis wrapped behind
      refine ⟨by rw [List.length_cons, List.length_cons, length], ?_⟩
      rw [counted, u32_add_u32, List.length_cons]
      push_cast
      ring_nf

/-- The loop counts as the call of `am_process_rings` does. -/
theorem amProcessRings_seqCur {multi : MulticastState} {release : PathRelease} {space maxPktnum : Int}
    {ring : TxRing} {outcome : MulticastState × PathRelease} {fd : ReadStream} {last : SendCursor}
    {slots packets : List (List UInt8)}
    (taken : amProcessRings multi release space maxPktnum ring = .ok outcome)
    (count : slots.length = (min maxPktnum space).toNat) (bounded : multi.seqCur < 4294967296)
    (filled : fillSlots source ⟨multi.seqCur, fd⟩ slots = some (packets, last)) :
    outcome.1.seqCur = last.seqCur := by
  rw [(amProcessRings_sent taken).1, (fillSlots_seqCur bounded filled).2, count]

end Splits

/-- The counter of 32 bits starts again at zero. -/
theorem u32_mod_succ (index : Nat) :
    u32 (((index % 4294967296 : Nat) : Int) + 1) = (index + 1) % 4294967296 := by
  rw [u32_eq]
  omega

/-- The counter of 32 bits has the place of the packet in the round. -/
def Aligned (seqMax index : Nat) : Prop := index % 4294967296 % seqMax = index % seqMax

/-- The counter keeps the places until it wraps, and for ever when whole rounds fit into it. -/
theorem aligned_iff {seqMax count : Nat} :
    (∀ index < count, Aligned seqMax index) ↔ count ≤ 4294967296 ∨ seqMax ∣ 4294967296 := by
  constructor
  · intro aligned
    by_cases short : count ≤ 4294967296
    · exact .inl short
    · have wrapped := aligned 4294967296 (by omega)
      rw [Aligned, Nat.mod_self, Nat.zero_mod] at wrapped
      exact .inr (Nat.dvd_of_mod_eq_zero wrapped.symm)
  · rintro (short | divides) index inside
    · rw [Aligned, Nat.mod_eq_of_lt (show index < 4294967296 by omega)]
    · exact Nat.mod_mod_of_dvd index divides

section Rounds

variable {source : PacketSource}

/-- In front of packet number `index` the counter has wrapped and the file is read up to the place of the
packet. The place of packet zero is also the end of the file. -/
structure CursorAt (source : PacketSource) (index : Nat) (cursor : SendCursor) : Prop where
  seqCur : cursor.seqCur = index % 4294967296
  fd : cursor.fd = ⟨source.data, source.offset (index % source.seqMax)⟩ ∨
    index % source.seqMax = 0 ∧ cursor.fd = ⟨source.data, source.data.length⟩

/-- An aligned packet is the one of its place, and the next packet follows it. -/
theorem fillSlot_aligned (cut : source.Cut) {index : Nat} {cursor : SendCursor}
    (start : CursorAt source index cursor)
    (aligned : Aligned source.seqMax index) (slot : List UInt8) :
    ∃ next, fillSlot source cursor slot = some (source.packet (index % source.seqMax), next) ∧
      CursorAt source (index + 1) next := by
  have positive := cut.seqMax_pos
  have inRange := Nat.mod_lt index positive
  have made : PacketBytes.createData slot source cursor.fd (index % source.seqMax) =
      (source.packet (index % source.seqMax), ⟨source.data, source.offset (index % source.seqMax + 1)⟩) := by
    rcases start.fd with inside | ⟨zero, atEnd⟩
    · rw [inside]
      exact cut.createData_eq inRange slot
    · rw [atEnd, zero]
      exact cut.createData_end slot
  refine ⟨⟨u32 ((cursor.seqCur : Int) + 1), ⟨source.data, source.offset (index % source.seqMax + 1)⟩⟩, ?_, ?_, ?_⟩
  · rw [fillSlot, if_neg positive.ne', start.seqCur, aligned, made]
  · rw [start.seqCur]
    exact u32_mod_succ index
  · have place := Nat.add_mod index 1 source.seqMax
    by_cases last : index % source.seqMax + 1 = source.seqMax
    · refine .inr ⟨?_, by rw [last, cut.offset_seqMax]⟩
      rw [← Nat.mod_add_mod, last, Nat.mod_self]
    · refine .inl ?_
      rw [← Nat.mod_add_mod, Nat.mod_eq_of_lt (show index % source.seqMax + 1 < source.seqMax by omega)]

/-- Aligned packets are the ones of their places. -/
theorem fillSlots_aligned (cut : source.Cut) {slots : List (List UInt8)} {index : Nat} {cursor : SendCursor}
    (start : CursorAt source index cursor)
    (aligned : ∀ later, index ≤ later → later < index + slots.length → Aligned source.seqMax later) :
    ∃ last, fillSlots source cursor slots =
      some ((List.range' index slots.length).map fun later => source.packet (later % source.seqMax), last) := by
  induction slots generalizing index cursor with
  | nil => exact ⟨cursor, rfl⟩
  | cons slot slots inductionHypothesis =>
      rw [List.length_cons] at aligned
      obtain ⟨next, put, after⟩ := fillSlot_aligned cut start (aligned index (le_refl _) (by omega)) slot
      obtain ⟨last, rest⟩ := inductionHypothesis after fun later lower upper => aligned later (by omega) (by omega)
      refine ⟨last, ?_⟩
      rw [fillSlots, put, Option.bind_some, rest, List.length_cons, List.range'_succ]
      rfl

/-- The number in an emitted packet is the place of the counter, wherever the file is read. -/
theorem fillSlots_seqNum (seqMaxFits : source.seqMax < 4294967296)
    (lenFits : ∀ seq, source.dataBytes seq < 4294967296)
    {slots packets : List (List UInt8)} {index : Nat} {cursor last : SendCursor}
    (counter : cursor.seqCur = index % 4294967296) (filled : fillSlots source cursor slots = some (packets, last))
    {ahead : Nat} {packet : List UInt8} (present : packets[ahead]? = some packet) :
    (parseDataHdr packet).seqNum = (index + ahead) % 4294967296 % source.seqMax := by
  induction slots generalizing index cursor packets ahead with
  | nil =>
      obtain ⟨rfl, -⟩ := Prod.mk.inj (Option.some.inj filled)
      simp at present
  | cons slot slots inductionHypothesis =>
      simp only [fillSlots, Option.bind_eq_some_iff, Option.map_eq_some_iff, Prod.exists] at filled
      obtain ⟨first, next, put, rest, final, behind, same⟩ := filled
      obtain ⟨rfl, rfl⟩ := Prod.mk.inj same
      simp only [fillSlot] at put
      split_ifs at put with zero
      obtain ⟨rfl, rfl⟩ := Prod.mk.inj (Option.some.inj put)
      cases ahead with
      | zero =>
          obtain rfl := Option.some.inj present
          have inRange := Nat.mod_lt cursor.seqCur (Nat.pos_of_ne_zero zero)
          have header := fun back => parseDataHdr_createDataHdr source.bcdId
            (show cursor.seqCur % source.seqMax < 4294967296 by omega) (lenFits (cursor.seqCur % source.seqMax)) back
          rw [Nat.add_zero, ← counter]
          simp only [PacketBytes.createData, PacketBytes.createDataFromFile]
          split_ifs <;> simp only [List.append_assoc, header]
      | succ ahead =>
          have moved : u32 ((cursor.seqCur : Int) + 1) = (index + 1) % 4294967296 := by
            rw [counter]
            exact u32_mod_succ index
          have number := inductionHypothesis moved behind (by simpa using present)
          rw [number, show index + 1 + ahead = index + (ahead + 1) by omega]

/-- The packet of a place is decoded. -/
theorem decoded_packet (cut : source.Cut) (sizeFits : source.data.length < 9223372036854775808)
    (short : source.appId.length < appIdLen) (string : 0 ∉ source.appId) (index : Nat) :
    Decoded source index (source.packet (index % source.seqMax)) := by
  have header := PacketSource.parseDataHdr_packet cut (Nat.mod_lt index cut.seqMax_pos)
  constructor
  · rw [header]
  · rw [header]
  · rw [header]
    rfl
  · rw [dataOf, header]
    exact source.packet_payload _
  · intro zero
    rw [zero] at header ⊢
    rw [header]
    exact PacketSource.parseBcdMetadata_packet sizeFits short string

end Rounds

section Emission

variable {source : PacketSource}

/-- The geometry that a receiver derives from the data size is the one of the sender. -/
theorem withGeometry_eq (cut : source.Cut) (payloadFits : source.bytePayload ≤ 65535) {recv : RecverState}
    (payload : recv.bytePayload = source.bytePayload) :
    (recv.withGeometry ⟨source.data.length, source.appId⟩).seqMax = source.seqMax ∧
      (recv.withGeometry ⟨source.data.length, source.appId⟩).bytePayloadMin = source.bytePayloadMin := by
  have fits := cut.seqMaxFits
  have last := lastPayload_natCast cut.positive (by omega) cut.nonempty
  rw [← cut.seqMax, ← cut.bytePayloadMin] at last
  rw [cut.seqMax] at fits
  constructor
  · simp only [RecverState.withGeometry, payload, ceilQuotient_natCast cut.positive, u32_natCast fits, cut.seqMax]
  · simpa only [RecverState.withGeometry, payload] using last

/-- The first round carries the file. -/
theorem flatMap_dataOf (cut : source.Cut) :
    (List.range source.seqMax).flatMap (fun seq => dataOf (source.packet seq)) = source.data := by
  have slices := @flatMap_slice _ source.data _ cut.positive
  rw [← cut.seqMax] at slices
  refine Eq.trans ?_ slices
  apply List.flatMap_congr
  intro seq member
  rw [dataOf, PacketSource.parseDataHdr_packet cut (List.mem_range.mp member)]
  exact source.packet_payload seq

/-- A receiver decodes the packets of all places. -/
theorem receiverDecodes (cut : source.Cut) (payloadFits : source.bytePayload ≤ 65535)
    (short : source.appId.length < appIdLen) (string : 0 ∉ source.appId) (count : Nat) :
    ReceiverDecodes source ((List.range' 0 count).map fun index => source.packet (index % source.seqMax)) := by
  have fits := cut.seqMaxFits
  have sizeFits : source.data.length < 9223372036854775808 := by
    have whole := @length_le source.data.length _ cut.positive
    rw [← cut.seqMax] at whole
    have product := Nat.mul_le_mul fits.le payloadFits
    omega
  constructor
  · rw [ceilQuotient_natCast cut.positive, cut.seqMax]
  · exact fun recv payload => withGeometry_eq cut payloadFits payload
  · intro index packet present
    rw [List.getElem?_map, Option.map_eq_some_iff] at present
    obtain ⟨place, found, rfl⟩ := present
    obtain ⟨inside, rfl⟩ := List.getElem?_eq_some_iff.mp found
    rw [List.getElem_range', Nat.one_mul, Nat.zero_add]
    exact decoded_packet cut sizeFits short string index
  · intro round
    rw [List.length_map, List.length_range'] at round
    rw [← List.range_eq_range', ← List.map_take, List.take_range, Nat.min_eq_left round, List.flatMap_map]
    refine Eq.trans ?_ (flatMap_dataOf cut)
    apply List.flatMap_congr
    intro seq member
    rw [Nat.mod_eq_of_lt (List.mem_range.mp member)]

/-- The sender starts at packet zero and at the front of its file. -/
def SendCursor.start (source : PacketSource) : SendCursor := ⟨0, ⟨source.data, 0⟩⟩

theorem SendCursor.start_cursorAt (source : PacketSource) : CursorAt source 0 (SendCursor.start source) :=
  ⟨rfl, .inl (by rw [Nat.zero_mod, PacketSource.offset, Slices.offset_zero]; rfl)⟩

/-- What is decoded stands at an aligned place. -/
theorem aligned_of_decodes (seqMaxFits : source.seqMax < 4294967296)
    (lenFits : ∀ seq, source.dataBytes seq < 4294967296) {bursts : List (List (List UInt8))}
    {packets : List (List UInt8)} {last : SendCursor}
    (emitted : processBursts source (SendCursor.start source) bursts = some (packets, last))
    (decodes : ReceiverDecodes source packets) :
    ∀ index < bursts.flatten.length, Aligned source.seqMax index := by
  intro index inside
  rw [processBursts_eq] at emitted
  have length := (fillSlots_seqCur (Nat.zero_lt_succ _) emitted).1
  have present : packets[index]? = some packets[index] := List.getElem?_eq_getElem (by omega)
  have number := fillSlots_seqNum seqMaxFits lenFits (SendCursor.start_cursorAt source).seqCur emitted present
  rw [Nat.zero_add] at number
  rw [Aligned, ← number]
  exact (decodes.decoded index _ present).seqNum

end Emission

/-- The sender of a broadcast with the geometry of its data. -/
def Broadcast.source (b : Broadcast) : PacketSource where
  bcdId := b.bcdId
  appId := b.appId
  data := b.data
  seqMax := b.seqMax
  bytePayload := b.payloadLen
  bytePayloadMin := b.data.length - b.offset (b.seqMax - 1)

theorem Broadcast.source_cut (b : Broadcast) : b.source.Cut where
  nonempty := b.dataPositive
  positive := b.payloadPositive
  payloadFits := b.payloadFits.trans (by decide)
  seqMax := rfl
  seqMaxFits := b.seqMax_lt
  bytePayloadMin := rfl

theorem Broadcast.source_slice (b : Broadcast) (seq : Nat) : b.source.slice seq = b.slice seq := rfl

/-- The bytes of a packet decode to the fields of the packet of the broadcast, and both reads end at the same
position. -/
theorem Broadcast.createData_refines (b : Broadcast) {seq : Nat} (inRange : seq < b.seqMax) (buf : List UInt8) :
    ∃ bytes, PacketBytes.createData buf b.source ⟨b.data, b.offset seq⟩ seq =
        (bytes, ⟨b.data, (createData b (b.offset seq) seq).2⟩) ∧
      parseDataHdr bytes = ⟨b.bcdId, seq, (createData b (b.offset seq) seq).1.payload.length⟩ ∧
      dataOf bytes = (createData b (b.offset seq) seq).1.payload := by
  have header := PacketSource.parseDataHdr_packet b.source_cut inRange
  have data := b.source.packet_payload seq
  rw [b.source_slice] at header data
  rw [createData_eq inRange]
  refine ⟨b.source.packet seq, b.source_cut.createData_eq inRange buf, header, ?_⟩
  rw [dataOf, header]
  exact data

section Fresh

variable {data appId : List UInt8} {payloadLen : Nat} {multi : MulticastState}

end Fresh

end RepublicAgent
