/-
This file says how a receive loop cuts the bytes of a message sequence back into the messages.
-/

import RepublicAgent.Channel.Receive

namespace RepublicAgent
open BigEndian

/-- The length in the header of a message. -/
def Message.wireLen (msg : Message) : Nat := msg.len + msg.paddingLen

/-- The bytes of a message on the wire. -/
def Message.wire (msg : Message) : List UInt8 := createMsg msg ++ List.replicate msg.paddingLen 0

/-- The bytes of a message sequence. -/
def wires (msgs : List Message) : List UInt8 := msgs.flatMap Message.wire

def Message.hdr (msg : Message) : MsgHdr := ⟨msg.bcdId, msg.type, msg.wireLen, msg.time.toList⟩

/-- What a handler should see of a message. -/
def Message.received (msg : Message) : MsgHdr × List UInt8 :=
  (msg.hdr, msg.payload ++ List.replicate msg.paddingLen 0)

section Wires

variable {msg : Message}

@[simp] theorem Message.wire_length (msg : Message) : msg.wire.length = msg.wireLen := by
  rw [wire, List.length_append, createMsg_length, List.length_replicate, wireLen]

theorem Message.header_le (msg : Message) : msgHdrLen ≤ msg.wireLen := by
  unfold wireLen len
  omega

@[simp] theorem wires_nil : wires [] = [] := rfl

@[simp] theorem wires_cons (msg : Message) (msgs : List Message) : wires (msg :: msgs) = msg.wire ++ wires msgs :=
  List.flatMap_cons

@[simp] theorem wires_append (first second : List Message) : wires (first ++ second) = wires first ++ wires second :=
  List.flatMap_append

/-- The length of a padded message fits into its field. -/
theorem Message.wireLen_lt (msg : Message) : msg.wireLen < 4294967296 := by
  have bounded := (createMsgToken msg).bounded
  rwa [show (createMsgToken msg).buf = createMsg msg from rfl, createMsg_length] at bounded

/-- The header on the wire is followed by the payload and the padding. -/
theorem Message.wire_eq (msg : Message) :
    msg.wire = createMsgHdr msg.bcdId msg.type msg.wireLen msg.time ++
      (msg.payload ++ List.replicate msg.paddingLen 0) := by
  rw [wire, createMsg, wireLen, List.append_assoc]

theorem createMsgHdr_length (bcdId : BcdID) (type : UInt32) (len : Nat) (time : Vector UInt8 16) :
    (createMsgHdr bcdId type len time).length = msgHdrLen := by
  simp [createMsgHdr, msgHdrLen]

/-- The fields of a header are read back. -/
theorem parseMsgHdr_createMsgHdr (bcdId : BcdID) (type : UInt32) {len : Nat} (time : Vector UInt8 16)
    (fits : len < 4294967296) (back : List UInt8) :
    parseMsgHdr (createMsgHdr bcdId type len time ++ back) = ⟨bcdId, type, len, time.toList⟩ := by
  simp [parseMsgHdr, parseBcdId, field, createMsgHdr, List.drop_append, decode_encode, drop_encode]
  exact fits

/-- A buffer with a whole header of the stream gives the header of its first message. -/
theorem parseMsgHdr_prefix {msgs : List Message} {buf : List UInt8} (front : buf <+: wires (msg :: msgs))
    (headed : msgHdrLen ≤ buf.length) : parseMsgHdr buf = msg.hdr := by
  rw [wires_cons, Message.wire_eq, List.append_assoc] at front
  have size := createMsgHdr_length msg.bcdId msg.type msg.wireLen msg.time
  obtain ⟨back, rfl⟩ := List.prefix_of_prefix_length_le (List.prefix_append _ _) front (by omega)
  exact parseMsgHdr_createMsgHdr _ _ _ msg.wireLen_lt back

/-- The handler of a whole message sees the bytes behind the header. -/
theorem Message.wire_drop (msg : Message) :
    msg.wire.drop msgHdrLen = msg.payload ++ List.replicate msg.paddingLen 0 := by
  rw [wire_eq, ← createMsgHdr_length msg.bcdId msg.type msg.wireLen msg.time, List.drop_left]

end Wires

/-- The side handled the messages in `done`, its buffer holds the first bytes of those in `rest`, and it parsed no
header or that of the next message. -/
structure RecvSide.Reads (side : RecvSide) (done rest : List Message) : Prop where
  dispatched : side.dispatched = done.map Message.received
  buffered : side.recvBuf <+: wires rest
  header : (side.mh.type = msgNonType ∧ side.recvExpectByte = byteMax) ∨
    ∃ msg others, rest = msg :: others ∧ msgHdrLen ≤ side.recvBuf.length ∧ side.mh = msg.hdr ∧
      side.recvExpectByte = msg.wireLen

/-- The buffer holds no whole message. -/
def RecvSide.Partial (side : RecvSide) (rest : List Message) : Prop :=
  ∀ msg others, rest = msg :: others → side.recvBuf.length < msg.wireLen

section Passes

variable {side : RecvSide} {done rest : List Message} {msg : Message}

/-- The header of the next message is known when it is there. -/
theorem RecvSide.Reads.parseHdr_eq (reads : side.Reads done (msg :: rest))
    (headed : msgHdrLen ≤ side.recvBuf.length) :
    side.parseHdr = { side with mh := msg.hdr, recvExpectByte := msg.wireLen } := by
  have parsed := parseMsgHdr_prefix reads.buffered headed
  unfold parseHdr
  split_ifs with unknown
  · rw [parsed]
    rfl
  · rcases reads.header with ⟨none, _⟩ | ⟨first, others, equal, _, mh, expect⟩
    · exact absurd ⟨headed, none⟩ unknown
    · obtain ⟨rfl, _⟩ := List.cons.inj equal
      rw [← mh, ← expect]

/-- Parsing the header changes nothing else. -/
theorem RecvSide.Reads.parseHdr (reads : side.Reads done rest) : side.parseHdr.Reads done rest := by
  cases rest with
  | nil =>
      have empty := List.prefix_nil.mp reads.buffered
      rw [RecvSide.parseHdr, if_neg (by rw [empty]; simp [msgHdrLen])]
      exact reads
  | cons msg rest =>
      by_cases headed : msgHdrLen ≤ side.recvBuf.length
      · rw [reads.parseHdr_eq headed]
        exact ⟨reads.dispatched, reads.buffered, .inr ⟨msg, rest, rfl, headed, rfl, rfl⟩⟩
      · rw [RecvSide.parseHdr, if_neg (fun both => headed both.1)]
        exact reads

@[simp] theorem RecvSide.parseHdr_recvBuf (side : RecvSide) : side.parseHdr.recvBuf = side.recvBuf := by
  unfold parseHdr
  split_ifs <;> rfl

/-- The length test finds exactly a whole message. -/
theorem RecvSide.Reads.complete_iff (reads : side.Reads done (msg :: rest))
    (bounded : side.recvBuf.length < byteMax) :
    side.parseHdr.recvExpectByte ≤ side.parseHdr.recvBuf.length ↔ msg.wireLen ≤ side.recvBuf.length := by
  have header := msg.header_le
  by_cases headed : msgHdrLen ≤ side.recvBuf.length
  · rw [reads.parseHdr_eq headed]
  · rw [RecvSide.parseHdr, if_neg (fun both => headed both.1)]
    rcases reads.header with ⟨_, expect⟩ | ⟨_, _, _, there, _⟩
    · rw [expect]
      omega
    · exact absurd there headed

/-- A handled message is the next one, and its bytes leave the buffer. -/
theorem RecvSide.Reads.consume (reads : side.Reads done (msg :: rest))
    (whole : msg.wireLen ≤ side.recvBuf.length) :
    side.parseHdr.dispatch.reset.Reads (done ++ [msg]) rest ∧
      msg.wire ++ side.parseHdr.dispatch.reset.recvBuf = side.recvBuf := by
  have front : msg.wire <+: side.recvBuf := by
    have later := reads.buffered
    rw [wires_cons] at later
    exact List.prefix_of_prefix_length_le (List.prefix_append _ _) later (by rwa [Message.wire_length])
  obtain ⟨back, split⟩ := front
  rw [reads.parseHdr_eq (msg.header_le.trans whole)]
  have size := msg.wire_length
  have taken : side.recvBuf.take msg.wireLen = msg.wire := by rw [← split, ← size, List.take_left]
  have left : side.recvBuf.drop msg.wireLen = back := by rw [← split, ← size, List.drop_left]
  unfold dispatch reset
  simp only [taken, left, Message.wire_drop]
  refine ⟨⟨?_, ?_, .inl ⟨rfl, rfl⟩⟩, split⟩
  · rw [List.map_append, reads.dispatched]
    rfl
  · have later := reads.buffered
    rw [wires_cons, ← split] at later
    exact (List.prefix_append_right_inj _).mp later

end Passes

/-- The loop handles every whole message or stops before none of them. -/
def CompletesHandled (loop : SelectLoop) (hashMulticast : BcdID → Bool) (bytes : Nat) (rest : List Message) : Prop :=
  ∀ before msg after, rest = before ++ msg :: after → (wires (before ++ [msg])).length ≤ bytes →
    loop.continues hashMulticast msg.bcdId = false

section Loops

variable {loop : SelectLoop} {hashMulticast : BcdID → Bool} {side : RecvSide} {done rest : List Message}

/-- A loop that leaves no message behind ends with part of one message in the buffer. -/
theorem RecvSide.Reads.loop_ends (reads : side.Reads done rest) {passes : Nat}
    (enough : side.recvBuf.length < passes) (bounded : side.recvBuf.length < byteMax)
    (handled : CompletesHandled loop hashMulticast side.recvBuf.length rest) :
    ∃ final before after, recvLoop loop hashMulticast passes side = some final ∧ rest = before ++ after ∧
      final.Reads (done ++ before) after ∧ final.Partial after ∧ wires before ++ final.recvBuf = side.recvBuf := by
  induction rest generalizing side done passes with
  | nil =>
      have empty := List.prefix_nil.mp reads.buffered
      obtain ⟨passes, rfl⟩ := Nat.exists_eq_add_of_lt (Nat.zero_lt_of_lt enough)
      rw [Nat.zero_add, recvLoop, if_neg (by rw [empty]; simp)]
      have settled : side.Partial [] := fun _ _ impossible => by cases impossible
      exact ⟨side, [], [], rfl, rfl, by rwa [List.append_nil], settled, rfl⟩
  | cons msg rest ih =>
      obtain ⟨passes, rfl⟩ := Nat.exists_eq_add_of_lt (Nat.zero_lt_of_lt enough)
      rw [Nat.zero_add, recvLoop]
      have header := msg.header_le
      have complete := reads.complete_iff bounded
      by_cases whole : msg.wireLen ≤ side.recvBuf.length
      · have positive : 0 < side.recvBuf.length := by unfold msgHdrLen at header; omega
        obtain ⟨consumed, split⟩ := reads.consume whole
        have sizes := congrArg List.length split
        rw [List.length_append, Message.wire_length] at sizes
        have named : side.parseHdr.mh.bcdId = msg.bcdId := by
          rw [reads.parseHdr_eq (header.trans whole)]
          rfl
        have first : loop.continues hashMulticast msg.bcdId = false :=
          handled [] msg rest rfl (by simpa using whole)
        rw [if_pos positive]
        simp only [complete.mpr whole, if_true, named, first, Bool.false_eq_true, if_false]
        have later : CompletesHandled loop hashMulticast side.parseHdr.dispatch.reset.recvBuf.length rest := by
          intro before next after equal inside
          apply handled (msg :: before) next after (by rw [equal, List.cons_append])
          rw [List.cons_append, wires_cons, List.length_append, Message.wire_length]
          omega
        have fewer : side.parseHdr.dispatch.reset.recvBuf.length < passes := by
          unfold msgHdrLen at header
          omega
        obtain ⟨final, before, after, ended, equal, reached, settled, kept⟩ := ih consumed fewer (by omega) later
        refine ⟨final, msg :: before, after, ended, by rw [equal, List.cons_append], ?_, settled, ?_⟩
        · rwa [List.append_assoc, List.singleton_append] at reached
        · rw [wires_cons, List.append_assoc, kept, split]
      · by_cases positive : 0 < side.recvBuf.length
        · rw [if_pos positive]
          simp only [mt complete.mp whole, if_false]
          refine ⟨side.parseHdr, [], msg :: rest, rfl, rfl, ?_, ?_, ?_⟩
          · rw [List.append_nil]
            exact reads.parseHdr
          · intro next others equal
            obtain ⟨rfl, _⟩ := List.cons.inj equal
            rw [RecvSide.parseHdr_recvBuf]
            omega
          · rw [RecvSide.parseHdr_recvBuf]
            rfl
        · rw [if_neg positive]
          refine ⟨side, [], msg :: rest, rfl, rfl, by rwa [List.append_nil], ?_, rfl⟩
          intro next others equal
          obtain ⟨rfl, _⟩ := List.cons.inj equal
          omega

/-- A loop that continues before a whole message never ends. -/
theorem RecvSide.Reads.loop_hangs (reads : side.Reads done rest) (bounded : side.recvBuf.length < byteMax)
    {before after : List Message} {msg : Message} (equal : rest = before ++ msg :: after)
    (whole : (wires (before ++ [msg])).length ≤ side.recvBuf.length)
    (skipped : loop.continues hashMulticast msg.bcdId = true) (passes : Nat) :
    recvLoop loop hashMulticast passes side = none := by
  induction passes generalizing side done rest before with
  | zero => rfl
  | succ passes ih =>
      obtain ⟨first, others, start, ahead⟩ : ∃ first others, rest = first :: others ∧
          first.wireLen ≤ side.recvBuf.length := by
        cases before with
        | nil => exact ⟨msg, after, equal, by simpa using whole⟩
        | cons first others =>
            refine ⟨first, others ++ msg :: after, equal, ?_⟩
            rw [List.cons_append, wires_cons, List.length_append, Message.wire_length] at whole
            omega
      subst start
      have header := first.header_le
      have positive : 0 < side.recvBuf.length := by unfold msgHdrLen at header; omega
      have named : side.parseHdr.mh.bcdId = first.bcdId := by
        rw [reads.parseHdr_eq (header.trans ahead)]
        rfl
      rw [recvLoop, if_pos positive]
      simp only [(reads.complete_iff bounded).mpr ahead, if_true, named]
      by_cases again : loop.continues hashMulticast first.bcdId = true
      · rw [if_pos again]
        exact ih reads.parseHdr (by rwa [RecvSide.parseHdr_recvBuf]) equal (by rwa [RecvSide.parseHdr_recvBuf])
      · rw [if_neg again]
        obtain ⟨consumed, split⟩ := reads.consume ahead
        have sizes := congrArg List.length split
        rw [List.length_append, Message.wire_length] at sizes
        cases before with
        | nil =>
            obtain ⟨rfl, _⟩ := List.cons.inj equal
            exact absurd skipped again
        | cons next before =>
            obtain ⟨rfl, later⟩ := List.cons.inj equal
            rw [List.cons_append, wires_cons, List.length_append, Message.wire_length] at whole
            exact ih consumed (by omega) later (by omega)

end Loops

/-- A message that fits into the receive buffer. -/
structure FittingMessage extends Message where
  fits : toMessage.wireLen ≤ recvBufLen
deriving DecidableEq, Repr

/-- The bytes in the buffer and the next bytes on their way belong to the messages in `rest`. -/
structure Inbound.Reads (inbound : Inbound) (done rest : List Message) : Prop where
  side : inbound.side.Reads done rest
  settled : inbound.side.Partial rest
  arrived : inbound.side.recvBuf ++ inbound.incoming <+: wires rest
  fits : ∀ msg ∈ rest, msg.wireLen ≤ recvBufLen

section Calls

variable {loop : SelectLoop} {inbound : Inbound} {done rest : List Message} {call : RecvCall}

theorem Inbound.Reads.bounded (reads : inbound.Reads done rest) :
    inbound.side.recvBuf.length ≤ recvBufLen := by
  cases equal : rest with
  | nil =>
      have empty := List.prefix_nil.mp (equal ▸ reads.side.buffered)
      rw [empty]
      exact Nat.zero_le _
  | cons msg others =>
      have short := reads.settled msg others equal
      have fits := reads.fits msg (by rw [equal]; exact List.mem_cons_self)
      omega

/-- The received bytes follow the buffered ones. -/
theorem Inbound.Reads.read (reads : inbound.Reads done rest) (call : RecvCall) :
    (inbound.read call).Reads done rest where
  dispatched := reads.side.dispatched
  buffered := ((List.prefix_append_right_inj _).mpr (List.take_prefix _ _)).trans reads.arrived
  header := by
    rcases reads.side.header with none | ⟨msg, others, equal, headed, known⟩
    · exact .inl none
    · refine .inr ⟨msg, others, equal, ?_, known⟩
      rw [Inbound.read, List.length_append]
      omega

theorem Inbound.read_length (inbound : Inbound) (call : RecvCall) :
    (inbound.read call).recvBuf.length = inbound.side.recvBuf.length + inbound.count call := by
  have within : inbound.count call ≤ inbound.incoming.length := by
    unfold count
    omega
  rw [read, List.length_append, List.length_take_of_le within]

/-- The buffer holds what a call reads. -/
theorem Inbound.Reads.read_bounded (reads : inbound.Reads done rest) (call : RecvCall) :
    (inbound.read call).recvBuf.length < byteMax := by
  have bounded := reads.bounded
  rw [inbound.read_length]
  unfold count byteMax
  unfold recvBufLen at *
  omega

/-- Part of a message holds no whole message. -/
theorem RecvSide.Partial.handled {side : RecvSide} (settled : side.Partial rest) (hashMulticast : BcdID → Bool) :
    CompletesHandled loop hashMulticast side.recvBuf.length rest := by
  intro before msg after equal inside
  cases before with
  | nil =>
      have short := settled msg after equal
      rw [List.nil_append, wires_cons, List.length_append, Message.wire_length] at inside
      omega
  | cons first others =>
      have short := settled first (others ++ msg :: after) equal
      rw [List.cons_append, wires_cons, List.length_append, Message.wire_length] at inside
      omega

/-- A call that leaves no message behind handles the next whole messages in their order. -/
theorem Inbound.Reads.receive_ok (reads : inbound.Reads done rest)
    (handled : CompletesHandled loop call.hashMulticast (inbound.side.recvBuf.length + inbound.count call) rest) :
    ∃ next before after, inbound.receive loop call = .ok next ∧ rest = before ++ after ∧
      next.Reads (done ++ before) after ∧
      wires before ++ next.side.recvBuf ++ next.incoming = inbound.side.recvBuf ++ inbound.incoming := by
  unfold receive
  split_ifs with nothing
  · exact ⟨inbound, [], rest, rfl, rfl, by rwa [List.append_nil], rfl⟩
  · have received := reads.read call
    obtain ⟨final, before, after, ended, equal, reached, settled, kept⟩ :=
      received.loop_ends (Nat.lt_succ_self _) (reads.read_bounded call) (by rwa [inbound.read_length])
    have whole : wires before ++ final.recvBuf ++ inbound.incoming.drop (inbound.count call) =
        inbound.side.recvBuf ++ inbound.incoming := by
      rw [kept, Inbound.read, List.append_assoc, List.take_append_drop]
    simp only [ended]
    refine ⟨_, before, after, rfl, equal, ⟨reached, settled, ?_, ?_⟩, whole⟩
    · have arrived := reads.arrived
      rw [← whole, equal, wires_append, List.append_assoc] at arrived
      exact (List.prefix_append_right_inj _).mp arrived
    · intro msg member
      exact reads.fits msg (by rw [equal]; exact List.mem_append_right _ member)

/-- A call that leaves a message behind hangs. -/
theorem Inbound.Reads.receive_hangs (reads : inbound.Reads done rest)
    (skipped : ¬ CompletesHandled loop call.hashMulticast
      (inbound.side.recvBuf.length + inbound.count call) rest) :
    inbound.receive loop call = .error .receiveLoop := by
  have some : inbound.count call ≠ 0 := by
    intro nothing
    rw [nothing, Nat.add_zero] at skipped
    exact skipped (reads.settled.handled _)
  unfold CompletesHandled at skipped
  push Not at skipped
  obtain ⟨before, msg, after, equal, inside, left⟩ := skipped
  have hangs := (reads.read call).loop_hangs (reads.read_bounded call) equal (by rwa [inbound.read_length])
    (Bool.not_eq_false _ |>.mp left)
  rw [receive, if_neg some]
  simp only [hangs]

/-- Later messages change nothing for the earlier ones. -/
theorem Inbound.Reads.extend (reads : inbound.Reads done rest) (msg : FittingMessage) :
    inbound.Reads done (rest ++ [msg.toMessage]) where
  side := by
    refine ⟨reads.side.dispatched, ?_, ?_⟩
    · rw [wires_append]
      exact reads.side.buffered.trans (List.prefix_append _ _)
    · rcases reads.side.header with none | ⟨next, others, equal, known⟩
      · exact .inl none
      · exact .inr ⟨next, others ++ [msg.toMessage], by rw [equal, List.cons_append], known⟩
  settled := by
    intro next others equal
    cases rest with
    | nil =>
        have empty := List.prefix_nil.mp reads.side.buffered
        have header := next.header_le
        have positive : 0 < msgHdrLen := by decide
        rw [empty, List.length_nil]
        omega
    | cons first rest =>
        obtain ⟨rfl, _⟩ := List.cons.inj equal
        exact reads.settled first rest rfl
  arrived := by
    rw [wires_append]
    exact reads.arrived.trans (List.prefix_append _ _)
  fits := by
    intro next member
    rcases List.mem_append.mp member with before | last
    · exact reads.fits next before
    · rw [List.mem_singleton.mp last]
      exact msg.fits

end Calls

end RepublicAgent
