/-
This file models the calls of the controller service. The agent is the client, and the processor belongs to the
controller.
-/

import RepublicAgent.Service.BinaryProtocol

namespace RepublicAgent
open Numerals TaggedRecord

def pushName : Text := ⟨"push".toList, by decide, by decide⟩

def unpushName : Text := ⟨"unpush".toList, by decide, by decide⟩

/-- The implementation of the service. A call without a result has failed. -/
structure BcdServiceHandler where
  push : PushArgs → PushReply → Option PushReply
  unpush : Int32 → Bool

/-- The library writes the record of an exception and dispatches the calls that the service does not have. -/
structure BcdServiceProcessor where
  handler : BcdServiceHandler
  writeException : Option (List UInt8)
  dispatchCall : Text → Int32 → List UInt8 → Option (List UInt8)

/-- The calls that reach the handler. -/
inductive HandlerCall where
  | push (args : PushArgs)
  | unpush (xid : Int32)
deriving DecidableEq

section Functions

variable (protocol : ThriftProtocol)

def sendPush (walk : Walk) (args : PushArgs) : Option (List UInt8) :=
  written [protocol.writeMessageBegin pushName .call 0,
    protocol.writeRecord "push_args" (pushArgsFields protocol walk args), protocol.writeMessageEnd]

def sendUnpush (xid : Int32) : Option (List UInt8) :=
  written [protocol.writeMessageBegin unpushName .oneway 0,
    protocol.writeRecord "unpush_args" (unpushArgsFields protocol ⟨xid⟩), protocol.writeMessageEnd]

/-- The fields of the result. A result without `success` leaves the object as it is. -/
def recvPushField (fuel : Nat) : ThriftType → Int → Reader PushReply
  | .struct, 0 => pushReplyRead protocol fuel
  | kind, _ => readOver (protocol.skip kind)

/-- The name of the call is compared up to four characters. -/
def recvPush (fuel : Nat) (object : PushReply) (stream : List UInt8) : Except Fault (PushReply × Bool) :=
  match protocol.readMessageBegin stream with
  | none => .ok (object, false)
  | some ((fname, mtype, _), rest) =>
      if mtype ≠ .reply then .ok (object, false)
      else
        match fname with
        | none => .error .badPointer
        | some name =>
            if name.chars.take 4 ≠ pushName.chars then .ok (object, false)
            else
              let result := andThen (readRecord protocol.framing (recvPushField protocol fuel) fuel)
                (readOver protocol.readMessageEnd) object rest
              .ok (result.1, result.2.isSome)

/-- The answer of the processor to a call that succeeded. -/
def replyPush (sequenceId : Int32) (reply : PushReply) : Option (List UInt8) :=
  written [protocol.writeMessageBegin pushName .reply sequenceId, pushResultWrite protocol ⟨reply, true⟩,
    protocol.writeMessageEnd]

def processPush (processor : BcdServiceProcessor) (fuel : Nat) (sequenceId : Int32) (stream : List UInt8) :
    List HandlerCall × Option (List UInt8) :=
  let read := andThen (pushArgsRead protocol fuel) (readOver protocol.readMessageEnd) PushArgs.fresh stream
  match read.2 with
  | none => ([], none)
  | some _ =>
      ([.push read.1],
        match processor.handler.push read.1 PushResult.fresh.success with
        | some reply => replyPush protocol sequenceId reply
        | none => written [protocol.writeMessageBegin pushName .exception sequenceId, processor.writeException,
            protocol.writeMessageEnd])

/-- A failed handler is answered although the call has no answer, and the message is not ended. -/
def processUnpush (processor : BcdServiceProcessor) (fuel : Nat) (sequenceId : Int32) (stream : List UInt8) :
    List HandlerCall × Option (List UInt8) :=
  let read := andThen (unpushArgsRead protocol fuel) (readOver protocol.readMessageEnd) UnpushArgs.fresh stream
  match read.2 with
  | none => ([], none)
  | some _ =>
      ([.unpush read.1.xid],
        if processor.handler.unpush read.1.xid then some []
        else written [protocol.writeMessageBegin unpushName .exception sequenceId, processor.writeException])

def dispatchCall (processor : BcdServiceProcessor) (fuel : Nat) (methodName : Text) (sequenceId : Int32)
    (stream : List UInt8) : List HandlerCall × Option (List UInt8) :=
  if methodName = pushName then processPush protocol processor fuel sequenceId stream
  else if methodName = unpushName then processUnpush protocol processor fuel sequenceId stream
  else ([], processor.dispatchCall methodName sequenceId stream)

end Functions

section Addresses

/-- The bytes of the address as decimal numbers. -/
def inetNtoaChars (addr : InAddr) : List Char :=
  decimal addr.first.toNat ++ '.' :: (decimal addr.second.toNat ++ '.' :: (decimal addr.third.toNat ++
    '.' :: decimal addr.fourth.toNat))

theorem decimal_nat (value : Nat) : decimal value = numeral 10 1 value := by
  have positive : ¬ (value : Int) < 0 := Int.not_lt.mpr (Int.natCast_nonneg value)
  rw [decimal, if_neg positive, List.nil_append, Int.natAbs_natCast]

theorem digitChar_ne {digit : Nat} (small : digit < 16) :
    Nat.digitChar digit ≠ '.' ∧ Nat.digitChar digit ≠ Char.ofNat 0 := by
  interval_cases digit <;> decide

theorem notMem_decimal (value : Nat) : '.' ∉ decimal value ∧ Char.ofNat 0 ∉ decimal value := by
  rw [decimal_nat]
  constructor
  · intro member
    obtain ⟨digit, small, same⟩ := mem_numeral (by decide) (by decide) member
    exact (digitChar_ne small).1 same.symm
  · intro member
    obtain ⟨digit, small, same⟩ := mem_numeral (by decide) (by decide) member
    exact (digitChar_ne small).2 same.symm

theorem inetNtoaChars_injective : Function.Injective inetNtoaChars := by
  intro addr other same
  have part {byte second : UInt8} (equal : decimal byte.toNat = decimal second.toNat) : byte = second :=
    UInt8.toNat.inj (Int.ofNat.inj (decimal_injective equal))
  obtain ⟨first, same⟩ := append_cons_inj (notMem_decimal _).1 (notMem_decimal _).1 same
  obtain ⟨second, same⟩ := append_cons_inj (notMem_decimal _).1 (notMem_decimal _).1 same
  obtain ⟨third, fourth⟩ := append_cons_inj (notMem_decimal _).1 (notMem_decimal _).1 same
  cases addr
  exact InAddr.mk.injEq .. ▸ ⟨part first, part second, part third, part fourth⟩

theorem inetNtoaChars_terminated (addr : InAddr) : Char.ofNat 0 ∉ inetNtoaChars addr := by
  have dot : Char.ofNat 0 ≠ '.' := by decide
  simp only [inetNtoaChars, List.mem_append, List.mem_cons, (notMem_decimal _).2, dot, or_self, not_false_eq_true]

def inetNtoa (addr : InAddr) : Text where
  chars := inetNtoaChars addr
  nonempty := List.append_ne_nil_of_right_ne_nil _ (List.cons_ne_nil _ _)
  terminated := inetNtoaChars_terminated addr

theorem inetNtoa_injective : Function.Injective inetNtoa := fun _ _ same =>
  inetNtoaChars_injective (congrArg Text.chars same)

/-- Numbers print no terminator. -/
theorem print_terminated {part : FormatPart} (plain : ∀ chars, part = .text chars → Char.ofNat 0 ∉ chars.toList) :
    Char.ofNat 0 ∉ part.print := by
  cases part with
  | text chars => exact plain chars rfl
  | hex width value =>
      intro member
      obtain ⟨digit, small, same⟩ := mem_numeral (by decide) (by decide) member
      exact (digitChar_ne small).2 same.symm
  | signed value =>
      intro member
      rcases List.mem_append.mp member with sign | digits
      · split_ifs at sign
        · exact absurd (List.mem_singleton.mp sign) (by decide)
        · exact absurd sign List.not_mem_nil
      · obtain ⟨digit, small, same⟩ := mem_numeral (by decide) (by decide) digits
        exact (digitChar_ne small).2 same.symm

theorem bcdIdToFilename_terminated (bcdId : BcdID) : Char.ofNat 0 ∉ bcdIdToFilename bcdId := by
  intro member
  obtain ⟨part, inside, found⟩ := List.mem_flatMap.mp member
  refine print_terminated ?_ found
  rintro chars rfl
  simp only [appIdParts, List.cons_append, List.nil_append, List.mem_cons, List.not_mem_nil, or_false, reduceCtorEq,
    false_or, FormatPart.text.injEq] at inside
  rcases inside with rfl | rfl | rfl | rfl | rfl | rfl | rfl
  all_goals decide

theorem bcdIdToFilename_nonempty (bcdId : BcdID) : bcdIdToFilename bcdId ≠ [] := by
  have directory : bcdDirPrefix.toList ≠ [] := by decide
  simp only [bcdIdToFilename, sprintf, appIdParts, List.cons_append, List.flatMap_cons, FormatPart.print, ne_eq,
    List.append_eq_nil_iff, directory, false_and, not_false_eq_true]

def filenameText (bcdId : BcdID) : Text where
  chars := bcdIdToFilename bcdId
  nonempty := bcdIdToFilename_nonempty bcdId
  terminated := bcdIdToFilename_terminated bcdId

end Addresses

/-- The fields of a multicast state that go into the request for its path. -/
structure PathRequest where
  masterinaddr : InAddr
  slaves : List InAddr
  bcdId : BcdID
  dataSize : Int
  few : slaves.length < 2147483648

/-- The property `size` takes the lower half of the size. -/
def requestArgs (hostinaddressCtrl : InAddr) (request : PathRequest) : PushArgs where
  master := some (inetNtoa request.masterinaddr)
  slaves := ((request.slaves.filter fun slave => slave ≠ hostinaddressCtrl).map inetNtoa).toFinset
  data := ⟨some (filenameText request.bcdId), Int32.ofInt request.dataSize⟩

section Requests

variable {hostinaddressCtrl : InAddr} {request : PathRequest}

theorem requestArgs_complete : (requestArgs hostinaddressCtrl request).Complete where
  master := Option.some_ne_none _
  id := Option.some_ne_none _
  few := by
    have mapped := List.toFinset_card_le ((request.slaves.filter fun slave => slave ≠ hostinaddressCtrl).map inetNtoa)
    have kept := List.length_filter_le (fun slave => slave ≠ hostinaddressCtrl) request.slaves
    rw [List.length_map] at mapped
    exact mapped.trans_lt (kept.trans_lt request.few)

/-- The servers are the receivers on other hosts. -/
theorem mem_requestArgs_slaves {addr : InAddr} : inetNtoa addr ∈ (requestArgs hostinaddressCtrl request).slaves ↔
    addr ∈ request.slaves ∧ addr ≠ hostinaddressCtrl := by
  simp only [requestArgs, List.mem_toFinset, List.mem_map_of_injective inetNtoa_injective, List.mem_filter,
    decide_eq_true_eq]

end Requests

section Calls

variable {protocol : ThriftProtocol} {walk : Walk} {fuel : Nat} {bytes stream : List UInt8}

/-- The client reads the reply in the result of the processor. -/
theorem recvPush_reads (documented : protocol.Documented) {reply : PushReply}
    (put : pushResultWrite protocol ⟨reply, true⟩ = some bytes) (enough : 2 < fuel) :
    Reads (readRecord protocol.framing (recvPushField protocol fuel) fuel) bytes
      [fun object => { object with xid := reply.xid }, fun object => { object with cmd := reply.cmd }] := by
  have successField : FieldReads protocol (recvPushField protocol fuel)
      (protocol.writeField "success" .struct 0 (pushReplyWrite protocol reply))
      [fun object => { object with xid := reply.xid }, fun object => { object with cmd := reply.cmd }] :=
    documented.field (by decide) fun inner held => pushReply_reads documented held enough
  exact documented.record (.cons successField .nil) put (by simp only [List.length_singleton]; omega)

/-- The name and the type of a reply are accepted. -/
theorem recvPush_accepted {object : PushReply} {sequenceId : Int32} {rest : List UInt8}
    (head : protocol.readMessageBegin stream = some ((some pushName, .reply, sequenceId), rest)) :
    recvPush protocol fuel object stream = .ok
      ((andThen (readRecord protocol.framing (recvPushField protocol fuel) fuel)
          (readOver protocol.readMessageEnd) object rest).1,
        (andThen (readRecord protocol.framing (recvPushField protocol fuel) fuel)
          (readOver protocol.readMessageEnd) object rest).2.isSome) := by
  have name : pushName.chars.take 4 = pushName.chars := rfl
  unfold recvPush
  rw [head]
  dsimp only
  rw [if_neg (not_not_intro rfl), if_neg (not_not_intro name)]

/-- The reply is read as a whole. Of a cut reply the first fields are read, and the call fails. -/
theorem recvPush_reply (documented : protocol.Documented) {reply : PushReply} {sequenceId : Int32}
    (put : replyPush protocol sequenceId reply = some bytes) (enough : 2 < fuel) (object : PushReply) :
    recvPush protocol fuel object bytes = .ok (reply, true) ∧ ∀ count < bytes.length, ∃ made,
      made <+: [fun object => { object with xid := reply.xid }, fun object => { object with cmd := reply.cmd }] ∧
        recvPush protocol fuel object (bytes.take count) = .ok (updated object made, false) := by
  simp only [replyPush, written_cons, written_nil] at put
  obtain ⟨header, begun, behind, ⟨body, inner, last, ⟨ending, ended, none, rfl, rfl⟩, rfl⟩, rfl⟩ := put
  have head := documented.messageBegin pushName .reply sequenceId header begun
  have tail := (recvPush_reads documented inner enough).andThen (documented.messageEnd ending ended).readOver
  rw [List.append_nil] at tail
  rw [List.append_nil]
  constructor
  · have read := tail.whole object []
    rw [List.append_nil] at read
    rw [recvPush_accepted (head.whole _), read]
    rfl
  · intro count short
    rw [List.length_append] at short
    by_cases early : count < header.length
    · refine ⟨[], List.nil_prefix, ?_⟩
      rw [List.take_append_of_le_length early.le, recvPush, head.cut count early]
      rfl
    · obtain ⟨made, inside, stopped⟩ := tail.cut object (count - header.length) (by omega)
      refine ⟨made, inside, ?_⟩
      rw [List.take_append, List.take_of_length_le (by omega), recvPush_accepted (head.whole _), stopped]
      rfl

/-- An exception leaves the object as it is. -/
theorem recvPush_exception (documented : protocol.Documented) {sequenceId : Int32}
    {exception : Option (List UInt8)} (put : written [protocol.writeMessageBegin pushName .exception sequenceId,
      exception, protocol.writeMessageEnd] = some bytes) (object : PushReply) :
    recvPush protocol fuel object bytes = .ok (object, false) := by
  obtain ⟨header, begun, behind, -, rfl⟩ := written_cons.mp put
  have head := documented.messageBegin pushName .exception sequenceId header begun
  unfold recvPush
  rw [head.whole]
  rfl

/-- The arguments and the end of the message are read from a whole message. -/
theorem read_message (documented : protocol.Documented) {Object : Type} {reader : Reader Object}
    {updates : List (Object → Object)} {ending : List UInt8} (reads : Reads reader bytes updates)
    (ended : protocol.writeMessageEnd = some ending) (object : Object) :
    andThen reader (readOver protocol.readMessageEnd) object (bytes ++ (ending ++ [])) =
      (updated object updates, some []) := by
  have whole := (reads.andThen (documented.messageEnd ending ended).readOver).whole object []
  simpa only [List.append_nil] using whole

end Calls

/-- The library finds the name of the call and its number in the message, and the processor makes the call. Its
response has the property. -/
def Delivered (protocol : ThriftProtocol) (processor : BcdServiceProcessor) (message : List UInt8) (call : HandlerCall)
    (property : Nat → List UInt8 → Prop) : Prop :=
  ∃ name type sequenceId rest, protocol.readMessageBegin message = some ((some name, type, sequenceId), rest) ∧
    ∀ fuel, 3 < fuel → (dispatchCall protocol processor fuel name sequenceId rest).1 = [call] ∧
      ∀ response, (dispatchCall protocol processor fuel name sequenceId rest).2 = some response →
        property fuel response

/-- The answer of a push goes into the object of the client. -/
def BcdServiceProcessor.answer (processor : BcdServiceProcessor) (args : PushArgs) (object : PushReply) :
    PushReply × Bool :=
  match processor.handler.push args PushReply.fresh with
  | some reply => (reply, true)
  | none => (object, false)

section Delivery

variable {protocol : ThriftProtocol} {processor : BcdServiceProcessor} {walk : Walk} {message : List UInt8}

theorem push_delivered_to_handler (documented : protocol.Documented) {args : PushArgs} (complete : args.Complete)
    (sent : sendPush protocol walk args = some message) :
    Delivered protocol processor message (.push args) fun fuel response => ∀ object,
      recvPush protocol fuel object response = .ok (processor.answer args object) := by
  simp only [sendPush, written_cons, written_nil] at sent
  obtain ⟨header, begun, behind, ⟨body, inner, last, ⟨ending, ended, none, rfl, rfl⟩, rfl⟩, rfl⟩ := sent
  refine ⟨pushName, .call, 0, _, (documented.messageBegin pushName .call 0 header begun).whole _, ?_⟩
  intro fuel enough
  obtain ⟨updates, reads, final⟩ := pushArgs_reads documented complete inner enough
  have read := read_message documented reads ended PushArgs.fresh
  rw [final] at read
  rw [dispatchCall, if_pos rfl, processPush, read]
  refine ⟨rfl, ?_⟩
  intro response answered object
  unfold BcdServiceProcessor.answer
  have fresh : PushResult.fresh.success = PushReply.fresh := rfl
  dsimp only at answered
  rw [fresh] at answered
  cases handled : processor.handler.push args PushReply.fresh with
  | none =>
      rw [handled] at answered
      exact recvPush_exception documented answered object
  | some reply =>
      rw [handled] at answered
      exact (recvPush_reply documented answered (by omega) object).1

theorem unpush_delivered_to_handler (documented : protocol.Documented) {xid : Int32}
    (sent : sendUnpush protocol xid = some message) :
    Delivered protocol processor message (.unpush xid) fun _ response =>
      processor.handler.unpush xid = true → response = [] := by
  simp only [sendUnpush, written_cons, written_nil] at sent
  obtain ⟨header, begun, behind, ⟨body, inner, last, ⟨ending, ended, none, rfl, rfl⟩, rfl⟩, rfl⟩ := sent
  refine ⟨unpushName, .oneway, 0, _, (documented.messageBegin unpushName .oneway 0 header begun).whole _, ?_⟩
  intro fuel enough
  have reads := unpushArgs_reads documented inner (show 1 < fuel by omega)
  have read := read_message documented reads ended UnpushArgs.fresh
  have different : unpushName ≠ pushName := by decide
  rw [dispatchCall, if_neg different, if_pos rfl, processUnpush, read]
  refine ⟨rfl, ?_⟩
  intro response answered handled
  dsimp only at answered
  have xidRead : (updated UnpushArgs.fresh [fun args => { args with xid := xid }]).xid = xid := rfl
  rw [xidRead, if_pos handled] at answered
  exact (Option.some.inj answered).symm

end Delivery

/-- One of the two receivers of the file is the host itself. -/
def oneReceiver : PathRequest := ⟨⟨10, 0, 0, 1⟩, [⟨10, 0, 0, 1⟩, ⟨10, 0, 0, 2⟩], ⟨1, 2, 3⟩, 5, by decide⟩

/-- The outcomes of a call whose reply may be cut. -/
def ReplyRead (xid : Int32) (cmd : PushReplyCmd) (outcome : PushOutcome) : Prop :=
  outcome = .reply xid cmd ∨ outcome = .failed none none ∨ outcome = .failed (some xid) none ∨
    outcome = .failed (some xid) (some cmd.code)

section Replies

variable {xid : Int32} {cmd : PushReplyCmd} {outcome : PushOutcome}

/-- The command of a fresh object is `PUSH`, and so it stays when no command was read. -/
theorem fill_cmd_eq_push (possible : ReplyRead xid cmd outcome) :
    (outcome.fill PushReply.fresh).cmd = PushReplyCmd.push.code ↔ cmd = .push ∨ ∃ read, outcome = .failed read none := by
  have known : cmd.code = PushReplyCmd.push.code ↔ cmd = .push :=
    ⟨PushReplyCmd.code_eq_push, fun same => congrArg _ same⟩
  rcases possible with rfl | rfl | rfl | rfl
  · simp [PushOutcome.fill, known]
  · exact iff_of_true rfl (.inr ⟨none, rfl⟩)
  · exact iff_of_true rfl (.inr ⟨some xid, rfl⟩)
  · simp [PushOutcome.fill, known]

/-- A requested multicast becomes active when the reply object has the command `PUSH`. -/
theorem PathState.Requests.active_iff {path : PathState} {head : Nat} {now : Timeval} {bcdId : BcdID}
    {multi : MulticastState} (requests : path.Requests head now bcdId multi) (calls : RequestCalls) :
    ∃ next made, path.request head now calls = .ok (next, made) ∧
      (next.activeMulticast = some bcdId ↔ (calls.push.fill PushReply.fresh).cmd = PushReplyCmd.push.code) := by
  cases taken : path.request head now calls with
  | error fault => exact absurd requests (PathState.request_error taken bcdId multi)
  | ok result =>
      obtain ⟨next, made⟩ := result
      refine ⟨next, made, rfl, ?_⟩
      rcases PathState.request_ok taken with ⟨-, -, idle⟩ | ⟨other, state, ⟨free, first, -, -⟩, -, rfl⟩
      · exact absurd requests (idle bcdId multi)
      · obtain rfl : bcdId = other := Option.some.inj (requests.2.1.symm.trans first)
        by_cases accepted : (calls.push.fill PushReply.fresh).cmd = PushReplyCmd.push.code
        · rw [PathState.processReply_push accepted]
          exact iff_of_true rfl accepted
        · rw [PathState.processReply_other accepted]
          refine iff_of_false ?_ accepted
          show path.activeMulticast ≠ some bcdId
          rw [free]
          exact (Option.some_ne_none bcdId).symm

end Replies

/-- A reply that is cut anywhere gives no value that the controller did not send. It activates the multicast without
a grant exactly when it was cut before the command was read. -/
theorem cut_reply_activates {protocol : ThriftProtocol} (documented : protocol.Documented) {xid : Int32}
    {cmd : PushReplyCmd} {sequenceId : Int32} {response : List UInt8}
    (answered : replyPush protocol sequenceId ⟨xid, cmd.code⟩ = some response) {fuel : Nat} (enough : 2 < fuel)
    (count : Nat) : ∃ outcome : PushOutcome, ReplyRead xid cmd outcome ∧
      recvPush protocol fuel PushReply.fresh (response.take count) =
        .ok (outcome.fill PushReply.fresh, outcome.succeeds) ∧
      (outcome.succeeds = true ↔ response.length ≤ count) ∧
      ∀ (path : PathState) (head : Nat) (now : Timeval) (bcdId : BcdID) (multi : MulticastState) (opens closes : Bool),
        path.Requests head now bcdId multi → ∃ next made,
          path.request head now ⟨opens, outcome, closes⟩ = .ok (next, made) ∧
            (next.activeMulticast = some bcdId ↔ cmd = .push ∨ ∃ read, outcome = .failed read none) := by
  have received := recvPush_reply documented answered enough PushReply.fresh
  have outcome : ∃ outcome : PushOutcome, ReplyRead xid cmd outcome ∧
      recvPush protocol fuel PushReply.fresh (response.take count) =
        .ok (outcome.fill PushReply.fresh, outcome.succeeds) ∧
      (outcome.succeeds = true ↔ response.length ≤ count) := by
    by_cases whole : response.length ≤ count
    · refine ⟨.reply xid cmd, .inl rfl, ?_, iff_of_true rfl whole⟩
      rw [List.take_of_length_le whole]
      exact received.1
    · obtain ⟨made, inside, stopped⟩ := received.2 count (Nat.lt_of_not_le whole)
      simp only [List.prefix_cons_iff, List.prefix_nil] at inside
      rcases inside with rfl | ⟨rest, rfl, rfl | ⟨more, rfl, rfl⟩⟩
      · exact ⟨.failed none none, .inr (.inl rfl), stopped, iff_of_false Bool.false_ne_true whole⟩
      · exact ⟨.failed (some xid) none, .inr (.inr (.inl rfl)), stopped, iff_of_false Bool.false_ne_true whole⟩
      · exact ⟨.failed (some xid) (some cmd.code), .inr (.inr (.inr rfl)), stopped,
          iff_of_false Bool.false_ne_true whole⟩
  obtain ⟨outcome, possible, read, succeeds⟩ := outcome
  refine ⟨outcome, possible, read, succeeds, ?_⟩
  intro path head now bcdId multi opens closes requests
  obtain ⟨next, made, taken, active⟩ := requests.active_iff ⟨opens, outcome, closes⟩
  exact ⟨next, made, taken, active.trans (fill_cmd_eq_push possible)⟩

/-- A denial that is cut behind its identifier. -/
theorem cut_reply_activates_denied : ∃ response,
    replyPush BinaryProtocol.protocol 0 ⟨7, PushReplyCmd.deny.code⟩ = some response ∧ 28 < response.length ∧
      ∃ outcome : PushOutcome, ReplyRead 7 .deny outcome ∧
        recvPush BinaryProtocol.protocol 3 PushReply.fresh (response.take 28) =
          .ok (outcome.fill PushReply.fresh, outcome.succeeds) ∧
        (outcome.succeeds = true ↔ response.length ≤ 28) ∧
        ∀ (path : PathState) (head : Nat) (now : Timeval) (bcdId : BcdID) (multi : MulticastState)
          (opens closes : Bool), path.Requests head now bcdId multi → ∃ next made,
            path.request head now ⟨opens, outcome, closes⟩ = .ok (next, made) ∧
              (next.activeMulticast = some bcdId ↔
                PushReplyCmd.deny = .push ∨ ∃ read, outcome = .failed read none) := by
  have answered : ∃ response, replyPush BinaryProtocol.protocol 0 ⟨7, PushReplyCmd.deny.code⟩ = some response ∧
      28 < response.length := ⟨_, rfl, by decide⟩
  obtain ⟨response, put, longer⟩ := answered
  exact ⟨response, put, longer, cut_reply_activates BinaryProtocol.protocol_documented put (by decide) 28⟩

end RepublicAgent
