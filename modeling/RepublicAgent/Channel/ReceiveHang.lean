/-
This file says when the receive loop of the sender agent handles every whole message. It hangs before a message
without a multicast state.
-/

import RepublicAgent.Channel.Reassembly

namespace RepublicAgent
open Execution

/-- A new connection whose peer sends the messages. -/
def Inbound.initial (msgs : List Message) : Inbound := ⟨RecvSide.created, wires msgs⟩

/-- Every whole message is handled once and in its order, and part of at most one message is buffered. -/
def Inbound.Consumed (msgs : List Message) (inbound : Inbound) : Prop :=
  ∃ done rest, msgs = done ++ rest ∧ inbound.side.dispatched = done.map Message.received ∧
    wires done ++ inbound.side.recvBuf ++ inbound.incoming = wires msgs ∧ inbound.side.Partial rest

/-- The number of bytes that the agent has read. -/
def Inbound.delivered (msgs : List Message) (inbound : Inbound) : Nat :=
  (wires msgs).length - inbound.incoming.length

/-- Each message whose last byte is read by the call has a multicast state. -/
def CompletesKnown (msgs : List Message) (inbound : Inbound) (call : RecvCall) : Prop :=
  ∀ before msg after, msgs = before ++ msg :: after →
    inbound.delivered msgs < (wires (before ++ [msg])).length →
    (wires (before ++ [msg])).length ≤ inbound.delivered msgs + inbound.count call →
    call.hashMulticast msg.bcdId = true

/-- The invariant of the connection names the handled messages. -/
def Inbound.Follows (msgs : List Message) (inbound : Inbound) : Prop :=
  ∃ done rest, msgs = done ++ rest ∧ inbound.Reads done rest ∧
    inbound.side.recvBuf ++ inbound.incoming = wires rest

section Calls

variable {msgs : List Message} {inbound : Inbound} {call : RecvCall}

theorem Inbound.Follows.consumed (follows : inbound.Follows msgs) : inbound.Consumed msgs := by
  obtain ⟨done, rest, split, reads, bytes⟩ := follows
  refine ⟨done, rest, split, reads.side.dispatched, ?_, reads.settled⟩
  rw [List.append_assoc, bytes, split, wires_append]

theorem Inbound.initial_follows (fits : ∀ msg ∈ msgs, msg.wireLen ≤ recvBufLen) :
    (Inbound.initial msgs).Follows msgs := by
  refine ⟨[], msgs, rfl, ⟨⟨rfl, List.nil_prefix, .inl ⟨rfl, rfl⟩⟩, ?_, List.prefix_rfl, fits⟩, rfl⟩
  intro msg others _
  have header := msg.header_le
  have positive : 0 < msgHdrLen := by decide
  exact Nat.lt_of_lt_of_le positive header

/-- The messages that a call completes are the whole ones among those not yet handled. -/
theorem Inbound.Reads.known_iff {done rest : List Message} (reads : inbound.Reads done rest)
    (split : msgs = done ++ rest) (bytes : inbound.side.recvBuf ++ inbound.incoming = wires rest) :
    CompletesKnown msgs inbound call ↔ CompletesHandled .threadSendSocket call.hashMulticast
      (inbound.side.recvBuf.length + inbound.count call) rest := by
  have sizes := congrArg List.length bytes
  rw [List.length_append] at sizes
  have delivered : inbound.delivered msgs = (wires done).length + inbound.side.recvBuf.length := by
    rw [Inbound.delivered, split, wires_append, List.length_append]
    omega
  unfold CompletesKnown CompletesHandled
  rw [delivered]
  constructor
  · intro known before msg after equal inside
    have ends : (wires (done ++ before ++ [msg])).length =
        (wires done).length + (wires (before ++ [msg])).length := by
      rw [List.append_assoc, wires_append, List.length_append]
    have later : inbound.side.recvBuf.length < (wires (before ++ [msg])).length := by
      cases before with
      | nil =>
          have short := reads.settled msg after equal
          simpa using short
      | cons first others =>
          have short := reads.settled first (others ++ msg :: after) equal
          rw [List.cons_append, wires_cons, List.length_append, Message.wire_length]
          omega
    have found := known (done ++ before) msg after (by rw [split, equal, List.append_assoc]) (by omega) (by omega)
    simp [SelectLoop.continues, found]
  · intro handled before msg after equal fresh inside
    rw [split] at equal
    rcases List.append_eq_append_iff.mp equal with ⟨middle, rfl, others⟩ | ⟨middle, rfl, others⟩
    · have found := handled middle msg after others (by
        rw [List.append_assoc, wires_append, List.length_append] at inside
        omega)
      simpa [SelectLoop.continues] using found
    · cases middle with
      | nil =>
          have found := handled [] msg after others.symm (by
            rw [List.append_nil, wires_append, List.length_append] at inside
            rw [List.nil_append]
            omega)
          simpa [SelectLoop.continues] using found
      | cons next middle =>
          obtain ⟨rfl, _⟩ := List.cons.inj others
          rw [wires_append, List.length_append, wires_append, List.length_append, wires_cons, List.length_append,
            wires_cons, wires_nil, List.append_nil] at fresh
          omega

/-- A call whose whole messages are known ends and keeps the invariant. -/
theorem Inbound.Follows.receive_ok (follows : inbound.Follows msgs) (known : CompletesKnown msgs inbound call) :
    ∃ next, inbound.receive .threadSendSocket call = .ok next ∧ next.Follows msgs := by
  obtain ⟨done, rest, split, reads, bytes⟩ := follows
  obtain ⟨next, before, after, ended, equal, reached, whole⟩ :=
    reads.receive_ok ((reads.known_iff split bytes).mp known)
  refine ⟨next, ended, done ++ before, after, by rw [split, equal, List.append_assoc], reached, ?_⟩
  rw [bytes, equal, wires_append, List.append_assoc] at whole
  exact List.append_cancel_left whole

theorem Inbound.Follows.receive_hangs (follows : inbound.Follows msgs)
    (unknown : ¬ CompletesKnown msgs inbound call) :
    inbound.receive .threadSendSocket call = .error .receiveLoop := by
  obtain ⟨done, rest, split, reads, bytes⟩ := follows
  exact reads.receive_hangs fun handled => unknown ((reads.known_iff split bytes).mpr handled)

end Calls

/-- The receive loops of the sender agent end and handle every whole message exactly when each message that they
complete has a multicast state at that time. -/
theorem messages_consumed_iff (msgs : List FittingMessage) (calls : List RecvCall) :
    (∃ inbound, execute (Inbound.receive .threadSendSocket) (Inbound.initial (msgs.map FittingMessage.toMessage)) calls =
        .ok inbound ∧ inbound.Consumed (msgs.map FittingMessage.toMessage)) ↔
      StepsMeet (Inbound.receive .threadSendSocket) (CompletesKnown (msgs.map FittingMessage.toMessage))
        (Inbound.initial (msgs.map FittingMessage.toMessage)) calls := by
  have fits : ∀ msg ∈ msgs.map FittingMessage.toMessage, msg.wireLen ≤ recvBufLen := by
    intro msg member
    obtain ⟨fitting, _, rfl⟩ := List.mem_map.mp member
    exact fitting.fits
  apply execute_completes_iff (Inbound.Follows (msgs.map FittingMessage.toMessage))
  · intro inbound call follows known
    exact follows.receive_ok known
  · intro inbound call follows unknown
    exact ⟨_, follows.receive_hangs unknown⟩
  · intro inbound follows
    exact follows.consumed
  · exact Inbound.initial_follows fits

/-- A `MSG_PULL` of a broadcast that the master has not written. -/
def earlyPull : FittingMessage where
  bcdId := ⟨1, 2, 3⟩
  type := 83
  time := Vector.replicate 16 0
  payload := []
  padding := false
  lengthFits := by decide
  paddingFits := by decide
  fits := by decide

/-- The pull stays in the buffer, and the agent looks up its broadcast again and again. -/
theorem messages_unconsumed :
    ¬ ∀ (msgs : List FittingMessage) (calls : List RecvCall),
      ∃ inbound, execute (Inbound.receive .threadSendSocket) (Inbound.initial (msgs.map FittingMessage.toMessage)) calls =
        .ok inbound ∧ inbound.Consumed (msgs.map FittingMessage.toMessage) := by
  intro always
  have follows : (Inbound.initial [earlyPull.toMessage]).Follows [earlyPull.toMessage] := by
    apply Inbound.initial_follows
    intro msg member
    rw [List.mem_singleton.mp member]
    exact earlyPull.fits
  have unknown : ¬ CompletesKnown [earlyPull.toMessage] (Inbound.initial [earlyPull.toMessage]) ⟨fun _ => false, 48⟩ := by
    intro known
    have found := known [] earlyPull.toMessage [] rfl (by decide) (by decide)
    cases found
  obtain ⟨inbound, ended, _⟩ := always [earlyPull] [⟨fun _ => false, 48⟩]
  rw [List.map_singleton, execute_singleton, follows.receive_hangs unknown] at ended
  cases ended

end RepublicAgent
