/-
This file says that a connection between two agents delivers every message once and in the order of the queue.
-/

import RepublicAgent.Channel.Reassembly

namespace RepublicAgent
open Execution

/-- One direction of a connection. The queued messages are kept for the statements only. -/
structure Channel where
  sendSide : SendSide
  inbound : Inbound
  queued : List FittingMessage

def Channel.created : Channel := ⟨SendSide.created, ⟨RecvSide.created, []⟩, []⟩

def Channel.messages (channel : Channel) : List Message := channel.queued.map FittingMessage.toMessage

/-- The caller keeps a message that the queue refuses. -/
def Channel.insert (channel : Channel) (msg : FittingMessage) (priority : Bool) : Channel :=
  match insertMsg2SendQ channel.sendSide.sendQueue msg.toMessage priority with
  | some queue => { channel with
      sendSide := { channel.sendSide with
        sendQueue := queue
        enqueued := channel.sendSide.enqueued ++ [createMsgToken msg.toMessage] }
      queued := channel.queued ++ [msg] }
  | none => channel

/-- The bytes that the socket takes are on their way to the peer. -/
def Channel.sendMsg (channel : Channel) (results : List Int) : Channel :=
  { channel with
    sendSide := channel.sendSide.sendMsg results
    inbound := { channel.inbound with
      incoming := channel.inbound.incoming ++
        (RepublicAgent.sendMsg channel.sendSide.remainMsgToken channel.sendSide.sendQueue results).handed } }

/-- The sender queues and sends, and the receiver reads some of the bytes that are there. -/
inductive ChannelEvent where
  | insert (msg : FittingMessage) (priority : Bool)
  | sendMsg (results : List Int)
  | receive (call : RecvCall)

def channelStep (loop : SelectLoop) (channel : Channel) : ChannelEvent → Except Hang Channel
  | .insert msg priority => .ok (channel.insert msg priority)
  | .sendMsg results => .ok (channel.sendMsg results)
  | .receive call =>
      match channel.inbound.receive loop call with
      | .error hang => .error hang
      | .ok inbound => .ok { channel with inbound := inbound }

/-- The socket gets the messages with their padding, the handlers see the same messages, and no call hangs. -/
structure Channel.Fifo (loop : SelectLoop) (channel : Channel) : Prop where
  handed : channel.sendSide.handed <+: wires channel.messages
  dispatched : channel.inbound.side.dispatched <+: channel.messages.map Message.received
  complete : channel.sendSide.handed = wires channel.messages → channel.inbound.incoming = [] →
    channel.inbound.side.dispatched = channel.messages.map Message.received ∧
      channel.inbound.side.recvBuf = []
  ends : ∀ call, ∃ next, channel.inbound.receive loop call = .ok next

/-- The bytes of the handled messages, of the buffer and on the way are those for the socket. -/
structure Channel.Consistent (channel : Channel) : Prop where
  conserved : channel.sendSide.Conserved
  enqueued : channel.sendSide.enqueued = channel.messages.map createMsgToken
  follows : ∃ done rest, channel.messages = done ++ rest ∧ channel.inbound.Reads done rest ∧
    wires done ++ channel.inbound.side.recvBuf ++ channel.inbound.incoming = channel.sendSide.handed

theorem Channel.created_consistent : Channel.created.Consistent where
  conserved := rfl
  enqueued := rfl
  follows := by
    refine ⟨[], [], rfl, ⟨⟨rfl, List.nil_prefix, .inl ⟨rfl, rfl⟩⟩, ?_, List.prefix_rfl, ?_⟩, rfl⟩
    · intro msg others impossible
      cases impossible
    · intro msg impossible
      cases impossible

section Steps

variable {loop : SelectLoop} {channel : Channel}

/-- The bytes for the socket are the first ones of the queued messages. -/
theorem Channel.stream (channel : Channel) (conserved : channel.sendSide.Conserved)
    (enqueued : channel.sendSide.enqueued = channel.messages.map createMsgToken) :
    channel.sendSide.handed ++ (pendingTokens channel.sendSide.remainMsgToken channel.sendSide.sendQueue).flatMap
      MsgToken.rest = wires channel.messages := by
  unfold SendSide.Conserved at conserved
  rw [conserved, enqueued, List.flatMap_map]
  rfl

/-- A consistent channel is a queue of messages when its loop handles every message. -/
theorem Channel.Consistent.fifo (consistent : channel.Consistent)
    (handles : ∀ hashMulticast bcdId, loop.continues hashMulticast bcdId = false) : channel.Fifo loop := by
  obtain ⟨done, rest, split, reads, bytes⟩ := consistent.follows
  constructor
  · exact ⟨_, channel.stream consistent.conserved consistent.enqueued⟩
  · rw [reads.side.dispatched, split, List.map_append]
    exact List.prefix_append _ _
  · intro whole empty
    rw [empty, List.append_nil, whole, split, wires_append] at bytes
    have buffered := List.append_cancel_left bytes
    have none : rest = [] := by
      cases equal : rest with
      | nil => rfl
      | cons msg others =>
          have short := reads.settled msg others equal
          rw [buffered, equal, wires_cons, List.length_append, Message.wire_length] at short
          omega
    rw [reads.side.dispatched, buffered, split, none, List.append_nil]
    exact ⟨rfl, rfl⟩
  · intro call
    obtain ⟨next, _, _, ended, _⟩ := reads.receive_ok fun _ _ _ _ _ => handles call.hashMulticast _
    exact ⟨next, ended⟩

/-- A queued message comes behind all others. -/
theorem Channel.Consistent.insert (consistent : channel.Consistent) (msg : FittingMessage) (priority : Bool) :
    (channel.insert msg priority).Consistent := by
  unfold Channel.insert
  cases outcome : insertMsg2SendQ channel.sendSide.sendQueue msg.toMessage priority with
  | none => exact consistent
  | some queue =>
      have inserted : channel.sendSide.insert (msg.toMessage, priority) = .ok { channel.sendSide with
          sendQueue := queue
          enqueued := channel.sendSide.enqueued ++ [createMsgToken msg.toMessage] } := by
        simp only [SendSide.insert, outcome]
      obtain ⟨done, rest, split, reads, bytes⟩ := consistent.follows
      have messages : (channel.queued ++ [msg]).map FittingMessage.toMessage =
          channel.messages ++ [msg.toMessage] := List.map_append
      constructor
      · exact SendSide.insert_conserved consistent.conserved inserted
      · simp only [Channel.messages, messages, consistent.enqueued, List.map_append, List.map_singleton]
      · refine ⟨done, rest ++ [msg.toMessage], ?_, reads.extend msg, bytes⟩
        rw [← List.append_assoc, ← split]
        exact messages

/-- The bytes for the socket follow those on their way. -/
theorem Channel.Consistent.sendMsg (consistent : channel.Consistent) (results : List Int) :
    (channel.sendMsg results).Consistent := by
  have conserved := SendSide.sendMsg_conserved consistent.conserved results
  have stream := (channel.sendMsg results).stream conserved consistent.enqueued
  obtain ⟨done, rest, split, reads, bytes⟩ := consistent.follows
  have whole : wires done ++ channel.inbound.side.recvBuf ++ (channel.sendMsg results).inbound.incoming =
      (channel.sendMsg results).sendSide.handed := by
    simp only [Channel.sendMsg, SendSide.sendMsg]
    rw [← List.append_assoc, bytes]
  refine ⟨conserved, consistent.enqueued, done, rest, split, ⟨reads.side, reads.settled, ?_, reads.fits⟩, whole⟩
  have same : (channel.sendMsg results).messages = done ++ rest := split
  rw [← whole, same, wires_append, List.append_assoc, List.append_assoc] at stream
  exact ⟨_, (List.append_assoc _ _ _).trans (List.append_cancel_left stream)⟩

/-- A call of the receiver takes bytes from the way and hands over messages. -/
theorem Channel.Consistent.receive (consistent : channel.Consistent)
    (handles : ∀ hashMulticast bcdId, loop.continues hashMulticast bcdId = false) {call : RecvCall} {next : Inbound}
    (received : channel.inbound.receive loop call = .ok next) :
    ({ channel with inbound := next } : Channel).Consistent := by
  obtain ⟨done, rest, split, reads, bytes⟩ := consistent.follows
  have handled : CompletesHandled loop call.hashMulticast
      (channel.inbound.side.recvBuf.length + channel.inbound.count call) rest :=
    fun _ _ _ _ _ => handles call.hashMulticast _
  obtain ⟨other, before, after, ended, equal, reached, whole⟩ := reads.receive_ok handled
  obtain rfl := Except.ok.inj (ended.symm.trans received)
  refine ⟨consistent.conserved, consistent.enqueued, done ++ before, after, ?_, reached, ?_⟩
  · rw [List.append_assoc, ← equal]
    exact split
  · rw [wires_append, List.append_assoc, List.append_assoc, ← List.append_assoc (wires before), whole,
      ← List.append_assoc]
    exact bytes

/-- Every step keeps the channel consistent. -/
theorem Channel.Consistent.step (consistent : channel.Consistent)
    (handles : ∀ hashMulticast bcdId, loop.continues hashMulticast bcdId = false) {event : ChannelEvent}
    {next : Channel} (taken : channelStep loop channel event = .ok next) : next.Consistent := by
  cases event with
  | insert msg priority => exact Except.ok.inj taken ▸ consistent.insert msg priority
  | sendMsg results => exact Except.ok.inj taken ▸ consistent.sendMsg results
  | receive call =>
      simp only [channelStep] at taken
      split at taken
      · cases taken
      · next inbound received =>
          exact Except.ok.inj taken ▸ consistent.receive handles received

end Steps

/-- A loop that handles every message makes the connection a queue of messages. -/
theorem channel_fifo {loop : SelectLoop} (handles : ∀ hashMulticast bcdId, loop.continues hashMulticast bcdId = false)
    (events : List ChannelEvent) :
    Throughout (channelStep loop) (Channel.Fifo loop) Channel.created events := by
  apply throughout_of_invariant Channel.Consistent
  · intro channel event next consistent taken
    exact consistent.step handles taken
  · intro channel consistent
    exact consistent.fifo handles
  · exact Channel.created_consistent

/-- The connections of the receiver agent and of the executors deliver every message once and in the order of the
queue, however the sockets cut the bytes. -/
theorem connections_fifo (events : List ChannelEvent) :
    Throughout (channelStep .threadRecvSocket) (Channel.Fifo .threadRecvSocket) Channel.created events ∧
      Throughout (channelStep .threadDomainSocket) (Channel.Fifo .threadDomainSocket) Channel.created events :=
  ⟨channel_fifo (fun _ _ => rfl) events, channel_fifo (fun _ _ => rfl) events⟩

end RepublicAgent
