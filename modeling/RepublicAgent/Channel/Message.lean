/-
This file models the control messages of `msg.c` and the send queue of a connection in `hero.c`.
-/

import RepublicAgent.Library.BigEndian
import RepublicAgent.Library.MachineInteger
import RepublicAgent.Message.Types

namespace RepublicAgent
open BigEndian MachineInteger

/-- The value `MSG_HDRLEN` counts the identifier, the type, the length and the time of a message. -/
def msgHdrLen : Nat := 48

/-- The value `APR_QUEUE_CAPACITY` bounds every send queue. -/
def aprQueueCapacity : Nat := 200

/-- A padded message fills one packet of `INTERFACE_MTU` bytes behind the IP and the TCP header. -/
def paddedLen : Nat := 8946 - 20 - 20

/-- A caller hands over the payload of a message. The sixteen bytes of the time stay uninterpreted. -/
structure Message where
  bcdId : BcdID
  type : UInt32
  time : Vector UInt8 16
  payload : List UInt8
  padding : Bool
  lengthFits : msgHdrLen + payload.length < 4294967296
  paddingFits : padding = true → msgHdrLen + payload.length ≤ paddedLen
deriving DecidableEq, Repr

def Message.len (msg : Message) : Nat := msgHdrLen + msg.payload.length

/-- The number of zero bytes behind the message. -/
def Message.paddingLen (msg : Message) : Nat :=
  if msg.padding then u32 ((paddedLen : Int) - msg.len) else 0

/-- The identifier, the type and the length have network byte order. -/
def createMsgHdr (bcdId : BcdID) (type : UInt32) (len : Nat) (time : Vector UInt8 16) : List UInt8 :=
  encode 8 bcdId.msb.toNat ++ encode 8 bcdId.lsb.toNat ++ encode 8 bcdId.dataId.toNat ++
    encode 4 type.toNat ++ encode 4 len ++ time.toList

/-- The length in the header includes the padding. -/
def createMsg (msg : Message) : List UInt8 :=
  createMsgHdr msg.bcdId msg.type (msg.len + msg.paddingLen) msg.time ++ msg.payload

theorem createMsg_length (msg : Message) : (createMsg msg).length = msg.len := by
  simp [createMsg, createMsgHdr, Message.len, msgHdrLen]
  omega

theorem paddingLen_eq (msg : Message) :
    msg.paddingLen = if msg.padding then paddedLen - msg.len else 0 := by
  unfold Message.paddingLen
  split
  · next padded =>
      exact u32_sub (msg.paddingFits padded) (by decide)
  · rfl

/-- A token is deleted with its last byte, so an existing token has a byte to send. -/
structure MsgToken where
  buf : List UInt8
  paddingLen : Nat
  byteSent : Nat
  headed : msgHdrLen ≤ buf.length
  bounded : buf.length + paddingLen < 4294967296
  unsent : byteSent < buf.length + paddingLen
deriving DecidableEq, Repr

def createMsgToken (msg : Message) : MsgToken where
  buf := createMsg msg
  paddingLen := msg.paddingLen
  byteSent := 0
  headed := by rw [createMsg_length, Message.len]; omega
  bounded := by
    have fits := msg.lengthFits
    have short := msg.paddingFits
    rw [createMsg_length, paddingLen_eq]
    unfold Message.len paddedLen at *
    split_ifs with padded
    · have bound := short padded
      omega
    · omega
  unsent := by rw [createMsg_length, Message.len, msgHdrLen]; omega

/-- The queue is full at its capacity. -/
def aprQueueTrypush (queue : List MsgToken) (token : MsgToken) : Option (List MsgToken) :=
  if queue.length < aprQueueCapacity then some (queue ++ [token]) else none

/-- A message without priority is refused when the queue is more than half full. -/
def insertMsg2SendQ (queue : List MsgToken) (msg : Message) (priority : Bool) : Option (List MsgToken) :=
  if priority = false ∧ aprQueueCapacity / 2 < queue.length then none
  else aprQueueTrypush queue (createMsgToken msg)

/-- An empty queue takes every message. -/
theorem insertMsg2SendQ_empty (msg : Message) (priority : Bool) :
    insertMsg2SendQ [] msg priority = some [createMsgToken msg] := by
  rw [insertMsg2SendQ, if_neg (by simp), aprQueueTrypush, if_pos (by simp [aprQueueCapacity]),
    List.nil_append]

theorem insertMsg2SendQ_ne_nil {queue grown : List MsgToken} {msg : Message} {priority : Bool}
    (inserted : insertMsg2SendQ queue msg priority = some grown) : grown ≠ [] := by
  unfold insertMsg2SendQ aprQueueTrypush at inserted
  split_ifs at inserted
  obtain rfl := Option.some.inj inserted
  simp

end RepublicAgent
