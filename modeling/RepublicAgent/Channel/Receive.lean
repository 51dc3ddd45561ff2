/-
This file models the receive loops of the three threads, which cut the bytes of a connection into messages.
-/

import RepublicAgent.Channel.WriteWatch

namespace RepublicAgent
open BigEndian

/-- The value `RECVBUF_LEN` is the size of the receive buffer. -/
def recvBufLen : Nat := 16384

/-- The value `BYTE_MAX` stands for an unknown length. -/
def byteMax : Nat := 2147483647 - 1000

/-- The type `MSG_NONTYPE` says that the header is not parsed. -/
def msgNonType : UInt32 := 44

/-- The fields of a message header. -/
structure MsgHdr where
  bcdId : BcdID
  type : UInt32
  len : Nat
  time : List UInt8
deriving DecidableEq, Repr

/-- The bytes of one field of the header. -/
def field (buf : List UInt8) (offset width : Nat) : List UInt8 := (buf.drop offset).take width

def parseBcdId (buf : List UInt8) : BcdID where
  msb := UInt64.ofNat (decode (field buf 0 8))
  lsb := UInt64.ofNat (decode (field buf 8 8))
  dataId := UInt64.ofNat (decode (field buf 16 8))

def parseMsgHdr (buf : List UInt8) : MsgHdr where
  bcdId := parseBcdId buf
  type := UInt32.ofNat (decode (field buf 24 4))
  len := decode (field buf 28 4)
  time := field buf 32 16

/-- The receiving side of a connection. The list `recvBuf` holds the first `recv_ed_byte` bytes of the buffer,
and the handled messages are kept for the statements only. -/
structure RecvSide where
  recvBuf : List UInt8
  recvExpectByte : Nat
  mh : MsgHdr
  dispatched : List (MsgHdr × List UInt8)
deriving DecidableEq, Repr

def RecvSide.created : RecvSide := ⟨[], byteMax, ⟨⟨0, 0, 0⟩, msgNonType, 0, []⟩, []⟩

/-- The header is parsed once for each message. -/
def RecvSide.parseHdr (side : RecvSide) : RecvSide :=
  if msgHdrLen ≤ side.recvBuf.length ∧ side.mh.type = msgNonType then
    { side with mh := parseMsgHdr side.recvBuf, recvExpectByte := (parseMsgHdr side.recvBuf).len }
  else side

/-- The handler reads the header and the bytes behind it. It is taken to return. -/
def RecvSide.dispatch (side : RecvSide) : RecvSide :=
  { side with
    dispatched := side.dispatched ++ [(side.mh, (side.recvBuf.take side.recvExpectByte).drop msgHdrLen)] }

/-- The handled message leaves the buffer. -/
def RecvSide.reset (side : RecvSide) : RecvSide :=
  { side with
    recvBuf := side.recvBuf.drop side.recvExpectByte
    recvExpectByte := byteMax
    mh := { side.mh with type := msgNonType } }

/-- The loop of `thread_sendSocket` continues before the handlers when it finds no `MulticastState`. The other
loops handle every message. -/
def SelectLoop.continues (loop : SelectLoop) (hashMulticast : BcdID → Bool) (bcdId : BcdID) : Bool :=
  match loop with
  | .threadSendSocket => !hashMulticast bcdId
  | .threadRecvSocket => false
  | .threadDomainSocket => false

/-- The receive loop with a bound on its passes. It gives nothing when it needs more of them. -/
def recvLoop (loop : SelectLoop) (hashMulticast : BcdID → Bool) : Nat → RecvSide → Option RecvSide
  | 0, _ => none
  | passes + 1, side =>
      if 0 < side.recvBuf.length then
        let parsed := side.parseHdr
        if parsed.recvExpectByte ≤ parsed.recvBuf.length then
          if loop.continues hashMulticast parsed.mh.bcdId then recvLoop loop hashMulticast passes parsed
          else recvLoop loop hashMulticast passes parsed.dispatch.reset
        else some parsed
      else some side

/-- The bytes in `incoming` reached the host and are not read yet. -/
structure Inbound where
  side : RecvSide
  incoming : List UInt8
deriving DecidableEq, Repr

/-- A socket with data gives at most the bytes that are there. The loop of the source looks the multicast up
again in each pass, and here all passes behind one call see one table of multicasts. -/
structure RecvCall where
  hashMulticast : BcdID → Bool
  count : Nat

/-- The number of bytes that `recv` returns fits into the rest of the buffer. -/
def Inbound.count (inbound : Inbound) (call : RecvCall) : Nat :=
  min call.count (min (recvBufLen - inbound.side.recvBuf.length) inbound.incoming.length)

/-- The agent hangs in a loop that never ends. -/
inductive Hang where
  | receiveLoop
deriving DecidableEq, Repr

def Inbound.read (inbound : Inbound) (call : RecvCall) : RecvSide :=
  { inbound.side with recvBuf := inbound.side.recvBuf ++ inbound.incoming.take (inbound.count call) }

/-- One `recv` with the loop behind it. A pass handles at least one byte or repeats itself, so the loop hangs
when it needs more passes than there are bytes. -/
def Inbound.receive (loop : SelectLoop) (inbound : Inbound) (call : RecvCall) : Except Hang Inbound :=
  if inbound.count call = 0 then .ok inbound
  else
    let received := inbound.read call
    match recvLoop loop call.hashMulticast (received.recvBuf.length + 1) received with
    | none => .error .receiveLoop
    | some side => .ok ⟨side, inbound.incoming.drop (inbound.count call)⟩

end RepublicAgent
