import Mathlib.Tactic

namespace RepublicAgent

/-- The value `SEQNUM_MAX` marks an unknown sequence number. -/
def seqnumMax : Nat := 2147483547

/-- The value `SEQ2WARDTHEEND` asks the sender for the end of the round. -/
def seq2WardTheEnd : Nat := seqnumMax

theorem seqnumMax_eq : seqnumMax = 2147483547 := rfl

/-- The value `APPID_LEN` includes the terminator of an application name. -/
def appIdLen : Nat := 64

/-- Each broadcast has an application identifier of two words and a data identifier. -/
structure BcdID where
  msb : UInt64
  lsb : UInt64
  dataId : UInt64
deriving DecidableEq, Repr

/-- The identifier of an application is the part that its broadcasts share. -/
structure AppID where
  msb : UInt64
  lsb : UInt64
deriving DecidableEq, Repr

def BcdID.appId (bcdId : BcdID) : AppID := ⟨bcdId.msb, bcdId.lsb⟩

/-- A failed `assert`, a call of `abort` or an access through a null or dangling pointer ends the agent. -/
inductive Fault where
  | assertion
  | abort
  | badPointer
deriving DecidableEq, Repr

/-- The packets from `sttSeq` up to `endSeq` should be patched by the sender. -/
structure PatchTuple where
  sttSeq : Nat
  endSeq : Nat
deriving DecidableEq, Repr

/-- The half-open interval of a patch tuple as a list. -/
def PatchTuple.seqs (pt : PatchTuple) : List Nat := List.range' pt.sttSeq (pt.endSeq - pt.sttSeq)

theorem PatchTuple.mem_seqs (pt : PatchTuple) (seq : Nat) :
    seq ∈ pt.seqs ↔ pt.sttSeq ≤ seq ∧ seq < pt.endSeq := by
  rw [seqs, List.mem_range'_1]
  omega

/-- The metadata follows the payload of packet zero. -/
structure BcdMetadata where
  dataSize : Int
  appId : List UInt8
deriving DecidableEq, Repr

/-- A data packet carries `dh.len` bytes of payload. Only packet zero has readable metadata. -/
structure DataPacket where
  bcdId : BcdID
  seqNum : Nat
  payload : List UInt8
  metadata : BcdMetadata
deriving DecidableEq, Repr

/-- The data channel thread reports to the control channel thread through the `n2c` pipe. -/
inductive N2cMsg where
  | seqFirst (bcdId : BcdID) (seq : Nat)
  | seqZero (bcdId : BcdID)
  | seqAll (bcdId : BcdID)
  | seqJump (bcdId : BcdID) (pt : PatchTuple)
deriving DecidableEq, Repr

def N2cMsg.bcdId : N2cMsg → BcdID
  | .seqFirst bcdId _ => bcdId
  | .seqZero bcdId => bcdId
  | .seqAll bcdId => bcdId
  | .seqJump bcdId _ => bcdId

/-- These messages go from a receiver agent to the agent of the master. -/
inductive ToMasterMsg where
  | firstSeq (bcdId : BcdID) (seq : Nat)
  | patchReq (bcdId : BcdID) (pt : PatchTuple)
  | allDone (bcdId : BcdID)
deriving DecidableEq, Repr

/-- These messages go from the agent of the master to a receiver agent. -/
inductive ToReceiverMsg where
  | patchData (pkt : DataPacket)
  | fastDone (bcdId : BcdID)
deriving DecidableEq, Repr

/-- The control channel thread reports to the service thread through the `c2i` pipe. -/
inductive C2iMsg where
  | seqZero (bcdId : BcdID)
  | seqAll (bcdId : BcdID)
deriving DecidableEq, Repr

/-- The constant `MASTER_EXECUTOR_ID`. -/
def masterExecutorId : Int32 := -1

/-- The fields of `MSG_INT_REQ` that later handlers read. -/
structure MsgIntQ where
  executorId : Int32
  masterAddr : Nat
deriving DecidableEq, Repr

end RepublicAgent
