/-
This file models the receiver state of `hero.h` and the functions of `hero.c` over it.
-/

import RepublicAgent.Library.MachineInteger
import RepublicAgent.Library.PositionedWrite
import RepublicAgent.Message.Types

namespace RepublicAgent
open MachineInteger PositionedWrite

/-- Each constructor names one `assert` on the receiving side. The last two stand for the segmentation faults
of a copy to a null tail buffer and of a library call on a null stream. -/
inductive Assertion where
  | appIdTerminated
  | dataSizeNonzero
  | extendSeek
  | seqTailZero
  | fileStartUnset
  | fileStartKnown
  | seqMaxNotOne
  | tailBufferPresent
  | streamOpen
deriving DecidableEq, Repr

/-- An access through a null pointer is no failed `assert`. -/
def Assertion.fault : Assertion → Fault
  | .tailBufferPresent | .streamOpen => .badPointer
  | _ => .assertion

/-- The file is read in the order `[start, jump)`, `[0, start)`, `[jump, end)`. -/
structure FileMetadata where
  start : Int
  jump : Int
deriving DecidableEq, Repr

/-- An open stream is its position. The pointer is null after `closeFile`. A call on a null pointer ends the agent,
which the steps of a receiver check beside the calls, and the functions here leave a null stream as it is. -/
abbrev FilePtr := Option Nat

def ftell : FilePtr → Int
  | some position => position
  | none => -1

/-- A seek before the first byte fails and leaves the stream where it is. -/
def fseekSet (stream : FilePtr) (offset : Int) : FilePtr :=
  stream.map fun position => if 0 ≤ offset then offset.toNat else position

/-- The state keeps the bytes of the received file. Both streams write to it. -/
structure RecverState where
  bcdId : BcdID
  isSeqFst : Bool
  seqFst : Nat
  seqLst : Nat
  seqTail : Nat
  isSeqZero : Bool
  appIdStr : List UInt8
  dataSize : Int
  seqMax : Nat
  bytePayload : Nat
  bytePayloadMin : Nat
  tailPatchBuffer : Option (List UInt8)
  tailPatchBufferLen : Int
  file : List UInt8
  fdP : FilePtr
  fdPatchP : FilePtr
  numFastRecvEd : Nat
  numSlowRecvEd : Nat
  isFastpath : Bool
  isFinished : Bool
  fileMetadata : FileMetadata
deriving DecidableEq, Repr

/-- The global `dataPayloadLen` fixes the payload of every packet but the last. -/
def createRecverState (bcdId : BcdID) (dataPayloadLen : Nat) : RecverState where
  bcdId := bcdId
  isSeqFst := false
  seqFst := 0
  seqLst := 0
  seqTail := 0
  isSeqZero := false
  appIdStr := []
  dataSize := 0
  seqMax := 0
  bytePayload := u16 dataPayloadLen
  bytePayloadMin := 0
  tailPatchBuffer := none
  tailPatchBufferLen := 0
  file := []
  fdP := some 0
  fdPatchP := some 0
  numFastRecvEd := 0
  numSlowRecvEd := 0
  isFastpath := false
  isFinished := false
  fileMetadata := ⟨-1, -1⟩

def recverStateStartFathPath (recv : RecverState) : RecverState :=
  { recv with isFastpath := true }

def recverStateStopFathPath (recv : RecverState) : RecverState :=
  { recv with isFastpath := false }

/-- The quotient of the two doubles is taken as exact before it is rounded up. -/
def ceilQuotient (dataSize : Int) (bytePayload : Nat) : Int := -(-dataSize / bytePayload)

/-- The packet geometry follows from the data size in packet zero. -/
def RecverState.withGeometry (recv : RecverState) (bm : BcdMetadata) : RecverState :=
  let remainder := u16 (bm.dataSize.tmod recv.bytePayload)
  { recv with
    dataSize := bm.dataSize
    appIdStr := bm.appId
    seqMax := u32 (ceilQuotient bm.dataSize recv.bytePayload)
    bytePayloadMin := if remainder = 0 then recv.bytePayload else remainder }

/-- The C expression multiplies and adds as `uint32_t` and stores the result in an `int`. -/
def tailLength (seqMax seqTail bytePayload bytePayloadMin : Nat) : Int :=
  s32 (u32 ((u32 ((u32 ((seqMax : Int) - seqTail - 1 - 1) : Int) * bytePayload) : Int) + bytePayloadMin))

/-- The tail buffer is allocated only when packets behind `seqTail` were lost. -/
def RecverState.tailBuffer (recv : RecverState) : Option (List UInt8) × Int :=
  if recv.seqTail = 0 then (recv.tailPatchBuffer, recv.tailPatchBufferLen)
  else
    let len := tailLength recv.seqMax recv.seqTail recv.bytePayload recv.bytePayloadMin
    if len ≤ 0 then (recv.tailPatchBuffer, 0) else (some (List.replicate len.toNat 0), len)

def RecverState.withTailBuffer (recv : RecverState) : RecverState :=
  { recv with
    tailPatchBuffer := recv.tailBuffer.1
    tailPatchBufferLen := recv.tailBuffer.2 }

/-- The C expression takes the product of `byte_payload` and `seq_fst` as `uint32_t`. -/
def startDifference (dataSize : Int) (bytePayload seqFst : Nat) (tailPatchBufferLen : Int) : Int :=
  dataSize - u32 ((bytePayload : Int) * seqFst) - tailPatchBufferLen

/-- A known start is only compared with the computed one, so it stays. -/
def RecverState.withFileMetadata (recv : RecverState) : RecverState :=
  { recv with
    fileMetadata :=
      { start :=
          if recv.fileMetadata.start < 0 then
            (startDifference recv.dataSize recv.bytePayload recv.seqFst
              recv.tailPatchBufferLen).tmod recv.dataSize
          else recv.fileMetadata.start
        jump := recv.dataSize - recv.tailPatchBufferLen }
    isSeqZero := true }

/-- A receiver learns the geometry, the tail buffer and the file metadata from packet zero. -/
def RecverState.learn (recv : RecverState) (bm : BcdMetadata) : RecverState :=
  ((recv.withGeometry bm).withTailBuffer).withFileMetadata

/-- The function returns the length of the tail, or `-1` when the metadata is not taken. -/
def recverStateUpdateBcdMetadata (recv : RecverState) (bm : BcdMetadata) :
    Except Assertion (RecverState × Int) :=
  if recv.isSeqZero then .ok (recv, -1)
  else if ¬bm.appId.length < appIdLen then .error .appIdTerminated
  else if bm.dataSize = 0 then .error .dataSizeNonzero
  else if recv.seqTail ≠ 0 ∧ recv.tailPatchBuffer.isSome then .ok (recv.withGeometry bm, -1)
  else .ok (recv.learn bm, (recv.learn bm).tailPatchBufferLen)

def recverStateHasGottenAllData (recv : RecverState) : Bool :=
  recv.numFastRecvEd + recv.numSlowRecvEd = recv.seqMax

/-- Both streams end at the last byte of the one file, so either may append the tail. -/
def recverStateFinishRecv (recv : RecverState) : RecverState :=
  let tail := (recv.tailPatchBuffer.getD []).take recv.tailPatchBufferLen.toNat
  { recv with
    fileMetadata :=
      { recv.fileMetadata with
        jump := if recv.fdP.isSome then recv.file.length else recv.fileMetadata.jump }
    file := if recv.fdP.isSome then writeAt 0 recv.file recv.file.length tail else recv.file
    isFinished := true
    fdP := none
    fdPatchP := none
    tailPatchBuffer := none }

/-- The file position of a packet in the fast-path layout. -/
def getFilePosition (cur first tail : Nat) (payload start : Int) : Int :=
  if first ≤ cur then
    if 0 < tail ∧ tail < cur then cur * payload
    else u32 ((cur : Int) - first) * payload
  else start + cur * payload

/-- Every seek of `extendFile` to a position inside the file system succeeds. -/
def extendFile (stream : FilePtr) (extendDb : Int) : Except Assertion FilePtr :=
  match stream with
  | none => .ok none
  | some position =>
      if 0 ≤ position + extendDb then .ok (some (position + extendDb).toNat) else .error .extendSeek

def streamWrite (stream : FilePtr) (file bytes : List UInt8) : List UInt8 :=
  match stream with
  | none => file
  | some position => writeAt 0 file position bytes

/-- An `fwrite` to `fd_p` advances the stream by the written bytes. -/
def RecverState.fwriteFast (recv : RecverState) (bytes : List UInt8) : RecverState :=
  { recv with
    file := streamWrite recv.fdP recv.file bytes
    fdP := recv.fdP.map (· + bytes.length) }

/-- An `fwrite` to `fd_patch_p` advances the stream by the written bytes. -/
def RecverState.fwritePatch (recv : RecverState) (bytes : List UInt8) : RecverState :=
  { recv with
    file := streamWrite recv.fdPatchP recv.file bytes
    fdPatchP := recv.fdPatchP.map (· + bytes.length) }

end RepublicAgent
