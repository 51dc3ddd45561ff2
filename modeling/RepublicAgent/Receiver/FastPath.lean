/-
This file models the treatment of one fast-path packet in `process_rings`.
-/

import RepublicAgent.Receiver.State

namespace RepublicAgent
open MachineInteger PositionedWrite

/-- These are the local flags of one iteration of the packet loop. -/
structure PacketFlags where
  seqZero : Bool
  seqJump : Bool
  seqError : Bool
  pt : Option PatchTuple
deriving DecidableEq, Repr

/-- The flags are clear before the branches. -/
def PacketFlags.clear : PacketFlags := ⟨false, false, false, none⟩

/-- The flags of a packet that the branches reject. -/
def PacketFlags.error : PacketFlags := { PacketFlags.clear with seqError := true }

/-- The first packet fixes `seq_fst` and the packet before it. -/
def fastPathFirst (recv : RecverState) (seqNum : Nat) : RecverState :=
  if recv.isSeqFst then recv
  else { recv with
    seqLst := if seqNum ≠ 0 then u32 ((seqNum : Int) - 1) else seqnumMax
    seqFst := seqNum
    isSeqFst := true }

/-- Every accepting branch writes the payload and counts the packet. -/
def RecverState.writeFastData (recv : RecverState) (payload : List UInt8) : RecverState :=
  { recv.fwriteFast payload with numFastRecvEd := recv.numFastRecvEd + 1 }

/-- A lossy branch first puts a place holder for the lost packets into the file. -/
def RecverState.extendAndWrite (recv : RecverState) (extendDb : Int) (payload : List UInt8) :
    Except Assertion RecverState := do
  let fdP ← extendFile recv.fdP extendDb
  return { recv with fdP := fdP }.writeFastData payload

/-- The branch for packet zero. -/
def fastPathZero (recv : RecverState) (pkt : DataPacket) :
    Except Assertion (RecverState × PacketFlags) := do
  let (recv, ret) ← recverStateUpdateBcdMetadata recv pkt.metadata
  if 0 ≤ ret then
    if recv.seqLst = u32 ((recv.seqMax : Int) - 1) ∨ recv.seqLst = seqnumMax then
      return (recv.writeFastData pkt.payload, { PacketFlags.clear with seqZero := true })
    else if recv.seqFst < recv.seqLst ∧ recv.seqFst ≠ 0 then
      let extendDb := (u32 ((recv.seqMax : Int) - recv.seqLst - 2) : Int) * recv.bytePayload +
        recv.bytePayloadMin
      let pt := PatchTuple.mk (u32 ((recv.seqLst : Int) + 1)) recv.seqMax
      let recv ← recv.extendAndWrite extendDb pkt.payload
      return (recv, ⟨true, true, false, some pt⟩)
    else
      return (recv, PacketFlags.error)
  else
    return (recv, PacketFlags.error)

/-- The branch for a packet ahead of `seq_lst`. Both halves of the round place it alike. -/
def fastPathAhead (recv : RecverState) (pkt : DataPacket) :
    Except Assertion (RecverState × PacketFlags) := do
  let extendDb := (u32 ((pkt.seqNum : Int) - recv.seqLst - 1) : Int) * recv.bytePayload
  let pt := PatchTuple.mk (u32 ((recv.seqLst : Int) + 1)) pkt.seqNum
  if recv.seqLst < recv.seqFst ∧ pkt.seqNum < recv.seqFst then
    let recv ← recv.extendAndWrite extendDb pkt.payload
    return (recv, ⟨false, true, false, some pt⟩)
  else if recv.seqFst ≤ recv.seqLst then
    let recv ← recv.extendAndWrite extendDb pkt.payload
    return (recv, ⟨false, true, false, some pt⟩)
  else
    return (recv, PacketFlags.error)

/-- The branch for a wrap that lost packet zero records the tail and the file start. -/
def fastPathWrap (recv : RecverState) (pkt : DataPacket) :
    Except Assertion (RecverState × PacketFlags) := do
  if recv.seqTail ≠ 0 then throw .seqTailZero
  if recv.fileMetadata.start ≠ -1 then throw .fileStartUnset
  let pt := PatchTuple.mk (u32 ((recv.seqLst : Int) + 1)) pkt.seqNum
  let recv := { recv with
    seqTail := recv.seqLst
    fileMetadata := { recv.fileMetadata with start := ftell recv.fdP } }
  let recv ← recv.extendAndWrite ((pkt.seqNum : Int) * recv.bytePayload) pkt.payload
  return (recv, ⟨false, true, false, some pt⟩)

/-- The branches test the packet in the order of the source. -/
def fastPathBranch (recv : RecverState) (pkt : DataPacket) :
    Except Assertion (RecverState × PacketFlags) :=
  if pkt.seqNum ≠ 0 ∧ u32 ((pkt.seqNum : Int) - recv.seqLst) = 1 then
    .ok (recv.writeFastData pkt.payload, PacketFlags.clear)
  else if pkt.seqNum = 0 then fastPathZero recv pkt
  else if recv.seqLst < pkt.seqNum then fastPathAhead recv pkt
  else if pkt.seqNum < recv.seqFst ∧ recv.seqFst < recv.seqLst then fastPathWrap recv pkt
  else .ok (recv, PacketFlags.error)

/-- A rejected packet leaves `seq_lst`. -/
def followLast (recv : RecverState) (flags : PacketFlags) (seqNum : Nat) : RecverState :=
  if flags.seqError then recv else { recv with seqLst := seqNum }

/-- The first packet is fixed, the packet is branched on and `seq_lst` follows it. -/
def fastPathCount (recv : RecverState) (pkt : DataPacket) :
    Except Assertion (RecverState × PacketFlags) := do
  let (recv, flags) ← fastPathBranch (fastPathFirst recv pkt.seqNum) pkt
  return (followLast recv flags pkt.seqNum, flags)

/-- The last optical packet is the one before `seq_fst`, also when it was rejected. -/
def isLastOptical (recv : RecverState) (seqNum : Nat) : Bool :=
  (recv.seqFst ≠ 0 ∧ u32 ((seqNum : Int) + 1) = recv.seqFst) ∨
    (recv.seqFst = 0 ∧ u32 ((seqNum : Int) + 1) = recv.seqMax)

/-- The last optical packet stops the fast path and records the jump position. -/
def fastPathStop (recv : RecverState) : RecverState :=
  let recv := recverStateStopFathPath recv
  { recv with fileMetadata := { recv.fileMetadata with jump := ftell recv.fdP } }

/-- The completion test of the data channel. The flag is `seq_all`. -/
def fastPathTest (recv : RecverState) : RecverState × Bool :=
  if recverStateHasGottenAllData recv then (recverStateFinishRecv recv, true) else (recv, false)

def fastPathLast (recv : RecverState) (seqNum : Nat) : RecverState × Bool :=
  if isLastOptical recv seqNum then fastPathTest (fastPathStop recv) else (recv, false)

/-- One write to the `n2c` pipe carries the reports of the packet. -/
def n2cMessages (recv : RecverState) (seqNum : Nat) (seqFirst seqAll : Bool) (flags : PacketFlags) :
    List N2cMsg :=
  (if seqFirst then [.seqFirst recv.bcdId seqNum] else []) ++
  (if flags.seqZero ∧ 1 < recv.seqMax then [.seqZero recv.bcdId] else []) ++
  (if seqAll ∧ 1 < recv.seqMax then [.seqAll recv.bcdId] else []) ++
  (match flags.pt with
    | some pt => if flags.seqJump then [.seqJump recv.bcdId pt] else []
    | none => [])

/-- A stopped fast path drops the packet. -/
def processRings (recv : RecverState) (pkt : DataPacket) :
    Except Assertion (RecverState × List N2cMsg) :=
  if recv.isFastpath then do
    let (counted, flags) ← fastPathCount recv pkt
    let (last, seqAll) := fastPathLast counted pkt.seqNum
    return (last, n2cMessages last pkt.seqNum (!recv.isSeqFst) seqAll flags)
  else .ok (recv, [])

/-- The fast path writes an accepted packet to `fd_p`, and it calls `ftell` with the last optical packet. The
pointer is null behind `recverState_finishRecv`. -/
def processPacket (recv : RecverState) (pkt : DataPacket) : Except Assertion (RecverState × List N2cMsg) :=
  match processRings recv pkt with
  | .error assertion => .error assertion
  | .ok (next, msgs) =>
      if recv.isFastpath = true ∧ recv.fdP = none ∧
          (recv.numFastRecvEd < next.numFastRecvEd ∨ isLastOptical next pkt.seqNum = true) then
        .error .streamOpen
      else .ok (next, msgs)

theorem processPacket_ok {recv next : RecverState} {pkt : DataPacket} {msgs : List N2cMsg}
    (processed : processPacket recv pkt = .ok (next, msgs)) : processRings recv pkt = .ok (next, msgs) := by
  unfold processPacket at processed
  cases outcome : processRings recv pkt with
  | error assertion => simp [outcome] at processed
  | ok outcome =>
      simp only [outcome] at processed
      split_ifs at processed
      exact congrArg Except.ok (Except.ok.inj processed)

end RepublicAgent
