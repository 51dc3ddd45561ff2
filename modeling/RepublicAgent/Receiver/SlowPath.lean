/-
This file models the handlers of `thread_recvSocket` that act on a receiver state.
-/

import RepublicAgent.Receiver.FastPath

namespace RepublicAgent
open MachineInteger PositionedWrite

/-- A handler queues messages for the master and reports to the service thread. -/
structure HandlerOutput where
  toMaster : List ToMasterMsg
  toService : List C2iMsg
deriving DecidableEq, Repr

def HandlerOutput.none : HandlerOutput := ⟨[], []⟩

/-- The C expression computes the offset in the tail buffer as `uint32_t`. -/
def tailOffset (seqNum seqTail bytePayload : Nat) : Nat :=
  u32 ((u32 ((seqNum : Int) - seqTail - 1) : Int) * bytePayload)

/-- The copy goes to the tail buffer. -/
def RecverState.copyToTail (recv : RecverState) (pkt : DataPacket) : Except Assertion RecverState :=
  match recv.tailPatchBuffer with
  | none => .error .tailBufferPresent
  | some buffer =>
      let offset := tailOffset pkt.seqNum recv.seqTail recv.bytePayload
      .ok { recv with tailPatchBuffer := some (writeAt 0 buffer offset pkt.payload) }

/-- The patch stream is set to the file position of the packet. -/
def RecverState.seekPatch (recv : RecverState) (seqNum : Nat) : RecverState :=
  { recv with
    fdPatchP := fseekSet recv.fdPatchP
      (getFilePosition seqNum recv.seqFst recv.seqTail recv.bytePayload recv.fileMetadata.start) }

/-- A patch packet is stored and counted. The flag is clear when it was out of range. -/
def patchDataCount (recv : RecverState) (pkt : DataPacket) :
    Except Assertion (RecverState × Bool) :=
  if 0 < recv.seqTail ∧ recv.seqTail < pkt.seqNum then do
    let recv ← recv.copyToTail pkt
    return ({ recv with numSlowRecvEd := recv.numSlowRecvEd + 1 }, true)
  else if pkt.seqNum = recv.seqFst then .ok (recv, false)
  else do
    let recv ← if pkt.seqNum = 0 then do
        let (recv, _) ← recverStateUpdateBcdMetadata recv pkt.metadata
        if recv.fileMetadata.start < 0 then throw .fileStartKnown
        pure recv
      else pure recv
    return ({ (recv.seekPatch pkt.seqNum).fwritePatch pkt.payload with
      numSlowRecvEd := recv.numSlowRecvEd + 1 }, true)

/-- The completion test of the control channel. -/
def patchDataTest (recv : RecverState) : RecverState × HandlerOutput :=
  if recverStateHasGottenAllData recv then
    (recverStateFinishRecv recv, ⟨[.allDone recv.bcdId], [.seqAll recv.bcdId]⟩)
  else (recv, HandlerOutput.none)

/-- The handler of `MSG_PATCH_DATA`. -/
def msgPatchData (recv : RecverState) (pkt : DataPacket) :
    Except Assertion (RecverState × HandlerOutput) := do
  let (recv, counted) ← patchDataCount recv pkt
  return if counted then patchDataTest recv else (recv, HandlerOutput.none)

/-- A counted patch is written to `fd_patch_p` or to the tail buffer. -/
def processPatch (recv : RecverState) (pkt : DataPacket) : Except Assertion (RecverState × HandlerOutput) :=
  match msgPatchData recv pkt with
  | .error assertion => .error assertion
  | .ok (next, output) =>
      if recv.fdPatchP = none ∧ recv.numSlowRecvEd < next.numSlowRecvEd then .error .streamOpen
      else .ok (next, output)

theorem processPatch_ok {recv next : RecverState} {pkt : DataPacket} {output : HandlerOutput}
    (processed : processPatch recv pkt = .ok (next, output)) :
    msgPatchData recv pkt = .ok (next, output) ∧
      ¬(recv.fdPatchP = none ∧ recv.numSlowRecvEd < next.numSlowRecvEd) := by
  unfold processPatch at processed
  cases outcome : msgPatchData recv pkt with
  | error assertion => simp [outcome] at processed
  | ok outcome =>
      simp only [outcome] at processed
      split_ifs at processed with used
      obtain ⟨rfl, rfl⟩ := Prod.mk.inj (Except.ok.inj processed)
      exact ⟨rfl, used⟩

/-- The handler of `MSG_FAST_DONE` stops the fast path and requests the rest of the round. -/
def msgFastDone (recv : RecverState) : RecverState × Option PatchTuple :=
  if recv.isFinished then (recv, none)
  else
    let recv := recverStateStopFathPath recv
    let stt := u32 ((recv.seqLst : Int) + 1)
    if recv.isSeqZero then
      if stt % recv.seqMax ≠ recv.seqFst then (recv, some ⟨stt, recv.seqFst⟩) else (recv, none)
    else (recv, some ⟨stt, seq2WardTheEnd⟩)

/-- The handler of the `n2c` pipe. The flag `seqZeroNotify` is the global of that name. -/
def n2cHandler (seqZeroNotify : Bool) (recv : RecverState) : N2cMsg → Except Assertion HandlerOutput
  | .seqFirst bcdId seq =>
      .ok ⟨[.firstSeq bcdId seq], if recv.seqMax = 1 then [.seqAll bcdId] else []⟩
  | .seqZero bcdId =>
      if recv.seqMax = 1 then .error .seqMaxNotOne
      else .ok ⟨[], if seqZeroNotify then [.seqZero bcdId] else []⟩
  | .seqAll bcdId =>
      if recv.seqMax = 1 then .error .seqMaxNotOne
      else .ok ⟨[.allDone bcdId], [.seqAll bcdId]⟩
  | .seqJump bcdId pt => .ok ⟨[.patchReq bcdId pt], []⟩

end RepublicAgent
