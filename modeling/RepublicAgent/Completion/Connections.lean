/-
This file joins the sender of one push with all its receivers over connections that keep the order of their
messages. Each step is one handler of a message or one step of a thread.
-/

import RepublicAgent.Receiver.Agent
import RepublicAgent.Receiver.Transfer
import RepublicAgent.Sender.FastDone

namespace RepublicAgent
open Execution MachineInteger

/-- A push of the data of a broadcast. -/
structure FilePush extends Push where
  broadcast : Broadcast
  size : dataSize = broadcast.data.length
  payload : dataPayloadLen = broadcast.payloadLen

/-- A receiver with the two directions of its connection to the sender. The list `toMaster` holds its send queue
and what is under way, and `pending` holds the requested patches that the sender has not read from its file. A
fault ends the receiver, and the messages under way remain. -/
structure Link where
  recv : Option RecverState
  halted : Bool
  n2c : List N2cMsg
  toMaster : List ToMasterMsg
  pending : List Nat
  toReceiver : List ToReceiverMsg
deriving DecidableEq, Repr

def Link.initial : Link := ⟨none, false, [], [], [], []⟩

/-- The counter `nAllDone` is the field `n_all_done` of the multicast, and `seqAll` counts the messages
`MSG_C_SEND2I_SEQ_ALL`. -/
structure Completion where
  finish : FinishSender
  nAllDone : Nat
  seqAll : Nat
  links : Nat → Link

def FilePush.start (push : FilePush) : Completion := ⟨push.finishing, 0, 0, fun _ => Link.initial⟩

/-- The sender takes a message of a receiver with `takeMaster`, whose sender state may enter the skip list at any
place. The position of a patch in the file is a `uint32_t`, so its bytes are left open. -/
inductive CompletionEvent where
  | sender (event : FinishEvent)
  | sendPatch (addr index : Nat) (payload : List UInt8)
  | packet (addr seq : Nat) (opens : Bool)
  | takeN2c (addr : Nat)
  | takeReceiver (addr : Nat)
  | takeMaster (addr place : Nat)
deriving DecidableEq, Repr

section Receivers

/-- A fault of a receiver is no fault of the sender. -/
def Link.survive (link : Link) (outcome : Except Fault Link) : Link :=
  if link.halted then link
  else match outcome with
    | .error _ => { link with halted := true }
    | .ok next => next

/-- The thread processes a data packet of the broadcast. -/
def Link.process (b : Broadcast) (link : Link) (recv : RecverState) (seq : Nat) : Except Fault Link :=
  match processPacket recv (b.packet (seq % b.seqMax)) with
  | .error assertion => .error assertion.fault
  | .ok (next, msgs) => .ok { link with recv := some next, n2c := link.n2c ++ msgs }

/-- The first packet creates the state when its file can be opened. -/
def Link.packet (b : Broadcast) (link : Link) (seq : Nat) (opens : Bool) : Except Fault Link :=
  match link.recv with
  | some recv => link.process b recv seq
  | none =>
      if opens then link.process b (recverStateStartFathPath (createRecverState b.bcdId b.payloadLen)) seq
      else .ok link

/-- The control thread of the receiver handles the next message of the `n2c` pipe. -/
def Link.takeN2c (link : Link) : Except Fault Link :=
  match link.n2c, link.recv with
  | [], _ => .ok link
  | _ :: _, none => .error .badPointer
  | msg :: msgs, some recv =>
      match n2cHandler false recv msg with
      | .error assertion => .error assertion.fault
      | .ok output => .ok { link with n2c := msgs, toMaster := link.toMaster ++ output.toMaster }

/-- The control thread of the receiver handles the next message of the sender. -/
def Link.takeReceiver (link : Link) : Except Fault Link :=
  match link.toReceiver, link.recv with
  | [], _ => .ok link
  | _ :: _, none => .error .badPointer
  | .patchData pkt :: msgs, some recv =>
      match processPatch recv pkt with
      | .error assertion => .error assertion.fault
      | .ok (next, output) => .ok { link with
          recv := some next
          toReceiver := msgs
          toMaster := link.toMaster ++ output.toMaster }
  | .fastDone bcdId :: msgs, some recv =>
      let outcome := msgFastDone recv
      .ok { link with
        recv := some outcome.1
        toReceiver := msgs
        toMaster := link.toMaster ++ outcome.2.toList.map (ToMasterMsg.patchReq bcdId) }

end Receivers

section Sender

def Completion.setLink (state : Completion) (addr : Nat) (link : Link) : Completion :=
  { state with links := Function.update state.links addr link }

/-- The handler of `MSG_FIRST_SEQ`. Data of one packet is done with its first packet. -/
def Completion.firstSeq (state : Completion) (addr seqFirst place : Nat) : Except Fault Completion :=
  match state.finish.firstSeq addr seqFirst place with
  | .error fault => .error fault
  | .ok finish =>
      let multi := state.finish.side.multi
      if multi.seqMax = 1 then .ok { state with
        finish := finish
        seqAll := if state.nAllDone + 1 = multi.nInit then state.seqAll + 1 else state.seqAll
        nAllDone := u16 ((state.nAllDone : Int) + 1) }
      else .ok { state with finish := finish }

/-- The handler of `MSG_ALL_DONE`. -/
def Completion.allDone (state : Completion) (addr : Nat) : Except Fault Completion :=
  match state.finish.allDone addr with
  | .error fault => .error fault
  | .ok finish =>
      let nAllDone := u16 ((state.nAllDone : Int) + 1)
      .ok { state with
        finish := finish
        nAllDone := nAllDone
        seqAll := if nAllDone = state.finish.side.multi.nInit then state.seqAll + 1 else state.seqAll }

/-- The handler of `MSG_PATCH_REQ`. -/
def Completion.patchReq (state : Completion) (addr : Nat) (pt : PatchTuple) : Except Fault Completion :=
  match state.finish.side.multi.senderAddrHash addr with
  | none => .error .assertion
  | some sender =>
      let link := state.links addr
      let parts := msgPatchReq state.finish.side.multi.seqMax sender.seqEnd pt
      .ok (state.setLink addr { link with pending := link.pending ++ parts.flatMap PatchTuple.seqs })

/-- The control thread of the sender handles the next message of a receiver. -/
def Completion.takeMaster (state : Completion) (addr place : Nat) : Except Fault Completion :=
  let link := state.links addr
  match link.toMaster with
  | [] => .ok state
  | msg :: msgs =>
      let taken := state.setLink addr { link with toMaster := msgs }
      match msg with
      | .firstSeq _ seqFirst => taken.firstSeq addr seqFirst place
      | .allDone _ => taken.allDone addr
      | .patchReq _ pt => taken.patchReq addr pt

/-- The sender reads a requested packet of its file into the send queue of the receiver. -/
def Completion.sendPatch (b : Broadcast) (state : Completion) (addr index : Nat) (payload : List UInt8) :
    Completion :=
  let link := state.links addr
  match link.pending[index]? with
  | none => state
  | some seq => state.setLink addr { link with
      pending := link.pending.eraseIdx index
      toReceiver := link.toReceiver ++ [.patchData { b.packet seq with payload := payload }] }

/-- The steps of the threads of the sender that handle no message of a receiver. -/
def FinishEvent.isThread : FinishEvent → Bool
  | .push .. | .firstSeq .. | .allDone _ => false
  | _ => true

/-- A command puts `MSG_FAST_DONE` into the send queue of its receiver. -/
def Completion.sendFastDone (b : Broadcast) (state : Completion) : Completion :=
  match state.finish.ringCmd.getLast? with
  | none => state
  | some ref =>
      let link := state.links ref.addr
      state.setLink ref.addr { link with toReceiver := link.toReceiver ++ [.fastDone b.bcdId] }

/-- A thread of the sender takes a step. The controller approves the push once. -/
def Completion.thread (config : AgentConfig) (push : FilePush) (state : Completion) (event : FinishEvent) :
    Except Fault Completion :=
  if event.isThread = true ∧ event.Permitted push.toPush state.finish then
    let sent := if event = .command then state.sendFastDone push.broadcast else state
    match finishStep config state.finish event with
    | .error fault => .error fault
    | .ok finish => .ok { sent with finish := finish }
  else .ok state

/-- Only the receivers of the push take part. -/
def completionStep (config : AgentConfig) (push : FilePush) (state : Completion) :
    CompletionEvent → Except Fault Completion
  | .sender event => state.thread config push event
  | .sendPatch addr index payload => .ok (state.sendPatch push.broadcast addr index payload)
  | .packet addr seq opens =>
      if addr ∈ push.slaves.map Slave.addr then
        let link := state.links addr
        .ok (state.setLink addr (link.survive (link.packet push.broadcast seq opens)))
      else .ok state
  | .takeN2c addr =>
      let link := state.links addr
      .ok (state.setLink addr (link.survive link.takeN2c))
  | .takeReceiver addr =>
      let link := state.links addr
      .ok (state.setLink addr (link.survive link.takeReceiver))
  | .takeMaster addr place => state.takeMaster addr place

end Sender

end RepublicAgent
