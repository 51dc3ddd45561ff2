/-
This file models a receiver agent with its connections to the masters. Each step is one part of the treatment
of a data packet, one handler of the control thread or one message of the service thread to it.
-/

import RepublicAgent.Library.Execution
import RepublicAgent.Receiver.Broadcast
import RepublicAgent.Receiver.SlowPath

namespace RepublicAgent
open MachineInteger

/-- These messages are queued for the agent of a master. -/
inductive QueuedMsg where
  | pull (bcdId : BcdID)
  | report (msg : ToMasterMsg)
deriving DecidableEq, Repr

/-- The `c2i` pipe carries the reports and the rejected pulls. -/
inductive ServiceMsg where
  | report (msg : C2iMsg)
  | pullReject (bcdId : BcdID)
deriving DecidableEq, Repr

/-- The connection to a master. A pointer to it is its key, and no two connections share one. -/
structure FdState where
  key : Nat
  ipAddress : Nat
  sendQueue : List QueuedMsg
deriving DecidableEq, Repr

/-- The state of a broadcast refers to the connection to its master. -/
structure RecverEntry where
  recv : RecverState
  fdsP : Option Nat
deriving DecidableEq, Repr

/-- The data channel thread keeps the connection that it found until it assigns it. -/
inductive PacketPc where
  | idle
  | assign (bcdId : BcdID) (key seq : Nat)
  | process (bcdId : BcdID) (seq : Nat)
deriving DecidableEq, Repr

/-- The packets of each broadcast are cut with the payload length of the agents. -/
structure ReceiverConfig where
  hostAddr : Nat
  seqZeroNotify : Bool
  dataPayloadLen : Nat
  broadcast : BcdID → Broadcast
  named : ∀ bcdId, (broadcast bcdId).bcdId = bcdId
  cut : ∀ bcdId, (broadcast bcdId).payloadLen = dataPayloadLen

structure ReceiverAgent where
  hashApp : Finset AppID
  rsockList : List FdState
  nextKey : Nat
  hashRecver : BcdID → Option RecverEntry
  pc : PacketPc
  n2c : List N2cMsg
  i2c : List (BcdID × MsgIntQ)
  c2i : List ServiceMsg

def ReceiverAgent.initial : ReceiverAgent where
  hashApp := ∅
  rsockList := []
  nextKey := 0
  hashRecver _ := none
  pc := .idle
  n2c := []
  i2c := []
  c2i := []

def ReceiverAgent.Live (agent : ReceiverAgent) (key : Nat) : Prop := ∃ fds ∈ agent.rsockList, fds.key = key

instance (agent : ReceiverAgent) (key : Nat) : Decidable (agent.Live key) :=
  inferInstanceAs (Decidable (∃ fds ∈ agent.rsockList, _))

def ReceiverAgent.findSocket (agent : ReceiverAgent) (ipAddress : Nat) : Option FdState :=
  agent.rsockList.find? fun fds => fds.ipAddress = ipAddress

/-- A master gets a connection when it has none. -/
def ReceiverAgent.connectMaster (agent : ReceiverAgent) (ipAddress : Nat) : ReceiverAgent :=
  match agent.findSocket ipAddress with
  | some _ => agent
  | none => { agent with
      rsockList := agent.rsockList ++ [⟨agent.nextKey, ipAddress, []⟩]
      nextKey := agent.nextKey + 1 }

/-- The handler of `MSG_INT_REQ` connects a slave to a master on another host. -/
def ReceiverAgent.intReq (config : ReceiverConfig) (agent : ReceiverAgent) (appId : AppID) (msgIntQ : MsgIntQ) :
    ReceiverAgent :=
  let connected := if msgIntQ.executorId ≠ masterExecutorId ∧ config.hostAddr ≠ msgIntQ.masterAddr then
      agent.connectMaster msgIntQ.masterAddr
    else agent
  { connected with hashApp := insert appId connected.hashApp }

/-- The function `insertMsg2SendQ` follows the pointer to the connection. -/
def ReceiverAgent.insertMsg (agent : ReceiverAgent) (fdsP : Option Nat) (msg : QueuedMsg) :
    Except Fault ReceiverAgent :=
  match fdsP with
  | none => .error .badPointer
  | some key =>
      if agent.Live key then
        .ok { agent with
          rsockList := agent.rsockList.map fun fds =>
            if fds.key = key then { fds with sendQueue := fds.sendQueue ++ [msg] } else fds }
      else .error .badPointer

def ReceiverAgent.insertMsgs (agent : ReceiverAgent) (fdsP : Option Nat) :
    List QueuedMsg → Except Fault ReceiverAgent
  | [] => .ok agent
  | msg :: msgs =>
      match agent.insertMsg fdsP msg with
      | .error fault => .error fault
      | .ok next => next.insertMsgs fdsP msgs

def ReceiverAgent.store (agent : ReceiverAgent) (bcdId : BcdID) (entry : RecverEntry) : ReceiverAgent :=
  { agent with hashRecver := Function.update agent.hashRecver bcdId (some entry) }

/-- The first packet of a known application creates the state of its broadcast when the file can be opened
and the source of the packet has a connection. -/
def ReceiverAgent.packet (config : ReceiverConfig) (agent : ReceiverAgent) (sourceIp : Nat) (bcdId : BcdID)
    (seq : Nat) (opens : Bool) : ReceiverAgent :=
  match agent.pc, agent.hashRecver bcdId with
  | .idle, some _ => { agent with pc := .process bcdId seq }
  | .idle, none =>
      match agent.findSocket sourceIp with
      | none => agent
      | some fds =>
          if bcdId.appId ∈ agent.hashApp ∧ opens then
            { agent.store bcdId ⟨createRecverState bcdId config.dataPayloadLen, none⟩ with
              pc := .assign bcdId fds.key seq }
          else agent
  | _, _ => agent

/-- The thread assigns the connection and enables the fast path, or it processes the packet. -/
def ReceiverAgent.advance (config : ReceiverConfig) (agent : ReceiverAgent) : Except Fault ReceiverAgent :=
  match agent.pc with
  | .idle => .ok agent
  | .assign bcdId key seq =>
      match agent.hashRecver bcdId with
      | none => .error .badPointer
      | some entry => .ok { agent.store bcdId ⟨recverStateStartFathPath entry.recv, some key⟩ with
          pc := .process bcdId seq }
  | .process bcdId seq =>
      match agent.hashRecver bcdId with
      | none => .error .badPointer
      | some entry =>
          if entry.fdsP = none then .ok { agent with pc := .idle }
          else
            let b := config.broadcast bcdId
            match processPacket entry.recv (b.packet (seq % b.seqMax)) with
            | .error assertion => .error assertion.fault
            | .ok (recv, msgs) => .ok { agent.store bcdId { entry with recv := recv } with
                pc := .idle
                n2c := agent.n2c ++ msgs }

/-- What a handler reports goes to the service thread and to the master of the broadcast. -/
def ReceiverAgent.output (agent : ReceiverAgent) (fdsP : Option Nat) (output : HandlerOutput) :
    Except Fault ReceiverAgent :=
  { agent with c2i := agent.c2i ++ output.toService.map ServiceMsg.report }.insertMsgs fdsP
    (output.toMaster.map QueuedMsg.report)

/-- The control thread handles the next message of the `n2c` pipe. -/
def ReceiverAgent.takeN2c (config : ReceiverConfig) (agent : ReceiverAgent) : Except Fault ReceiverAgent :=
  match agent.n2c with
  | [] => .ok agent
  | msg :: msgs =>
      match agent.hashRecver msg.bcdId with
      | none => .error .badPointer
      | some entry =>
          match n2cHandler config.seqZeroNotify entry.recv msg with
          | .error assertion => .error assertion.fault
          | .ok output => { agent with n2c := msgs }.output entry.fdsP output

/-- The control thread asks the master for the broadcast of the next `MSG_I2C_PULL`. -/
def ReceiverAgent.takeI2c (agent : ReceiverAgent) : Except Fault ReceiverAgent :=
  match agent.i2c with
  | [] => .ok agent
  | (bcdId, msgIntQ) :: pulls =>
      let connected := { agent with i2c := pulls }.connectMaster msgIntQ.masterAddr
      connected.insertMsg ((connected.findSocket msgIntQ.masterAddr).map FdState.key) (.pull bcdId)

/-- The handler of `MSG_PATCH_DATA` on a connection. -/
def ReceiverAgent.patchData (config : ReceiverConfig) (agent : ReceiverAgent) (key : Nat) (bcdId : BcdID)
    (seq : Nat) : Except Fault ReceiverAgent :=
  if agent.Live key then
    match agent.hashRecver bcdId with
    | none => .error .badPointer
    | some entry =>
        let b := config.broadcast bcdId
        match processPatch entry.recv (b.packet (seq % b.seqMax)) with
        | .error assertion => .error assertion.fault
        | .ok (recv, output) => (agent.store bcdId { entry with recv := recv }).output entry.fdsP output
  else .ok agent

/-- The handler of `MSG_FAST_DONE` answers on the connection of the message. -/
def ReceiverAgent.fastDone (agent : ReceiverAgent) (key : Nat) (bcdId : BcdID) : Except Fault ReceiverAgent :=
  if agent.Live key then
    match agent.hashRecver bcdId with
    | none => .error .badPointer
    | some entry =>
        let outcome := msgFastDone entry.recv
        (agent.store bcdId { entry with recv := outcome.1 }).insertMsgs (some key)
          (outcome.2.toList.map fun pt => QueuedMsg.report (.patchReq bcdId pt))
  else .ok agent

/-- The handler of `MSG_PULL_REJECT` passes the rejection on. -/
def ReceiverAgent.pullReject (agent : ReceiverAgent) (key : Nat) (bcdId : BcdID) : ReceiverAgent :=
  if agent.Live key then { agent with c2i := agent.c2i ++ [.pullReject bcdId] } else agent

/-- The close path removes the connection from the list and visits no receiver state. -/
def ReceiverAgent.close (agent : ReceiverAgent) (key : Nat) : ReceiverAgent :=
  { agent with rsockList := agent.rsockList.filter fun fds => fds.key ≠ key }

inductive ReceiverEvent where
  | intReq (appId : AppID) (msgIntQ : MsgIntQ)
  | i2cPull (bcdId : BcdID) (msgIntQ : MsgIntQ)
  | packet (sourceIp : Nat) (bcdId : BcdID) (seq : Nat) (opens : Bool)
  | advance
  | takeN2c
  | takeI2c
  | takeC2i
  | patchData (key : Nat) (bcdId : BcdID) (seq : Nat)
  | fastDone (key : Nat) (bcdId : BcdID)
  | pullReject (key : Nat) (bcdId : BcdID)
  | close (key : Nat)
deriving DecidableEq, Repr

def receiverStep (config : ReceiverConfig) (agent : ReceiverAgent) : ReceiverEvent → Except Fault ReceiverAgent
  | .intReq appId msgIntQ => .ok (agent.intReq config appId msgIntQ)
  | .i2cPull bcdId msgIntQ => .ok { agent with i2c := agent.i2c ++ [(bcdId, msgIntQ)] }
  | .packet sourceIp bcdId seq opens => .ok (agent.packet config sourceIp bcdId seq opens)
  | .advance => agent.advance config
  | .takeN2c => agent.takeN2c config
  | .takeI2c => agent.takeI2c
  | .takeC2i => .ok { agent with c2i := agent.c2i.tail }
  | .patchData key bcdId seq => agent.patchData config key bcdId seq
  | .fastDone key bcdId => agent.fastDone key bcdId
  | .pullReject key bcdId => .ok (agent.pullReject key bcdId)
  | .close key => .ok (agent.close key)

end RepublicAgent
