/-
This file models how the service thread of a receiver host answers the executors of one application that read
broadcasts of a master on another host.
-/

import RepublicAgent.Receiver.AgentSteps

namespace RepublicAgent

/-- The code of a reply tells the executor to read the file or to read in another way. -/
inductive ReplyCode where
  | success
  | alter
deriving DecidableEq, Repr

/-- The fields of `MSG_READ_RPL`. The fields of a file are zero in a reply without one. -/
structure MsgReadRpl where
  bcdId : BcdID
  code : ReplyCode
  start : Int
  jump : Int
  fileSize : Int
deriving DecidableEq, Repr

def MsgReadRpl.success (recv : RecverState) : MsgReadRpl :=
  ⟨recv.bcdId, .success, recv.fileMetadata.start, recv.fileMetadata.jump, recv.dataSize⟩

def MsgReadRpl.alter (bcdId : BcdID) : MsgReadRpl := ⟨bcdId, .alter, 0, 0, 0⟩

/-- An executor sends requests and receives replies. -/
inductive ReadMsg where
  | request (bcdId : BcdID)
  | reply (rpl : MsgReadRpl)
deriving DecidableEq, Repr

/-- The master of the application runs on another host. -/
structure ReadConfig where
  receiver : ReceiverConfig
  appId : AppID
  masterAddr : Nat
  remote : receiver.hostAddr ≠ masterAddr

/-- Each executor has its connection state and the messages that it exchanged with the thread so far. -/
structure ReadService where
  agent : ReceiverAgent
  udsHash : Finset Nat
  executorId : Nat → Int32
  reading : Nat → Bool
  bcdId : Nat → BcdID
  log : Nat → List ReadMsg

def ReadService.initial : ReadService where
  agent := ReceiverAgent.initial
  udsHash := ∅
  executorId _ := 0
  reading _ := false
  bcdId _ := ⟨0, 0, 0⟩
  log _ := []

/-- A new executor of the application registers. -/
def ReadService.intReq (config : ReadConfig) (service : ReadService) (id : Nat) (executorId : Int32) :
    ReadService :=
  { service with
    agent := service.agent.intReq config.receiver config.appId ⟨executorId, config.masterAddr⟩
    udsHash := insert id service.udsHash
    executorId := Function.update service.executorId id executorId }

/-- The reply is queued for the executor, which is not reading any more. -/
def ReadService.reply (service : ReadService) (id : Nat) (rpl : MsgReadRpl) : ReadService :=
  { service with
    reading := Function.update service.reading id false
    log := Function.update service.log id (service.log id ++ [.reply rpl]) }

/-- The state of the connection says what the executor reads. -/
def ReadService.markReading (service : ReadService) (id : Nat) (bcdId : BcdID) : ReadService :=
  { service with
    reading := Function.update service.reading id true
    bcdId := Function.update service.bcdId id bcdId
    log := Function.update service.log id (service.log id ++ [.request bcdId]) }

/-- An executor waits when its last message is a request. -/
def Waits (log : List ReadMsg) : Bool :=
  match log.getLast? with
  | some (.request _) => true
  | _ => false

/-- The handler of `MSG_READ_REQ` of an executor that does not wait. A received broadcast is answered at once,
and an unknown one is pulled from the master. -/
def ReadService.readReq (config : ReadConfig) (service : ReadService) (id : Nat) (dataId : UInt64) :
    Except Fault ReadService :=
  if id ∈ service.udsHash ∧ Waits (service.log id) = false then
    if service.executorId id = masterExecutorId then .error .assertion
    else
      let bcdId : BcdID := ⟨config.appId.msb, config.appId.lsb, dataId⟩
      let marked := service.markReading id bcdId
      match service.agent.hashRecver bcdId with
      | some entry =>
          if entry.recv.isFinished ∨ (entry.recv.isSeqZero ∧ config.receiver.seqZeroNotify) then
            .ok (marked.reply id (.success entry.recv))
          else .ok marked
      | none => .ok { marked with
          agent := { marked.agent with
            i2c := marked.agent.i2c ++ [(bcdId, ⟨service.executorId id, config.masterAddr⟩)] } }
  else .ok service

/-- The executor reads the broadcast of the message. Two broadcasts have the same receiver state only if they are
equal. -/
def ReadService.Reads (service : ReadService) (id : Nat) (bcdId : BcdID) : Prop :=
  service.reading id = true ∧ service.bcdId id = bcdId

instance (service : ReadService) (id : Nat) (bcdId : BcdID) : Decidable (service.Reads id bcdId) :=
  inferInstanceAs (Decidable (_ ∧ _))

/-- The loop over `uds_hash` visits every executor once and answers those that read the broadcast. -/
def ReadService.notify (service : ReadService) (bcdId : BcdID) (rpl : MsgReadRpl) : ReadService :=
  { service with
    reading := fun id => if id ∈ service.udsHash ∧ service.Reads id bcdId then false else service.reading id
    log := fun id => if id ∈ service.udsHash ∧ service.Reads id bcdId then service.log id ++ [.reply rpl]
      else service.log id }

/-- The thread handles the next message of the `c2i` pipe. -/
def ReadService.takeC2i (service : ReadService) : Except Fault ReadService :=
  match service.agent.c2i with
  | [] => .ok service
  | msg :: msgs =>
      let taken := { service with agent := { service.agent with c2i := msgs } }
      match msg with
      | .pullReject bcdId =>
          if bcdId.appId ∈ service.agent.hashApp then .ok (taken.notify bcdId (.alter bcdId))
          else .error .assertion
      | .report (.seqAll bcdId) | .report (.seqZero bcdId) =>
          match service.agent.hashRecver bcdId with
          | none => .error .badPointer
          | some entry =>
              if bcdId.appId ∈ service.agent.hashApp then .ok (taken.notify bcdId (.success entry.recv))
              else .error .assertion

/-- The other threads act between the messages of the service thread. -/
inductive ReadEvent where
  | intReq (id : Nat) (executorId : Int32)
  | readReq (id : Nat) (dataId : UInt64)
  | takeC2i
  | thread (event : ReceiverEvent)
deriving DecidableEq, Repr

/-- The service thread alone sends these messages and takes those of the `c2i` pipe. -/
def ReceiverEvent.ofService : ReceiverEvent → Bool
  | .intReq _ _ => true
  | .i2cPull _ _ => true
  | .takeC2i => true
  | _ => false

def readStep (config : ReadConfig) (service : ReadService) : ReadEvent → Except Fault ReadService
  | .intReq id executorId => .ok (service.intReq config id executorId)
  | .readReq id dataId => service.readReq config id dataId
  | .takeC2i => service.takeC2i
  | .thread event =>
      if event.ofService then .ok service
      else
        match receiverStep config.receiver service.agent event with
        | .error fault => .error fault
        | .ok agent => .ok { service with agent := agent }

end RepublicAgent
