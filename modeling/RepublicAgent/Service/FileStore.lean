/-
This file models how the agent of a sender opens and closes the files of its multicasts and how it reads them
for the data channel and for patches.
-/

import RepublicAgent.Sender.PatchRing
import RepublicAgent.Sender.SenderAgent
import RepublicAgent.Service.Registry

namespace RepublicAgent
open MachineInteger

/-- An element of a patch ring holds the rest of its tuple. -/
structure PatchElement where
  bcdId : BcdID
  pt : PatchTuple
deriving DecidableEq, Repr

/-- The connection of a receiver agent has its patch ring, with the next element first. -/
structure SendSocketState where
  addr : Nat
  ringPatchTuple : List PatchElement
deriving DecidableEq, Repr

/-- The executors are known to the registry. The agent may also receive broadcasts of other hosts, and it
counts the deletions of both kinds. -/
structure FileAgent where
  registry : Registry
  msgIntQ : Nat → MsgIntQ
  recvDeleteCounter : BcdID → Option Nat
  sender : SenderAgent
  ssockCount : Nat
  ssockList : Nat → Option SendSocketState

def FileAgent.initial : FileAgent where
  registry := Registry.initial
  msgIntQ _ := ⟨0, 0⟩
  recvDeleteCounter _ := none
  sender := SenderAgent.initial
  ssockCount := 0
  ssockList _ := none

/-- Both files are closed by `closeFile`. -/
def MulticastState.closeFiles (multi : MulticastState) : MulticastState :=
  { multi with fd := false, fdPatch := false }

/-- The messages of a connection are handled while it is open. -/
def Registry.isOpen (registry : Registry) (id : Nat) : Bool :=
  (registry.lsockList id).any fun sock => !sock.isTrashed

/-- The state of an application that is found in `hashApp`. -/
def Registry.lookup (registry : Registry) (appId : AppID) : Option (Nat × AppState) :=
  (registry.hashApp appId).bind fun ptr => (registry.apps[ptr]?).map fun app => (ptr, app)

/-- The broadcasts of the application that loses its last executor. -/
def Registry.orphaned (registry : Registry) (id : Nat) : Finset BcdID :=
  match registry.lsockList id with
  | none => ∅
  | some sock =>
      if sock.isTrashed then
        match sock.app.bind fun ptr => registry.apps[ptr]? with
        | none => ∅
        | some app => if app.udsHash.erase id = ∅ then app.bcdSenderHash else ∅
      else ∅

/-- The files of all these broadcasts are closed. -/
def PathState.closeAll (path : PathState) (bcdIds : Finset BcdID) : PathState :=
  { path with
    hashMulticast := fun bcdId =>
      if bcdId ∈ bcdIds then (path.hashMulticast bcdId).map MulticastState.closeFiles
      else path.hashMulticast bcdId }

def FileAgent.withPath (agent : FileAgent) (path : PathState) : FileAgent :=
  { agent with sender := { agent.sender with path := path } }

/-- An executor connects, and the memory of its state holds arbitrary fields. -/
def FileAgent.connect (agent : FileAgent) (leftover : Option Nat) (garbage : MsgIntQ) : FileAgent :=
  { agent with
    registry := agent.registry.createLocalSocketState leftover
    msgIntQ := Function.update agent.msgIntQ agent.registry.localSocketID garbage }

def FileAgent.intReq (agent : FileAgent) (id : Nat) (appId : AppID) (statsOpens : Bool) (msgIntQ : MsgIntQ) :
    Except Fault FileAgent :=
  if agent.registry.isOpen id then
    match agent.registry.intReq id appId statsOpens with
    | .error fault => .error fault
    | .ok registry => .ok { agent with
        registry := registry
        msgIntQ := Function.update agent.msgIntQ id msgIntQ }
  else .ok agent

/-- The last executor closes the files of all broadcasts of its application. -/
def FileAgent.deleteUDSState (agent : FileAgent) (id : Nat) : Except Fault FileAgent :=
  match agent.registry.deleteUDSState id with
  | .error fault => .error fault
  | .ok registry =>
      let path := agent.sender.path.closeAll (agent.registry.orphaned id)
      .ok { agent.withPath path with registry := registry }

/-- The handler of `MSG_WRT_REQ` creates the multicast and notes it in its application. -/
def FileAgent.wrtReq (agent : FileAgent) (dataPayloadLen id : Nat) (bcdId : BcdID) (dataSize : Nat) :
    Except Fault FileAgent :=
  if agent.registry.isOpen id then
    if (agent.msgIntQ id).executorId ≠ masterExecutorId then .error .assertion
    else
      match agent.registry.lookup bcdId.appId with
      | none => .error .assertion
      | some (ptr, app) =>
          match agent.sender.path.wrtReq bcdId dataSize dataPayloadLen with
          | .error fault => .error fault
          | .ok path =>
              let noted := { app with bcdSenderHash := insert bcdId app.bcdSenderHash }
              .ok { agent.withPath path with
                registry := { agent.registry with apps := agent.registry.apps.set ptr noted } }
  else .ok agent

def FileAgent.pshReq (agent : FileAgent) (id : Nat) (bcdId : BcdID) (slaves : List Slave) (now : Timeval) :
    Except Fault FileAgent :=
  if agent.registry.isOpen id then
    if (agent.msgIntQ id).executorId ≠ masterExecutorId then .error .assertion
    else
      match agent.sender.path.pshReq bcdId slaves now with
      | .error fault => .error fault
      | .ok path => .ok (agent.withPath path)
  else .ok agent

/-- The master and the executors on its host delete the multicast, the others delete what was received. -/
def FileAgent.OfMaster (agent : FileAgent) (hostAddr id : Nat) : Prop :=
  (agent.msgIntQ id).executorId = masterExecutorId ∨
    ((agent.msgIntQ id).executorId ≠ masterExecutorId ∧ hostAddr = (agent.msgIntQ id).masterAddr)

instance (agent : FileAgent) (hostAddr id : Nat) : Decidable (agent.OfMaster hostAddr id) :=
  inferInstanceAs (Decidable (_ ∨ _))

/-- A deletion is counted. The files are closed when the counter reaches the number of executors. -/
def MulticastState.countDelete (multi : MulticastState) (executors : Nat) : MulticastState :=
  let counted := { multi with deleteCounter := u16 ((multi.deleteCounter : Int) + 1) }
  if executors ≤ counted.deleteCounter then counted.closeFiles else counted

/-- The handler of `MSG_DEL_REQ`. -/
def FileAgent.delReq (agent : FileAgent) (hostAddr id : Nat) (bcdId : BcdID) : Except Fault FileAgent :=
  if agent.registry.isOpen id then
    match agent.registry.lookup bcdId.appId with
    | none => .error .assertion
    | some (_, app) =>
        match agent.sender.path.hashMulticast bcdId, agent.recvDeleteCounter bcdId with
        | none, none => .ok agent
        | multi, recv =>
            let master := (agent.msgIntQ id).executorId = masterExecutorId
            if ¬ ((master ∧ multi.isSome) ∨ (¬ master ∧ recv.isSome) ∨
                (¬ master ∧ hostAddr = (agent.msgIntQ id).masterAddr)) then .error .assertion
            else if agent.OfMaster hostAddr id then
              match multi with
              | none => .error .badPointer
              | some multi =>
                  .ok (agent.withPath (agent.sender.path.store bcdId (multi.countDelete app.udsHash.card)))
            else
              match recv with
              | none => .error .badPointer
              | some counter => .ok { agent with
                  recvDeleteCounter :=
                    Function.update agent.recvDeleteCounter bcdId (some (u16 ((counter : Int) + 1))) }
  else .ok agent

def FileAgent.createSendSocketState (agent : FileAgent) (addr : Nat) : FileAgent :=
  { agent with
    ssockCount := agent.ssockCount + 1
    ssockList := Function.update agent.ssockList agent.ssockCount (some ⟨addr, []⟩) }

def FileAgent.withRing (agent : FileAgent) (conn : Nat) (ssock : SendSocketState) (ring : List PatchElement) :
    FileAgent :=
  { agent with
    ssockList := Function.update agent.ssockList conn (some { ssock with ringPatchTuple := ring }) }

/-- The handler of `MSG_PATCH_REQ` appends the tuples of the request to the ring of its connection. -/
def FileAgent.patchReq (agent : FileAgent) (conn : Nat) (bcdId : BcdID) (pt : PatchTuple) :
    Except Fault FileAgent :=
  match agent.ssockList conn, agent.sender.path.hashMulticast bcdId with
  | some ssock, some multi =>
      match multi.senderAddrHash ssock.addr with
      | none => .error .assertion
      | some sender =>
          let elements := (msgPatchReq multi.seqMax sender.seqEnd pt).map fun tuple => ⟨bcdId, tuple⟩
          .ok (agent.withRing conn ssock (ssock.ringPatchTuple ++ elements))
  | _, _ => .ok agent

/-- One turn of `processPatchTuple` reads the next element until its end or until the send queue has taken
`inserted` messages. -/
def FileAgent.processPatchTuple (agent : FileAgent) (conn inserted : Nat) : Except Fault FileAgent :=
  match agent.ssockList conn with
  | none => .ok agent
  | some ssock =>
      match ssock.ringPatchTuple with
      | [] => .ok agent
      | elem :: rest =>
          match agent.sender.path.hashMulticast elem.bcdId with
          | none => .error .badPointer
          | some multi =>
              if multi.fdPatch = false then .error .badPointer
              else
                let sttSeq := if elem.pt.sttSeq < elem.pt.endSeq then
                    min elem.pt.endSeq (elem.pt.sttSeq + inserted)
                  else elem.pt.sttSeq
                .ok (agent.withRing conn ssock (if sttSeq = elem.pt.endSeq then rest
                  else { elem with pt := { elem.pt with sttSeq := sttSeq } } :: rest))

/-- The options of the agent and the address of its host. -/
structure FileConfig where
  hostAddr : Nat
  agent : AgentConfig
deriving DecidableEq, Repr

/-- The transfer events are the steps of the sender that are no messages of an executor. -/
inductive FileEvent where
  | connect (leftover : Option Nat) (garbage : MsgIntQ)
  | intReq (id : Nat) (appId : AppID) (statsOpens : Bool) (msgIntQ : MsgIntQ)
  | disconnect (id : Nat)
  | delete (id : Nat)
  | wrtReq (id : Nat) (bcdId : BcdID) (dataSize : Nat)
  | pshReq (id : Nat) (bcdId : BcdID) (slaves : List Slave) (now : Timeval)
  | delReq (id : Nat) (bcdId : BcdID)
  | createRecver (bcdId : BcdID)
  | transfer (event : SenderEvent)
  | createSendSocket (addr : Nat)
  | patchReq (conn : Nat) (bcdId : BcdID) (pt : PatchTuple)
  | processPatchTuple (conn inserted : Nat)
  | closeSendSocket (conn : Nat)
deriving DecidableEq, Repr

def SenderEvent.ofExecutor : SenderEvent → Bool
  | .wrtReq _ _ => true
  | .pshReq _ _ _ => true
  | _ => false

def fileStep (config : FileConfig) (agent : FileAgent) : FileEvent → Except Fault FileAgent
  | .connect leftover garbage => .ok (agent.connect leftover garbage)
  | .intReq id appId statsOpens msgIntQ => agent.intReq id appId statsOpens msgIntQ
  | .disconnect id => .ok { agent with registry := agent.registry.trashFdState id }
  | .delete id => agent.deleteUDSState id
  | .wrtReq id bcdId dataSize => agent.wrtReq config.agent.dataPayloadLen id bcdId dataSize
  | .pshReq id bcdId slaves now => agent.pshReq id bcdId slaves now
  | .delReq id bcdId => agent.delReq config.hostAddr id bcdId
  | .createRecver bcdId => .ok { agent with
      recvDeleteCounter :=
        Function.update agent.recvDeleteCounter bcdId (some ((agent.recvDeleteCounter bcdId).getD 0)) }
  | .transfer event =>
      if event.ofExecutor then .ok agent
      else
        match senderStep config.agent agent.sender event with
        | .error fault => .error fault
        | .ok sender => .ok { agent with sender := sender }
  | .createSendSocket addr => .ok (agent.createSendSocketState addr)
  | .patchReq conn bcdId pt => agent.patchReq conn bcdId pt
  | .processPatchTuple conn inserted => agent.processPatchTuple conn inserted
  | .closeSendSocket conn => .ok { agent with ssockList := Function.update agent.ssockList conn none }

end RepublicAgent
