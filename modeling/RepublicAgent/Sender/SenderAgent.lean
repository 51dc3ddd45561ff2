/-
This file puts the three threads of a sender together. Each step is one handler of the control thread, one
half of the loop of the service thread or one part of a pass of the data channel thread.
-/

import RepublicAgent.Library.Execution
import RepublicAgent.Sender.DataThread
import RepublicAgent.Service.PathRequest

namespace RepublicAgent
open Execution MachineInteger

/-- The options of an agent. -/
structure AgentConfig where
  dataPayloadLen : Nat
  firstFirstSeqFullrate : Bool
  nmBurst : Int
deriving DecidableEq, Repr

/-- A pass of the data channel thread keeps the number of packets to send from its first to its second
part. -/
inductive DataPc where
  | queue
  | move (nMultiRx : Int)
  | check
deriving DecidableEq, Repr

/-- The control thread handles `FIRST_SEQ` in two parts. The released multicasts are kept for the
statements only. -/
structure SenderAgent where
  path : PathState
  released : List BcdID
  firstSeq : Option (BcdID × Nat)
  pathRelease : PathRelease
  pc : DataPc

def SenderAgent.initial : SenderAgent := ⟨PathState.initial, [], none, ⟨false, 0, 0⟩, .queue⟩

inductive SenderEvent where
  | wrtReq (bcdId : BcdID) (dataSize : Nat)
  | pshReq (bcdId : BcdID) (slaves : List Slave) (now : Timeval)
  | release (calls : ReleaseCalls)
  | request (head : Nat) (now : Timeval) (calls : RequestCalls)
  | firstSeq (bcdId : BcdID) (addr seqFirst : Nat)
  | updateSeqEnd
  | queue (ring : TxRing) (estimate : Int)
  | move (turn : Bool) (space : Int) (ring : TxRing)
  | check (ring : TxRing)
deriving DecidableEq, Repr

/-- The first part of the handler counts the message. -/
def receiveFirstSeq (multi : MulticastState) (addr seqFirst : Nat) : Except Fault MulticastState :=
  match multi.senderAddrHash addr with
  | none => .error .assertion
  | some sender => .ok { multi with
      senderAddrHash := Function.update multi.senderAddrHash addr (some { sender with seqFirst := seqFirst })
      isFirstSeqDistinctRack := multi.isFirstSeqDistinctRack || sender.isDistinctRack
      nFirstSeq := u16 ((multi.nFirstSeq : Int) + 1) }

/-- A message for an unknown broadcast is ignored. -/
def SenderAgent.receiveFirstSeq (agent : SenderAgent) (bcdId : BcdID) (addr seqFirst : Nat) :
    Except Fault SenderAgent :=
  match agent.firstSeq, agent.path.hashMulticast bcdId with
  | none, some multi =>
      match RepublicAgent.receiveFirstSeq multi addr seqFirst with
      | .error fault => .error fault
      | .ok counted => .ok { agent with path := agent.path.store bcdId counted, firstSeq := some (bcdId, addr) }
  | _, _ => .ok agent

/-- The second part of the handler updates the end of the transfer. -/
def SenderAgent.updateSeqEnd (agent : SenderAgent) : SenderAgent :=
  match agent.firstSeq with
  | none => agent
  | some (bcdId, addr) =>
      match agent.path.hashMulticast bcdId with
      | none => { agent with firstSeq := none }
      | some multi =>
          match multi.senderAddrHash addr with
          | none => { agent with firstSeq := none }
          | some sender => { agent with
              path := agent.path.store bcdId (multicastStateUpdateSeqEnd multi addr sender)
              firstSeq := none }

/-- The state of the active multicast. -/
def PathState.activeState (path : PathState) : Option (BcdID × MulticastState) :=
  path.activeMulticast.bind fun bcdId => (path.hashMulticast bcdId).map fun multi => (bcdId, multi)

/-- A pass begins with the number of packets to send. -/
def SenderAgent.queue (config : AgentConfig) (agent : SenderAgent) (ring : TxRing) (estimate : Int) :
    SenderAgent :=
  match agent.pc, agent.path.activeState with
  | .queue, none => { agent with pc := .move 0 }
  | .queue, some (bcdId, multi) =>
      let outcome := amNPktQueued config.firstFirstSeqFullrate multi agent.pathRelease ring estimate
      { agent with
        path := agent.path.store bcdId outcome.1
        pathRelease := outcome.2.1
        pc := .move outcome.2.2 }
  | _, _ => agent

/-- The pass goes on with a burst of packets when there are some to send and it is their turn. -/
def SenderAgent.move (config : AgentConfig) (agent : SenderAgent) (turn : Bool) (space : Int) (ring : TxRing) :
    Except Fault SenderAgent :=
  match agent.pc, agent.path.activeState with
  | .move nMultiRx, some (bcdId, multi) =>
      if nMultiRx ≠ 0 ∧ turn = true ∧ space ≠ 0 ∧ multi.bcdState ≠ .dead then
        match amProcessRings multi agent.pathRelease space (min nMultiRx config.nmBurst) ring with
        | .error fault => .error fault
        | .ok outcome => .ok { agent with
            path := agent.path.store bcdId outcome.1
            pathRelease := outcome.2
            pc := .check }
      else .ok { agent with pc := .check }
  | .move _, none => .ok { agent with pc := .check }
  | _, _ => .ok agent

/-- The pass ends with the check for the last slot. -/
def SenderAgent.check (agent : SenderAgent) (ring : TxRing) : Except Fault SenderAgent :=
  match agent.pc with
  | .check =>
      if agent.pathRelease.needReleasePath = false then .ok { agent with pc := .queue }
      else if agent.pathRelease.passed ring then
        match agent.path.activeState with
        | none => .error .assertion
        | some (bcdId, multi) => .ok { agent with
            path := agent.path.store bcdId { multi with bcdState := .dead }
            pathRelease := { agent.pathRelease with needReleasePath := false }
            pc := .queue }
      else .ok { agent with
        pathRelease := { agent.pathRelease with amTxringTailLast := ring.tail }
        pc := .queue }
  | _ => .ok agent

/-- An executor pushes a broadcast again only after its last push was released. -/
def SenderAgent.pshReq (agent : SenderAgent) (bcdId : BcdID) (slaves : List Slave) (now : Timeval) :
    Except Fault SenderAgent :=
  if bcdId ∈ agent.path.queuePush ∨ agent.path.activeMulticast = some bcdId then .ok agent
  else
    match agent.path.pshReq bcdId slaves now with
    | .error fault => .error fault
    | .ok path => .ok { agent with path := path }

def senderStep (config : AgentConfig) (agent : SenderAgent) : SenderEvent → Except Fault SenderAgent
  | .wrtReq bcdId dataSize =>
      match agent.path.wrtReq bcdId dataSize config.dataPayloadLen with
      | .error fault => .error fault
      | .ok path => .ok { agent with path := path }
  | .pshReq bcdId slaves now => agent.pshReq bcdId slaves now
  | .release calls =>
      match agent.path.release calls with
      | .error fault => .error fault
      | .ok (path, _) => .ok { agent with
          path := path
          released := agent.released ++
            if path.activeMulticast = none then agent.path.activeMulticast.toList else [] }
  | .request head now calls =>
      match agent.path.request head now calls with
      | .error fault => .error fault
      | .ok (path, _) => .ok { agent with path := path }
  | .firstSeq bcdId addr seqFirst => agent.receiveFirstSeq bcdId addr seqFirst
  | .updateSeqEnd => .ok agent.updateSeqEnd
  | .queue ring estimate => .ok (agent.queue config ring estimate)
  | .move turn space ring => agent.move config turn space ring
  | .check ring => agent.check ring

theorem PathState.activeState_eq {path : PathState} {bcdId : BcdID} {multi : MulticastState}
    (same : path.activeState = some (bcdId, multi)) :
    path.activeMulticast = some bcdId ∧ path.hashMulticast bcdId = some multi := by
  unfold activeState at same
  rw [Option.bind_eq_some_iff] at same
  obtain ⟨active, current, found⟩ := same
  rw [Option.map_eq_some_iff] at found
  obtain ⟨state, stored, pair⟩ := found
  obtain ⟨rfl, rfl⟩ := Prod.mk.inj pair
  exact ⟨current, stored⟩

end RepublicAgent
