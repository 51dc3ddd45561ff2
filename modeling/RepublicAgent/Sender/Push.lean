/-
This file fixes one push and counts the receivers that have reported their first packet.
-/

import RepublicAgent.Channel.Receive
import RepublicAgent.Sender.SenderAgent

namespace RepublicAgent
open MachineInteger

/-- The value `IP_ADDR_LEN` is the length of an address in a request. -/
def ipAddrLen : Nat := 16

/-- A push sends a file, whose packets a `uint32_t` can count, to distinct receivers. Its request carries the
fan out and one address for each receiver, and it fits into the receive buffer. -/
structure Push where
  dataSize : Nat
  dataPayloadLen : Nat
  created : MulticastState
  slaves : List Slave
  tvPush : Timeval
  controllerXid : Int32
  stored : createBcdState dataSize dataPayloadLen = some created
  seqMaxPositive : 0 < created.seqMax
  distinct : (slaves.map Slave.addr).Nodup
  fits : msgHdrLen + 8 + ipAddrLen * slaves.length ≤ recvBufLen

/-- The multicast behind the handler of the push. -/
def Push.pushed (push : Push) : MulticastState :=
  { push.slaves.foldl createSenderState (multicastStateReset push.created) with tvPush := push.tvPush }

/-- The multicast of an approved push. -/
def Push.approved (push : Push) : MulticastState :=
  { push.pushed with controllerXid := push.controllerXid, bcdState := .initiated }

/-- The counters agree with the receivers that reported. -/
structure Reports (push : Push) (nInit nFirstSeq : Nat) (senderAddrHash : Nat → Option SenderState)
    (reported : List Nat) : Prop where
  created : nInit = push.slaves.length
  counted : nFirstSeq = reported.length
  known : ∀ addr state, senderAddrHash addr = some state → addr ∈ push.slaves.map Slave.addr
  members : ∀ addr ∈ reported, addr ∈ push.slaves.map Slave.addr
  once : reported.Nodup

section Counting

variable {push : Push} {nInit nFirstSeq : Nat} {senderAddrHash : Nat → Option SenderState}
  {reported : List Nat}

/-- The request limits the number of receivers. -/
theorem Push.slaves_length (push : Push) : push.slaves.length ≤ 1024 := by
  have fits := push.fits
  unfold msgHdrLen ipAddrLen recvBufLen at fits
  omega

/-- A receiver that reported nothing leaves room for its report. -/
theorem Reports.room (reports : Reports push nInit nFirstSeq senderAddrHash reported) {addr : Nat}
    (receiver : addr ∈ push.slaves.map Slave.addr) (silent : addr ∉ reported) : nFirstSeq < nInit := by
  have nodup : (addr :: reported).Nodup := List.nodup_cons.mpr ⟨silent, reports.once⟩
  have subset : addr :: reported ⊆ push.slaves.map Slave.addr := by
    intro other member
    rcases List.mem_cons.mp member with rfl | member
    · exact receiver
    · exact reports.members other member
  have fewer := (List.subperm_of_subset nodup subset).length_le
  rw [reports.counted, reports.created]
  simpa using fewer

/-- Equal counters mean that every receiver reported. -/
theorem Reports.all (reports : Reports push nInit nFirstSeq senderAddrHash reported)
    (equal : nFirstSeq = nInit) {slave : Slave} (member : slave ∈ push.slaves) : slave.addr ∈ reported := by
  by_contra silent
  exact absurd equal (reports.room (List.mem_map_of_mem member) silent).ne

theorem Reports.le (reports : Reports push nInit nFirstSeq senderAddrHash reported) : nFirstSeq ≤ nInit := by
  have fewer := (List.subperm_of_subset reports.once fun addr member => reports.members addr member).length_le
  rw [reports.counted, reports.created]
  simpa using fewer

/-- A new report is counted. -/
theorem Reports.report (reports : Reports push nInit nFirstSeq senderAddrHash reported) {addr : Nat}
    {state changed : SenderState} (found : senderAddrHash addr = some state) (silent : addr ∉ reported) :
    Reports push nInit (u16 ((nFirstSeq : Int) + 1)) (Function.update senderAddrHash addr (some changed))
      (addr :: reported) := by
  have receiver := reports.known addr state found
  have room := reports.room receiver silent
  have few := push.slaves_length
  have created := reports.created
  have next : u16 ((nFirstSeq : Int) + 1) = nFirstSeq + 1 := by
    have fits : nFirstSeq + 1 < 65536 := by omega
    exact_mod_cast u16_natCast fits
  rw [next]
  refine ⟨created, ?_, ?_, ?_, List.nodup_cons.mpr ⟨silent, reports.once⟩⟩
  · simp [reports.counted]
  · intro other stored lookup
    by_cases same : other = addr
    · exact same ▸ receiver
    · rw [Function.update_of_ne same] at lookup
      exact reports.known other stored lookup
  · intro other member
    rcases List.mem_cons.mp member with rfl | member
    · exact receiver
    · exact reports.members other member

/-- A changed state of a known receiver changes no counter. -/
theorem Reports.store (reports : Reports push nInit nFirstSeq senderAddrHash reported) {addr : Nat}
    {state changed : SenderState} (found : senderAddrHash addr = some state) :
    Reports push nInit nFirstSeq (Function.update senderAddrHash addr (some changed)) reported := by
  refine ⟨reports.created, reports.counted, ?_, reports.members, reports.once⟩
  intro other stored lookup
  by_cases same : other = addr
  · exact same ▸ reports.known addr state found
  · rw [Function.update_of_ne same] at lookup
    exact reports.known other stored lookup

end Counting

/-- What each new sender state keeps has the value of the created multicast. -/
theorem Push.pushed_field {Field : Type} (push : Push) (field : MulticastState → Field)
    (made : ∀ multi slave, field (createSenderState multi slave) = field multi)
    (pushed : ∀ multi, field { multi with tvPush := push.tvPush } = field multi) :
    field push.pushed = field push.created := by
  rw [Push.pushed, pushed, createSenderStates_keep field made, (createBcdState_unpushed push.stored).reset]

theorem Push.pushed_reports (push : Push) :
    Reports push push.pushed.nInit push.pushed.nFirstSeq push.pushed.senderAddrHash [] := by
  have new := createBcdState_unpushed push.stored
  have few := push.slaves_length
  refine ⟨?_, (push.pushed_field MulticastState.nFirstSeq (fun _ _ => rfl) fun _ => rfl).trans new.nFirstSeq, ?_,
    by simp, List.nodup_nil⟩
  · have counted := createSenderStates_nInit push.created push.slaves (by rw [new.nInit]; omega)
    rw [new.nInit, Nat.zero_add] at counted
    exact (congrArg (fun multi => (push.slaves.foldl createSenderState multi).nInit) new.reset).trans counted
  · intro addr state found
    have stored := createSenderStates_found (multicastStateReset push.created) push.slaves found
    rw [new.reset, new.senderAddrHash addr] at stored
    obtain ⟨slave, member, rfl, _⟩ := stored.resolve_right (by simp)
    exact List.mem_map_of_mem member

end RepublicAgent
