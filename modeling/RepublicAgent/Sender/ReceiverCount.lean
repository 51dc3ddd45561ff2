/-
This file follows the pushes of one broadcast and compares the number of expected receivers with the receivers in
the table. The table replaces the state of a receiver that is pushed again.
-/

import Mathlib.Data.Set.Card
import RepublicAgent.Sender.DataSide

namespace RepublicAgent
open Execution MachineInteger

/-- A request names its hosts, and it fits into the receive buffer. -/
structure MsgPshQ (Host : Type) where
  hosts : List Host
  fits : msgHdrLen + 8 + ipAddrLen * hosts.length ≤ recvBufLen
deriving DecidableEq

/-- The values `IP_OFFSET` and `NUM_SERVER_PER_RACK` give the rack of an address by its last byte. -/
def rack (addr : Nat) : Nat := u32 (((addr / 16777216 : Nat) : Int) - 111) / 2

/-- The addresses of the hosts without the local one. An unknown host has no address to read. -/
def parseMsgPshQ {Host : Type} (gethostbyname : Host → Option Nat) (hostinaddressCtrl : Nat) :
    List Host → Except Fault (List Nat)
  | [] => .ok []
  | host :: hosts =>
      match gethostbyname host with
      | none => .error .badPointer
      | some addr =>
          match parseMsgPshQ gethostbyname hostinaddressCtrl hosts with
          | .error fault => .error fault
          | .ok slaves => .ok (if addr = hostinaddressCtrl then slaves else addr :: slaves)

def toSlave (hostinaddressCtrl addr : Nat) : Slave := ⟨addr, rack addr ≠ rack hostinaddressCtrl⟩

/-- The handler of `MSG_PSH_REQ` creates a sender state for each address. -/
def pushReceivers (hostinaddressCtrl : Nat) (multi : MulticastState) (addrs : List Nat) (now : Timeval) :
    MulticastState :=
  if addrs = [] then multi
  else
    let slaves := addrs.map (toSlave hostinaddressCtrl)
    { slaves.foldl createSenderState (multicastStateReset multi) with tvPush := now }

/-- The receivers that reported are kept for the statements only. -/
structure CountSender where
  side : DataSide
  reported : List Nat

/-- A new broadcast. -/
def CountSender.initial (multi : MulticastState) : CountSender := ⟨⟨multi, ⟨false, 0, 0⟩, none⟩, []⟩

inductive CountEvent (Host : Type) where
  | pshReq (request : MsgPshQ Host) (now : Timeval)
  | approve (controllerXid : Int32)
  | queue (ring : TxRing) (estimate : Int)
  | process (space : Nat) (ring : TxRing)
  | firstSeq (addr seqFirst : Nat)
  | check (ring : TxRing)
deriving DecidableEq

/-- The addresses of the hosts and the options of the agent. -/
structure CountConfig (Host : Type) where
  gethostbyname : Host → Option Nat
  hostinaddressCtrl : Nat
  firstFirstSeqFullrate : Bool
  nmBurst : Int

def countStep {Host : Type} (config : CountConfig Host) (sender : CountSender) :
    CountEvent Host → Except Fault CountSender
  | .pshReq request now =>
      match parseMsgPshQ config.gethostbyname config.hostinaddressCtrl request.hosts with
      | .error fault => .error fault
      | .ok addrs => .ok { sender with side := { sender.side with
          multi := pushReceivers config.hostinaddressCtrl sender.side.multi addrs now } }
  | .approve controllerXid => .ok { sender with side := { sender.side with
      multi := { sender.side.multi with controllerXid := controllerXid, bcdState := .initiated } } }
  | .queue ring estimate =>
      .ok { sender with side := sender.side.queue config.firstFirstSeqFullrate ring estimate }
  | .process space ring =>
      match sender.side.process config.nmBurst space ring with
      | .error fault => .error fault
      | .ok side => .ok { sender with side := side }
  | .firstSeq addr seqFirst =>
      match handleFirstSeq sender.side.multi addr seqFirst with
      | .error fault => .error fault
      | .ok multi => .ok ⟨{ sender.side with multi := multi }, addr :: sender.reported⟩
  | .check ring => .ok { sender with side := sender.side.check ring }

/-- The addresses in `sender_addr_hash_p`. -/
def PushFields.receivers (fields : PushFields) : Set Nat := {addr | fields.senderAddrHash addr ≠ none}

/-- The expected number of receivers is that of the receivers in the table. When all of them have reported, the
transfer has its end. -/
structure PushFields.CountsReceivers (fields : PushFields) (reported : List Nat) : Prop where
  registered : fields.nInit = fields.receivers.ncard
  reaches : (∀ addr ∈ fields.receivers, addr ∈ reported) → fields.nFirstSeq = fields.nInit ∧
    (reported ≠ [] → fields.seqEnd = fields.seqEndMax)

/-- Each receiver sends one `FIRST_SEQ`. -/
def CountEvent.Once {Host : Type} (sender : CountSender) : CountEvent Host → Prop
  | .firstSeq addr _ => addr ∉ sender.reported
  | _ => True

/-- A request names distinct hosts that no request before it named, and `n_init` can count them. -/
def CountEvent.Fresh {Host : Type} (config : CountConfig Host) (sender : CountSender) : CountEvent Host → Prop
  | .pshReq request _ =>
      ∀ addrs ∈ (parseMsgPshQ config.gethostbyname config.hostinaddressCtrl request.hosts).toOption,
        addrs.Nodup ∧ (∀ addr ∈ addrs, sender.side.multi.senderAddrHash addr = none) ∧
          sender.side.multi.nInit + addrs.length < 65536
  | _ => True

instance CountEvent.decidableOnce {Host : Type} (sender : CountSender) :
    ∀ event : CountEvent Host, Decidable (event.Once sender)
  | .firstSeq _ _ => inferInstanceAs (Decidable (¬ _))
  | .pshReq _ _ | .approve _ | .queue _ _ | .process _ _ | .check _ => inferInstanceAs (Decidable True)

instance CountEvent.decidableFresh {Host : Type} (config : CountConfig Host) (sender : CountSender) :
    ∀ event : CountEvent Host, Decidable (event.Fresh config sender)
  | .pshReq request _ => inferInstanceAs (Decidable (∀ addrs ∈ (parseMsgPshQ config.gethostbyname
      config.hostinaddressCtrl request.hosts).toOption, _ ∧ _ ∧ _))
  | .firstSeq _ _ | .approve _ | .queue _ _ | .process _ _ | .check _ => inferInstanceAs (Decidable True)

/-- What every step keeps, also behind a request that is not counted right. -/
structure PushFields.Reported (fields : PushFields) (reported : List Nat) : Prop where
  finite : fields.receivers.Finite
  nInit : fields.nInit < 65536
  counted : fields.nFirstSeq = reported.length % 65536
  members : ∀ addr ∈ reported, addr ∈ fields.receivers
  once : reported.Nodup

section Counting

variable {fields : PushFields} {reported : List Nat}

/-- The new addresses are counted exactly when they are distinct and new. -/
theorem card_union_toFinset {known : Finset Nat} {addrs : List Nat} :
    (known ∪ addrs.toFinset).card = known.card + addrs.length ↔
      addrs.Nodup ∧ ∀ addr ∈ addrs, addr ∉ known := by
  have both := Finset.card_union_add_card_inter known addrs.toFinset
  have fewer := addrs.toFinset_card_le
  constructor
  · intro all
    have distinct : addrs.toFinset.card = addrs.length := by omega
    have apart : (known ∩ addrs.toFinset).card = 0 := by omega
    refine ⟨?_, fun addr member old => ?_⟩
    · rw [List.card_toFinset] at distinct
      exact List.dedup_eq_self.mp (addrs.dedup_sublist.eq_of_length distinct)
    · rw [Finset.card_eq_zero] at apart
      have common : addr ∈ known ∩ addrs.toFinset :=
        Finset.mem_inter.mpr ⟨old, List.mem_toFinset.mpr member⟩
      rw [apart] at common
      exact absurd common (Finset.notMem_empty addr)
  · rintro ⟨distinct, new⟩
    have apart : known ∩ addrs.toFinset = ∅ := by
      rw [Finset.eq_empty_iff_forall_notMem]
      intro addr common
      obtain ⟨old, member⟩ := Finset.mem_inter.mp common
      exact new addr (List.mem_toFinset.mp member) old
    rw [apart, Finset.card_empty, List.toFinset_card_of_nodup distinct] at both
    omega

/-- The reports of all receivers reach their number. -/
theorem PushFields.Reported.all (tracked : fields.Reported reported)
    (registered : fields.nInit = fields.receivers.ncard) (all : ∀ addr ∈ fields.receivers, addr ∈ reported) :
    fields.nFirstSeq = fields.nInit := by
  have same : fields.receivers = (reported.toFinset : Set Nat) := by
    ext addr
    simp only [Finset.mem_coe, List.mem_toFinset]
    exact ⟨all addr, tracked.members addr⟩
  have small := tracked.nInit
  have counted := tracked.counted
  rw [same, Set.ncard_coe_finset, List.toFinset_card_of_nodup tracked.once] at registered
  omega

end Counting

section Steps

variable {Host : Type} {config : CountConfig Host} {sender next : CountSender} {multi : MulticastState}
  {reported : List Nat}

theorem map_toSlave (hostinaddressCtrl : Nat) (addrs : List Nat) :
    (addrs.map (toSlave hostinaddressCtrl)).map Slave.addr = addrs := by
  rw [List.map_map]
  exact List.map_id addrs

/-- A push adds its receivers to the table and their number to the count. -/
theorem pushReceivers_eq (hostinaddressCtrl : Nat) (addrs : List Nat) (now : Timeval)
    (small : multi.nInit < 65536) :
    (pushReceivers hostinaddressCtrl multi addrs now).pushFields.receivers =
        multi.pushFields.receivers ∪ {addr | addr ∈ addrs} ∧
      (pushReceivers hostinaddressCtrl multi addrs now).nInit = (multi.nInit + addrs.length) % 65536 ∧
      (pushReceivers hostinaddressCtrl multi addrs now).nFirstSeq = multi.nFirstSeq := by
  unfold pushReceivers
  split_ifs with empty
  · subst empty
    simp [Nat.mod_eq_of_lt small]
  · have reset : (multicastStateReset multi).senderAddrHash = multi.senderAddrHash ∧
        (multicastStateReset multi).nInit = multi.nInit := by
      unfold multicastStateReset
      split_ifs <;> exact ⟨rfl, rfl⟩
    refine ⟨?_, ?_, ?_⟩
    · ext addr
      have known := createSenderStates_known (multicastStateReset multi) (addrs.map (toSlave hostinaddressCtrl)) addr
      rw [map_toSlave, reset.1] at known
      exact known.trans or_comm
    · have counted := createSenderStates_count (multicastStateReset multi)
        (addrs.map (toSlave hostinaddressCtrl)) (by rwa [reset.2])
      rw [reset.2, List.length_map] at counted
      exact counted
    · apply pushed_keeps MulticastState.nFirstSeq _ (fun _ _ => rfl)
      intro multi
      unfold multicastStateReset
      split_ifs <;> rfl

/-- The request limits the number of its addresses. -/
theorem parseMsgPshQ_length {gethostbyname : Host → Option Nat} {hostinaddressCtrl : Nat} {hosts : List Host}
    {addrs : List Nat} (parsed : parseMsgPshQ gethostbyname hostinaddressCtrl hosts = .ok addrs) :
    addrs.length ≤ hosts.length := by
  induction hosts generalizing addrs with
  | nil =>
      obtain rfl := Except.ok.inj parsed
      exact le_rfl
  | cons host hosts ih =>
      rw [parseMsgPshQ] at parsed
      split at parsed
      · cases parsed
      · split at parsed
        · cases parsed
        · next slaves rest =>
            have fewer := ih rest
            obtain rfl := Except.ok.inj parsed
            rw [List.length_cons]
            split_ifs
            · omega
            · rw [List.length_cons]
              omega

/-- A push of few receivers keeps the reports, and it counts right exactly when it names new receivers once. -/
theorem PushFields.Reported.push (tracked : multi.pushFields.Reported reported)
    (good : multi.pushFields.CountsReceivers reported) (hostinaddressCtrl : Nat) {addrs : List Nat} (now : Timeval)
    (few : addrs.length < 65536) :
    (pushReceivers hostinaddressCtrl multi addrs now).pushFields.Reported reported ∧
      ((pushReceivers hostinaddressCtrl multi addrs now).pushFields.CountsReceivers reported ↔
        addrs.Nodup ∧ (∀ addr ∈ addrs, multi.senderAddrHash addr = none) ∧
          multi.nInit + addrs.length < 65536) := by
  obtain ⟨receivers, nInit, nFirstSeq⟩ := pushReceivers_eq hostinaddressCtrl addrs now tracked.nInit
  obtain ⟨known, same⟩ := tracked.finite.exists_finset_coe
  have registered := good.registered
  rw [← same, Set.ncard_coe_finset] at registered
  have union : (pushReceivers hostinaddressCtrl multi addrs now).pushFields.receivers =
      ((known ∪ addrs.toFinset : Finset Nat) : Set Nat) := by
    rw [receivers, ← same]
    ext addr
    simp
  have old : ∀ addr, addr ∈ known ↔ multi.senderAddrHash addr ≠ none := by
    intro addr
    have member := Set.ext_iff.mp same addr
    exact member
  have counted : (pushReceivers hostinaddressCtrl multi addrs now).nInit = (known ∪ addrs.toFinset).card ↔
      addrs.Nodup ∧ (∀ addr ∈ addrs, addr ∉ known) ∧ multi.nInit + addrs.length < 65536 := by
    have all := @card_union_toFinset known addrs
    have grown := Finset.card_le_card (Finset.subset_union_left : known ⊆ known ∪ addrs.toFinset)
    have fewer := (Finset.card_union_le known addrs.toFinset).trans
      (Nat.add_le_add_left addrs.toFinset_card_le _)
    have small : multi.nInit < 65536 := tracked.nInit
    rw [nInit, show multi.nInit = known.card from registered, ← and_assoc, ← all]
    rw [show multi.nInit = known.card from registered] at small
    omega
  have after : (pushReceivers hostinaddressCtrl multi addrs now).pushFields.Reported reported := by
    refine ⟨?_, ?_, ?_, ?_, tracked.once⟩
    · rw [union]
      exact Finset.finite_toSet _
    · exact nInit.trans_lt (Nat.mod_lt _ (by decide))
    · exact nFirstSeq.trans tracked.counted
    · intro addr member
      rw [receivers]
      exact .inl (tracked.members addr member)
  refine ⟨after, ?_⟩
  have new : (∀ addr ∈ addrs, multi.senderAddrHash addr = none) ↔ ∀ addr ∈ addrs, addr ∉ known := by
    simp only [old, ne_eq, not_not]
  rw [new, ← counted, ← Set.ncard_coe_finset, ← union]
  constructor
  · exact fun right => right.registered
  · intro right
    refine ⟨right, fun all => ⟨after.all right all, fun some_ => ?_⟩⟩
    by_cases empty : addrs = []
    · subst empty
      exact (good.reaches all).2 some_
    · obtain ⟨addr, rest, rfl⟩ := List.exists_cons_of_ne_nil empty
      have pushed : addr ∈ (pushReceivers hostinaddressCtrl multi (addr :: rest) now).pushFields.receivers := by
        rw [receivers]
        exact .inr List.mem_cons_self
      have before := tracked.members addr (all addr pushed)
      rw [union, Set.ncard_coe_finset] at right
      exact absurd ((old addr).mpr before) ((counted.mp right).2.1 addr List.mem_cons_self)

/-- The handler counts a known receiver, and the last report fixes the end of the transfer. -/
theorem handleFirstSeq_counts {addr seqFirst : Nat} {handled : MulticastState}
    (taken : handleFirstSeq multi addr seqFirst = .ok handled) :
    addr ∈ multi.pushFields.receivers ∧ handled.pushFields.receivers = multi.pushFields.receivers ∧
      handled.nInit = multi.nInit ∧ handled.nFirstSeq = (multi.nFirstSeq + 1) % 65536 ∧
      (handled.nInit = handled.nFirstSeq → handled.seqEnd = handled.seqEndMax) := by
  obtain ⟨sender, found, rfl⟩ := handleFirstSeq_ok taken
  have known : addr ∈ multi.pushFields.receivers := by
    have some_ : multi.senderAddrHash addr ≠ none := by simp [found]
    exact some_
  rw [multicastStateUpdateSeqEnd_eq]
  refine ⟨known, ?_, rfl, ?_, fun last => if_pos last⟩
  · ext other
    simp only [PushFields.receivers, MulticastState.pushFields, Function.update_idem, Set.mem_ofPred_eq]
    by_cases same : other = addr
    · subst same
      simp [found]
    · rw [Function.update_of_ne same]
  · have next : u16 ((multi.nFirstSeq : Int) + 1) = (multi.nFirstSeq + 1) % 65536 := by
      rw [u16_eq]
      omega
    exact next

/-- A report of a receiver keeps the counts right. -/
theorem PushFields.Reported.firstSeq (tracked : multi.pushFields.Reported reported)
    (good : multi.pushFields.CountsReceivers reported) {addr seqFirst : Nat} {handled : MulticastState}
    (silent : addr ∉ reported) (taken : handleFirstSeq multi addr seqFirst = .ok handled) :
    handled.pushFields.Reported (addr :: reported) ∧ handled.pushFields.CountsReceivers (addr :: reported) := by
  obtain ⟨known, receivers, nInit, nFirstSeq, last⟩ := handleFirstSeq_counts taken
  have after : handled.pushFields.Reported (addr :: reported) := by
    refine ⟨?_, nInit.trans_lt tracked.nInit, ?_, ?_, List.nodup_cons.mpr ⟨silent, tracked.once⟩⟩
    · rw [receivers]
      exact tracked.finite
    · have counted : multi.nFirstSeq = reported.length % 65536 := tracked.counted
      refine nFirstSeq.trans ?_
      rw [counted, List.length_cons]
      omega
    · intro other member
      rw [receivers]
      rcases List.mem_cons.mp member with rfl | before
      · exact known
      · exact tracked.members other before
  have registered : handled.pushFields.nInit = handled.pushFields.receivers.ncard := by
    rw [receivers]
    exact nInit.trans good.registered
  refine ⟨after, registered, fun all => ?_⟩
  have reached := after.all registered all
  exact ⟨reached, fun _ => last reached.symm⟩

/-- Every step keeps the counts right except a push of receivers that are not new. -/
theorem CountEvent.Once.step {event : CountEvent Host} (once : event.Once sender)
    (tracked : sender.side.multi.pushFields.Reported sender.reported)
    (good : sender.side.multi.pushFields.CountsReceivers sender.reported)
    (taken : countStep config sender event = .ok next) :
    next.side.multi.pushFields.Reported next.reported ∧
      (next.side.multi.pushFields.CountsReceivers next.reported ↔ event.Fresh config sender) := by
  cases event with
  | pshReq request now =>
      simp only [countStep] at taken
      split at taken
      · cases taken
      · next addrs parsed =>
          obtain rfl := Except.ok.inj taken
          have fits := request.fits
          have fewer := parseMsgPshQ_length parsed
          unfold msgHdrLen ipAddrLen recvBufLen at fits
          have few : addrs.length < 65536 := by omega
          obtain ⟨kept, counts⟩ := tracked.push good config.hostinaddressCtrl now few
          refine ⟨kept, counts.trans ?_⟩
          simp [CountEvent.Fresh, parsed, Except.toOption]
  | approve controllerXid =>
      obtain rfl := Except.ok.inj taken
      exact ⟨tracked, iff_of_true good trivial⟩
  | queue ring estimate =>
      obtain rfl := Except.ok.inj taken
      have same := sender.side.queue_pushFields config.firstFirstSeqFullrate ring estimate
      dsimp only
      rw [same]
      exact ⟨tracked, iff_of_true good trivial⟩
  | process space ring =>
      simp only [countStep] at taken
      split at taken
      · cases taken
      · next side processed =>
          obtain rfl := Except.ok.inj taken
          have same := DataSide.process_pushFields processed
          dsimp only
          rw [same]
          exact ⟨tracked, iff_of_true good trivial⟩
  | firstSeq addr seqFirst =>
      simp only [countStep] at taken
      split at taken
      · cases taken
      · next multi handled =>
          obtain rfl := Except.ok.inj taken
          obtain ⟨kept, counts⟩ := tracked.firstSeq good once handled
          exact ⟨kept, iff_of_true counts trivial⟩
  | check ring =>
      obtain rfl := Except.ok.inj taken
      have same := sender.side.check_pushFields ring
      dsimp only
      rw [same]
      exact ⟨tracked, iff_of_true good trivial⟩

end Steps

/-- A new broadcast expects no receiver. -/
theorem createBcdState_counts {dataSize dataPayloadLen : Nat} {multi : MulticastState}
    (created : createBcdState dataSize dataPayloadLen = some multi) :
    multi.pushFields.Reported [] ∧ multi.pushFields.CountsReceivers [] := by
  have new := createBcdState_unpushed created
  have empty : multi.pushFields.receivers = ∅ := by
    ext addr
    simp [PushFields.receivers, MulticastState.pushFields, new.senderAddrHash addr]
  have nInit : multi.pushFields.nInit = 0 := new.nInit
  have nFirstSeq : multi.pushFields.nFirstSeq = 0 := new.nFirstSeq
  refine ⟨⟨by simp [empty], by omega, nFirstSeq, by simp, List.nodup_nil⟩, by simp [empty, nInit], fun _ => ?_⟩
  exact ⟨nFirstSeq.trans nInit.symm, fun some_ => absurd rfl some_⟩

/-- The expected number of receivers is right in a whole run exactly when every request names distinct hosts
that are not registered yet. -/
theorem receivers_counted_iff {Host : Type} (config : CountConfig Host) {dataSize dataPayloadLen : Nat}
    {multi : MulticastState} (created : createBcdState dataSize dataPayloadLen = some multi)
    (events : List (CountEvent Host))
    (once : StepsMeet (countStep config) (fun sender event => event.Once sender)
      (.initial multi) events) :
    Throughout (countStep config) (fun sender => sender.side.multi.pushFields.CountsReceivers sender.reported)
        (.initial multi) events ↔
      StepsMeet (countStep config) (fun sender event => event.Fresh config sender)
        (.initial multi) events := by
  obtain ⟨tracked, good⟩ := createBcdState_counts created
  apply throughout_iff_of_steps
    (fun sender : CountSender => sender.side.multi.pushFields.Reported sender.reported) _ _ tracked good once
  · intro sender event next kept right promised taken
    exact promised.step kept right taken
  · intro sender event fault _ _ _ failed
    cases event with
    | pshReq request now =>
        simp only [countStep] at failed
        split at failed
        · next parsed => simp [CountEvent.Fresh, parsed, Except.toOption]
        · cases failed
    | approve controllerXid => cases failed
    | queue ring estimate => cases failed
    | process space ring => trivial
    | firstSeq addr seqFirst => trivial
    | check ring => cases failed

/-- A host is named by its address, and the agent has address one. -/
def numberedHosts : CountConfig Nat := ⟨some, 1, true, 4⟩

/-- A request skips the local host, and a second request names a new one. -/
def newHosts : List (CountEvent Nat) :=
  [.pshReq ⟨[1, 2, 3], by decide⟩ (1, 0), .approve 5, .queue ⟨1, 0, 8⟩ 2, .process 8 ⟨3, 0, 8⟩, .firstSeq 2 0,
    .pshReq ⟨[4], by decide⟩ (2, 0), .firstSeq 3 0, .firstSeq 4 1]

theorem receivers_counted_newHosts : Throughout (countStep numberedHosts)
    (fun sender => sender.side.multi.pushFields.CountsReceivers sender.reported)
    (.initial twoPackets.created) newHosts := by
  have exact_ := receivers_counted_iff numberedHosts twoPackets.stored newHosts (by decide)
  exact exact_.mpr (by decide)

/-- A request that names a host twice expects two receivers and has one. -/
theorem receivers_counted_twice : ¬ ∀ events : List (CountEvent Nat),
    StepsMeet (countStep numberedHosts) (fun sender event => event.Once sender) (.initial twoPackets.created)
      events →
    Throughout (countStep numberedHosts)
      (fun sender => sender.side.multi.pushFields.CountsReceivers sender.reported)
      (.initial twoPackets.created) events := by
  intro always
  have counts := (always [.pshReq ⟨[2, 2], by decide⟩ (1, 0)] (by decide)).2 _ rfl
  have registered : 2 = Set.ncard _ := counts.registered
  have small : twoPackets.created.nInit < 65536 := by decide
  have receivers := (pushReceivers_eq 1 [2, 2] (1, 0) small).1
  have single : twoPackets.created.pushFields.receivers ∪ {addr | addr ∈ [2, 2]} = {2} := by
    ext addr
    have new : twoPackets.created.senderAddrHash addr = none :=
      (createBcdState_unpushed twoPackets.stored).senderAddrHash addr
    simp [PushFields.receivers, MulticastState.pushFields, new]
  rw [single] at receivers
  have one := registered.trans (congrArg Set.ncard receivers)
  rw [Set.ncard_singleton] at one
  cases one

end RepublicAgent
