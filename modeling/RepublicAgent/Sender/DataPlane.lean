/-
This file models the loop of the data channel thread between the rings of the card, the rings of the host and the
active multicast. It behaves as the two queues of frames.
-/

import RepublicAgent.Sender.FrameQueues

namespace RepublicAgent
open CyclicWindow Execution MachineInteger

/-- The rings share their buffers. The frames that arrived and departed are kept for the statements only. -/
structure DataPlane (World : Type) where
  rx : Port → KernelRing
  tx : Port → KernelRing
  buffers : UInt32 → List UInt8
  world : World
  cursor : SendCursor
  moveFlip : Bool
  arrived : Port → List NetFrame
  departed : Port → List NetFrame

section Functions

variable {World : Type}

/-- The thread writes the next packet into the buffer of the next slot and clears the flags of the slot. A remainder
by zero ends the agent. -/
def DataPlane.fill (config : PlaneConfig World) (plane : DataPlane World) : Except Fault (DataPlane World) :=
  let txring := (plane.tx .nic).ring
  match txring.slot[txring.cur]? with
  | none => .error .badPointer
  | some ts =>
      match fillFrame config.channel config.source plane.cursor (plane.buffers ts.bufIdx) with
      | none => .error .abort
      | some (frame, cursor) =>
          let next := config.netmap.nmRingNext txring txring.cur
          .ok { plane with
            buffers := Function.update plane.buffers ts.bufIdx frame.1
            tx := Function.update plane.tx .nic { plane.tx .nic with
              ring := { txring with
                slot := txring.slot.set txring.cur { ts with len := UInt16.ofNat frame.2, flags := 0 }
                head := next
                cur := next } }
            cursor := cursor }

/-- The loop of `am_process_rings`. -/
def DataPlane.fillSlots (config : PlaneConfig World) : Nat → DataPlane World → Except Fault (DataPlane World)
  | 0, plane => .ok plane
  | mi + 1, plane =>
      match plane.fill config with
      | .error fault => .error fault
      | .ok next => fillSlots config mi next

/-- The functions `am_move` and `am_process_rings`: nothing is sent when there is no live multicast. -/
def DataPlane.amMove (config : PlaneConfig World) (plane : DataPlane World) (mxRingEmpty : Bool) (limit : Int) :
    Except Fault (DataPlane World) :=
  let txring := (plane.tx .nic).ring
  if mxRingEmpty ∨ txring.cur = txring.tail then .ok plane
  else
    let txPktnum := s32 (config.netmap.nmRingSpace txring)
    plane.fillSlots config (if txPktnum < limit then txPktnum else limit).toNat

/-- There is one pair of rings for each direction. -/
def DataPlane.move (config : PlaneConfig World) (plane : DataPlane World) (src dst : Port) (dirc : Direction) :
    Except Fault (DataPlane World) :=
  if (plane.rx src).ring.cur = (plane.rx src).ring.tail ∨ (plane.tx dst).ring.cur = (plane.tx dst).ring.tail then
    .ok plane
  else
    match (DataChannel.mk config.netmap plane.buffers config.receive).processRings (plane.rx src).ring
      (plane.tx dst).ring (u32 config.nmBurst) dirc plane.world with
    | .error fault => .error fault
    | .ok (rxNext, txNext, world, _) => .ok { plane with
        rx := Function.update plane.rx src { plane.rx src with ring := rxNext }
        tx := Function.update plane.tx dst { plane.tx dst with ring := txNext }
        world := world }

/-- The card can send: the multicast and the host take turns. -/
def DataPlane.moveNic (config : PlaneConfig World) (plane : DataPlane World) (nHostRx : Nat) (nMultiRx : Int)
    (mxRingEmpty : Bool) : Except Fault (DataPlane World) :=
  if nMultiRx ≠ 0 ∧ (plane.moveFlip ∨ nHostRx = 0) then
    plane.amMove config mxRingEmpty (if config.nmBurst < nMultiRx then config.nmBurst else nMultiRx)
  else if nHostRx ≠ 0 then plane.move config .host .nic .hostToNic
  else .ok plane

/-- The frames were counted before the poll, and the poll tells which rings can take frames. -/
structure Polled where
  nNicRx : Nat
  nHostRx : Nat
  nMultiRx : Int
  mxRingEmpty : Bool
  nicOut : Bool
  hostOut : Bool
deriving DecidableEq, Repr

/-- A round of the loop. -/
def DataPlane.round (config : PlaneConfig World) (plane : DataPlane World) (polled : Polled) :
    Except Fault (DataPlane World) :=
  let sent :=
    if polled.nicOut then
      (plane.moveNic config polled.nHostRx polled.nMultiRx polled.mxRingEmpty).map fun next =>
        { next with moveFlip := !next.moveFlip }
    else .ok plane
  match sent with
  | .error fault => .error fault
  | .ok next => if polled.hostOut ∧ polled.nNicRx ≠ 0 then next.move config .nic .host .nicToHost else .ok next

/-- The kernel loads the next released slot and goes on. -/
def KernelRing.collect (kr : KernelRing) : KernelRing :=
  let slot := reload (kr.shared.slots kr.hwcur)
  { ring := { kr.ring with slot := kr.ring.slot.set kr.hwcur slot.1 }
    hwcur := kr.shared.next kr.hwcur
    mapped := Function.update kr.mapped kr.hwcur slot.2 }

/-- The kernel gives its next slot to the program. -/
def KernelRing.supply (kr : KernelRing) (slot : NetmapSlot) : KernelRing :=
  { kr with
    ring := { kr.ring with slot := kr.ring.slot.set kr.ring.tail slot, tail := kr.shared.next kr.ring.tail } }

/-- The card puts a frame into the buffer that it uses for the next slot. A frame without a slot is dropped. -/
def DataPlane.receive (plane : DataPlane World) (port : Port) (frame : List UInt8) : DataPlane World :=
  let kr := plane.rx port
  if kr.shared.next kr.ring.tail = kr.hwcur then plane
  else
    let buf := kr.mapped kr.ring.tail
    let image := frame ++ (plane.buffers buf).drop frame.length
    let len := UInt16.ofNat frame.length
    { plane with
      rx := Function.update plane.rx port (kr.supply { (kr.shared.slots kr.ring.tail).1 with len := len })
      buffers := Function.update plane.buffers buf image
      arrived := Function.update plane.arrived port (plane.arrived port ++ [(image, len.toNat)]) }

/-- The kernel takes back a slot whose frame was taken. -/
def DataPlane.recycle (plane : DataPlane World) (port : Port) : DataPlane World :=
  let kr := plane.rx port
  if kr.hwcur = kr.ring.cur then plane
  else { plane with rx := Function.update plane.rx port kr.collect }

/-- The card sends the bytes in the buffer that it uses for the next slot. -/
def DataPlane.transmit (plane : DataPlane World) (port : Port) : DataPlane World :=
  let kr := plane.tx port
  if kr.hwcur = kr.ring.cur then plane
  else
    let slot := reload (kr.shared.slots kr.hwcur)
    { plane with
      tx := Function.update plane.tx port kr.collect
      departed := Function.update plane.departed port
        (plane.departed port ++ [(plane.buffers slot.2, slot.1.len.toNat)]) }

/-- The kernel gives back a slot whose frame was sent. -/
def DataPlane.complete (plane : DataPlane World) (port : Port) : DataPlane World :=
  let kr := plane.tx port
  if kr.shared.next kr.ring.tail = kr.hwcur then plane
  else { plane with tx := Function.update plane.tx port (kr.supply (kr.shared.slots kr.ring.tail).1) }

end Functions

/-- The thread goes round, and the kernel moves a slot of a ring. -/
inductive PlaneEvent where
  | round (polled : Polled)
  | receive (port : Port) (frame : List UInt8)
  | recycle (port : Port)
  | transmit (port : Port)
  | complete (port : Port)
deriving DecidableEq, Repr

def planeStep {World : Type} (config : PlaneConfig World) (plane : DataPlane World) :
    PlaneEvent → Except Fault (DataPlane World)
  | .round polled => plane.round config polled
  | .receive port frame => .ok (plane.receive port frame)
  | .recycle port => .ok (plane.recycle port)
  | .transmit port => .ok (plane.transmit port)
  | .complete port => .ok (plane.complete port)

section Queues

variable {World : Type}

/-- The frames in the slots are the queues. -/
def DataPlane.queues (plane : DataPlane World) : FrameQueues World where
  waiting port := (plane.rx port).shared.owned.map (frameIn plane.buffers)
  pending port := (plane.tx port).shared.released.map (frameIn plane.buffers)
  arrived := plane.arrived
  departed := plane.departed
  world := plane.world
  cursor := plane.cursor

/-- The number of slots of all rings with a buffer. -/
def DataPlane.uses (plane : DataPlane World) (bufIdx : UInt32) : Nat :=
  RepublicAgent.uses (plane.rx .nic).shared bufIdx + RepublicAgent.uses (plane.tx .nic).shared bufIdx +
    (RepublicAgent.uses (plane.rx .host).shared bufIdx + RepublicAgent.uses (plane.tx .host).shared bufIdx)

/-- The rings are consistent, and no two slots have the same buffer. -/
structure DataPlane.Sound (plane : DataPlane World) : Prop where
  rx : ∀ port, (plane.rx port).Ok
  tx : ∀ port, (plane.tx port).Ok
  unshared : ∀ bufIdx, plane.uses bufIdx ≤ 1

end Queues

section Kernel

variable {kr : KernelRing}

theorem KernelRing.shared_collect (inside : kr.hwcur < kr.ring.slot.length) :
    kr.collect.shared = kr.shared.collect (reload (kr.shared.slots kr.hwcur)) := by
  unfold KernelRing.collect KernelRing.shared sharedView SharedRing.collect SharedRing.modify
  simp only [List.length_set, SharedRing.mk.injEq, true_and, and_true]
  funext index
  by_cases same : index = kr.hwcur
  · subst same
    rw [Function.update_self, Function.update_self, List.getD_eq_getElem?_getD, List.getElem?_set_self inside,
      Option.getD_some]
  · rw [Function.update_of_ne same, Function.update_of_ne same, List.getD_eq_getElem?_getD,
      List.getElem?_set_ne (Ne.symm same), List.getD_eq_getElem?_getD]

theorem KernelRing.shared_supply (inside : kr.ring.tail < kr.ring.slot.length) (slot : NetmapSlot) :
    (kr.supply slot).shared = kr.shared.supply (slot, kr.mapped kr.ring.tail) := by
  have slots := congrArg SharedRing.slots
    (@sharedView_set kr.ring kr.hwcur kr.ring.cur kr.mapped kr.ring.tail inside slot)
  unfold KernelRing.supply KernelRing.shared sharedView SharedRing.supply SharedRing.modify at *
  simp only [List.length_set, SharedRing.mk.injEq, true_and, and_true]
  exact slots

end Kernel

section Memory

variable {World : Type} {config : PlaneConfig World} {plane next : DataPlane World} {bufIdx : UInt32}

/-- A write to a buffer without holders changes no frame. -/
theorem frames_update {slots : List MappedSlot} (absent : holders slots bufIdx = 0) (buffers : UInt32 → List UInt8)
    (image : List UInt8) :
    slots.map (frameIn (Function.update buffers bufIdx image)) = slots.map (frameIn buffers) := by
  apply List.map_congr_left
  intro slot member
  have other : slot.1.bufIdx ≠ bufIdx := by
    rintro rfl
    have positive := holders_pos member
    omega
  unfold frameIn
  rw [Function.update_of_ne other]

/-- The buffer of a slot without a frame holds no frame of the queues. -/
theorem DataPlane.Sound.apart (sound : plane.Sound)
    (used : (∃ port, 0 < holders (plane.rx port).shared.reserved bufIdx) ∨
      ∃ port, 0 < holders (plane.tx port).shared.owned bufIdx) (port : Port) :
    holders (plane.rx port).shared.owned bufIdx = 0 ∧ holders (plane.tx port).shared.released bufIdx = 0 := by
  have total := sound.unshared bufIdx
  simp only [DataPlane.uses, uses_eq] at total
  rcases used with ⟨from_, positive⟩ | ⟨from_, positive⟩
  · cases from_ <;> cases port <;> constructor <;> omega
  · cases from_ <;> cases port <;> constructor <;> omega

section Update

variable {rings : Port → KernelRing} {kr : KernelRing}

theorem update_ok (sound : ∀ port, (rings port).Ok) (ok : kr.Ok) (port other : Port) :
    (Function.update rings port kr other).Ok := by
  by_cases equal : other = port
  · rw [equal, Function.update_self]
    exact ok
  · rw [Function.update_of_ne equal]
    exact sound other

theorem update_uses {port : Port} (same : ∀ bufIdx, uses kr.shared bufIdx = uses (rings port).shared bufIdx)
    (other : Port) (bufIdx : UInt32) :
    uses (Function.update rings port kr other).shared bufIdx = uses (rings other).shared bufIdx := by
  by_cases equal : other = port
  · rw [equal, Function.update_self]
    exact same bufIdx
  · rw [Function.update_of_ne equal]

end Update

/-- A changed ring with the same buffers keeps the rings sound. -/
theorem DataPlane.Sound.update_rx (sound : plane.Sound) {port : Port} {kr : KernelRing} (ok : kr.Ok)
    (same : ∀ bufIdx, RepublicAgent.uses kr.shared bufIdx = RepublicAgent.uses (plane.rx port).shared bufIdx)
    (rx : next.rx = Function.update plane.rx port kr) (tx : next.tx = plane.tx) : next.Sound := by
  constructor
  · exact rx ▸ update_ok sound.rx ok port
  · exact tx ▸ sound.tx
  · intro bufIdx
    have total := sound.unshared bufIdx
    unfold DataPlane.uses at *
    rw [rx, tx, update_uses same, update_uses same]
    exact total

theorem DataPlane.Sound.update_tx (sound : plane.Sound) {port : Port} {kr : KernelRing} (ok : kr.Ok)
    (same : ∀ bufIdx, RepublicAgent.uses kr.shared bufIdx = RepublicAgent.uses (plane.tx port).shared bufIdx)
    (tx : next.tx = Function.update plane.tx port kr) (rx : next.rx = plane.rx) : next.Sound := by
  constructor
  · exact rx ▸ sound.rx
  · exact tx ▸ update_ok sound.tx ok port
  · intro bufIdx
    have total := sound.unshared bufIdx
    unfold DataPlane.uses at *
    rw [rx, tx, update_uses same, update_uses same]
    exact total

end Memory

section Kernel

variable {World : Type} {config : PlaneConfig World} {plane next : DataPlane World} {kr : KernelRing}

theorem KernelRing.Ok.collect (ok : kr.Ok) (some : kr.hwcur ≠ kr.ring.cur) : kr.collect.Ok ∧
    (∀ bufIdx, uses kr.collect.shared bufIdx = uses kr.shared bufIdx) ∧ Loaded (reload (kr.shared.slots kr.hwcur)) ∧
    kr.shared.released = kr.shared.slots kr.hwcur :: kr.collect.shared.released ∧
    kr.collect.shared.owned = kr.shared.owned := by
  obtain ⟨rest, released⟩ := ok.ok.sound.released_cons some
  have view := @KernelRing.shared_collect kr ok.ok.sound.kernelInside
  obtain ⟨collected, kept⟩ := ok.ok.collect released
  obtain ⟨-, -, left, owned, -⟩ := ok.ok.sound.collect released (reload (kr.shared.slots kr.shared.kernel))
  have kernel : kr.shared.kernel = kr.hwcur := rfl
  rw [kernel] at released collected kept left owned
  rw [← view] at collected kept left owned
  refine ⟨⟨collected, ?_⟩, kept, ?_, ?_, owned⟩
  · show (kr.ring.slot.set _ _).length ≤ _
    rw [List.length_set]
    exact ok.small
  · exact (ok.ok.released _ (released ▸ List.mem_cons_self)).reload
  · rw [released, left]

theorem KernelRing.Ok.supply (ok : kr.Ok) (room : kr.shared.next kr.ring.tail ≠ kr.hwcur) (len : UInt16) :
    Loaded (kr.shared.slots kr.ring.tail) ∧ kr.shared.slots kr.ring.tail ∈ kr.shared.reserved ∧
    (kr.supply { (kr.shared.slots kr.ring.tail).1 with len := len }).Ok ∧
    (∀ bufIdx, uses (kr.supply { (kr.shared.slots kr.ring.tail).1 with len := len }).shared bufIdx =
      uses kr.shared bufIdx) ∧
    (kr.supply { (kr.shared.slots kr.ring.tail).1 with len := len }).shared.released = kr.shared.released ∧
    (kr.supply { (kr.shared.slots kr.ring.tail).1 with len := len }).shared.owned = kr.shared.owned ++
      [({ (kr.shared.slots kr.ring.tail).1 with len := len }, kr.mapped kr.ring.tail)] := by
  obtain ⟨other, rest, reserved⟩ := ok.ok.sound.reserved_cons room
  have tail : kr.shared.tail = kr.ring.tail := rfl
  rw [tail] at reserved
  have first : kr.shared.slots kr.ring.tail ∈ kr.shared.reserved := reserved ▸ List.mem_cons_self
  have loaded := ok.ok.reserved _ first
  have changed : Loaded ({ (kr.shared.slots kr.ring.tail).1 with len := len }, kr.mapped kr.ring.tail) := loaded
  have view := @KernelRing.shared_supply kr ok.ok.sound.tailInside { (kr.shared.slots kr.ring.tail).1 with len := len }
  obtain ⟨supplied, kept⟩ := ok.ok.supply reserved changed rfl
  obtain ⟨-, -, released, owned, -⟩ := ok.ok.sound.supply reserved
    ({ (kr.shared.slots kr.ring.tail).1 with len := len }, kr.mapped kr.ring.tail)
  rw [← view] at supplied kept released owned
  refine ⟨loaded, first, ⟨supplied, ?_⟩, kept, released, owned⟩
  show (kr.ring.slot.set _ _).length ≤ _
  rw [List.length_set]
  exact ok.small

/-- A frame arrives in a buffer that no other slot has. -/
theorem DataPlane.Sound.receive (sound : plane.Sound) (port : Port) (frame : List UInt8) :
    (plane.receive port frame).Sound ∧
      Relation.ReflTransGen (QueueStep config) plane.queues (plane.receive port frame).queues := by
  unfold DataPlane.receive
  dsimp only
  split_ifs with full
  · exact ⟨sound, .refl⟩
  · obtain ⟨loaded, reserved, ok, kept, -, owned⟩ := (sound.rx port).supply full (UInt16.ofNat frame.length)
    refine ⟨sound.update_rx ok kept rfl rfl, .single ?_⟩
    have buffer : (plane.rx port).mapped (plane.rx port).ring.tail =
        ((plane.rx port).shared.slots (plane.rx port).ring.tail).1.bufIdx := loaded.2
    have used : 0 < holders (plane.rx port).shared.reserved ((plane.rx port).mapped (plane.rx port).ring.tail) := by
      rw [buffer]
      exact holders_pos reserved
    have apart := sound.apart (.inl ⟨port, used⟩)
    convert QueueStep.arrive plane.queues port (frame ++ (plane.buffers ((plane.rx port).mapped
      (plane.rx port).ring.tail)).drop frame.length, (UInt16.ofNat frame.length).toNat) using 1
    unfold DataPlane.queues
    simp only [FrameQueues.mk.injEq, and_true]
    constructor
    · funext other
      by_cases equal : other = port
      · subst equal
        rw [Function.update_self, Function.update_self, owned, List.map_append, frames_update (apart other).1]
        rw [List.map_singleton, frameIn, ← buffer, Function.update_self]
      · rw [Function.update_of_ne equal, Function.update_of_ne equal, frames_update (apart other).1]
    · funext other
      rw [frames_update (apart other).2]

theorem DataPlane.Sound.recycle (sound : plane.Sound) (port : Port) : (plane.recycle port).Sound ∧
    Relation.ReflTransGen (QueueStep config) plane.queues (plane.recycle port).queues := by
  unfold DataPlane.recycle
  dsimp only
  split_ifs with none
  · exact ⟨sound, .refl⟩
  · obtain ⟨ok, kept, -, -, owned⟩ := (sound.rx port).collect none
    refine ⟨sound.update_rx ok kept rfl rfl, ?_⟩
    have same : plane.queues =
        DataPlane.queues { plane with rx := Function.update plane.rx port (plane.rx port).collect } := by
      unfold DataPlane.queues
      simp only [FrameQueues.mk.injEq, and_true]
      funext other
      by_cases equal : other = port
      · subst equal
        rw [Function.update_self, owned]
      · rw [Function.update_of_ne equal]
    rw [← same]

/-- The card sends the frame that the thread put into the slot. -/
theorem DataPlane.Sound.transmit (sound : plane.Sound) (port : Port) : (plane.transmit port).Sound ∧
    Relation.ReflTransGen (QueueStep config) plane.queues (plane.transmit port).queues := by
  unfold DataPlane.transmit
  dsimp only
  split_ifs with none
  · exact ⟨sound, .refl⟩
  · obtain ⟨ok, kept, loaded, released, -⟩ := (sound.tx port).collect none
    refine ⟨sound.update_tx ok kept rfl rfl, .single ?_⟩
    have frame : (plane.buffers (reload ((plane.tx port).shared.slots (plane.tx port).hwcur)).2,
        (reload ((plane.tx port).shared.slots (plane.tx port).hwcur)).1.len.toNat) =
        frameIn plane.buffers ((plane.tx port).shared.slots (plane.tx port).hwcur) := by
      rw [frameIn, loaded.2, reload_bufIdx, reload_len]
    convert QueueStep.depart plane.queues port (frameIn plane.buffers
      ((plane.tx port).shared.slots (plane.tx port).hwcur))
      ((plane.tx port).collect.shared.released.map (frameIn plane.buffers)) ?_ using 1
    · unfold DataPlane.queues
      simp only [FrameQueues.mk.injEq, true_and, and_true, frame]
      funext other
      by_cases equal : other = port
      · subst equal
        rw [Function.update_self, Function.update_self]
      · rw [Function.update_of_ne equal, Function.update_of_ne equal]
    · show (plane.tx port).shared.released.map _ = _
      rw [released, List.map_cons]

theorem DataPlane.Sound.complete (sound : plane.Sound) (port : Port) : (plane.complete port).Sound ∧
    Relation.ReflTransGen (QueueStep config) plane.queues (plane.complete port).queues := by
  unfold DataPlane.complete
  dsimp only
  split_ifs with full
  · exact ⟨sound, .refl⟩
  · obtain ⟨-, -, ok, kept, released, -⟩ := (sound.tx port).supply full
      ((plane.tx port).shared.slots (plane.tx port).ring.tail).1.len
    refine ⟨sound.update_tx ok kept rfl rfl, ?_⟩
    have same : plane.queues = DataPlane.queues { plane with
        tx := Function.update plane.tx port
          ((plane.tx port).supply ((plane.tx port).shared.slots (plane.tx port).ring.tail).1) } := by
      unfold DataPlane.queues
      simp only [FrameQueues.mk.injEq, true_and, and_true]
      funext other
      by_cases equal : other = port
      · subst equal
        rw [Function.update_self]
        exact congrArg _ released.symm
      · rw [Function.update_of_ne equal]
    rw [← same]

end Kernel

section Thread

variable {World : Type} {config : PlaneConfig World} {plane next : DataPlane World}

/-- The length of a filled frame has sixteen bits. -/
theorem fillFrame_len {channel : HostChannel} {source : PacketSource} {cursor last : SendCursor} {buf : List UInt8}
    {frame : NetFrame} (filled : fillFrame channel source cursor buf = some (frame, last)) :
    (UInt16.ofNat frame.2).toNat = frame.2 := by
  simp only [fillFrame, Option.map_eq_some_iff] at filled
  obtain ⟨made, -, same⟩ := filled
  obtain ⟨rfl, -⟩ := Prod.mk.inj same
  have bounded := unsigned_lt 16 (dataHdrOffset + source.payloadBytes (cursor.seqCur % source.seqMax) : Nat)
  rw [UInt16.toNat_ofNat', Nat.mod_eq_of_lt bounded]

/-- The flags that the thread clears report no buffer, because the card has loaded the buffer of the slot. -/
theorem DataPlane.Sound.fill (sound : plane.Sound) (documented : config.netmap.Documented)
    (some : (plane.tx .nic).shared.space ≠ 0) (taken : plane.fill config = .ok next) :
    next.Sound ∧ QueueStep config plane.queues next.queues ∧
      (next.tx .nic).shared.space + 1 = (plane.tx .nic).shared.space := by
  have ok := sound.tx .nic
  have inside : (plane.tx .nic).ring.cur < (plane.tx .nic).ring.slot.length := ok.ok.sound.headInside
  obtain ⟨ts, slot⟩ : ∃ ts, (plane.tx .nic).ring.slot[(plane.tx .nic).ring.cur]? = .some ts :=
    ⟨_, List.getElem?_eq_getElem inside⟩
  have kNext := documented.next (plane.tx .nic).ring (plane.tx .nic).ring.cur inside
  obtain ⟨rest, owned⟩ := ok.ok.sound.owned_cons some
  have first : (plane.tx .nic).shared.slots (plane.tx .nic).shared.head =
      (ts, (plane.tx .nic).mapped (plane.tx .nic).ring.cur) := sharedView_slot slot
  rw [first] at owned
  have member := owned ▸ List.mem_cons_self
  have loaded := ok.ok.owned _ member
  simp only [DataPlane.fill, slot] at taken
  split at taken
  · cases taken
  · next frame cursor filled =>
      obtain rfl := Except.ok.inj taken
      have coherent : Coherent (({ ts with len := UInt16.ofNat frame.2, flags := 0 } : NetmapSlot),
          (plane.tx .nic).mapped (plane.tx .nic).ring.cur) := fun _ => loaded.2
      obtain ⟨released, kept⟩ := ok.ok.release owned coherent
      obtain ⟨-, -, behind, left, -⟩ := ok.ok.sound.release owned
        (({ ts with len := UInt16.ofNat frame.2, flags := 0 } : NetmapSlot),
          (plane.tx .nic).mapped (plane.tx .nic).ring.cur)
      have view : KernelRing.shared { plane.tx .nic with
          ring := { (plane.tx .nic).ring with
            slot := (plane.tx .nic).ring.slot.set (plane.tx .nic).ring.cur
              { ts with len := UInt16.ofNat frame.2, flags := 0 }
            head := config.netmap.nmRingNext (plane.tx .nic).ring (plane.tx .nic).ring.cur
            cur := config.netmap.nmRingNext (plane.tx .nic).ring (plane.tx .nic).ring.cur } } =
          (plane.tx .nic).shared.release (({ ts with len := UInt16.ofNat frame.2, flags := 0 } : NetmapSlot),
            (plane.tx .nic).mapped (plane.tx .nic).ring.cur) := by
        have set := @sharedView_set (plane.tx .nic).ring (plane.tx .nic).hwcur
          (config.netmap.nmRingNext (plane.tx .nic).ring (plane.tx .nic).ring.cur) (plane.tx .nic).mapped
          (plane.tx .nic).ring.cur inside { ts with len := UInt16.ofNat frame.2, flags := 0 }
        rw [kNext] at set
        rw [KernelRing.shared, kNext]
        exact set
      rw [← view] at released kept behind left
      have used : 0 < holders (plane.tx .nic).shared.owned ts.bufIdx := holders_pos member
      have apart := sound.apart (.inr ⟨.nic, used⟩)
      refine ⟨sound.update_tx ⟨released, ?_⟩ (fun bufIdx => ?_) rfl rfl, ?_, ?_⟩
      · show (List.set _ _ _).length ≤ _
        rw [List.length_set]
        exact ok.small
      · have same := kept bufIdx
        exact Nat.add_right_cancel same
      · convert QueueStep.emit plane.queues (plane.buffers ts.bufIdx) frame cursor filled using 1
        unfold DataPlane.queues
        simp only [FrameQueues.mk.injEq, and_true]
        constructor
        · funext other
          rw [frames_update (apart other).1]
        · funext other
          by_cases equal : other = .nic
          · subst equal
            have len := fillFrame_len filled
            rw [Function.update_self, Function.update_self, behind, List.map_append, frames_update (apart .nic).2,
              List.map_singleton, frameIn, Function.update_self, len]
          · rw [Function.update_of_ne equal, Function.update_of_ne equal, frames_update (apart other).2]
      · have before := congrArg List.length owned
        have after := congrArg List.length left
        rw [SharedRing.owned_length, List.length_cons] at before
        rw [SharedRing.owned_length] at after
        dsimp only
        rw [Function.update_self, after, before]

/-- The loop fills slots that the thread owns. -/
theorem DataPlane.Sound.fillSlots (sound : plane.Sound) (documented : config.netmap.Documented) {count : Nat}
    (free : count ≤ (plane.tx .nic).shared.space) (taken : plane.fillSlots config count = .ok next) :
    next.Sound ∧ Relation.ReflTransGen (QueueStep config) plane.queues next.queues := by
  induction count generalizing plane with
  | zero =>
      obtain rfl := Except.ok.inj taken
      exact ⟨sound, .refl⟩
  | succ count ih =>
      rw [DataPlane.fillSlots] at taken
      split at taken
      · cases taken
      · next middle first =>
          obtain ⟨after, step, space⟩ := sound.fill documented (by omega) first
          obtain ⟨final, steps⟩ := ih after (by omega) taken
          exact ⟨final, .head step steps⟩

theorem DataPlane.Sound.amMove (sound : plane.Sound) (documented : config.netmap.Documented) {mxRingEmpty : Bool}
    {limit : Int} (taken : plane.amMove config mxRingEmpty limit = .ok next) :
    next.Sound ∧ Relation.ReflTransGen (QueueStep config) plane.queues next.queues := by
  have ok := sound.tx .nic
  have space := documented.space (plane.tx .nic).ring ok.valid
  have inside := CyclicWindow.distance_lt ok.valid.cur ok.valid.tail
  have small := ok.small
  have txPktnum : s32 (config.netmap.nmRingSpace (plane.tx .nic).ring) = (plane.tx .nic).shared.space := by
    rw [space, s32_eq (by omega) (by omega)]
    rfl
  unfold DataPlane.amMove at taken
  dsimp only at taken
  rw [txPktnum] at taken
  split at taken
  · exact Except.ok.inj taken ▸ ⟨sound, .refl⟩
  · refine sound.fillSlots documented ?_ taken
    split_ifs <;> omega

theorem isFastPath_hostToNic (packet : List UInt8) : isFastPath .hostToNic packet = false := by
  simp [isFastPath]

/-- A call of `process_rings` in either direction. -/
theorem DataPlane.Sound.moved (sound : plane.Sound) {src dst : Port} {dirc : Direction} {count : Nat}
    {rxNext txNext : KernelRing} {world : World}
    (moves : Moves ⟨config.netmap, plane.buffers, config.receive⟩ dirc count (plane.rx src).shared
      (plane.tx dst).shared plane.world rxNext.shared txNext.shared world) :
    DataPlane.Sound { plane with
      rx := Function.update plane.rx src rxNext
      tx := Function.update plane.tx dst txNext
      world := world } := by
  have rxSize : rxNext.ring.slot.length = (plane.rx src).ring.slot.length := moves.sizes.1
  have txSize : txNext.ring.slot.length = (plane.tx dst).ring.slot.length := moves.sizes.2
  constructor
  · intro other
    by_cases equal : other = src
    · rw [equal]
      dsimp only
      rw [Function.update_self]
      exact ⟨moves.rxOk, rxSize ▸ (sound.rx src).small⟩
    · dsimp only
      rw [Function.update_of_ne equal]
      exact sound.rx other
  · intro other
    by_cases equal : other = dst
    · rw [equal]
      dsimp only
      rw [Function.update_self]
      exact ⟨moves.txOk, txSize ▸ (sound.tx dst).small⟩
    · dsimp only
      rw [Function.update_of_ne equal]
      exact sound.tx other
  · intro bufIdx
    have total := sound.unshared bufIdx
    have kept := moves.kept bufIdx
    unfold DataPlane.uses at *
    dsimp only
    cases src <;> cases dst <;>
      simp only [Function.update_self, ne_eq, reduceCtorEq, not_false_eq_true, Function.update_of_ne] <;> omega

/-- Nothing is moved, or the two rings are those behind a call of `process_rings`. -/
theorem DataPlane.move_cases {src dst : Port} {dirc : Direction} (taken : plane.move config src dst dirc = .ok next) :
    next = plane ∨ ∃ rxNext txNext world forwarded,
      (DataChannel.mk config.netmap plane.buffers config.receive).processRings (plane.rx src).ring
        (plane.tx dst).ring (u32 config.nmBurst) dirc plane.world = .ok (rxNext, txNext, world, forwarded) ∧
      next = { plane with
        rx := Function.update plane.rx src { plane.rx src with ring := rxNext }
        tx := Function.update plane.tx dst { plane.tx dst with ring := txNext }
        world := world } := by
  unfold DataPlane.move at taken
  split_ifs at taken
  · exact .inl (Except.ok.inj taken).symm
  · right
    cases called : (DataChannel.mk config.netmap plane.buffers config.receive).processRings (plane.rx src).ring
        (plane.tx dst).ring (u32 config.nmBurst) dirc plane.world with
    | error fault =>
        rw [called] at taken
        cases taken
    | ok outcome =>
        rw [called] at taken
        obtain ⟨rxNext, txNext, world, forwarded⟩ := outcome
        exact ⟨rxNext, txNext, world, forwarded, rfl, (Except.ok.inj taken).symm⟩

theorem DataPlane.Sound.move (sound : plane.Sound) (documented : config.netmap.Documented) {src dst : Port}
    {dirc : Direction} (direction : src = .nic ∧ dst = .host ∧ dirc = .nicToHost ∨
      src = .host ∧ dst = .nic ∧ dirc = .hostToNic)
    (taken : plane.move config src dst dirc = .ok next) :
    next.Sound ∧ Relation.ReflTransGen (QueueStep config) plane.queues next.queues := by
  obtain rfl | ⟨rxNext, txNext, world, forwarded, called, rfl⟩ := DataPlane.move_cases taken
  · exact ⟨sound, .refl⟩
  · have library : Netmap.Documented (DataChannel.mk config.netmap plane.buffers config.receive).netmap :=
      documented
    obtain ⟨count, moves⟩ := processRings_moves library (sound.rx src) (sound.tx dst) called
    refine ⟨sound.moved moves, .single ?_⟩
    obtain ⟨moved, -, owned, released, handled⟩ := moves.moved
    rcases direction with ⟨rfl, rfl, rfl⟩ | ⟨rfl, rfl, rfl⟩
    · have first : plane.queues.waiting .nic = moved.map (frameIn plane.buffers) ++
          (KernelRing.shared { plane.rx .nic with ring := rxNext }).owned.map (frameIn plane.buffers) := by
        rw [← List.map_append]
        exact congrArg (List.map (frameIn plane.buffers)) owned
      convert QueueStep.toHost plane.queues _ _ world first handled using 1
      unfold DataPlane.queues
      simp only [FrameQueues.mk.injEq, and_true]
      constructor
      · funext other
        cases other with
        | nic => rw [Function.update_self, Function.update_self]
        | host => rw [Function.update_of_ne (by decide), Function.update_of_ne (by decide)]
      · funext other
        cases other with
        | nic => rw [Function.update_of_ne (by decide), Function.update_of_ne (by decide)]
        | host =>
            rw [Function.update_self, Function.update_self]
            exact released
    · have first : plane.queues.waiting .host = moved.map (frameIn plane.buffers) ++
          (KernelRing.shared { plane.rx .host with ring := rxNext }).owned.map (frameIn plane.buffers) := by
        rw [← List.map_append]
        exact congrArg (List.map (frameIn plane.buffers)) owned
      simp only [isFastPath_hostToNic, List.filter_false, List.map_nil, execute_nil] at handled
      simp only [isFastPath_hostToNic, Bool.not_false, List.filter_true] at released
      obtain rfl := Except.ok.inj handled
      convert QueueStep.toNic plane.queues _ _ first using 1
      unfold DataPlane.queues
      simp only [FrameQueues.mk.injEq, and_true]
      constructor
      · funext other
        cases other with
        | nic => rw [Function.update_of_ne (by decide), Function.update_of_ne (by decide)]
        | host => rw [Function.update_self, Function.update_self]
      · funext other
        cases other with
        | nic =>
            rw [Function.update_self, Function.update_self]
            exact released
        | host => rw [Function.update_of_ne (by decide), Function.update_of_ne (by decide)]

/-- The direction of the next transfer is no frame. -/
theorem DataPlane.Sound.flip (sound : plane.Sound) (moveFlip : Bool) :
    DataPlane.Sound { plane with moveFlip := moveFlip } := ⟨sound.rx, sound.tx, sound.unshared⟩

theorem DataPlane.Sound.round (sound : plane.Sound) (documented : config.netmap.Documented) {polled : Polled}
    (taken : plane.round config polled = .ok next) :
    next.Sound ∧ Relation.ReflTransGen (QueueStep config) plane.queues next.queues := by
  have nic {moved : DataPlane World}
      (called : plane.moveNic config polled.nHostRx polled.nMultiRx polled.mxRingEmpty = .ok moved) :
      moved.Sound ∧ Relation.ReflTransGen (QueueStep config) plane.queues moved.queues := by
    unfold DataPlane.moveNic at called
    split_ifs at called
    · exact sound.amMove documented called
    · exact sound.amMove documented called
    · exact sound.move documented (.inr ⟨rfl, rfl, rfl⟩) called
    · exact Except.ok.inj called ▸ ⟨sound, .refl⟩
  unfold DataPlane.round at taken
  dsimp only at taken
  split at taken
  · cases taken
  · next middle sent =>
      have first : middle.Sound ∧ Relation.ReflTransGen (QueueStep config) plane.queues middle.queues := by
        split_ifs at sent
        · cases called : plane.moveNic config polled.nHostRx polled.nMultiRx polled.mxRingEmpty with
          | error fault =>
              rw [called] at sent
              cases sent
          | ok moved =>
              rw [called] at sent
              obtain rfl := Except.ok.inj sent
              obtain ⟨after, steps⟩ := nic called
              exact ⟨after.flip _, steps⟩
        · exact Except.ok.inj sent ▸ ⟨sound, .refl⟩
      split_ifs at taken
      · obtain ⟨final, steps⟩ := first.1.move documented (.inl ⟨rfl, rfl, rfl⟩) taken
        exact ⟨final, first.2.trans steps⟩
      · exact Except.ok.inj taken ▸ first

/-- Every step of the rings is a run of the queues. -/
theorem DataPlane.Sound.step (sound : plane.Sound) (documented : config.netmap.Documented) {event : PlaneEvent}
    (taken : planeStep config plane event = .ok next) :
    next.Sound ∧ Relation.ReflTransGen (QueueStep config) plane.queues next.queues := by
  cases event with
  | round polled => exact sound.round documented taken
  | receive port frame => exact Except.ok.inj taken ▸ sound.receive port frame
  | recycle port => exact Except.ok.inj taken ▸ sound.recycle port
  | transmit port => exact Except.ok.inj taken ▸ sound.transmit port
  | complete port => exact Except.ok.inj taken ▸ sound.complete port

end Thread

/-- The rings are as netmap opens them: every slot has a buffer of its own, and no frame is underway. -/
structure DataPlane.Opened {World : Type} (plane : DataPlane World) : Prop where
  sound : plane.Sound
  waiting : ∀ port, plane.queues.waiting port = []
  pending : ∀ port, plane.queues.pending port = []
  arrived : ∀ port, plane.arrived port = []
  departed : ∀ port, plane.departed port = []

/-- A ring whose slots have the buffers of the list. The kernel has sent nothing, and the slots in front of `tail` are
free. -/
def openedRing (bufs : List UInt32) (tail : Nat) : KernelRing where
  ring := ⟨bufs.map fun bufIdx => ⟨bufIdx, 0, 0⟩, 0, 0, tail⟩
  hwcur := 0
  mapped index := bufs.getD index 0

theorem openedRing_ok {bufs : List UInt32} {tail : Nat} (inside : tail < bufs.length)
    (small : bufs.length ≤ 2147483648) : (openedRing bufs tail).Ok := by
  have size : (openedRing bufs tail).shared.numSlots = bufs.length := List.length_map _
  have loaded (index : Nat) : Loaded ((openedRing bufs tail).shared.slots index) := by
    have slot : ((openedRing bufs tail).shared.slots index).1 = ⟨bufs.getD index 0, 0, 0⟩ := by
      show (bufs.map _).getD index _ = _
      rw [List.getD_eq_getElem?_getD, List.getElem?_map, List.getD_eq_getElem?_getD]
      cases bufs[index]? <;> rfl
    unfold Loaded
    rw [slot]
    exact ⟨UInt16.zero_and, rfl⟩
  have count : (openedRing bufs tail).shared.releasedCount = 0 := distance_self _ 0
  have space : (openedRing bufs tail).shared.space < (openedRing bufs tail).shared.numSlots :=
    distance_lt (size ▸ Nat.zero_lt_of_lt inside) (size ▸ inside)
  refine ⟨⟨⟨size ▸ Nat.zero_lt_of_lt inside, size ▸ Nat.zero_lt_of_lt inside, size ▸ inside, ?_⟩, ?_, ?_, ?_⟩, ?_⟩
  · rw [count, Nat.zero_add]
    exact space
  · intro slot member
    obtain ⟨index, -, rfl⟩ := List.mem_map.mp member
    exact (loaded index).coherent
  · intro slot member
    obtain ⟨index, -, rfl⟩ := List.mem_map.mp member
    exact loaded index
  · intro slot member
    obtain ⟨index, -, rfl⟩ := List.mem_map.mp member
    exact loaded index
  · exact size.trans_le small

/-- Four rings of two slots, and a multicast that has sent nothing. -/
def openedPlane : DataPlane Nat where
  rx
    | .nic => openedRing [1, 2] 0
    | .host => openedRing [3, 4] 0
  tx
    | .nic => openedRing [5, 6] 1
    | .host => openedRing [7, 8] 1
  buffers _ := List.replicate 2048 0
  world := 0
  cursor := ⟨0, [10, 20, 30], 0⟩
  moveFlip := false
  arrived _ := []
  departed _ := []

theorem openedPlane_opened : openedPlane.Opened := by
  refine ⟨⟨?_, ?_, ?_⟩, ?_, ?_, fun _ => rfl, fun _ => rfl⟩
  · intro port
    cases port
    · exact openedRing_ok (by decide) (by decide)
    · exact openedRing_ok (by decide) (by decide)
  · intro port
    cases port
    · exact openedRing_ok (by decide) (by decide)
    · exact openedRing_ok (by decide) (by decide)
  · intro bufIdx
    have distinct : ([1, 2, 5, 6, 3, 4, 7, 8] : List UInt32).Nodup := by decide
    have total : openedPlane.uses bufIdx = ([1, 2] : List UInt32).count bufIdx + ([5, 6] : List UInt32).count bufIdx +
        (([3, 4] : List UInt32).count bufIdx + ([7, 8] : List UInt32).count bufIdx) := rfl
    rw [total, ← List.count_append, ← List.count_append, ← List.count_append]
    exact List.nodup_iff_count_le_one.mp distinct bufIdx
  · intro port
    cases port
    · rfl
    · rfl
  · intro port
    cases port
    · rfl
    · rfl

end RepublicAgent
