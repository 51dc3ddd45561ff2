/-
This file views the rings of netmap as rings that are shared with the kernel. A call that forwards packets moves the
slots of one ring and puts their buffers into the slots of the other.
-/

import RepublicAgent.Library.Execution
import RepublicAgent.Library.SharedRing
import RepublicAgent.Sender.HostTraffic

namespace RepublicAgent
open CyclicWindow Execution MachineInteger

/-- The kernel keeps its position in a ring, and for each slot the buffer that the card uses. -/
structure KernelRing where
  ring : NetmapRing
  hwcur : Nat
  mapped : Nat → UInt32

/-- A slot with the buffer that the card uses for it. -/
abbrev MappedSlot := NetmapSlot × UInt32

/-- The bytes of a buffer and the length of the packet in them. -/
abbrev NetFrame := List UInt8 × Nat

/-- The program has come to a position of the ring. -/
def sharedView (ring : NetmapRing) (hwcur : Nat) (mapped : Nat → UInt32) (position : Nat) : SharedRing MappedSlot where
  numSlots := ring.slot.length
  slots index := (ring.slot.getD index ⟨0, 0, 0⟩, mapped index)
  kernel := hwcur
  head := position
  tail := ring.tail

def KernelRing.shared (kr : KernelRing) : SharedRing MappedSlot := sharedView kr.ring kr.hwcur kr.mapped kr.ring.cur

/-- The buffer of a reported slot is loaded for the card, and the report is cleared. -/
def reload (slot : MappedSlot) : MappedSlot :=
  if slot.1.flags &&& nsBufChanged = 0 then slot
  else ({ slot.1 with flags := slot.1.flags &&& ~~~nsBufChanged }, slot.1.bufIdx)

/-- The card uses the buffer of the slot. -/
def Loaded (slot : MappedSlot) : Prop := slot.1.flags &&& nsBufChanged = 0 ∧ slot.2 = slot.1.bufIdx

/-- A slot with another buffer than that of the card is reported. -/
def Coherent (slot : MappedSlot) : Prop := slot.1.flags &&& nsBufChanged = 0 → slot.2 = slot.1.bufIdx

def frameIn (buffers : UInt32 → List UInt8) (slot : MappedSlot) : NetFrame :=
  (buffers slot.1.bufIdx, slot.1.len.toNat)

/-- Only released slots can be reported. -/
structure RingOk (ring : SharedRing MappedSlot) : Prop where
  sound : ring.Sound
  released : ∀ slot ∈ ring.released, Coherent slot
  owned : ∀ slot ∈ ring.owned, Loaded slot
  reserved : ∀ slot ∈ ring.reserved, Loaded slot

/-- The number of slots with a buffer. -/
def holders (slots : List MappedSlot) (bufIdx : UInt32) : Nat := (slots.map fun slot => slot.1.bufIdx).count bufIdx

def uses (ring : SharedRing MappedSlot) (bufIdx : UInt32) : Nat :=
  holders (ring.released ++ ring.owned ++ ring.reserved) bufIdx

section Slots

variable {slot : MappedSlot}

theorem Loaded.coherent (loaded : Loaded slot) : Coherent slot := fun _ => loaded.2

theorem reload_bufIdx (slot : MappedSlot) : (reload slot).1.bufIdx = slot.1.bufIdx := by
  unfold reload
  split_ifs
  · rfl
  · rfl

theorem reload_len (slot : MappedSlot) : (reload slot).1.len = slot.1.len := by
  unfold reload
  split_ifs
  · rfl
  · rfl

/-- The card uses the buffer of a slot that was loaded. -/
theorem Coherent.reload (coherent : Coherent slot) : Loaded (reload slot) := by
  unfold RepublicAgent.reload
  split_ifs with clear
  · exact ⟨clear, coherent clear⟩
  · refine ⟨?_, rfl⟩
    rw [UInt16.and_assoc]
    have cleared : ~~~nsBufChanged &&& nsBufChanged = 0 := by decide
    rw [cleared, UInt16.and_zero]

/-- A reported slot is coherent. -/
theorem coherent_reported {changed : MappedSlot} {flags : UInt16} (reported : changed.1.flags = flags ||| nsBufChanged) :
    Coherent changed := by
  intro clear
  rw [reported] at clear
  have both : (flags ||| nsBufChanged) &&& nsBufChanged = nsBufChanged := by
    apply UInt16.toNat.inj
    apply Nat.eq_of_testBit_eq
    intro bit
    rw [UInt16.toNat_and, UInt16.toNat_or, Nat.testBit_and, Nat.testBit_or]
    cases nsBufChanged.toNat.testBit bit with
    | false => exact Bool.and_false _
    | true => rw [Bool.or_true, Bool.and_true]
  rw [both] at clear
  exact absurd clear (by decide)

end Slots

section Uses

variable {ring : SharedRing MappedSlot} {first other slot : MappedSlot} {rest : List MappedSlot}

theorem holders_append (first second : List MappedSlot) (bufIdx : UInt32) :
    holders (first ++ second) bufIdx = holders first bufIdx + holders second bufIdx := by
  rw [holders, List.map_append, List.count_append]
  rfl

theorem holders_cons (slot : MappedSlot) (slots : List MappedSlot) (bufIdx : UInt32) :
    holders (slot :: slots) bufIdx = holders slots bufIdx + [slot.1.bufIdx].count bufIdx := by
  rw [holders, List.map_cons, List.count_cons, List.count_singleton]
  rfl

@[simp] theorem holders_nil (bufIdx : UInt32) : holders [] bufIdx = 0 := rfl

theorem uses_eq (ring : SharedRing MappedSlot) (bufIdx : UInt32) : uses ring bufIdx =
    holders ring.released bufIdx + holders ring.owned bufIdx + holders ring.reserved bufIdx := by
  rw [uses, holders_append, holders_append]

/-- A buffer without holders is in no slot. -/
theorem holders_pos {slots : List MappedSlot} (member : slot ∈ slots) : 0 < holders slots slot.1.bufIdx :=
  List.count_pos_iff.mpr (List.mem_map_of_mem member)

/-- A slot that is released can get another buffer. -/
theorem RingOk.release (ok : RingOk ring) (owned : ring.owned = first :: rest) (coherent : Coherent slot) :
    RingOk (ring.release slot) ∧ ∀ bufIdx, uses (ring.release slot) bufIdx + [first.1.bufIdx].count bufIdx =
      uses ring bufIdx + [slot.1.bufIdx].count bufIdx := by
  obtain ⟨-, sound, released, left, reserved⟩ := ok.sound.release owned slot
  refine ⟨⟨sound, ?_, ?_, ?_⟩, fun bufIdx => ?_⟩
  · intro one member
    rw [released] at member
    rcases List.mem_append.mp member with before | new
    · exact ok.released one before
    · exact List.mem_singleton.mp new ▸ coherent
  · intro one member
    rw [left] at member
    exact ok.owned one (owned ▸ List.mem_cons_of_mem _ member)
  · exact reserved ▸ ok.reserved
  · rw [uses_eq, uses_eq, released, left, reserved, owned]
    simp only [holders_append, holders_cons, holders_nil]
    omega

/-- The kernel keeps the buffer of a slot that it collects. -/
theorem RingOk.collect (ok : RingOk ring) (released : ring.released = first :: rest) :
    RingOk (ring.collect (reload first)) ∧ ∀ bufIdx, uses (ring.collect (reload first)) bufIdx = uses ring bufIdx := by
  obtain ⟨-, sound, left, owned, reserved⟩ := ok.sound.collect released (reload first)
  have coherent := ok.released first (released ▸ List.mem_cons_self)
  refine ⟨⟨sound, ?_, ?_, ?_⟩, fun bufIdx => ?_⟩
  · intro one member
    rw [left] at member
    exact ok.released one (released ▸ List.mem_cons_of_mem _ member)
  · exact owned ▸ ok.owned
  · intro one member
    rw [reserved] at member
    rcases List.mem_append.mp member with before | new
    · exact ok.reserved one before
    · exact List.mem_singleton.mp new ▸ coherent.reload
  · rw [uses_eq, uses_eq, reserved, left, owned, released]
    simp only [holders_append, holders_cons, holders_nil, reload_bufIdx]
    omega

theorem RingOk.supply (ok : RingOk ring) (reserved : ring.reserved = first :: other :: rest) (loaded : Loaded slot)
    (same : slot.1.bufIdx = first.1.bufIdx) :
    RingOk (ring.supply slot) ∧ ∀ bufIdx, uses (ring.supply slot) bufIdx = uses ring bufIdx := by
  obtain ⟨-, sound, released, owned, left⟩ := ok.sound.supply reserved slot
  refine ⟨⟨sound, ?_, ?_, ?_⟩, fun bufIdx => ?_⟩
  · exact released ▸ ok.released
  · intro one member
    rw [owned] at member
    rcases List.mem_append.mp member with before | new
    · exact ok.owned one before
    · exact List.mem_singleton.mp new ▸ loaded
  · intro one member
    rw [left] at member
    exact ok.reserved one (reserved ▸ List.mem_cons_of_mem _ member)
  · rw [uses_eq, uses_eq, released, owned, left, reserved]
    simp only [holders_append, holders_cons, holders_nil, same]
    omega

end Uses

section Views

variable {ring : NetmapRing} {hwcur position : Nat} {mapped : Nat → UInt32}

@[simp] theorem sharedView_head : (sharedView ring hwcur mapped position).head = position := rfl

/-- A slot that is set in the ring is set in the view. -/
theorem sharedView_set {index : Nat} (inside : index < ring.slot.length) (slot : NetmapSlot) :
    sharedView { ring with slot := ring.slot.set index slot } hwcur mapped position =
      (sharedView ring hwcur mapped position).modify index (slot, mapped index) := by
  unfold sharedView SharedRing.modify
  simp only [List.length_set, SharedRing.mk.injEq, true_and, and_true]
  funext other
  by_cases same : other = index
  · subst same
    rw [Function.update_self, List.getD_eq_getElem?_getD, List.getElem?_set_self inside, Option.getD_some]
  · rw [Function.update_of_ne same, List.getD_eq_getElem?_getD, List.getElem?_set_ne (Ne.symm same),
      List.getD_eq_getElem?_getD]

theorem sharedView_slot {index : Nat} {slot : NetmapSlot} (present : ring.slot[index]? = some slot) :
    (sharedView ring hwcur mapped position).slots index = (slot, mapped index) := by
  unfold sharedView
  dsimp only
  rw [List.getD_eq_getElem?_getD, present, Option.getD_some]

end Views

/-- The first packets of `rx` are taken. Those of the fast path are handled, and the others stand at the end of `tx`.
Every buffer still has as many slots. -/
structure Moves {World : Type} (channel : DataChannel World) (dirc : Direction) (count : Nat)
    (rx tx : SharedRing MappedSlot) (world : World) (rxNext txNext : SharedRing MappedSlot) (worldNext : World) :
    Prop where
  rxOk : RingOk rxNext
  txOk : RingOk txNext
  moved : ∃ taken : List MappedSlot, taken.length = count ∧ rx.owned = taken ++ rxNext.owned ∧
    txNext.released.map (frameIn channel.netmapBuf) = tx.released.map (frameIn channel.netmapBuf) ++
      (taken.map (frameIn channel.netmapBuf)).filter (fun frame => !isFastPath dirc frame.1) ∧
    execute channel.receive world (((taken.map (frameIn channel.netmapBuf)).filter
      fun frame => isFastPath dirc frame.1).map Prod.fst) = .ok worldNext
  sizes : rxNext.numSlots = rx.numSlots ∧ txNext.numSlots = tx.numSlots
  room : tx.space ≤ txNext.space + count
  kept : ∀ bufIdx, uses rxNext bufIdx + uses txNext bufIdx = uses rx bufIdx + uses tx bufIdx

section Moving

variable {World : Type} {channel : DataChannel World} {dirc : Direction} {rx tx rxNext txNext rxLast txLast :
  SharedRing MappedSlot} {world worldNext worldLast : World} {count more : Nat}

theorem Moves.refl (rxOk : RingOk rx) (txOk : RingOk tx) : Moves channel dirc 0 rx tx world rx tx world :=
  ⟨rxOk, txOk, ⟨[], rfl, rfl, (List.append_nil _).symm, rfl⟩, ⟨rfl, rfl⟩, le_rfl, fun _ => rfl⟩

theorem Moves.trans (first : Moves channel dirc count rx tx world rxNext txNext worldNext)
    (second : Moves channel dirc more rxNext txNext worldNext rxLast txLast worldLast) :
    Moves channel dirc (count + more) rx tx world rxLast txLast worldLast := by
  obtain ⟨taken, length, owned, frames, handled⟩ := first.moved
  obtain ⟨later, lengthLater, ownedLater, framesLater, handledLater⟩ := second.moved
  refine ⟨second.rxOk, second.txOk, ⟨taken ++ later, ?_, ?_, ?_, ?_⟩,
    ⟨second.sizes.1.trans first.sizes.1, second.sizes.2.trans first.sizes.2⟩, ?_, fun bufIdx => ?_⟩
  · rw [List.length_append, length, lengthLater]
  · rw [owned, ownedLater, List.append_assoc]
  · rw [framesLater, frames, List.map_append, List.filter_append, List.append_assoc]
  · rw [List.map_append, List.filter_append, List.map_append]
    exact execute_append_ok.mpr ⟨worldNext, handled, handledLater⟩
  · have before := first.room
    have after := second.room
    omega
  · rw [second.kept, first.kept]

variable {pass next : RingPass World} {rxCur txCur : Nat} {rxMapped txMapped : Nat → UInt32}

/-- One slot of the loop moves one packet. -/
theorem processSlot_moves (documented : channel.netmap.Documented)
    (rxOk : RingOk (sharedView pass.rxring rxCur rxMapped pass.j))
    (txOk : RingOk (sharedView pass.txring txCur txMapped pass.k))
    (received : (sharedView pass.rxring rxCur rxMapped pass.j).space ≠ 0)
    (free : (sharedView pass.txring txCur txMapped pass.k).space ≠ 0)
    (taken : processSlot channel dirc pass = .ok next) :
    Moves channel dirc 1 (sharedView pass.rxring rxCur rxMapped pass.j) (sharedView pass.txring txCur txMapped pass.k)
      pass.world (sharedView next.rxring rxCur rxMapped next.j) (sharedView next.txring txCur txMapped next.k)
      next.world := by
  have jInside : pass.j < pass.rxring.slot.length := rxOk.sound.headInside
  have kInside : pass.k < pass.txring.slot.length := txOk.sound.headInside
  obtain ⟨rs, slot⟩ : ∃ rs, pass.rxring.slot[pass.j]? = some rs := ⟨_, List.getElem?_eq_getElem jInside⟩
  obtain ⟨ts, room⟩ : ∃ ts, pass.txring.slot[pass.k]? = some ts := ⟨_, List.getElem?_eq_getElem kInside⟩
  have jNext := documented.next pass.rxring pass.j jInside
  have kNext := documented.next pass.txring pass.k kInside
  obtain ⟨rest, owned⟩ := rxOk.sound.owned_cons received
  obtain ⟨others, available⟩ := txOk.sound.owned_cons free
  rw [sharedView_head, sharedView_slot slot] at owned
  rw [sharedView_head, sharedView_slot room] at available
  simp only [processSlot, slot, room] at taken
  split at taken
  · next fast =>
      split at taken
      · cases taken
      · next world handled =>
          obtain rfl := Except.ok.inj taken
          have loaded : Loaded (rs, rxMapped pass.j) := rxOk.owned _ (owned ▸ List.mem_cons_self)
          obtain ⟨ok, kept⟩ := rxOk.release owned loaded.coherent
          have released := rxOk.sound.release owned (rs, rxMapped pass.j)
          have view : sharedView pass.rxring rxCur rxMapped (channel.netmap.nmRingNext pass.rxring pass.j) =
              (sharedView pass.rxring rxCur rxMapped pass.j).release (rs, rxMapped pass.j) := by
            rw [← released.1, SharedRing.release_self, jNext]
            rfl
          dsimp only
          rw [view]
          refine ⟨ok, txOk, ⟨[(rs, rxMapped pass.j)], rfl, ?_, ?_, ?_⟩, ⟨rfl, rfl⟩, Nat.le_succ _, fun bufIdx => ?_⟩
          · rw [released.2.2.2.1, owned]
            rfl
          · simp [frameIn, fast]
          · simp [frameIn, fast, execute, handled]
          · have same := kept bufIdx
            omega
  · next slow =>
      obtain rfl := Except.ok.inj taken
      have reportedRx : Coherent (rs.exchange ts, rxMapped pass.j) := coherent_reported rfl
      have reportedTx : Coherent (ts.take rs, txMapped pass.k) := coherent_reported rfl
      obtain ⟨ok, kept⟩ := rxOk.release owned reportedRx
      obtain ⟨okTx, keptTx⟩ := txOk.release available reportedTx
      have released := rxOk.sound.release owned (rs.exchange ts, rxMapped pass.j)
      have releasedTx := txOk.sound.release available (ts.take rs, txMapped pass.k)
      have view : sharedView { pass.rxring with slot := pass.rxring.slot.set pass.j (rs.exchange ts) } rxCur rxMapped
          (channel.netmap.nmRingNext pass.rxring pass.j) =
          (sharedView pass.rxring rxCur rxMapped pass.j).release (rs.exchange ts, rxMapped pass.j) := by
        rw [sharedView_set jInside, jNext]
        rfl
      have viewTx : sharedView { pass.txring with slot := pass.txring.slot.set pass.k (ts.take rs) } txCur txMapped
          (channel.netmap.nmRingNext pass.txring pass.k) =
          (sharedView pass.txring txCur txMapped pass.k).release (ts.take rs, txMapped pass.k) := by
        rw [sharedView_set kInside, kNext]
        rfl
      unfold RingPass.swap
      dsimp only
      rw [view, viewTx]
      refine ⟨ok, okTx, ⟨[(rs, rxMapped pass.j)], rfl, ?_, ?_, ?_⟩, ⟨rfl, rfl⟩, ?_, fun bufIdx => ?_⟩
      · rw [released.2.2.2.1, owned]
        rfl
      · rw [releasedTx.2.2.1, List.map_append]
        simp [frameIn, slow, NetmapSlot.take]
      · simp [frameIn, slow]
      · have before := congrArg List.length available
        have after := congrArg List.length releasedTx.2.2.2.1
        rw [SharedRing.owned_length, List.length_cons] at before
        rw [SharedRing.owned_length] at after
        omega
      · have rxUses : _ + [rs.bufIdx].count bufIdx = _ + [ts.bufIdx].count bufIdx := kept bufIdx
        have txUses : _ + [ts.bufIdx].count bufIdx = _ + [rs.bufIdx].count bufIdx := keptTx bufIdx
        omega

/-- A packet that is moved leaves the owned slots. -/
theorem Moves.space (moves : Moves channel dirc count rx tx world rxNext txNext worldNext) :
    rx.space = rxNext.space + count := by
  obtain ⟨taken, length, owned, -, -⟩ := moves.moved
  have same := congrArg List.length owned
  rw [List.length_append, SharedRing.owned_length, SharedRing.owned_length] at same
  omega

/-- The loop moves the packets of its slots. -/
theorem processSlots_moves (documented : channel.netmap.Documented)
    (rxOk : RingOk (sharedView pass.rxring rxCur rxMapped pass.j))
    (txOk : RingOk (sharedView pass.txring txCur txMapped pass.k))
    (received : count ≤ (sharedView pass.rxring rxCur rxMapped pass.j).space)
    (free : count ≤ (sharedView pass.txring txCur txMapped pass.k).space)
    (taken : processSlots channel dirc count pass = .ok next) :
    Moves channel dirc count (sharedView pass.rxring rxCur rxMapped pass.j)
      (sharedView pass.txring txCur txMapped pass.k) pass.world (sharedView next.rxring rxCur rxMapped next.j)
      (sharedView next.txring txCur txMapped next.k) next.world := by
  induction count generalizing pass with
  | zero =>
      obtain rfl := Except.ok.inj taken
      exact .refl rxOk txOk
  | succ count ih =>
      rw [processSlots] at taken
      split at taken
      · cases taken
      · next middle first =>
          have moves := processSlot_moves documented rxOk txOk (by omega) (by omega) first
          have space := moves.space
          have room := moves.room
          have rest := ih moves.rxOk moves.txOk (by omega) (by omega) taken
          rw [Nat.add_comm]
          exact moves.trans rest

/-- The number of slots is never larger than the spaces of the rings. -/
theorem maxPktnum_le {netmap : Netmap} (documented : netmap.Documented) {rxring txring : NetmapRing}
    (rxValid : rxring.Valid) (txValid : txring.Valid) (limit : Nat) :
    (maxPktnum netmap rxring txring limit).toNat ≤ distance rxring.slot.length rxring.cur rxring.tail ∧
      (maxPktnum netmap rxring txring limit).toNat ≤ distance txring.slot.length txring.cur txring.tail := by
  have rxSpace := distance_lt rxValid.cur rxValid.tail
  have txSpace := distance_lt txValid.cur txValid.tail
  have rxSmall := rxValid.small
  have txSmall := txValid.small
  unfold maxPktnum
  rw [documented.space rxring rxValid, documented.space txring txValid, s32_eq (by omega) (by omega),
    s32_eq (by omega) (by omega)]
  dsimp only
  split_ifs <;> omega

end Moving

/-- The kernel and the program have consistent positions in a ring of a size that can be counted. -/
structure KernelRing.Ok (kr : KernelRing) : Prop where
  ok : RingOk kr.shared
  small : kr.ring.slot.length ≤ 2147483648

theorem KernelRing.Ok.valid {kr : KernelRing} (ok : kr.Ok) : kr.ring.Valid :=
  ⟨ok.ok.sound.headInside, ok.ok.sound.tailInside, ok.small⟩

/-- A call moves some of the packets that the program owns. -/
theorem processRings_moves {World : Type} {channel : DataChannel World} (documented : channel.netmap.Documented)
    {rx tx : KernelRing} (rxOk : rx.Ok) (txOk : tx.Ok) {limit : Nat} {dirc : Direction} {world : World}
    {outcome : NetmapRing × NetmapRing × World × Nat}
    (taken : channel.processRings rx.ring tx.ring limit dirc world = .ok outcome) :
    ∃ count, Moves channel dirc count rx.shared tx.shared world { rx with ring := outcome.1 }.shared
      { tx with ring := outcome.2.1 }.shared outcome.2.2.1 := by
  obtain ⟨received, free⟩ := maxPktnum_le documented rxOk.valid txOk.valid limit
  unfold DataChannel.processRings at taken
  cases ended : processSlots channel dirc (maxPktnum channel.netmap rx.ring tx.ring limit).toNat
      ⟨rx.ring, tx.ring, rx.ring.cur, tx.ring.cur, 0, world⟩ with
  | error fault =>
      rw [ended] at taken
      cases taken
  | ok pass =>
      rw [ended] at taken
      obtain rfl := Except.ok.inj taken
      exact ⟨_, @processSlots_moves World channel dirc _ ⟨rx.ring, tx.ring, rx.ring.cur, tx.ring.cur, 0, world⟩ pass
        rx.hwcur tx.hwcur rx.mapped tx.mapped documented rxOk.ok txOk.ok received free ended⟩

end RepublicAgent
