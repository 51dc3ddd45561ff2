/-
This file models how the data channel thread forwards packets between the rings of the card and of the host. It
swaps the buffers of the slots and copies no packet.
-/

import RepublicAgent.Channel.Receive
import RepublicAgent.Library.CyclicWindow

namespace RepublicAgent
open BigEndian CyclicWindow MachineInteger

/-- A slot of a netmap ring names its buffer by an index. -/
structure NetmapSlot where
  bufIdx : UInt32
  len : UInt16
  flags : UInt16
deriving DecidableEq, Repr

structure NetmapRing where
  slot : List NetmapSlot
  head : Nat
  cur : Nat
  tail : Nat
deriving DecidableEq, Repr

/-- The functions of the netmap library. -/
structure Netmap where
  nmRingSpace : NetmapRing → Nat
  nmRingNext : NetmapRing → Nat → Nat

/-- The pointers of a ring lie in it, and its slots can be counted in `pktnum_t`. -/
structure NetmapRing.Valid (ring : NetmapRing) : Prop where
  cur : ring.cur < ring.slot.length
  tail : ring.tail < ring.slot.length
  small : ring.slot.length ≤ 2147483648

/-- The slots between `cur` and `tail` belong to the program, and the last slot is followed by the first. -/
structure Netmap.Documented (netmap : Netmap) : Prop where
  space : ∀ ring : NetmapRing, ring.Valid → netmap.nmRingSpace ring = distance ring.slot.length ring.cur ring.tail
  next : ∀ (ring : NetmapRing) (index : Nat), index < ring.slot.length →
    netmap.nmRingNext ring index = if index + 1 = ring.slot.length then 0 else index + 1

/-- The directions `NM_H2N` and `NM_N2H`. -/
inductive Direction where
  | hostToNic
  | nicToHost
deriving DecidableEq, Repr

/-- The flag `NS_BUF_CHANGED` reports a new buffer to netmap. -/
def nsBufChanged : UInt16 := 1

/-- The values `IPPROTO_UDP`, `DATA_DST_PORT` and `ETH_P_IP` mark the packets of the fast path. -/
def isFastPath (dirc : Direction) (packet : List UInt8) : Bool :=
  decode (field packet 23 1) = 17 ∧ decode (field packet 36 2) = 0x6262 ∧ decode (field packet 12 2) = 0x0800 ∧
    dirc = .nicToHost

/-- The index of the next receive slot is `j`, that of the next transmit slot is `k`. The receivers of the fast path
have the state `world`. -/
structure RingPass (World : Type) where
  rxring : NetmapRing
  txring : NetmapRing
  j : Nat
  k : Nat
  nonmultiPktnum : Nat
  world : World

/-- What the functions of the data channel thread share: the buffers and the handler of the fast path. -/
structure DataChannel (World : Type) where
  netmap : Netmap
  netmapBuf : UInt32 → List UInt8
  receive : World → List UInt8 → Except Fault World

section Functions

variable {World : Type}

/-- The transmit slot takes the packet of the receive slot. -/
def NetmapSlot.take (ts rs : NetmapSlot) : NetmapSlot :=
  { ts with len := rs.len, bufIdx := rs.bufIdx, flags := ts.flags ||| nsBufChanged }

/-- The receive slot gets the buffer of the transmit slot. -/
def NetmapSlot.exchange (rs ts : NetmapSlot) : NetmapSlot :=
  { rs with bufIdx := ts.bufIdx, flags := rs.flags ||| nsBufChanged }

/-- The slots exchange their buffers. -/
def RingPass.swap (netmap : Netmap) (pass : RingPass World) (rs ts : NetmapSlot) : RingPass World :=
  { pass with
    txring := { pass.txring with slot := pass.txring.slot.set pass.k (ts.take rs) }
    rxring := { pass.rxring with slot := pass.rxring.slot.set pass.j (rs.exchange ts) }
    k := netmap.nmRingNext pass.txring pass.k
    nonmultiPktnum := pass.nonmultiPktnum + 1 }

/-- A packet of the fast path goes to its receiver, and any other packet is forwarded. -/
def processSlot (channel : DataChannel World) (dirc : Direction) (pass : RingPass World) :
    Except Fault (RingPass World) :=
  match pass.rxring.slot[pass.j]? with
  | none => .error .badPointer
  | some rs =>
      let j := channel.netmap.nmRingNext pass.rxring pass.j
      if isFastPath dirc (channel.netmapBuf rs.bufIdx) then
        match channel.receive pass.world (channel.netmapBuf rs.bufIdx) with
        | .error fault => .error fault
        | .ok world => .ok { pass with world := world, j := j }
      else
        match pass.txring.slot[pass.k]? with
        | none => .error .badPointer
        | some ts => .ok { pass.swap channel.netmap rs ts with j := j }

def processSlots (channel : DataChannel World) (dirc : Direction) :
    Nat → RingPass World → Except Fault (RingPass World)
  | 0, pass => .ok pass
  | mi + 1, pass =>
      match processSlot channel dirc pass with
      | .error fault => .error fault
      | .ok next => processSlots channel dirc mi next

/-- The number of slots is signed, and a negative one ends the loop at once. -/
def maxPktnum (netmap : Netmap) (rxring txring : NetmapRing) (limit : Nat) : Int :=
  let rxPktnum := s32 (netmap.nmRingSpace rxring)
  let txPktnum := s32 (netmap.nmRingSpace txring)
  let received := if rxPktnum < s32 limit then rxPktnum else s32 limit
  if txPktnum < received then txPktnum else received

/-- The rings behind the loop with the number of forwarded packets. -/
def RingPass.store (pass : RingPass World) : NetmapRing × NetmapRing × World × Nat :=
  ({ pass.rxring with head := pass.j, cur := pass.j }, { pass.txring with head := pass.k, cur := pass.k },
    pass.world, pass.nonmultiPktnum)

/-- Up to `limit` packets are taken from `rxring`. The number of forwarded ones is returned. -/
def DataChannel.processRings (channel : DataChannel World) (rxring txring : NetmapRing) (limit : Nat)
    (dirc : Direction)
    (world : World) : Except Fault (NetmapRing × NetmapRing × World × Nat) :=
  (processSlots channel dirc (maxPktnum channel.netmap rxring txring limit).toNat
    ⟨rxring, txring, rxring.cur, txring.cur, 0, world⟩).map RingPass.store

/-- The packets in `count` slots of a ring. -/
def ringPackets (slots : List NetmapSlot) (first count : Nat) : List NetmapSlot :=
  (window slots.length first count).filterMap fun index => slots[index]?

/-- The packets that go to the other ring. -/
def hostPackets (channel : DataChannel World) (dirc : Direction) (slots : List NetmapSlot) (first count : Nat) :
    List NetmapSlot :=
  (ringPackets slots first count).filter fun rs => !isFastPath dirc (channel.netmapBuf rs.bufIdx)

/-- The packets are taken from the first slots of `rxring`, and those for the other ring are there behind one
another. Every buffer still has its slot. -/
structure Forwarded (channel : DataChannel World) (rxring txring : NetmapRing) (count : Nat) (dirc : Direction)
    (outcome : NetmapRing × NetmapRing × World × Nat) : Prop where
  consumed : outcome.1.cur = (rxring.cur + count) % rxring.slot.length ∧ outcome.1.head = outcome.1.cur
  returned : outcome.2.2.2 = (hostPackets channel dirc rxring.slot rxring.cur count).length
  advanced : outcome.2.1.cur = (txring.cur + outcome.2.2.2) % txring.slot.length ∧
    outcome.2.1.head = outcome.2.1.cur
  placed : ∀ index rs, (hostPackets channel dirc rxring.slot rxring.cur count)[index]? = some rs →
    ∃ ts, txring.slot[(txring.cur + index) % txring.slot.length]? = some ts ∧
      outcome.2.1.slot[(txring.cur + index) % txring.slot.length]? = some (ts.take rs)
  kept : ∀ position, position ∉ window txring.slot.length txring.cur outcome.2.2.2 →
    outcome.2.1.slot[position]? = txring.slot[position]?
  conserved : (outcome.1.slot.map NetmapSlot.bufIdx ++ outcome.2.1.slot.map NetmapSlot.bufIdx).Perm
    (rxring.slot.map NetmapSlot.bufIdx ++ txring.slot.map NetmapSlot.bufIdx)

end Functions

section Passes

variable {World : Type} {channel : DataChannel World} {dirc : Direction} {pass next : RingPass World}

/-- The last slot is followed by the first. -/
theorem Netmap.Documented.next_eq {netmap : Netmap} (documented : netmap.Documented) {ring : NetmapRing}
    {index : Nat}
    (inside : index < ring.slot.length) : netmap.nmRingNext ring index = (index + 1) % ring.slot.length := by
  rw [documented.next ring index inside, mod_next_round (by omega)]
  split_ifs <;> omega

/-- The exchange of two buffers keeps all of them. -/
theorem exchange_perm {rxslots txslots : List NetmapSlot} {j k : Nat} {rs ts : NetmapSlot}
    (received : rxslots[j]? = some rs) (free : txslots[k]? = some ts) :
    ((rxslots.set j (rs.exchange ts)).map NetmapSlot.bufIdx ++
      (txslots.set k (ts.take rs)).map NetmapSlot.bufIdx).Perm
        (rxslots.map NetmapSlot.bufIdx ++ txslots.map NetmapSlot.bufIdx) := by
  obtain ⟨rxInside, rfl⟩ := List.getElem?_eq_some_iff.mp received
  obtain ⟨txInside, rfl⟩ := List.getElem?_eq_some_iff.mp free
  have rxNew := (List.set_perm_cons_eraseIdx rxInside (rxslots[j].exchange txslots[k])).map NetmapSlot.bufIdx
  have txNew := (List.set_perm_cons_eraseIdx txInside (txslots[k].take rxslots[j])).map NetmapSlot.bufIdx
  have rxOld := (List.getElem_cons_eraseIdx_perm rxInside).map NetmapSlot.bufIdx
  have txOld := (List.getElem_cons_eraseIdx_perm txInside).map NetmapSlot.bufIdx
  refine (rxNew.append txNew).trans (List.Perm.trans ?_ (rxOld.append txOld))
  simp only [List.map_cons, NetmapSlot.exchange, NetmapSlot.take]
  refine List.perm_middle.trans (List.Perm.trans ?_ List.perm_middle.symm)
  exact List.Perm.swap _ _ _

/-- A slot before the window does not change its packets. -/
theorem ringPackets_set {slots : List NetmapSlot} {first count : Nat} (inside : first < slots.length)
    (fits : count + 1 ≤ slots.length) (changed : NetmapSlot) :
    ringPackets (slots.set first changed) (first + 1) count = ringPackets slots (first + 1) count := by
  have distinct := window_nodup inside fits
  rw [window_succ, Nat.mod_eq_of_lt inside, List.nodup_cons] at distinct
  unfold ringPackets
  rw [List.length_set]
  apply List.filterMap_congr
  intro index member
  have other : first ≠ index := by
    rintro rfl
    exact distinct.1 member
  exact List.getElem?_set_ne other

theorem ringPackets_mod (slots : List NetmapSlot) (first count : Nat) :
    ringPackets slots (first % slots.length) count = ringPackets slots first count := by
  rw [ringPackets, window_mod]
  rfl

theorem ringPackets_succ {slots : List NetmapSlot} {first count : Nat} {rs : NetmapSlot}
    (received : slots[first]? = some rs) :
    ringPackets slots first (count + 1) = rs :: ringPackets slots (first + 1) count := by
  have inside := (List.getElem?_eq_some_iff.mp received).1
  rw [ringPackets, window_succ, Nat.mod_eq_of_lt inside, List.filterMap_cons_some received]
  rfl

/-- What some slots of the loop change. -/
structure Passed (channel : DataChannel World) (dirc : Direction) (count : Nat) (pass next : RingPass World) :
    Prop where
  j : next.j = (pass.j + count) % pass.rxring.slot.length
  nonmultiPktnum : next.nonmultiPktnum =
    pass.nonmultiPktnum + (hostPackets channel dirc pass.rxring.slot pass.j count).length
  k : next.k = (pass.k + (hostPackets channel dirc pass.rxring.slot pass.j count).length) %
    pass.txring.slot.length
  txslots : next.txring.slot = writeWindow NetmapSlot.take pass.txring.slot pass.k
    (hostPackets channel dirc pass.rxring.slot pass.j count)
  conserved : (next.rxring.slot.map NetmapSlot.bufIdx ++ next.txring.slot.map NetmapSlot.bufIdx).Perm
    (pass.rxring.slot.map NetmapSlot.bufIdx ++ pass.txring.slot.map NetmapSlot.bufIdx)

/-- A packet of the fast path is not among the others. -/
theorem hostPackets_fast {slots : List NetmapSlot} {first count : Nat} {rs : NetmapSlot}
    (received : slots[first]? = some rs) (fast : isFastPath dirc (channel.netmapBuf rs.bufIdx) = true) :
    hostPackets channel dirc slots first (count + 1) =
      hostPackets channel dirc slots ((first + 1) % slots.length) count := by
  rw [hostPackets, hostPackets, ringPackets_succ received, ringPackets_mod, List.filter_cons_of_neg (by simp [fast])]

theorem hostPackets_slow {slots : List NetmapSlot} {first count : Nat} {rs : NetmapSlot}
    (received : slots[first]? = some rs) (slow : isFastPath dirc (channel.netmapBuf rs.bufIdx) = false)
    (fits : count + 1 ≤ slots.length) (changed : NetmapSlot) :
    hostPackets channel dirc slots first (count + 1) =
      rs :: hostPackets channel dirc (slots.set first changed) ((first + 1) % slots.length) count := by
  have inside := (List.getElem?_eq_some_iff.mp received).1
  have rest := ringPackets_mod (slots.set first changed) (first + 1) count
  rw [List.length_set, ringPackets_set inside fits] at rest
  rw [hostPackets, hostPackets, rest, ringPackets_succ received, List.filter_cons_of_pos (by simp [slow])]

/-- A packet of the fast path leaves the slots. -/
theorem Passed.fast {count : Nat} {rs : NetmapSlot} (slot : pass.rxring.slot[pass.j]? = some rs)
    (fast : isFastPath dirc (channel.netmapBuf rs.bufIdx) = true) (world : World)
    (rest : Passed channel dirc count
      { pass with world := world, j := (pass.j + 1) % pass.rxring.slot.length } next) :
    Passed channel dirc (count + 1) pass next := by
  have packets := @hostPackets_fast World channel dirc _ _ count _ slot fast
  obtain ⟨j, nonmultiPktnum, k, txslots, conserved⟩ := rest
  dsimp only at j nonmultiPktnum k txslots conserved
  refine ⟨?_, by rw [packets, nonmultiPktnum], by rw [packets, k], by rw [packets, txslots], conserved⟩
  rw [j, Nat.mod_add_mod, Nat.add_assoc, Nat.add_comm 1]

/-- Any other packet goes to the next slot. -/
theorem Passed.swap {count : Nat} {rs ts : NetmapSlot} (slot : pass.rxring.slot[pass.j]? = some rs)
    (room : pass.txring.slot[pass.k]? = some ts) (slow : isFastPath dirc (channel.netmapBuf rs.bufIdx) = false)
    (kNext : channel.netmap.nmRingNext pass.txring pass.k = (pass.k + 1) % pass.txring.slot.length)
    (fits : count + 1 ≤ pass.rxring.slot.length)
    (rest : Passed channel dirc count
      { pass.swap channel.netmap rs ts with j := (pass.j + 1) % pass.rxring.slot.length } next) :
    Passed channel dirc (count + 1) pass next := by
  have packets := @hostPackets_slow World channel dirc _ _ count _ slot slow fits (rs.exchange ts)
  have kInside := (List.getElem?_eq_some_iff.mp room).1
  have written : pass.txring.slot.set pass.k (ts.take rs) =
      pass.txring.slot.modify (pass.k % pass.txring.slot.length) fun slot => slot.take rs := by
    rw [Nat.mod_eq_of_lt kInside]
    apply List.ext_getElem?
    intro index
    by_cases same : pass.k = index
    · subst same
      rw [List.getElem?_set_self kInside, List.getElem?_modify_eq, room]
      rfl
    · rw [List.getElem?_set_ne same, List.getElem?_modify_ne _ _ same]
  obtain ⟨j, nonmultiPktnum, k, txslots, conserved⟩ := rest
  simp only [RingPass.swap, kNext, List.length_set] at j nonmultiPktnum k txslots conserved
  constructor
  · rw [j, Nat.mod_add_mod, Nat.add_assoc, Nat.add_comm 1]
  · rw [packets, nonmultiPktnum, List.length_cons]
    omega
  · rw [packets, k, List.length_cons, Nat.mod_add_mod, Nat.add_assoc, Nat.add_comm 1]
  · rw [packets, txslots, writeWindow, written]
    apply writeWindow_congr
    rw [List.length_modify, Nat.mod_mod]
  · exact conserved.trans (exchange_perm slot room)

/-- The loop ends with the packets of its slots, unless the handler of the fast path faults. -/
theorem processSlots_passed (documented : channel.netmap.Documented) {count : Nat}
    (jInside : pass.j < pass.rxring.slot.length) (kInside : pass.k < pass.txring.slot.length)
    (received : count ≤ pass.rxring.slot.length) :
    (∃ fault, processSlots channel dirc count pass = .error fault ∧
        ∃ world packet, channel.receive world packet = .error fault) ∨
      ∃ next, processSlots channel dirc count pass = .ok next ∧ Passed channel dirc count pass next := by
  induction count generalizing pass with
  | zero =>
      refine .inr ⟨pass, rfl, (Nat.mod_eq_of_lt jInside).symm, rfl, (Nat.mod_eq_of_lt kInside).symm, rfl, ?_⟩
      exact List.Perm.refl _
  | succ count ih =>
      obtain ⟨rs, slot⟩ : ∃ rs, pass.rxring.slot[pass.j]? = some rs := ⟨_, List.getElem?_eq_getElem jInside⟩
      obtain ⟨ts, room⟩ : ∃ ts, pass.txring.slot[pass.k]? = some ts := ⟨_, List.getElem?_eq_getElem kInside⟩
      have jNext := documented.next_eq jInside
      have kNext := documented.next_eq kInside
      have jTurn := Nat.mod_lt (pass.j + 1) (Nat.zero_lt_of_lt jInside)
      have kTurn := Nat.mod_lt (pass.k + 1) (Nat.zero_lt_of_lt kInside)
      by_cases fast : isFastPath dirc (channel.netmapBuf rs.bufIdx) = true
      · cases handled : channel.receive pass.world (channel.netmapBuf rs.bufIdx) with
        | error fault =>
            refine .inl ⟨fault, ?_, _, _, handled⟩
            simp only [processSlots, processSlot, slot, fast, if_true, handled]
        | ok world =>
            have taken : processSlot channel dirc pass =
                .ok { pass with world := world, j := (pass.j + 1) % pass.rxring.slot.length } := by
              simp only [processSlot, slot, fast, if_true, handled, jNext]
            rw [processSlots, taken]
            rcases @ih { pass with world := world, j := (pass.j + 1) % pass.rxring.slot.length } jTurn kInside
              (by dsimp only; omega) with failed | ⟨next, ended, rest⟩
            · exact .inl failed
            · exact .inr ⟨next, ended, rest.fast slot fast world⟩
      · have taken : processSlot channel dirc pass = .ok { pass.swap channel.netmap rs ts with
            j := (pass.j + 1) % pass.rxring.slot.length } := by
          simp only [processSlot, slot, fast, if_false, room, jNext, Bool.false_eq_true]
        rw [processSlots, taken]
        rcases @ih { pass.swap channel.netmap rs ts with j := (pass.j + 1) % pass.rxring.slot.length }
          (by simpa [RingPass.swap] using jTurn) (by simpa [RingPass.swap, kNext] using kTurn)
          (by simp [RingPass.swap]; omega) with failed | ⟨next, ended, rest⟩
        · exact .inl failed
        · exact .inr ⟨next, ended, rest.swap slot room (Bool.not_eq_true _ |>.mp fast) kNext received⟩

/-- At most the slots of the loop hold packets for the other ring. -/
theorem hostPackets_length (slots : List NetmapSlot) (first count : Nat) :
    (hostPackets channel dirc slots first count).length ≤ count := by
  have some_ : (ringPackets slots first count).length ≤ (window slots.length first count).length :=
    List.length_filterMap_le ..
  rw [window_length] at some_
  exact (List.length_filter_le ..).trans some_

/-- The number of slots is the smallest of the three when all of them are small. -/
theorem maxPktnum_eq {netmap : Netmap} (documented : netmap.Documented) {rxring txring : NetmapRing}
    (rxValid : rxring.Valid) (txValid : txring.Valid) {limit : Nat} (small : limit < 2147483648) :
    (maxPktnum netmap rxring txring limit).toNat = min limit (min
      (distance rxring.slot.length rxring.cur rxring.tail) (distance txring.slot.length txring.cur txring.tail)) := by
  have rxSpace := distance_lt rxValid.cur rxValid.tail
  have txSpace := distance_lt txValid.cur txValid.tail
  have rxSmall := rxValid.small
  have txSmall := txValid.small
  unfold maxPktnum
  rw [documented.space rxring rxValid, documented.space txring txValid, s32_eq (by omega) (by omega),
    s32_eq (by omega) (by omega), s32_eq (by omega) (by omega)]
  dsimp only
  split_ifs <;> omega

end Passes

/-- The number of slots is that of the loop. -/
theorem processRings_eq {World : Type} {channel : DataChannel World} {rxring txring : NetmapRing} {limit count : Nat}
    (slots : (maxPktnum channel.netmap rxring txring limit).toNat = count) (dirc : Direction) (world : World) :
    channel.processRings rxring txring limit dirc world = (processSlots channel dirc count
      ⟨rxring, txring, rxring.cur, txring.cur, 0, world⟩).map RingPass.store := by
  rw [DataChannel.processRings, slots]

/-- The data channel thread takes as many packets as the limit and both rings allow. It forwards those of the host
in their order and keeps every buffer, unless the handler of the fast path faults. -/
theorem processRings_forwards {World : Type} (channel : DataChannel World) (documented : channel.netmap.Documented)
    {rxring txring : NetmapRing} (rxValid : rxring.Valid) (txValid : txring.Valid) {limit : Nat}
    (small : limit < 2147483648) (dirc : Direction) (world : World) :
    (∃ fault, channel.processRings rxring txring limit dirc world = .error fault ∧
        ∃ other packet, channel.receive other packet = .error fault) ∨
      ∃ outcome, channel.processRings rxring txring limit dirc world = .ok outcome ∧
        Forwarded channel rxring txring
          (min limit (min (channel.netmap.nmRingSpace rxring) (channel.netmap.nmRingSpace txring))) dirc outcome := by
  have spaces := maxPktnum_eq documented rxValid txValid small
  rw [← documented.space rxring rxValid, ← documented.space txring txValid] at spaces
  have rxSpace := distance_lt rxValid.cur rxValid.tail
  have txSpace := distance_lt txValid.cur txValid.tail
  rw [← documented.space rxring rxValid] at rxSpace
  rw [← documented.space txring txValid] at txSpace
  generalize named : min limit (min (channel.netmap.nmRingSpace rxring) (channel.netmap.nmRingSpace txring)) = count
    at spaces
  have rxFits : count ≤ rxring.slot.length := by omega
  have txFits : count ≤ txring.slot.length := by omega
  rcases @processSlots_passed World channel dirc ⟨rxring, txring, rxring.cur, txring.cur, 0, world⟩ documented count
    rxValid.cur txValid.cur rxFits with ⟨fault, failed, handler⟩ | ⟨pass, ended, passed⟩
  · refine .inl ⟨fault, ?_, handler⟩
    rw [processRings_eq spaces, failed]
    rfl
  · refine .inr ⟨pass.store, ?_, ?_⟩
    · rw [processRings_eq spaces, ended]
      rfl
    have most := @hostPackets_length World channel dirc rxring.slot rxring.cur count
    obtain ⟨j, nonmultiPktnum, k, txslots, conserved⟩ := passed
    dsimp only at j nonmultiPktnum k txslots conserved
    rw [Nat.zero_add] at nonmultiPktnum
    rw [← nonmultiPktnum] at k
    refine ⟨⟨j, rfl⟩, nonmultiPktnum, ⟨k, rfl⟩, ?_, ?_, conserved⟩
    · intro index rs packet
      obtain ⟨inside, same⟩ := List.getElem?_eq_some_iff.mp packet
      have room := Nat.mod_lt (txring.cur + index) (Nat.zero_lt_of_lt txValid.cur)
      refine ⟨_, List.getElem?_eq_getElem room, ?_⟩
      have written := @writeWindow_inside _ _ NetmapSlot.take _ txring.cur _ (most.trans txFits) index inside
      rw [← txslots, List.getElem?_eq_getElem room, same] at written
      exact written
    · intro position outside
      have untouched : position ∉ window txring.slot.length txring.cur
          (hostPackets channel dirc rxring.slot rxring.cur count).length := nonmultiPktnum ▸ outside
      exact (congrArg (fun slots : List NetmapSlot => slots[position]?) txslots).trans
        (writeWindow_outside untouched)

/-- No buffer gets into two slots. -/
theorem Forwarded.distinct {World : Type} {channel : DataChannel World} {rxring txring : NetmapRing} {count : Nat}
    {dirc : Direction} {outcome : NetmapRing × NetmapRing × World × Nat}
    (forwarded : Forwarded channel rxring txring count dirc outcome)
    (distinct : (rxring.slot.map NetmapSlot.bufIdx ++ txring.slot.map NetmapSlot.bufIdx).Nodup) :
    (outcome.1.slot.map NetmapSlot.bufIdx ++ outcome.2.1.slot.map NetmapSlot.bufIdx).Nodup :=
  forwarded.conserved.nodup_iff.mpr distinct

/-- The functions of the netmap library as they are documented. -/
def netmapLibrary : Netmap where
  nmRingSpace ring := distance ring.slot.length ring.cur ring.tail
  nmRingNext ring index := if index + 1 = ring.slot.length then 0 else index + 1

theorem netmapLibrary_documented : netmapLibrary.Documented := ⟨fun _ _ => rfl, fun _ _ _ => rfl⟩

/-- The packet in buffer 2 belongs to the fast path, and its handler counts it. -/
def countingChannel : DataChannel Nat where
  netmap := netmapLibrary
  netmapBuf bufIdx :=
    if bufIdx = 2 then
      List.replicate 12 0 ++ [8, 0] ++ List.replicate 9 0 ++ [17] ++ List.replicate 12 0 ++ [0x62, 0x62]
    else List.replicate 38 0
  receive count _ := .ok (count + 1)

/-- Three received packets wait, and the last one is behind the turn of the ring. -/
def cardRing : NetmapRing := ⟨[⟨3, 60, 0⟩, ⟨4, 60, 0⟩, ⟨1, 60, 0⟩, ⟨2, 98, 0⟩], 2, 2, 1⟩

def hostRing : NetmapRing := ⟨[⟨5, 0, 0⟩, ⟨6, 0, 0⟩, ⟨7, 0, 0⟩, ⟨8, 0, 0⟩], 3, 3, 2⟩

theorem processRings_forwards_cardRing : ∃ outcome,
    countingChannel.processRings cardRing hostRing 512 .nicToHost 0 = .ok outcome ∧
      Forwarded countingChannel cardRing hostRing 3 .nicToHost outcome := by
  rcases processRings_forwards countingChannel netmapLibrary_documented
    (⟨by decide, by decide, by decide⟩ : cardRing.Valid) (⟨by decide, by decide, by decide⟩ : hostRing.Valid)
    (by decide : 512 < 2147483648) .nicToHost 0 with ⟨fault, _, other, packet, failed⟩ | forwarded
  · cases failed
  · exact forwarded

/-- A limit beyond the signed type takes no packet. -/
theorem processRings_stops : ¬ ∀ (limit : Nat), limit < 4294967296 →
    ∃ outcome, countingChannel.processRings cardRing hostRing limit .nicToHost 0 = .ok outcome ∧
      Forwarded countingChannel cardRing hostRing (min limit 3) .nicToHost outcome := by
  intro always
  obtain ⟨outcome, ended, forwarded⟩ := always 2147483648 (by decide)
  have nothing : (maxPktnum countingChannel.netmap cardRing hostRing 2147483648).toNat = 0 := by decide
  have stays := processRings_eq nothing .nicToHost 0
  have consumed := forwarded.consumed.1
  have same : outcome.1.cur = 2 := by
    have stored := Except.ok.inj (ended.symm.trans stays)
    rw [stored]
    rfl
  rw [same] at consumed
  revert consumed
  decide

end RepublicAgent
