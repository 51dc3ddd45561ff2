/-
This file models how the control thread of a sender moves finished receivers from the skip list into the
array `sender_end_seq_arr_p` and from there into the command ring. Each step is one handler of a message, one
part of the loop of the thread or a call of the data channel thread.
-/

import RepublicAgent.Sender.DataSide
import Mathlib.Data.List.ReduceOption

namespace RepublicAgent
open Execution MachineInteger

/-- A pointer to a `SenderState`. Each push creates new states for its addresses. -/
structure SenderRef where
  addr : Nat
  push : Nat
deriving DecidableEq, Repr

/-- The cells of the array hold nothing until a pointer is written. The indices are of type `int16_t`. -/
structure FinishWindow where
  arr : List (Option SenderRef)
  idxStart : Int
  idxEnd : Int
deriving DecidableEq, Repr

/-- A push allocates a new array and leaves the indices. -/
def FinishWindow.allocate (window : FinishWindow) (fanOut : Nat) : FinishWindow :=
  { window with arr := List.replicate fanOut none }

/-- A cell outside of the array or without a pointer gives no pointer. -/
def FinishWindow.read (window : FinishWindow) (index : Int) : Option SenderRef :=
  if 0 ≤ index then (window.arr[index.toNat]?).join else none

/-- The pointer is written behind the last one. -/
def FinishWindow.put (window : FinishWindow) (sender : SenderRef) : Except Fault FinishWindow :=
  if 0 ≤ window.idxEnd ∧ window.idxEnd < window.arr.length then
    .ok { window with
      arr := window.arr.set window.idxEnd.toNat (some sender)
      idxEnd := signed 16 (window.idxEnd + 1) }
  else .error .badPointer

/-- The loop stops at the first receiver whose time has not expired. Its variable is equal to `idxStart`. -/
def FinishWindow.signal (expired hasAllDone : SenderRef → Bool) :
    Nat → FinishWindow → List SenderRef → Except Fault (FinishWindow × List SenderRef)
  | 0, window, ringCmd => .ok (window, ringCmd)
  | count + 1, window, ringCmd =>
      match window.read window.idxStart with
      | none => .error .badPointer
      | some sender =>
          if expired sender then
            FinishWindow.signal expired hasAllDone count
              { window with idxStart := signed 16 (window.idxStart + 1) }
              (if hasAllDone sender then ringCmd else sender :: ringCmd)
          else .ok (window, ringCmd)

/-- The constant `FAST_DONE_TIMEOUT_MSEC` in milliseconds. -/
def fastDoneTimeoutMsec : Int := 1000

/-- The time between two readings of the clock in microseconds. -/
def elapsed (before now : Timeval) : Int := (now.1 - before.1) * 1000000 + (now.2 - before.2)

/-- The sender of one broadcast. The skip list `skipList` is `sender_end_seq_pq_p`, and both `ringCmd` and
`sendQueues` hold messages `MSG_FAST_DONE`, the last one first. A push counts in `pushes` and creates the
states of its addresses. The receivers that reported and the request for the release of the path are kept
for the statements only. -/
structure FinishSender where
  side : DataSide
  pushes : Nat
  createdBy : Nat → Nat
  seqEndOf : SenderRef → Nat
  hasAllDone : SenderRef → Bool
  tvFastDone : SenderRef → Timeval
  skipList : List SenderRef
  window : FinishWindow
  ringCmd : List SenderRef
  sendQueues : List SenderRef
  reported : List Nat
  raised : Bool

/-- The sender of a new broadcast. -/
def FinishSender.initial (multi : MulticastState) : FinishSender where
  side := ⟨multi, ⟨false, 0, 0⟩, none⟩
  pushes := 0
  createdBy := fun _ => 0
  seqEndOf := fun _ => 0
  hasAllDone := fun _ => false
  tvFastDone := fun _ => (0, 0)
  skipList := []
  window := ⟨[], 0, 0⟩
  ringCmd := []
  sendQueues := []
  reported := []
  raised := false

/-- The skip list takes a new element at any place. -/
inductive FinishEvent where
  | push (slaves : List Slave) (now : Timeval)
  | approve (controllerXid : Int32)
  | queue (ring : TxRing) (estimate : Int)
  | process (space : Nat) (ring : TxRing)
  | check (ring : TxRing)
  | firstSeq (addr seqFirst place : Nat)
  | allDone (addr : Nat)
  | peek (now : Timeval)
  | signal (now : Timeval)
  | command
deriving DecidableEq, Repr

/-- The messages that were created. -/
def FinishSender.created (sender : FinishSender) : List SenderRef := sender.ringCmd ++ sender.sendQueues

/-- The state that the hash table `sender_addr_hash_p` gives for an address. -/
def FinishSender.senderOf (sender : FinishSender) (addr : Nat) : SenderRef := ⟨addr, sender.createdBy addr⟩

/-- The request for the release of the path is remembered. -/
def FinishSender.moveData (sender : FinishSender) (side : DataSide) : FinishSender :=
  { sender with side := side, raised := sender.raised || side.pathRelease.needReleasePath }

/-- The handler of `MSG_PSH_REQ` for receivers on other hosts. -/
def FinishSender.push (sender : FinishSender) (slaves : List Slave) (now : Timeval) : FinishSender :=
  let pushed := slaves.foldl createSenderState (multicastStateReset sender.side.multi)
  { sender with
    side := { sender.side with multi := { pushed with tvPush := now } }
    pushes := sender.pushes + 1
    createdBy := fun addr => if addr ∈ slaves.map Slave.addr then sender.pushes + 1 else sender.createdBy addr
    window := sender.window.allocate slaves.length }

/-- The controller approved the path. -/
def FinishSender.approve (sender : FinishSender) (controllerXid : Int32) : FinishSender :=
  { sender with side := { sender.side with
    multi := { sender.side.multi with controllerXid := controllerXid, bcdState := .initiated } } }

/-- A report stores the end of its receiver, whose state enters the skip list. -/
def FinishSender.report (sender : FinishSender) (handled : MulticastState) (addr seqEnd place : Nat) :
    FinishSender :=
  { sender with
    side := { sender.side with multi := handled }
    seqEndOf := Function.update sender.seqEndOf (sender.senderOf addr) seqEnd
    skipList := sender.skipList.take place ++ sender.senderOf addr :: sender.skipList.drop place
    reported := addr :: sender.reported }

/-- The handler of `MSG_FIRST_SEQ`. -/
def FinishSender.firstSeq (sender : FinishSender) (addr seqFirst place : Nat) : Except Fault FinishSender :=
  match handleFirstSeq sender.side.multi addr seqFirst with
  | .error fault => .error fault
  | .ok handled =>
      match handled.senderAddrHash addr with
      | none => .error .badPointer
      | some state => .ok (sender.report handled addr state.seqEnd place)

/-- The handler of `MSG_ALL_DONE`. -/
def FinishSender.allDone (sender : FinishSender) (addr : Nat) : Except Fault FinishSender :=
  match sender.side.multi.senderAddrHash addr with
  | none => .error .assertion
  | some _ =>
      if sender.hasAllDone (sender.senderOf addr) then .error .assertion
      else .ok { sender with hasAllDone := Function.update sender.hasAllDone (sender.senderOf addr) true }

/-- The first loop takes the head of the skip list when the last packet of this receiver was sent. -/
def FinishSender.peek (sender : FinishSender) (now : Timeval) : Except Fault FinishSender :=
  match sender.skipList with
  | [] => .ok sender
  | head :: rest =>
      if sender.seqEndOf head ≤ sender.side.multi.seqCur then
        match sender.window.put head with
        | .error fault => .error fault
        | .ok window => .ok { sender with
            tvFastDone := Function.update sender.tvFastDone head now
            skipList := rest
            window := window }
      else .ok sender

def FinishSender.expired (sender : FinishSender) (now : Timeval) (ref : SenderRef) : Bool :=
  fastDoneTimeoutMsec * 1000 < elapsed (sender.tvFastDone ref) now

/-- The second loop runs for a dead multicast only. -/
def FinishSender.signal (sender : FinishSender) (now : Timeval) : Except Fault FinishSender :=
  if sender.side.multi.bcdState = .dead then
    match sender.window.signal (sender.expired now) sender.hasAllDone
        (sender.window.idxEnd - sender.window.idxStart).toNat sender.ringCmd with
    | .error fault => .error fault
    | .ok (window, ringCmd) => .ok { sender with window := window, ringCmd := ringCmd }
  else .ok sender

/-- The oldest command moves into the send queue of its receiver. -/
def FinishSender.command (sender : FinishSender) : FinishSender :=
  { sender with
    ringCmd := sender.ringCmd.dropLast
    sendQueues := sender.ringCmd.getLast?.toList ++ sender.sendQueues }

/-- A push without receivers on other hosts changes nothing. -/
def finishStep (config : AgentConfig) (sender : FinishSender) : FinishEvent → Except Fault FinishSender
  | .push slaves now => .ok (if slaves = [] then sender else sender.push slaves now)
  | .approve controllerXid => .ok (sender.approve controllerXid)
  | .queue ring estimate =>
      .ok (sender.moveData (sender.side.queue config.firstFirstSeqFullrate ring estimate))
  | .process space ring => (sender.side.process config.nmBurst space ring).map sender.moveData
  | .check ring => .ok (sender.moveData (sender.side.check ring))
  | .firstSeq addr seqFirst place => sender.firstSeq addr seqFirst place
  | .allDone addr => sender.allDone addr
  | .peek now => sender.peek now
  | .signal now => sender.signal now
  | .command => .ok sender.command

/-- The array has room for `capacity` pointers. From the cell `base` on it holds the entries, and the entries
up to `signalled` were passed by the second loop. -/
structure FinishWindow.Holds (window : FinishWindow) (capacity base : Nat) (entries : List SenderRef)
    (signalled : Nat) : Prop where
  length : window.arr.length = capacity
  cells : ∀ index sender, window.arr[index]? = some (some sender) ↔
    base ≤ index ∧ entries[index - base]? = some sender
  idxEnd : window.idxEnd = (base + entries.length : Nat)
  idxStart : window.idxStart = signalled
  ordered : signalled ≤ base + entries.length
  fits : base + entries.length < 32768

section Window

variable {window : FinishWindow} {capacity base signalled : Nat} {entries : List SenderRef}

theorem FinishWindow.Holds.read (holds : window.Holds capacity base entries signalled) {index : Nat}
    {sender : SenderRef} :
    window.read index = some sender ↔ base ≤ index ∧ entries[index - base]? = some sender := by
  rw [← holds.cells, FinishWindow.read, if_pos (Int.natCast_nonneg index), Int.toNat_natCast]
  exact Option.join_eq_some_iff

/-- The cells before `base` and behind the entries hold nothing. -/
theorem FinishWindow.Holds.reduceOption (holds : window.Holds capacity 0 entries signalled) :
    window.arr.reduceOption = entries := by
  have whole : window.arr = entries.map some ++ List.replicate (capacity - entries.length) none := by
    apply List.ext_getElem?
    intro index
    by_cases written : index < entries.length
    · rw [(holds.cells index entries[index]).mpr ⟨Nat.zero_le _, List.getElem?_eq_getElem written⟩]
      rw [List.getElem?_append_left (by simpa using written)]
      simp [written]
    · have empty : ∀ sender, window.arr[index]? ≠ some (some sender) := by
        intro sender found
        obtain ⟨inside, _⟩ := List.getElem?_eq_some_iff.mp ((holds.cells index sender).mp found).2
        exact written inside
      rw [List.getElem?_append_right (by simpa using written), List.getElem?_replicate, List.length_map]
      by_cases within : index < window.arr.length
      · have room : index - entries.length < capacity - entries.length := by
          rw [← holds.length]
          omega
        rw [if_pos room, List.getElem?_eq_getElem within]
        cases cell : window.arr[index] with
        | none => rfl
        | some sender => exact absurd ((List.getElem?_eq_getElem within).trans (congrArg some cell)) (empty sender)
      · have beyond : ¬ index - entries.length < capacity - entries.length := by
          rw [← holds.length]
          omega
        rw [if_neg beyond, List.getElem?_eq_none (not_lt.mp within)]
  rw [whole, List.reduceOption_append, List.reduceOption_replicate_none, List.append_nil]
  simp [List.reduceOption, List.filterMap_map]

/-- A new array holds nothing yet. -/
theorem FinishWindow.Holds.allocate (holds : window.Holds capacity base entries signalled) (fanOut : Nat) :
    (window.allocate fanOut).Holds fanOut (base + entries.length) [] signalled := by
  constructor
  · exact List.length_replicate
  · intro index sender
    simp [FinishWindow.allocate, List.getElem?_replicate]
  · exact holds.idxEnd
  · exact holds.idxStart
  · exact holds.ordered
  · exact holds.fits

/-- A write goes behind the entries. -/
theorem FinishWindow.Holds.put (holds : window.Holds capacity base entries signalled)
    (room : base + entries.length < capacity) (small : capacity < 32768) (sender : SenderRef) :
    ∃ next, window.put sender = .ok next ∧ next.Holds capacity base (entries ++ [sender]) signalled := by
  have inside : 0 ≤ window.idxEnd ∧ window.idxEnd < window.arr.length := by
    rw [holds.idxEnd, holds.length]
    omega
  have place : window.idxEnd.toNat = base + entries.length := by
    rw [holds.idxEnd, Int.toNat_natCast]
  refine ⟨_, if_pos inside, ?_⟩
  constructor
  · exact List.length_set.trans holds.length
  · intro index other
    rw [List.getElem?_set, place]
    by_cases same : base + entries.length = index
    · subst same
      have within : base + entries.length < window.arr.length := by
        rw [holds.length]
        exact room
      simp [within]
    · rw [if_neg same, holds.cells]
      apply and_congr_right
      intro later
      have beside : index - base ≠ entries.length := by omega
      rw [List.getElem?_append]
      split_ifs with before
      · rfl
      · have beyond : entries.length < index - base := by omega
        rw [List.getElem?_eq_none (by omega), List.getElem?_eq_none (by simp; omega)]
  · have exact := (signed_exact_iff 15 (window.idxEnd + 1)).mpr (by rw [holds.idxEnd]; omega)
    rw [exact, holds.idxEnd, List.length_append, List.length_singleton]
    push_cast
    ring
  · exact holds.idxStart
  · have ordered := holds.ordered
    rw [List.length_append]
    omega
  · rw [List.length_append, List.length_singleton]
    omega

/-- A write without room goes past the end of the array. -/
theorem FinishWindow.Holds.put_full (holds : window.Holds capacity base entries signalled)
    (full : capacity ≤ base + entries.length) (sender : SenderRef) : window.put sender = .error .badPointer := by
  apply if_neg
  rw [holds.idxEnd, holds.length]
  omega

/-- The loop passes the expired front of the waiting receivers. It creates a message for each of them that did
not send `MSG_ALL_DONE`. -/
theorem FinishWindow.Holds.signal (holds : window.Holds capacity base entries signalled)
    (current : base ≤ signalled) (expired hasAllDone : SenderRef → Bool) {count : Nat}
    (counted : signalled + count = base + entries.length) (ringCmd : List SenderRef) :
    ∃ next, window.signal expired hasAllDone count ringCmd = .ok (next,
        (((entries.drop (signalled - base)).takeWhile expired).filter fun sender => !hasAllDone sender).reverse ++
          ringCmd) ∧
      next.Holds capacity base entries
        (signalled + ((entries.drop (signalled - base)).takeWhile expired).length) := by
  induction count generalizing window signalled ringCmd with
  | zero =>
      have none : entries.drop (signalled - base) = [] := List.drop_eq_nil_of_le (by omega)
      rw [none]
      exact ⟨window, rfl, holds⟩
  | succ count ih =>
      have inside : signalled - base < entries.length := by omega
      have first : window.read window.idxStart = some entries[signalled - base] := by
        rw [holds.idxStart, holds.read]
        exact ⟨current, List.getElem?_eq_getElem inside⟩
      have step : signed 16 (window.idxStart + 1) = (signalled + 1 : Nat) := by
        have fits := holds.fits
        have exact := (signed_exact_iff 15 (window.idxStart + 1)).mpr (by rw [holds.idxStart]; omega)
        rw [exact, holds.idxStart]
        rfl
      have moved : FinishWindow.Holds { window with idxStart := signed 16 (window.idxStart + 1) } capacity base
          entries (signalled + 1) := by
        refine ⟨holds.length, holds.cells, holds.idxEnd, step, ?_, holds.fits⟩
        omega
      have rest : signalled + 1 - base = signalled - base + 1 := by omega
      rw [List.drop_eq_getElem_cons inside, FinishWindow.signal]
      simp only [first]
      by_cases late : expired entries[signalled - base]
      · obtain ⟨next, taken, after⟩ := ih moved (by omega) (by omega)
          (if hasAllDone entries[signalled - base] then ringCmd else entries[signalled - base] :: ringCmd)
        rw [rest] at taken after
        rw [if_pos late, List.takeWhile_cons_of_pos late, taken]
        refine ⟨next, ?_, ?_⟩
        · cases done : hasAllDone entries[signalled - base] <;> simp [done]
        · rw [List.length_cons]
          have sum : ∀ passed : Nat, signalled + (passed + 1) = signalled + 1 + passed := by omega
          rw [sum]
          exact after
      · rw [if_neg late, List.takeWhile_cons_of_neg late]
        exact ⟨window, rfl, holds⟩

/-- The loop reads a cell without a pointer when a receiver of an older array still waits. -/
theorem FinishWindow.Holds.signal_lost (holds : window.Holds capacity base entries signalled)
    (older : signalled < base) (expired hasAllDone : SenderRef → Bool) (count : Nat) (ringCmd : List SenderRef) :
    window.signal expired hasAllDone (count + 1) ringCmd = .error .badPointer := by
  have lost : window.read window.idxStart = none := by
    cases found : window.read window.idxStart with
    | none => rfl
    | some sender =>
        rw [holds.idxStart, holds.read] at found
        exact absurd found.1 (not_le.mpr older)
  simp only [FinishWindow.signal, lost]

end Window

end RepublicAgent
