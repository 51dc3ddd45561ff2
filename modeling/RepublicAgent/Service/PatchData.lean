/-
This file models how the patch ring of a connection is served into its send queue.
-/

import RepublicAgent.Library.Execution
import RepublicAgent.Sender.PacketBytes
import RepublicAgent.Sender.PatchRead
import RepublicAgent.Service.FileStore

namespace RepublicAgent
open Execution MachineInteger Slices

/-- The type `MSG_PATCH_DATA`. -/
def patchDataType : UInt32 := 85

/-- The size of the buffer in which a packet is made. -/
def patchBufLen : Nat := 9216

/-- The length of the payload is kept as `uint16_t`. -/
def patchDataMsg (bcdId : BcdID) (buf : List UInt8) (payloadBytes : Nat) (time : Vector UInt8 16) : Message where
  bcdId := bcdId
  type := patchDataType
  time := time
  payload := buf.take (u16 payloadBytes)
  padding := false
  lengthFits := by
    have short := List.length_take_le (u16 payloadBytes) buf
    have bounded : u16 payloadBytes < 65536 := unsigned_lt 16 _
    rw [msgHdrLen]
    omega
  paddingFits := by simp

/-- The multicasts of the agent, the old bytes of each allocated buffer and the readings of the clock. -/
structure PatchConfig where
  hashMulticast : BcdID → Option PacketSource
  heap : Nat → List UInt8
  clock : Nat → Vector UInt8 16

/-- The ring has its next element first. The pushed messages and the ones that have left the queue are kept for
the statements only. -/
structure PatchSender where
  ring : List PatchElement
  fdPatch : BcdID → Nat
  sendQueue : List MsgToken
  pushed : List Message
  left : List MsgToken

def PatchSender.start (ring : List PatchElement) (fdPatch : BcdID → Nat) (sendQueue : List MsgToken) :
    PatchSender :=
  ⟨ring, fdPatch, sendQueue, [], []⟩

/-- The stream of a multicast for patches is moved. -/
def PatchSender.seek (sender : PatchSender) (bcdId : BcdID) (position : Nat) : PatchSender :=
  { sender with fdPatch := Function.update sender.fdPatch bcdId position }

@[simp] theorem PatchSender.seek_fdPatch (sender : PatchSender) (bcdId : BcdID) (position : Nat) :
    (sender.seek bcdId position).fdPatch bcdId = position :=
  Function.update_self _ _ _

/-- One packet is read, whether the queue takes it or not. A packet that is longer than its buffer is written
behind the end of the allocation. -/
def sendPatch (config : PatchConfig) (source : PacketSource) (bcdId : BcdID) (seq : Nat) (sender : PatchSender) :
    Except Fault (Bool × PatchSender) :=
  if patchBufLen < source.payloadBytes seq then .error .badPointer
  else
    let count := sender.pushed.length
    let made := PacketBytes.createData (config.heap count) source ⟨source.data, sender.fdPatch bcdId⟩ seq
    let msg := patchDataMsg source.bcdId made.1 (source.payloadBytes seq) (config.clock count)
    let sender := sender.seek bcdId made.2.position
    match insertMsg2SendQ sender.sendQueue msg false with
    | none => .ok (false, sender)
    | some queue => .ok (true, { sender with sendQueue := queue, pushed := sender.pushed ++ [msg] })

/-- The inner loop ends with the range or with the first refused message. -/
def sendPatches (config : PatchConfig) (source : PacketSource) (bcdId : BcdID) :
    Nat → Nat → PatchSender → Except Fault (Nat × PatchSender)
  | 0, seq, sender => .ok (seq, sender)
  | count + 1, seq, sender =>
      match sendPatch config source bcdId seq sender with
      | .error fault => .error fault
      | .ok (false, sender) => .ok (seq, sender)
      | .ok (true, sender) => sendPatches config source bcdId count (seq + 1) sender

/-- The outer loop takes the next element while the queue has room, and stops at an element with a rest. -/
def serveRing (config : PatchConfig) : List PatchElement → PatchSender → Except Fault PatchSender
  | [], sender => .ok { sender with ring := [] }
  | elem :: rest, sender =>
      if sender.sendQueue.length < aprQueueCapacity - 100 then
        match config.hashMulticast elem.bcdId with
        | none => .error .badPointer
        | some source =>
            let sought := sender.seek elem.bcdId (patchOffset elem.pt.sttSeq source.bytePayload)
            match sendPatches config source elem.bcdId (elem.pt.endSeq - elem.pt.sttSeq) elem.pt.sttSeq sought with
            | .error fault => .error fault
            | .ok (seq, sender) =>
                if seq = elem.pt.endSeq then serveRing config rest sender
                else .ok { sender with ring := { elem with pt := { elem.pt with sttSeq := seq } } :: rest }
      else .ok { sender with ring := elem :: rest }

def PatchSender.processPatchTuple (config : PatchConfig) (sender : PatchSender) : Except Fault PatchSender :=
  serveRing config sender.ring sender

/-- Between two calls some messages leave the queue. -/
inductive PatchEvent where
  | process
  | leave (count : Nat)
deriving DecidableEq, Repr

def patchStep (config : PatchConfig) (sender : PatchSender) : PatchEvent → Except Fault PatchSender
  | .process => sender.processPatchTuple config
  | .leave count => .ok { sender with
      sendQueue := sender.sendQueue.drop count
      left := sender.left ++ sender.sendQueue.take count }

/-- The fields of a message that its receiver reads. -/
def Message.content (msg : Message) : BcdID × UInt32 × List UInt8 := (msg.bcdId, msg.type, msg.payload)

/-- The message of a packet. -/
def PacketSource.patch (source : PacketSource) (seq : Nat) : BcdID × UInt32 × List UInt8 :=
  (source.bcdId, patchDataType, source.packet seq)

/-- The messages that an element of the ring asks for, in order. -/
def PatchConfig.expected (config : PatchConfig) (elem : PatchElement) : List (BcdID × UInt32 × List UInt8) :=
  match config.hashMulticast elem.bcdId with
  | none => []
  | some source => elem.pt.seqs.map source.patch

/-- An element asks for a range of packets of a multicast with less than `2 ^ 32` bytes. -/
def PatchConfig.Valid (config : PatchConfig) (elem : PatchElement) : Prop :=
  ∃ source, config.hashMulticast elem.bcdId = some source ∧ source.Cut ∧ source.data.length < 4294967296 ∧
    elem.pt.sttSeq ≤ elem.pt.endSeq ∧ elem.pt.endSeq ≤ source.seqMax

/-- The packets of a range fit the buffer in which they are made. -/
def PatchConfig.Fits (config : PatchConfig) (elem : PatchElement) : Prop :=
  ∀ source, config.hashMulticast elem.bcdId = some source →
    ∀ seq ∈ elem.pt.seqs, source.payloadBytes seq ≤ patchBufLen

/-- The first elements of the ring are gone, and the next one may be served up to a packet inside its range. -/
def Remains (ring rest : List PatchElement) : Prop :=
  rest <:+ ring ∨ ∃ elem seq later, elem.pt.sttSeq ≤ seq ∧ seq < elem.pt.endSeq ∧
    rest = { elem with pt := { elem.pt with sttSeq := seq } } :: later ∧ elem :: later <:+ ring

/-- The pushed messages and the ones that the rest of the ring asks for are the requested ones in order. The
elements without a rest are gone, and the queue has taken the pushed messages and no others. -/
structure PatchConfig.Served (config : PatchConfig) (start sender : PatchSender) : Prop where
  remains : Remains start.ring sender.ring
  order : sender.pushed.map Message.content ++ sender.ring.flatMap config.expected =
    start.ring.flatMap config.expected
  queued : sender.left ++ sender.sendQueue = start.sendQueue ++ sender.pushed.map createMsgToken

section Rings

variable {ring middle rest : List PatchElement}

theorem Remains.refl (ring : List PatchElement) : Remains ring ring := .inl (List.suffix_refl ring)

theorem Remains.cons {elem : PatchElement} (later : Remains ring rest) : Remains (elem :: ring) rest := by
  rcases later with suffix | ⟨first, seq, behind, lower, upper, same, suffix⟩
  · exact .inl (suffix.trans (List.suffix_cons elem ring))
  · exact .inr ⟨first, seq, behind, lower, upper, same, suffix.trans (List.suffix_cons elem ring)⟩

theorem Remains.trans (first : Remains ring middle) (second : Remains middle rest) : Remains ring rest := by
  rcases first with suffix | ⟨elem, seq, later, lower, upper, rfl, suffix⟩
  · rcases second with again | ⟨elem, seq, later, lower, upper, same, again⟩
    · exact .inl (again.trans suffix)
    · exact .inr ⟨elem, seq, later, lower, upper, same, again.trans suffix⟩
  · rcases second with again | ⟨other, place, behind, begins, ends, same, again⟩
    · rcases List.suffix_cons_iff.mp again with rfl | inside
      · exact .inr ⟨elem, seq, later, lower, upper, rfl, suffix⟩
      · exact .inl (inside.trans ((List.suffix_cons elem later).trans suffix))
    · rcases List.suffix_cons_iff.mp again with equal | inside
      · obtain ⟨rfl, rfl⟩ := List.cons.inj equal
        exact .inr ⟨elem, place, behind, lower.trans begins, ends, same, suffix⟩
      · exact .inr ⟨other, place, behind, begins, ends, same,
          inside.trans ((List.suffix_cons elem later).trans suffix)⟩

/-- The packets and the elements that are still to serve. -/
def ringSize (ring : List PatchElement) : Nat := (ring.map fun elem => elem.pt.endSeq - elem.pt.sttSeq + 1).sum

theorem ringSize_suffix (suffix : rest <:+ ring) : ringSize rest ≤ ringSize ring := by
  obtain ⟨front, rfl⟩ := suffix
  simp only [ringSize, List.map_append, List.sum_append]
  omega

theorem Remains.size (remains : Remains ring rest) : ringSize rest ≤ ringSize ring := by
  rcases remains with suffix | ⟨elem, seq, later, lower, upper, rfl, suffix⟩
  · exact ringSize_suffix suffix
  · have whole := ringSize_suffix suffix
    simp only [ringSize, List.map_cons, List.sum_cons] at whole ⊢
    omega

/-- What a rest of a range inherits holds of the rest of a ring. -/
theorem Remains.forall {property : PatchElement → Prop} (remains : Remains ring rest)
    (inherited : ∀ elem seq, elem.pt.sttSeq ≤ seq → seq < elem.pt.endSeq → property elem →
      property { elem with pt := { elem.pt with sttSeq := seq } })
    (holds : ∀ elem ∈ ring, property elem) : ∀ elem ∈ rest, property elem := by
  rcases remains with suffix | ⟨first, seq, later, lower, upper, rfl, suffix⟩
  · exact fun elem member => holds elem (suffix.subset member)
  · intro elem member
    rcases List.mem_cons.mp member with rfl | behind
    · exact inherited first seq lower upper (holds first (suffix.subset List.mem_cons_self))
    · exact holds elem (suffix.subset (List.mem_cons_of_mem first behind))

theorem Remains.valid {config : PatchConfig} (remains : Remains ring rest)
    (valid : ∀ elem ∈ ring, config.Valid elem) : ∀ elem ∈ rest, config.Valid elem := by
  refine remains.forall (fun elem seq lower upper holds => ?_) valid
  obtain ⟨source, found, cut, small, ordered, inside⟩ := holds
  exact ⟨source, found, cut, small, upper.le, inside⟩

theorem Remains.fits {config : PatchConfig} (remains : Remains ring rest)
    (fits : ∀ elem ∈ ring, config.Fits elem) : ∀ elem ∈ rest, config.Fits elem := by
  refine remains.forall (fun elem seq lower upper holds source found later member => ?_) fits
  refine holds source found later ?_
  rw [PatchTuple.mem_seqs] at member ⊢
  exact ⟨lower.trans member.1, member.2⟩

end Rings

section Sending

variable {config : PatchConfig} {source : PacketSource} {bcdId : BcdID} {sender next : PatchSender}

/-- What is sent joins the log and the queue, in messages that fit their buffer. -/
def Sends (sender next : PatchSender) (contents : List (BcdID × UInt32 × List UInt8)) : Prop :=
  ∃ added, next.pushed = sender.pushed ++ added ∧ next.sendQueue = sender.sendQueue ++ added.map createMsgToken ∧
    next.left = sender.left ∧ added.map Message.content = contents ∧
    ∀ msg ∈ added, msg.payload.length ≤ patchBufLen

theorem Sends.nothing (pushed : next.pushed = sender.pushed) (queued : next.sendQueue = sender.sendQueue)
    (left : next.left = sender.left) : Sends sender next [] :=
  ⟨[], by rw [pushed, List.append_nil], by rw [queued, List.map_nil, List.append_nil], left, rfl, by simp⟩

theorem Sends.trans {middle : PatchSender} {first second : List (BcdID × UInt32 × List UInt8)}
    (front : Sends sender middle first) (back : Sends middle next second) : Sends sender next (first ++ second) := by
  obtain ⟨early, pushed, queued, left, content, short⟩ := front
  obtain ⟨late, pushedLate, queuedLate, leftLate, contentLate, shortLate⟩ := back
  refine ⟨early ++ late, ?_, ?_, leftLate.trans left, ?_, ?_⟩
  · rw [pushedLate, pushed, List.append_assoc]
  · rw [queuedLate, queued, List.map_append, List.append_assoc]
  · rw [List.map_append, content, contentLate]
  · intro msg member
    exact (List.mem_append.mp member).elim (short msg) (shortLate msg)

/-- At the position of its packet, an attempt faults exactly when the packet is longer than its buffer. A refused
message changes the position only. -/
theorem sendPatch_spec (cut : source.Cut) {seq : Nat} (inRange : seq < source.seqMax)
    (position : sender.fdPatch bcdId = source.offset seq) :
    patchBufLen < source.payloadBytes seq ∧ sendPatch config source bcdId seq sender = .error .badPointer ∨
      source.payloadBytes seq ≤ patchBufLen ∧ ∃ ret next, sendPatch config source bcdId seq sender = .ok (ret, next) ∧
        Sends sender next (if ret then [source.patch seq] else []) ∧
        (ret = true → next.fdPatch bcdId = source.offset (seq + 1)) ∧ (sender.sendQueue = [] → ret = true) := by
  rw [sendPatch]
  by_cases long : patchBufLen < source.payloadBytes seq
  · exact .inl ⟨long, if_pos long⟩
  · have short := Nat.le_of_not_lt long
    refine .inr ⟨short, ?_⟩
    have bounded : patchBufLen < 65536 := by decide
    have counted : u16 (source.payloadBytes seq) = (source.packet seq).length := by
      rw [u16_natCast (by omega), cut.payloadBytes_eq inRange]
    rw [if_neg long]
    simp only [position, cut.createData_eq inRange]
    split
    · refine ⟨false, _, rfl, Sends.nothing rfl rfl rfl, by simp, ?_⟩
      next refused =>
        intro empty
        simp only [PatchSender.seek, empty, insertMsg2SendQ_empty] at refused
        cases refused
    · next queue taken =>
        refine ⟨true, _, rfl, ⟨[_], rfl, ?_, rfl, ?_, ?_⟩, fun _ => PatchSender.seek_fdPatch _ _ _, fun _ => rfl⟩
        · unfold insertMsg2SendQ aprQueueTrypush at taken
          split_ifs at taken
          exact (Option.some.inj taken).symm
        · simp [Message.content, patchDataMsg, PacketSource.patch, counted]
        · intro msg member
          obtain rfl := List.mem_singleton.mp member
          rw [cut.payloadBytes_eq inRange] at short
          exact (List.length_take_le' _ _).trans short

/-- The inner loop sends the first packets of its range in order. -/
theorem sendPatches_sound (cut : source.Cut) {count seq last : Nat} (inside : seq + count ≤ source.seqMax)
    (position : 0 < count → sender.fdPatch bcdId = source.offset seq)
    (taken : sendPatches config source bcdId count seq sender = .ok (last, next)) :
    seq ≤ last ∧ last ≤ seq + count ∧ Sends sender next ((List.range' seq (last - seq)).map source.patch) ∧
      (sender.sendQueue = [] → 0 < count → seq < last) := by
  induction count generalizing seq sender with
  | zero =>
      obtain ⟨rfl, rfl⟩ := Prod.mk.inj (Except.ok.inj taken)
      refine ⟨le_refl _, le_refl _, ?_, by simp⟩
      rw [Nat.sub_self]
      exact Sends.nothing rfl rfl rfl
  | succ count inductionHypothesis =>
      rcases @sendPatch_spec config source bcdId sender cut seq (by omega) (position (by omega)) with
        ⟨-, fault⟩ | ⟨-, ret, moved, attempt, sends, advanced, empty⟩
      · simp [sendPatches, fault] at taken
      · cases ret with
        | false =>
            simp only [sendPatches, attempt, Except.ok.injEq, Prod.mk.injEq] at taken
            obtain ⟨rfl, rfl⟩ := taken
            refine ⟨le_refl _, by omega, ?_, fun none => absurd (empty none) (by simp)⟩
            rw [Nat.sub_self]
            exact sends
        | true =>
            simp only [sendPatches, attempt] at taken
            obtain ⟨lower, upper, rest, -⟩ :=
              inductionHypothesis (by omega) (fun _ => advanced rfl) taken
            refine ⟨by omega, by omega, ?_, fun _ _ => by omega⟩
            have range : List.range' seq (last - seq) = seq :: List.range' (seq + 1) (last - (seq + 1)) := by
              rw [show last - seq = last - (seq + 1) + 1 by omega, List.range'_succ]
            rw [range, List.map_cons]
            exact sends.trans rest

/-- The inner loop comes back when the packets of its range fit their buffer. -/
theorem sendPatches_ok (cut : source.Cut) {count seq : Nat} (inside : seq + count ≤ source.seqMax)
    (position : 0 < count → sender.fdPatch bcdId = source.offset seq)
    (fits : ∀ later, seq ≤ later → later < seq + count → source.payloadBytes later ≤ patchBufLen) :
    ∃ result, sendPatches config source bcdId count seq sender = .ok result := by
  induction count generalizing seq sender with
  | zero => exact ⟨_, rfl⟩
  | succ count inductionHypothesis =>
      rcases @sendPatch_spec config source bcdId sender cut seq (by omega) (position (by omega)) with
        ⟨long, -⟩ | ⟨-, ret, moved, attempt, -, advanced, -⟩
      · exact absurd (fits seq (le_refl _) (by omega)) (by omega)
      · cases ret with
        | false => exact ⟨(seq, moved), by rw [sendPatches, attempt]⟩
        | true =>
            obtain ⟨result, rest⟩ := inductionHypothesis (by omega) (fun _ => advanced rfl)
              fun later lower upper => fits later (by omega) (by omega)
            exact ⟨result, by rw [sendPatches, attempt]; exact rest⟩

/-- The position of a nonempty range fits `uint32_t`. -/
theorem patchOffset_eq (cut : source.Cut) (small : source.data.length < 4294967296) {seq : Nat}
    (inRange : seq < source.seqMax) : patchOffset seq source.bytePayload = source.offset seq := by
  have bound := (lt_sliceCount_iff cut.positive seq).mp (cut.inside inRange)
  rw [patchOffset, PacketSource.offset, offset_of_lt cut.positive (cut.inside inRange)]
  exact_mod_cast u32_natCast (bound.trans small)

/-- The call of `fseek` finds the first packet of a nonempty range. -/
theorem seek_patchOffset (cut : source.Cut) (small : source.data.length < 4294967296) {pt : PatchTuple}
    (inside : pt.endSeq ≤ source.seqMax) (sender : PatchSender) (bcdId : BcdID) :
    0 < pt.endSeq - pt.sttSeq →
      (sender.seek bcdId (patchOffset pt.sttSeq source.bytePayload)).fdPatch bcdId = source.offset pt.sttSeq := by
  intro nonempty
  rw [PatchSender.seek_fdPatch]
  exact patchOffset_eq cut small (by omega)

end Sending

section Serving

variable {config : PatchConfig} {ring : List PatchElement} {sender next : PatchSender}

/-- The messages of a range that is served up to a packet inside it. -/
theorem expected_split {elem : PatchElement} {source : PacketSource}
    (found : config.hashMulticast elem.bcdId = some source) {seq : Nat} (lower : elem.pt.sttSeq ≤ seq)
    (upper : seq ≤ elem.pt.endSeq) :
    config.expected elem = (List.range' elem.pt.sttSeq (seq - elem.pt.sttSeq)).map source.patch ++
      config.expected { elem with pt := { elem.pt with sttSeq := seq } } := by
  simp only [PatchConfig.expected, found, PatchTuple.seqs]
  rw [← List.map_append]
  congr 1
  have joined := @List.range'_append_1 elem.pt.sttSeq (seq - elem.pt.sttSeq) (elem.pt.endSeq - seq)
  rw [show elem.pt.sttSeq + (seq - elem.pt.sttSeq) = seq by omega,
    show seq - elem.pt.sttSeq + (elem.pt.endSeq - seq) = elem.pt.endSeq - elem.pt.sttSeq by omega] at joined
  exact joined.symm

theorem expected_done {elem : PatchElement} :
    config.expected { elem with pt := { elem.pt with sttSeq := elem.pt.endSeq } } = [] := by
  unfold PatchConfig.expected
  split <;> simp [PatchTuple.seqs]

/-- A call leaves a rest of the ring and sends the messages in front of it. An empty queue makes it serve
something. -/
theorem serveRing_sound (valid : ∀ elem ∈ ring, config.Valid elem)
    (taken : serveRing config ring sender = .ok next) :
    Remains ring next.ring ∧
      (∃ contents, Sends sender next contents ∧
        contents ++ next.ring.flatMap config.expected = ring.flatMap config.expected) ∧
      (sender.sendQueue = [] → ring ≠ [] → ringSize next.ring < ringSize ring) := by
  induction ring generalizing sender with
  | nil =>
      obtain rfl := Except.ok.inj taken
      exact ⟨Remains.refl [], ⟨[], Sends.nothing rfl rfl rfl, rfl⟩, by simp⟩
  | cons elem rest inductionHypothesis =>
      obtain ⟨source, found, cut, small, ordered, inside⟩ := valid elem List.mem_cons_self
      simp only [serveRing, found] at taken
      split_ifs at taken with room
      · split at taken
        · cases taken
        · next seq served loop =>
            obtain ⟨lower, upper, sends, progress⟩ :=
              sendPatches_sound cut (by omega) (seek_patchOffset cut small inside sender elem.bcdId) loop
            have split := expected_split found lower (by omega)
            have sends : Sends sender served _ := sends
            split_ifs at taken with done
            · obtain ⟨remains, ⟨contents, more, order⟩, -⟩ :=
                inductionHypothesis (fun other member => valid other (List.mem_cons_of_mem elem member)) taken
              refine ⟨remains.cons, ⟨_, sends.trans more, ?_⟩, ?_⟩
              · rw [done, expected_done, List.append_nil] at split
                rw [List.append_assoc, order, done, ← split, List.flatMap_cons]
              · intro _ _
                have shorter := remains.size
                simp only [ringSize, List.map_cons, List.sum_cons] at shorter ⊢
                omega
            · obtain rfl := Except.ok.inj taken
              refine ⟨.inr ⟨elem, seq, rest, lower, by omega, rfl, List.suffix_refl _⟩, ⟨_, sends, ?_⟩, ?_⟩
              · rw [List.flatMap_cons, List.flatMap_cons, ← List.append_assoc, split]
              · intro empty _
                have moved := progress empty (by omega)
                simp only [ringSize, List.map_cons, List.sum_cons]
                omega
      · obtain rfl := Except.ok.inj taken
        refine ⟨Remains.refl _, ⟨[], Sends.nothing rfl rfl rfl, rfl⟩, fun empty _ => ?_⟩
        rw [empty] at room
        exact absurd (by decide) room

/-- A call comes back when the packets of the ring fit their buffer. -/
theorem serveRing_ok (valid : ∀ elem ∈ ring, config.Valid elem)
    (fits : ∀ elem ∈ ring, config.Fits elem) (sender : PatchSender) :
    ∃ next, serveRing config ring sender = .ok next := by
  induction ring generalizing sender with
  | nil => exact ⟨_, rfl⟩
  | cons elem rest inductionHypothesis =>
      obtain ⟨source, found, cut, small, ordered, inside⟩ := valid elem List.mem_cons_self
      simp only [serveRing, found]
      split_ifs with room
      · obtain ⟨⟨seq, served⟩, loop⟩ := @sendPatches_ok config source elem.bcdId _ cut
          (elem.pt.endSeq - elem.pt.sttSeq) elem.pt.sttSeq (by omega)
          (seek_patchOffset cut small inside sender elem.bcdId) fun later lower upper =>
            fits elem List.mem_cons_self source found later ((elem.pt.mem_seqs later).mpr ⟨lower, by omega⟩)
        simp only [loop]
        split_ifs with done
        · exact inductionHypothesis (fun other member => valid other (List.mem_cons_of_mem elem member))
            (fun other member => fits other (List.mem_cons_of_mem elem member)) served
        · exact ⟨_, rfl⟩
      · exact ⟨_, rfl⟩

/-- A message that leaves the queue was put into it. -/
theorem patchStep_served {start : PatchSender} {event : PatchEvent} (valid : ∀ elem ∈ start.ring, config.Valid elem)
    (served : config.Served start sender) (taken : patchStep config sender event = .ok next) :
    config.Served start next := by
  cases event with
  | process =>
      obtain ⟨remains, ⟨contents, ⟨added, pushed, queued, left, content, -⟩, order⟩, -⟩ :=
        serveRing_sound (served.remains.valid valid) taken
      constructor
      · exact served.remains.trans remains
      · rw [pushed, List.map_append, content, List.append_assoc, order]
        exact served.order
      · rw [left, queued, ← List.append_assoc, served.queued, pushed, List.map_append, List.append_assoc]
  | leave count =>
      obtain rfl := Except.ok.inj taken
      refine ⟨served.remains, served.order, ?_⟩
      rw [List.append_assoc, List.take_append_drop]
      exact served.queued

/-- The messages that are pushed fit their buffer. -/
theorem patchStep_short {event : PatchEvent} (valid : ∀ elem ∈ sender.ring, config.Valid elem)
    (short : ∀ msg ∈ sender.pushed, msg.payload.length ≤ patchBufLen)
    (taken : patchStep config sender event = .ok next) : ∀ msg ∈ next.pushed, msg.payload.length ≤ patchBufLen := by
  cases event with
  | process =>
      obtain ⟨-, ⟨contents, ⟨added, pushed, -, -, -, fits⟩, -⟩, -⟩ := serveRing_sound valid taken
      intro msg member
      rw [pushed] at member
      exact (List.mem_append.mp member).elim (short msg) (fits msg)
  | leave count =>
      obtain rfl := Except.ok.inj taken
      exact short

end Serving

section Service

variable {config : PatchConfig} {ring : List PatchElement} {fdPatch : BcdID → Nat} {sendQueue : List MsgToken}

theorem PatchConfig.Served.start (config : PatchConfig) (ring : List PatchElement) (fdPatch : BcdID → Nat)
    (sendQueue : List MsgToken) :
    config.Served (PatchSender.start ring fdPatch sendQueue) (PatchSender.start ring fdPatch sendQueue) where
  remains := Remains.refl ring
  order := rfl
  queued := by simp [PatchSender.start]

/-- A ring of packets that fit their buffer is served in every run. -/
theorem served_of_fits (valid : ∀ elem ∈ ring, config.Valid elem) (fits : ∀ elem ∈ ring, config.Fits elem)
    (events : List PatchEvent) :
    ∃ sender, execute (patchStep config) (PatchSender.start ring fdPatch sendQueue) events = .ok sender ∧
      config.Served (PatchSender.start ring fdPatch sendQueue) sender := by
  refine execute_completes _ (fun sender event served => ?_)
    (PatchConfig.Served.start config ring fdPatch sendQueue) events
  have taken : ∃ next, patchStep config sender event = .ok next := by
    cases event with
    | process => exact serveRing_ok (served.remains.valid valid) (served.remains.fits fits) sender
    | leave count => exact ⟨_, rfl⟩
  obtain ⟨next, taken⟩ := taken
  exact ⟨next, taken, patchStep_served valid served taken⟩

/-- The sender is reached by a run, has served the front of the ring and has pushed no message that is longer than
its buffer. -/
structure Underway (config : PatchConfig) (start sender : PatchSender) : Prop where
  served : config.Served start sender
  short : ∀ msg ∈ sender.pushed, msg.payload.length ≤ patchBufLen
  reached : ∃ events, execute (patchStep config) start events = .ok sender

/-- When no run faults, every sender underway takes its next step. -/
theorem Underway.step {start sender : PatchSender} (underway : Underway config start sender)
    (valid : ∀ elem ∈ start.ring, config.Valid elem)
    (completes : ∀ events, ∃ sender, execute (patchStep config) start events = .ok sender) (event : PatchEvent) :
    ∃ next, patchStep config sender event = .ok next ∧ Underway config start next := by
  obtain ⟨events, reached⟩ := underway.reached
  obtain ⟨next, whole⟩ := completes (events ++ [event])
  obtain ⟨middle, before, after⟩ := execute_append_ok.mp whole
  obtain rfl := Except.ok.inj (reached.symm.trans before)
  rw [execute_singleton] at after
  have short := patchStep_short (underway.served.remains.valid valid) underway.short after
  exact ⟨next, after, patchStep_served valid underway.served after, short, events ++ [event], whole⟩

/-- A call on an empty queue serves a part of the ring. -/
theorem Underway.progress {start sender : PatchSender} (underway : Underway config start sender)
    (valid : ∀ elem ∈ start.ring, config.Valid elem)
    (completes : ∀ events, ∃ sender, execute (patchStep config) start events = .ok sender)
    (rest : sender.ring ≠ []) :
    ∃ events next, execute (patchStep config) sender events = .ok next ∧ Underway config start next ∧
      ringSize next.ring < ringSize sender.ring := by
  obtain ⟨drained, left, after⟩ := underway.step valid completes (.leave sender.sendQueue.length)
  obtain ⟨next, taken, final⟩ := after.step valid completes .process
  obtain rfl := Except.ok.inj left
  refine ⟨[.leave sender.sendQueue.length, .process], next, ?_, final, ?_⟩
  · refine execute_cons_ok.mpr ⟨_, rfl, ?_⟩
    rw [execute_singleton]
    exact taken
  · exact (serveRing_sound (underway.served.remains.valid valid) taken).2.2 List.drop_length rest

/-- When no run faults, one of them serves the whole ring. -/
theorem exists_served_whole (valid : ∀ elem ∈ ring, config.Valid elem)
    (completes : ∀ events, ∃ sender,
      execute (patchStep config) (PatchSender.start ring fdPatch sendQueue) events = .ok sender) :
    ∃ sender, Underway config (PatchSender.start ring fdPatch sendQueue) sender ∧ sender.ring = [] := by
  have initial : Underway config (PatchSender.start ring fdPatch sendQueue)
      (PatchSender.start ring fdPatch sendQueue) :=
    ⟨PatchConfig.Served.start config ring fdPatch sendQueue, by simp [PatchSender.start], [], rfl⟩
  obtain ⟨-, sender, -, underway, empty⟩ := @exists_execute_of_variant _ _ _ _ _ (fun sender => sender.ring = [])
    (fun sender => ringSize sender.ring) (fun sender underway rest => underway.progress valid completes rest) _
    initial
  exact ⟨sender, underway, empty⟩

/-- The packets that are served fit their buffer. -/
theorem fits_of_completes (valid : ∀ elem ∈ ring, config.Valid elem)
    (completes : ∀ events, ∃ sender,
      execute (patchStep config) (PatchSender.start ring fdPatch sendQueue) events = .ok sender) :
    ∀ elem ∈ ring, config.Fits elem := by
  obtain ⟨sender, underway, empty⟩ := exists_served_whole valid completes
  have order := underway.served.order
  rw [empty, List.flatMap_nil, List.append_nil] at order
  intro elem member source found seq inside
  obtain ⟨other, same, cut, -, -, bound⟩ := valid elem member
  obtain rfl := Option.some.inj (found.symm.trans same)
  have asked : source.patch seq ∈ ring.flatMap config.expected := by
    refine List.mem_flatMap.mpr ⟨elem, member, ?_⟩
    rw [PatchConfig.expected, found]
    exact List.mem_map_of_mem inside
  rw [show ring = (PatchSender.start ring fdPatch sendQueue).ring from rfl, ← order] at asked
  obtain ⟨msg, pushed, content⟩ := List.mem_map.mp asked
  have payload : msg.payload = source.packet seq := congrArg (fun fields => fields.2.2) content
  have last := ((elem.pt.mem_seqs seq).mp inside).2
  rw [cut.payloadBytes_eq (show seq < source.seqMax by omega), ← payload]
  exact underway.short msg pushed

/-- In every run the ring is served once and in order, exactly when each of its packets fits the buffer in which
it is made. -/
theorem patches_served_iff (valid : ∀ elem ∈ ring, config.Valid elem) :
    (∀ events, ∃ sender,
      execute (patchStep config) (PatchSender.start ring fdPatch sendQueue) events = .ok sender ∧
        config.Served (PatchSender.start ring fdPatch sendQueue) sender) ↔
      ∀ elem ∈ ring, config.Fits elem := by
  constructor
  · intro served
    refine @fits_of_completes config ring fdPatch sendQueue valid fun events => ?_
    obtain ⟨sender, completed, -⟩ := served events
    exact ⟨sender, completed⟩
  · exact fun fits events => served_of_fits valid fits events

end Service

/-- An agent with one multicast. -/
def oneMulticast (source : PacketSource) : PatchConfig where
  hashMulticast bcdId := if bcdId = source.bcdId then some source else none
  heap _ := []
  clock _ := Vector.replicate 16 0

theorem oneMulticast_found (source : PacketSource) : (oneMulticast source).hashMulticast source.bcdId = some source :=
  if_pos rfl

theorem oneMulticast_valid {source : PacketSource} (cut : source.Cut) (small : source.data.length < 4294967296)
    {ring : List PatchElement}
    (inside : ∀ elem ∈ ring, elem.bcdId = source.bcdId ∧ elem.pt.sttSeq ≤ elem.pt.endSeq ∧
      elem.pt.endSeq ≤ source.seqMax) : ∀ elem ∈ ring, (oneMulticast source).Valid elem := by
  intro elem member
  obtain ⟨same, ordered, bound⟩ := inside elem member
  exact ⟨source, if_pos same, cut, small, ordered, bound⟩

/-- A payload that leaves room for the header and the metadata fits. -/
theorem oneMulticast_fits {source : PacketSource} (payload : source.bytePayload ≤ 9112)
    (last : source.bytePayloadMin ≤ 9112) (elem : PatchElement) : (oneMulticast source).Fits elem := by
  intro other found seq _
  simp only [oneMulticast, Option.ite_none_right_eq_some, Option.some.injEq] at found
  obtain ⟨-, rfl⟩ := found
  have data : source.dataBytes seq ≤ 9112 := by
    unfold PacketSource.dataBytes
    split_ifs
    · exact last
    · exact payload
  simp only [PacketSource.payloadBytes, dataHdrLen, bcdMetadataLen, appIdLen, patchBufLen]
  split_ifs <;> omega

/-- Three bytes in payloads of one. -/
def threePatches : PacketSource := ⟨⟨1, 2, 3⟩, [97], [10, 20, 30], 3, 1, 1⟩

theorem threePatches_cut : threePatches.Cut := by
  constructor <;> decide

theorem threePatches_valid :
    ∀ elem ∈ [PatchElement.mk ⟨1, 2, 3⟩ ⟨0, 3⟩, ⟨⟨1, 2, 3⟩, ⟨2, 2⟩⟩], (oneMulticast threePatches).Valid elem :=
  oneMulticast_valid threePatches_cut (by decide) (by decide)

/-- A whole range with an empty one behind it is served. -/
theorem patches_served_threePatches :
    (oneMulticast threePatches).Fits ⟨⟨1, 2, 3⟩, ⟨0, 3⟩⟩ ∧ ∀ events, ∃ sender,
      execute (patchStep (oneMulticast threePatches))
          (PatchSender.start [⟨⟨1, 2, 3⟩, ⟨0, 3⟩⟩, ⟨⟨1, 2, 3⟩, ⟨2, 2⟩⟩] (fun _ => 0) []) events = .ok sender ∧
        (oneMulticast threePatches).Served
          (PatchSender.start [⟨⟨1, 2, 3⟩, ⟨0, 3⟩⟩, ⟨⟨1, 2, 3⟩, ⟨2, 2⟩⟩] (fun _ => 0) []) sender :=
  ⟨oneMulticast_fits (by decide) (by decide) _, (patches_served_iff threePatches_valid).mpr
    fun elem _ => oneMulticast_fits (by decide) (by decide) elem⟩

/-- A payload that does not fit the buffer together with its header and the metadata. -/
def longPatch : PacketSource := ⟨⟨1, 2, 3⟩, [97], List.replicate 9200 0, 1, 9200, 9200⟩

theorem longPatch_cut : longPatch.Cut := by
  have length : longPatch.data.length = 9200 := List.length_replicate
  constructor
  · rw [length]
    decide
  · decide
  · decide
  · rw [length]
    decide
  · decide
  · rw [length]
    decide

/-- The only packet of the long payload is written behind the end of its buffer. -/
theorem patches_served_longPatch :
    (∀ elem ∈ [PatchElement.mk ⟨1, 2, 3⟩ ⟨0, 1⟩], (oneMulticast longPatch).Valid elem) ∧
      ¬ ∀ events, ∃ sender, execute (patchStep (oneMulticast longPatch))
          (PatchSender.start [⟨⟨1, 2, 3⟩, ⟨0, 1⟩⟩] (fun _ => 0) []) events = .ok sender ∧
        (oneMulticast longPatch).Served (PatchSender.start [⟨⟨1, 2, 3⟩, ⟨0, 1⟩⟩] (fun _ => 0) []) sender := by
  have small : longPatch.data.length < 4294967296 := by
    rw [longPatch, List.length_replicate]
    decide
  have valid : ∀ elem ∈ [PatchElement.mk ⟨1, 2, 3⟩ ⟨0, 1⟩], (oneMulticast longPatch).Valid elem :=
    oneMulticast_valid longPatch_cut small (by decide)
  refine ⟨valid, fun served => ?_⟩
  have fits := fits_of_completes valid (fun events => (served events).imp fun _ => And.left) ⟨⟨1, 2, 3⟩, ⟨0, 1⟩⟩
    List.mem_cons_self longPatch (oneMulticast_found longPatch) 0 (by decide)
  exact absurd fits (by decide)

end RepublicAgent
