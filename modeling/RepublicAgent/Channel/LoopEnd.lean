/-
This file says when the receive loops of the receiver agent and of the service end. They take every length from
the header of a message.
-/

import Mathlib.Logic.Relation
import RepublicAgent.Channel.Reassembly

namespace RepublicAgent

/-- The header of a frame gives its length. -/
def IsFrame (bytes : List UInt8) : Prop :=
  msgHdrLen ≤ bytes.length ∧ (parseMsgHdr bytes).len = bytes.length

/-- Behind any number of frames, the next header gives no length below its own. -/
def LengthsCover (buf : List UInt8) : Prop :=
  ∀ (frames : List (List UInt8)) (rest : List UInt8), (∀ frame ∈ frames, IsFrame frame) →
    buf = frames.flatten ++ rest → msgHdrLen ≤ rest.length → msgHdrLen ≤ (parseMsgHdr rest).len

/-- A side before its loop has parsed no header, or it has parsed the one in its buffer. -/
def RecvSide.Settled (side : RecvSide) : Prop :=
  (side.mh.type = msgNonType ∧ side.recvExpectByte = byteMax) ∨
    (msgHdrLen ≤ side.recvBuf.length ∧ side.mh = parseMsgHdr side.recvBuf ∧
      side.recvExpectByte = (parseMsgHdr side.recvBuf).len)

/-- The pass of a loop that dispatches every whole message. -/
def RecvSide.Dispatches (side next : RecvSide) : Prop :=
  0 < side.recvBuf.length ∧ side.parseHdr.recvExpectByte ≤ side.parseHdr.recvBuf.length ∧
    next = side.parseHdr.dispatch.reset

/-- The message that a pass dispatches takes at least its header out of the buffer. -/
def RecvSide.Removes (side next : RecvSide) : Prop :=
  next.recvBuf.length + msgHdrLen ≤ side.recvBuf.length

/-- The loop ends, and so long as it goes on, each message takes at least its header. -/
structure LoopEnds (loop : SelectLoop) (hashMulticast : BcdID → Bool) (side : RecvSide) : Prop where
  ends : ∃ passes final, recvLoop loop hashMulticast passes side = some final
  removes : ∀ middle next, Relation.ReflTransGen RecvSide.Dispatches side middle →
    middle.Dispatches next → middle.Removes next

section Frames

variable {buf : List UInt8}

theorem field_take {count : Nat} (offset width : Nat) (inside : offset + width ≤ count) :
    field (buf.take count) offset width = field buf offset width := by
  unfold field
  rw [List.drop_take, List.take_take, min_eq_left (by omega)]

/-- The header lies in the first bytes. -/
theorem parseMsgHdr_take {count : Nat} (headed : msgHdrLen ≤ count) :
    parseMsgHdr (buf.take count) = parseMsgHdr buf := by
  unfold msgHdrLen at headed
  unfold parseMsgHdr parseBcdId
  rw [field_take 0 8 (by omega), field_take 8 8 (by omega), field_take 16 8 (by omega),
    field_take 24 4 (by omega), field_take 28 4 (by omega), field_take 32 16 (by omega)]

theorem parseMsgHdr_append (headed : msgHdrLen ≤ buf.length) (back : List UInt8) :
    parseMsgHdr (buf ++ back) = parseMsgHdr buf := by
  have front : parseMsgHdr ((buf ++ back).take buf.length) = parseMsgHdr (buf ++ back) := parseMsgHdr_take headed
  rw [List.take_left] at front
  exact front.symm

/-- The lengths behind a whole message cover their headers too. -/
theorem LengthsCover.tail (cover : LengthsCover buf) (headed : msgHdrLen ≤ buf.length)
    (whole : (parseMsgHdr buf).len ≤ buf.length) : LengthsCover (buf.drop (parseMsgHdr buf).len) := by
  intro frames rest each equal behind
  have first := cover [] buf (by simp) rfl headed
  refine cover (buf.take (parseMsgHdr buf).len :: frames) rest ?_ ?_ behind
  · intro frame member
    rcases List.mem_cons.mp member with rfl | later
    · refine ⟨?_, ?_⟩
      · rwa [List.length_take_of_le whole]
      · rw [parseMsgHdr_take first, List.length_take_of_le whole]
    · exact each frame later
  · rw [List.flatten_cons, List.append_assoc, ← equal, List.take_append_drop]

end Frames

section Passes

variable {loop : SelectLoop} {hashMulticast : BcdID → Bool} {side next : RecvSide}

/-- A settled side knows its header as soon as it is there. -/
theorem RecvSide.Settled.parseHdr_eq (settled : side.Settled) (headed : msgHdrLen ≤ side.recvBuf.length) :
    side.parseHdr = { side with
      mh := parseMsgHdr side.recvBuf, recvExpectByte := (parseMsgHdr side.recvBuf).len } := by
  unfold parseHdr
  split_ifs with unknown
  · rfl
  · rcases settled with ⟨none, _⟩ | ⟨_, mh, expect⟩
    · exact absurd ⟨headed, none⟩ unknown
    · rw [← expect, ← mh]

/-- Without a whole header there is no whole message. -/
theorem RecvSide.Settled.headed (settled : side.Settled) (bounded : side.recvBuf.length ≤ recvBufLen)
    (whole : side.parseHdr.recvExpectByte ≤ side.parseHdr.recvBuf.length) : msgHdrLen ≤ side.recvBuf.length := by
  by_contra short
  have same : side.parseHdr = side := by
    rw [RecvSide.parseHdr, if_neg fun both => short both.1]
  rw [same] at whole
  rcases settled with ⟨_, expect⟩ | ⟨there, _⟩
  · unfold byteMax at expect
    unfold recvBufLen at bounded
    omega
  · exact short there

/-- A settled side dispatches exactly a whole message, whose bytes leave the buffer. -/
theorem RecvSide.Settled.dispatches_iff (settled : side.Settled) (bounded : side.recvBuf.length ≤ recvBufLen) :
    side.Dispatches next ↔ msgHdrLen ≤ side.recvBuf.length ∧
      (parseMsgHdr side.recvBuf).len ≤ side.recvBuf.length ∧ next = side.parseHdr.dispatch.reset := by
  constructor
  · rintro ⟨_, whole, after⟩
    have headed := settled.headed bounded whole
    rw [settled.parseHdr_eq headed] at whole
    exact ⟨headed, whole, after⟩
  · rintro ⟨headed, whole, after⟩
    have header : 0 < msgHdrLen := by decide
    refine ⟨by omega, ?_, after⟩
    rw [settled.parseHdr_eq headed]
    exact whole

theorem RecvSide.Settled.reset_recvBuf (settled : side.Settled) (headed : msgHdrLen ≤ side.recvBuf.length) :
    side.parseHdr.dispatch.reset.recvBuf = side.recvBuf.drop (parseMsgHdr side.recvBuf).len := by
  rw [settled.parseHdr_eq headed]
  rfl

theorem RecvSide.settled_reset (side : RecvSide) : side.reset.Settled := .inl ⟨rfl, rfl⟩

/-- What the passes of a loop keep. -/
structure RecvSide.Covered (side : RecvSide) : Prop where
  settled : side.Settled
  bounded : side.recvBuf.length ≤ recvBufLen
  cover : LengthsCover side.recvBuf

/-- A pass over a covered message removes it and keeps the rest covered. -/
theorem RecvSide.Covered.dispatches (covered : side.Covered) (passed : side.Dispatches next) :
    next.Covered ∧ side.Removes next := by
  obtain ⟨headed, whole, rfl⟩ := (covered.settled.dispatches_iff covered.bounded).mp passed
  have left := covered.settled.reset_recvBuf headed
  have size := congrArg List.length left
  rw [List.length_drop] at size
  have first := covered.cover [] side.recvBuf (by simp) rfl headed
  have bounded := covered.bounded
  refine ⟨⟨RecvSide.settled_reset _, by omega, ?_⟩, ?_⟩
  · rw [left]
    exact covered.cover.tail headed whole
  · unfold Removes
    omega

/-- A loop that leaves no message ends where nothing is left to dispatch. -/
theorem recvLoop_succ (handled : ∀ bcdId, loop.continues hashMulticast bcdId = false) (passes : Nat)
    (side : RecvSide) : (∃ next, side.Dispatches next ∧
        recvLoop loop hashMulticast (passes + 1) side = recvLoop loop hashMulticast passes next) ∨
      (recvLoop loop hashMulticast (passes + 1) side = some side.parseHdr) ∨
        recvLoop loop hashMulticast (passes + 1) side = some side := by
  rw [recvLoop]
  by_cases some_ : 0 < side.recvBuf.length
  · rw [if_pos some_]
    by_cases whole : side.parseHdr.recvExpectByte ≤ side.parseHdr.recvBuf.length
    · refine .inl ⟨_, ⟨some_, whole, rfl⟩, ?_⟩
      simp only [whole, if_true, handled, Bool.false_eq_true, if_false]
    · refine .inr (.inl ?_)
      simp only [whole, if_false]
  · rw [if_neg some_]
    exact .inr (.inr rfl)

/-- A loop over covered messages ends. -/
theorem RecvSide.Covered.ends (handled : ∀ bcdId, loop.continues hashMulticast bcdId = false)
    (covered : side.Covered) {passes : Nat} (enough : side.recvBuf.length < passes) :
    ∃ final, recvLoop loop hashMulticast passes side = some final := by
  induction passes generalizing side with
  | zero => omega
  | succ passes ih =>
      rcases recvLoop_succ handled passes side with ⟨next, passed, same⟩ | stopped | stopped
      · obtain ⟨kept, removed⟩ := covered.dispatches passed
        unfold Removes msgHdrLen at removed
        rw [same]
        exact ih kept (by omega)
      · exact ⟨_, stopped⟩
      · exact ⟨_, stopped⟩

/-- Messages that take at least their headers come from covered lengths. -/
theorem RecvSide.Settled.cover (settled : side.Settled) (bounded : side.recvBuf.length ≤ recvBufLen)
    (removes : ∀ middle next, Relation.ReflTransGen Dispatches side middle → middle.Dispatches next →
      middle.Removes next) : LengthsCover side.recvBuf := by
  intro frames rest each equal headed
  induction frames generalizing side with
  | nil =>
      rw [List.flatten_nil, List.nil_append] at equal
      subst equal
      by_contra low
      have passed := (settled.dispatches_iff bounded).mpr ⟨headed, by omega, rfl⟩
      have removed := removes side _ .refl passed
      have size := congrArg List.length (settled.reset_recvBuf headed)
      rw [List.length_drop] at size
      unfold Removes at removed
      omega
  | cons frame frames ih =>
      obtain ⟨there, length⟩ := each frame List.mem_cons_self
      rw [List.flatten_cons, List.append_assoc] at equal
      have header : parseMsgHdr side.recvBuf = parseMsgHdr frame := by
        rw [equal, parseMsgHdr_append there]
      have sizes := congrArg List.length equal
      rw [List.length_append] at sizes
      have front : msgHdrLen ≤ side.recvBuf.length := by omega
      have passed := (settled.dispatches_iff bounded).mpr ⟨front, by rw [header]; omega, rfl⟩
      have left := settled.reset_recvBuf front
      rw [header, length, equal, List.drop_left] at left
      have fewer := congrArg List.length left
      refine ih (RecvSide.settled_reset _) (by omega) ?_ (fun other member => each other (by simp [member])) left
      intro middle next reached again
      exact removes middle next (.head passed reached) again

/-- The header that a loop leaves behind is that of its buffer. -/
theorem RecvSide.Settled.parseHdr (settled : side.Settled) : side.parseHdr.Settled := by
  by_cases headed : msgHdrLen ≤ side.recvBuf.length
  · rw [settled.parseHdr_eq headed]
    exact .inr ⟨headed, rfl, rfl⟩
  · rw [RecvSide.parseHdr, if_neg fun both => headed both.1]
    exact settled

/-- A loop leaves a settled side with at most the bytes it began with. -/
theorem RecvSide.Settled.recvLoop (settled : side.Settled)
    (handled : ∀ bcdId, loop.continues hashMulticast bcdId = false) {passes : Nat} {final : RecvSide}
    (ended : RepublicAgent.recvLoop loop hashMulticast passes side = some final) :
    final.Settled ∧ final.recvBuf.length ≤ side.recvBuf.length := by
  induction passes generalizing side with
  | zero => cases ended
  | succ passes ih =>
      rcases recvLoop_succ handled passes side with ⟨next, ⟨_, _, after⟩, same⟩ | stopped | stopped
      · subst after
        obtain ⟨kept, fewer⟩ := ih (RecvSide.settled_reset _) (same ▸ ended)
        have shorter : side.parseHdr.dispatch.reset.recvBuf.length ≤ side.recvBuf.length := by
          simp [reset, dispatch]
        exact ⟨kept, fewer.trans shorter⟩
      · obtain rfl := Option.some.inj (stopped.symm.trans ended)
        exact ⟨settled.parseHdr, by rw [RecvSide.parseHdr_recvBuf]⟩
      · obtain rfl := Option.some.inj (stopped.symm.trans ended)
        exact ⟨settled, le_rfl⟩

/-- Every read of a connection leaves a settled side whose bytes fit into the buffer. -/
theorem Inbound.receive_settled (handled : ∀ table bcdId, loop.continues table bcdId = false)
    {inbound after : Inbound} {call : RecvCall} (settled : inbound.side.Settled)
    (bounded : inbound.side.recvBuf.length ≤ recvBufLen) (taken : inbound.receive loop call = .ok after) :
    after.side.Settled ∧ after.side.recvBuf.length ≤ recvBufLen := by
  have size := inbound.read_length call
  have fits : (inbound.read call).recvBuf.length ≤ recvBufLen := by
    rw [size]
    unfold count
    omega
  have before : (inbound.read call).Settled := by
    rcases settled with none | ⟨headed, mh, expect⟩
    · exact .inl none
    · refine .inr ⟨by rw [size]; omega, ?_, ?_⟩
      · rw [Inbound.read, parseMsgHdr_append headed]
        exact mh
      · rw [Inbound.read, parseMsgHdr_append headed]
        exact expect
  unfold receive at taken
  split_ifs at taken
  · obtain rfl := Except.ok.inj taken
    exact ⟨settled, bounded⟩
  · simp only at taken
    split at taken
    · cases taken
    · next final ended =>
        obtain rfl := Except.ok.inj taken
        obtain ⟨kept, fewer⟩ := before.recvLoop (handled call.hashMulticast) ended
        exact ⟨kept, fewer.trans fits⟩

end Passes

theorem SelectLoop.continues_eq_false {loop : SelectLoop}
    (other : loop = .threadRecvSocket ∨ loop = .threadDomainSocket) (hashMulticast : BcdID → Bool)
    (bcdId : BcdID) : loop.continues hashMulticast bcdId = false := by
  rcases other with rfl | rfl <;> rfl

/-- The loops that handle every message end, each message with at least its header removed, exactly when every
length that they take covers its header. -/
theorem recvLoop_ends_iff {loop : SelectLoop} (other : loop = .threadRecvSocket ∨ loop = .threadDomainSocket)
    (hashMulticast : BcdID → Bool) {side : RecvSide} (settled : side.Settled)
    (bounded : side.recvBuf.length ≤ recvBufLen) :
    LoopEnds loop hashMulticast side ↔ LengthsCover side.recvBuf := by
  constructor
  · exact fun ends => settled.cover bounded ends.removes
  · intro cover
    have start : side.Covered := ⟨settled, bounded, cover⟩
    have covered : ∀ middle, Relation.ReflTransGen RecvSide.Dispatches side middle → middle.Covered := by
      intro middle reached
      induction reached with
      | refl => exact start
      | tail _ passed ih => exact (ih.dispatches passed).1
    refine ⟨⟨_, start.ends (SelectLoop.continues_eq_false other hashMulticast) (Nat.lt_succ_self _)⟩, ?_⟩
    intro middle next reached passed
    exact ((covered middle reached).dispatches passed).2

/-- A header with the length in its last byte of four. -/
def headerOnly (len : UInt8) : RecvSide :=
  { RecvSide.created with recvBuf := List.replicate 31 0 ++ len :: List.replicate 16 0 }

theorem recvLoop_ends_headerOnly : LoopEnds .threadDomainSocket (fun _ => false) (headerOnly 48) := by
  refine (recvLoop_ends_iff (.inr rfl) _ (.inl ⟨rfl, rfl⟩) (by decide)).mpr ?_
  intro frames rest each equal headed
  cases frames with
  | nil =>
      obtain rfl : (headerOnly 48).recvBuf = rest := equal
      decide
  | cons frame frames =>
      have first := (each frame List.mem_cons_self).1
      have sizes := congrArg List.length equal
      have total : (headerOnly 48).recvBuf.length = 48 := rfl
      rw [List.flatten_cons, List.append_assoc, List.length_append, List.length_append, total] at sizes
      unfold msgHdrLen at *
      omega

/-- A message of no bytes stays in the buffer and is dispatched again and again. -/
theorem headerOnly_hangs {side : RecvSide} (empty : side.recvBuf = (headerOnly 0).recvBuf)
    (unknown : side.mh.type = msgNonType) (passes : Nat) :
    recvLoop .threadRecvSocket (fun _ => false) passes side = none := by
  induction passes generalizing side with
  | zero => rfl
  | succ passes ih =>
      have parsed : side.parseHdr =
          { side with mh := parseMsgHdr (headerOnly 0).recvBuf, recvExpectByte := 0 } := by
        rw [RecvSide.parseHdr, if_pos ⟨by rw [empty]; decide, unknown⟩, empty]
        rfl
      have positive : 0 < side.recvBuf.length := by
        rw [empty]
        decide
      rw [recvLoop, if_pos positive]
      simp only [parsed, Nat.zero_le, if_true, SelectLoop.continues, Bool.false_eq_true, if_false]
      exact ih (by simpa [RecvSide.reset, RecvSide.dispatch] using empty) rfl

theorem recvLoop_hangs : ¬ ∀ side : RecvSide, side.Settled → side.recvBuf.length ≤ recvBufLen →
    LoopEnds .threadRecvSocket (fun _ => false) side := by
  intro always
  obtain ⟨passes, final, ended⟩ := (always (headerOnly 0) (.inl ⟨rfl, rfl⟩) (by decide)).ends
  have hangs := @headerOnly_hangs (headerOnly 0) rfl rfl passes
  rw [hangs] at ended
  cases ended

end RepublicAgent
