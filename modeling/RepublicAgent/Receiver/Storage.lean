/-
This file proves that each packet is stored at its place of the layout.
-/

import RepublicAgent.Receiver.Layout

namespace RepublicAgent
open CyclicWindow Execution MachineInteger PositionedWrite

/-- A packet behind the tail is held in the tail buffer and every other packet in the file. -/
def Held (b : Broadcast) (recv : RecverState) (seq : Nat) : Prop :=
  if recv.seqTail ≠ 0 ∧ recv.seqTail < seq then
    ∃ buffer, recv.tailPatchBuffer = some buffer ∧
      AgreesOn buffer (b.data.drop (b.front recv.seqTail)) (b.offset seq - b.front recv.seqTail)
        (b.offset (seq + 1) - b.front recv.seqTail)
  else
    AgreesOn recv.file (b.layout recv.seqFst recv.seqTail) (b.place recv.seqFst recv.seqTail seq)
      (b.place recv.seqFst recv.seqTail seq + (b.offset (seq + 1) - b.offset seq))

/-- The received packets are held and the metadata fit the layout. -/
structure Stored (b : Broadcast) (recv : RecverState) (received : List Nat) : Prop where
  tailOrder : recv.seqTail ≠ 0 → recv.seqFst < recv.seqTail ∧ recv.seqTail < b.seqMax
  patchStream : recv.fdPatchP.isSome = true
  start : (recv.seqTail = 0 ∧ recv.isSeqZero = false ∧ recv.fileMetadata.start = -1) ∨
    ((recv.seqTail ≠ 0 ∨ recv.isSeqZero = true) ∧ recv.fileMetadata.start =
      if recv.seqFst = 0 then 0 else ((b.front recv.seqTail - b.offset recv.seqFst : Nat) : Int))
  bufferLength : recv.isSeqZero = true →
    recv.tailPatchBufferLen = ((b.data.length - b.front recv.seqTail : Nat) : Int)
  buffer : ∀ buffer, recv.tailPatchBuffer = some buffer →
    buffer.length = b.data.length - b.front recv.seqTail
  allocated : recv.isSeqZero = true → b.front recv.seqTail < b.data.length →
    recv.tailPatchBuffer.isSome = true
  fits : recv.file.length ≤ b.front recv.seqTail
  held : ∀ seq ∈ received, seq < b.seqMax ∧ Held b recv seq

section Learning

variable {b : Broadcast} {recv : RecverState} {received : List Nat} {seq : Nat}

theorem learn_tailBuffer (knows : Knows b recv) :
    ((recv.learn b.metadata).tailPatchBuffer, (recv.learn b.metadata).tailPatchBufferLen) =
      if recv.seqTail = 0 then (recv.tailPatchBuffer, recv.tailPatchBufferLen)
      else
        let len := tailLength b.seqMax recv.seqTail b.payloadLen (b.data.length - b.offset (b.seqMax - 1))
        if len ≤ 0 then (recv.tailPatchBuffer, 0) else (some (List.replicate len.toNat 0), len) := by
  have count : (recv.withGeometry b.metadata).seqMax = b.seqMax := learn_seqMax_eq knows.payload
  have least : (recv.withGeometry b.metadata).bytePayloadMin = b.data.length - b.offset (b.seqMax - 1) :=
    learn_bytePayloadMin_eq knows.payload
  have payload : (recv.withGeometry b.metadata).bytePayload = b.payloadLen := knows.payload
  show RecverState.tailBuffer (recv.withGeometry b.metadata) = _
  unfold RecverState.tailBuffer
  rw [count, least, payload]
  rfl

/-- The learned tail buffer has exactly the size of the tail. -/
theorem learn_tail (short : b.data.length < 2147483648) (knows : Knows b recv)
    (unknown : recv.isSeqZero = false) (inside : recv.seqTail < b.seqMax) :
    (recv.learn b.metadata).tailPatchBufferLen = ((b.data.length - b.front recv.seqTail : Nat) : Int) ∧
      (recv.learn b.metadata).tailPatchBuffer =
        if b.front recv.seqTail < b.data.length then
          some (List.replicate (b.data.length - b.front recv.seqTail) 0)
        else none := by
  obtain ⟨_, unallocated, unmeasured⟩ := knows.unlearned unknown
  have learned := learn_tailBuffer knows
  unfold Broadcast.front
  by_cases wrapped : recv.seqTail = 0
  · rw [if_pos wrapped, unallocated, unmeasured, Prod.mk.injEq] at learned
    simp [learned, wrapped]
  · rw [if_neg wrapped] at learned
    rw [if_neg wrapped]
    by_cases last : recv.seqTail + 1 = b.seqMax
    · have none := b.tailLength_last last
      simp only [if_pos none, unallocated, Prod.mk.injEq] at learned
      rw [last, b.offset_seqMax, learned.1, learned.2]
      simp
    · have inner : recv.seqTail + 1 < b.seqMax := by omega
      have below := b.offset_lt inner
      have exact : tailLength b.seqMax recv.seqTail b.payloadLen (b.data.length - b.offset (b.seqMax - 1)) =
          ((b.data.length - b.offset (recv.seqTail + 1) : Nat) : Int) := by
        rw [b.tailLength_eq short inner, Nat.cast_sub below.le]
      simp only [exact, Int.toNat_natCast] at learned
      rw [if_neg (by omega), Prod.mk.injEq] at learned
      rw [learned.1, learned.2, if_pos below]
      exact ⟨rfl, rfl⟩

/-- The start of the file follows the packets from the first one on. -/
theorem learn_start (short : b.data.length < 2147483648) (knows : Knows b recv)
    (unknown : recv.isSeqZero = false) (fstInside : recv.seqFst < b.seqMax) (flat : recv.seqTail = 0)
    (unset : recv.fileMetadata.start = -1) :
    (recv.learn b.metadata).fileMetadata.start =
      if recv.seqFst = 0 then 0 else ((b.front recv.seqTail - b.offset recv.seqFst : Nat) : Int) := by
  have measured := (learn_tail short knows unknown (by omega)).1
  have below := b.offset_lt fstInside
  have start : (recv.learn b.metadata).fileMetadata.start =
      (startDifference b.data.length recv.bytePayload recv.seqFst
        (recv.learn b.metadata).tailPatchBufferLen).tmod b.data.length := by
    show (if recv.fileMetadata.start < 0 then _ else _) = _
    rw [unset, if_pos (by decide)]
    rfl
  have first : u32 ((b.payloadLen : Int) * recv.seqFst) = b.offset recv.seqFst := by
    rw [b.offset_of_lt fstInside, Nat.mul_comm, ← Nat.cast_mul] at *
    exact u32_natCast (by omega)
  rw [start, measured, knows.payload, startDifference, first, flat]
  simp only [Broadcast.front, if_true]
  by_cases zero : recv.seqFst = 0
  · simp [zero]
  · have positive : 0 < b.offset recv.seqFst := by
      have lower := b.offset_lt_succ b.seqMax_pos
      have ordered : b.offset (0 + 1) ≤ b.offset recv.seqFst := b.offset_mono (by omega)
      omega
    rw [if_neg zero, Int.tmod_eq_of_lt (by omega) (by omega)]
    omega

/-- The metadata leave the stored packets. -/
theorem Stored.learn (stored : Stored b recv received) (short : b.data.length < 2147483648)
    (knows : Knows b recv) (unknown : recv.isSeqZero = false) (fstInside : recv.seqFst < b.seqMax) :
    Stored b (recv.learn b.metadata) received := by
  have positive := b.seqMax_pos
  have tailInside : recv.seqTail < b.seqMax := by
    by_cases wrapped : recv.seqTail = 0
    · omega
    · exact (stored.tailOrder wrapped).2
  obtain ⟨measured, allocated⟩ := learn_tail short knows unknown tailInside
  have unallocated := (knows.unlearned unknown).2.1
  refine ⟨stored.tailOrder, stored.patchStream, .inr ⟨.inr rfl, ?_⟩, fun _ => measured, ?_, ?_,
    stored.fits, ?_⟩
  · show (recv.learn b.metadata).fileMetadata.start = _
    rcases stored.start with ⟨flat, _, unset⟩ | ⟨_, known⟩
    · exact learn_start short knows unknown fstInside flat unset
    · have set : ¬recv.fileMetadata.start < 0 := by
        rw [known]
        split_ifs <;> omega
      show (if recv.fileMetadata.start < 0 then _ else recv.fileMetadata.start) = _
      rw [if_neg set]
      exact known
  · intro buffer some
    rw [allocated] at some
    split_ifs at some
    rw [← Option.some.inj some, List.length_replicate]
    rfl
  · intro _ (tailed : b.front recv.seqTail < b.data.length)
    rw [allocated, if_pos tailed]
    rfl
  · intro seq member
    obtain ⟨inside, before⟩ := stored.held seq member
    refine ⟨inside, ?_⟩
    unfold Held at before ⊢
    by_cases behind : recv.seqTail ≠ 0 ∧ recv.seqTail < seq
    · rw [if_pos behind, unallocated] at before
      obtain ⟨buffer, none, _⟩ := before
      cases none
    · rw [if_neg behind] at before
      rw [learn_seqTail, if_neg behind]
      exact before

end Learning

section Writing

variable {b : Broadcast} {recv : RecverState} {received : List Nat} {seq : Nat}

/-- A write of one payload at its place holds it and keeps the other packets. -/
theorem Stored.write (stored : Stored b recv received) (next : RecverState)
    (inside : seq < b.seqMax) (near : recv.seqTail ≠ 0 → seq ≤ recv.seqTail)
    (fst : next.seqFst = recv.seqFst) (tail : next.seqTail = recv.seqTail)
    (zero : next.isSeqZero = recv.isSeqZero) (metadata : next.fileMetadata.start = recv.fileMetadata.start)
    (buffer : next.tailPatchBuffer = recv.tailPatchBuffer)
    (length : next.tailPatchBufferLen = recv.tailPatchBufferLen) (stream : next.fdPatchP.isSome = true)
    (file : next.file = writeAt 0 recv.file (b.place recv.seqFst recv.seqTail seq) (b.slice seq)) :
    Stored b next (received ++ [seq]) := by
  have ordered : recv.seqTail ≠ 0 → recv.seqFst < recv.seqTail := fun wrapped => (stored.tailOrder wrapped).1
  have total := b.layout_length ordered
  have ends := b.place_add_le ordered inside near
  have payload := b.layout_slice ordered inside near
  refine ⟨by rw [fst, tail]; exact stored.tailOrder, stream, ?_, ?_, ?_, ?_, ?_, ?_⟩
  · rw [fst, tail, zero, metadata]
    exact stored.start
  · rw [tail, zero, length]
    exact stored.bufferLength
  · rw [tail, buffer]
    exact stored.buffer
  · rw [tail, zero, buffer]
    exact stored.allocated
  · rw [file, tail]
    apply writeAt_length_le _ _ _ _ _ stored.fits
    rw [b.slice_length inside]
    exact ends
  · intro other member
    unfold Held
    rw [fst, tail, file, buffer, ← payload]
    rcases List.mem_append.mp member with old | new
    · obtain ⟨known, before⟩ := stored.held other old
      refine ⟨known, ?_⟩
      unfold Held at before
      split_ifs at before ⊢ with behind
      · exact before
      · apply before.writeAt _ _ (by omega)
        rw [total]
        exact b.place_add_le ordered known (by omega)
    · obtain rfl := List.mem_singleton.mp new
      refine ⟨inside, ?_⟩
      rw [if_neg (by omega)]
      exact AgreesOn.written 0 _ _ _ _ (by omega)

/-- An accepted packet is stored when its gap leads to its place. -/
theorem Stored.accept (stored : Stored b recv received) (inside : seq < b.seqMax)
    (near : recv.seqTail ≠ 0 → seq ≤ recv.seqTail) {position gap : Nat} (stream : recv.fdP = some position)
    (lands : position + gap = b.place recv.seqFst recv.seqTail seq) :
    Stored b (recv.accept gap (b.slice seq) seq) (received ++ [seq]) ∧
      (recv.accept gap (b.slice seq) seq).fdP =
        some (b.place recv.seqFst recv.seqTail seq + (b.offset (seq + 1) - b.offset seq)) := by
  have moved : recv.fdP.map (· + gap) = some (b.place recv.seqFst recv.seqTail seq) := by
    rw [stream, Option.map_some, lands]
  constructor
  · apply stored.write (recv.accept gap (b.slice seq) seq) inside near rfl rfl rfl rfl rfl rfl
      stored.patchStream
    show streamWrite (recv.fdP.map (· + gap)) recv.file (b.slice seq) = _
    rw [moved]
    rfl
  · show (recv.fdP.map (· + gap)).map (· + (b.slice seq).length) = _
    rw [moved, Option.map_some, b.slice_length inside]

/-- Both layouts of the packets before the tail agree. -/
theorem layout_recordTail {fst lst : Nat} (ordered : fst < lst) (inside : lst < b.seqMax) :
    AgreesOn (b.layout fst 0) (b.layout fst lst) 0 (b.offset (lst + 1) - b.offset fst) := by
  have wrapped : lst ≠ 0 := by omega
  have upper := b.offset_le (lst + 1)
  have grows := b.offset_lt_succ inside
  have lower : b.offset fst ≤ b.offset lst := b.offset_mono ordered.le
  intro index _ below
  unfold Broadcast.layout Broadcast.front
  rw [if_pos rfl, if_neg wrapped]
  rw [List.getElem?_append_left (by simp only [List.length_drop, List.length_take]; omega),
    List.getElem?_append_left (by simp only [List.length_drop, List.length_take]; omega),
    List.getElem?_drop, List.getElem?_drop, List.getElem?_take_of_lt (by omega),
    List.getElem?_take_of_lt (by omega)]

/-- A wrap that lost packet zero keeps the packets of the first half stored. -/
theorem Stored.recordTail (stored : Stored b recv received) (knows : Knows b recv)
    (flat : recv.seqTail = 0) (unset : recv.fileMetadata.start = -1) (nonzero : recv.seqFst ≠ 0)
    (ordered : recv.seqFst < recv.seqLst) (lstInside : recv.seqLst < b.seqMax)
    (stream : recv.fdP = some (b.offset (recv.seqLst + 1) - b.offset recv.seqFst))
    (bounded : recv.file.length ≤ b.offset (recv.seqLst + 1) - b.offset recv.seqFst)
    (half : ∀ seq ∈ received, recv.seqFst ≤ seq ∧ seq ≤ recv.seqLst) :
    Stored b recv.recordTail received := by
  have wrapped : recv.seqLst ≠ 0 := by omega
  have front : b.front recv.seqLst = b.offset (recv.seqLst + 1) := by
    unfold Broadcast.front
    rw [if_neg wrapped]
  have unknown : recv.isSeqZero = false := by
    rcases stored.start with ⟨_, unknown, _⟩ | ⟨_, known⟩
    · exact unknown
    · rw [known] at unset
      split_ifs at unset
  have unallocated := (knows.unlearned unknown).2.1
  refine ⟨fun _ => ⟨ordered, lstInside⟩, stored.patchStream, .inr ⟨.inl wrapped, ?_⟩,
    fun known => absurd (unknown.symm.trans known) (by simp), ?_,
    fun known => absurd (unknown.symm.trans known) (by simp), ?_, ?_⟩
  · show ftell recv.fdP = if recv.seqFst = 0 then 0 else ((b.front recv.seqLst - b.offset recv.seqFst : Nat) : Int)
    rw [stream, if_neg nonzero, front]
    rfl
  · intro buffer (some : recv.tailPatchBuffer = some buffer)
    rw [unallocated] at some
    cases some
  · show recv.file.length ≤ b.front recv.seqLst
    omega
  · intro seq member
    obtain ⟨inside, before⟩ := stored.held seq member
    obtain ⟨lower, upper⟩ := half seq member
    refine ⟨inside, ?_⟩
    have ends : b.offset (seq + 1) ≤ b.offset (recv.seqLst + 1) := b.offset_mono (by omega)
    have starts : b.offset recv.seqFst ≤ b.offset seq := b.offset_mono lower
    have grows := b.offset_lt_succ inside
    unfold Held at before ⊢
    rw [flat, if_neg (by omega)] at before
    show if recv.seqLst ≠ 0 ∧ recv.seqLst < seq then _ else
      AgreesOn recv.file (b.layout recv.seqFst recv.seqLst) (b.place recv.seqFst recv.seqLst seq)
        (b.place recv.seqFst recv.seqLst seq + _)
    rw [if_neg (by omega)]
    unfold Broadcast.place at before ⊢
    rw [if_pos lower] at before ⊢
    exact before.trans ((layout_recordTail ordered lstInside).mono (by omega) (by omega))

/-- The patch stream finds the place of a packet up to the tail. -/
theorem getFilePosition_eq (stored : Stored b recv received) (knows : Knows b recv) (inside : seq < b.seqMax)
    (near : recv.seqTail ≠ 0 → seq ≤ recv.seqTail)
    (started : seq < recv.seqFst → recv.seqTail ≠ 0 ∨ recv.isSeqZero = true) :
    getFilePosition seq recv.seqFst recv.seqTail recv.bytePayload recv.fileMetadata.start =
      b.place recv.seqFst recv.seqTail seq := by
  have bounded := b.seqMax_lt
  unfold getFilePosition Broadcast.place
  rw [knows.payload]
  split
  · next above =>
      have first : u32 ((seq : Int) - recv.seqFst) = seq - recv.seqFst := u32_sub above (by omega)
      rw [if_neg (by omega), first, ← Nat.cast_mul, b.offset_sub above inside]
  · next before =>
      have start : recv.fileMetadata.start = ((b.front recv.seqTail - b.offset recv.seqFst : Nat) : Int) := by
        rcases stored.start with ⟨flat, unknown, _⟩ | ⟨_, known⟩
        · rcases started (by omega) with wrapped | known
          · exact absurd flat wrapped
          · exact absurd (unknown.symm.trans known) (by simp)
        · rw [known, if_neg (by omega)]
      rw [start, b.offset_of_lt inside]
      push_cast
      rfl

theorem Stored.seekPatch (stored : Stored b recv received) (knows : Knows b recv) (inside : seq < b.seqMax)
    (near : recv.seqTail ≠ 0 → seq ≤ recv.seqTail)
    (started : seq < recv.seqFst → recv.seqTail ≠ 0 ∨ recv.isSeqZero = true) :
    (recv.seekPatch seq).fdPatchP = some (b.place recv.seqFst recv.seqTail seq) := by
  obtain ⟨position, stream⟩ := Option.isSome_iff_exists.mp stored.patchStream
  show fseekSet recv.fdPatchP _ = _
  rw [getFilePosition_eq stored knows inside near started, stream]
  simp [fseekSet]

/-- A patch up to the tail is stored in the file. -/
theorem Stored.patch (stored : Stored b recv received) (knows : Knows b recv) (inside : seq < b.seqMax)
    (near : recv.seqTail ≠ 0 → seq ≤ recv.seqTail)
    (started : seq < recv.seqFst → recv.seqTail ≠ 0 ∨ recv.isSeqZero = true) :
    Stored b (recv.patch (b.slice seq) seq) (received ++ [seq]) ∧
      (recv.patch (b.slice seq) seq).file =
        writeAt 0 recv.file (b.place recv.seqFst recv.seqTail seq) (b.slice seq) := by
  have lands := stored.seekPatch knows inside near started
  have file : (recv.patch (b.slice seq) seq).file =
      writeAt 0 recv.file (b.place recv.seqFst recv.seqTail seq) (b.slice seq) := by
    show streamWrite (recv.seekPatch seq).fdPatchP recv.file (b.slice seq) = _
    rw [lands]
    rfl
  refine ⟨?_, file⟩
  apply stored.write (recv.patch (b.slice seq) seq) inside near rfl rfl rfl rfl rfl rfl ?_ file
  show ((recv.seekPatch seq).fdPatchP.map (· + (b.slice seq).length)).isSome = true
  rw [lands]
  rfl

/-- A patch behind the tail is stored in the buffer. -/
theorem Stored.patchTail (stored : Stored b recv received) (short : b.data.length < 2147483648)
    (knows : Knows b recv) (inside : seq < b.seqMax) (wrapped : 0 < recv.seqTail) (behind : recv.seqTail < seq)
    {buffer : List UInt8} (allocated : recv.tailPatchBuffer = some buffer) :
    Stored b (recv.patchTail buffer (b.slice seq) seq) (received ++ [seq]) := by
  have bounded := b.seqMax_lt
  have whole := b.offset_lt inside
  have upper := b.offset_le (seq + 1)
  have grows := b.offset_lt_succ inside
  have front : b.front recv.seqTail = b.offset (recv.seqTail + 1) := by
    unfold Broadcast.front
    rw [if_neg (by omega)]
  have start : b.offset (recv.seqTail + 1) ≤ b.offset seq := b.offset_mono (by omega)
  have lands : tailOffset seq recv.seqTail recv.bytePayload = b.offset seq - b.front recv.seqTail := by
    have rest : u32 ((seq : Int) - recv.seqTail - 1) = seq - (recv.seqTail + 1) := by
      rw [u32_eq]
      omega
    unfold tailOffset
    rw [knows.payload, rest, ← Nat.cast_mul, b.offset_sub (by omega) inside, u32_natCast (by omega), front]
  have size := stored.buffer buffer allocated
  have payload := b.tail_slice (by omega : recv.seqTail ≠ 0) inside behind
  have total : (b.data.drop (b.front recv.seqTail)).length = b.data.length - b.front recv.seqTail := by
    rw [List.length_drop]
  have length := b.slice_length inside
  refine ⟨stored.tailOrder, stored.patchStream, stored.start, stored.bufferLength, ?_, fun _ _ => rfl,
    stored.fits, ?_⟩
  · intro other some
    obtain rfl := Option.some.inj some
    rw [writeAt_length _ _ _ _ (b.slice_ne_nil inside), size, lands, length]
    show _ = b.data.length - b.front recv.seqTail
    omega
  · intro other member
    have keeps : ∀ first last, last ≤ b.data.length - b.front recv.seqTail →
        AgreesOn buffer (b.data.drop (b.front recv.seqTail)) first last →
        AgreesOn (writeAt 0 buffer (tailOffset seq recv.seqTail recv.bytePayload) (b.slice seq))
          (b.data.drop (b.front recv.seqTail)) first last := by
      intro first last within before
      rw [lands, ← payload]
      exact before.writeAt _ _ (by omega) (by omega)
    rcases List.mem_append.mp member with old | new
    · obtain ⟨known, before⟩ := stored.held other old
      refine ⟨known, ?_⟩
      unfold Held at before ⊢
      by_cases far : recv.seqTail ≠ 0 ∧ recv.seqTail < other
      · rw [if_pos far] at before
        obtain ⟨same, found, agrees⟩ := before
        obtain rfl := Option.some.inj (allocated.symm.trans found)
        have ends := b.offset_le (other + 1)
        show if recv.seqTail ≠ 0 ∧ recv.seqTail < other then _ else _
        rw [if_pos far]
        exact ⟨_, rfl, keeps (b.offset other - b.front recv.seqTail)
          (b.offset (other + 1) - b.front recv.seqTail) (by omega) agrees⟩
      · rw [if_neg far] at before
        show if recv.seqTail ≠ 0 ∧ recv.seqTail < other then _ else _
        rw [if_neg far]
        exact before
    · obtain rfl := List.mem_singleton.mp new
      refine ⟨inside, ?_⟩
      unfold Held
      show if recv.seqTail ≠ 0 ∧ recv.seqTail < other then _ else _
      rw [if_pos ⟨by omega, behind⟩]
      refine ⟨_, rfl, ?_⟩
      show AgreesOn (writeAt 0 buffer (tailOffset other recv.seqTail recv.bytePayload) (b.slice other))
        (b.data.drop (b.front recv.seqTail)) (b.offset other - b.front recv.seqTail)
        (b.offset (other + 1) - b.front recv.seqTail)
      rw [lands, ← payload]
      exact (AgreesOn.written 0 buffer _ _ _ (by omega)).mono (le_refl _) (by omega)

theorem Stored.mono (stored : Stored b recv received) {other : List Nat}
    (known : ∀ seq ∈ other, seq ∈ received) : Stored b recv other :=
  ⟨stored.tailOrder, stored.patchStream, stored.start, stored.bufferLength, stored.buffer,
    stored.allocated, stored.fits, fun seq member => stored.held seq (known seq member)⟩

end Writing

/-- The documented order of reading is `[start, jump)`, `[0, start)`, `[jump, end)`. -/
def RecverState.readBack (recv : RecverState) : List UInt8 :=
  let start := recv.fileMetadata.start.toNat
  let jump := recv.fileMetadata.jump.toNat
  (recv.file.take jump).drop start ++ recv.file.take start ++ recv.file.drop jump

section Reading

variable {b : Broadcast} {recv : RecverState} {received : List Nat}

/-- A file with every packet up to the tail is the layout. -/
theorem Stored.file_eq (stored : Stored b recv received) (fstInside : recv.seqFst < b.seqMax)
    (all : ∀ seq < b.seqMax, seq ∈ received) : recv.file = b.layout recv.seqFst recv.seqTail := by
  have ordered : recv.seqTail ≠ 0 → recv.seqFst < recv.seqTail := fun wrapped => (stored.tailOrder wrapped).1
  have total := b.layout_length ordered
  have lower := b.offset_le_front ordered
  obtain ⟨last, lastInside, firstBefore, ends⟩ : ∃ last < b.seqMax, recv.seqFst ≤ last ∧
      (b.offset (last + 1) = b.front recv.seqTail ∧ (recv.seqTail ≠ 0 → last ≤ recv.seqTail)) := by
    unfold Broadcast.front
    by_cases wrapped : recv.seqTail = 0
    · refine ⟨b.seqMax - 1, by omega, by omega, ?_⟩
      rw [if_pos wrapped, show b.seqMax - 1 + 1 = b.seqMax by omega, b.offset_seqMax]
      exact ⟨rfl, fun other => absurd wrapped other⟩
    · obtain ⟨before, inside⟩ := stored.tailOrder wrapped
      exact ⟨recv.seqTail, inside, before.le, by rw [if_neg wrapped], fun _ => le_refl _⟩
  have piece (seq : Nat) (inside : seq < b.seqMax) (near : recv.seqTail ≠ 0 → seq ≤ recv.seqTail) :
      AgreesOn recv.file (b.layout recv.seqFst recv.seqTail) (b.place recv.seqFst recv.seqTail seq)
        (b.place recv.seqFst recv.seqTail seq + (b.offset (seq + 1) - b.offset seq)) := by
    have held := (stored.held seq (all seq inside)).2
    unfold Held at held
    rwa [if_neg (by omega)] at held
  -- The packets from the first one on fill the start of the file.
  have upper := AgreesOn.tiles (fun seq => b.offset seq - b.offset recv.seqFst) recv.seqFst
    (last + 1 - recv.seqFst) (fun seq above below => by
      have held := piece seq (by omega) (fun wrapped => by have := ends.2 wrapped; omega)
      have grows := b.offset_lt_succ (show seq < b.seqMax by omega)
      have starts := b.offset_mono above
      unfold Broadcast.place at held
      rw [if_pos above] at held
      exact held.mono (le_refl _) (by omega))
  -- The packets before the first one follow.
  have rest := AgreesOn.tiles (fun seq => b.front recv.seqTail - b.offset recv.seqFst + b.offset seq) 0
    recv.seqFst (fun seq _ below => by
      have held := piece seq (by omega) (fun wrapped => by have := ordered wrapped; omega)
      have grows := b.offset_lt_succ (show seq < b.seqMax by omega)
      unfold Broadcast.place at held
      rw [if_neg (by omega)] at held
      exact held.mono (le_refl _) (by omega))
  rw [show recv.seqFst + (last + 1 - recv.seqFst) = last + 1 by omega, ends.1, Nat.sub_self] at upper
  rw [b.offset_zero, Nat.add_zero, Nat.zero_add] at rest
  apply AgreesOn.eq
  · rw [total]
    exact (upper.join rest).mono (le_refl _) (by omega)
  · rw [total]
    exact stored.fits

/-- A buffer with every packet behind the tail holds the rest of the data. -/
theorem Stored.buffer_eq (stored : Stored b recv received) (known : recv.isSeqZero = true)
    (all : ∀ seq < b.seqMax, seq ∈ received) :
    (recv.tailPatchBuffer.getD []).take recv.tailPatchBufferLen.toNat = b.data.drop (b.front recv.seqTail) := by
  have measured := stored.bufferLength known
  have upper := b.front_le recv.seqTail
  rw [measured, Int.toNat_natCast]
  by_cases tailed : b.front recv.seqTail < b.data.length
  · obtain ⟨buffer, allocated⟩ := Option.isSome_iff_exists.mp (stored.allocated known tailed)
    have size := stored.buffer buffer allocated
    have wrapped : recv.seqTail ≠ 0 := by
      intro flat
      unfold Broadcast.front at tailed
      rw [if_pos flat] at tailed
      omega
    have front : b.front recv.seqTail = b.offset (recv.seqTail + 1) := by
      unfold Broadcast.front
      rw [if_neg wrapped]
    obtain ⟨before, inside⟩ := stored.tailOrder wrapped
    have tiled := AgreesOn.tiles (fun seq => b.offset seq - b.front recv.seqTail) (recv.seqTail + 1)
      (b.seqMax - (recv.seqTail + 1)) (fun seq above below => by
        have held := (stored.held seq (all seq (by omega))).2
        unfold Held at held
        rw [if_pos ⟨wrapped, by omega⟩] at held
        obtain ⟨same, found, agrees⟩ := held
        obtain rfl := Option.some.inj (allocated.symm.trans found)
        exact agrees)
    rw [show recv.seqTail + 1 + (b.seqMax - (recv.seqTail + 1)) = b.seqMax by omega, b.offset_seqMax,
      front, Nat.sub_self, ← front] at tiled
    rw [allocated, Option.getD_some, ← size, List.take_length]
    apply AgreesOn.eq
    · rw [List.length_drop]
      exact tiled
    · rw [List.length_drop]
      exact size.le
  · rw [show b.data.length - b.front recv.seqTail = 0 by omega, List.take_zero,
      List.drop_eq_nil_of_le (by omega)]

/-- A receiver that finishes with every packet leaves the data of the broadcast in its file. -/
theorem Stored.finish (stored : Stored b recv received) (fstInside : recv.seqFst < b.seqMax)
    (known : recv.isSeqZero = true) (all : ∀ seq < b.seqMax, seq ∈ received)
    (opened : recv.fdP.isSome = true) :
    (recverStateFinishRecv recv).readBack = b.data ∧
      0 ≤ (recverStateFinishRecv recv).fileMetadata.start ∧
      (recverStateFinishRecv recv).fileMetadata.start ≤ (recverStateFinishRecv recv).fileMetadata.jump := by
  have ordered : recv.seqTail ≠ 0 → recv.seqFst < recv.seqTail := fun wrapped => (stored.tailOrder wrapped).1
  have total := b.layout_length ordered
  have lower := b.offset_le_front ordered
  have upper := b.front_le recv.seqTail
  have file : (recverStateFinishRecv recv).file =
      b.layout recv.seqFst recv.seqTail ++ b.data.drop (b.front recv.seqTail) := by
    show (if recv.fdP.isSome then writeAt 0 recv.file recv.file.length
      ((recv.tailPatchBuffer.getD []).take recv.tailPatchBufferLen.toNat) else recv.file) = _
    rw [if_pos opened, writeAt_end, stored.buffer_eq known all, stored.file_eq fstInside all]
  have jump : (recverStateFinishRecv recv).fileMetadata.jump = b.front recv.seqTail := by
    show (if recv.fdP.isSome then (recv.file.length : Int) else recv.fileMetadata.jump) = _
    rw [if_pos opened, stored.file_eq fstInside all, total]
  have start : (recverStateFinishRecv recv).fileMetadata.start = recv.fileMetadata.start := rfl
  unfold RecverState.readBack
  rw [file, jump, start, Int.toNat_natCast]
  dsimp only
  rw [List.take_left' total, List.drop_left' total]
  rcases stored.start with ⟨_, unknown, _⟩ | ⟨_, set⟩
  · exact absurd (unknown.symm.trans known) (by simp)
  rw [set]
  split_ifs with zero
  · -- Without a second half the layout is the data in order.
    refine ⟨?_, le_refl _, by omega⟩
    simp [Broadcast.layout, zero]
  · refine ⟨?_, by omega, by omega⟩
    have size : ((b.data.take (b.front recv.seqTail)).drop (b.offset recv.seqFst)).length =
        b.front recv.seqTail - b.offset recv.seqFst := by
      simp only [List.length_drop, List.length_take]
      omega
    have within : b.front recv.seqTail - b.offset recv.seqFst ≤ (b.layout recv.seqFst recv.seqTail).length := by
      omega
    rw [Int.toNat_natCast, List.take_append_of_le_length within]
    unfold Broadcast.layout
    rw [List.drop_left' size, List.take_left' size]
    have first : b.data.take (b.offset recv.seqFst) =
        (b.data.take (b.front recv.seqTail)).take (b.offset recv.seqFst) := by
      rw [List.take_take, Nat.min_eq_left lower]
    rw [first, List.take_append_drop, List.take_append_drop]

end Reading

end RepublicAgent
