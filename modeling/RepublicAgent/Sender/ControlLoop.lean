/-
This file models what the control thread of a sender puts on its connections. The commands of all connections wait
in one ring, each connection has a patch ring, and both enter the bounded send queue of the connection.
-/

import RepublicAgent.Channel.WriteWatch
import RepublicAgent.Service.PatchData

namespace RepublicAgent
open Execution MachineInteger

/-- The types `MSG_PULL_REJECT` and `MSG_FAST_DONE`. -/
def pullRejectType : UInt32 := 82
def fastDoneType : UInt32 := 86

theorem emptyMsg_lengthFits : msgHdrLen + ([] : List UInt8).length < 4294967296 := by decide

theorem emptyMsg_paddingFits (padded : false = true) : msgHdrLen + ([] : List UInt8).length ≤ paddedLen :=
  absurd padded Bool.false_ne_true

/-- The message of a command or a reply has no payload. -/
def emptyMsg (bcdId : BcdID) (type : UInt32) (time : Vector UInt8 16) : Message where
  bcdId := bcdId
  type := type
  time := time
  payload := []
  padding := false
  lengthFits := emptyMsg_lengthFits
  paddingFits := emptyMsg_paddingFits

/-- What a queued message is for. -/
inductive Origin where
  | patchData
  | fastDone
  | pullReject
deriving DecidableEq, Repr

/-- A connection with its patch ring. The requested elements and the origins of the queued messages are kept for the
statements only. -/
structure SendConnection where
  side : SendSide
  ringPatchTuple : List PatchElement
  requested : List PatchElement
  queued : List (Origin × Message)

def SendConnection.created : SendConnection := ⟨SendSide.created, [], [], []⟩

/-- The ring has its oldest command first. All commands are kept for the statements only. -/
structure ControlThread where
  ringCmd : List (Nat × Message)
  fdPatch : BcdID → Nat
  ssockList : Nat → SendConnection
  commanded : List (Nat × Message)

def ControlThread.start (fdPatch : BcdID → Nat) : ControlThread := ⟨[], fdPatch, fun _ => SendConnection.created, []⟩

def ControlThread.setConnection (thread : ControlThread) (ssock : Nat) (conn : SendConnection) : ControlThread :=
  { thread with ssockList := Function.update thread.ssockList ssock conn }

/-- A message that the queue took stands behind the others. -/
def SendConnection.take (conn : SendConnection) (origin : Origin) (msgs : List Message) (queue : List MsgToken) :
    SendConnection :=
  { conn with
    side := { conn.side with
      sendQueue := queue
      enqueued := conn.side.enqueued ++ msgs.map createMsgToken }
    queued := conn.queued ++ msgs.map (Prod.mk origin) }

/-- `createCmd` makes the message of the command, which enters the ring. -/
def ControlThread.createCmd (thread : ControlThread) (ssock : Nat) (msg : Message) : ControlThread :=
  { thread with ringCmd := thread.ringCmd ++ [(ssock, msg)], commanded := thread.commanded ++ [(ssock, msg)] }

/-- The loop over the ring stops at the first full queue. -/
def processCommands : List (Nat × Message) → ControlThread → ControlThread
  | [], thread => { thread with ringCmd := [] }
  | (ssock, msg) :: rest, thread =>
      let conn := thread.ssockList ssock
      match aprQueueTrypush conn.side.sendQueue (createMsgToken msg) with
      | none => { thread with ringCmd := (ssock, msg) :: rest }
      | some queue => processCommands rest (thread.setConnection ssock (conn.take .fastDone [msg] queue))

/-- The handler of `MSG_PATCH_REQ` for a multicast that was found. -/
def ControlThread.patchReq (thread : ControlThread) (ssock : Nat) (bcdId : BcdID) (seqMax seqEnd : Nat)
    (pt : PatchTuple) : ControlThread :=
  let conn := thread.ssockList ssock
  let elems := (msgPatchReq seqMax seqEnd pt).map (PatchElement.mk bcdId)
  thread.setConnection ssock { conn with
    ringPatchTuple := conn.ringPatchTuple ++ elems
    requested := conn.requested ++ elems }

/-- The thread aborts when the queue refuses the reply to a `MSG_PULL`. -/
def ControlThread.pullReject (thread : ControlThread) (ssock : Nat) (msg : Message) : Except Fault ControlThread :=
  let conn := thread.ssockList ssock
  match insertMsg2SendQ conn.side.sendQueue msg true with
  | none => .error .abort
  | some queue => .ok (thread.setConnection ssock (conn.take .pullReject [msg] queue))

/-- The position of the stream of each multicast is shared by the connections. -/
def ControlThread.processPatchTuple (config : PatchConfig) (thread : ControlThread) (ssock : Nat) :
    Except Fault ControlThread :=
  let conn := thread.ssockList ssock
  match (PatchSender.start conn.ringPatchTuple thread.fdPatch conn.side.sendQueue).processPatchTuple config with
  | .error fault => .error fault
  | .ok sender =>
      .ok { thread.setConnection ssock
          { conn.take .patchData sender.pushed sender.sendQueue with ringPatchTuple := sender.ring } with
        fdPatch := sender.fdPatch }

/-- Only a connection in the write set sends. -/
def ControlThread.sendMsg (thread : ControlThread) (ssock : Nat) (results : List Int) : ControlThread :=
  let conn := thread.ssockList ssock
  if threadSendSocketWatches conn.side then
    thread.setConnection ssock { conn with side := conn.side.sendMsg results }
  else thread

/-- Each call of `processPatchTuple` has its own buffers and its own readings of the clock. -/
inductive ControlEvent where
  | createCmd (ssock : Nat) (bcdId : BcdID) (time : Vector UInt8 16)
  | processCommands
  | patchReq (ssock : Nat) (bcdId : BcdID) (seqMax seqEnd : Nat) (pt : PatchTuple)
  | pullReject (ssock : Nat) (bcdId : BcdID) (time : Vector UInt8 16)
  | processPatchTuple (ssock : Nat) (heap : Nat → List UInt8) (clock : Nat → Vector UInt8 16)
  | sendMsg (ssock : Nat) (results : List Int)

def controlStep (hashMulticast : BcdID → Option PacketSource) (thread : ControlThread) :
    ControlEvent → Except Fault ControlThread
  | .createCmd ssock bcdId time => .ok (thread.createCmd ssock (emptyMsg bcdId fastDoneType time))
  | .processCommands => .ok (processCommands thread.ringCmd thread)
  | .patchReq ssock bcdId seqMax seqEnd pt => .ok (thread.patchReq ssock bcdId seqMax seqEnd pt)
  | .pullReject ssock bcdId time => thread.pullReject ssock (emptyMsg bcdId pullRejectType time)
  | .processPatchTuple ssock heap clock => thread.processPatchTuple ⟨hashMulticast, heap, clock⟩ ssock
  | .sendMsg ssock results => .ok (thread.sendMsg ssock results)

/-- A request asks for packets of a known multicast, and the messages of its packets fit their buffer. -/
def ControlEvent.Asks (hashMulticast : BcdID → Option PacketSource) : ControlEvent → Prop
  | .patchReq _ bcdId seqMax _ pt => ∃ source, hashMulticast bcdId = some source ∧ source.Cut ∧
      source.data.length < 4294967296 ∧ source.seqMax = seqMax ∧
      (pt.endSeq ≤ seqMax ∨ pt.endSeq = seq2WardTheEnd) ∧
      ∀ seq < seqMax, source.payloadBytes seq ≤ patchBufLen
  | _ => True

/-- The queued messages that have not left the queue. -/
def SendConnection.waiting (conn : SendConnection) : List (Origin × Message) :=
  conn.queued.drop (conn.queued.length - conn.side.sendQueue.length)

/-- The queued messages of one origin, in order. -/
def SendConnection.queuedOf (conn : SendConnection) (origin : Origin) : List Message :=
  (conn.queued.filter fun entry => entry.1 = origin).map Prod.snd

/-- The commands for one connection. -/
def commandsFor (ssock : Nat) (commands : List (Nat × Message)) : List Message :=
  (commands.filter fun command => command.1 = ssock).map Prod.snd

/-- The messages that the requests of a connection ask for. -/
def expectedBy (hashMulticast : BcdID → Option PacketSource) (ring : List PatchElement) :
    List (BcdID × UInt32 × List UInt8) :=
  ring.flatMap (PatchConfig.expected ⟨hashMulticast, fun _ => [], fun _ => Vector.replicate 16 0⟩)

/-- A connection sends the requested packets in order and sends its commands in order. None is lost or sent twice,
and patches never take more than about half of the queue. -/
structure ControlThread.Streams (hashMulticast : BcdID → Option PacketSource) (thread : ControlThread) (ssock : Nat) :
    Prop where
  patches : ((thread.ssockList ssock).queuedOf .patchData).map Message.content ++
    expectedBy hashMulticast (thread.ssockList ssock).ringPatchTuple =
      expectedBy hashMulticast (thread.ssockList ssock).requested
  commands : (thread.ssockList ssock).queuedOf .fastDone ++ commandsFor ssock thread.ringCmd =
    commandsFor ssock thread.commanded
  handed : (thread.ssockList ssock).side.handed ++
      (pendingTokens (thread.ssockList ssock).side.remainMsgToken (thread.ssockList ssock).side.sendQueue).flatMap
        MsgToken.rest =
    ((thread.ssockList ssock).queued.map fun entry => createMsgToken entry.2).flatMap MsgToken.wire
  queue : (thread.ssockList ssock).side.sendQueue =
    (thread.ssockList ssock).waiting.map fun entry => createMsgToken entry.2
  room : (thread.ssockList ssock).side.sendQueue.length ≤ aprQueueCapacity
  share : (thread.ssockList ssock).waiting.countP (fun entry => entry.1 = .patchData) ≤ aprQueueCapacity / 2 + 1

/-- The queue holds the messages that wait, and patches take more than half of it by one message at most. -/
structure SendConnection.Queued (conn : SendConnection) : Prop where
  conserved : conn.side.Conserved
  enqueued : conn.side.enqueued = conn.queued.map fun entry => createMsgToken entry.2
  queue : conn.side.sendQueue = conn.waiting.map fun entry => createMsgToken entry.2
  room : conn.side.sendQueue.length ≤ aprQueueCapacity
  share : conn.waiting.countP (fun entry => entry.1 = .patchData) ≤ aprQueueCapacity / 2 + 1

/-- The ring holds the rest of what was requested. -/
structure SendConnection.Serves (hashMulticast : BcdID → Option PacketSource) (conn : SendConnection) : Prop where
  patches : (conn.queuedOf .patchData).map Message.content ++ expectedBy hashMulticast conn.ringPatchTuple =
    expectedBy hashMulticast conn.requested
  valid : ∀ elem ∈ conn.ringPatchTuple, PatchConfig.Valid ⟨hashMulticast, fun _ => [], fun _ => Vector.replicate 16 0⟩ elem
  fits : ∀ elem ∈ conn.ringPatchTuple, PatchConfig.Fits ⟨hashMulticast, fun _ => [], fun _ => Vector.replicate 16 0⟩ elem

section Queues

variable {conn : SendConnection} {origin : Origin} {msgs : List Message} {queue : List MsgToken}

theorem SendConnection.created_queued : SendConnection.created.Queued :=
  ⟨rfl, rfl, rfl, Nat.zero_le _, Nat.zero_le _⟩

theorem SendConnection.Queued.length (queued : conn.Queued) : conn.side.sendQueue.length ≤ conn.queued.length := by
  rw [queued.queue, List.length_map, SendConnection.waiting, List.length_drop]
  exact Nat.sub_le _ _

theorem SendConnection.Queued.waiting_take (queued : conn.Queued)
    (grown : queue = conn.side.sendQueue ++ msgs.map createMsgToken) :
    (conn.take origin msgs queue).waiting = conn.waiting ++ msgs.map (Prod.mk origin) := by
  have inside := queued.length
  unfold SendConnection.waiting SendConnection.take
  rw [grown]
  simp only [List.length_append, List.length_map]
  rw [Nat.add_sub_add_right, List.drop_append_of_le_length (Nat.sub_le _ _)]

/-- Messages enter the queue. Patches enter it while it is at most half full. -/
theorem SendConnection.Queued.take (queued : conn.Queued)
    (grown : queue = conn.side.sendQueue ++ msgs.map createMsgToken) (room : queue.length ≤ aprQueueCapacity)
    (half : origin = .patchData → msgs ≠ [] → queue.length ≤ aprQueueCapacity / 2 + 1) :
    (conn.take origin msgs queue).Queued := by
  have added := @SendConnection.Queued.waiting_take conn origin msgs queue queued grown
  constructor
  · have before := queued.conserved
    have whole : ∀ msg : Message, (createMsgToken msg).rest = (createMsgToken msg).wire := fun _ => rfl
    unfold SendSide.Conserved pendingTokens SendConnection.take at *
    simp only [grown, List.flatMap_append, List.flatMap_map, whole, ← before, List.append_assoc]
  · simp only [SendConnection.take, queued.enqueued, List.map_append, List.map_map]
    rfl
  · rw [added, List.map_append, List.map_map, ← queued.queue]
    exact grown
  · exact room
  · rw [added]
    by_cases patch : origin = .patchData ∧ msgs ≠ []
    · have most := half patch.1 patch.2
      refine List.countP_le_length.trans ?_
      have before : conn.waiting.length = conn.side.sendQueue.length := by rw [queued.queue, List.length_map]
      have added : msgs.length = (msgs.map createMsgToken).length := (List.length_map createMsgToken).symm
      rwa [List.length_append, List.length_map, before, added, ← List.length_append, ← grown]
    · rw [List.countP_append]
      have none : (msgs.map (Prod.mk origin)).countP (fun entry => entry.1 = .patchData) = 0 := by
        rw [List.countP_map, List.countP_eq_zero]
        intro msg member same
        exact patch ⟨of_decide_eq_true same, List.ne_nil_of_mem member⟩
      rw [none]
      exact queued.share

/-- The messages of a call leave the front of the queue. -/
theorem SendConnection.Queued.sendMsg (queued : conn.Queued) (results : List Int) :
    SendConnection.Queued { conn with side := conn.side.sendMsg results } := by
  have front : ∃ count, (RepublicAgent.sendMsg conn.side.remainMsgToken conn.side.sendQueue results).queue =
      conn.side.sendQueue.drop count := by
    unfold RepublicAgent.sendMsg
    cases conn.side.remainMsgToken with
    | some token => exact ⟨_, (sendLoop_leaves token conn.side.sendQueue results).1⟩
    | none =>
        cases conn.side.sendQueue with
        | nil => exact ⟨0, rfl⟩
        | cons token rest => exact ⟨_ + 1, (sendLoop_leaves token rest results).1⟩
  obtain ⟨count, front⟩ := front
  have inside := queued.length
  have shorter : SendConnection.waiting { conn with side := conn.side.sendMsg results } = conn.waiting.drop count := by
    unfold SendConnection.waiting SendSide.sendMsg
    dsimp only
    rw [front, List.drop_drop, List.length_drop]
    by_cases short : count ≤ conn.side.sendQueue.length
    · congr 1
      omega
    · rw [List.drop_eq_nil_of_le (by omega), List.drop_eq_nil_of_le (by omega)]
  constructor
  · exact SendSide.sendMsg_conserved queued.conserved results
  · exact queued.enqueued
  · rw [shorter, List.map_drop, ← queued.queue]
    exact front
  · have dropped : (conn.side.sendMsg results).sendQueue = conn.side.sendQueue.drop count := front
    rw [dropped, List.length_drop]
    exact (Nat.sub_le _ _).trans queued.room
  · rw [shorter]
    exact (List.drop_sublist count conn.waiting).countP_le.trans queued.share

end Queues

section Patches

variable {config : PatchConfig} {source : PacketSource} {bcdId : BcdID} {sender next : PatchSender}

/-- A step that queues nothing, or leaves at most half of the queue and one message behind. -/
def PatchSender.Shares (sender next : PatchSender) : Prop :=
  (next.pushed = sender.pushed ∧ next.sendQueue = sender.sendQueue) ∨
    next.sendQueue.length ≤ aprQueueCapacity / 2 + 1

theorem PatchSender.Shares.trans {middle : PatchSender} (first : sender.Shares middle) (second : middle.Shares next) :
    sender.Shares next := by
  rcases second with ⟨pushed, queue⟩ | short
  · unfold PatchSender.Shares
    rw [pushed, queue]
    exact first
  · exact .inr short

theorem sendPatch_shares {seq : Nat} {ret : Bool} (taken : sendPatch config source bcdId seq sender = .ok (ret, next)) :
    sender.Shares next := by
  unfold sendPatch at taken
  split_ifs at taken
  dsimp only at taken
  split at taken
  · obtain ⟨-, rfl⟩ := Prod.mk.inj (Except.ok.inj taken)
    exact .inl ⟨rfl, rfl⟩
  · next queue inserted =>
      obtain ⟨-, rfl⟩ := Prod.mk.inj (Except.ok.inj taken)
      right
      unfold insertMsg2SendQ aprQueueTrypush at inserted
      split_ifs at inserted with crowded
      obtain rfl := Option.some.inj inserted
      have half : ¬aprQueueCapacity / 2 < (sender.seek bcdId _).sendQueue.length := fun more => crowded ⟨rfl, more⟩
      rw [List.length_append, List.length_singleton]
      exact Nat.succ_le_succ (not_lt.mp half)

theorem sendPatches_shares {count seq last : Nat}
    (taken : sendPatches config source bcdId count seq sender = .ok (last, next)) : sender.Shares next := by
  induction count generalizing seq sender with
  | zero =>
      obtain ⟨-, rfl⟩ := Prod.mk.inj (Except.ok.inj taken)
      exact .inl ⟨rfl, rfl⟩
  | succ count ih =>
      unfold sendPatches at taken
      split at taken
      · cases taken
      · next moved attempt =>
          obtain ⟨-, rfl⟩ := Prod.mk.inj (Except.ok.inj taken)
          exact sendPatch_shares attempt
      · next moved attempt => exact (sendPatch_shares attempt).trans (ih taken)

theorem serveRing_shares {ring : List PatchElement} (taken : serveRing config ring sender = .ok next) :
    sender.Shares next := by
  induction ring generalizing sender with
  | nil =>
      obtain rfl := Except.ok.inj taken
      exact .inl ⟨rfl, rfl⟩
  | cons elem rest ih =>
      unfold serveRing at taken
      split_ifs at taken
      · split at taken
        · cases taken
        · next source found =>
            dsimp only at taken
            split at taken
            · cases taken
            · next seq served loop =>
                have moved := sendPatches_shares loop
                have shares : sender.Shares served := moved
                split_ifs at taken
                · exact shares.trans (ih taken)
                · obtain rfl := Except.ok.inj taken
                  exact shares
      · obtain rfl := Except.ok.inj taken
        exact .inl ⟨rfl, rfl⟩

end Patches

section Connections

variable {hashMulticast : BcdID → Option PacketSource} {conn : SendConnection} {origin : Origin}
  {thread next : ControlThread} {ssock : Nat}

theorem expectedBy_append (hashMulticast : BcdID → Option PacketSource) (first second : List PatchElement) :
    expectedBy hashMulticast (first ++ second) = expectedBy hashMulticast first ++ expectedBy hashMulticast second :=
  List.flatMap_append

theorem queuedOf_take (conn : SendConnection) (origin other : Origin) (msgs : List Message) (queue : List MsgToken) :
    (conn.take origin msgs queue).queuedOf other =
      conn.queuedOf other ++ if origin = other then msgs else [] := by
  unfold SendConnection.queuedOf SendConnection.take
  rw [List.filter_append, List.map_append]
  congr 1
  rw [List.filter_map, List.map_map]
  change ((msgs.filter fun _ => decide (origin = other)).map id) = _
  rw [List.map_id]
  by_cases same : origin = other
  · rw [if_pos same, decide_eq_true same, List.filter_true]
  · rw [if_neg same, decide_eq_false same, List.filter_false]

/-- A queue with room takes a message. -/
theorem SendConnection.Queued.trypush (queued : conn.Queued) {msg : Message} {queue : List MsgToken}
    (other : origin ≠ .patchData)
    (taken : aprQueueTrypush conn.side.sendQueue (createMsgToken msg) = some queue) :
    (conn.take origin [msg] queue).Queued := by
  unfold aprQueueTrypush at taken
  split_ifs at taken with room
  obtain rfl := Option.some.inj taken
  refine queued.take rfl ?_ fun patch => absurd patch other
  rw [List.length_append]
  exact room

theorem SendConnection.Serves.take (serves : conn.Serves hashMulticast) (other : origin ≠ .patchData)
    (msgs : List Message) (queue : List MsgToken) : (conn.take origin msgs queue).Serves hashMulticast := by
  refine ⟨?_, serves.valid, serves.fits⟩
  rw [queuedOf_take, if_neg other, List.append_nil]
  exact serves.patches

/-- The packets of the ring enter the queue as far as it has room. -/
theorem SendConnection.Serves.processPatchTuple (serves : conn.Serves hashMulticast) (queued : conn.Queued)
    (heap : Nat → List UInt8) (clock : Nat → Vector UInt8 16) (fdPatch : BcdID → Nat) :
    ∃ sender, (PatchSender.start conn.ringPatchTuple fdPatch conn.side.sendQueue).processPatchTuple
        ⟨hashMulticast, heap, clock⟩ = .ok sender ∧
      SendConnection.Queued { conn.take .patchData sender.pushed sender.sendQueue with ringPatchTuple := sender.ring } ∧
      SendConnection.Serves hashMulticast
        { conn.take .patchData sender.pushed sender.sendQueue with ringPatchTuple := sender.ring } ∧
      sender.pushed.length + (expectedBy hashMulticast sender.ring).length =
        (expectedBy hashMulticast conn.ringPatchTuple).length ∧
      (conn.side.sendQueue = [] → conn.ringPatchTuple ≠ [] → ringSize sender.ring < ringSize conn.ringPatchTuple) := by
  obtain ⟨sender, taken⟩ := @serveRing_ok ⟨hashMulticast, heap, clock⟩ conn.ringPatchTuple serves.valid serves.fits
    (PatchSender.start conn.ringPatchTuple fdPatch conn.side.sendQueue)
  obtain ⟨remains, ⟨contents, ⟨added, pushed, grown, -, content, -⟩, order⟩, shorter⟩ :=
    @serveRing_sound ⟨hashMulticast, heap, clock⟩ conn.ringPatchTuple _ sender serves.valid taken
  have shares := serveRing_shares taken
  obtain rfl : sender.pushed = added := pushed
  have grown : sender.sendQueue = conn.side.sendQueue ++ sender.pushed.map createMsgToken := grown
  have order : contents ++ expectedBy hashMulticast sender.ring = expectedBy hashMulticast conn.ringPatchTuple := order
  refine ⟨sender, taken, ?_, ⟨?_, remains.valid serves.valid, remains.fits serves.fits⟩, ?_, shorter⟩
  · have half : sender.pushed ≠ [] → sender.sendQueue.length ≤ aprQueueCapacity / 2 + 1 := fun some =>
      shares.resolve_left fun none => some none.1
    have room : sender.sendQueue.length ≤ aprQueueCapacity := by
      rcases shares with ⟨-, same⟩ | short
      · have same : sender.sendQueue = conn.side.sendQueue := same
        rw [same]
        exact queued.room
      · exact short.trans (by decide)
    have after := @SendConnection.Queued.take conn .patchData sender.pushed sender.sendQueue queued grown room
      fun _ => half
    exact ⟨after.conserved, after.enqueued, after.queue, after.room, after.share⟩
  · change ((conn.take .patchData sender.pushed sender.sendQueue).queuedOf .patchData).map Message.content ++ _ = _
    rw [queuedOf_take, if_pos rfl, List.map_append, content, List.append_assoc, order]
    exact serves.patches
  · rw [← order, List.length_append, ← content, List.length_map]

end Connections

/-- All connections are in order, and the commands that have not left the ring are the latest ones. -/
structure ControlThread.Sound (hashMulticast : BcdID → Option PacketSource) (thread : ControlThread) : Prop where
  queued : ∀ ssock, (thread.ssockList ssock).Queued
  serves : ∀ ssock, (thread.ssockList ssock).Serves hashMulticast
  commands : ∀ ssock, (thread.ssockList ssock).queuedOf .fastDone ++ commandsFor ssock thread.ringCmd =
    commandsFor ssock thread.commanded

section Threads

variable {hashMulticast : BcdID → Option PacketSource} {thread next : ControlThread} {ssock : Nat}
  {conn : SendConnection}

theorem ControlThread.start_sound (hashMulticast : BcdID → Option PacketSource) (fdPatch : BcdID → Nat) :
    (ControlThread.start fdPatch).Sound hashMulticast := by
  refine ⟨fun _ => SendConnection.created_queued, fun _ => ⟨rfl, ?_, ?_⟩, fun _ => rfl⟩
  · exact fun _ absent => absurd absent List.not_mem_nil
  · exact fun _ absent => absurd absent List.not_mem_nil

theorem ControlThread.Sound.streams (sound : thread.Sound hashMulticast) (ssock : Nat) :
    thread.Streams hashMulticast ssock := by
  have queued := sound.queued ssock
  refine ⟨(sound.serves ssock).patches, sound.commands ssock, ?_, queued.queue, queued.room, queued.share⟩
  rw [← queued.enqueued]
  exact queued.conserved

theorem ControlThread.setConnection_self (thread : ControlThread) (ssock : Nat) (conn : SendConnection) :
    (thread.setConnection ssock conn).ssockList ssock = conn := Function.update_self _ _ _

theorem ControlThread.setConnection_of_ne (thread : ControlThread) (conn : SendConnection) {other : Nat}
    (different : other ≠ ssock) : (thread.setConnection ssock conn).ssockList other = thread.ssockList other :=
  Function.update_of_ne different _ _

/-- A step on one connection and on the ring. -/
theorem ControlThread.Sound.change (queued : ∀ ssock, (thread.ssockList ssock).Queued)
    (serves : ∀ ssock, (thread.ssockList ssock).Serves hashMulticast) (after : conn.Queued)
    (serving : conn.Serves hashMulticast) {ringCmd commanded : List (Nat × Message)}
    (commands : ∀ other, (if other = ssock then conn else thread.ssockList other).queuedOf .fastDone ++
      commandsFor other ringCmd = commandsFor other commanded) :
    ControlThread.Sound hashMulticast
      { thread.setConnection ssock conn with ringCmd := ringCmd, commanded := commanded } := by
  have lookup (other : Nat) : ({ thread.setConnection ssock conn with
      ringCmd := ringCmd, commanded := commanded } : ControlThread).ssockList other =
      if other = ssock then conn else thread.ssockList other :=
    Function.update_apply thread.ssockList ssock conn other
  constructor
  · intro other
    rw [lookup]
    split_ifs
    · exact after
    · exact queued other
  · intro other
    rw [lookup]
    split_ifs
    · exact serving
    · exact serves other
  · intro other
    rw [lookup]
    exact commands other

/-- A step on one connection that leaves its commands. -/
theorem ControlThread.Sound.setConnection (sound : thread.Sound hashMulticast) (queued : conn.Queued)
    (serves : conn.Serves hashMulticast) (same : conn.queuedOf .fastDone = (thread.ssockList ssock).queuedOf .fastDone) :
    (thread.setConnection ssock conn).Sound hashMulticast := by
  refine ControlThread.Sound.change sound.queued sound.serves queued serves ?_
  intro other
  split_ifs with equal
  · rw [equal, same]
    exact sound.commands ssock
  · exact sound.commands other

theorem commandsFor_cons (ssock other : Nat) (msg : Message) (rest : List (Nat × Message)) :
    commandsFor ssock ((other, msg) :: rest) = (if other = ssock then [msg] else []) ++ commandsFor ssock rest := by
  unfold commandsFor
  rw [List.filter_cons]
  by_cases same : other = ssock
  · rw [if_pos (decide_eq_true same), if_pos same]
    rfl
  · rw [if_neg (by simpa using same), if_neg same, List.nil_append]

theorem commandsFor_append (ssock : Nat) (first second : List (Nat × Message)) :
    commandsFor ssock (first ++ second) = commandsFor ssock first ++ commandsFor ssock second := by
  rw [commandsFor, List.filter_append, List.map_append]
  rfl

/-- The loop over the ring moves its oldest commands into their queues. -/
theorem processCommands_sound (pending : List (Nat × Message))
    (sound : ControlThread.Sound hashMulticast { thread with ringCmd := pending }) :
    (processCommands pending thread).Sound hashMulticast := by
  induction pending generalizing thread with
  | nil => exact sound
  | cons command rest ih =>
      obtain ⟨ssock, msg⟩ := command
      unfold processCommands
      dsimp only
      split
      · exact sound
      · next queue taken =>
          apply ih
          have other : Origin.fastDone ≠ .patchData := by decide
          refine ControlThread.Sound.change sound.queued sound.serves ((sound.queued ssock).trypush other taken)
            ((sound.serves ssock).take other [msg] queue) ?_
          intro each
          have before := sound.commands each
          rw [commandsFor_cons] at before
          split_ifs with equal
          · rw [if_pos equal.symm] at before
            subst equal
            rw [queuedOf_take, if_pos rfl, List.append_assoc]
            exact before
          · rw [if_neg (Ne.symm equal), List.nil_append] at before
            exact before

/-- The ranges that a request creates are not reversed. -/
theorem msgPatchReq_ordered {seqMax seqEnd : Nat} {pt part : PatchTuple} (positive : 0 < seqMax)
    (created : part ∈ msgPatchReq seqMax seqEnd pt) : part.sttSeq ≤ part.endSeq := by
  unfold msgPatchReq at created
  dsimp only at created
  generalize (if pt.endSeq = seq2WardTheEnd then seqEnd % seqMax else pt.endSeq) = last at created
  split_ifs at created with before wraps
  · obtain rfl := List.mem_singleton.mp created
    exact before.le
  · rcases List.mem_pair.mp created with rfl | rfl
    · exact Nat.zero_le _
    · exact (Nat.mod_lt pt.sttSeq positive).le
  · exact absurd created List.not_mem_nil

/-- A request adds its elements to the ring of its connection. -/
theorem SendConnection.Serves.patchReq (serves : conn.Serves hashMulticast) {bcdId : BcdID} {seqMax seqEnd : Nat}
    {pt : PatchTuple} (asks : ControlEvent.Asks hashMulticast (.patchReq ssock bcdId seqMax seqEnd pt)) :
    SendConnection.Serves hashMulticast { conn with
      ringPatchTuple := conn.ringPatchTuple ++ (msgPatchReq seqMax seqEnd pt).map (PatchElement.mk bcdId)
      requested := conn.requested ++ (msgPatchReq seqMax seqEnd pt).map (PatchElement.mk bcdId) } := by
  obtain ⟨source, found, cut, small, rfl, bounded, fit⟩ := asks
  have inside : (if pt.endSeq = seq2WardTheEnd then seqEnd % source.seqMax else pt.endSeq) ≤ source.seqMax := by
    split_ifs with final
    · exact (Nat.mod_lt seqEnd cut.seqMax_pos).le
    · exact bounded.resolve_right final
  have parts : ∀ elem ∈ (msgPatchReq source.seqMax seqEnd pt).map (PatchElement.mk bcdId),
      elem.bcdId = bcdId ∧ elem.pt.sttSeq ≤ elem.pt.endSeq ∧ elem.pt.endSeq ≤ source.seqMax := by
    intro elem member
    obtain ⟨part, created, rfl⟩ := List.mem_map.mp member
    have last := msgPatchReq_inside pt rfl inside part created
    exact ⟨rfl, msgPatchReq_ordered cut.seqMax_pos created, last⟩
  constructor
  · change (conn.queuedOf .patchData).map Message.content ++ _ = _
    rw [expectedBy_append, expectedBy_append, ← List.append_assoc, serves.patches]
  · intro elem member
    rcases List.mem_append.mp member with before | new
    · exact serves.valid elem before
    · obtain ⟨same, ordered, last⟩ := parts elem new
      exact ⟨source, by rw [same]; exact found, cut, small, ordered, last⟩
  · intro elem member
    rcases List.mem_append.mp member with before | new
    · exact serves.fits elem before
    · obtain ⟨same, -, last⟩ := parts elem new
      intro other lookup seq covered
      obtain rfl := Option.some.inj (found.symm.trans (same ▸ lookup))
      exact fit seq (((elem.pt.mem_seqs seq).mp covered).2.trans_le last)

/-- Every step keeps the order of each connection. -/
theorem ControlThread.Sound.step (sound : thread.Sound hashMulticast) {event : ControlEvent}
    (asks : event.Asks hashMulticast) (taken : controlStep hashMulticast thread event = .ok next) :
    next.Sound hashMulticast := by
  cases event with
  | createCmd ssock bcdId time =>
      obtain rfl := Except.ok.inj taken
      refine ⟨sound.queued, sound.serves, fun other => ?_⟩
      unfold ControlThread.createCmd
      dsimp only
      rw [commandsFor_append, commandsFor_append, ← List.append_assoc, sound.commands other]
  | processCommands =>
      obtain rfl := Except.ok.inj taken
      exact processCommands_sound thread.ringCmd sound
  | patchReq ssock bcdId seqMax seqEnd pt =>
      obtain rfl := Except.ok.inj taken
      have queued := sound.queued ssock
      refine sound.setConnection ?_ ((sound.serves ssock).patchReq asks) rfl
      exact ⟨queued.conserved, queued.enqueued, queued.queue, queued.room, queued.share⟩
  | pullReject ssock bcdId time =>
      simp only [controlStep, ControlThread.pullReject, insertMsg2SendQ, Bool.true_eq_false, false_and, if_false] at taken
      split at taken
      · cases taken
      · next queue pushed =>
          obtain rfl := Except.ok.inj taken
          have other : Origin.pullReject ≠ .patchData := by decide
          refine sound.setConnection ((sound.queued ssock).trypush other pushed) ((sound.serves ssock).take other _ _) ?_
          rw [queuedOf_take, if_neg (by decide), List.append_nil]
  | processPatchTuple ssock heap clock =>
      obtain ⟨sender, served, queued, serves, -⟩ :=
        (sound.serves ssock).processPatchTuple (sound.queued ssock) heap clock thread.fdPatch
      simp only [controlStep, ControlThread.processPatchTuple, served] at taken
      obtain rfl := Except.ok.inj taken
      have after := @ControlThread.Sound.setConnection hashMulticast thread ssock _ sound queued serves (by
        change ((thread.ssockList ssock).take .patchData sender.pushed sender.sendQueue).queuedOf .fastDone = _
        rw [queuedOf_take, if_neg (by decide), List.append_nil])
      exact ⟨after.queued, after.serves, after.commands⟩
  | sendMsg ssock results =>
      obtain rfl := Except.ok.inj taken
      unfold ControlThread.sendMsg
      dsimp only
      split_ifs
      · have serves := sound.serves ssock
        refine sound.setConnection ((sound.queued ssock).sendMsg results) ?_ rfl
        exact ⟨serves.patches, serves.valid, serves.fits⟩
      · exact sound

/-- Only the reply to a `MSG_PULL` can end the agent, and only when the peer left at least 99 other replies and commands
unread. -/
def ControlEvent.FailsOnFull (hashMulticast : BcdID → Option PacketSource) (thread : ControlThread)
    (event : ControlEvent) : Prop :=
  ∀ fault, controlStep hashMulticast thread event = .error fault → fault = .abort ∧
    ∃ ssock bcdId time, event = .pullReject ssock bcdId time ∧
      (thread.ssockList ssock).side.sendQueue.length = aprQueueCapacity ∧
      99 ≤ (thread.ssockList ssock).waiting.countP fun entry => entry.1 ≠ .patchData

theorem ControlThread.Sound.failsOnFull (sound : thread.Sound hashMulticast) (event : ControlEvent) :
    event.FailsOnFull hashMulticast thread := by
  intro fault failed
  cases event with
  | createCmd ssock bcdId time => cases failed
  | processCommands => cases failed
  | patchReq ssock bcdId seqMax seqEnd pt => cases failed
  | sendMsg ssock results => cases failed
  | processPatchTuple ssock heap clock =>
      obtain ⟨sender, served, -⟩ :=
        (sound.serves ssock).processPatchTuple (sound.queued ssock) heap clock thread.fdPatch
      simp only [controlStep, ControlThread.processPatchTuple, served] at failed
      cases failed
  | pullReject ssock bcdId time =>
      have queued := sound.queued ssock
      simp only [controlStep, ControlThread.pullReject, insertMsg2SendQ, Bool.true_eq_false, false_and, if_false] at failed
      split at failed
      · next refused =>
          unfold aprQueueTrypush at refused
          split_ifs at refused with room
          have full := le_antisymm queued.room (not_lt.mp room)
          refine ⟨(Except.error.inj failed).symm, ssock, bcdId, time, rfl, full, ?_⟩
          have whole := (thread.ssockList ssock).waiting.length_eq_countP_add_countP
            (fun entry => entry.1 = .patchData)
          have length := congrArg List.length queued.queue
          have share := queued.share
          rw [full, List.length_map] at length
          simp only [decide_not, decide_eq_true_eq] at whole ⊢
          unfold aprQueueCapacity at length share
          omega
      · cases failed

end Threads

/-- A wrapped request and a command of one connection, with a reply on another one. -/
def requestRun : List ControlEvent :=
  [.patchReq 4 ⟨1, 2, 3⟩ 3 2 ⟨2, 1⟩, .createCmd 4 ⟨1, 2, 3⟩ (Vector.replicate 16 0), .processCommands,
    .pullReject 5 ⟨1, 2, 3⟩ (Vector.replicate 16 0),
    .processPatchTuple 4 (fun _ => []) (fun _ => Vector.replicate 16 0), .sendMsg 4 [48]]

theorem requestRun_asks : ∀ event ∈ requestRun, event.Asks (oneMulticast threePatches).hashMulticast := by
  intro event member
  simp only [requestRun, List.mem_cons, List.not_mem_nil, or_false] at member
  rcases member with rfl | rfl | rfl | rfl | rfl | rfl
  · exact ⟨threePatches, oneMulticast_found threePatches, threePatches_cut, by decide, rfl, .inl (by decide),
      by decide⟩
  · trivial
  · trivial
  · trivial
  · trivial
  · trivial

end RepublicAgent
