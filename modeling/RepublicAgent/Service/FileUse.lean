/-
This file says in which runs the files of a multicast stay open while they are needed.
-/

import RepublicAgent.Service.FileStore

namespace RepublicAgent
open Execution MachineInteger

/-- The multicast waits for its path or has it. -/
def PathState.Pending (path : PathState) (bcdId : BcdID) : Prop :=
  bcdId ∈ path.queuePush ∨ path.activeMulticast = some bcdId

/-- The multicast has both files open. -/
def PathState.Opened (path : PathState) (bcdId : BcdID) : Prop :=
  ∃ multi, path.hashMulticast bcdId = some multi ∧ multi.fd = true ∧ multi.fdPatch = true

/-- A patch ring has an element of the multicast. -/
def FileAgent.Patched (agent : FileAgent) (bcdId : BcdID) : Prop :=
  ∃ conn ssock elem, agent.ssockList conn = some ssock ∧ elem ∈ ssock.ringPatchTuple ∧ elem.bcdId = bcdId

def FileAgent.InUse (agent : FileAgent) (bcdId : BcdID) : Prop :=
  agent.sender.path.Pending bcdId ∨ agent.Patched bcdId

/-- Every multicast in use has its files open, and both readers find an open file. -/
structure FileAgent.FilesOpen (config : FileConfig) (agent : FileAgent) : Prop where
  opened : ∀ bcdId, agent.InUse bcdId → agent.sender.path.Opened bcdId
  data : ∀ turn space ring, fileStep config agent (.transfer (.move turn space ring)) ≠ .error .badPointer
  patches : ∀ conn inserted, fileStep config agent (.processPatchTuple conn inserted) ≠ .error .badPointer

/-- The next deletion of this executor closes the files of the multicast. -/
def FileAgent.ClosesNext (hostAddr : Nat) (agent : FileAgent) (id : Nat) (bcdId : BcdID) : Prop :=
  agent.registry.isOpen id = true ∧ agent.OfMaster hostAddr id ∧
    ∃ ptr app multi, agent.registry.lookup bcdId.appId = some (ptr, app) ∧
      agent.sender.path.hashMulticast bcdId = some multi ∧
      app.udsHash.card ≤ u16 ((multi.deleteCounter : Int) + 1)

/-- Deletions close the files of multicasts that are not in use. Pushes with receivers and patch requests with
packets come for multicasts with open files. -/
def SparesFiles (config : FileConfig) (agent : FileAgent) : FileEvent → Prop
  | .delReq id bcdId => agent.ClosesNext config.hostAddr id bcdId → ¬ agent.InUse bcdId
  | .delete id => ∀ bcdId ∈ agent.registry.orphaned id, ¬ agent.InUse bcdId
  | .pshReq id bcdId slaves _ => agent.registry.isOpen id = true →
      (agent.msgIntQ id).executorId = masterExecutorId → slaves ≠ [] →
      ∀ multi, agent.sender.path.hashMulticast bcdId = some multi → multi.fd = true ∧ multi.fdPatch = true
  | .patchReq conn bcdId pt => ∀ ssock multi sender, agent.ssockList conn = some ssock →
      agent.sender.path.hashMulticast bcdId = some multi → multi.senderAddrHash ssock.addr = some sender →
      msgPatchReq multi.seqMax sender.seqEnd pt ≠ [] → multi.fd = true ∧ multi.fdPatch = true
  | _ => True

section Transfers

variable {path next : PathState}

/-- A step of the path brings no multicast into use and closes no file. -/
structure PathState.KeepsFiles (path next : PathState) : Prop where
  pending : ∀ bcdId, next.Pending bcdId → path.Pending bcdId
  opened : ∀ bcdId, path.Opened bcdId → next.Opened bcdId

theorem PathState.KeepsFiles.refl (path : PathState) : path.KeepsFiles path := ⟨fun _ => id, fun _ => id⟩

/-- The changed multicast has its files open if it had them open before. -/
theorem PathState.Opened.store {bcdId other : BcdID} {multi : MulticastState}
    (opened : path.Opened other) (changed : MulticastState) (found : path.hashMulticast bcdId = some multi)
    (same : (changed.fd, changed.fdPatch) = (multi.fd, multi.fdPatch)) :
    (path.store bcdId changed).Opened other := by
  obtain ⟨state, present, fd, fdPatch⟩ := opened
  obtain ⟨sameFd, samePatch⟩ := Prod.mk.inj same
  by_cases equal : other = bcdId
  · subst equal
    rw [found, Option.some.injEq] at present
    subst present
    exact ⟨changed, PathState.store_self _ _, sameFd.trans fd, samePatch.trans fdPatch⟩
  · exact ⟨state, (PathState.store_other equal _).trans present, fd, fdPatch⟩

theorem PathState.store_opened {bcdId : BcdID} {changed : MulticastState} :
    (path.store bcdId changed).Opened bcdId ↔ changed.fd = true ∧ changed.fdPatch = true := by
  simp [Opened]

theorem PathState.keepsFiles_store {bcdId : BcdID} {multi : MulticastState} (changed : MulticastState)
    (found : path.hashMulticast bcdId = some multi)
    (same : (changed.fd, changed.fdPatch) = (multi.fd, multi.fdPatch)) :
    path.KeepsFiles (path.store bcdId changed) :=
  ⟨fun _ => id, fun _ opened => opened.store changed found same⟩

theorem PathState.keepsFiles_release {calls : ReleaseCalls} {made : List ControllerCall}
    (taken : path.release calls = .ok (next, made)) : path.KeepsFiles next := by
  rcases release_ok taken with ⟨rfl, _⟩ | ⟨bcdId, multi, _, found, _, _, rfl⟩
  · exact .refl _
  · constructor
    · rintro other (queued | current)
      · exact .inl queued
      · cases current
    · intro other opened
      exact opened.store { multi with isPathReleased := true } found rfl

/-- A requested multicast goes from the queue to the path, back to the queue or away. -/
theorem PathState.keepsFiles_request {head : Nat} {now : Timeval} {calls : RequestCalls}
    {made : List ControllerCall} (taken : path.request head now calls = .ok (next, made)) :
    path.KeepsFiles next := by
  rcases request_ok taken with ⟨rfl, _, _⟩ | ⟨bcdId, multi, ⟨free, first, found, _⟩, _, rfl⟩
  · exact .refl _
  · have member : bcdId ∈ path.queuePush := List.mem_of_getElem? first
    have others : ∀ other ∈ path.queuePush.eraseIdx head, other ∈ path.queuePush := fun _ => List.mem_of_mem_eraseIdx
    unfold processReply
    simp only
    split_ifs
    · constructor
      · rintro other (queued | current)
        · rcases List.mem_append.mp queued with before | last
          · exact .inl (others other before)
          · exact .inl (List.mem_singleton.mp last ▸ member)
        · exact .inr current
      · intro other opened
        exact opened.store _ found rfl
    · constructor
      · rintro other (queued | current)
        · exact .inl (others other queued)
        · exact .inl (Option.some.inj current ▸ member)
      · intro other opened
        exact opened.store _ found rfl
    · constructor
      · rintro other (queued | current)
        · exact .inl (others other queued)
        · exact .inr current
      · intro other opened
        exact opened.store _ found rfl

end Transfers

section DataThread

variable {multi : MulticastState}

theorem amNPktQueued_files (option : Bool) (release : PathRelease) (ring : TxRing) (estimate : Int) :
    ((amNPktQueued option multi release ring estimate).1.fd,
      (amNPktQueued option multi release ring estimate).1.fdPatch) = (multi.fd, multi.fdPatch) :=
  amNPktQueued_keeps (fun multi => (multi.fd, multi.fdPatch)) (fun _ _ => rfl) (fun _ _ => rfl) option multi
    release ring estimate

theorem amProcessRings_files {release : PathRelease} {space maxPktnum : Int} {ring : TxRing}
    {outcome : MulticastState × PathRelease}
    (taken : amProcessRings multi release space maxPktnum ring = .ok outcome) :
    (outcome.1.fd, outcome.1.fdPatch) = (multi.fd, multi.fdPatch) :=
  amProcessRings_keeps (fun multi => (multi.fd, multi.fdPatch)) (fun _ _ => rfl) (fun _ _ => rfl)
    (fun _ _ _ => rfl) taken

end DataThread

section Senders

variable {config : AgentConfig} {agent next : SenderAgent}

theorem SenderAgent.keepsFiles_receiveFirstSeq {bcdId : BcdID} {addr seqFirst : Nat}
    (taken : agent.receiveFirstSeq bcdId addr seqFirst = .ok next) : agent.path.KeepsFiles next.path := by
  unfold SenderAgent.receiveFirstSeq at taken
  split at taken
  · next multi idle found =>
      split at taken
      · cases taken
      · next counted received =>
          obtain rfl := Except.ok.inj taken
          unfold RepublicAgent.receiveFirstSeq at received
          split at received
          · cases received
          · obtain rfl := Except.ok.inj received
            exact PathState.keepsFiles_store _ found rfl
  · exact Except.ok.inj taken ▸ .refl _

theorem SenderAgent.keepsFiles_updateSeqEnd : agent.path.KeepsFiles agent.updateSeqEnd.path := by
  unfold SenderAgent.updateSeqEnd
  split
  · exact .refl _
  · next bcdId addr handling =>
      split
      · exact .refl _
      · next multi found =>
          split
          · exact .refl _
          · next sender stored =>
              apply PathState.keepsFiles_store _ found
              unfold multicastStateUpdateSeqEnd
              simp only
              split_ifs <;> rfl

theorem SenderAgent.keepsFiles_queue (ring : TxRing) (estimate : Int) :
    agent.path.KeepsFiles (agent.queue config ring estimate).path := by
  unfold SenderAgent.queue
  split
  · exact .refl _
  · next bcdId multi start current =>
      exact PathState.keepsFiles_store _ (PathState.activeState_eq current).2 (amNPktQueued_files _ _ ring estimate)
  · exact .refl _

theorem SenderAgent.keepsFiles_move {turn : Bool} {space : Int} {ring : TxRing}
    (taken : agent.move config turn space ring = .ok next) : agent.path.KeepsFiles next.path := by
  unfold SenderAgent.move at taken
  split at taken
  · next nMultiRx bcdId multi start current =>
      split_ifs at taken
      · split at taken
        · cases taken
        · next outcome sent =>
            obtain rfl := Except.ok.inj taken
            exact PathState.keepsFiles_store _ (PathState.activeState_eq current).2 (amProcessRings_files sent)
      · exact Except.ok.inj taken ▸ .refl _
  · exact Except.ok.inj taken ▸ .refl _
  · exact Except.ok.inj taken ▸ .refl _

theorem SenderAgent.keepsFiles_check {ring : TxRing} (taken : agent.check ring = .ok next) :
    agent.path.KeepsFiles next.path := by
  unfold SenderAgent.check at taken
  split at taken
  · split_ifs at taken
    · exact Except.ok.inj taken ▸ .refl _
    · split at taken
      · cases taken
      · next bcdId multi current =>
          obtain rfl := Except.ok.inj taken
          exact PathState.keepsFiles_store { multi with bcdState := .dead }
            (PathState.activeState_eq current).2 rfl
    · exact Except.ok.inj taken ▸ .refl _
  · exact Except.ok.inj taken ▸ .refl _

/-- The threads of the sender open and close no file on their own. -/
theorem SenderAgent.keepsFiles_step {event : SenderEvent} (own : event.ofExecutor = false)
    (taken : senderStep config agent event = .ok next) : agent.path.KeepsFiles next.path := by
  cases event with
  | wrtReq bcdId dataSize => cases own
  | pshReq bcdId slaves now => cases own
  | release calls =>
      simp only [senderStep] at taken
      split at taken
      · cases taken
      · next path made released =>
          obtain rfl := Except.ok.inj taken
          exact PathState.keepsFiles_release released
  | request head now calls =>
      simp only [senderStep] at taken
      split at taken
      · cases taken
      · next path made requested =>
          obtain rfl := Except.ok.inj taken
          exact PathState.keepsFiles_request requested
  | firstSeq bcdId addr seqFirst => exact SenderAgent.keepsFiles_receiveFirstSeq taken
  | updateSeqEnd => exact Except.ok.inj taken ▸ SenderAgent.keepsFiles_updateSeqEnd
  | queue ring estimate => exact Except.ok.inj taken ▸ SenderAgent.keepsFiles_queue ring estimate
  | move turn space ring => exact SenderAgent.keepsFiles_move taken
  | check ring => exact SenderAgent.keepsFiles_check taken

/-- The data channel thread reads the file of the active multicast only. -/
theorem SenderAgent.move_reads (config : AgentConfig) (opened : ∀ bcdId, agent.path.activeMulticast = some bcdId →
    agent.path.Opened bcdId) (turn : Bool) (space : Int) (ring : TxRing) :
    agent.move config turn space ring ≠ .error .badPointer := by
  unfold SenderAgent.move
  split
  · next nMultiRx bcdId multi start current =>
      obtain ⟨active, found⟩ := PathState.activeState_eq current
      obtain ⟨state, present, fd, _⟩ := opened bcdId active
      rw [found, Option.some.injEq] at present
      subst present
      obtain ⟨outcome, sent⟩ := amProcessRings_open agent.pathRelease space
        (min nMultiRx config.nmBurst) ring fd
      split_ifs
      · rw [sent]
        simp
      · simp
  · simp
  · simp

end Senders

section Files

variable {config : FileConfig} {agent next : FileAgent}

/-- Both readers find an open file when every multicast in use has its files open. -/
theorem FileAgent.filesOpen_iff :
    agent.FilesOpen config ↔ ∀ bcdId, agent.InUse bcdId → agent.sender.path.Opened bcdId := by
  constructor
  · intro good
    exact good.opened
  · intro opened
    refine ⟨opened, ?_, ?_⟩
    · intro turn space ring failed
      have reads := SenderAgent.move_reads config.agent (fun bcdId active =>
        opened bcdId (.inl (.inr active))) turn space ring
      simp only [fileStep, senderStep, SenderEvent.ofExecutor, Bool.false_eq_true, if_false] at failed
      split at failed
      · next fault moved =>
          obtain rfl := Except.error.inj failed
          exact reads moved
      · cases failed
    · intro conn inserted failed
      simp only [fileStep, processPatchTuple] at failed
      split at failed
      · cases failed
      · next ssock connected =>
          split at failed
          · cases failed
          · next elem rest first =>
              obtain ⟨multi, found, _, fdPatch⟩ := opened elem.bcdId
                (.inr ⟨conn, ssock, elem, connected, by simp [first], rfl⟩)
              simp [found, fdPatch] at failed

/-- A step that brings nothing into use and closes nothing keeps the files open. -/
theorem FileAgent.FilesOpen.keep (good : agent.FilesOpen config)
    (inUse : ∀ bcdId, next.InUse bcdId → agent.InUse bcdId)
    (opened : ∀ bcdId, agent.sender.path.Opened bcdId → next.sender.path.Opened bcdId) : next.FilesOpen config := by
  apply FileAgent.filesOpen_iff.mpr
  intro bcdId used
  exact opened bcdId (good.opened bcdId (inUse bcdId used))

/-- A step of the registry or of the receiver leaves the files. -/
theorem FileAgent.FilesOpen.same (good : agent.FilesOpen config) (path : next.sender.path = agent.sender.path)
    (ssockList : next.ssockList = agent.ssockList) : next.FilesOpen config := by
  apply good.keep
  · intro bcdId used
    unfold InUse Patched at used ⊢
    rwa [path, ssockList] at used
  · intro bcdId opened
    rwa [path]

theorem FileAgent.FilesOpen.intReq (good : agent.FilesOpen config) {id : Nat} {appId : AppID} {statsOpens : Bool}
    {msgIntQ : MsgIntQ} (taken : agent.intReq id appId statsOpens msgIntQ = .ok next) : next.FilesOpen config := by
  unfold FileAgent.intReq at taken
  split_ifs at taken
  · split at taken
    · cases taken
    · obtain rfl := Except.ok.inj taken
      exact good.same rfl rfl
  · exact Except.ok.inj taken ▸ good

/-- The files of the other multicasts stay open. -/
theorem PathState.closeAll_opened {path : PathState} {bcdIds : Finset BcdID} {bcdId : BcdID} :
    (path.closeAll bcdIds).Opened bcdId ↔ path.Opened bcdId ∧ bcdId ∉ bcdIds := by
  unfold Opened closeAll
  by_cases member : bcdId ∈ bcdIds
  · simp [member, MulticastState.closeFiles]
  · simp [member]

/-- The deletion of an executor keeps the files open exactly when its orphans are not in use. -/
theorem FileAgent.FilesOpen.delete_iff (good : agent.FilesOpen config) {id : Nat}
    (taken : agent.deleteUDSState id = .ok next) :
    next.FilesOpen config ↔ SparesFiles config agent (.delete id) := by
  unfold FileAgent.deleteUDSState at taken
  split at taken
  · cases taken
  · next registry deleted =>
      obtain rfl := Except.ok.inj taken
      rw [filesOpen_iff]
      constructor
      · intro opened bcdId orphan used
        exact (PathState.closeAll_opened.mp (opened bcdId used)).2 orphan
      · intro spares bcdId used
        have before : agent.InUse bcdId := used
        exact PathState.closeAll_opened.mpr ⟨good.opened bcdId before, fun orphan => spares bcdId orphan before⟩

/-- A new multicast has its files open. -/
theorem FileAgent.FilesOpen.wrtReq (good : agent.FilesOpen config) {dataPayloadLen id : Nat} {bcdId : BcdID}
    {dataSize : Nat} (taken : agent.wrtReq dataPayloadLen id bcdId dataSize = .ok next) :
    next.FilesOpen config := by
  unfold FileAgent.wrtReq at taken
  split_ifs at taken
  · split at taken
    · cases taken
    · split at taken
      · cases taken
      · next path written =>
          obtain rfl := Except.ok.inj taken
          obtain ⟨absent, multi, _, rfl⟩ := PathState.wrtReq_ok written
          apply good.keep
          · exact fun _ used => used
          · rintro other ⟨state, present, files⟩
            have different : other ≠ bcdId := by
              rintro rfl
              rw [absent] at present
              cases present
            exact ⟨state, (PathState.store_other different _).trans present, files⟩
  · exact Except.ok.inj taken ▸ good

/-- A push keeps the files of its multicast as they are. -/
theorem pushed_files (multi : MulticastState) (slaves : List Slave) :
    ((slaves.foldl createSenderState (multicastStateReset multi)).fd,
      (slaves.foldl createSenderState (multicastStateReset multi)).fdPatch) = (multi.fd, multi.fdPatch) :=
  pushed_keeps (fun multi => (multi.fd, multi.fdPatch))
    (fun multi => by unfold multicastStateReset; split_ifs <;> rfl) (fun _ _ => rfl) multi slaves

/-- A push keeps the files open exactly when it comes for a multicast with open files. -/
theorem FileAgent.FilesOpen.pshReq_iff (good : agent.FilesOpen config) {id : Nat} {bcdId : BcdID}
    {slaves : List Slave} {now : Timeval} (taken : agent.pshReq id bcdId slaves now = .ok next) :
    next.FilesOpen config ↔ SparesFiles config agent (.pshReq id bcdId slaves now) := by
  unfold FileAgent.pshReq at taken
  split_ifs at taken with live other
  · split at taken
    · cases taken
    · next path pushed =>
        obtain rfl := Except.ok.inj taken
        rcases PathState.pshReq_ok pushed with ⟨rfl, rfl⟩ | ⟨some, multi, found, rfl⟩
        · exact iff_of_true good fun _ _ impossible => absurd rfl impossible
        · have same := pushed_files multi slaves
          obtain ⟨sameFd, samePatch⟩ := Prod.mk.inj same
          rw [filesOpen_iff]
          constructor
          · intro opened _ _ _ state present
            rw [found, Option.some.injEq] at present
            subst present
            have after : (agent.sender.path.store bcdId
                { slaves.foldl createSenderState (multicastStateReset multi) with tvPush := now }).Opened bcdId :=
              opened bcdId (.inl (.inl (by simp [withPath])))
            obtain ⟨fd, fdPatch⟩ := PathState.store_opened.mp after
            exact ⟨sameFd.symm.trans fd, samePatch.symm.trans fdPatch⟩
          · intro spares other used
            have before : agent.sender.path.Opened other := by
              rcases used with (queued | current) | patched
              · rcases List.mem_append.mp queued with before | last
                · exact good.opened other (.inl (.inl before))
                · rw [List.mem_singleton.mp last]
                  exact ⟨multi, found, spares live (not_not.mp ‹_›) some multi found⟩
              · exact good.opened other (.inl (.inr current))
              · exact good.opened other (.inr patched)
            exact before.store _ found same
  · exact iff_of_true (Except.ok.inj taken ▸ good) fun impossible => absurd impossible live

/-- A deletion that reaches the number of executors closes the files, and every other one leaves them. -/
theorem FileAgent.delReq_cases {hostAddr id : Nat} {bcdId : BcdID}
    (taken : agent.delReq hostAddr id bcdId = .ok next) :
    (agent.ClosesNext hostAddr id bcdId ∧ ∃ multi, agent.sender.path.hashMulticast bcdId = some multi ∧
        next = agent.withPath (agent.sender.path.store bcdId
          { multi with deleteCounter := u16 ((multi.deleteCounter : Int) + 1) }.closeFiles)) ∨
      (¬ agent.ClosesNext hostAddr id bcdId ∧
        ((∃ multi, agent.sender.path.hashMulticast bcdId = some multi ∧
          next = agent.withPath (agent.sender.path.store bcdId
            { multi with deleteCounter := u16 ((multi.deleteCounter : Int) + 1) })) ∨
        (next.sender.path = agent.sender.path ∧ next.ssockList = agent.ssockList))) := by
  unfold FileAgent.delReq at taken
  by_cases live : agent.registry.isOpen id
  · rw [if_pos live] at taken
    split at taken
    · cases taken
    · next ptr app known =>
        split at taken
        · next absent _ =>
            refine .inr ⟨?_, .inr ?_⟩
            · rintro ⟨_, _, _, _, multi, _, found, _⟩
              rw [absent] at found
              cases found
            · obtain rfl := Except.ok.inj taken
              exact ⟨rfl, rfl⟩
        · simp only at taken
          split_ifs at taken with broken master
          · split at taken
            · cases taken
            · next _ multi found =>
                obtain rfl := Except.ok.inj taken
                unfold MulticastState.countDelete
                simp only
                split_ifs with reached
                · exact .inl ⟨⟨live, master, ptr, app, multi, known, found, reached⟩, multi, found, rfl⟩
                · refine .inr ⟨?_, .inl ⟨multi, found, rfl⟩⟩
                  rintro ⟨_, _, place, state, other, there, present, enough⟩
                  rw [known, Option.some.injEq, Prod.mk.injEq] at there
                  rw [found, Option.some.injEq] at present
                  rw [← there.2, ← present] at enough
                  exact reached enough
          · refine .inr ⟨fun closes => master closes.2.1, .inr ?_⟩
            split at taken
            · cases taken
            · obtain rfl := Except.ok.inj taken
              exact ⟨rfl, rfl⟩
  · rw [if_neg live] at taken
    exact .inr ⟨fun closes => live closes.1, .inr (Except.ok.inj taken ▸ ⟨rfl, rfl⟩)⟩

/-- A deletion that closes the files does not fault. -/
theorem FileAgent.delReq_of_closes {hostAddr id : Nat} {bcdId : BcdID}
    (closes : agent.ClosesNext hostAddr id bcdId) : ∃ next, agent.delReq hostAddr id bcdId = .ok next := by
  obtain ⟨live, master, ptr, app, multi, known, found, _⟩ := closes
  unfold FileAgent.delReq
  simp only [live, if_true, known, found]
  rcases master with executor | ⟨executor, sameHost⟩
  · simp [executor, OfMaster]
  · simp [executor, sameHost, OfMaster]

/-- A deletion keeps the files open exactly when it closes no files in use. -/
theorem FileAgent.FilesOpen.delReq_iff (good : agent.FilesOpen config) {id : Nat} {bcdId : BcdID}
    (taken : agent.delReq config.hostAddr id bcdId = .ok next) :
    next.FilesOpen config ↔ SparesFiles config agent (.delReq id bcdId) := by
  rcases delReq_cases taken with ⟨closes, multi, found, rfl⟩ | ⟨keeps, left⟩
  · rw [filesOpen_iff]
    constructor
    · intro opened _ used
      have after : (agent.sender.path.store bcdId
          { multi with deleteCounter := u16 ((multi.deleteCounter : Int) + 1) }.closeFiles).Opened bcdId :=
        opened bcdId used
      have fd := (PathState.store_opened.mp after).1
      cases fd
    · intro spares other used
      have before : agent.InUse other := used
      have different : other ≠ bcdId := by
        rintro rfl
        exact spares closes before
      obtain ⟨state, present, files⟩ := good.opened other before
      exact ⟨state, (PathState.store_other different _).trans present, files⟩
  · refine iff_of_true ?_ fun closes => absurd closes keeps
    rcases left with ⟨multi, found, rfl⟩ | ⟨path, ssockList⟩
    · apply good.keep
      · exact fun _ used => used
      · exact fun other opened => opened.store _ found rfl
    · exact good.same path ssockList

/-- A changed ring adds the multicasts of its new elements to those in use. -/
theorem FileAgent.patched_withRing {conn : Nat} (ssock : SendSocketState) (ring : List PatchElement)
    {bcdId : BcdID} (patched : (agent.withRing conn ssock ring).Patched bcdId) :
    agent.Patched bcdId ∨ ∃ elem ∈ ring, elem.bcdId = bcdId := by
  obtain ⟨other, state, elem, connected, member, same⟩ := patched
  by_cases equal : other = conn
  · subst equal
    simp only [withRing, Function.update_self, Option.some.injEq] at connected
    subst connected
    exact .inr ⟨elem, member, same⟩
  · simp only [withRing, Function.update_of_ne equal] at connected
    exact .inl ⟨other, state, elem, connected, member, same⟩

/-- A patch request keeps the files open exactly when it adds no elements of a closed multicast. -/
theorem FileAgent.FilesOpen.patchReq_iff (good : agent.FilesOpen config) {conn : Nat} {bcdId : BcdID}
    {pt : PatchTuple} (taken : agent.patchReq conn bcdId pt = .ok next) :
    next.FilesOpen config ↔ SparesFiles config agent (.patchReq conn bcdId pt) := by
  unfold FileAgent.patchReq at taken
  split at taken
  · next ssock multi connected found =>
      split at taken
      · cases taken
      · next sender stored =>
          obtain rfl := Except.ok.inj taken
          rw [filesOpen_iff]
          constructor
          · intro opened ssock' multi' sender' connected' found' stored' some
            rw [connected, Option.some.injEq] at connected'
            rw [found, Option.some.injEq] at found'
            subst connected' found'
            rw [stored, Option.some.injEq] at stored'
            subst stored'
            obtain ⟨tuple, member⟩ := List.exists_mem_of_ne_nil _ some
            obtain ⟨state, present, files⟩ := opened bcdId (.inr ⟨conn, _, ⟨bcdId, tuple⟩, Function.update_self ..,
              List.mem_append_right _ (List.mem_map_of_mem member), rfl⟩)
            rw [show agent.sender.path.hashMulticast bcdId = _ from present, Option.some.injEq] at found
            exact found ▸ files
          · intro spares other used
            rcases used with pending | patched
            · exact good.opened other (.inl pending)
            · rcases patched_withRing _ _ patched with before | ⟨elem, member, rfl⟩
              · exact good.opened other (.inr before)
              · rcases List.mem_append.mp member with before | new
                · exact good.opened elem.bcdId (.inr ⟨conn, ssock, elem, connected, before, rfl⟩)
                · obtain ⟨tuple, inside, rfl⟩ := List.mem_map.mp new
                  have some := List.ne_nil_of_mem inside
                  exact ⟨multi, found, spares ssock multi sender connected found stored some⟩
  · next unknown =>
      refine iff_of_true (Except.ok.inj taken ▸ good) ?_
      intro ssock multi sender connected found
      exact absurd found (unknown ssock multi connected)

theorem FileAgent.FilesOpen.processPatchTuple (good : agent.FilesOpen config) {conn inserted : Nat}
    (taken : agent.processPatchTuple conn inserted = .ok next) : next.FilesOpen config := by
  unfold FileAgent.processPatchTuple at taken
  split at taken
  · exact Except.ok.inj taken ▸ good
  · next ssock connected =>
      split at taken
      · exact Except.ok.inj taken ▸ good
      · next elem rest first =>
          have here : ∀ other ∈ elem :: rest, agent.Patched other.bcdId := by
            intro other member
            exact ⟨conn, ssock, other, connected, first ▸ member, rfl⟩
          have left (sttSeq : Nat) : ∀ other ∈ (if sttSeq = elem.pt.endSeq then rest
              else { elem with pt := { elem.pt with sttSeq := sttSeq } } :: rest), agent.Patched other.bcdId := by
            intro other member
            split_ifs at member
            · exact here other (List.mem_cons_of_mem _ member)
            · rcases List.mem_cons.mp member with rfl | later
              · exact here elem (List.mem_cons_self ..)
              · exact here other (List.mem_cons_of_mem _ later)
          split at taken
          · cases taken
          · split at taken
            · cases taken
            · obtain rfl := Except.ok.inj taken
              apply good.keep
              · rintro bcdId (pending | patched)
                · exact .inl pending
                · rcases patched_withRing _ _ patched with before | ⟨other, member, rfl⟩
                  · exact .inr before
                  · exact .inr (left _ other member)
              · exact fun _ => id

/-- Every step keeps the files open exactly when it spares those in use. -/
theorem FileAgent.FilesOpen.step_iff (good : agent.FilesOpen config) {event : FileEvent}
    (taken : fileStep config agent event = .ok next) : next.FilesOpen config ↔ SparesFiles config agent event := by
  cases event with
  | connect leftover garbage => exact iff_of_true (Except.ok.inj taken ▸ good.same rfl rfl) trivial
  | intReq id appId statsOpens msgIntQ => exact iff_of_true (good.intReq taken) trivial
  | disconnect id => exact iff_of_true (Except.ok.inj taken ▸ good.same rfl rfl) trivial
  | delete id => exact good.delete_iff taken
  | wrtReq id bcdId dataSize => exact iff_of_true (good.wrtReq taken) trivial
  | pshReq id bcdId slaves now => exact good.pshReq_iff taken
  | delReq id bcdId => exact good.delReq_iff taken
  | createRecver bcdId => exact iff_of_true (Except.ok.inj taken ▸ good.same rfl rfl) trivial
  | transfer event =>
      refine iff_of_true ?_ trivial
      simp only [fileStep] at taken
      cases own : event.ofExecutor with
      | true =>
          rw [own, if_pos rfl] at taken
          exact Except.ok.inj taken ▸ good
      | false =>
          rw [own, if_neg Bool.false_ne_true] at taken
          split at taken
          · cases taken
          · next sender moved =>
              obtain rfl := Except.ok.inj taken
              have kept := SenderAgent.keepsFiles_step own moved
              exact good.keep (fun bcdId used => used.imp_left (kept.pending bcdId)) kept.opened
  | createSendSocket addr =>
      obtain rfl := Except.ok.inj taken
      refine iff_of_true (good.keep ?_ fun _ => id) trivial
      rintro bcdId (pending | patched)
      · exact .inl pending
      · rcases patched_withRing ⟨addr, []⟩ [] patched with before | ⟨elem, member, _⟩
        · exact .inr before
        · cases member
  | patchReq conn bcdId pt => exact good.patchReq_iff taken
  | processPatchTuple conn inserted => exact iff_of_true (good.processPatchTuple taken) trivial
  | closeSendSocket conn =>
      obtain rfl := Except.ok.inj taken
      refine iff_of_true (good.keep ?_ fun _ => id) trivial
      rintro bcdId (pending | ⟨other, ssock, elem, connected, inside⟩)
      · exact .inl pending
      · have different : other ≠ conn := by
          rintro rfl
          simp at connected
        simp only [Function.update_of_ne different] at connected
        exact .inr ⟨other, ssock, elem, connected, inside⟩

/-- A step that faults closes no files. -/
theorem sparesFiles_of_error {event : FileEvent} {fault : Fault}
    (failed : fileStep config agent event = .error fault) : SparesFiles config agent event := by
  cases event with
  | delReq id bcdId =>
      intro closes
      obtain ⟨next, taken⟩ := FileAgent.delReq_of_closes closes
      rw [fileStep, taken] at failed
      cases failed
  | delete id =>
      intro bcdId orphan
      simp only [fileStep, FileAgent.deleteUDSState] at failed
      split at failed
      · next deleted =>
          unfold Registry.deleteUDSState at deleted
          unfold Registry.orphaned at orphan
          split at deleted
          · cases deleted
          · next sock found =>
              rw [found] at orphan
              split_ifs at deleted with live
              simp only at orphan
              split at deleted
              · next none => simp [none] at orphan
              · next ptr pointer =>
                  split at deleted
                  · next none => simp [pointer, none] at orphan
                  · cases deleted
      · cases failed
  | pshReq id bcdId slaves now =>
      intro live executor some multi found
      simp [fileStep, FileAgent.pshReq, live, executor, PathState.pshReq, found, some] at failed
  | patchReq conn bcdId pt =>
      intro ssock multi sender connected found stored some
      simp [fileStep, FileAgent.patchReq, connected, found, stored] at failed
  | _ => trivial

end Files

theorem FileAgent.initial_filesOpen (config : FileConfig) : FileAgent.initial.FilesOpen config := by
  apply FileAgent.filesOpen_iff.mpr
  rintro bcdId ((queued | current) | ⟨conn, ssock, elem, connected, _⟩)
  · cases queued
  · cases current
  · cases connected

/-- The files that are needed stay open throughout exactly the runs whose deletions, pushes and patch requests
spare the files in use. -/
theorem neededFiles_open_iff (config : FileConfig) (events : List FileEvent) :
    Throughout (fileStep config) (FileAgent.FilesOpen config) FileAgent.initial events ↔
      StepsMeet (fileStep config) (SparesFiles config) FileAgent.initial events := by
  apply throughout_iff (fun _ => True)
  · intro agent event next _ good taken
    exact ⟨trivial, good.step_iff taken⟩
  · intro agent event fault _ _ failed
    exact sparesFiles_of_error failed
  · trivial
  · exact FileAgent.initial_filesOpen config

/-- The only executor writes and pushes a broadcast and deletes it before its path is granted. -/
def earlyDelete : List FileEvent :=
  [.connect none ⟨0, 0⟩, .intReq 0 ⟨0, 0⟩ true ⟨-1, 1⟩, .wrtReq 0 ⟨0, 0, 7⟩ 1,
    .pshReq 0 ⟨0, 0, 7⟩ [⟨9, false⟩] (1, 0), .delReq 0 ⟨0, 0, 7⟩]

/-- The files of a waiting multicast are closed. -/
theorem neededFiles_closed :
    ¬ ∀ (config : FileConfig) (events : List FileEvent),
      Throughout (fileStep config) (FileAgent.FilesOpen config) FileAgent.initial events := by
  intro always
  obtain ⟨final, reached, closed⟩ := exists_of_check
    (execute (fileStep ⟨1, ⟨1024, true, 64⟩⟩) FileAgent.initial earlyDelete)
    (fun agent => ⟨0, 0, 7⟩ ∈ agent.sender.path.queuePush ∧
      ((agent.sender.path.hashMulticast ⟨0, 0, 7⟩).all fun multi => !multi.fd) = true) (by decide)
  obtain ⟨queued, shut⟩ := of_decide_eq_true closed
  have good := (always ⟨1, ⟨1024, true, 64⟩⟩ earlyDelete).final reached
  obtain ⟨multi, found, fd, _⟩ := good.opened ⟨0, 0, 7⟩ (.inl (.inl queued))
  simp [found, fd] at shut

end RepublicAgent
