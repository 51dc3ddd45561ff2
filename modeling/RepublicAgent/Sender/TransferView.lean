/-
This file gives the view of a sender that decides whether an approved multicast can start, and follows
the view through every step.
-/

import RepublicAgent.Sender.SenderAgent

namespace RepublicAgent
open MachineInteger

/-- The state of a transfer, its termination mark and whether it has sent nothing yet. -/
structure TransferMarks where
  bcdState : BcdState
  terminated : Bool
  fresh : Bool
deriving DecidableEq, Repr

def MulticastState.marks (multi : MulticastState) : TransferMarks :=
  ⟨multi.bcdState, decide multi.Terminated, decide (multi.nPacketTotal = 0 ∧ multi.nByteTotal = 0)⟩

/-- The marks of all multicasts, the active one, the released ones, the pending end of the active one and
the number of packets to send in this pass. -/
structure TransferView where
  marks : BcdID → Option TransferMarks
  active : Option BcdID
  released : List BcdID
  needReleasePath : Bool
  quota : Int

def DataPc.quota : DataPc → Int
  | .move nMultiRx => nMultiRx
  | _ => 0

def SenderAgent.view (agent : SenderAgent) : TransferView where
  marks bcdId := (agent.path.hashMulticast bcdId).map MulticastState.marks
  active := agent.path.activeMulticast
  released := agent.released
  needReleasePath := agent.pathRelease.needReleasePath
  quota := agent.pc.quota

/-- A multicast that was never released is clean until its transfer starts, and a released one is
terminated for good. -/
structure TransferMarks.Fine (active released : Prop) (marks : TransferMarks) : Prop where
  clean : ¬ released → (active → marks.bcdState = .initiated) → marks.terminated = false ∧ marks.fresh = true
  ended : released → marks.terminated = true
  dead : active → marks.bcdState = .dead → marks.terminated = true

/-- The active multicast has marks with the property. -/
def TransferView.ActiveMeets (view : TransferView) (property : TransferMarks → Prop) : Prop :=
  ∃ bcdId marks, view.active = some bcdId ∧ view.marks bcdId = some marks ∧ property marks

/-- The end of the transfer waits for a terminated multicast, and packets are sent for a started one. -/
structure TransferView.Consistent (view : TransferView) : Prop where
  fine : ∀ bcdId marks, view.marks bcdId = some marks →
    marks.Fine (view.active = some bcdId) (bcdId ∈ view.released)
  recorded : ∀ bcdId ∈ view.released, ∃ marks, view.marks bcdId = some marks
  waits : view.needReleasePath = true →
    view.ActiveMeets fun marks => marks.bcdState ≠ .dead ∧ marks.terminated = true
  sending : view.quota ≠ 0 →
    view.ActiveMeets fun marks => marks.bcdState = .attempt ∨ marks.bcdState = .fullrate

/-- An active multicast that waits for its start was never released. -/
def TransferView.FirstOnly (view : TransferView) : Prop :=
  ∀ bcdId marks, view.active = some bcdId → view.marks bcdId = some marks → marks.bcdState = .initiated →
    bcdId ∉ view.released

theorem SenderAgent.initial_consistent :
    SenderAgent.initial.view.Consistent ∧ SenderAgent.initial.view.FirstOnly := by
  refine ⟨⟨?_, ?_, ?_, ?_⟩, ?_⟩
  · intro bcdId marks present
    cases present
  · intro bcdId member
    cases member
  · intro waiting
    cases waiting
  · intro some
    exact absurd rfl some
  · intro bcdId marks current
    cases current

section Steps

variable {view next : TransferView} {bcdId : BcdID} {old new : TransferMarks}

/-- The property holds of the marks of the active multicast. -/
theorem TransferView.ActiveMeets.here {property : TransferMarks → Prop} (meets : view.ActiveMeets property)
    (active : view.active = some bcdId) (found : view.marks bcdId = some old) : property old := by
  obtain ⟨other, marks, current, present, holds⟩ := meets
  rw [active, Option.some.injEq] at current
  subst current
  rw [found, Option.some.injEq] at present
  exact present ▸ holds

/-- A step that changes the marks of one multicast keeps the view consistent when these marks are fine. -/
theorem TransferView.Consistent.of_update (good : view.Consistent)
    (marks : next.marks = Function.update view.marks bcdId (some new))
    (fine : new.Fine (next.active = some bcdId) (bcdId ∈ next.released))
    (active : ∀ other, other ≠ bcdId → (next.active = some other ↔ view.active = some other))
    (released : ∀ other, other ≠ bcdId → (other ∈ next.released ↔ other ∈ view.released))
    (waits : next.needReleasePath = true →
      next.ActiveMeets fun marks => marks.bcdState ≠ .dead ∧ marks.terminated = true)
    (sending : next.quota ≠ 0 →
      next.ActiveMeets fun marks => marks.bcdState = .attempt ∨ marks.bcdState = .fullrate) :
    next.Consistent where
  fine other found present := by
    rw [marks] at present
    by_cases same : other = bcdId
    · subst same
      rw [Function.update_self, Option.some.injEq] at present
      exact present ▸ fine
    · rw [Function.update_of_ne same] at present
      rw [active other same, released other same]
      exact good.fine other found present
  recorded other member := by
    rw [marks]
    by_cases same : other = bcdId
    · subst same
      exact ⟨new, Function.update_self ..⟩
    · rw [Function.update_of_ne same]
      exact good.recorded other ((released other same).mp member)
  waits := waits
  sending := sending

/-- The changed marks of the active multicast have the property. -/
theorem TransferView.activeMeets_update {property : TransferMarks → Prop}
    (marks : next.marks = Function.update view.marks bcdId (some new)) (active : next.active = some bcdId)
    (holds : property new) : next.ActiveMeets property :=
  ⟨bcdId, new, active, by rw [marks, Function.update_self], holds⟩

/-- A step of the active multicast keeps the active one and the released ones. -/
theorem TransferView.Consistent.of_active (good : view.Consistent) (new : TransferMarks) (next : TransferView)
    (only : view.FirstOnly)
    (current : view.active = some bcdId) (found : view.marks bcdId = some old)
    (marks : next.marks = Function.update view.marks bcdId (some new)) (active : next.active = view.active)
    (released : next.released = view.released)
    (started : new.bcdState = .initiated → old.bcdState = .initiated ∧ old.fresh = false)
    (ended : old.terminated = true → new.terminated = true)
    (dead : new.bcdState = .dead → new.terminated = true)
    (waits : next.needReleasePath = true → new.bcdState ≠ .dead ∧ new.terminated = true)
    (sending : next.quota ≠ 0 → new.bcdState = .attempt ∨ new.bcdState = .fullrate) :
    next.Consistent ∧ next.FirstOnly := by
  have fine := good.fine bcdId old found
  have current' : next.active = some bcdId := active.trans current
  constructor
  · apply good.of_update marks
    · constructor
      · intro unreleased initiated
        obtain ⟨before, stale⟩ := started (initiated current')
        rw [released] at unreleased
        have clean := (fine.clean unreleased fun _ => before).2
        rw [stale] at clean
        cases clean
      · intro member
        rw [released] at member
        exact ended (fine.ended member)
      · intro _ isDead
        exact dead isDead
    · intro other _
      rw [active]
    · intro other _
      rw [released]
    · intro waiting
      exact activeMeets_update marks current' (waits waiting)
    · intro some
      exact activeMeets_update marks current' (sending some)
  · intro other present isActive found' initiated
    rw [current', Option.some.injEq] at isActive
    subst isActive
    rw [marks, Function.update_self, Option.some.injEq] at found'
    subst found'
    rw [released]
    exact only bcdId old current found (started initiated).1

/-- The pending end of a transfer and the packets of a pass keep a dead or idle view from changing. -/
theorem TransferView.Consistent.idle (good : view.Consistent) (idle : view.active = none) :
    view.needReleasePath = false ∧ view.quota = 0 := by
  constructor
  · by_contra waiting
    obtain ⟨other, _, current, _⟩ := good.waits (by simpa using waiting)
    rw [idle] at current
    cases current
  · by_contra some
    obtain ⟨other, _, current, _⟩ := good.sending some
    rw [idle] at current
    cases current

/-- A dead multicast has no pending end and no packets to send. -/
theorem TransferView.Consistent.idle_dead (good : view.Consistent) (current : view.active = some bcdId)
    (found : view.marks bcdId = some old) (dead : old.bcdState = .dead) :
    view.needReleasePath = false ∧ view.quota = 0 := by
  constructor
  · by_contra waiting
    exact ((good.waits (by simpa using waiting)).here current found).1 dead
  · by_contra some
    have started := (good.sending some).here current found
    rw [dead] at started
    simp at started

/-- A new multicast is dead and clean. -/
theorem TransferView.Consistent.create (good : view.Consistent) (next : TransferView) (only : view.FirstOnly)
    (absent : view.marks bcdId = none) (inactive : view.active ≠ some bcdId)
    (marks : next.marks = Function.update view.marks bcdId (some ⟨.dead, false, true⟩))
    (active : next.active = view.active) (released : next.released = view.released)
    (waits : next.needReleasePath = view.needReleasePath) (quota : next.quota = view.quota) :
    next.Consistent ∧ next.FirstOnly := by
  have unreleased : bcdId ∉ view.released := by
    intro member
    obtain ⟨found, present⟩ := good.recorded bcdId member
    rw [absent] at present
    cases present
  have others : ∀ property, view.ActiveMeets property → next.ActiveMeets property := by
    rintro property ⟨other, found, current, present, holds⟩
    have different : other ≠ bcdId := by
      rintro rfl
      rw [absent] at present
      cases present
    exact ⟨other, found, active.trans current, by rw [marks, Function.update_of_ne different, present], holds⟩
  constructor
  · apply good.of_update marks
    · rw [released]
      exact ⟨fun _ _ => ⟨rfl, rfl⟩, fun member => absurd member unreleased,
        fun current => absurd (active.symm.trans current) inactive⟩
    · intro other _
      rw [active]
    · intro other _
      rw [released]
    · intro waiting
      exact others _ (good.waits (waits ▸ waiting))
    · intro some
      exact others _ (good.sending (quota ▸ some))
  · intro other found current present initiated
    rw [active] at current
    have different : other ≠ bcdId := by
      rintro rfl
      exact inactive current
    rw [marks, Function.update_of_ne different] at present
    rw [released]
    exact only other found current present initiated

/-- A released multicast was dead and stays terminated. -/
theorem TransferView.Consistent.release (good : view.Consistent) (next : TransferView)
    (current : view.active = some bcdId)
    (found : view.marks bcdId = some old) (dead : old.bcdState = .dead) (marks : next.marks = view.marks)
    (active : next.active = none) (released : next.released = view.released ++ [bcdId])
    (waits : next.needReleasePath = view.needReleasePath) (quota : next.quota = view.quota) :
    next.Consistent ∧ next.FirstOnly := by
  have fine := good.fine bcdId old found
  obtain ⟨quiet, nothing⟩ := good.idle_dead current found dead
  constructor
  · have kept : next.marks = Function.update view.marks bcdId (some old) := by
      rw [marks, ← found, Function.update_eq_self]
    apply good.of_update kept
    · rw [active, released]
      exact ⟨fun unreleased => absurd (by simp) unreleased, fun _ => fine.dead current dead,
        fun impossible => by cases impossible⟩
    · intro other different
      rw [active, current, Option.some.injEq]
      exact iff_of_false (by simp) different.symm
    · intro other different
      simp [released, different]
    · intro waiting
      rw [waits, quiet] at waiting
      cases waiting
    · intro some
      exact absurd (quota.trans nothing) some
  · intro other found' impossible
    rw [active] at impossible
    cases impossible

/-- An approved multicast was dead. Its start keeps the order of pushes exactly when it was never released. -/
theorem TransferView.Consistent.activate (good : view.Consistent) (next : TransferView) (idle : view.active = none)
    (found : view.marks bcdId = some old)
    (marks : next.marks = Function.update view.marks bcdId (some { old with bcdState := .initiated }))
    (active : next.active = some bcdId) (released : next.released = view.released)
    (waits : next.needReleasePath = view.needReleasePath) (quota : next.quota = view.quota) :
    next.Consistent ∧ (next.FirstOnly ↔ bcdId ∉ view.released) := by
  have fine := good.fine bcdId old found
  obtain ⟨quiet, nothing⟩ := good.idle idle
  constructor
  · apply good.of_update marks
    · rw [released]
      refine ⟨fun unreleased _ => ?_, fun member => fine.ended member, fun _ impossible => by cases impossible⟩
      exact fine.clean unreleased fun impossible => by rw [idle] at impossible; cases impossible
    · intro other different
      rw [active, idle, Option.some.injEq]
      exact iff_of_false different.symm (by simp)
    · intro other _
      rw [released]
    · intro waiting
      rw [waits, quiet] at waiting
      cases waiting
    · intro some
      exact absurd (quota.trans nothing) some
  · constructor
    · intro only
      rw [← released]
      exact only bcdId _ active (by rw [marks, Function.update_self]) rfl
    · intro unreleased other found' current _ _
      rw [active, Option.some.injEq] at current
      rw [released, ← current]
      exact unreleased

end Steps

section Agents

variable {agent next : SenderAgent} {bcdId : BcdID} {multi changed : MulticastState}

theorem SenderAgent.view_marks (found : agent.path.hashMulticast bcdId = some multi) :
    agent.view.marks bcdId = some multi.marks := by
  simp [view, found]

/-- The marks follow a stored state. -/
theorem PathState.store_marks (path : PathState) :
    (fun other => ((path.store bcdId changed).hashMulticast other).map MulticastState.marks) =
      Function.update (fun other => (path.hashMulticast other).map MulticastState.marks) bcdId
        (some changed.marks) := by
  funext other
  by_cases same : other = bcdId
  · subst same
    simp [store]
  · simp [store, same]

/-- A stored state with the same marks leaves the marks of all multicasts. -/
theorem PathState.store_same (path : PathState) (found : path.hashMulticast bcdId = some multi)
    (same : changed.marks = multi.marks) :
    (fun other => ((path.store bcdId changed).hashMulticast other).map MulticastState.marks) =
      fun other => (path.hashMulticast other).map MulticastState.marks := by
  rw [store_marks, same]
  funext other
  by_cases equal : other = bcdId
  · subst equal
    simp [found]
  · simp [equal]

/-- A push keeps the marks of its multicast. -/
theorem pushed_marks (slaves : List Slave) (now : Timeval) :
    ({ slaves.foldl createSenderState (multicastStateReset multi) with tvPush := now } : MulticastState).marks =
      multi.marks :=
  pushed_keeps MulticastState.marks (fun multi => by unfold multicastStateReset; split_ifs <;> rfl)
    (fun _ _ => rfl) multi slaves

end Agents

end RepublicAgent
