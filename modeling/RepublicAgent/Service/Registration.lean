/-
This file says when a sequence of `MSG_INT_REQ` messages registers every executor with its own application.
-/

import RepublicAgent.Library.Execution
import RepublicAgent.Service.Registry

namespace RepublicAgent
open Execution

/-- An executor connects, with some old content in its new state, or sends `MSG_INT_REQ`. -/
inductive RegistrationEvent where
  | connect (leftover : Option Nat)
  | intReq (id : Nat) (statsOpens : Bool)
deriving DecidableEq, Repr

/-- The executor behind a connection belongs to one application and names it in its requests. -/
def register (own : Nat → AppID) (registry : Registry) : RegistrationEvent → Except Fault Registry
  | .connect leftover => .ok (registry.createLocalSocketState leftover)
  | .intReq id statsOpens => registry.intReq id (own id) statsOpens

/-- Each executor that sent a request points to the state of its application, and each state holds
exactly the ids of the executors that sent a request for its application. -/
structure RegisteredWithOwn (own : Nat → AppID) (registry : Registry) : Prop where
  sockets : ∀ id sock, registry.lsockList id = some sock → sock.requested = true →
    ∃ ptr app, sock.app = some ptr ∧ registry.apps[ptr]? = some app ∧ app.appId = own id
  members : ∀ (ptr : Nat) (app : AppState), registry.apps[ptr]? = some app → ∀ id, id ∈ app.udsHash ↔
    own id = app.appId ∧ ∃ sock, registry.lsockList id = some sock ∧ sock.requested = true

/-- A request finds no application, or `appP2` still points to the application that it finds. -/
def FindsLatest (own : Nat → AppID) (registry : Registry) : RegistrationEvent → Prop
  | .connect _ => True
  | .intReq id _ => registry.Open id →
      registry.hashApp (own id) = none ∨ registry.hashApp (own id) = registry.appP2

/-- The ids of the connections are below the counter. -/
structure Registry.Numbered (registry : Registry) : Prop where
  sound : registry.Sound
  numbered : ∀ id sock, registry.lsockList id = some sock → id < registry.localSocketID

section Steps

variable {own : Nat → AppID} {registry next : Registry}

theorem Registry.Numbered.create (numbered : registry.Numbered) (leftover : Option Nat) :
    (registry.createLocalSocketState leftover).Numbered where
  sound := ⟨numbered.sound.named, numbered.sound.stored, numbered.sound.latest⟩
  numbered id sock found := by
    by_cases equal : id = registry.localSocketID
    · subst equal
      exact Nat.lt_succ_self _
    · simp only [createLocalSocketState, Function.update_of_ne equal] at found
      exact Nat.lt_succ_of_lt (numbered.numbered id sock found)

/-- A new connection has sent nothing. -/
theorem RegisteredWithOwn.create (numbered : registry.Numbered) (good : RegisteredWithOwn own registry)
    (leftover : Option Nat) : RegisteredWithOwn own (registry.createLocalSocketState leftover) where
  sockets id sock found requested := by
    by_cases equal : id = registry.localSocketID
    · subst equal
      simp only [Registry.createLocalSocketState, Function.update_self, Option.some.injEq] at found
      subst found
      cases requested
    · simp only [Registry.createLocalSocketState, Function.update_of_ne equal] at found
      exact good.sockets id sock found requested
  members ptr app stored id := by
    rw [good.members ptr app stored id]
    apply and_congr_right
    intro named
    by_cases equal : id = registry.localSocketID
    · subst equal
      constructor
      · rintro ⟨sock, found, requested⟩
        exact absurd (numbered.numbered _ sock found) (lt_irrefl _)
      · rintro ⟨sock, found, requested⟩
        simp only [Registry.createLocalSocketState, Function.update_self, Option.some.injEq] at found
        subst found
        cases requested
    · simp only [Registry.createLocalSocketState, Function.update_of_ne equal]

/-- Connecting an executor keeps the registration exactly when the application is its own. -/
theorem RegisteredWithOwn.connect_iff (sound : registry.Sound) (good : RegisteredWithOwn own registry)
    {id ptr : Nat} {sock : LocalSocketState} {app : AppState} (stored : registry.apps[ptr]? = some app) :
    RegisteredWithOwn own (registry.connect id ptr sock app) ↔ app.appId = own id := by
  have within := (List.getElem?_eq_some_iff.mp stored).1
  constructor
  · intro connected
    obtain ⟨found, changed, pointer, there, named⟩ := connected.sockets id
      { sock with app := some ptr, requested := true } (by simp [Registry.connect]) rfl
    obtain rfl := Option.some.inj pointer
    simp only [Registry.connect, List.getElem?_set_self within, Option.some.injEq] at there
    rw [← named, ← there]
  · intro named
    constructor
    · intro other found present requested
      by_cases equal : other = id
      · subst equal
        simp only [Registry.connect, Function.update_self, Option.some.injEq] at present
        subst present
        exact ⟨ptr, { app with udsHash := insert other app.udsHash }, rfl,
          by simp [Registry.connect, within], named⟩
      · simp only [Registry.connect, Function.update_of_ne equal] at present
        obtain ⟨place, state, pointer, there, its⟩ := good.sockets other found present requested
        by_cases same : ptr = place
        · subst same
          rw [stored] at there
          obtain rfl := Option.some.inj there
          exact ⟨ptr, { app with udsHash := insert id app.udsHash }, pointer,
            by simp [Registry.connect, within], its⟩
        · exact ⟨place, state, pointer, by simpa [Registry.connect, List.getElem?_set_ne same] using there, its⟩
    · intro place state there other
      simp only [Registry.connect] at there ⊢
      by_cases same : ptr = place
      · subst same
        rw [List.getElem?_set_self within, Option.some.injEq] at there
        subst there
        by_cases equal : other = id
        · subst equal
          simp [named]
        · simp only [Finset.mem_insert, equal, false_or, Function.update_of_ne equal]
          exact good.members ptr app stored other
      · rw [List.getElem?_set_ne same] at there
        rw [good.members place state there other]
        apply and_congr_right
        intro its
        by_cases equal : other = id
        · subst equal
          have here := sound.named ptr app stored
          have elsewhere := sound.named place state there
          rw [named, its, elsewhere] at here
          exact absurd (Option.some.inj here).symm same
        · rw [Function.update_of_ne equal]

/-- A new application has no executor, and no executor has asked for it. -/
theorem RegisteredWithOwn.addAppState (sound : registry.Sound) (good : RegisteredWithOwn own registry)
    {appId : AppID} (fresh : registry.hashApp appId = none) :
    RegisteredWithOwn own (registry.addAppState appId) where
  sockets id sock found requested := by
    obtain ⟨ptr, app, pointer, stored, named⟩ := good.sockets id sock found requested
    have within := (List.getElem?_eq_some_iff.mp stored).1
    exact ⟨ptr, app, pointer, (List.getElem?_append_left within).trans stored, named⟩
  members ptr app stored id := by
    simp only [Registry.addAppState, Registry.createAppState] at stored ⊢
    rcases lt_trichotomy ptr registry.apps.length with before | rfl | after
    · rw [List.getElem?_append_left before] at stored
      exact good.members ptr app stored id
    · rw [List.getElem?_concat_length] at stored
      obtain rfl := Option.some.inj stored
      simp only [Finset.notMem_empty, false_iff, not_and]
      rintro named ⟨sock, found, requested⟩
      obtain ⟨place, state, pointer, there, its⟩ := good.sockets id sock found requested
      have known := sound.named place state there
      rw [its, named, fresh] at known
      cases known
    · rw [List.getElem?_eq_none (by simp; omega)] at stored
      cases stored

/-- A request of an open connection keeps the numbering. -/
theorem Registry.Numbered.connect (numbered : registry.Numbered) {id ptr : Nat} {sock : LocalSocketState}
    {app : AppState} (found : registry.lsockList id = some sock) (stored : registry.apps[ptr]? = some app) :
    (registry.connect id ptr sock app).Numbered where
  sound := numbered.sound.connect stored
  numbered other state present := by
    by_cases equal : other = id
    · subst equal
      exact numbered.numbered other sock found
    · simp only [Registry.connect, Function.update_of_ne equal] at present
      exact numbered.numbered other state present

theorem Registry.Numbered.addAppState (numbered : registry.Numbered) {appId : AppID}
    (fresh : registry.hashApp appId = none) : (registry.addAppState appId).Numbered :=
  ⟨numbered.sound.add fresh, numbered.numbered⟩

/-- A request keeps the registration exactly when it finds the latest application. -/
theorem intReq_registered_iff (numbered : registry.Numbered) (good : RegisteredWithOwn own registry)
    {id : Nat} {statsOpens : Bool} (handled : registry.intReq id (own id) statsOpens = .ok next) :
    next.Numbered ∧
      (RegisteredWithOwn own next ↔ FindsLatest own registry (.intReq id statsOpens)) := by
  by_cases opened : registry.Open id
  · obtain ⟨sock, found, live⟩ := opened
    rcases Registry.intReq_ok handled found live with ⟨fresh, rfl⟩ | ⟨ptr, app, known, pointer, stored, rfl⟩
    · have added := numbered.addAppState fresh
      have stored : (registry.addAppState (own id)).apps[registry.apps.length]? =
          some ⟨own id, true, ∅, ∅⟩ := List.getElem?_concat_length
      have connected : RegisteredWithOwn own
          ((registry.addAppState (own id)).connect id registry.apps.length sock ⟨own id, true, ∅, ∅⟩) :=
        (RegisteredWithOwn.connect_iff added.sound
        (good.addAppState numbered.sound fresh) stored).mpr rfl
      exact ⟨added.connect found stored, iff_of_true connected fun _ => .inl fresh⟩
    · refine ⟨numbered.connect found stored, ?_⟩
      rw [RegisteredWithOwn.connect_iff numbered.sound good stored]
      constructor
      · intro named _
        rw [pointer, ← named]
        exact .inr (numbered.sound.named ptr app stored)
      · intro latest
        rcases latest ⟨sock, found, live⟩ with unknown | same
        · exact absurd unknown known
        · obtain ⟨state, there, named⟩ := numbered.sound.stored (own id) ptr (same.trans pointer)
          rw [stored] at there
          obtain rfl := Option.some.inj there
          exact named
  · rw [Registry.intReq_closed opened] at handled
    obtain rfl := Except.ok.inj handled
    exact ⟨numbered, iff_of_true good fun isOpen => absurd isOpen opened⟩

end Steps

/-- A run registers every executor with its own application exactly when no request finds an older
application than the one created last. -/
theorem registration_own_iff (own : Nat → AppID) (events : List RegistrationEvent) :
    Throughout (register own) (RegisteredWithOwn own) Registry.initial events ↔
      StepsMeet (register own) (FindsLatest own) Registry.initial events := by
  apply throughout_iff Registry.Numbered
  · intro registry event next numbered good taken
    cases event with
    | connect leftover =>
        obtain rfl := Except.ok.inj taken
        exact ⟨numbered.create leftover, iff_of_true (good.create numbered leftover) trivial⟩
    | intReq id statsOpens => exact intReq_registered_iff numbered good taken
  · intro registry event fault numbered good failed
    cases event with
    | connect leftover => cases failed
    | intReq id statsOpens => exact fun _ => .inl (numbered.sound.intReq_error failed)
  · exact ⟨Registry.sound_initial, fun id sock found => by cases found⟩
  · constructor
    · intro id sock found
      cases found
    · intro ptr app stored
      simp [Registry.initial] at stored

/-- An executor of application zero registers after the first one of application one. The thread
connects it to application one. -/
theorem registration_wrongApp :
    ¬ ∀ (own : Nat → AppID) (events : List RegistrationEvent),
      Throughout (register own) (RegisteredWithOwn own) Registry.initial events := by
  intro always
  have registered := always (fun id => ⟨0, if id = 1 then 1 else 0⟩)
    [.connect none, .connect none, .connect none, .intReq 0 true, .intReq 1 true, .intReq 2 true]
  obtain ⟨final, completed, wrong⟩ := exists_of_check
    (execute (register fun id => ⟨0, if id = 1 then 1 else 0⟩) Registry.initial
      [.connect none, .connect none, .connect none, .intReq 0 true, .intReq 1 true, .intReq 2 true])
    (fun registry => registry.apps[1]?.any fun app => 2 ∈ app.udsHash ∧ app.appId = ⟨0, 1⟩)
    (by decide)
  obtain ⟨app, stored, wrong⟩ := (Option.any_eq_true _ _).mp wrong
  obtain ⟨member, named⟩ := of_decide_eq_true wrong
  have own := (((registered.final completed).members 1 app stored 2).mp member).1
  rw [named] at own
  exact absurd own (by decide)

end RepublicAgent
