/-
This file follows the state of one application while its executors come and go.
-/

import RepublicAgent.Library.Execution
import RepublicAgent.Service.Registry

namespace RepublicAgent
open Execution

/-- The executors of one application connect, register and disconnect. The deletion of a disconnected
one comes after a timeout. -/
inductive LifeCycleEvent where
  | connect (leftover : Option Nat)
  | intReq (id : Nat) (statsOpens : Bool)
  | disconnect (id : Nat)
  | delete (id : Nat)
deriving DecidableEq, Repr

def lifeCycle (appId : AppID) (registry : Registry) : LifeCycleEvent → Except Fault Registry
  | .connect leftover => .ok (registry.createLocalSocketState leftover)
  | .intReq id statsOpens => registry.intReq id appId statsOpens
  | .disconnect id => .ok (registry.trashFdState id)
  | .delete id => registry.deleteUDSState id

/-- The state found in `hashApp` has its directory and an open stats file. -/
def Registry.Usable (registry : Registry) (appId : AppID) : Prop :=
  ∃ ptr app, registry.hashApp appId = some ptr ∧ registry.apps[ptr]? = some app ∧
    registry.directories app.appId = true ∧ app.statsOpen = true

/-- The application is usable whenever a request has been handled. -/
def UsableAfter (appId : AppID) (registry : Registry) : LifeCycleEvent → Prop
  | .intReq id statsOpens => registry.Open id →
      ∀ next, registry.intReq id appId statsOpens = .ok next → next.Usable appId
  | _ => True

/-- A request finds no application, or one that still has an executor. -/
def JoinsLive (appId : AppID) (registry : Registry) : LifeCycleEvent → Prop
  | .intReq id _ => registry.Open id → ∀ (ptr : Nat) (app : AppState),
      registry.hashApp appId = some ptr → registry.apps[ptr]? = some app → app.udsHash ≠ ∅
  | _ => True

/-- A state is intact when it has an executor exactly as long as it has its files. -/
structure Registry.Intact (registry : Registry) (appId : AppID) : Prop where
  sound : registry.Sound
  only : ∀ (ptr : Nat) (app : AppState), registry.apps[ptr]? = some app → app.appId = appId
  pointer : registry.appP2 = registry.hashApp appId
  alive : ∀ (ptr : Nat) (app : AppState), registry.apps[ptr]? = some app →
    (app.udsHash ≠ ∅ ↔ registry.directories appId = true ∧ app.statsOpen = true)

section Steps

variable {appId : AppID} {registry next : Registry}

/-- The application of a one-application registry has one state. -/
theorem Registry.Intact.place (intact : registry.Intact appId) {ptr : Nat} {app : AppState}
    (stored : registry.apps[ptr]? = some app) : registry.hashApp appId = some ptr := by
  have named := intact.sound.named ptr app stored
  rwa [intact.only ptr app stored] at named

/-- A changed state stays intact when its executors and its files agree. -/
theorem Registry.Intact.replace (intact : registry.Intact appId) {ptr : Nat} {app : AppState} (changed : AppState)
    (stored : registry.apps[ptr]? = some app) (same : changed.appId = app.appId)
    (apps : next.apps = registry.apps.set ptr changed) (hashApp : next.hashApp = registry.hashApp)
    (appP2 : next.appP2 = registry.appP2)
    (agree : changed.udsHash ≠ ∅ ↔ next.directories appId = true ∧ changed.statsOpen = true) :
    next.Intact appId := by
  have within := (List.getElem?_eq_some_iff.mp stored).1
  have sole : ∀ (other : Nat) (found : AppState), next.apps[other]? = some found → found = changed := by
    intro other found there
    rw [apps, List.getElem?_set] at there
    split_ifs at there with equal
    · exact (Option.some.inj there).symm
    · have elsewhere := intact.place there
      rw [intact.place stored] at elsewhere
      exact absurd (Option.some.inj elsewhere) equal
  constructor
  · exact intact.sound.replace changed stored same apps hashApp appP2
  · intro other found there
    rw [sole other found there, same]
    exact intact.only ptr app stored
  · rw [appP2, hashApp, intact.pointer]
  · intro other found there
    rw [sole other found there]
    exact agree

/-- The first request creates a usable application. -/
theorem Registry.Intact.add (intact : registry.Intact appId) (id : Nat) (sock : LocalSocketState)
    (fresh : registry.hashApp appId = none) :
    ((registry.addAppState appId).connect id registry.apps.length sock ⟨appId, true, ∅, ∅⟩).Intact appId := by
  have none : registry.apps = [] := by
    cases apps : registry.apps with
    | nil => rfl
    | cons app others =>
        have known := intact.place (show registry.apps[0]? = some app by rw [apps]; rfl)
        rw [fresh] at known
        cases known
  have added := intact.sound.add fresh
  have created : (registry.addAppState appId).apps[registry.apps.length]? = some ⟨appId, true, ∅, ∅⟩ :=
    List.getElem?_concat_length
  have single : ∀ (ptr : Nat) (app : AppState),
      ((registry.addAppState appId).connect id registry.apps.length sock ⟨appId, true, ∅, ∅⟩).apps[ptr]? =
        some app → app = ⟨appId, true, {id}, ∅⟩ := by
    intro ptr app stored
    simp only [Registry.connect, Registry.addAppState, Registry.createAppState, none] at stored
    cases ptr with
    | zero => simpa using stored.symm
    | succ ptr => simp at stored
  constructor
  · exact added.connect created
  · intro ptr app stored
    rw [single ptr app stored]
  · simp [Registry.connect, Registry.addAppState, Registry.createAppState]
  · intro ptr app stored
    rw [single ptr app stored]
    simp [Registry.connect, Registry.addAppState, Registry.createAppState]

/-- A handled request leaves a usable application exactly when it joins a live one. -/
theorem intReq_usable_iff (intact : registry.Intact appId) {id : Nat} {statsOpens : Bool} :
    UsableAfter appId registry (.intReq id statsOpens) ↔ JoinsLive appId registry (.intReq id statsOpens) := by
  apply forall_congr'
  rintro ⟨sock, found, live⟩
  cases outcome : registry.intReq id appId statsOpens with
  | error fault =>
      have unknown := intact.sound.intReq_error outcome
      simp [unknown]
  | ok next =>
      simp only [Except.ok.injEq, forall_eq']
      rcases Registry.intReq_ok outcome found live with ⟨fresh, rfl⟩ | ⟨ptr, app, known, pointer, stored, rfl⟩
      · have added := intact.add id sock fresh
        have usable : ((registry.addAppState appId).connect id registry.apps.length sock
            ⟨appId, true, ∅, ∅⟩).Usable appId :=
          ⟨registry.apps.length, ⟨appId, true, {id}, ∅⟩,
            by simp [Registry.connect, Registry.addAppState],
            by simp [Registry.connect, Registry.addAppState, Registry.createAppState],
            by simp [Registry.connect, Registry.addAppState, Registry.createAppState], rfl⟩
        simp [usable, fresh]
      · have within := (List.getElem?_eq_some_iff.mp stored).1
        have place := intact.place stored
        have named := intact.only ptr app stored
        have alive := intact.alive ptr app stored
        have joins : (∀ (other : Nat) (state : AppState), registry.hashApp appId = some other →
            registry.apps[other]? = some state → state.udsHash ≠ ∅) ↔ app.udsHash ≠ ∅ := by
          constructor
          · intro each
            exact each ptr app place stored
          · intro filled other state hashed there
            rw [place, Option.some.injEq] at hashed
            rw [← hashed, stored, Option.some.injEq] at there
            exact there ▸ filled
        rw [joins, alive]
        constructor
        · rintro ⟨other, state, hashed, there, directory, opened⟩
          obtain rfl : ptr = other := by simpa [Registry.connect, place] using hashed
          simp only [Registry.connect, List.getElem?_set_self within, Option.some.injEq] at there
          subst there
          exact ⟨by simpa [named, Registry.connect] using directory, opened⟩
        · rintro ⟨directory, opened⟩
          exact ⟨ptr, { app with udsHash := insert id app.udsHash }, place,
            by simp [Registry.connect, within], by simpa [Registry.connect, named] using directory, opened⟩

/-- A request that joins a live application leaves it intact. -/
theorem Registry.Intact.intReq (intact : registry.Intact appId) {id : Nat} {statsOpens : Bool}
    (joins : JoinsLive appId registry (.intReq id statsOpens))
    (handled : registry.intReq id appId statsOpens = .ok next) : next.Intact appId := by
  by_cases opened : registry.Open id
  · obtain ⟨sock, found, live⟩ := opened
    rcases Registry.intReq_ok handled found live with ⟨fresh, rfl⟩ | ⟨ptr, app, known, pointer, stored, rfl⟩
    · exact intact.add id sock fresh
    · have filled := joins ⟨sock, found, live⟩ ptr app (intact.place stored) stored
      have files := (intact.alive ptr app stored).mp filled
      exact intact.replace { app with udsHash := insert id app.udsHash } stored rfl rfl rfl rfl
        (iff_of_true (Finset.insert_ne_empty id app.udsHash) files)
  · rw [Registry.intReq_closed opened] at handled
    exact Except.ok.inj handled ▸ intact

/-- The deletion of an executor leaves the application to the others or closes it. -/
theorem Registry.Intact.delete (intact : registry.Intact appId) {id : Nat}
    (deleted : registry.deleteUDSState id = .ok next) : next.Intact appId := by
  unfold deleteUDSState at deleted
  split at deleted
  · exact Except.ok.inj deleted ▸ intact
  · next sock found =>
      split_ifs at deleted with live
      · exact Except.ok.inj deleted ▸ intact
      · split at deleted
        · cases deleted
        · next ptr pointer =>
            split at deleted
            · cases deleted
            · next app stored =>
                have files := intact.alive ptr app stored
                obtain result := Except.ok.inj deleted
                split_ifs at result with last
                · subst result
                  apply intact.replace { app with statsOpen := false, udsHash := ∅, bcdSenderHash := ∅ }
                    stored rfl
                  · simp [deleteAppState, List.set_set]
                  · rfl
                  · rfl
                  · simp
                · subst result
                  have filled : app.udsHash ≠ ∅ := by
                    intro empty
                    exact last (by rw [empty]; rfl)
                  exact intact.replace { app with udsHash := app.udsHash.erase id } stored rfl rfl rfl
                    rfl (iff_of_true last (files.mp filled))

end Steps

/-- A run leaves a usable application behind every request exactly when no request comes after the
deletion of the last executor. -/
theorem appState_usable_iff (appId : AppID) (events : List LifeCycleEvent) :
    StepsMeet (lifeCycle appId) (UsableAfter appId) Registry.initial events ↔
      StepsMeet (lifeCycle appId) (JoinsLive appId) Registry.initial events := by
  apply stepsMeet_congr (fun registry => registry.Intact appId)
  · intro registry event intact
    cases event with
    | intReq id statsOpens => exact intReq_usable_iff intact
    | connect leftover => exact Iff.rfl
    | disconnect id => exact Iff.rfl
    | delete id => exact Iff.rfl
  · intro registry event next intact joins taken
    cases event with
    | connect leftover =>
        obtain rfl := Except.ok.inj taken
        exact ⟨⟨intact.sound.named, intact.sound.stored, intact.sound.latest⟩, intact.only, intact.pointer,
          intact.alive⟩
    | intReq id statsOpens => exact intact.intReq joins taken
    | disconnect id =>
        obtain rfl := Except.ok.inj taken
        unfold Registry.trashFdState
        split
        · exact intact
        · exact ⟨⟨intact.sound.named, intact.sound.stored, intact.sound.latest⟩, intact.only, intact.pointer,
            intact.alive⟩
    | delete id => exact intact.delete taken
  · refine ⟨Registry.sound_initial, ?_, rfl, ?_⟩
    · intro ptr app stored
      simp [Registry.initial] at stored
    · intro ptr app stored
      simp [Registry.initial] at stored

/-- The only executor leaves, is deleted, and comes back to a state without directory and stats file. -/
theorem appState_unusable :
    ¬ ∀ (appId : AppID) (events : List LifeCycleEvent),
      StepsMeet (lifeCycle appId) (UsableAfter appId) Registry.initial events := by
  intro always
  have met := stepsMeet_iff.mp (always ⟨0, 0⟩
    [.connect none, .intReq 0 true, .disconnect 0, .delete 0, .connect none, .intReq 1 true])
    [.connect none, .intReq 0 true, .disconnect 0, .delete 0, .connect none] (.intReq 1 true) [] rfl
  obtain ⟨middle, reached, left⟩ := exists_of_check (execute (lifeCycle ⟨0, 0⟩) Registry.initial
    [.connect none, .intReq 0 true, .disconnect 0, .delete 0, .connect none])
    (fun registry => registry.lsockList 1 = some ⟨none, false, false⟩ ∧
      ((registry.intReq 1 ⟨0, 0⟩ true).toOption.any fun next =>
        next.hashApp ⟨0, 0⟩ = some 0 ∧ next.apps[0]?.all fun app => !app.statsOpen) = true) (by decide)
  obtain ⟨connected, answered⟩ := of_decide_eq_true left
  obtain ⟨next, handled, closed⟩ := (Option.any_eq_true _ _).mp answered
  obtain ⟨hashed, shut⟩ := of_decide_eq_true closed
  cases outcome : middle.intReq 1 ⟨0, 0⟩ true with
  | error fault => rw [outcome] at handled; cases handled
  | ok result =>
      rw [outcome] at handled
      obtain rfl := Option.some.inj handled
      obtain ⟨ptr, app, place, stored, _, opened⟩ := met middle reached ⟨_, connected, rfl⟩ result outcome
      rw [hashed] at place
      obtain rfl := Option.some.inj place
      simp [stored, opened] at shut

end RepublicAgent
