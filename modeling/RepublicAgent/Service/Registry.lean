/-
This file models how the service thread registers executors with their applications. A pointer to an
application is its place in the list of all applications ever created, since none of them is freed.
-/

import RepublicAgent.Message.Types

namespace RepublicAgent

/-- The state of an application has the ids of its executors and the broadcasts that they wrote. -/
structure AppState where
  appId : AppID
  statsOpen : Bool
  udsHash : Finset Nat
  bcdSenderHash : Finset BcdID
deriving DecidableEq

/-- The connection of an executor. The application pointer has no value before `MSG_INT_REQ`. -/
structure LocalSocketState where
  app : Option Nat
  requested : Bool
  isTrashed : Bool
deriving DecidableEq, Repr

/-- The variable `appP2` of the thread outlives one message. It starts without a value. A directory is
named by the identifier of its application. -/
structure Registry where
  apps : List AppState
  hashApp : AppID → Option Nat
  appP2 : Option Nat
  localSocketID : Nat
  lsockList : Nat → Option LocalSocketState
  directories : AppID → Bool

def Registry.initial : Registry where
  apps := []
  hashApp _ := none
  appP2 := none
  localSocketID := 0
  lsockList _ := none
  directories _ := false

/-- The memory of a new connection is not cleared, so its application pointer is arbitrary. -/
def Registry.createLocalSocketState (registry : Registry) (leftover : Option Nat) : Registry :=
  { registry with
    localSocketID := registry.localSocketID + 1
    lsockList := Function.update registry.lsockList registry.localSocketID (some ⟨leftover, false, false⟩) }

/-- A new application gets its directory and its stats file. The call of `mkdir` is taken to succeed, since
`createDir` only logs its failure. -/
def Registry.createAppState (registry : Registry) (appId : AppID) : Registry :=
  { registry with
    apps := registry.apps ++ [⟨appId, true, ∅, ∅⟩]
    appP2 := some registry.apps.length
    directories := Function.update registry.directories appId true }

/-- The connection points to the application, and the application has its id. -/
def Registry.connect (registry : Registry) (id ptr : Nat) (sock : LocalSocketState) (app : AppState) :
    Registry :=
  { registry with
    apps := registry.apps.set ptr { app with udsHash := insert id app.udsHash }
    lsockList := Function.update registry.lsockList id (some { sock with app := some ptr, requested := true }) }

/-- A connection is handled while it is open. -/
def Registry.Open (registry : Registry) (id : Nat) : Prop :=
  ∃ sock, registry.lsockList id = some sock ∧ sock.isTrashed = false

/-- The handler of `MSG_INT_REQ` looks the application up but connects to `appP2`. A stats file that does
not open ends the agent. -/
def Registry.intReq (registry : Registry) (id : Nat) (appId : AppID) (statsOpens : Bool) :
    Except Fault Registry :=
  match registry.lsockList id with
  | none => .ok registry
  | some sock =>
      if sock.isTrashed then .ok registry
      else if registry.hashApp appId = none ∧ statsOpens = false then .error .abort
      else
        let found := registry.hashApp appId
        let ready := if found = none then registry.createAppState appId else registry
        match ready.appP2 with
        | none => .error .badPointer
        | some ptr =>
            match ready.apps[ptr]? with
            | none => .error .badPointer
            | some app =>
                let connected := ready.connect id ptr sock app
                .ok (if found = none then
                  { connected with hashApp := Function.update connected.hashApp appId (some ptr) }
                else connected)

/-- A connection that ends is trashed and deleted later. -/
def Registry.trashFdState (registry : Registry) (id : Nat) : Registry :=
  match registry.lsockList id with
  | none => registry
  | some sock =>
      { registry with lsockList := Function.update registry.lsockList id (some { sock with isTrashed := true }) }

/-- The application loses its stats file and its directory. It keeps its place in `hashApp`. -/
def Registry.deleteAppState (registry : Registry) (ptr : Nat) (app : AppState) : Registry :=
  { registry with
    apps := registry.apps.set ptr { app with statsOpen := false, udsHash := ∅, bcdSenderHash := ∅ }
    directories := Function.update registry.directories app.appId false }

/-- The last executor takes the application with it. -/
def Registry.deleteUDSState (registry : Registry) (id : Nat) : Except Fault Registry :=
  match registry.lsockList id with
  | none => .ok registry
  | some sock =>
      if sock.isTrashed = false then .ok registry
      else
        match sock.app with
        | none => .error .badPointer
        | some ptr =>
            match registry.apps[ptr]? with
            | none => .error .badPointer
            | some app =>
                let left := { app with udsHash := app.udsHash.erase id }
                let removed := { registry with
                  apps := registry.apps.set ptr left
                  lsockList := Function.update registry.lsockList id none }
                .ok (if left.udsHash = ∅ then removed.deleteAppState ptr left else removed)

/-- The registry behind the creation of an application and its entry in `hashApp`. -/
def Registry.addAppState (registry : Registry) (appId : AppID) : Registry :=
  { registry.createAppState appId with
    hashApp := Function.update registry.hashApp appId (some registry.apps.length) }

/-- An open connection that asks to register is connected to the application of `appP2`. That one is the
new application when the lookup found none. -/
theorem Registry.intReq_ok {registry next : Registry} {id : Nat} {appId : AppID} {statsOpens : Bool}
    (handled : registry.intReq id appId statsOpens = .ok next) {sock : LocalSocketState}
    (found : registry.lsockList id = some sock) (live : sock.isTrashed = false) :
    (registry.hashApp appId = none ∧
        next = (registry.addAppState appId).connect id registry.apps.length sock ⟨appId, true, ∅, ∅⟩) ∨
      ∃ ptr app, registry.hashApp appId ≠ none ∧ registry.appP2 = some ptr ∧
        registry.apps[ptr]? = some app ∧ next = registry.connect id ptr sock app := by
  unfold intReq at handled
  simp only [found, live, Bool.false_eq_true, if_false] at handled
  by_cases fresh : registry.hashApp appId = none
  · left
    simp only [fresh, true_and, if_true] at handled
    split_ifs at handled with closed
    simp only [createAppState, List.getElem?_concat_length, Except.ok.injEq] at handled
    exact ⟨fresh, handled.symm⟩
  · right
    simp only [fresh, false_and, if_false] at handled
    split at handled
    · cases handled
    · next ptr pointer =>
        split at handled
        · cases handled
        · next app stored =>
            exact ⟨ptr, app, fresh, pointer, stored, (Except.ok.inj handled).symm⟩

/-- A connection that is not open is not handled. -/
theorem Registry.intReq_closed {registry : Registry} {id : Nat} {appId : AppID} {statsOpens : Bool}
    (closed : ¬ registry.Open id) : registry.intReq id appId statsOpens = .ok registry := by
  unfold intReq
  split
  · rfl
  · next sock found =>
      have trashed : sock.isTrashed = true := by
        by_contra live
        exact closed ⟨sock, found, by simpa using live⟩
      rw [if_pos trashed]

/-- A request of an open connection faults when the new stats file does not open or when `appP2` does
not point to an application. -/
theorem Registry.intReq_error {registry : Registry} {id : Nat} {appId : AppID} {statsOpens : Bool}
    {fault : Fault} (failed : registry.intReq id appId statsOpens = .error fault) :
    registry.hashApp appId = none ∨ ∀ ptr, registry.appP2 = some ptr → registry.apps[ptr]? = none := by
  by_cases fresh : registry.hashApp appId = none
  · exact .inl fresh
  · right
    intro ptr pointer
    unfold intReq at failed
    split at failed
    · cases failed
    · split_ifs at failed with trashed impossible
      · exact absurd impossible.1 fresh
      · simp only [fresh, if_false, pointer] at failed
        split at failed
        · assumption
        · cases failed

/-- The table of applications and the list of their states agree. The variable `appP2` points to a state
as soon as there is one. -/
structure Registry.Sound (registry : Registry) : Prop where
  named : ∀ ptr app, registry.apps[ptr]? = some app → registry.hashApp app.appId = some ptr
  stored : ∀ appId ptr, registry.hashApp appId = some ptr →
    ∃ app, registry.apps[ptr]? = some app ∧ app.appId = appId
  latest : registry.apps ≠ [] → ∃ ptr, registry.appP2 = some ptr ∧ ptr < registry.apps.length

theorem Registry.sound_initial : Registry.initial.Sound where
  named ptr app stored := by simp [initial] at stored
  stored appId ptr hashed := by simp [initial] at hashed
  latest some := absurd rfl some

/-- A state can change in everything but its identifier. -/
theorem Registry.Sound.replace {registry next : Registry} (sound : registry.Sound) {ptr : Nat}
    {app : AppState} (changed : AppState) (here : registry.apps[ptr]? = some app) (same : changed.appId = app.appId)
    (apps : next.apps = registry.apps.set ptr changed) (hashApp : next.hashApp = registry.hashApp)
    (appP2 : next.appP2 = registry.appP2) : next.Sound where
  named other found stored := by
    rw [apps, List.getElem?_set] at stored
    rw [hashApp]
    split_ifs at stored with equal within
    · obtain rfl := Option.some.inj stored
      rw [same, ← equal]
      exact sound.named ptr app here
    · exact sound.named other found stored
  stored appId other hashed := by
    rw [hashApp] at hashed
    obtain ⟨found, stored, named⟩ := sound.stored appId other hashed
    rw [apps]
    by_cases equal : ptr = other
    · subst equal
      rw [here] at stored
      obtain rfl := Option.some.inj stored
      have within := (List.getElem?_eq_some_iff.mp here).1
      exact ⟨changed, by rw [List.getElem?_set_self within], same.trans named⟩
    · exact ⟨found, by rw [List.getElem?_set_ne equal]; exact stored, named⟩
  latest some := by
    rw [apps, List.length_set, appP2]
    rw [apps, Ne, List.set_eq_nil_iff] at some
    exact sound.latest some

/-- A new application takes a new place. -/
theorem Registry.Sound.append {registry next : Registry} (sound : registry.Sound) (created : AppState)
    (fresh : registry.hashApp created.appId = none) (apps : next.apps = registry.apps ++ [created])
    (hashApp : next.hashApp = Function.update registry.hashApp created.appId (some registry.apps.length))
    (appP2 : next.appP2 = some registry.apps.length) : next.Sound where
  named ptr app stored := by
    rw [apps] at stored
    rw [hashApp]
    rcases lt_trichotomy ptr registry.apps.length with before | rfl | after
    · rw [List.getElem?_append_left before] at stored
      have known := sound.named ptr app stored
      have different : app.appId ≠ created.appId := by
        intro equal
        rw [equal, fresh] at known
        cases known
      rw [Function.update_of_ne different, known]
    · rw [List.getElem?_concat_length] at stored
      obtain rfl := Option.some.inj stored
      rw [Function.update_self]
    · rw [List.getElem?_eq_none (by simp; omega)] at stored
      cases stored
  stored appId ptr hashed := by
    rw [apps]
    rw [hashApp] at hashed
    by_cases equal : appId = created.appId
    · subst equal
      rw [Function.update_self] at hashed
      obtain rfl := Option.some.inj hashed
      exact ⟨created, List.getElem?_concat_length, rfl⟩
    · rw [Function.update_of_ne equal] at hashed
      obtain ⟨app, stored, named⟩ := sound.stored appId ptr hashed
      have within := (List.getElem?_eq_some_iff.mp stored).1
      exact ⟨app, by rw [List.getElem?_append_left within]; exact stored, named⟩
  latest _ := ⟨registry.apps.length, appP2, by rw [apps]; simp⟩

theorem Registry.Sound.add {registry : Registry} (sound : registry.Sound) {appId : AppID}
    (fresh : registry.hashApp appId = none) : (registry.addAppState appId).Sound :=
  sound.append ⟨appId, true, ∅, ∅⟩ fresh rfl rfl rfl

/-- A connected executor leaves the table as it is. -/
theorem Registry.Sound.connect {registry : Registry} (sound : registry.Sound) {id ptr : Nat}
    {sock : LocalSocketState} {app : AppState} (stored : registry.apps[ptr]? = some app) :
    (registry.connect id ptr sock app).Sound :=
  sound.replace { app with udsHash := insert id app.udsHash } stored rfl rfl rfl rfl

/-- The places of the known applications are below the number of applications. -/
theorem Registry.Sound.lt {registry : Registry} (sound : registry.Sound) {appId : AppID} {ptr : Nat}
    (hashed : registry.hashApp appId = some ptr) : ptr < registry.apps.length := by
  obtain ⟨app, stored, _⟩ := sound.stored appId ptr hashed
  exact (List.getElem?_eq_some_iff.mp stored).1

/-- The handler of `MSG_INT_REQ` follows no bad pointer. -/
theorem Registry.Sound.intReq_error {registry : Registry} (sound : registry.Sound) {id : Nat}
    {appId : AppID} {statsOpens : Bool} {fault : Fault}
    (failed : registry.intReq id appId statsOpens = .error fault) : registry.hashApp appId = none := by
  rcases Registry.intReq_error failed with unknown | dangling
  · exact unknown
  · cases hashed : registry.hashApp appId with
    | none => rfl
    | some found =>
        have within := sound.lt hashed
        obtain ⟨ptr, pointer, inside⟩ := sound.latest (List.ne_nil_of_length_pos (by omega))
        have absent := dangling ptr pointer
        rw [List.getElem?_eq_none_iff] at absent
        omega

end RepublicAgent
