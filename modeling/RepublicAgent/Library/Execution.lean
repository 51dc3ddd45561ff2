/-
This file gives the runs of a fallible step function and the induction rules over them.
-/

import Mathlib.Tactic

namespace RepublicAgent.Execution

section Runs

variable {State Event Fault : Type}

/-- A run feeds the events to the step function one by one and stops at the first fault. -/
def execute (step : State → Event → Except Fault State) : State → List Event → Except Fault State
  | state, [] => .ok state
  | state, event :: events =>
      match step state event with
      | .error fault => .error fault
      | .ok next => execute step next events

/-- Every step that the run takes meets the condition in the state before it. -/
def StepsMeet (step : State → Event → Except Fault State) (condition : State → Event → Prop) :
    State → List Event → Prop
  | _, [] => True
  | state, event :: events =>
      condition state event ∧ ∀ next, step state event = .ok next → StepsMeet step condition next events

variable {step : State → Event → Except Fault State}

instance StepsMeet.decidable {condition : State → Event → Prop}
    [∀ state event, Decidable (condition state event)] :
    ∀ state events, Decidable (StepsMeet step condition state events)
  | _, [] => isTrue trivial
  | state, event :: events =>
      match taken : step state event with
      | .error _ => decidable_of_iff (condition state event) (by simp [StepsMeet, taken])
      | .ok next =>
          have : Decidable (StepsMeet step condition next events) := StepsMeet.decidable next events
          decidable_of_iff (condition state event ∧ StepsMeet step condition next events)
            (by simp [StepsMeet, taken])

@[simp] theorem execute_nil (state : State) : execute step state [] = .ok state := rfl

theorem execute_cons_ok {state final : State} {event : Event} {events : List Event} :
    execute step state (event :: events) = .ok final ↔
      ∃ next, step state event = .ok next ∧ execute step next events = .ok final := by
  rw [execute]
  cases step state event with
  | error fault => simp
  | ok next => simp

theorem execute_cons_error {state : State} {fault : Fault} {event : Event} {events : List Event} :
    execute step state (event :: events) = .error fault ↔
      step state event = .error fault ∨
        ∃ next, step state event = .ok next ∧ execute step next events = .error fault := by
  rw [execute]
  cases step state event with
  | error fault => simp
  | ok next => simp

/-- A completed run of a concatenation splits at the boundary. -/
theorem execute_append_ok {state final : State} {first second : List Event} :
    execute step state (first ++ second) = .ok final ↔
      ∃ middle, execute step state first = .ok middle ∧ execute step middle second = .ok final := by
  induction first generalizing state with
  | nil => simp
  | cons event events ih =>
      simp only [List.cons_append, execute_cons_ok, ih]
      constructor
      · rintro ⟨next, taken, middle, before, after⟩
        exact ⟨middle, ⟨next, taken, before⟩, after⟩
      · rintro ⟨middle, ⟨next, taken, before⟩, after⟩
        exact ⟨next, taken, middle, before, after⟩

theorem execute_singleton {state : State} {event : Event} :
    execute step state [event] = step state event := by
  rw [execute]
  cases step state event <;> rfl

/-- A computed check of the final state shows that the run completes. -/
theorem exists_of_check {State Fault : Type} (run : Except Fault State) (check : State → Bool)
    (checked : run.map check = .ok true) : ∃ final, run = .ok final ∧ check final = true := by
  cases run with
  | error fault => cases checked
  | ok final => exact ⟨final, rfl, Except.ok.inj checked⟩

/-- A property that every allowed step preserves holds at the end of an allowed run. -/
theorem execute_invariant {invariant : State → Prop} {allowed : Event → Prop}
    (preserved : ∀ state event next, invariant state → allowed event →
      step state event = .ok next → invariant next)
    {state final : State} {events : List Event} (initial : invariant state)
    (permitted : ∀ event ∈ events, allowed event)
    (completed : execute step state events = .ok final) : invariant final := by
  induction events generalizing state with
  | nil =>
      simp only [execute_nil, Except.ok.injEq] at completed
      exact completed ▸ initial
  | cons event events ih =>
      obtain ⟨next, taken, rest⟩ := execute_cons_ok.mp completed
      exact ih (preserved state event next initial (permitted event (by simp)) taken)
        (fun other member => permitted other (by simp [member])) rest

/-- A property that every step preserves under a condition holds at the end of a run
whose steps all meet the condition. -/
theorem execute_invariant_of_steps {invariant : State → Prop} {condition : State → Event → Prop}
    (preserved : ∀ state event next, invariant state → condition state event →
      step state event = .ok next → invariant next)
    {state final : State} {events : List Event} (initial : invariant state)
    (met : StepsMeet step condition state events)
    (completed : execute step state events = .ok final) : invariant final := by
  induction events generalizing state with
  | nil =>
      simp only [execute_nil, Except.ok.injEq] at completed
      exact completed ▸ initial
  | cons event events ih =>
      obtain ⟨next, taken, rest⟩ := execute_cons_ok.mp completed
      exact ih (preserved state event next initial met.1 taken) (met.2 next taken) rest

/-- A condition on all events makes a condition on all steps. -/
theorem stepsMeet_of_forall {condition : State → Event → Prop} {events : List Event}
    (each : ∀ event ∈ events, ∀ state, condition state event) (state : State) :
    StepsMeet step condition state events := by
  induction events generalizing state with
  | nil => trivial
  | cons event events ih =>
      exact ⟨each event (by simp) state,
        fun next _ => ih (fun other member => each other (by simp [member])) next⟩

/-- Steps that keep an invariant under one condition meet what the two imply. -/
theorem StepsMeet.of_invariant {stronger weaker : State → Event → Prop} (invariant : State → Prop)
    (kept : ∀ state event next, invariant state → stronger state event → step state event = .ok next →
      invariant next)
    (implied : ∀ state event, invariant state → stronger state event → weaker state event)
    {state : State} {events : List Event} (initial : invariant state)
    (met : StepsMeet step stronger state events) : StepsMeet step weaker state events := by
  induction events generalizing state with
  | nil => trivial
  | cons event events ih =>
      exact ⟨implied state event initial met.1,
        fun next taken => ih (kept state event next initial met.1 taken) (met.2 next taken)⟩

theorem StepsMeet.and {first second : State → Event → Prop} {state : State} {events : List Event}
    (left : StepsMeet step first state events) (right : StepsMeet step second state events) :
    StepsMeet step (fun state event => first state event ∧ second state event) state events := by
  induction events generalizing state with
  | nil => trivial
  | cons event events ih =>
      exact ⟨⟨left.1, right.1⟩, fun next taken => ih (left.2 next taken) (right.2 next taken)⟩

theorem stepsMeet_append {condition : State → Event → Prop} {state : State}
    {first second : List Event} :
    StepsMeet step condition state (first ++ second) ↔
      StepsMeet step condition state first ∧
        ∀ middle, execute step state first = .ok middle → StepsMeet step condition middle second := by
  induction first generalizing state with
  | nil => simp [StepsMeet]
  | cons event events ih =>
      simp only [List.cons_append, StepsMeet, execute_cons_ok, ih]
      constructor
      · rintro ⟨here, rest⟩
        refine ⟨⟨here, fun next taken => (rest next taken).1⟩, ?_⟩
        rintro middle ⟨next, taken, before⟩
        exact (rest next taken).2 middle before
      · rintro ⟨⟨here, rest⟩, after⟩
        refine ⟨here, fun next taken => ⟨rest next taken, ?_⟩⟩
        exact fun middle before => after middle ⟨next, taken, before⟩

/-- The condition holds at each step exactly when it holds after each completed prefix. -/
theorem stepsMeet_iff {condition : State → Event → Prop} {state : State} {events : List Event} :
    StepsMeet step condition state events ↔
      ∀ before event after, events = before ++ event :: after →
        ∀ middle, execute step state before = .ok middle → condition middle event := by
  constructor
  · intro met before event after split middle reached
    subst split
    exact ((stepsMeet_append.mp met).2 middle reached).1
  · intro each
    induction events generalizing state with
    | nil => trivial
    | cons event events ih =>
        refine ⟨each [] event events rfl state rfl, fun next taken => ih ?_⟩
        intro before other after split middle reached
        exact each (event :: before) other after (by simp [split]) middle
          (execute_cons_ok.mpr ⟨next, taken, reached⟩)

/-- Two conditions that agree under an invariant are met by the same allowed runs. -/
theorem stepsMeet_congr_of_steps (invariant : State → Prop) {allowed first second : State → Event → Prop}
    (agree : ∀ state event, invariant state → allowed state event → (first state event ↔ second state event))
    (kept : ∀ state event next, invariant state → allowed state event → second state event →
      step state event = .ok next → invariant next)
    {state : State} {events : List Event} (initial : invariant state)
    (permitted : StepsMeet step allowed state events) :
    StepsMeet step first state events ↔ StepsMeet step second state events := by
  induction events generalizing state with
  | nil => exact Iff.rfl
  | cons event events ih =>
      rw [StepsMeet, StepsMeet, agree state event initial permitted.1]
      apply and_congr_right
      intro met
      apply forall₂_congr
      intro next taken
      exact ih (kept state event next initial permitted.1 met taken) (permitted.2 next taken)

/-- Two conditions that agree under an invariant are met by the same runs. -/
theorem stepsMeet_congr (invariant : State → Prop) {first second : State → Event → Prop}
    (agree : ∀ state event, invariant state → (first state event ↔ second state event))
    (kept : ∀ state event next, invariant state → second state event → step state event = .ok next →
      invariant next)
    {state : State} {events : List Event} (initial : invariant state) :
    StepsMeet step first state events ↔ StepsMeet step second state events :=
  stepsMeet_congr_of_steps invariant (fun state event holds _ => agree state event holds)
    (fun state event next holds _ => kept state event next holds) initial
    (stepsMeet_of_forall (fun _ _ _ => trivial) state)

/-- A run completes with a property exactly when all its steps meet the condition under which a step
completes. -/
theorem execute_completes_iff (invariant : State → Prop) {property : State → Prop}
    {condition : State → Event → Prop}
    (taken : ∀ state event, invariant state → condition state event →
      ∃ next, step state event = .ok next ∧ invariant next)
    (faulted : ∀ state event, invariant state → ¬ condition state event →
      ∃ fault, step state event = .error fault)
    (implied : ∀ state, invariant state → property state)
    {state : State} {events : List Event} (initial : invariant state) :
    (∃ final, execute step state events = .ok final ∧ property final) ↔
      StepsMeet step condition state events := by
  induction events generalizing state with
  | nil => exact ⟨fun _ => trivial, fun _ => ⟨state, rfl, implied state initial⟩⟩
  | cons event events ih =>
      by_cases met : condition state event
      · obtain ⟨next, moved, after⟩ := taken state event initial met
        have rest := ih after
        simp only [StepsMeet, execute, moved, met, true_and, Except.ok.injEq, forall_eq']
        exact rest
      · obtain ⟨fault, failed⟩ := faulted state event initial met
        simp [StepsMeet, execute, failed, met]

/-- A run whose steps all meet a condition completes when each such step is taken from the invariant and
keeps it. -/
theorem execute_completes_of_steps (invariant : State → Prop) {condition : State → Event → Prop}
    (taken : ∀ state event, invariant state → condition state event →
      ∃ next, step state event = .ok next ∧ invariant next)
    {state : State} (initial : invariant state) {events : List Event}
    (met : StepsMeet step condition state events) :
    ∃ final, execute step state events = .ok final ∧ invariant final := by
  induction events generalizing state with
  | nil => exact ⟨state, rfl, initial⟩
  | cons event events ih =>
      obtain ⟨next, moved, after⟩ := taken state event initial met.1
      obtain ⟨final, rest, holds⟩ := ih after (met.2 next moved)
      exact ⟨final, execute_cons_ok.mpr ⟨next, moved, rest⟩, holds⟩

/-- A run completes when every step from the invariant is taken and keeps it. -/
theorem execute_completes (invariant : State → Prop)
    (taken : ∀ state event, invariant state → ∃ next, step state event = .ok next ∧ invariant next)
    {state : State} (initial : invariant state) (events : List Event) :
    ∃ final, execute step state events = .ok final ∧ invariant final :=
  execute_completes_of_steps invariant (fun state event before _ => taken state event before) initial
    (stepsMeet_of_forall (fun _ _ _ => trivial) state)

/-- A run to the goal exists when a variant can be made smaller from every other state of the invariant. -/
theorem exists_execute_of_variant {invariant goal : State → Prop} (variant : State → Nat)
    (progress : ∀ state, invariant state → ¬ goal state →
      ∃ events next, execute step state events = .ok next ∧ invariant next ∧ variant next < variant state)
    {state : State} (initial : invariant state) :
    ∃ events final, execute step state events = .ok final ∧ invariant final ∧ goal final := by
  generalize bound : variant state = size
  induction size using Nat.strongRecOn generalizing state with
  | ind size ih =>
      by_cases reached : goal state
      · exact ⟨[], state, rfl, initial, reached⟩
      · obtain ⟨events, next, moved, after, smaller⟩ := progress state initial reached
        obtain ⟨later, final, rest, holds, arrived⟩ := ih (variant next) (bound ▸ smaller) after rfl
        exact ⟨events ++ later, final, execute_append_ok.mpr ⟨next, moved, rest⟩, holds, arrived⟩

/-- A run to the goal whose steps all meet a condition exists when one such step makes a variant smaller from every
other state of the invariant. -/
theorem exists_execute_meeting {invariant goal : State → Prop} {condition : State → Event → Prop}
    (variant : State → Nat)
    (progress : ∀ state, invariant state → ¬ goal state → ∃ event next, condition state event ∧
      step state event = .ok next ∧ invariant next ∧ variant next < variant state)
    {state : State} (initial : invariant state) :
    ∃ events final, execute step state events = .ok final ∧ StepsMeet step condition state events ∧
      invariant final ∧ goal final := by
  generalize bound : variant state = size
  induction size using Nat.strongRecOn generalizing state with
  | ind size ih =>
      by_cases reached : goal state
      · exact ⟨[], state, rfl, trivial, initial, reached⟩
      · obtain ⟨event, next, met, taken, after, smaller⟩ := progress state initial reached
        obtain ⟨later, final, rest, meets, holds, arrived⟩ := ih (variant next) (bound ▸ smaller) after rfl
        refine ⟨event :: later, final, execute_cons_ok.mpr ⟨next, taken, rest⟩, ⟨met, ?_⟩, holds, arrived⟩
        intro other moved
        obtain rfl := Except.ok.inj (taken.symm.trans moved)
        exact meets

/-- The property holds in every state that the run reaches, the first one included. -/
def Throughout (step : State → Event → Except Fault State) (property : State → Prop) :
    State → List Event → Prop
  | state, [] => property state
  | state, event :: events =>
      property state ∧ ∀ next, step state event = .ok next → Throughout step property next events

theorem Throughout.start {property : State → Prop} {state : State} {events : List Event}
    (always : Throughout step property state events) : property state := by
  cases events with
  | nil => exact always
  | cons event events => exact always.1

/-- A completed run ends in a state with the property. -/
theorem Throughout.final {property : State → Prop} {state final : State} {events : List Event}
    (always : Throughout step property state events) (completed : execute step state events = .ok final) :
    property final := by
  induction events generalizing state with
  | nil =>
      simp only [execute_nil, Except.ok.injEq] at completed
      exact completed ▸ always
  | cons event events ih =>
      obtain ⟨next, taken, rest⟩ := execute_cons_ok.mp completed
      exact ih (always.2 next taken) rest

/-- A property that an allowed step keeps exactly under a condition holds throughout exactly the allowed runs
whose steps all meet the condition. -/
theorem throughout_iff_of_steps (invariant : State → Prop) {property : State → Prop}
    {allowed condition : State → Event → Prop}
    (kept : ∀ state event next, invariant state → property state → allowed state event →
      step state event = .ok next → invariant next ∧ (property next ↔ condition state event))
    (faulted : ∀ state event fault, invariant state → property state → allowed state event →
      step state event = .error fault → condition state event)
    {state : State} {events : List Event} (initial : invariant state) (good : property state)
    (permitted : StepsMeet step allowed state events) :
    Throughout step property state events ↔ StepsMeet step condition state events := by
  induction events generalizing state with
  | nil => exact ⟨fun _ => trivial, fun _ => good⟩
  | cons event events ih =>
      cases outcome : step state event with
      | error fault =>
          have met := faulted state event fault initial good permitted.1 outcome
          simp [Throughout, StepsMeet, outcome, good, met]
      | ok next =>
          obtain ⟨after, exact⟩ := kept state event next initial good permitted.1 outcome
          have later := permitted.2 next outcome
          simp only [Throughout, StepsMeet, outcome, Except.ok.injEq, forall_eq']
          constructor
          · rintro ⟨_, rest⟩
            have better := rest.start
            exact ⟨exact.mp better, (ih after better later).mp rest⟩
          · rintro ⟨met, rest⟩
            have better := exact.mpr met
            exact ⟨good, (ih after better later).mpr rest⟩

/-- A property that a step keeps exactly under a condition holds throughout exactly the runs whose
steps all meet the condition. -/
theorem throughout_iff (invariant : State → Prop) {property : State → Prop} {condition : State → Event → Prop}
    (kept : ∀ state event next, invariant state → property state → step state event = .ok next →
      invariant next ∧ (property next ↔ condition state event))
    (faulted : ∀ state event fault, invariant state → property state →
      step state event = .error fault → condition state event)
    {state : State} {events : List Event} (initial : invariant state) (good : property state) :
    Throughout step property state events ↔ StepsMeet step condition state events :=
  throughout_iff_of_steps invariant (fun state event next before holds _ => kept state event next before holds)
    (fun state event fault before holds _ => faulted state event fault before holds) initial good
    (stepsMeet_of_forall (fun _ _ _ => trivial) state)

/-- An invariant that the steps of a run keep under a condition carries what it implies through the run. -/
theorem throughout_of_steps (invariant : State → Prop) {property : State → Prop}
    {condition : State → Event → Prop}
    (kept : ∀ state event next, invariant state → condition state event → step state event = .ok next →
      invariant next)
    (implied : ∀ state, invariant state → property state) {state : State} {events : List Event}
    (initial : invariant state) (met : StepsMeet step condition state events) :
    Throughout step property state events := by
  induction events generalizing state with
  | nil => exact implied state initial
  | cons event events ih =>
      exact ⟨implied state initial,
        fun next taken => ih (kept state event next initial met.1 taken) (met.2 next taken)⟩

/-- An invariant that implies a property carries it through every run. -/
theorem throughout_of_invariant (invariant : State → Prop) {property : State → Prop}
    (kept : ∀ state event next, invariant state → step state event = .ok next → invariant next)
    (implied : ∀ state, invariant state → property state) {state : State} {events : List Event}
    (initial : invariant state) : Throughout step property state events :=
  throughout_of_steps invariant (fun state event next before _ => kept state event next before) implied
    initial (stepsMeet_of_forall (fun _ _ _ => trivial) state)

end Runs

section Outcomes

variable {State Event Fault A B : Type}

/-- The computation gives a value with the property or stops with an accepted fault. -/
def Yields (accepted : Fault → Prop) (run : Except Fault A) (property : A → Prop) : Prop :=
  match run with
  | .error fault => accepted fault
  | .ok value => property value

variable {accepted : Fault → Prop} {run : Except Fault A} {property : A → Prop}

@[simp] theorem ok_bind (value : A) (next : A → Except Fault B) : (Except.ok value >>= next) = next value := rfl

theorem Yields.mono {weaker : A → Prop} (yields : Yields accepted run property)
    (implied : ∀ value, property value → weaker value) : Yields accepted run weaker := by
  cases run with
  | error fault => exact yields
  | ok value => exact implied value yields

theorem Yields.bind {next : A → Except Fault B} {after : B → Prop} (yields : Yields accepted run property)
    (continued : ∀ value, property value → Yields accepted (next value) after) :
    Yields accepted (run >>= next) after := by
  cases run with
  | error fault => exact yields
  | ok value => exact continued value yields

theorem Yields.map {change : A → B} {after : B → Prop} (yields : Yields accepted run property)
    (implied : ∀ value, property value → after (change value)) : Yields accepted (run.map change) after := by
  cases run with
  | error fault => exact yields
  | ok value => exact implied value yields

/-- A property of the state and the events so far that every step keeps holds after a run. -/
theorem Yields.execute {step : State → Event → Except Fault State} {invariant : List Event → State → Prop}
    (kept : ∀ past state event, invariant past state →
      Yields accepted (step state event) (invariant (past ++ [event])))
    {state : State} {past : List Event} (initial : invariant past state) (events : List Event) :
    Yields accepted (execute step state events) (invariant (past ++ events)) := by
  induction events generalizing state past with
  | nil =>
      rw [List.append_nil]
      exact initial
  | cons event events ih =>
      have taken := kept past state event initial
      rw [Execution.execute]
      cases outcome : step state event with
      | error fault =>
          rw [outcome] at taken
          exact taken
      | ok next =>
          rw [outcome] at taken
          have rest := ih taken
          rwa [List.append_assoc] at rest

/-- A property that the steps of a run keep under a condition holds after a run whose steps meet it. -/
theorem Yields.execute_of_steps {step : State → Event → Except Fault State} {invariant : State → Prop}
    {condition : State → Event → Prop}
    (kept : ∀ state event, invariant state → condition state event →
      Yields accepted (step state event) invariant)
    {state : State} {events : List Event} (initial : invariant state)
    (met : StepsMeet step condition state events) :
    Yields accepted (Execution.execute step state events) invariant := by
  induction events generalizing state with
  | nil => exact initial
  | cons event events ih =>
      have taken := kept state event initial met.1
      rw [Execution.execute]
      cases outcome : step state event with
      | error fault =>
          rw [outcome] at taken
          exact taken
      | ok next =>
          rw [outcome] at taken
          exact ih taken (met.2 next outcome)

/-- A run meets the condition or ends the way its first step against the condition leads to. -/
theorem stepsMeet_or_yields {step : State → Event → Except Fault State} {invariant after : State → Prop}
    {condition : State → Event → Prop}
    (kept : ∀ state event next, invariant state → condition state event → step state event = .ok next →
      invariant next)
    (broken : ∀ state event, invariant state → ¬condition state event →
      Yields accepted (step state event) after)
    (stays : ∀ state event, after state → Yields accepted (step state event) after)
    {state : State} (initial : invariant state) (events : List Event) :
    StepsMeet step condition state events ∨ Yields accepted (execute step state events) after := by
  induction events generalizing state with
  | nil => exact .inl trivial
  | cons event events ih =>
      by_cases met : condition state event
      · rw [Execution.execute]
        cases outcome : step state event with
        | error fault =>
            left
            refine ⟨met, fun next taken => ?_⟩
            rw [outcome] at taken
            cases taken
        | ok next =>
            rcases ih (kept state event next initial met outcome) with rest | reached
            · left
              refine ⟨met, fun other taken => ?_⟩
              rw [outcome] at taken
              exact Except.ok.inj taken ▸ rest
            · exact .inr reached
      · right
        have taken := broken state event initial met
        rw [Execution.execute]
        cases outcome : step state event with
        | error fault =>
            rw [outcome] at taken
            exact taken
        | ok next =>
            rw [outcome] at taken
            have rest := @Yields.execute State Event Fault accepted step (fun _ => after)
              (fun _ state event holds => stays state event holds) next [] taken events
            exact rest

end Outcomes

section Parts

variable {State Part Event Local Fault Failure : Type} {step : State → Event → Except Fault State}
  {partStep : Part → Local → Except Failure Part}

/-- The events that the steps of a run give to a part of the system. -/
def given (step : State → Event → Except Fault State) (share : State → Event → List Local) :
    State → List Event → List Local
  | _, [] => []
  | state, event :: events =>
      share state event ++
        match step state event with
        | .error _ => []
        | .ok next => given step share next events

/-- A run of the system is a run of its part when every step is related to the steps of the part that it gives. -/
theorem execute_given {share : State → Event → List Local} {related : State → Part → Prop}
    {condition : Part → Local → Prop}
    (kept : ∀ state part event next, related state part → StepsMeet partStep condition part (share state event) →
      step state event = .ok next →
      ∃ after, execute partStep part (share state event) = .ok after ∧ related next after)
    {state final : State} {part : Part} {events : List Event} (initial : related state part)
    (met : StepsMeet partStep condition part (given step share state events))
    (completed : execute step state events = .ok final) :
    ∃ last, execute partStep part (given step share state events) = .ok last ∧ related final last := by
  induction events generalizing state part with
  | nil => exact ⟨part, rfl, Except.ok.inj completed ▸ initial⟩
  | cons event events ih =>
      obtain ⟨next, taken, rest⟩ := execute_cons_ok.mp completed
      have shared : given step share state (event :: events) = share state event ++ given step share next events := by
        rw [given, taken]
      rw [shared, stepsMeet_append] at met
      obtain ⟨after, moved, holds⟩ := kept state part event next initial met.1 taken
      obtain ⟨last, later, ended⟩ := ih holds (met.2 after moved) rest
      rw [shared]
      exact ⟨last, execute_append_ok.mpr ⟨after, moved, later⟩, ended⟩

theorem execute_map (translate : Local → Event) (state : State) (events : List Local) :
    execute step state (events.map translate) =
      execute (fun state event => step state (translate event)) state events := by
  induction events generalizing state with
  | nil => rfl
  | cons event events ih =>
      simp only [List.map_cons, execute]
      cases step state (translate event) with
      | error fault => rfl
      | ok next => exact ih next

end Parts

end RepublicAgent.Execution
