import Mathlib.Data.Nat.Basic
import Mathlib.Data.List.Basic
import Mathlib.Data.List.Induction
import Mathlib.Tactic.Common

/-!
# Labelled transition systems with a guarded step function

A `System` is an initial state together with a step function: `step state event` is the state
after `event`, or `none` when the event is not enabled in `state`. The label resolves all the
nondeterminism of a concurrent program (which party moves, which signal arrives), so the same
function is executed on a concrete schedule (`run`) and reasoned about over every schedule
(`ReachableUnder`).

`ReachableUnder allowed` restricts the schedules to the events that `allowed` admits in the state
where they are taken; `Reachable` is the case without a restriction. `ReachableUnder.invariant` is
the induction rule over runs, and `reachable_of_run` turns an executed schedule into a reachable
state. `exists_run_of_measure` is the progress rule: when every state that has not met a goal can
take a step that decreases a measure, the goal is met at the end of some run; and when every step
decreases it, `length_le_of_measure` bounds the length of every run.

`restrict` builds the restriction into the step function, and `reachableUnder_of_run` executes a
schedule under it. `run_invariant` is the induction rule that relates a schedule to the state it
ends in. `Along` is a property of every step of a schedule, `along_and` splits a conjunction of two,
`along_iff` exchanges two properties of steps that agree on the reachable ones, and
`forall_prefix_iff` turns a property of every state of a schedule into one of its steps;
`exists_change_of_run` finds the step at which something has changed.

`ReachableUnder.simulate` is the simulation rule: when every step is, seen through an abstraction, a
step of another system or no change, what is reached is abstracted to what the other system reaches.
-/

set_option autoImplicit false
set_option relaxedAutoImplicit false

namespace Apes.Library

/-- A transition system: an initial state and a step function that is `none` on the events that
are not enabled. -/
structure System (State Event : Type*) where
  initial : State
  step : State → Event → Option State

namespace System

variable {State Event : Type*} (system : System State Event)

/-- Runs a list of events, oldest first; `none` when one of them is not enabled. -/
def run : State → List Event → Option State
  | state, [] => some state
  | state, event :: rest => (system.step state event).bind fun next ↦ run next rest

/-- The states reached from the initial state by events that `allowed` admits in the state where
they are taken. -/
inductive ReachableUnder (allowed : State → Event → Prop) : State → Prop
  | initial : ReachableUnder allowed system.initial
  | step {state next : State} {event : Event} (hreach : ReachableUnder allowed state)
      (hallowed : allowed state event) (hstep : system.step state event = some next) :
      ReachableUnder allowed next

/-- The states reached from the initial state by enabled events. -/
def Reachable (state : State) : Prop := system.ReachableUnder (fun _ _ ↦ True) state

/-- No event is enabled in the state. -/
def Stuck (state : State) : Prop := ∀ event, system.step state event = none

/-- Every step of a schedule has the property. -/
def Along (property : State → Event → State → Prop) : State → List Event → Prop
  | _, [] => True
  | state, event :: rest => ∀ next, system.step state event = some next →
      property state event next ∧ Along property next rest

/-- The system in which an event is enabled only where it is admitted. -/
def restrict (allowed : State → Event → Prop) [∀ state event, Decidable (allowed state event)] :
    System State Event where
  initial := system.initial
  step state event := if allowed state event then system.step state event else none

variable {system}

/-- The induction rule over runs: a property of the initial state that every admitted step keeps
holds in every state reached. -/
@[elab_as_elim]
theorem ReachableUnder.invariant {allowed : State → Event → Prop} {property : State → Prop}
    (hinitial : property system.initial)
    (hpreserved : ∀ state event next, property state → allowed state event →
      system.step state event = some next → property next)
    {state : State} (hreach : system.ReachableUnder allowed state) : property state := by
  induction hreach with
  | initial => exact hinitial
  | step _ hallowed hstep ih => exact hpreserved _ _ _ ih hallowed hstep

/-- What is reached under a restriction is reached under a weaker one. -/
theorem ReachableUnder.mono {allowed weaker : State → Event → Prop} {state : State}
    (hreach : system.ReachableUnder allowed state)
    (hweaker : ∀ state event, allowed state event → weaker state event) :
    system.ReachableUnder weaker state := by
  induction hreach with
  | initial => exact .initial
  | step _ hallowed hstep ih => exact ih.step (hweaker _ _ hallowed) hstep

/-- The induction rule for runs without a restriction. -/
@[elab_as_elim]
theorem Reachable.invariant {property : State → Prop} (hinitial : property system.initial)
    (hpreserved : ∀ state event next, property state → system.step state event = some next →
      property next)
    {state : State} (hreach : system.Reachable state) : property state :=
  ReachableUnder.invariant hinitial (fun state event next hstate _ ↦
    hpreserved state event next hstate) hreach

/-- An enabled event leads from a reachable state to a reachable state. -/
theorem Reachable.next {state next : State} {event : Event} (hreach : system.Reachable state)
    (hstep : system.step state event = some next) : system.Reachable next :=
  ReachableUnder.step hreach trivial hstep

@[simp] theorem run_nil (state : State) : system.run state [] = some state := rfl

@[simp] theorem run_cons (state : State) (event : Event) (rest : List Event) :
    system.run state (event :: rest) =
      (system.step state event).bind fun next ↦ system.run next rest := rfl

/-- Running one list of events after another is running their concatenation. -/
theorem run_append (state : State) (first second : List Event) :
    system.run state (first ++ second) =
      (system.run state first).bind fun next ↦ system.run next second := by
  induction first generalizing state with
  | nil => rfl
  | cons event rest ih =>
    simp only [List.cons_append, run_cons, Option.bind_assoc]
    exact congrArg _ (funext fun next ↦ ih next)

/-- A run from a reachable state ends in a reachable state. -/
theorem Reachable.run {state final : State} {events : List Event}
    (hreach : system.Reachable state) (hrun : system.run state events = some final) :
    system.Reachable final := by
  induction events generalizing state with
  | nil =>
    rw [run_nil, Option.some.injEq] at hrun
    exact hrun ▸ hreach
  | cons event rest ih =>
    rw [run_cons, Option.bind_eq_some_iff] at hrun
    obtain ⟨next, hstep, hrest⟩ := hrun
    exact ih (hreach.next hstep) hrest

/-- The state at the end of an executed schedule is reachable. -/
theorem reachable_of_run {final : State} {events : List Event}
    (hrun : system.run system.initial events = some final) : system.Reachable final :=
  Reachable.run (.initial) hrun

/-- The induction rule over executed schedules: a relation between the events so far and the state
that holds at the start and that every step keeps holds at the end of every schedule. -/
@[elab_as_elim]
theorem run_invariant {property : List Event → State → Prop} (hinitial : property [] system.initial)
    (hpreserved : ∀ events state event next, property events state →
      system.step state event = some next → property (events ++ [event]) next)
    {events : List Event} {final : State} (hrun : system.run system.initial events = some final) :
    property events final := by
  induction events using List.reverseRecOn generalizing final with
  | nil =>
    rw [run_nil, Option.some.injEq] at hrun
    exact hrun ▸ hinitial
  | append_singleton events event ih =>
    rw [run_append, Option.bind_eq_some_iff] at hrun
    obtain ⟨state, hstate, hlast⟩ := hrun
    rw [run_cons, Option.bind_eq_some_iff] at hlast
    obtain ⟨next, hstep, hnext⟩ := hlast
    rw [run_nil, Option.some.injEq] at hnext
    exact hnext ▸ hpreserved events state event next (ih hstate) hstep

/-- What a view of the state shows changes over a schedule only where a step of it changes it. -/
theorem exists_change_of_run {View : Type*} (view : State → View) {events : List Event}
    {state final : State} (hrun : system.run state events = some final)
    (hchanged : view final ≠ view state) :
    ∃ before event rest between next, events = before ++ event :: rest ∧
      system.run state before = some between ∧ system.step between event = some next ∧
      view next ≠ view between := by
  induction events generalizing state with
  | nil =>
    rw [run_nil, Option.some.injEq] at hrun
    exact absurd (congrArg view hrun.symm) hchanged
  | cons event rest ih =>
    rw [run_cons, Option.bind_eq_some_iff] at hrun
    obtain ⟨next, hstep, hrest⟩ := hrun
    by_cases hsame : view next = view state
    · obtain ⟨before, later, after, between, last, rfl, hbefore, hlater⟩ :=
        ih hrest (hsame ▸ hchanged)
      refine ⟨event :: before, later, after, between, last, rfl, ?_, hlater⟩
      rw [run_cons, hstep]
      exact hbefore
    · exact ⟨[], event, rest, state, next, rfl, rfl, hstep, hsame⟩

/-- Every prefix of an executed schedule is executed. -/
theorem exists_run_of_prefix {before events : List Event} {state final : State}
    (hpart : before <+: events) (hrun : system.run state events = some final) :
    ∃ between, system.run state before = some between := by
  obtain ⟨rest, rfl⟩ := hpart
  rw [run_append, Option.bind_eq_some_iff] at hrun
  obtain ⟨between, hbetween, -⟩ := hrun
  exact ⟨between, hbetween⟩

/-- Two properties of steps agree along every schedule when they agree on the steps from the states
of an invariant that is kept as long as the first of them holds. -/
theorem along_iff_of_invariant {first second : State → Event → State → Prop}
    {invariant : State → Prop}
    (hagree : ∀ state event next, invariant state → system.step state event = some next →
      (first state event next ↔ second state event next))
    (hkept : ∀ state event next, invariant state → system.step state event = some next →
      first state event next → invariant next)
    {state : State} (hstate : invariant state) (events : List Event) :
    system.Along first state events ↔ system.Along second state events := by
  induction events generalizing state with
  | nil => exact Iff.rfl
  | cons event rest ih =>
    refine forall_congr' fun next ↦ forall_congr' fun hstep ↦ ?_
    constructor
    · rintro ⟨hfirst, hrest⟩
      exact ⟨(hagree state event next hstate hstep).mp hfirst,
        (ih (hkept state event next hstate hstep hfirst)).mp hrest⟩
    · rintro ⟨hsecond, hrest⟩
      have hfirst := (hagree state event next hstate hstep).mpr hsecond
      exact ⟨hfirst, (ih (hkept state event next hstate hstep hfirst)).mpr hrest⟩

/-- Two properties of steps that agree on the steps from reachable states agree along every
schedule. -/
theorem along_iff {first second : State → Event → State → Prop}
    (hagree : ∀ state event next, system.Reachable state → system.step state event = some next →
      (first state event next ↔ second state event next))
    {state : State} (hreach : system.Reachable state) (events : List Event) :
    system.Along first state events ↔ system.Along second state events :=
  along_iff_of_invariant hagree (fun _ _ _ hstate hstep _ ↦ hstate.next hstep) hreach events

/-- Two properties hold along a schedule exactly when each of them does. -/
theorem along_and {first second : State → Event → State → Prop} {state : State}
    (events : List Event) :
    system.Along (fun state event next ↦ first state event next ∧ second state event next) state
        events ↔ system.Along first state events ∧ system.Along second state events := by
  induction events generalizing state with
  | nil => exact (and_self_iff).symm
  | cons event rest ih =>
    constructor
    · intro hboth
      constructor
      · intro next hstep
        exact ⟨(hboth next hstep).1.1, (ih.mp (hboth next hstep).2).1⟩
      · intro next hstep
        exact ⟨(hboth next hstep).1.2, (ih.mp (hboth next hstep).2).2⟩
    · rintro ⟨hfirst, hsecond⟩ next hstep
      exact ⟨⟨(hfirst next hstep).1, (hsecond next hstep).1⟩,
        ih.mpr ⟨(hfirst next hstep).2, (hsecond next hstep).2⟩⟩

/-- A property along a schedule is one of its first step and one along the rest. -/
theorem along_cons {property : State → Event → State → Prop} {state next : State} {event : Event}
    (hstep : system.step state event = some next) (rest : List Event) :
    system.Along property state (event :: rest) ↔
      property state event next ∧ system.Along property next rest := by
  constructor
  · intro halong
    exact halong next hstep
  · rintro hboth other hother
    obtain rfl := Option.some.inj (hstep.symm.trans hother)
    exact hboth

/-- A property along a schedule is decided step by step. -/
instance Along.decidable {property : State → Event → State → Prop}
    [∀ state event next, Decidable (property state event next)] :
    ∀ (state : State) (events : List Event), Decidable (system.Along property state events)
  | _, [] => .isTrue trivial
  | state, event :: rest =>
    match hstep : system.step state event with
    | none => .isTrue fun _ hnext ↦ absurd (hstep.symm.trans hnext) (by simp)
    | some next =>
      have : Decidable (system.Along property next rest) := Along.decidable next rest
      decidable_of_iff _ (along_cons hstep rest).symm

/-- A property holds in every state of a schedule exactly when it holds in the first one and after
every step. -/
theorem forall_prefix_iff {property : State → Prop} {state : State} (events : List Event) :
    (∀ before between, before <+: events → system.run state before = some between →
      property between) ↔
      property state ∧ system.Along (fun _ _ next ↦ property next) state events := by
  induction events generalizing state with
  | nil =>
    constructor
    · intro hall
      exact ⟨hall [] state List.prefix_rfl rfl, trivial⟩
    · rintro ⟨hstate, -⟩ before between hpart hrun
      rw [List.prefix_nil.mp hpart] at hrun
      exact Option.some.inj hrun ▸ hstate
  | cons event rest ih =>
    constructor
    · intro hall
      refine ⟨hall [] state List.nil_prefix rfl, fun next hstep ↦ ?_⟩
      have hnext := ih.mp fun before between hpart hrun ↦ hall (event :: before) between
        (List.cons_prefix_cons.mpr ⟨rfl, hpart⟩)
        (by rw [run_cons, hstep]; exact hrun)
      exact hnext
    · rintro ⟨hstate, halong⟩ before between hpart hrun
      cases before with
      | nil => exact Option.some.inj hrun ▸ hstate
      | cons first before =>
        obtain ⟨rfl, hbefore⟩ := List.cons_prefix_cons.mp hpart
        rw [run_cons, Option.bind_eq_some_iff] at hrun
        obtain ⟨next, hstep, hrest⟩ := hrun
        exact ih.mpr (halong next hstep) before between hbefore hrest

/-- The state at the end of a schedule executed under a restriction is reached under it. -/
theorem reachableUnder_of_run {allowed : State → Event → Prop}
    [∀ state event, Decidable (allowed state event)] {final : State} {events : List Event}
    (hrun : (system.restrict allowed).run system.initial events = some final) :
    system.ReachableUnder allowed final := by
  have hreach : (system.restrict allowed).Reachable final := reachable_of_run hrun
  refine hreach.invariant .initial ?_
  intro state event next hreach hstep
  change (if allowed state event then system.step state event else none) = some next at hstep
  split_ifs at hstep with hadmitted
  exact hreach.step hadmitted hstep

/-- The simulation rule. Assumes: an invariant under which every admitted step of a system is, seen
through an abstraction, an admitted step of another system or no change. Then the states reached are
abstracted to states that the other system reaches. -/
theorem ReachableUnder.simulate {OtherState OtherEvent : Type*}
    {other : System OtherState OtherEvent} {allowed : State → Event → Prop}
    {otherAllowed : OtherState → OtherEvent → Prop} (abstract : State → OtherState)
    {invariant : State → Prop} (hinitial : invariant system.initial)
    (hstart : abstract system.initial = other.initial)
    (hsimulates : ∀ state event next, invariant state →
      other.ReachableUnder otherAllowed (abstract state) → allowed state event →
      system.step state event = some next → invariant next ∧ (abstract next = abstract state ∨
        ∃ otherEvent, otherAllowed (abstract state) otherEvent ∧
          other.step (abstract state) otherEvent = some (abstract next)))
    {state : State} (hreach : system.ReachableUnder allowed state) :
    invariant state ∧ other.ReachableUnder otherAllowed (abstract state) := by
  refine ReachableUnder.invariant ?_ ?_ hreach
  · exact ⟨hinitial, hstart ▸ .initial⟩
  · rintro state event next ⟨hstate, hother⟩ hallowed hstep
    obtain ⟨hnext, hsame | ⟨otherEvent, hadmitted, hmatch⟩⟩ :=
      hsimulates state event next hstate hother hallowed hstep
    · exact ⟨hnext, hsame ▸ hother⟩
    · exact ⟨hnext, hother.step hadmitted hmatch⟩

/-- The progress rule. Assumes: an invariant, kept by the steps taken, under which every state off
the goal has a step that decreases the measure. Then some run meets the goal. -/
theorem exists_run_of_measure {invariant goal : State → Prop} (measure : State → ℕ)
    (hprogress : ∀ state, invariant state → ¬ goal state → ∃ event next,
      system.step state event = some next ∧ invariant next ∧ measure next < measure state)
    {state : State} (hstate : invariant state) :
    ∃ events final, system.run state events = some final ∧ invariant final ∧ goal final := by
  induction hmeasure : measure state using Nat.strong_induction_on generalizing state with
  | _ bound ih =>
    by_cases hgoal : goal state
    · exact ⟨[], state, rfl, hstate, hgoal⟩
    · obtain ⟨event, next, hstep, hnext, hless⟩ := hprogress state hstate hgoal
      obtain ⟨events, final, hrun, hfinal⟩ := ih (measure next) (hmeasure ▸ hless) hnext rfl
      exact ⟨event :: events, final, by rw [run_cons, hstep]; exact hrun, hfinal⟩

/-- The bound of a run. Assumes: an invariant that every step keeps, and a measure that every step
from it decreases. -/
theorem length_le_of_measure {invariant : State → Prop} (measure : State → ℕ)
    (hshortens : ∀ state event next, invariant state → system.step state event = some next →
      invariant next ∧ measure next < measure state)
    {state final : State} (hstate : invariant state) {events : List Event}
    (hrun : system.run state events = some final) : events.length ≤ measure state := by
  induction events generalizing state with
  | nil => exact Nat.zero_le _
  | cons event rest ih =>
    rw [run_cons, Option.bind_eq_some_iff] at hrun
    obtain ⟨next, hstep, hrest⟩ := hrun
    obtain ⟨hnext, hless⟩ := hshortens state event next hstate hstep
    exact Nat.lt_of_le_of_lt (ih hnext hrest) hless

end System

end Apes.Library
