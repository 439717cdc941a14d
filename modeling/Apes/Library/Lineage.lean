import Apes.Library.TransitionSystem

/-!
# Lineages

In a run of a transition system entities are born, each of them of a parent: a process forks
another one, a node is split off another one. `birth` says which entity an event gives birth to and
which one is its parent. `origin` follows an entity of the last state back through a schedule to the
entity of the first state that it descends from, a child being replaced by its parent where it is
born.

`bound_origin` is the rule for what is inherited: a bound between an entity and the one that it was
before a step, or was born of in that step, holds between every entity at the end and its origin.
`origin_eq_self` says that an entity of the first state descends from itself.
-/

set_option autoImplicit false
set_option relaxedAutoImplicit false

namespace Apes.Library

namespace System

variable {State Event Entity : Type*} [DecidableEq Entity]

/-- What an entity was before an event: its parent if it is the child that is born, and itself
otherwise. -/
def former (birth : State → Event → Option (Entity × Entity)) (state : State) (event : Event)
    (entity : Entity) : Entity :=
  match birth state event with
  | some (parent, child) => if entity = child then parent else entity
  | none => entity

/-- The entity of the first state that an entity descends from after a schedule. -/
def origin (system : System State Event) (birth : State → Event → Option (Entity × Entity)) :
    State → List Event → Entity → Entity
  | _, [], entity => entity
  | state, event :: rest, entity =>
    match system.step state event with
    | none => entity
    | some next => former birth state event (system.origin birth next rest entity)

variable {system : System State Event} {birth : State → Event → Option (Entity × Entity)}

/-- The origin over a first event that is enabled. -/
theorem origin_cons {state next : State} {event : Event}
    (hstep : system.step state event = some next) (rest : List Event) (entity : Entity) :
    system.origin birth state (event :: rest) entity =
      former birth state event (system.origin birth next rest entity) := by
  rw [origin, hstep]

/-- An entity that is not the child of an event was itself before it. -/
theorem former_eq_self {state : State} {event : Event} {entity : Entity}
    (hborn : ∀ parent child, birth state event = some (parent, child) → entity ≠ child) :
    former birth state event entity = entity := by
  unfold former
  split
  case h_1 parent child hbirth => exact if_neg (hborn parent child hbirth)
  case h_2 => rfl

/-- What is inherited: a bound that every step keeps between an entity and what it was before holds
at the end of a run between every entity and its origin, which was there at the start. Assumes: the
bound is reflexive and transitive. -/
theorem bound_origin (present : State → Entity → Prop)
    (bound : State → Entity → State → Entity → Prop) {invariant : State → Prop}
    {allowed : Event → Prop} (hrefl : ∀ state entity, bound state entity state entity)
    (htrans : ∀ {first second third : State} {former entity later : Entity},
      bound first former second entity → bound second entity third later →
        bound first former third later)
    (hkept : ∀ {state event next}, invariant state → allowed event →
      system.step state event = some next → invariant next ∧ ∀ entity, present next entity →
        present state (former birth state event entity) ∧
          bound state (former birth state event entity) next entity)
    {state final : State} {events : List Event} (hstate : invariant state)
    (hallowed : ∀ event ∈ events, allowed event) (hrun : system.run state events = some final)
    {entity : Entity} (hpresent : present final entity) :
    present state (system.origin birth state events entity) ∧
      bound state (system.origin birth state events entity) final entity := by
  induction events generalizing state with
  | nil =>
    rw [run_nil, Option.some.injEq] at hrun
    subst hrun
    exact ⟨hpresent, hrefl _ _⟩
  | cons event rest ih =>
    rw [run_cons, Option.bind_eq_some_iff] at hrun
    obtain ⟨next, hstep, hrest⟩ := hrun
    obtain ⟨hfirst, hlater⟩ := List.forall_mem_cons.mp hallowed
    obtain ⟨hnext, hinherits⟩ := hkept hstate hfirst hstep
    obtain ⟨hthere, hbound⟩ := ih hnext hlater hrest
    obtain ⟨hbefore, hinherited⟩ := hinherits _ hthere
    rw [origin_cons hstep]
    exact ⟨hbefore, htrans hinherited hbound⟩

/-- An entity of the first state descends from itself. Assumes: a child was not there before its
birth, and an entity stays. -/
theorem origin_eq_self (present : State → Entity → Prop)
    (hborn : ∀ {state event next parent child}, system.step state event = some next →
      birth state event = some (parent, child) → ¬ present state child)
    (hstays : ∀ {state event next entity}, system.step state event = some next →
      present state entity → present next entity)
    {state : State} (events : List Event) {entity : Entity} (hpresent : present state entity) :
    system.origin birth state events entity = entity := by
  induction events generalizing state with
  | nil => rfl
  | cons event rest ih =>
    cases hstep : system.step state event with
    | none => rw [origin, hstep]
    | some next =>
      rw [origin_cons hstep, ih (hstays hstep hpresent)]
      refine former_eq_self fun parent child hbirth hsame ↦ ?_
      exact hborn hstep hbirth (hsame ▸ hpresent)

end System

end Apes.Library
