import Apes.LinkedList.Insertion

/-!
# The ring of the list module

`LIST_HEAD` makes a ring of the head alone, and every round of the loop of `listInitialize` either
raises a count or links one new node in. `RingIntact` is what the traversal macros rely on after
each round, at the level of pointers: the nodes that have been allocated are the live ones, the
`next` fields lead from `animal_list` through each of them once and back, the `prev` fields are the
inverse of the `next` fields, and the assignment to the head inside the search has not been
executed.

`afterRounds` is the loop after a number of its rounds, one round at a time (`afterRounds_succ`). A
state that `Represents` a list is intact (`Represents.ringIntact`), because the ring of its cells is
circular (`IsRing.circular`), and `insertionLoop_ringIntact` concludes for every round of every
load.
-/

set_option autoImplicit false
set_option relaxedAutoImplicit false

namespace Apes.LinkedList

open Library

/-- The state of the module after a number of rounds of the loop over a seed array. -/
def afterRounds (allocator : Allocator) (seeds : List CString) (rounds : ℕ) :
    Except Fault ModuleState :=
  insertionLoop allocator (seeds.take rounds) ModuleState.initial

/-- The list is a ring of all nodes: the allocated nodes are the live ones, following `next` from
`animal_list` visits each of them once and returns, `prev` is the inverse of `next` on the nodes and
the head, and the search has never assigned to the head. -/
structure RingIntact (state : ModuleState) : Prop where
  allocated : ∀ address, (state.nodes address).isSome = true ↔ address < state.allocations
  circular : Circular (nextAt state) (prevAt state) .head (state.allocations + 1)
  unassigned : state.headAssignments = 0

/-- The next round of the loop inserts the next seed. -/
theorem afterRounds_succ (allocator : Allocator) {seeds : List CString} {rounds : ℕ}
    (hround : rounds < seeds.length) :
    afterRounds allocator seeds (rounds + 1) =
      afterRounds allocator seeds rounds >>= insertSeed allocator seeds[rounds] := by
  rw [afterRounds, List.take_succ_eq_append_getElem hround, insertionLoop_append_singleton]
  rfl

section Represented

variable {state : ModuleState} {cells : List (ℕ × (CString × ℕ))}

/-- The live nodes of a represented list are the allocated ones. -/
theorem Represents.isSome_iff (hstate : Represents state cells) (address : ℕ) :
    (state.nodes address).isSome = true ↔ address < state.allocations := by
  have hpayload : (payloadAt state address).isSome = (state.nodes address).isSome :=
    Option.isSome_map
  rw [← hpayload]
  constructor
  · intro hlive
    by_contra hbeyond
    rw [hstate.fresh address (Nat.not_lt.mp hbeyond)] at hlive
    cases hlive
  · intro hless
    obtain ⟨cell, hcell, hsame⟩ :=
      List.mem_map.mp (hstate.addresses.mem_iff.mpr (List.mem_range.mpr hless))
    rw [← hsame, hstate.payload cell hcell]
    rfl

/-- A link with a `list_head` is the head or a cell of the list. -/
theorem Represents.mem_links (hstate : Represents state cells) {link : Link}
    (hlink : (linkAt state link).isSome = true) : link ∈ Link.head :: links cells := by
  cases link with
  | head => exact List.mem_cons_self
  | node address =>
    rw [linkAt, Option.isSome_map, hstate.isSome_iff, ← List.mem_range,
      ← hstate.addresses.mem_iff] at hlink
    obtain ⟨cell, hcell, rfl⟩ := List.mem_map.mp hlink
    exact List.mem_cons_of_mem _ (List.mem_map_of_mem hcell)

/-- A represented list is intact when nothing has been assigned to the head. -/
theorem Represents.ringIntact (hstate : Represents state cells)
    (hhead : state.headAssignments = 0) : RingIntact state := by
  refine ⟨hstate.isSome_iff, ?_, hhead⟩
  have hcircular := hstate.ring.circular hstate.nodup
    (fun link hnext ↦ hstate.mem_links (Option.isSome_map ▸ hnext))
    (fun link hprev ↦ hstate.mem_links (Option.isSome_map ▸ hprev))
  rwa [links, List.length_map, hstate.length_eq] at hcircular

end Represented

/-- **The list is an intact ring after every round.** For every seed array, every number of rounds
and every outcome of the allocations: whenever the rounds have been passed, the list is intact; and
when their allocations succeed, one for each of the distinct species, the rounds are passed, and the
loop over the whole array goes on from there. -/
theorem insertionLoop_ringIntact (allocator : Allocator) (seeds : List CString) (rounds : ℕ) :
    (∀ state, afterRounds allocator seeds rounds = .ok state → RingIntact state) ∧
      ((∀ call < (seeds.take rounds).dedup.length, allocator.succeeds call = true) → ∃ state,
        afterRounds allocator seeds rounds = .ok state ∧
          insertionLoop allocator seeds ModuleState.initial =
            insertionLoop allocator (seeds.drop rounds) state) := by
  constructor
  · intro state hreached
    obtain ⟨cells, hrepresents, -, hhead⟩ := represents_of_insertionLoop hreached
    exact hrepresents.ringIntact hhead
  · intro hsucceeds
    obtain ⟨state, -, hreached, -⟩ := insertionLoop_spec hsucceeds
    refine ⟨state, hreached, ?_⟩
    calc insertionLoop allocator seeds ModuleState.initial
        = insertionLoop allocator (seeds.take rounds ++ seeds.drop rounds) ModuleState.initial := by
          rw [List.take_append_drop]
      _ = insertionLoop allocator (seeds.drop rounds) state := by
          rw [insertionLoop_append, hreached, ok_bind]

/-- The seeds `fox`, `dog` and `fox` after two of the three rounds. -/
theorem insertionLoop_ringIntact_fox_dog : ∃ state,
    afterRounds ⟨fun _ ↦ true, fun _ ↦ ⟨.head, .head⟩⟩
        [⟨[102, 111, 120], by decide⟩, ⟨[100, 111, 103], by decide⟩, ⟨[102, 111, 120], by decide⟩]
        2 = .ok state ∧ RingIntact state := by
  obtain ⟨hintact, hpassed⟩ := insertionLoop_ringIntact ⟨fun _ ↦ true, fun _ ↦ ⟨.head, .head⟩⟩
    [⟨[102, 111, 120], by decide⟩, ⟨[100, 111, 103], by decide⟩, ⟨[102, 111, 120], by decide⟩] 2
  obtain ⟨state, hreached, -⟩ := hpassed fun _ _ ↦ rfl
  exact ⟨state, hreached, hintact state hreached⟩

end Apes.LinkedList
