import Apes.LinkedList.Filters

/-!
# Unloading the list module

`listExit` walks the list with `list_for_each_entry` and frees each node in the body of the loop.
The macro advances through `list.next` of the node that the body has just freed, so the second read
of a node comes after its `kfree`. In the model a freed node is no longer live, and reading it is a
fault, whatever its memory still holds.

`listExit_empty` is the exit with an empty list, and `listExit_first` the one with a first node:
it ends at the advance after that node. `unloadsCleanly_iff` concludes that the exit is clean
exactly for the list of an empty seed array.
-/

set_option autoImplicit false
set_option relaxedAutoImplicit false

namespace Apes.LinkedList

open Library

/-- `kfree` of a node: it is no longer live. A second `kfree` is a fault. -/
def kfree (address : ℕ) (state : ModuleState) : Except Fault ModuleState :=
  match state.nodes address with
  | some _ => .ok { state with nodes := Function.update state.nodes address none }
  | none => .error (.deadAddress address)

/-- The loop of `listExit` from the node `ptr` on: the node, whose address is not `NULL`, is freed,
its size is added, and the macro reads its `list.next`. -/
def exitFrom (sizeofAnimal : ℕ) : ℕ → Link → ModuleState → UInt32 →
    Except Fault (UInt32 × ModuleState)
  | _, .head, state, memSize => .ok (memSize, state)
  | 0, .node _, _, _ => .error .outOfFuel
  | fuel + 1, .node address, state, memSize => do
    let state ← kfree address state
    let animal ← readNode address state
    exitFrom sizeofAnimal fuel animal.list.next state (memSize + UInt32.ofNat sizeofAnimal)

/-- `listExit`: what it prints, and the state that it leaves. -/
def listExit (sizeofAnimal : ℕ) (state : ModuleState) :
    Except Fault (List Line × ModuleState) := do
  let (memSize, state) ←
    exitFrom sizeofAnimal state.allocations state.animalList.next state 0
  pure ([.text "Linked List Module Exits\n", .memory memSize], state)

/-- The exit returns without reading or freeing a node that is not live, every node has been freed,
and the memory reported is that of the nodes of the list. -/
def UnloadsCleanly (sizeofAnimal : ℕ) (state : ModuleState) : Prop :=
  ∃ animals final, listEntries state = .ok animals ∧
    listExit sizeofAnimal state =
      .ok ([.text "Linked List Module Exits\n",
        .memory (UInt32.ofNat (animals.length * sizeofAnimal))], final) ∧
      ∀ address, final.nodes address = none

/-- A node cannot be read after it has been freed. -/
theorem readNode_of_kfree {address : ℕ} {state after : ModuleState}
    (hfree : kfree address state = .ok after) :
    readNode address after = .error (.deadAddress address) := by
  unfold kfree at hfree
  split at hfree
  · rw [Except.ok.injEq] at hfree
    rw [readNode, ← hfree]
    simp only [Function.update_self]
  · cases hfree

variable {state : ModuleState} {cells : List (ℕ × (CString × ℕ))}

/-- The exit with an empty list. -/
theorem listExit_empty (sizeofAnimal : ℕ) (hstate : Represents state []) :
    listExit sizeofAnimal state =
      .ok ([.text "Linked List Module Exits\n", .memory 0], state) := by
  rw [listExit, hstate.animalList_next, firstLink]
  cases state.allocations with
  | zero => rfl
  | succ fuel => rfl

/-- The exit with a first node frees it and reads it again. -/
theorem listExit_first (sizeofAnimal : ℕ) {cell : ℕ × (CString × ℕ)}
    (hstate : Represents state (cell :: cells)) :
    listExit sizeofAnimal state = .error (.deadAddress cell.1) := by
  have hahead : Represents state ([] ++ cell :: cells) := hstate
  obtain ⟨animal, hanimal, -⟩ := hahead.readNode_cell
  obtain ⟨fuel, hfuel⟩ : ∃ fuel, state.allocations = fuel + 1 :=
    ⟨cells.length, hstate.length_eq.symm⟩
  have hfree : kfree cell.1 state =
      .ok { state with nodes := Function.update state.nodes cell.1 none } := by
    simp only [kfree, hanimal]
  rw [listExit, hstate.animalList_next, firstLink_cons, hfuel, exitFrom, hfree, ok_bind,
    readNode_of_kfree hfree]
  rfl

/-- A list built from at least one seed has a first node, and its exit reads it after its
`kfree`. -/
theorem not_unloadsCleanly {allocator : Allocator} {seeds : List CString}
    (hbuilt : insertionLoop allocator seeds ModuleState.initial = .ok state)
    (hseeds : seeds ≠ []) (sizeofAnimal : ℕ) : ¬ UnloadsCleanly sizeofAnimal state := by
  intro hclean
  obtain ⟨cells, hrepresents, hcells, -⟩ := represents_of_insertionLoop hbuilt
  obtain ⟨seed, hseed⟩ := List.exists_mem_of_ne_nil seeds hseeds
  rw [← mem_keys_tallyAll, ← hcells] at hseed
  cases cells with
  | nil => cases hseed
  | cons cell rest =>
    obtain ⟨animals, final, -, hexit, -⟩ := hclean
    rw [listExit_first sizeofAnimal hrepresents] at hexit
    cases hexit

/-- **The exit is clean exactly when the list is empty.** For every list that the insertion loop can
build: the seed array has no seed. -/
theorem unloadsCleanly_iff {allocator : Allocator} {seeds : List CString}
    (hbuilt : insertionLoop allocator seeds ModuleState.initial = .ok state) (sizeofAnimal : ℕ) :
    UnloadsCleanly sizeofAnimal state ↔ seeds = [] := by
  constructor
  · intro hclean
    by_contra hseeds
    exact not_unloadsCleanly hbuilt hseeds sizeofAnimal hclean
  · rintro rfl
    rw [insertionLoop, Except.ok.injEq] at hbuilt
    subst hbuilt
    refine ⟨[], ModuleState.initial, rfl, ?_, fun _ ↦ rfl⟩
    rw [listExit_empty sizeofAnimal represents_initial, List.length_nil, Nat.zero_mul]
    rfl

/-- The list of an empty seed array, with nodes of 32 bytes. -/
theorem unloadsCleanly_iff_empty : UnloadsCleanly 32 ModuleState.initial := by
  let allocator : Allocator := ⟨fun _ ↦ true, fun _ ↦ ⟨.head, .head⟩⟩
  exact (unloadsCleanly_iff
    (rfl : insertionLoop allocator [] ModuleState.initial = .ok ModuleState.initial) 32).mpr rfl

/-- **Unloading reads a freed node.** The list of the single seed `fox`: its node, at address zero,
is freed and then read. -/
theorem unload_reads_freed_node :
    ∃ state, insertionLoop ⟨fun _ ↦ true, fun _ ↦ ⟨.head, .head⟩⟩
        [⟨[102, 111, 120], by decide⟩] ModuleState.initial = .ok state ∧
      ¬ UnloadsCleanly 32 state := by
  let allocator : Allocator := ⟨fun _ ↦ true, fun _ ↦ ⟨.head, .head⟩⟩
  obtain ⟨state, -, hstate, -⟩ :=
    insertionLoop_spec fun _ _ ↦ (rfl : allocator.succeeds _ = true)
  exact ⟨state, hstate, not_unloadsCleanly hstate (List.cons_ne_nil _ _) 32⟩

end Apes.LinkedList
