import Apes.LinkedList.Filters

/-!
# Loading the list module

`listInitialize` builds the list, prints it with its totals, and calls `checkFilters` with the
module parameters `type`, which is `NULL` when it is not set, and `count`. Nothing in it checks what
`kmalloc` returns, and nothing checks `type`: the only result is zero, and every failure on the way
is a dereference of `NULL` or a `strcmp` with it.

`listInitialize_loads` is the load in which nothing fails, `listInitialize_of_failure` the one with
a failing `kmalloc`, and `listInitialize_of_null_type` the one without a species.
`toleratesFailures_iff` puts them together: a load tolerates what happens exactly when each of its
calls of `kmalloc` succeeds, one for each of the distinct species, and the species of the filter is
set unless the seed array is empty.
-/

set_option autoImplicit false
set_option relaxedAutoImplicit false

namespace Apes.LinkedList

open Library

/-- `listInitialize`: its result, what it prints, and the state that it leaves. -/
def listInitialize (allocator : Allocator) (sizeofAnimal : ℕ) (type : Option CString)
    (count : UInt32) (seeds : List CString) : Except Fault (ℤ × List Line × ModuleState) := do
  let state ← insertionLoop allocator seeds ModuleState.initial
  let scan ← scanList sizeofAnimal (fun _ ↦ .ok true) false
    "Final Linked List, after removal of duplicate occurrences:" state
  let filters ← checkFilters sizeofAnimal type count state
  pure (0, .text "Initializing the linked list\n" :: scan.log ++
    [.nodes scan.noOfNodes, .memory scan.memSize] ++ filters, state)

/-- The list is the complete one for a seed array: its nodes carry the tally of the seeds. -/
def Complete (seeds : List CString) (state : ModuleState) : Prop :=
  ∃ animals, listEntries state = .ok animals ∧
    animals.map (fun animal ↦ (animal.species, animal.count)) =
      (tallyAll seeds).map fun entry ↦ (entry.1, UInt32.ofNat entry.2)

/-- A load dereferences no `NULL` and hands none to `strcmp`, and it returns zero with the complete
list, or an error with no node left allocated. -/
def ToleratesFailures (allocator : Allocator) (sizeofAnimal : ℕ) (type : Option CString)
    (count : UInt32) (seeds : List CString) : Prop :=
  ∃ result log state,
    listInitialize allocator sizeofAnimal type count seeds = .ok (result, log, state) ∧
      ((result = 0 ∧ Complete seeds state) ∨
        (result ≠ 0 ∧ ∀ address, state.nodes address = none))

section Loads

variable {allocator : Allocator} {sizeofAnimal : ℕ} {type : Option CString} {count : UInt32}
  {seeds : List CString}

/-- A load in which nothing fails returns zero and leaves the complete list. Assumes: the calls of
`kmalloc`, one for each of the distinct species, succeed, and a species is set unless the seed array
is empty. -/
theorem listInitialize_loads
    (hsucceeds : ∀ call < seeds.dedup.length, allocator.succeeds call = true)
    (htype : type.isSome = true ∨ seeds = []) :
    ∃ log state, listInitialize allocator sizeofAnimal type count seeds = .ok (0, log, state) ∧
      insertionLoop allocator seeds ModuleState.initial = .ok state ∧ Complete seeds state := by
  obtain ⟨state, cells, hbuilt, hrepresents, hcells, -⟩ := insertionLoop_spec hsucceeds
  obtain ⟨animals, hentries, hpairs, -⟩ := listEntries_tally hrepresents hcells
  obtain ⟨others, hothers, hdistinct, hlength⟩ := listEntries_distinct hbuilt
  rw [hentries, Except.ok.injEq] at hothers
  subst hothers
  have hset : ∀ animal ∈ animals, type.isSome = true := by
    intro animal hanimal
    obtain hset | rfl := htype
    · exact hset
    · rw [List.length_nil, Nat.le_zero, List.length_eq_zero_iff] at hlength
      rw [hlength] at hanimal
      cases hanimal
  have hload : ∃ log, listInitialize allocator sizeofAnimal type count seeds =
      .ok (0, log, state) := by
    simp only [listInitialize, hbuilt, ok_bind, scanList_unfiltered sizeofAnimal _ hentries,
      checkFilters_spec sizeofAnimal count hentries hdistinct hset, pure_eq_ok]
    exact ⟨_, rfl⟩
  obtain ⟨log, hlog⟩ := hload
  exact ⟨log, state, hlog, hbuilt, animals, hentries, hpairs⟩

/-- A load in which a call of `kmalloc` fails dereferences `NULL`. -/
theorem listInitialize_of_failure
    (hfails : ∃ call < seeds.dedup.length, allocator.succeeds call = false) :
    listInitialize allocator sizeofAnimal type count seeds = .error .nullPointer := by
  rw [listInitialize, insertionLoop_of_failure hfails]
  rfl

/-- A load with seeds and without a species hands `NULL` to `strcmp`. Assumes: the calls of
`kmalloc` succeed. -/
theorem listInitialize_of_null_type
    (hsucceeds : ∀ call < seeds.dedup.length, allocator.succeeds call = true)
    (hseeds : seeds ≠ []) :
    listInitialize allocator sizeofAnimal none count seeds = .error .nullPointer := by
  obtain ⟨state, cells, hbuilt, hrepresents, hcells, -⟩ := insertionLoop_spec hsucceeds
  obtain ⟨animals, hentries, -, hspecies⟩ := listEntries_tally hrepresents hcells
  cases animals with
  | nil =>
    obtain ⟨seed, hseed⟩ := List.exists_mem_of_ne_nil seeds hseeds
    rw [← mem_keys_tallyAll, ← hspecies] at hseed
    cases hseed
  | cons animal rest =>
    have hfault : reportScan sizeofAnimal (typeFilter none) true
        "\n\nWith the type/species filter:" state = .error .nullPointer := by
      rw [reportScan, scanList, scanFrom_of_fault sizeofAnimal true hentries rfl]
      rfl
    simp only [listInitialize, hbuilt, ok_bind, checkFilters,
      scanList_unfiltered sizeofAnimal _ hentries, hfault]
    rfl

/-- **A load tolerates what happens exactly when no allocation fails and the species is set.** For
every seed array, every pattern of successes and failures of `kmalloc` and every setting of the
parameters: each of the calls of `kmalloc`, one for each of the distinct species, succeeds, and
`type` is set unless the seed array is empty. -/
theorem toleratesFailures_iff :
    ToleratesFailures allocator sizeofAnimal type count seeds ↔
      (∀ call < seeds.dedup.length, allocator.succeeds call = true) ∧
        (type.isSome = true ∨ seeds = []) := by
  constructor
  · intro htolerates
    obtain ⟨result, log, state, hload, -⟩ := htolerates
    obtain hsucceeds | hfails := allocator.succeeds_or_fails seeds.dedup.length
    · refine ⟨hsucceeds, ?_⟩
      by_contra hunset
      rw [not_or, Option.not_isSome_iff_eq_none] at hunset
      rw [hunset.1, listInitialize_of_null_type hsucceeds hunset.2] at hload
      cases hload
    · rw [listInitialize_of_failure hfails] at hload
      cases hload
  · intro hcondition
    have hloads : ∃ log state, listInitialize allocator sizeofAnimal type count seeds =
        .ok (0, log, state) ∧ _ ∧ Complete seeds state :=
      listInitialize_loads hcondition.1 hcondition.2
    obtain ⟨log, state, hload, -, hcomplete⟩ := hloads
    exact ⟨0, log, state, hload, Or.inl ⟨rfl, hcomplete⟩⟩

end Loads

/-- **A failing `kmalloc` is not tolerated, and neither is a `type` left unset.** One seed: with a
`kmalloc` that fails, and with one that succeeds but no species for the filter. -/
theorem failing_kmalloc_not_tolerated :
    ¬ ToleratesFailures ⟨fun _ ↦ false, fun _ ↦ ⟨.head, .head⟩⟩ 32
        (some ⟨[102, 111, 120], by decide⟩) 1 [⟨[102, 111, 120], by decide⟩] ∧
      ¬ ToleratesFailures ⟨fun _ ↦ true, fun _ ↦ ⟨.head, .head⟩⟩ 32 none 1
        [⟨[102, 111, 120], by decide⟩] := by
  constructor
  · intro htolerates
    obtain ⟨result, log, state, hload, -⟩ := htolerates
    cases hload
  · intro htolerates
    obtain ⟨result, log, state, hload, -⟩ := htolerates
    cases hload

end Apes.LinkedList
