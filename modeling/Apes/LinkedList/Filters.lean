import Apes.LinkedList.Insertion

/-!
# The filters of `checkFilters`

`checkFilters` prints the list without a filter, with the filter on the species, with the filter on
the count, and with both. Each filtered scan counts the nodes that it prints in `no_of_nodes` and
their size in `mem_size`, which are reset in between, and the scans that compare the species stop at
their first match. A `NULL` species handed to `strcmp` is a fault.

`scanFrom_of_entries` turns a scan through the pointers into one over the nodes that a traversal
visits. The species of a list that `listInitialize` has built are distinct, so a filter that implies
a given species keeps at most one node (`filter_take_one`), and stopping at it loses nothing.
`checkFilters_exact` states the result: what is printed are the full filters of the list.
-/

set_option autoImplicit false
set_option relaxedAutoImplicit false

namespace Apes.LinkedList

open Library

/-! ### The scans -/

/-- A call of `printk`: a text, a node with its species and count, a number of nodes, or a size in
memory. -/
inductive Line
  | text (text : String)
  | node (species : CString) (count : UInt32)
  | nodes (number : UInt32)
  | memory (bytes : UInt32)
  deriving DecidableEq

/-- The variables of a scan, and what has been printed. -/
structure Scan where
  log : List Line
  noOfNodes : UInt32
  memSize : UInt32

/-- The line of a node. -/
def nodeLine (animal : Animal) : Line := .node animal.species animal.count

/-- What a scan does at a node that passes its filter, `sizeof(struct animal)` being a number of
bytes of the target. -/
def Scan.take (sizeofAnimal : ℕ) (animal : Animal) (scan : Scan) : Scan :=
  ⟨scan.log ++ [nodeLine animal], scan.noOfNodes + 1, scan.memSize + UInt32.ofNat sizeofAnimal⟩

/-- A scan from the node `ptr` on, with a filter and with or without the break at a match. -/
def scanFrom (sizeofAnimal : ℕ) (filter : Animal → Except Fault Bool) (breaks : Bool) :
    ℕ → Link → ModuleState → Scan → Except Fault Scan
  | _, .head, _, scan => .ok scan
  | 0, .node _, _, _ => .error .outOfFuel
  | fuel + 1, .node address, state, scan => do
    let animal ← readNode address state
    let passes ← filter animal
    let scan := if passes then scan.take sizeofAnimal animal else scan
    if passes && breaks then pure scan
    else scanFrom sizeofAnimal filter breaks fuel animal.list.next state scan

/-- `list_for_each_entry` with a filter, from `mem_size=0; no_of_nodes=0`, after a text. -/
def scanList (sizeofAnimal : ℕ) (filter : Animal → Except Fault Bool) (breaks : Bool)
    (text : String) (state : ModuleState) : Except Fault Scan :=
  scanFrom sizeofAnimal filter breaks state.allocations state.animalList.next state
    ⟨[.text text], 0, 0⟩

/-- A filtered scan with its two totals. -/
def reportScan (sizeofAnimal : ℕ) (filter : Animal → Except Fault Bool) (breaks : Bool)
    (text : String) (state : ModuleState) : Except Fault (List Line) := do
  let scan ← scanList sizeofAnimal filter breaks text state
  pure (scan.log ++ [.nodes scan.noOfNodes, .memory scan.memSize])

/-- `strcmp(ptr->species, type)==0` -/
def typeFilter (type : Option CString) (animal : Animal) : Except Fault Bool :=
  match type with
  | none => .error .nullPointer
  | some type => .ok (decide (strcmp animal.species type = 0))

/-- `ptr->count>=count` -/
def countFilter (count : UInt32) (animal : Animal) : Except Fault Bool :=
  .ok (decide (animal.count ≥ count))

/-- `strcmp(ptr->species,type)==0 && ptr->count>=count` -/
def bothFilters (type : Option CString) (count : UInt32) (animal : Animal) :
    Except Fault Bool := do
  let same ← typeFilter type animal
  if same then countFilter count animal else pure false

/-- `checkFilters`: what it prints. -/
def checkFilters (sizeofAnimal : ℕ) (type : Option CString) (count : UInt32)
    (state : ModuleState) : Except Fault (List Line) := do
  let unfiltered ← scanList sizeofAnimal (fun _ ↦ .ok true) false "\n\nWithout any filter:\n" state
  let byType ← reportScan sizeofAnimal (typeFilter type) true
    "\n\nWith the type/species filter:" state
  let byCount ← reportScan sizeofAnimal (countFilter count) false "\n\nWith the count filter:" state
  let byBoth ← reportScan sizeofAnimal (bothFilters type count) true "\n\nWith both filters:" state
  pure (unfiltered.log ++ byType ++ byCount ++ byBoth)

/-! ### Scans over the nodes of a traversal -/

/-- The scan after it has taken some nodes. -/
def Scan.takeAll (sizeofAnimal : ℕ) (animals : List Animal) (scan : Scan) : Scan :=
  ⟨scan.log ++ animals.map nodeLine, scan.noOfNodes + UInt32.ofNat animals.length,
    scan.memSize + UInt32.ofNat (animals.length * sizeofAnimal)⟩

theorem Scan.takeAll_nil (sizeofAnimal : ℕ) (scan : Scan) :
    scan.takeAll sizeofAnimal [] = scan := by
  simp [Scan.takeAll]

theorem Scan.takeAll_cons (sizeofAnimal : ℕ) (animal : Animal) (animals : List Animal)
    (scan : Scan) :
    scan.takeAll sizeofAnimal (animal :: animals) =
      (scan.take sizeofAnimal animal).takeAll sizeofAnimal animals := by
  simp only [Scan.takeAll, Scan.take, List.length_cons, List.map_cons, List.append_assoc,
    List.singleton_append, UInt32.ofNat_add, Nat.add_mul, Nat.one_mul, UInt32.add_assoc]
  rw [UInt32.add_comm (UInt32.ofNat animals.length),
    UInt32.add_comm (UInt32.ofNat (animals.length * sizeofAnimal))]
  rfl

/-- A scan through the pointers takes, of the nodes that a traversal visits, those that pass its
filter, or only the first of them if it breaks there. Assumes: the filter does not fault on
them. -/
theorem scanFrom_of_entries (sizeofAnimal : ℕ) {filter : Animal → Except Fault Bool}
    {passes : Animal → Bool} (breaks : Bool) {fuel : ℕ} {link : Link} {state : ModuleState}
    {animals : List Animal} (hentries : entriesFrom fuel link state = .ok animals)
    (hfilter : ∀ animal ∈ animals, filter animal = .ok (passes animal)) (scan : Scan) :
    scanFrom sizeofAnimal filter breaks fuel link state scan =
      .ok (scan.takeAll sizeofAnimal
        (if breaks then (animals.filter passes).take 1 else animals.filter passes)) := by
  induction fuel generalizing link animals scan with
  | zero =>
    cases link with
    | head =>
      rw [entriesFrom, Except.ok.injEq] at hentries
      rw [scanFrom, ← hentries, List.filter_nil, List.take_nil, ite_self, Scan.takeAll_nil]
    | node address => cases hentries
  | succ fuel ih =>
    cases link with
    | head =>
      rw [entriesFrom, Except.ok.injEq] at hentries
      rw [scanFrom, ← hentries, List.filter_nil, List.take_nil, ite_self, Scan.takeAll_nil]
    | node address =>
      obtain ⟨animal, hanimal, hentries⟩ := bind_eq_ok hentries
      obtain ⟨rest, hrest, hentries⟩ := bind_eq_ok hentries
      rw [pure_eq_ok, Except.ok.injEq] at hentries
      subst hentries
      rw [List.forall_mem_cons] at hfilter
      simp only [scanFrom, hanimal, ok_bind, hfilter.1]
      by_cases hpasses : passes animal = true
      · cases breaks with
        | true =>
          simp only [hpasses, if_true, Bool.and_self, pure_eq_ok, List.filter_cons]
          rw [List.take_succ_cons, List.take_zero, Scan.takeAll_cons, Scan.takeAll_nil]
        | false =>
          simp only [hpasses, if_true, Bool.and_false, Bool.false_eq_true, if_false,
            List.filter_cons, Scan.takeAll_cons]
          exact ih hrest hfilter.2 _
      · have hfails : passes animal = false := Bool.not_eq_true _ ▸ hpasses
        simp only [hfails, Bool.false_eq_true, if_false, Bool.false_and, List.filter_cons]
        exact ih hrest hfilter.2 scan

/-- A scan without a filter takes every node that a traversal visits. -/
theorem scanList_unfiltered (sizeofAnimal : ℕ) (text : String) {state : ModuleState}
    {animals : List Animal} (hentries : listEntries state = .ok animals) :
    scanList sizeofAnimal (fun _ ↦ .ok true) false text state =
      .ok (Scan.takeAll sizeofAnimal animals ⟨[.text text], 0, 0⟩) := by
  have hfilter : ∀ animal ∈ animals, (Except.ok true : Except Fault Bool) = .ok true :=
    fun _ _ ↦ rfl
  have hscan := scanFrom_of_entries sizeofAnimal false hentries hfilter ⟨[.text text], 0, 0⟩
  rw [List.filter_true, if_neg Bool.false_ne_true] at hscan
  exact hscan

/-- A scan faults when its filter faults on the first node. -/
theorem scanFrom_of_fault (sizeofAnimal : ℕ) {filter : Animal → Except Fault Bool} (breaks : Bool)
    {fuel : ℕ} {link : Link} {state : ModuleState} {animal : Animal} {rest : List Animal}
    {fault : Fault} (hentries : entriesFrom fuel link state = .ok (animal :: rest))
    (hfilter : filter animal = .error fault) (scan : Scan) :
    scanFrom sizeofAnimal filter breaks fuel link state scan = .error fault := by
  match fuel, link with
  | 0, .head => cases hentries
  | fuel + 1, .head => cases hentries
  | 0, .node address => cases hentries
  | fuel + 1, .node address =>
    obtain ⟨first, hfirst, hentries⟩ := bind_eq_ok hentries
    obtain ⟨others, -, hentries⟩ := bind_eq_ok hentries
    rw [pure_eq_ok, Except.ok.injEq, List.cons.injEq] at hentries
    simp only [scanFrom, hfirst, ok_bind, hentries.1, hfilter]
    rfl

/-! ### Filters on distinct species -/

/-- What `checkFilters` prints for a filter that keeps some nodes of the list. -/
def filterReport (sizeofAnimal : ℕ) (text : String) (kept : List Animal) : List Line :=
  .text text :: kept.map nodeLine ++
    [.nodes (UInt32.ofNat kept.length), .memory (UInt32.ofNat (kept.length * sizeofAnimal))]

/-- The filter on the species, when one is set. -/
theorem typeFilter_of_isSome {type : Option CString} (htype : type.isSome = true)
    (animal : Animal) : typeFilter type animal = .ok (decide (some animal.species = type)) := by
  obtain ⟨species, rfl⟩ := Option.isSome_iff_exists.mp htype
  simp only [typeFilter, strcmp_eq_zero_iff, Option.some.injEq]

/-- Both filters, when a species is set. -/
theorem bothFilters_of_isSome {type : Option CString} (htype : type.isSome = true)
    (count : UInt32) (animal : Animal) :
    bothFilters type count animal =
      .ok (decide (some animal.species = type ∧ animal.count ≥ count)) := by
  rw [bothFilters, typeFilter_of_isSome htype, ok_bind]
  by_cases hsame : some animal.species = type
  · simp only [hsame, countFilter, decide_true, if_true, true_and]
  · simp only [hsame, decide_false, Bool.false_eq_true, if_false, false_and, pure_eq_ok]

/-- In a list of distinct species a filter that implies a given species keeps at most one node. -/
theorem filter_take_one {type : Option CString} {passes : Animal → Bool} {animals : List Animal}
    (hpasses : ∀ animal, passes animal = true → some animal.species = type)
    (hdistinct : (animals.map Animal.species).Nodup) :
    (animals.filter passes).take 1 = animals.filter passes := by
  induction animals with
  | nil => rfl
  | cons animal animals ih =>
    rw [List.map_cons, List.nodup_cons] at hdistinct
    by_cases hanimal : passes animal = true
    · have hothers : animals.filter passes = [] := by
        rw [List.filter_eq_nil_iff]
        intro other hother hpass
        have hsame : animal.species = other.species :=
          Option.some.inj ((hpasses animal hanimal).trans (hpasses other hpass).symm)
        apply hdistinct.1
        rw [hsame]
        exact List.mem_map_of_mem hother
      rw [List.filter_cons_of_pos hanimal, hothers]
      rfl
    · rw [List.filter_cons_of_neg hanimal]
      exact ih hdistinct.2

/-- A filtered scan with its totals reports the nodes that pass. Assumes: the filter does not fault
on the nodes, and if the scan breaks at a match, one node is all that passes. -/
theorem reportScan_spec (sizeofAnimal : ℕ) {filter : Animal → Except Fault Bool}
    {passes : Animal → Bool} (breaks : Bool) (text : String) {state : ModuleState}
    {animals : List Animal} (hentries : listEntries state = .ok animals)
    (hfilter : ∀ animal ∈ animals, filter animal = .ok (passes animal))
    (hone : breaks = true → (animals.filter passes).take 1 = animals.filter passes) :
    reportScan sizeofAnimal filter breaks text state =
      .ok (filterReport sizeofAnimal text (animals.filter passes)) := by
  have hkept : (if breaks then (animals.filter passes).take 1 else animals.filter passes) =
      animals.filter passes := by
    split_ifs with hbreaks
    · exact hone hbreaks
    · rfl
  have hscan := scanFrom_of_entries sizeofAnimal breaks hentries hfilter ⟨[.text text], 0, 0⟩
  rw [hkept] at hscan
  simp only [reportScan, scanList, hscan, ok_bind, pure_eq_ok, Scan.takeAll, UInt32.zero_add,
    filterReport, List.singleton_append]

/-- What `checkFilters` prints for a list of distinct species. Assumes: a species is set unless the
list is empty. -/
theorem checkFilters_spec (sizeofAnimal : ℕ) {type : Option CString} (count : UInt32)
    {state : ModuleState} {animals : List Animal} (hentries : listEntries state = .ok animals)
    (hdistinct : (animals.map Animal.species).Nodup)
    (htype : ∀ animal ∈ animals, type.isSome = true) :
    checkFilters sizeofAnimal type count state =
      .ok (.text "\n\nWithout any filter:\n" :: animals.map nodeLine ++
        filterReport sizeofAnimal "\n\nWith the type/species filter:"
          (animals.filter fun animal ↦ some animal.species = type) ++
        filterReport sizeofAnimal "\n\nWith the count filter:"
          (animals.filter fun animal ↦ animal.count ≥ count) ++
        filterReport sizeofAnimal "\n\nWith both filters:"
          (animals.filter fun animal ↦ some animal.species = type ∧ animal.count ≥ count)) := by
  have hunfiltered := scanList_unfiltered sizeofAnimal "\n\nWithout any filter:\n" hentries
  have htypeReport := reportScan_spec sizeofAnimal true "\n\nWith the type/species filter:" hentries
    (fun animal hanimal ↦ typeFilter_of_isSome (htype animal hanimal) animal)
    fun _ ↦ filter_take_one (fun _ hpass ↦ of_decide_eq_true hpass) hdistinct
  have hcountReport := reportScan_spec sizeofAnimal false "\n\nWith the count filter:" hentries
    (fun animal _ ↦ (rfl : countFilter count animal = .ok (decide (animal.count ≥ count)))) nofun
  have hbothReport := reportScan_spec sizeofAnimal true "\n\nWith both filters:" hentries
    (fun animal hanimal ↦ bothFilters_of_isSome (htype animal hanimal) count animal)
    fun _ ↦ filter_take_one (fun _ hpass ↦ (of_decide_eq_true hpass).1) hdistinct
  simp only [checkFilters, hunfiltered, htypeReport, hcountReport, hbothReport, ok_bind, pure_eq_ok,
    Scan.takeAll, List.singleton_append]

/-- The species of a list that the insertion loop has built are distinct, and there are at most as
many as seeds. -/
theorem listEntries_distinct {allocator : Allocator} {seeds : List CString} {state : ModuleState}
    (hbuilt : insertionLoop allocator seeds ModuleState.initial = .ok state) :
    ∃ animals, listEntries state = .ok animals ∧ (animals.map Animal.species).Nodup ∧
      animals.length ≤ seeds.length := by
  obtain ⟨cells, hrepresents, hcells, -⟩ := represents_of_insertionLoop hbuilt
  obtain ⟨animals, hanimals, -, hspecies⟩ := listEntries_tally hrepresents hcells
  refine ⟨animals, hanimals, ?_, ?_⟩
  · rw [hspecies, List.Nodup, List.pairwise_map]
    exact (sortedKeys_tallyAll seeds).imp fun hlt ↦ hlt.ne
  · have hlength := congrArg List.length hspecies
    rw [List.length_map, List.length_map, length_tallyAll] at hlength
    rw [hlength]
    exact (List.dedup_sublist seeds).length_le

/-- **The filters agree with full scans.** For every list that the insertion loop can build, every
species and every threshold, `checkFilters` prints under each filter exactly the nodes of the list
that pass it, in list order, their number, and this number times the size of a node, although the
scans that compare the species stop at their first match. The totals are `unsigned int`s; the
numbers of nodes are exact as long as the index of the insertion loop is, and the sizes as long as
as many nodes as seeds fit into 32 bits. -/
theorem checkFilters_exact {allocator : Allocator} {seeds : List CString} {state : ModuleState}
    (hbuilt : insertionLoop allocator seeds ModuleState.initial = .ok state) (sizeofAnimal : ℕ)
    (type : CString) (count : UInt32) :
    ∃ animals, listEntries state = .ok animals ∧
      checkFilters sizeofAnimal (some type) count state =
        .ok (.text "\n\nWithout any filter:\n" :: animals.map nodeLine ++
          filterReport sizeofAnimal "\n\nWith the type/species filter:"
            (animals.filter fun animal ↦ animal.species = type) ++
          filterReport sizeofAnimal "\n\nWith the count filter:"
            (animals.filter fun animal ↦ animal.count ≥ count) ++
          filterReport sizeofAnimal "\n\nWith both filters:"
            (animals.filter fun animal ↦ animal.species = type ∧ animal.count ≥ count)) ∧
      ∀ passes : Animal → Bool,
        (seeds.length < 4294967296 →
          (UInt32.ofNat (animals.filter passes).length).toNat = (animals.filter passes).length) ∧
        (seeds.length * sizeofAnimal < 4294967296 →
          (UInt32.ofNat ((animals.filter passes).length * sizeofAnimal)).toNat =
            (animals.filter passes).length * sizeofAnimal) := by
  obtain ⟨animals, hentries, hdistinct, hlength⟩ := listEntries_distinct hbuilt
  refine ⟨animals, hentries, ?_, fun passes ↦ ?_⟩
  · have hcheck := checkFilters_spec sizeofAnimal count hentries hdistinct
      (fun _ _ ↦ rfl : ∀ animal ∈ animals, (some type).isSome = true)
    simp only [Option.some.injEq] at hcheck
    exact hcheck
  · have hkept := (List.length_filter_le passes animals).trans hlength
    have hsize := Nat.mul_le_mul_right sizeofAnimal hkept
    exact ⟨fun hseeds ↦ UInt32.toNat_ofNat_of_lt' (hkept.trans_lt hseeds),
      fun hmemory ↦ UInt32.toNat_ofNat_of_lt' (hsize.trans_lt hmemory)⟩

/-- The filters on the list of the seeds `fox`, `dog`, `fox`, for the species `fox` and a threshold
of two, with nodes of 32 bytes. -/
theorem checkFilters_exact_fox :
    ∃ state, insertionLoop ⟨fun _ ↦ true, fun _ ↦ ⟨.head, .head⟩⟩
        [⟨[102, 111, 120], by decide⟩, ⟨[100, 111, 103], by decide⟩, ⟨[102, 111, 120], by decide⟩]
        ModuleState.initial = .ok state ∧
      ∃ animals, listEntries state = .ok animals ∧
        checkFilters 32 (some ⟨[102, 111, 120], by decide⟩) 2 state =
          .ok (.text "\n\nWithout any filter:\n" :: animals.map nodeLine ++
            filterReport 32 "\n\nWith the type/species filter:"
              (animals.filter fun animal ↦ animal.species = ⟨[102, 111, 120], by decide⟩) ++
            filterReport 32 "\n\nWith the count filter:"
              (animals.filter fun animal ↦ animal.count ≥ 2) ++
            filterReport 32 "\n\nWith both filters:"
              (animals.filter fun animal ↦
                animal.species = ⟨[102, 111, 120], by decide⟩ ∧ animal.count ≥ 2)) := by
  let allocator : Allocator := ⟨fun _ ↦ true, fun _ ↦ ⟨.head, .head⟩⟩
  obtain ⟨state, -, hstate, -⟩ :=
    insertionLoop_spec fun _ _ ↦ (rfl : allocator.succeeds _ = true)
  obtain ⟨animals, hentries, hcheck, -⟩ := checkFilters_exact hstate 32 _ 2
  exact ⟨state, hstate, animals, hentries, hcheck⟩

end Apes.LinkedList
