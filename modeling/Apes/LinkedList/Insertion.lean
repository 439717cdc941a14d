import Apes.LinkedList.ListModule
import Apes.Library.LinkRing
import Apes.Library.SortedTally

/-!
# The list built by `listInitialize`

The pointer-level list of `ListModule` is connected to the tally of `SortedTally`: the state
`Represents` a list of cells when the nodes of the cells form a ring through `animal_list`, in
order, every allocated node is one of them, and each node carries the species and the count of its
cell.

`listAddTail_spec` describes one call of `list_add_tail` through the forward and backward links it
leaves, and `insert_spec` uses `IsRing.splice` to conclude that a node allocated and linked in
before a cell, or before the head, is a cell at that place. `searchLoop_spec` follows the search
down the list by induction on the cells still ahead: what it does to them is what `tally` does.
`insertSeed_spec` and `insertionLoop_spec` are the step and the run, `insertSeed_of_failure` and
`insertionLoop_of_failure` those of a `kmalloc` that returns `NULL`. `listEntries_spec` reads the
cells back by a forward traversal, and `listInitialize_counts` states the result: after the loop the
traversal gives strictly increasing species, exactly those of the seed array, each with its number
of occurrences.
-/

set_option autoImplicit false
set_option relaxedAutoImplicit false

namespace Apes.LinkedList

open Library

/-! ### Links and payloads of a state -/

/-- The `list_head` at a link, undefined at dead nodes. -/
def linkAt (state : ModuleState) : Link → Option ListHead
  | .head => some state.animalList
  | .node address => (state.nodes address).map Animal.list

/-- The forward link of a link. -/
def nextAt (state : ModuleState) (link : Link) : Option Link :=
  (linkAt state link).map ListHead.next

/-- The backward link of a link. -/
def prevAt (state : ModuleState) (link : Link) : Option Link :=
  (linkAt state link).map ListHead.prev

/-- The species and the count of a node. -/
def payloadAt (state : ModuleState) (address : ℕ) : Option (CString × UInt32) :=
  (state.nodes address).map fun animal ↦ (animal.species, animal.count)

/-- Two states with the same nodes up to their links. -/
structure SameNodes (before after : ModuleState) : Prop where
  payload : ∀ address, payloadAt after address = payloadAt before address
  allocations : after.allocations = before.allocations
  headAssignments : after.headAssignments = before.headAssignments

theorem SameNodes.trans {first second third : ModuleState} (hfirst : SameNodes first second)
    (hsecond : SameNodes second third) : SameNodes first third :=
  ⟨fun address ↦ (hsecond.payload address).trans (hfirst.payload address),
    hsecond.allocations.trans hfirst.allocations,
    hsecond.headAssignments.trans hfirst.headAssignments⟩

theorem readLink_of_linkAt {state : ModuleState} {link : Link} {list : ListHead}
    (hlist : linkAt state link = some list) : readLink link state = .ok list := by
  cases link with
  | head =>
    rw [linkAt, Option.some.injEq] at hlist
    rw [readLink, hlist]
  | node address =>
    obtain ⟨animal, hanimal, rfl⟩ := Option.map_eq_some_iff.mp hlist
    simp only [readLink, readNode, hanimal, ok_bind, pure_eq_ok]

/-- Writing a live link changes that link and nothing else. -/
theorem writeLink_spec {state : ModuleState} {link : Link} {old : ListHead}
    (hold : linkAt state link = some old) (value : ListHead) :
    ∃ after, writeLink link value state = .ok after ∧
      linkAt after = Function.update (linkAt state) link (some value) ∧
      SameNodes state after := by
  cases link with
  | head =>
    refine ⟨{ state with animalList := value }, rfl, ?_, fun _ ↦ rfl, rfl, rfl⟩
    funext cell
    cases cell with
    | head => rw [Function.update_self, linkAt]
    | node address => rw [Function.update_of_ne (by simp), linkAt, linkAt]
  | node address =>
    obtain ⟨animal, hanimal, rfl⟩ := Option.map_eq_some_iff.mp hold
    refine ⟨{ state with
      nodes := Function.update state.nodes address (some { animal with list := value }) },
      by simp only [writeLink, readNode, writeNode, hanimal, ok_bind], ?_, fun other ↦ ?_, rfl, rfl⟩
    · funext cell
      cases cell with
      | head => rw [Function.update_of_ne (by simp), linkAt, linkAt]
      | node other =>
        by_cases hsame : other = address
        · subst hsame
          simp [linkAt]
        · have hlink : Link.node other ≠ Link.node address := fun h ↦ hsame (Link.node.inj h)
          simp only [linkAt, Function.update_of_ne hlink, Function.update_of_ne hsame]
    · by_cases hsame : other = address
      · subst hsame
        simp [payloadAt, hanimal]
      · simp only [payloadAt, Function.update_of_ne hsame]

/-- A link with a forward link is live. -/
theorem exists_linkAt {state : ModuleState} {link : Link} (hlive : (nextAt state link).isSome) :
    ∃ list, linkAt state link = some list := by
  obtain ⟨target, htarget⟩ := Option.isSome_iff_exists.mp hlive
  obtain ⟨list, hlist, -⟩ := Option.map_eq_some_iff.mp htarget
  exact ⟨list, hlist⟩

/-- `link->next = target` on a live link. -/
theorem setNext_spec {state : ModuleState} {link : Link} (hlive : (nextAt state link).isSome)
    (target : Link) :
    ∃ after, setNext link target state = .ok after ∧
      nextAt after = Function.update (nextAt state) link (some target) ∧
      prevAt after = prevAt state ∧ SameNodes state after := by
  obtain ⟨list, hlist⟩ := exists_linkAt hlive
  obtain ⟨after, hafter, hlinks, hsame⟩ := writeLink_spec hlist { list with next := target }
  refine ⟨after, by rw [setNext, readLink_of_linkAt hlist, ok_bind, hafter], ?_, ?_, hsame⟩
  · funext cell
    by_cases hcell : cell = link
    · subst hcell
      simp [nextAt, hlinks]
    · simp only [nextAt, hlinks, Function.update_of_ne hcell]
  · funext cell
    by_cases hcell : cell = link
    · subst hcell
      simp [prevAt, hlinks, hlist]
    · simp only [prevAt, hlinks, Function.update_of_ne hcell]

/-- `link->prev = target` on a live link. -/
theorem setPrev_spec {state : ModuleState} {link : Link} (hlive : (nextAt state link).isSome)
    (target : Link) :
    ∃ after, setPrev link target state = .ok after ∧ nextAt after = nextAt state ∧
      prevAt after = Function.update (prevAt state) link (some target) ∧ SameNodes state after := by
  obtain ⟨list, hlist⟩ := exists_linkAt hlive
  obtain ⟨after, hafter, hlinks, hsame⟩ := writeLink_spec hlist { list with prev := target }
  refine ⟨after, by rw [setPrev, readLink_of_linkAt hlist, ok_bind, hafter], ?_, ?_, hsame⟩
  · funext cell
    by_cases hcell : cell = link
    · subst hcell
      simp [nextAt, hlinks, hlist]
    · simp only [nextAt, hlinks, Function.update_of_ne hcell]
  · funext cell
    by_cases hcell : cell = link
    · subst hcell
      simp [prevAt, hlinks]
    · simp only [prevAt, hlinks, Function.update_of_ne hcell]

/-- `list_add_tail` changes the forward links of the previous cell and of the new node, and the
backward links of the position and of the new node. Assumes: the three links are live and the new
one is distinct from the other two. -/
theorem listAddTail_spec {state : ModuleState} {new position previous : Link}
    (hposition : (nextAt state position).isSome) (hnew : (nextAt state new).isSome)
    (hprevious : (nextAt state previous).isSome) (hback : prevAt state position = some previous)
    (hdistinct : new ≠ previous) :
    ∃ after, listAddTail new position state = .ok after ∧
      nextAt after = Function.update (Function.update (nextAt state) new (some position)) previous
        (some new) ∧
      prevAt after = Function.update (Function.update (prevAt state) position (some new)) new
        (some previous) ∧
      SameNodes state after := by
  obtain ⟨list, hlist⟩ := exists_linkAt hposition
  have hlistPrev : list.prev = previous := by
    rw [prevAt, hlist, Option.map_some, Option.some.injEq] at hback
    exact hback
  obtain ⟨first, hfirst, hfirstNext, hfirstPrev, hfirstSame⟩ := setPrev_spec hposition new
  obtain ⟨second, hsecond, hsecondNext, hsecondPrev, hsecondSame⟩ :=
    setNext_spec (hfirstNext ▸ hnew) position
  have hsecondLive : (nextAt second new).isSome := by
    rw [hsecondNext, Function.update_self]
    rfl
  obtain ⟨third, hthird, hthirdNext, hthirdPrev, hthirdSame⟩ := setPrev_spec hsecondLive previous
  have hthirdLive : (nextAt third previous).isSome := by
    rw [hthirdNext, hsecondNext, Function.update_of_ne hdistinct.symm, hfirstNext]
    exact hprevious
  obtain ⟨last, hlast, hlastNext, hlastPrev, hlastSame⟩ := setNext_spec hthirdLive new
  refine ⟨last, ?_, ?_, ?_, hfirstSame.trans (hsecondSame.trans (hthirdSame.trans hlastSame))⟩
  · simp only [listAddTail, readLink_of_linkAt hlist, ok_bind, hlistPrev, hfirst, hsecond, hthird,
      hlast]
  · rw [hlastNext, hthirdNext, hsecondNext, hfirstNext]
  · rw [hlastPrev, hthirdPrev, hsecondPrev, hfirstPrev]

/-! ### The represented list -/

/-- The links of a list of cells, each a node with its species and its count. -/
def links (cells : List (ℕ × (CString × ℕ))) : List Link := cells.map fun cell ↦ .node cell.1

/-- The link of the first cell, that of the head when there is none. -/
def firstLink : List (ℕ × (CString × ℕ)) → Link
  | [] => .head
  | cell :: _ => .node cell.1

@[simp] theorem firstLink_cons (cell : ℕ × (CString × ℕ)) (rest : List (ℕ × (CString × ℕ))) :
    firstLink (cell :: rest) = .node cell.1 := rfl

/-- The state is a ring of the nodes of the cells, in order: every allocated node is one of them,
each carries the species and the count of its cell, and no other node is live. -/
structure Represents (state : ModuleState) (cells : List (ℕ × (CString × ℕ))) : Prop where
  ring : IsRing (nextAt state) (prevAt state) .head (links cells)
  addresses : (cells.map Prod.fst).Perm (List.range state.allocations)
  payload : ∀ cell ∈ cells, payloadAt state cell.1 = some (cell.2.1, UInt32.ofNat cell.2.2)
  fresh : ∀ address, state.allocations ≤ address → payloadAt state address = none

/-- The initial state represents the empty list. -/
theorem represents_initial : Represents ModuleState.initial [] :=
  ⟨isRing_nil_iff.mpr ⟨rfl, rfl⟩, .refl _, fun _ hcell ↦ absurd hcell List.not_mem_nil,
    fun _ _ ↦ rfl⟩

variable {state : ModuleState} {cells front back : List (ℕ × (CString × ℕ))}

@[simp] theorem links_append (front back : List (ℕ × (CString × ℕ))) :
    links (front ++ back) = links front ++ links back := List.map_append

@[simp] theorem links_cons (cell : ℕ × (CString × ℕ)) (back : List (ℕ × (CString × ℕ))) :
    links (cell :: back) = .node cell.1 :: links back := rfl

/-- The links followed by the head start with the first link. -/
theorem exists_firstLink_cons (cells : List (ℕ × (CString × ℕ))) :
    ∃ tail, links cells ++ [Link.head] = firstLink cells :: tail := by
  cases cells with
  | nil => exact ⟨[], rfl⟩
  | cons cell rest => exact ⟨_, rfl⟩

/-- The address of a cell is one that has been allocated. -/
theorem Represents.lt_allocations (hstate : Represents state cells) {cell : ℕ × (CString × ℕ)}
    (hcell : cell ∈ cells) : cell.1 < state.allocations :=
  List.mem_range.mp (hstate.addresses.mem_iff.mp (List.mem_map_of_mem hcell))

/-- The number of cells is the number of calls of `kmalloc`. -/
theorem Represents.length_eq (hstate : Represents state cells) :
    cells.length = state.allocations := by
  have hlength := hstate.addresses.length_eq
  rwa [List.length_map, List.length_range] at hlength

/-- `kmalloc` has been called as often as there are entries in the list that the cells carry. -/
theorem Represents.allocations_eq {entries : List (CString × ℕ)} (hstate : Represents state cells)
    (hcells : cells.map Prod.snd = entries) : state.allocations = entries.length := by
  rw [← hstate.length_eq, ← hcells, List.length_map]

/-- The links of a represented list are distinct. -/
theorem Represents.nodup (hstate : Represents state cells) : (Link.head :: links cells).Nodup := by
  refine List.nodup_cons.mpr ⟨by simp [links], ?_⟩
  have haddresses : (cells.map Prod.fst).Nodup := hstate.addresses.nodup_iff.mpr List.nodup_range
  have hlinks : links cells = (cells.map Prod.fst).map Link.node := by simp [links]
  exact hlinks ▸ haddresses.map fun _ _ hsame ↦ Link.node.inj hsame

/-- The head and the cells of a represented list are live, and are not the node allocated next. -/
theorem Represents.live (hstate : Represents state cells) {link : Link}
    (hlink : link ∈ Link.head :: links cells) :
    (nextAt state link).isSome ∧ link ≠ .node state.allocations := by
  rcases List.mem_cons.mp hlink with rfl | hcell
  · exact ⟨rfl, by simp⟩
  · obtain ⟨cell, hmem, rfl⟩ := List.mem_map.mp hcell
    obtain ⟨animal, hanimal, -⟩ := Option.map_eq_some_iff.mp (hstate.payload cell hmem)
    refine ⟨by simp [nextAt, linkAt, hanimal], fun hsame ↦ ?_⟩
    exact (hstate.lt_allocations hmem).ne (Link.node.inj hsame)

/-- The two neighbours of a place in a represented list: the cell up to it and the cell after it,
both of the ring, the backward link of the second leading to the first. -/
theorem Represents.neighbours (hstate : Represents state (front ++ back)) :
    ∃ init first tail, Link.head :: links front = init ++ [first] ∧
      links back ++ [Link.head] = firstLink back :: tail ∧
      first ∈ Link.head :: links (front ++ back) ∧
      firstLink back ∈ Link.head :: links (front ++ back) ∧
      prevAt state (firstLink back) = some first := by
  obtain ⟨tail, hsecond⟩ := exists_firstLink_cons back
  obtain ⟨init, first, hfirst⟩ : ∃ init first, Link.head :: links front = init ++ [first] :=
    (List.eq_nil_or_concat' _).resolve_left (List.cons_ne_nil _ _)
  have hring := hstate.ring
  have hsplit : Link.head :: (links front ++ links back) ++ [Link.head] =
      init ++ first :: firstLink back :: tail := by
    rw [← List.cons_append, hfirst, List.append_assoc, hsecond, List.append_assoc]
    rfl
  rw [links_append] at hring
  refine ⟨init, first, tail, hfirst, hsecond, ?_, ?_, hring.prev_eq hsplit⟩
  · rw [links_append, ← List.cons_append, hfirst]
    simp
  · cases back with
    | nil => exact List.mem_cons_self
    | cons cell rest => simp

/-! ### Inserting a node -/

/-- Each of a number of allocations succeeds, or one of them fails. -/
theorem Allocator.succeeds_or_fails (allocator : Allocator) (calls : ℕ) :
    (∀ call < calls, allocator.succeeds call = true) ∨
      ∃ call < calls, allocator.succeeds call = false := by
  by_cases hfails : ∃ call < calls, allocator.succeeds call = false
  · exact Or.inr hfails
  · exact Or.inl fun call hcall ↦ Bool.of_not_eq_false fun hfail ↦ hfails ⟨call, hcall, hfail⟩

/-- A failing allocation dereferences `NULL`. -/
theorem newAnimal_of_failure {allocator : Allocator} (seed : CString)
    (hfails : allocator.succeeds state.allocations = false) :
    newAnimal allocator seed state = .error .nullPointer := by
  rw [newAnimal, hfails]
  rfl

/-- A successful allocation adds a node with the seed and a count of one, and changes no other. -/
theorem newAnimal_spec {allocator : Allocator} (seed : CString)
    (hsucceeds : allocator.succeeds state.allocations = true) :
    ∃ after, newAnimal allocator seed state = .ok (state.allocations, after) ∧
      (nextAt after (.node state.allocations)).isSome ∧
      (∀ link, link ≠ .node state.allocations →
        nextAt after link = nextAt state link ∧ prevAt after link = prevAt state link) ∧
      payloadAt after state.allocations = some (seed, 1) ∧
      (∀ address, address ≠ state.allocations →
        payloadAt after address = payloadAt state address) ∧
      after.allocations = state.allocations + 1 ∧
      after.headAssignments = state.headAssignments := by
  refine ⟨_, if_pos hsucceeds, ?_, fun link hlink ↦ ?_, ?_, fun address haddress ↦ ?_, rfl, rfl⟩
  · simp [nextAt, linkAt]
  · cases link with
    | head => exact ⟨rfl, rfl⟩
    | node address =>
      have haddress : address ≠ state.allocations := fun h ↦ hlink (congrArg Link.node h)
      simp only [nextAt, prevAt, linkAt, Function.update_of_ne haddress, and_self]
  · simp [payloadAt]
  · simp only [payloadAt, Function.update_of_ne haddress]

/-- A node allocated for a seed and linked in before a cell, or before the head, is a new cell at
that place with a count of one. Assumes: the allocation succeeds. -/
theorem insert_spec {allocator : Allocator} (seed : CString)
    (hstate : Represents state (front ++ back))
    (hsucceeds : allocator.succeeds state.allocations = true) :
    ∃ allocated after, newAnimal allocator seed state = .ok (state.allocations, allocated) ∧
      listAddTail (.node state.allocations) (firstLink back) allocated = .ok after ∧
      Represents after (front ++ (state.allocations, (seed, 1)) :: back) ∧
      after.headAssignments = state.headAssignments := by
  obtain ⟨allocated, hallocated, hnewLive, hothers, hpayload, hpayloads, hcount, hhead⟩ :=
    newAnimal_spec seed hsucceeds
  obtain ⟨init, first, tail, hfirst, hsecond, hfirstMem, hsecondMem, hback⟩ := hstate.neighbours
  have hfirstLive := hstate.live hfirstMem
  have hsecondLive := hstate.live hsecondMem
  obtain ⟨hfirstNext, -⟩ := hothers _ hfirstLive.2
  obtain ⟨hsecondNext, hsecondPrev⟩ := hothers _ hsecondLive.2
  obtain ⟨after, hafter, hnext, hprev, hsame⟩ := listAddTail_spec
    (hsecondNext ▸ hsecondLive.1) hnewLive (hfirstNext ▸ hfirstLive.1)
    (hsecondPrev.trans hback) hfirstLive.2.symm
  refine ⟨allocated, after, hallocated, hafter, ⟨?_, ?_, ?_, ?_⟩,
    hsame.headAssignments.trans hhead⟩
  · have hring := hstate.ring
    have hdistinct := hstate.nodup
    rw [links_append] at hring hdistinct ⊢
    refine hring.splice hdistinct (fun hmem ↦ (hstate.live (links_append _ _ ▸ hmem)).2 rfl)
      hfirst hsecond ?_ ?_ ?_ ?_ (fun cell hcellFirst hcellNew ↦ ?_)
      fun cell hcellSecond hcellNew ↦ ?_
    · rw [hnext, Function.update_self]
    · rw [hnext, Function.update_of_ne hfirstLive.2.symm, Function.update_self]
    · rw [hprev, Function.update_of_ne hsecondLive.2, Function.update_self]
    · rw [hprev, Function.update_self]
    · rw [hnext, Function.update_of_ne hcellFirst, Function.update_of_ne hcellNew,
        (hothers cell hcellNew).1]
    · rw [hprev, Function.update_of_ne hcellNew, Function.update_of_ne hcellSecond,
        (hothers cell hcellNew).2]
  · rw [hsame.allocations, hcount, List.range_succ, List.map_append, List.map_cons]
    refine List.perm_middle.trans ?_
    rw [← List.map_append]
    exact (hstate.addresses.cons _).trans (List.perm_append_singleton _ _).symm
  · intro cell hcell
    rw [hsame.payload]
    rcases List.mem_append.mp hcell with hfront | hrest
    · have hmem := List.mem_append_left back hfront
      rw [hpayloads _ (hstate.lt_allocations hmem).ne, hstate.payload cell hmem]
    · rcases List.mem_cons.mp hrest with rfl | hback
      · exact hpayload
      · have hmem := List.mem_append_right front hback
        rw [hpayloads _ (hstate.lt_allocations hmem).ne, hstate.payload cell hmem]
  · intro address haddress
    rw [hsame.allocations, hcount] at haddress
    rw [hsame.payload, hpayloads _ (Nat.ne_of_gt haddress)]
    exact hstate.fresh address (Nat.le_of_succ_le haddress)

/-! ### One seed -/

/-- The list starts with its first cell. -/
theorem Represents.animalList_next (hstate : Represents state cells) :
    state.animalList.next = firstLink cells := by
  obtain ⟨tail, htail⟩ := exists_firstLink_cons cells
  have hsplit : Link.head :: links cells ++ [Link.head] =
      [] ++ Link.head :: firstLink cells :: tail := by
    rw [List.cons_append, htail, List.nil_append]
  exact Option.some.inj (hstate.ring.next_eq hsplit)

/-- The node of a cell: it carries the species and the count, and leads to the next cell. -/
theorem Represents.readNode_cell {cell : ℕ × (CString × ℕ)}
    (hstate : Represents state (front ++ cell :: back)) :
    ∃ animal, state.nodes cell.1 = some animal ∧ animal.species = cell.2.1 ∧
      animal.count = UInt32.ofNat cell.2.2 ∧ animal.list.next = firstLink back := by
  obtain ⟨tail, htail⟩ := exists_firstLink_cons back
  obtain ⟨animal, hanimal, hpayload⟩ :=
    Option.map_eq_some_iff.mp (hstate.payload cell (by simp))
  obtain ⟨hspecies, hcount⟩ := Prod.mk.inj hpayload
  refine ⟨animal, hanimal, hspecies, hcount, ?_⟩
  have hsplit : Link.head :: links (front ++ cell :: back) ++ [Link.head] =
      (Link.head :: links front) ++ .node cell.1 :: firstLink back :: tail := by
    simp [← htail]
  have hnext := hstate.ring.next_eq hsplit
  rw [nextAt, linkAt, hanimal] at hnext
  exact Option.some.inj hnext

/-- Another count of a node leaves every link as it was. -/
theorem linkAt_update_count {address : ℕ} {animal : Animal} (count : UInt32)
    (hanimal : state.nodes address = some animal) :
    linkAt { state with
      nodes := Function.update state.nodes address (some { animal with count := count }) } =
      linkAt state := by
  funext link
  cases link with
  | head => rfl
  | node other =>
    by_cases hsame : other = address
    · simp [linkAt, hsame, hanimal]
    · simp only [linkAt, Function.update_of_ne hsame]

/-- Raising the count of a node raises the count of its cell. -/
theorem raise_spec {cell : ℕ × (CString × ℕ)} {animal : Animal}
    (hstate : Represents state (front ++ cell :: back))
    (hanimal : state.nodes cell.1 = some animal) (hspecies : animal.species = cell.2.1)
    (hcount : animal.count = UInt32.ofNat cell.2.2) :
    ∃ after, writeNode cell.1 { animal with count := animal.count + 1 } state = .ok after ∧
      Represents after (front ++ (cell.1, (cell.2.1, cell.2.2 + 1)) :: back) ∧
      after.headAssignments = state.headAssignments := by
  set raised : ModuleState := { state with
    nodes := Function.update state.nodes cell.1 (some { animal with count := animal.count + 1 }) }
    with hraised
  have hlink : linkAt raised = linkAt state := linkAt_update_count _ hanimal
  have hnodup := hstate.addresses.nodup_iff.mpr List.nodup_range
  rw [List.map_append, List.map_cons, List.nodup_middle, List.nodup_cons, ← List.map_append]
    at hnodup
  refine ⟨raised, by simp only [writeNode, hanimal, hraised], ⟨?_, ?_, ?_, ?_⟩, rfl⟩
  · have hnext : nextAt raised = nextAt state := by
      funext link
      rw [nextAt, nextAt, hlink]
    have hprev : prevAt raised = prevAt state := by
      funext link
      rw [prevAt, prevAt, hlink]
    have hlinks : links (front ++ (cell.1, (cell.2.1, cell.2.2 + 1)) :: back) =
        links (front ++ cell :: back) := by simp
    rw [hnext, hprev, hlinks]
    exact hstate.ring
  · have haddresses : (front ++ (cell.1, (cell.2.1, cell.2.2 + 1)) :: back).map Prod.fst =
        (front ++ cell :: back).map Prod.fst := by simp
    rw [haddresses]
    exact hstate.addresses
  · have hothers : ∀ other ∈ front ++ back, payloadAt raised other.1 = payloadAt state other.1 := by
      intro other hother
      have hdistinct : other.1 ≠ cell.1 := fun hsame ↦
        hnodup.1 (hsame ▸ List.mem_map_of_mem hother)
      simp only [payloadAt, hraised, Function.update_of_ne hdistinct]
    intro other hother
    rcases List.mem_append.mp hother with hfront | hrest
    · rw [hothers other (List.mem_append_left _ hfront)]
      exact hstate.payload other (List.mem_append_left _ hfront)
    · rcases List.mem_cons.mp hrest with rfl | hback
      · simp [payloadAt, hraised, hspecies, hcount, UInt32.ofNat_add]
      · rw [hothers other (List.mem_append_right _ hback)]
        exact hstate.payload other (List.mem_append_right _ (List.mem_cons_of_mem _ hback))
  · intro address haddress
    have hcell := hstate.lt_allocations (List.mem_append_right front List.mem_cons_self)
    have hdistinct : address ≠ cell.1 := (hcell.trans_le haddress).ne'
    have hsame : payloadAt raised address = payloadAt state address := by
      simp only [payloadAt, hraised, Function.update_of_ne hdistinct]
    rw [hsame]
    exact hstate.fresh address haddress

/-- The search for a seed does to the cells ahead what `tally` does to their entries, except that it
leaves the flag unset and the list as it is where the seed belongs at the end. Assumes: the cells
`front` are behind, those ahead are sorted, the bound covers them, and the next allocation succeeds
if the seed is not among them. -/
theorem searchLoop_spec {allocator : Allocator} (seed : CString) {fuel : ℕ}
    (hsucceeds : seed ∉ (back.map Prod.snd).map Prod.fst →
      allocator.succeeds state.allocations = true)
    (hstate : Represents state (front ++ back)) (hsorted : SortedKeys (back.map Prod.snd))
    (hfuel : back.length ≤ fuel) :
    ∃ flag after, searchLoop allocator seed fuel (firstLink back) state = .ok (flag, after) ∧
      after.headAssignments = state.headAssignments ∧
      (flag = true → ∃ cells, Represents after cells ∧
        cells.map Prod.snd = front.map Prod.snd ++ tally seed (back.map Prod.snd)) ∧
      (flag = false → after = state ∧ seed ∉ (back.map Prod.snd).map Prod.fst ∧
        tally seed (back.map Prod.snd) = back.map Prod.snd ++ [(seed, 1)]) := by
  induction back generalizing front fuel with
  | nil =>
    exact ⟨false, state, by rw [firstLink, searchLoop], rfl, nofun,
      fun _ ↦ ⟨rfl, List.not_mem_nil, rfl⟩⟩
  | cons cell rest ih =>
    obtain _ | fuel := fuel
    · simp at hfuel
    obtain ⟨animal, hanimal, hspecies, hcount, hnext⟩ := hstate.readNode_cell
    by_cases hequal : cell.2.1 = seed
    · obtain ⟨after, hafter, hrepresents, hhead⟩ := raise_spec hstate hanimal hspecies hcount
      refine ⟨true, after, ?_, hhead, fun _ ↦ ⟨_, hrepresents, ?_⟩, nofun⟩
      · have hcompare : strcmp animal.species seed = 0 :=
          (strcmp_eq_zero_iff _ _).mpr (hspecies.trans hequal)
        simp only [firstLink_cons, searchLoop, readNode, hanimal, ok_bind, if_pos hcompare, hafter,
          pure_eq_ok]
      · simp [tally, hequal]
    · have hcompareEqual : strcmp animal.species seed ≠ 0 := fun h ↦
        hequal (hspecies.symm.trans ((strcmp_eq_zero_iff _ _).mp h))
      by_cases hgreater : seed < cell.2.1
      · obtain ⟨allocated, after, hallocated, hafter, hrepresents, hhead⟩ :=
          insert_spec seed hstate (hsucceeds (not_mem_keys_of_lt hsorted hgreater))
        refine ⟨true, after, ?_, hhead, fun _ ↦ ⟨_, hrepresents, ?_⟩, nofun⟩
        · have hcompare : 0 < strcmp animal.species seed :=
            (strcmp_pos_iff _ _).mpr (hspecies ▸ hgreater)
          rw [firstLink_cons] at hafter
          simp only [firstLink_cons, searchLoop, readNode, hanimal, ok_bind, if_neg hcompareEqual,
            if_pos hcompare, hallocated, hafter, pure_eq_ok]
          rfl
        · simp [tally, hequal, hgreater]
      · have hcompare : ¬ 0 < strcmp animal.species seed := fun h ↦
          hgreater (hspecies ▸ (strcmp_pos_iff _ _).mp h)
        have hmoved : Represents state ((front ++ [cell]) ++ rest) := by simpa using hstate
        have hmember : seed ∈ ((cell :: rest).map Prod.snd).map Prod.fst ↔
            seed ∈ (rest.map Prod.snd).map Prod.fst := by
          rw [List.map_cons, List.map_cons, List.mem_cons, or_iff_right (Ne.symm hequal)]
        obtain ⟨flag, after, hafter, hhead, hset, hunset⟩ :=
          ih (fun hnew ↦ hsucceeds (mt hmember.mp hnew)) hmoved (List.pairwise_cons.mp hsorted).2
            (by simpa using hfuel)
        refine ⟨flag, after, ?_, hhead, fun hflag ↦ ?_, fun hflag ↦ ?_⟩
        · simp only [firstLink_cons, searchLoop, readNode, hanimal, ok_bind, if_neg hcompareEqual,
            if_neg hcompare, hnext, hafter]
        · obtain ⟨cells, hrepresents, hcells⟩ := hset hflag
          exact ⟨cells, hrepresents, by simp [hcells, tally, hequal, hgreater]⟩
        · obtain ⟨hsame, hnew, htally⟩ := hunset hflag
          exact ⟨hsame, mt hmember.mp hnew, by simp [tally, hequal, hgreater, htally]⟩

/-- The search for a new seed with a failing allocation dereferences `NULL`, or leaves the flag
unset. Assumes: the cells `front` are behind, the bound covers the cells ahead, and the seed is not
among them. -/
theorem searchLoop_of_failure {allocator : Allocator} {seed : CString} {fuel : ℕ}
    (hfails : allocator.succeeds state.allocations = false)
    (hstate : Represents state (front ++ back))
    (hnew : seed ∉ (back.map Prod.snd).map Prod.fst) (hfuel : back.length ≤ fuel) :
    searchLoop allocator seed fuel (firstLink back) state = .error .nullPointer ∨
      searchLoop allocator seed fuel (firstLink back) state = .ok (false, state) := by
  induction back generalizing front fuel with
  | nil => exact Or.inr (by rw [firstLink, searchLoop])
  | cons cell rest ih =>
    obtain _ | fuel := fuel
    · simp at hfuel
    obtain ⟨animal, hanimal, hspecies, -, hnext⟩ := hstate.readNode_cell
    rw [List.map_cons, List.map_cons, List.mem_cons, not_or] at hnew
    have hcompareEqual : strcmp animal.species seed ≠ 0 := fun h ↦
      hnew.1 (hspecies.symm.trans ((strcmp_eq_zero_iff _ _).mp h)).symm
    by_cases hcompare : 0 < strcmp animal.species seed
    · apply Or.inl
      simp only [firstLink_cons, searchLoop, readNode, hanimal, ok_bind, if_neg hcompareEqual,
        if_pos hcompare, newAnimal_of_failure seed hfails]
      rfl
    · have hmoved : Represents state ((front ++ [cell]) ++ rest) := by simpa using hstate
      simp only [firstLink_cons, searchLoop, readNode, hanimal, ok_bind, if_neg hcompareEqual,
        if_neg hcompare, hnext]
      exact ih hmoved hnew.2 (by simpa using hfuel)

/-- One round of the loop counts the seed. Assumes: the next allocation succeeds if the seed is
new. -/
theorem insertSeed_spec {allocator : Allocator} (seed : CString)
    (hsucceeds : seed ∉ (cells.map Prod.snd).map Prod.fst →
      allocator.succeeds state.allocations = true)
    (hstate : Represents state cells) (hsorted : SortedKeys (cells.map Prod.snd)) :
    ∃ after cellsAfter, insertSeed allocator seed state = .ok after ∧
      Represents after cellsAfter ∧ cellsAfter.map Prod.snd = tally seed (cells.map Prod.snd) ∧
      after.headAssignments = state.headAssignments := by
  have hahead : Represents state ([] ++ cells) := hstate
  obtain ⟨flag, searched, hsearched, hhead, hset, hunset⟩ :=
    searchLoop_spec seed hsucceeds hahead hsorted hstate.length_eq.le
  rw [← hstate.animalList_next] at hsearched
  cases flag with
  | true =>
    obtain ⟨cellsAfter, hrepresents, hcells⟩ := hset rfl
    exact ⟨searched, cellsAfter, by simp only [insertSeed, hsearched, ok_bind, if_true, pure_eq_ok],
      hrepresents, hcells, hhead⟩
  | false =>
    obtain ⟨rfl, hnew, htally⟩ := hunset rfl
    have hbehind : Represents searched (cells ++ []) := by rwa [List.append_nil]
    obtain ⟨allocated, after, hallocated, hafter, hrepresents, hheadAfter⟩ :=
      insert_spec seed hbehind (hsucceeds hnew)
    refine ⟨after, _, ?_, hrepresents, by simp [htally], hheadAfter⟩
    rw [firstLink] at hafter
    simp only [insertSeed, hsearched, ok_bind, hallocated, hafter, Bool.false_eq_true, if_false]

/-- A round of the loop with a new seed and a failing allocation dereferences `NULL`. -/
theorem insertSeed_of_failure {allocator : Allocator} {seed : CString}
    (hfails : allocator.succeeds state.allocations = false) (hstate : Represents state cells)
    (hnew : seed ∉ (cells.map Prod.snd).map Prod.fst) :
    insertSeed allocator seed state = .error .nullPointer := by
  have hahead : Represents state ([] ++ cells) := hstate
  obtain hsearch | hsearch := searchLoop_of_failure hfails hahead hnew hstate.length_eq.le
  · rw [← hstate.animalList_next] at hsearch
    simp only [insertSeed, hsearch]
    rfl
  · rw [← hstate.animalList_next] at hsearch
    simp only [insertSeed, hsearch, ok_bind, Bool.false_eq_true, if_false,
      newAnimal_of_failure seed hfails]
    rfl

/-! ### The whole seed array -/

/-- The loop over two seed arrays one after the other. -/
theorem insertionLoop_append (allocator : Allocator) (seeds rest : List CString)
    (state : ModuleState) :
    insertionLoop allocator (seeds ++ rest) state =
      insertionLoop allocator seeds state >>= insertionLoop allocator rest := by
  induction seeds generalizing state with
  | nil => rw [List.nil_append, insertionLoop, ok_bind]
  | cons first seeds ih =>
    rw [List.cons_append, insertionLoop, insertionLoop, bind_assoc]
    exact congrArg _ (funext ih)

/-- The loop over a seed array followed by a seed. -/
theorem insertionLoop_append_singleton (allocator : Allocator) (seeds : List CString)
    (seed : CString) (state : ModuleState) :
    insertionLoop allocator (seeds ++ [seed]) state =
      insertionLoop allocator seeds state >>= insertSeed allocator seed := by
  have hlast : insertionLoop allocator [seed] = insertSeed allocator seed :=
    funext fun state ↦ bind_pure (insertSeed allocator seed state)
  rw [insertionLoop_append, hlast]

/-- The loop counts the seeds. Assumes: the calls of `kmalloc`, one for each of the distinct
species, succeed. -/
theorem insertionLoop_spec {allocator : Allocator} {seeds : List CString}
    (hsucceeds : ∀ call < seeds.dedup.length, allocator.succeeds call = true) :
    ∃ state cells, insertionLoop allocator seeds ModuleState.initial = .ok state ∧
      Represents state cells ∧ cells.map Prod.snd = tallyAll seeds ∧
      state.headAssignments = 0 := by
  rw [← length_tallyAll] at hsucceeds
  induction seeds using List.reverseRecOn with
  | nil => exact ⟨ModuleState.initial, [], rfl, represents_initial, rfl, rfl⟩
  | append_singleton seeds seed ih =>
    have hsorted := sortedKeys_tallyAll seeds
    rw [tallyAll_append_singleton, length_tally seed hsorted] at hsucceeds
    obtain ⟨between, cells, hbetween, hrepresents, hcells, hhead⟩ :=
      ih fun call hcall ↦ hsucceeds call (Nat.lt_add_right _ hcall)
    have hnodes := hrepresents.allocations_eq hcells
    rw [← hcells] at hsorted
    have hnext : seed ∉ (cells.map Prod.snd).map Prod.fst →
        allocator.succeeds between.allocations = true := by
      intro hnew
      rw [hcells] at hnew
      rw [if_neg hnew] at hsucceeds
      exact hsucceeds _ (hnodes ▸ Nat.lt_succ_self _)
    obtain ⟨after, cellsAfter, hafter, hrepresentsAfter, hcellsAfter, hheadAfter⟩ :=
      insertSeed_spec seed hnext hrepresents hsorted
    refine ⟨after, cellsAfter, ?_, hrepresentsAfter, ?_, hheadAfter.trans hhead⟩
    · rw [insertionLoop_append_singleton, hbetween, ok_bind, hafter]
    · rw [hcellsAfter, hcells, tallyAll_append_singleton]

/-- The loop dereferences `NULL` when one of the calls of `kmalloc`, one for each of the distinct
species, fails. -/
theorem insertionLoop_of_failure {allocator : Allocator} {seeds : List CString}
    (hfails : ∃ call < seeds.dedup.length, allocator.succeeds call = false) :
    insertionLoop allocator seeds ModuleState.initial = .error .nullPointer := by
  induction seeds using List.reverseRecOn with
  | nil =>
    obtain ⟨call, hcall, -⟩ := hfails
    exact absurd hcall (Nat.not_lt_zero _)
  | append_singleton seeds seed ih =>
    rw [insertionLoop_append_singleton]
    obtain hsucceeds | hearlier := allocator.succeeds_or_fails seeds.dedup.length
    · obtain ⟨between, cells, hbetween, hrepresents, hcells, -⟩ := insertionLoop_spec hsucceeds
      have hnodes := hrepresents.allocations_eq hcells
      obtain ⟨call, hcall, hfail⟩ := hfails
      rw [← length_tallyAll, tallyAll_append_singleton,
        length_tally seed (sortedKeys_tallyAll seeds)] at hcall
      have hlast : ¬ call < (tallyAll seeds).length := by
        intro hless
        rw [length_tallyAll] at hless
        rw [hsucceeds call hless] at hfail
        cases hfail
      have hnew : seed ∉ (tallyAll seeds).map Prod.fst := by
        intro hmem
        rw [if_pos hmem] at hcall
        exact hlast hcall
      rw [if_neg hnew] at hcall
      obtain rfl : call = between.allocations := by omega
      rw [← hcells] at hnew
      rw [hbetween, ok_bind, insertSeed_of_failure hfail hrepresents hnew]
    · rw [ih hearlier]
      rfl

/-- A list that the loop has built represents the tally of its seed array, and the head has not been
assigned to. -/
theorem represents_of_insertionLoop {allocator : Allocator} {seeds : List CString}
    (hbuilt : insertionLoop allocator seeds ModuleState.initial = .ok state) :
    ∃ cells, Represents state cells ∧ cells.map Prod.snd = tallyAll seeds ∧
      state.headAssignments = 0 := by
  obtain hsucceeds | hfails := allocator.succeeds_or_fails seeds.dedup.length
  · obtain ⟨final, cells, hfinal, hrepresents, hcells, hhead⟩ := insertionLoop_spec hsucceeds
    rw [hfinal, Except.ok.injEq] at hbuilt
    exact ⟨cells, hbuilt ▸ hrepresents, hcells, hbuilt ▸ hhead⟩
  · rw [insertionLoop_of_failure hfails] at hbuilt
    cases hbuilt

/-- A traversal from a cell on visits the nodes of the cells from there on, in order. -/
theorem entriesFrom_spec {fuel : ℕ} (hstate : Represents state (front ++ back))
    (hfuel : back.length ≤ fuel) :
    ∃ animals, entriesFrom fuel (firstLink back) state = .ok animals ∧
      animals.map (fun animal ↦ (animal.species, animal.count)) =
        back.map fun cell ↦ (cell.2.1, UInt32.ofNat cell.2.2) := by
  induction back generalizing front fuel with
  | nil => exact ⟨[], by rw [firstLink, entriesFrom], rfl⟩
  | cons cell rest ih =>
    obtain _ | fuel := fuel
    · simp at hfuel
    obtain ⟨animal, hanimal, hspecies, hcount, hnext⟩ := hstate.readNode_cell
    have hmoved : Represents state ((front ++ [cell]) ++ rest) := by simpa using hstate
    obtain ⟨animals, hanimals, hentries⟩ := ih hmoved (by simpa using hfuel)
    refine ⟨animal :: animals, ?_, ?_⟩
    · simp only [firstLink_cons, entriesFrom, readNode, hanimal, ok_bind, hnext, hanimals,
        pure_eq_ok]
    · rw [List.map_cons, List.map_cons, hentries, hspecies, hcount]

/-- The forward traversal of a represented list gives its cells. -/
theorem listEntries_spec (hstate : Represents state cells) :
    ∃ animals, listEntries state = .ok animals ∧
      animals.map (fun animal ↦ (animal.species, animal.count)) =
        cells.map fun cell ↦ (cell.2.1, UInt32.ofNat cell.2.2) := by
  have hahead : Represents state ([] ++ cells) := hstate
  rw [listEntries, hstate.animalList_next]
  exact entriesFrom_spec hahead hstate.length_eq.le

/-- The traversal of a list that represents the tally of a seed array: the nodes carry its keys and
its counts. -/
theorem listEntries_tally {seeds : List CString} (hstate : Represents state cells)
    (hcells : cells.map Prod.snd = tallyAll seeds) :
    ∃ animals, listEntries state = .ok animals ∧
      animals.map (fun animal ↦ (animal.species, animal.count)) =
        (tallyAll seeds).map (fun entry ↦ (entry.1, UInt32.ofNat entry.2)) ∧
      animals.map Animal.species = (tallyAll seeds).map Prod.fst := by
  obtain ⟨animals, hanimals, hentries⟩ := listEntries_spec hstate
  have hpairs : animals.map (fun animal ↦ (animal.species, animal.count)) =
      (tallyAll seeds).map fun entry ↦ (entry.1, UInt32.ofNat entry.2) := by
    rw [hentries, ← hcells, List.map_map]
    rfl
  refine ⟨animals, hanimals, hpairs, ?_⟩
  calc animals.map Animal.species
      = (animals.map fun animal ↦ (animal.species, animal.count)).map Prod.fst := by simp
    _ = (tallyAll seeds).map Prod.fst := by rw [hpairs]; simp

/-- **The list is the sorted multiset count of the seed array.** After the insertion loop a forward
traversal gives nodes with species strictly increasing under `strcmp`, the species are the strings
of the seed array, and each count is the number of occurrences of its species. Assumes: fewer than
`2^32` seeds, and every call of `kmalloc` succeeds. -/
theorem listInitialize_counts (allocator : Allocator) (seeds : List CString)
    (hlength : seeds.length < 2 ^ 32) (hsucceeds : ∀ call, allocator.succeeds call = true) :
    ∃ state animals, insertionLoop allocator seeds ModuleState.initial = .ok state ∧
      listEntries state = .ok animals ∧
      animals.Pairwise (fun first second ↦ strcmp first.species second.species < 0) ∧
      (∀ species, species ∈ animals.map Animal.species ↔ species ∈ seeds) ∧
      ∀ animal ∈ animals, animal.count.toNat = seeds.count animal.species := by
  obtain ⟨state, cells, hstate, hrepresents, hcells, -⟩ :=
    insertionLoop_spec fun call _ ↦ hsucceeds call
  obtain ⟨animals, hanimals, hpairs, hspecies⟩ := listEntries_tally hrepresents hcells
  refine ⟨state, animals, hstate, hanimals, ?_, ?_, ?_⟩
  · have hsorted : ((tallyAll seeds).map Prod.fst).Pairwise (· < ·) :=
      List.pairwise_map.mpr (sortedKeys_tallyAll seeds)
    rw [← hspecies, List.pairwise_map] at hsorted
    exact hsorted.imp fun hlt ↦ (strcmp_neg_iff _ _).mpr hlt
  · intro species
    rw [hspecies, mem_keys_tallyAll]
  · intro animal hanimal
    have hpair : (animal.species, animal.count) ∈
        (tallyAll seeds).map fun entry ↦ (entry.1, UInt32.ofNat entry.2) :=
      hpairs ▸ List.mem_map.mpr ⟨animal, hanimal, rfl⟩
    obtain ⟨entry, hentry, hsame⟩ := List.mem_map.mp hpair
    obtain ⟨hkey, hcount⟩ := Prod.mk.inj hsame
    have hbound : seeds.count animal.species < 2 ^ 32 := List.count_le_length.trans_lt hlength
    rw [← hcount, count_of_mem_tallyAll hentry, hkey, UInt32.toNat_ofNat_of_lt' hbound]

/-- The result on the first strings of `seedArray`, with a repetition, and links that point nowhere
sensible in fresh memory. -/
theorem listInitialize_counts_fox_dog_fox :
    ∃ state animals,
      insertionLoop ⟨fun _ ↦ true, fun call ↦ ⟨.node (call + 7), .node 0⟩⟩
        [⟨[102, 111, 120], by decide⟩, ⟨[100, 111, 103], by decide⟩, ⟨[102, 111, 120], by decide⟩]
        ModuleState.initial = .ok state ∧
      listEntries state = .ok animals ∧
      animals.Pairwise (fun first second ↦ strcmp first.species second.species < 0) ∧
      ∀ animal ∈ animals, animal.count.toNat =
        [⟨[102, 111, 120], by decide⟩, ⟨[100, 111, 103], by decide⟩,
          ⟨[102, 111, 120], by decide⟩].count animal.species := by
  obtain ⟨state, animals, hstate, hanimals, hsorted, -, hcounts⟩ :=
    listInitialize_counts ⟨fun _ ↦ true, fun call ↦ ⟨.node (call + 7), .node 0⟩⟩
      [⟨[102, 111, 120], by decide⟩, ⟨[100, 111, 103], by decide⟩,
      ⟨[102, 111, 120], by decide⟩] (by decide) (fun _ ↦ rfl)
  exact ⟨state, animals, hstate, hanimals, hsorted, hcounts⟩

end Apes.LinkedList
