import Apes.Library.CString
import Apes.Library.CheckedExecution

/-!
# The list module `linkedListModule.c`

The module keeps a circular doubly linked list of `struct animal` nodes through the head
`animal_list`. The model is at the level of pointers: a `Link` is the address of a `list_head`, of
the head or of a node, a node holds its species, its count and its `list_head`, and the nodes are a
partial function from addresses, undefined where no node is live. `listAddTail` is the kernel's
`list_add_tail`, `kmalloc` a fresh address with indeterminate links or `NULL`, and every field is
read and written through its node, so that a dereference of `NULL` or of a dead node is a fault.

`insertSeed` is one round of the loop of `listInitialize`: the search with its early breaks, the
count raised on a duplicate, the insertion before the first greater species, and the insertion at
the end when the flag is not set. `insertionLoop` runs it over the seed array, and `listEntries` is
the forward traversal of `list_for_each_entry`.
-/

set_option autoImplicit false
set_option relaxedAutoImplicit false

namespace Apes.LinkedList

open Library

/-- The address of a `list_head`: that of `animal_list` or the one inside a node. -/
inductive Link
  | head
  | node (address : ℕ)
  deriving DecidableEq

/-- `struct list_head`. -/
structure ListHead where
  next : Link
  prev : Link

/-- `struct animal`. -/
structure Animal where
  species : CString
  count : UInt32
  list : ListHead

/-- The state of the module: the head of the list, the live nodes by address, the number of calls
of `kmalloc` made so far, and how often the assignment to the head inside the search loop has been
executed. -/
structure ModuleState where
  animalList : ListHead
  nodes : ℕ → Option Animal
  allocations : ℕ
  headAssignments : ℕ

/-- The state after `LIST_HEAD(animal_list)`: the head is linked to itself and there is no node. -/
def ModuleState.initial : ModuleState where
  animalList := ⟨.head, .head⟩
  nodes := fun _ ↦ none
  allocations := 0
  headAssignments := 0

/-- What `kmalloc` does at each of its calls: whether it succeeds, and the indeterminate contents
of the links of the new node. -/
structure Allocator where
  succeeds : ℕ → Bool
  contents : ℕ → ListHead

/-! ### Fields -/

/-- The node at an address. -/
def readNode (address : ℕ) (state : ModuleState) : Except Fault Animal :=
  match state.nodes address with
  | some animal => .ok animal
  | none => .error (.deadAddress address)

/-- Writes the node at an address. -/
def writeNode (address : ℕ) (animal : Animal) (state : ModuleState) : Except Fault ModuleState :=
  match state.nodes address with
  | some _ => .ok { state with nodes := Function.update state.nodes address (some animal) }
  | none => .error (.deadAddress address)

/-- The `list_head` at a link. -/
def readLink (link : Link) (state : ModuleState) : Except Fault ListHead :=
  match link with
  | .head => .ok state.animalList
  | .node address => do
    let animal ← readNode address state
    pure animal.list

/-- Writes the `list_head` at a link. -/
def writeLink (link : Link) (value : ListHead) (state : ModuleState) : Except Fault ModuleState :=
  match link with
  | .head => .ok { state with animalList := value }
  | .node address => do
    let animal ← readNode address state
    writeNode address { animal with list := value } state

/-- `link->next = target`. -/
def setNext (link target : Link) (state : ModuleState) : Except Fault ModuleState := do
  let list ← readLink link state
  writeLink link { list with next := target } state

/-- `link->prev = target`. -/
def setPrev (link target : Link) (state : ModuleState) : Except Fault ModuleState := do
  let list ← readLink link state
  writeLink link { list with prev := target } state

/-- `list_add_tail(new, position)`: the new node is linked in between `position->prev` and
`position`. -/
def listAddTail (new position : Link) (state : ModuleState) : Except Fault ModuleState := do
  let list ← readLink position state
  let previous := list.prev
  let state ← setPrev position new state
  let state ← setNext new position state
  let state ← setPrev new previous state
  setNext previous new state

/-! ### The insertion loop -/

/-- The allocation of a node for a seed, with its species and its count of one. -/
def newAnimal (allocator : Allocator) (seed : CString) (state : ModuleState) :
    Except Fault (ℕ × ModuleState) :=
  if allocator.succeeds state.allocations then
    .ok (state.allocations,
      { state with
        nodes := Function.update state.nodes state.allocations
          (some ⟨seed, 1, allocator.contents state.allocations⟩)
        allocations := state.allocations + 1 })
  else .error .nullPointer

/-- The search of `listInitialize` for one seed from the node `ptr` on, with the flag it leaves. It
raises the count of an equal species, inserts before the first greater one, and leaves the flag
unset at the end of the list. -/
def searchLoop (allocator : Allocator) (seed : CString) :
    ℕ → Link → ModuleState → Except Fault (Bool × ModuleState)
  | _, .head, state => .ok (false, state)
  | 0, .node _, _ => .error .outOfFuel
  | fuel + 1, .node address, state => do
    let animal ← readNode address state
    if strcmp animal.species seed = 0 then do
      let state ← writeNode address { animal with count := animal.count + 1 } state
      pure (true, state)
    else if 0 < strcmp animal.species seed then do
      let (new, state) ← newAnimal allocator seed state
      let state ← listAddTail (.node new) (.node address) state
      if Link.head = Link.node address then do
        let list ← readLink (.node new) state
        pure (true, { state with
          animalList := list, headAssignments := state.headAssignments + 1 })
      else pure (true, state)
    else searchLoop allocator seed fuel animal.list.next state

/-- One round of the loop of `listInitialize` over the seed array. The search passes every node at
most once, so the number of nodes bounds it. -/
def insertSeed (allocator : Allocator) (seed : CString) (state : ModuleState) :
    Except Fault ModuleState := do
  let (flag, state) ← searchLoop allocator seed state.allocations state.animalList.next state
  if flag then pure state
  else do
    let (new, state) ← newAnimal allocator seed state
    listAddTail (.node new) .head state

/-- The loop of `listInitialize` over a seed array. -/
def insertionLoop (allocator : Allocator) : List CString → ModuleState → Except Fault ModuleState
  | [], state => .ok state
  | seed :: rest, state => do
    let state ← insertSeed allocator seed state
    insertionLoop allocator rest state

/-! ### The traversal -/

/-- The nodes that `list_for_each_entry` visits from the node `ptr` on. -/
def entriesFrom : ℕ → Link → ModuleState → Except Fault (List Animal)
  | _, .head, _ => .ok []
  | 0, .node _, _ => .error .outOfFuel
  | fuel + 1, .node address, state => do
    let animal ← readNode address state
    let rest ← entriesFrom fuel animal.list.next state
    pure (animal :: rest)

/-- The nodes of the list in the order of a forward traversal. -/
def listEntries (state : ModuleState) : Except Fault (List Animal) :=
  entriesFrom state.allocations state.animalList.next state

end Apes.LinkedList
