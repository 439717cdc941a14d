import Apes.SharedMemory.Discipline
import Mathlib.Data.List.Infix

/-!
# The turn from writing to reading in the shared-memory exchange

When the parent has stored its last message it goes on to its reads, and waits for the semaphore
that it has just posted itself. `Delivered` is what the exchange should guarantee in every state:
what a process has read is a prefix of what the other has stored, and the processes are not both
blocked before they have done their reads. `exchange_not_delivered` is a schedule, on the messages
of the program, in which the parent takes `shm_read` before the child has read the last message,
reads that message itself, and leaves both processes blocked.

A step is `OutOfTurn` when the parent takes `shm_read` for a read while the child still has reads to
do. Without such steps every state is in one of two phases (`Phase`): the child reads what the
parent writes, or the parent reads what the child writes. `Phase.move` is the step,
`delivered_in_turn` the result over runs, and it says too that every step out of turn is followed by
a failure.
-/

set_option autoImplicit false
set_option relaxedAutoImplicit false

namespace Apes.SharedMemory

open Library Ipc

/-- What the exchange guarantees in a state. -/
structure Delivered (state : State) : Prop where
  child_reads : received .child state.log <+: written .parent state.log
  parent_reads : received .parent state.log <+: written .child state.log
  progress : Blocked state .parent → Blocked state .child →
    ∀ party, ReadsDone (state.process party)

/-- The parent takes `shm_read` for a read while the child still has reads to do. -/
def OutOfTurn (state : State) : Prop :=
  (state.process .parent).stage = .waiting ∧
    (∃ transfer ∈ (state.process .parent).pending.head?, transfer.isRead = true) ∧
    ¬ ReadsDone (state.process .child)

instance (state : State) : Decidable (OutOfTurn state) :=
  inferInstanceAs (Decidable (_ ∧ (∃ transfer ∈ (state.process .parent).pending.head?, _) ∧ ¬ _))

/-- No signal is delivered, and the parent takes no step out of turn. -/
def InTurn (state : State) : Event → Prop
  | .step .parent => ¬ OutOfTurn state
  | .step .child => True
  | .sigint _ => False

instance (state : State) (event : Event) : Decidable (InTurn state event) := by
  cases event with
  | step party => cases party <;> unfold InTurn <;> infer_instance
  | sigint party => exact .isFalse id

/-- One message passed on: the sender stores it and the receiver reads it. -/
def passOn (sender : Party) : List Event :=
  List.replicate 4 (.step sender) ++ List.replicate 4 (.step sender.peer)

/-- **The exchange does not deliver.** On the messages of the program, the child has read nine
messages when the parent has stored its last one, and the parent then takes `shm_read` itself: it
reads the first letter of its own last string as a command, and both processes are blocked while the
child still waits for that string. -/
theorem exchange_not_delivered :
    ∃ state, (exchange (transmission commands txParent) (transmission commands txChild)
        createdSegment).ReachableUnder Unsignalled state ∧
      ¬ Delivered state ∧ Blocked state .parent ∧ Blocked state .child ∧
        ¬ ReadsDone (state.process .child) := by
  have hrun : ∃ state, ((exchange (transmission commands txParent) (transmission commands txChild)
        createdSegment).restrict Unsignalled).run
        (exchange (transmission commands txParent) (transmission commands txChild)
          createdSegment).initial
        ((List.replicate 9 (passOn .parent)).flatten ++
          List.replicate 9 (.step .parent) ++ [.step .child]) = some state ∧
      received .parent state.log = [.command 65] ∧ written .child state.log = [] ∧
        Blocked state .parent ∧ Blocked state .child ∧ ¬ ReadsDone (state.process .child) := by
    refine ⟨_, rfl, ?_⟩
    decide
  obtain ⟨state, hstate, hreceived, hwritten, hblocked⟩ := hrun
  refine ⟨state, System.reachableUnder_of_run hstate, ?_, hblocked⟩
  intro hdelivered
  have hreads := hdelivered.parent_reads
  rw [hreceived, hwritten] at hreads
  exact absurd hreads (by simp)

/-! ### Logs -/

variable (log : List Access) (party other : Party) (message : Message)

@[simp] theorem written_append_write : written party (log ++ [.write other message]) =
    written party log ++ if other = party then [message] else [] := by
  split_ifs with hsame <;> simp [written, hsame]

@[simp] theorem written_append_read :
    written party (log ++ [.read other message]) = written party log := by
  simp [written]

@[simp] theorem received_append_write :
    received party (log ++ [.write other message]) = received party log := by
  simp [received]

@[simp] theorem received_append_read : received party (log ++ [.read other message]) =
    received party log ++ if other = party then [message] else [] := by
  split_ifs with hsame <;> simp [received, hsame]

/-! ### The phases -/

variable {log party other message} {state next : State} {parent child : List Message}

/-- The accesses that a process has still to make. -/
def Process.todo (process : Process) : List Transfer :=
  if process.stage = .accessed then process.pending.tail else process.pending

/-- The first phase: the parent writes and the child reads. The message carried is the one that has
been stored and not yet read, those left have not been stored, and the parent does not enter for a
read. -/
structure ChildReads (parent child : List Message) (carried : Option Message)
    (left : List Message) (state : State) : Prop where
  slot : slot state.log = carried.map fun message ↦ (.parent, message)
  unfinished : carried.toList ++ left ≠ []
  parent_written : written .parent state.log ++ left = parent
  child_received : received .child state.log ++ carried.toList = written .parent state.log
  child_written : written .child state.log = []
  parent_received : received .parent state.log = []
  parent_todo : (state.process .parent).todo = writes left ++ reads child
  child_todo : (state.process .child).todo = reads (carried.toList ++ left) ++ writes child
  entered : (state.process .parent).stage = .entered → left ≠ []

/-- The second phase: the child writes and the parent reads. -/
structure ParentReads (parent child : List Message) (carried : Option Message)
    (left : List Message) (state : State) : Prop where
  slot : slot state.log = carried.map fun message ↦ (.child, message)
  child_written : written .child state.log ++ left = child
  parent_received : received .parent state.log ++ carried.toList = written .child state.log
  parent_written : written .parent state.log = parent
  child_received : received .child state.log = parent
  parent_todo : (state.process .parent).todo = reads (carried.toList ++ left)
  child_todo : (state.process .child).todo = writes left

/-- An exchange in turn is in one of the two phases. -/
inductive Phase (parent child : List Message) (state : State) : Prop
  | childReads {carried : Option Message} {left : List Message}
      (hphase : ChildReads parent child carried left state)
  | parentReads {carried : Option Message} {left : List Message}
      (hphase : ParentReads parent child carried left state)

/-- An exchange starts with the first phase, with the second when the parent has no message. -/
theorem phase_initial (parent child : List Message) (contents : List UInt8) :
    Phase parent child (exchange parent child contents).initial := by
  cases parent with
  | nil =>
    have hphase : ParentReads [] child none child (exchange [] child contents).initial :=
      ⟨rfl, rfl, rfl, rfl, rfl, rfl, rfl⟩
    exact .parentReads hphase
  | cons first rest =>
    have hphase : ChildReads (first :: rest) child none (first :: rest)
        (exchange (first :: rest) child contents).initial :=
      ⟨rfl, List.cons_ne_nil _ _, rfl, rfl, rfl, rfl, rfl, rfl, nofun⟩
    exact .childReads hphase

theorem todo_of_entered {process : Process} {transfer : Transfer} {rest : List Transfer}
    (hstage : process.stage = .entered) (hpending : process.pending = transfer :: rest) :
    process.todo = transfer :: rest := by
  rw [Process.todo, if_neg (by simp [hstage]), hpending]

theorem todo_accessed {process : Process} {transfer : Transfer} {rest : List Transfer}
    (hpending : process.pending = transfer :: rest) :
    { process with stage := .accessed }.todo = rest := by
  rw [Process.todo, if_pos rfl, hpending, List.tail_cons]

variable {carried : Option Message} {left : List Message} {kind : Kind} {rest : List Transfer}

/-- In the first phase a write is the next message of the parent. -/
theorem ChildReads.writeSegment (hphase : ChildReads parent child carried left state)
    (hempty : SharedMemory.slot state.log = none) (hstage : (state.process party).stage = .entered)
    (hpending : (state.process party).pending = .write message :: rest) :
    ∃ others, ChildReads parent child (some message) others (writeSegment party message state) := by
  have htodo := todo_of_entered hstage hpending
  have hslot := hphase.slot
  rw [hempty] at hslot
  obtain rfl := Option.map_eq_none_iff.mp hslot.symm
  obtain ⟨first, others, rfl⟩ := List.exists_cons_of_ne_nil hphase.unfinished
  cases party with
  | child => exact nomatch hphase.child_todo.symm.trans htodo
  | parent =>
    obtain ⟨hfirst, rfl⟩ := List.cons.inj (hphase.parent_todo.symm.trans htodo)
    obtain rfl := Transfer.write.inj hfirst
    have hwritten := hphase.parent_written
    have hreceived := hphase.child_received
    refine ⟨others, ⟨?_, ?_, ?_, ?_, ?_, ?_, todo_accessed hpending, hphase.child_todo, nofun⟩⟩
    · exact slot_append_write _ _ _
    · exact List.cons_ne_nil _ _
    · simpa [SharedMemory.writeSegment] using hwritten
    · simpa [SharedMemory.writeSegment] using hreceived
    · simpa [SharedMemory.writeSegment] using hphase.child_written
    · simpa [SharedMemory.writeSegment] using hphase.parent_received

/-- In the second phase a write is the next message of the child. -/
theorem ParentReads.writeSegment (hphase : ParentReads parent child carried left state)
    (hempty : SharedMemory.slot state.log = none) (hstage : (state.process party).stage = .entered)
    (hpending : (state.process party).pending = .write message :: rest) :
    ∃ others,
      ParentReads parent child (some message) others (writeSegment party message state) := by
  have htodo := todo_of_entered hstage hpending
  have hslot := hphase.slot
  rw [hempty] at hslot
  obtain rfl := Option.map_eq_none_iff.mp hslot.symm
  cases party with
  | parent => exact absurd (hphase.parent_todo.symm.trans htodo) (reads_ne_write_cons _ _ _)
  | child =>
    obtain ⟨first, others, rfl, hfirst, rfl⟩ :=
      List.map_eq_cons_iff.mp (hphase.child_todo.symm.trans htodo)
    obtain rfl := Transfer.write.inj hfirst
    have hwritten := hphase.child_written
    have hreceived := hphase.parent_received
    refine ⟨others, ⟨?_, ?_, ?_, ?_, ?_, hphase.parent_todo, todo_accessed hpending⟩⟩
    · exact slot_append_write _ _ _
    · simpa [SharedMemory.writeSegment] using hwritten
    · simpa [SharedMemory.writeSegment] using hreceived
    · simpa [SharedMemory.writeSegment] using hphase.parent_written
    · simpa [SharedMemory.writeSegment] using hphase.child_received

/-- In the first phase a read gives the child the message carried, and the read of the last one ends
the phase. -/
theorem ChildReads.readSegment (hphase : ChildReads parent child carried left state)
    (hstate : Disciplined state) (hstage : (state.process party).stage = .entered)
    (hpending : (state.process party).pending = .read kind :: rest) :
    Phase parent child (readSegment party kind state) := by
  have htodo := todo_of_entered hstage hpending
  have hfull : SharedMemory.slot state.log ≠ none := (hstate.agrees party _ _ hpending).1 hstage
  have hslot := hphase.slot
  cases party with
  | parent =>
    obtain ⟨first, others, rfl⟩ := List.exists_cons_of_ne_nil (hphase.entered hstage)
    exact nomatch hphase.parent_todo.symm.trans htodo
  | child =>
    obtain _ | message := carried
    · exact absurd hslot hfull
    have hloaded := hstate.segment _ _ hslot
    obtain ⟨hkind, rfl⟩ := List.cons.inj (hphase.child_todo.symm.trans htodo)
    obtain rfl := Transfer.read.inj hkind
    have hwritten := hphase.parent_written
    have hreceived := hphase.child_received
    have hread : received .child (SharedMemory.readSegment .child message.kind state).log =
        written .parent state.log := by
      rw [← hreceived]
      simp [SharedMemory.readSegment, hloaded]
    have hkept : written .parent (SharedMemory.readSegment .child message.kind state).log =
        written .parent state.log := written_append_read _ _ _ _
    have hchild : written .child (SharedMemory.readSegment .child message.kind state).log = [] :=
      (written_append_read _ _ _ _).trans hphase.child_written
    have hparent : received .parent (SharedMemory.readSegment .child message.kind state).log = [] :=
      (received_append_read _ _ _ _).trans (by simp [hphase.parent_received])
    have hempty :
        SharedMemory.slot (SharedMemory.readSegment .child message.kind state).log = none :=
      slot_append_read _ _ _
    obtain _ | ⟨first, others⟩ := left
    · rw [List.append_nil] at hwritten
      have hnext : ParentReads parent child none child
          (SharedMemory.readSegment .child message.kind state) :=
        ⟨hempty, by rw [hchild, List.nil_append], by rw [hparent, hchild]; rfl,
          hkept.trans hwritten, hread.trans hwritten, hphase.parent_todo, todo_accessed hpending⟩
      exact .parentReads hnext
    · have hnext : ChildReads parent child none (first :: others)
          (SharedMemory.readSegment .child message.kind state) :=
        ⟨hempty, List.cons_ne_nil _ _, by rw [hkept, hwritten], by rw [hread, hkept]; simp, hchild,
          hparent, hphase.parent_todo, todo_accessed hpending, fun _ ↦ List.cons_ne_nil _ _⟩
      exact .childReads hnext

/-- In the second phase a read gives the parent the message carried. -/
theorem ParentReads.readSegment (hphase : ParentReads parent child carried left state)
    (hstate : Disciplined state) (hstage : (state.process party).stage = .entered)
    (hpending : (state.process party).pending = .read kind :: rest) :
    ParentReads parent child none left (readSegment party kind state) := by
  have htodo := todo_of_entered hstage hpending
  have hfull : SharedMemory.slot state.log ≠ none := (hstate.agrees party _ _ hpending).1 hstage
  have hslot := hphase.slot
  cases party with
  | child => exact absurd (hphase.child_todo.symm.trans htodo) (writes_ne_read_cons _ _ _)
  | parent =>
    obtain _ | message := carried
    · exact absurd hslot hfull
    have hloaded := hstate.segment _ _ hslot
    obtain ⟨hkind, rfl⟩ := List.cons.inj (hphase.parent_todo.symm.trans htodo)
    obtain rfl := Transfer.read.inj hkind
    have hreceived := hphase.parent_received
    refine ⟨slot_append_read _ _ _, ?_, ?_, ?_, ?_, todo_accessed hpending, hphase.child_todo⟩
    · simpa [SharedMemory.readSegment] using hphase.child_written
    · simpa [SharedMemory.readSegment, hloaded] using hreceived
    · simpa [SharedMemory.readSegment] using hphase.parent_written
    · simpa [SharedMemory.readSegment] using hphase.child_received

/-- In the first phase the child has reads to do. -/
theorem ChildReads.not_readsDone (hphase : ChildReads parent child carried left state) :
    ¬ ReadsDone (state.process .child) := by
  obtain ⟨first, others, hfirst⟩ := List.exists_cons_of_ne_nil hphase.unfinished
  have htodo := hphase.child_todo
  rw [hfirst] at htodo
  have hmem : Transfer.read first.kind ∈ (state.process .child).todo := by
    rw [htodo]
    exact List.mem_cons_self
  intro hdone
  unfold Process.todo at hmem
  split_ifs at hmem
  · exact absurd (hdone _ (List.mem_of_mem_tail hmem)) (by simp [Transfer.isRead])
  · exact absurd (hdone _ hmem) (by simp [Transfer.isRead])

/-- A step that neither accesses the segment nor completes an access keeps the phase, when the
parent enters for a write, or enters with no read of the child left. -/
theorem Phase.of_same_log (hphase : Phase parent child state) (hlog : next.log = state.log)
    (htodo : ∀ party, (next.process party).todo = (state.process party).todo)
    (hentered : (next.process .parent).stage = .entered →
      (state.process .parent).stage = .entered ∨
        (∃ message rest, (state.process .parent).todo = .write message :: rest) ∨
        ReadsDone (state.process .child)) :
    Phase parent child next := by
  cases hphase with
  | @childReads carried left hphase =>
    have hleft : (next.process .parent).stage = .entered → left ≠ [] := by
      intro hnext
      rcases hentered hnext with hold | ⟨message, rest, hwrite⟩ | hdone
      · exact hphase.entered hold
      · rintro rfl
        exact reads_ne_write_cons _ _ _ (hphase.parent_todo.symm.trans hwrite)
      · exact absurd hdone hphase.not_readsDone
    have hnext : ChildReads parent child carried left next :=
      ⟨hlog ▸ hphase.slot, hphase.unfinished, hlog ▸ hphase.parent_written,
        hlog ▸ hphase.child_received, hlog ▸ hphase.child_written, hlog ▸ hphase.parent_received,
        (htodo _).trans hphase.parent_todo, (htodo _).trans hphase.child_todo, hleft⟩
    exact .childReads hnext
  | @parentReads carried left hphase =>
    have hnext : ParentReads parent child carried left next :=
      ⟨hlog ▸ hphase.slot, hlog ▸ hphase.child_written, hlog ▸ hphase.parent_received,
        hlog ▸ hphase.parent_written, hlog ▸ hphase.child_received,
        (htodo _).trans hphase.parent_todo, (htodo _).trans hphase.child_todo⟩
    exact .parentReads hnext

/-- The accesses to make are the same when one process is replaced by one with the same. -/
theorem todo_update {process : Process} (hsame : process.todo = (state.process party).todo)
    (other : Party) :
    (Function.update state.process party process other).todo = (state.process other).todo := by
  rcases eq_or_ne other party with rfl | hne
  · rw [Function.update_self, hsame]
  · rw [Function.update_of_ne hne]

/-- Every step of a process in turn keeps the phase. -/
theorem Phase.move (hphase : Phase parent child state) (hstate : Disciplined state)
    (hturn : InTurn state (.step party)) (hmove : move party state = some next) :
    Phase parent child next := by
  rcases move_cases hmove with ⟨hstage, rfl⟩ | ⟨transfer, rest, hstage, hpending, hready, rfl⟩ |
    ⟨message, rest, hstage, hpending, rfl⟩ | ⟨kind, rest, hstage, hpending, rfl⟩ |
    ⟨transfer, rest, hstage, hpending, rfl⟩ | ⟨hstage, rfl⟩
  · refine hphase.of_same_log rfl (todo_update ?_) ?_
    · simp [Process.todo, hstage]
    · intro hentered
      cases party with
      | parent => cases hentered
      | child => exact .inl hentered
  · refine hphase.of_same_log rfl (todo_update ?_) ?_
    · simp [Process.todo, hstage]
    · intro hentered
      cases party with
      | child => exact .inl hentered
      | parent =>
        right
        cases transfer with
        | write message =>
          exact .inl ⟨message, rest, by rw [Process.todo, if_neg (by simp [hstage]), hpending]⟩
        | read kind =>
          right
          by_contra hreading
          exact hturn ⟨hstage, ⟨.read kind, by rw [hpending]; rfl, rfl⟩, hreading⟩
  · cases hphase with
    | childReads hphase =>
      obtain ⟨others, hnext⟩ :=
        hphase.writeSegment ((hstate.agrees party _ _ hpending).1 hstage) hstage hpending
      exact .childReads hnext
    | parentReads hphase =>
      obtain ⟨others, hnext⟩ :=
        hphase.writeSegment ((hstate.agrees party _ _ hpending).1 hstage) hstage hpending
      exact .parentReads hnext
  · cases hphase with
    | childReads hphase => exact hphase.readSegment hstate hstage hpending
    | parentReads hphase => exact .parentReads (hphase.readSegment hstate hstage hpending)
  · refine hphase.of_same_log rfl (todo_update ?_) ?_
    · simp [Process.todo, hstage]
    · intro hentered
      cases party with
      | parent => cases hentered
      | child => exact .inl hentered
  · refine hphase.of_same_log rfl (todo_update ?_) ?_
    · simp [Process.todo, hstage]
    · intro hentered
      cases party with
      | parent => cases hentered
      | child => exact .inl hentered

/-! ### Delivery -/

/-- A process that waits has all its transfers to make. -/
theorem todo_of_waiting {process : Process} (hstage : process.stage = .waiting) :
    process.todo = process.pending := if_neg (by simp [hstage])

/-- In turn the two processes are never both blocked. -/
theorem Phase.not_both_blocked (hphase : Phase parent child state) (hstate : Disciplined state)
    (hparent : Blocked state .parent) (hchild : Blocked state .child) : False := by
  obtain ⟨hparentStage, parentTransfer, hparentHead, hparentZero⟩ := hparent
  obtain ⟨hchildStage, childTransfer, hchildHead, hchildZero⟩ := hchild
  rw [← todo_of_waiting hparentStage] at hparentHead
  rw [← todo_of_waiting hchildStage] at hchildHead
  have htoken : state.semaphore .shmRead + state.semaphore .shmWrite = 1 := by
    have hall := hstate.token
    rwa [tokens, inside_of_waiting hparentStage, inside_of_waiting hchildStage] at hall
  cases hphase with
  | @childReads carried left hphase =>
    obtain ⟨first, others, hfirst⟩ := List.exists_cons_of_ne_nil hphase.unfinished
    rw [hphase.child_todo, hfirst] at hchildHead
    obtain rfl : Transfer.read first.kind = childTransfer := Option.some.inj hchildHead
    change state.semaphore .shmRead = 0 at hchildZero
    have hempty : slot state.log = none :=
      hstate.ready .shmWrite (by omega)
    rw [hphase.slot, Option.map_eq_none_iff] at hempty
    subst hempty
    rw [hphase.parent_todo, show left = first :: others from hfirst] at hparentHead
    obtain rfl : Transfer.write first = parentTransfer := Option.some.inj hparentHead
    change state.semaphore .shmWrite = 0 at hparentZero
    omega
  | @parentReads carried left hphase =>
    obtain _ | ⟨first, others⟩ := left
    · rw [hphase.child_todo] at hchildHead
      cases hchildHead
    · rw [hphase.child_todo] at hchildHead
      obtain rfl : Transfer.write first = childTransfer := Option.some.inj hchildHead
      change state.semaphore .shmWrite = 0 at hchildZero
      have hfull : slot state.log ≠ none := hstate.ready .shmRead (by omega)
      rw [hphase.slot] at hfull
      obtain _ | message := carried
      · exact absurd rfl hfull
      · rw [hphase.parent_todo] at hparentHead
        obtain rfl : Transfer.read message.kind = parentTransfer := Option.some.inj hparentHead
        change state.semaphore .shmRead = 0 at hparentZero
        omega

/-- Both phases deliver. -/
theorem Phase.delivered (hphase : Phase parent child state) (hstate : Disciplined state) :
    Delivered state := by
  refine ⟨?_, ?_, fun hparent hchild ↦ (hphase.not_both_blocked hstate hparent hchild).elim⟩
  · cases hphase with
    | childReads hphase => exact ⟨_, hphase.child_received⟩
    | parentReads hphase => rw [hphase.child_received, hphase.parent_written]
  · cases hphase with
    | childReads hphase => rw [hphase.parent_received, hphase.child_written]
    | parentReads hphase => exact ⟨_, hphase.parent_received⟩

/-- An exchange in turn keeps the discipline and stays in the two phases. -/
theorem phase_of_inTurn {contents : List UInt8}
    (hreach : (exchange parent child contents).ReachableUnder InTurn state) :
    Disciplined state ∧ Phase parent child state := by
  refine System.ReachableUnder.invariant ?_ ?_ hreach
  · exact ⟨disciplined_initial _ _ _, phase_initial parent child contents⟩
  · rintro state event next ⟨hstate, hphase⟩ hturn hstep
    cases event with
    | step party => exact ⟨hstate.move hstep, hphase.move hstate hturn hstep⟩
    | sigint party => exact hturn.elim

/-- In the second phase every read of the child is done when no process is inside. -/
theorem ParentReads.readsDone (hphase : ParentReads parent child carried left state)
    (hstage : (state.process .child).stage ≠ .accessed) : ReadsDone (state.process .child) := by
  intro transfer htransfer
  have htodo := hphase.child_todo
  rw [Process.todo, if_neg hstage] at htodo
  rw [htodo] at htransfer
  obtain ⟨message, -, rfl⟩ := List.mem_map.mp htransfer
  rfl

/-- After a step out of turn the next step of the parent reads a message that is not one of the
child's. -/
theorem Phase.outOfTurn (hphase : Phase parent child state) (hstate : Disciplined state)
    (hturn : OutOfTurn state) (hmove : SharedMemory.move .parent state = some next) :
    ∃ final, SharedMemory.move .parent next = some final ∧ ¬ Delivered final := by
  obtain ⟨hstage, ⟨transfer, hhead, hread⟩, hreading⟩ := hturn
  obtain ⟨rest, hpending⟩ := List.head?_eq_some_iff.mp hhead
  cases transfer with
  | write message => cases hread
  | read kind =>
    have htaken : state.semaphore .shmRead ≠ 0 ∧ next = semWait .parent .shmRead state := by
      unfold SharedMemory.move at hmove
      rw [hstage, hpending] at hmove
      dsimp only at hmove
      split_ifs at hmove with hzero
      exact ⟨hzero, (Option.some.inj hmove).symm⟩
    obtain ⟨hready, rfl⟩ := htaken
    refine ⟨readSegment .parent kind (semWait .parent .shmRead state), ?_, fun hdelivered ↦ ?_⟩
    · have hentered : ((semWait .parent .shmRead state).process .parent).stage = .entered := rfl
      have hsame :
          ((semWait .parent .shmRead state).process .parent).pending = .read kind :: rest :=
        hpending
      unfold SharedMemory.move
      rw [hentered, hsame]
    · cases hphase with
      | childReads hphase =>
        have hreads := hdelivered.parent_reads
        simp [readSegment, semWait, hphase.child_written] at hreads
      | parentReads hphase =>
        apply hreading
        apply hphase.readsDone
        intro haccessed
        exact hready ((hstate.alone (inside_of_accessed haccessed)).1 .shmRead)

/-- **Delivery in turn.** For every two lists of commands and of strings: when the parent takes
`shm_read` for a read only after the child has done its reads, every state of every schedule without
signals delivers. A step out of turn in such a schedule ends that: after one more step of the parent
the exchange does not deliver. -/
theorem delivered_in_turn (parentCommands childCommands : List UInt8)
    (parentTexts childTexts : List Text) (contents : List UInt8) {state : State}
    (hreach : (exchange (transmission parentCommands parentTexts)
      (transmission childCommands childTexts) contents).ReachableUnder InTurn state) :
    Delivered state ∧
      ∀ next, OutOfTurn state → move .parent state = some next →
        ∃ final, move .parent next = some final ∧ ¬ Delivered final := by
  obtain ⟨hstate, hphase⟩ := phase_of_inTurn hreach
  exact ⟨hphase.delivered hstate, fun next hturn hmove ↦ hphase.outOfTurn hstate hturn hmove⟩

/-- The exchange of the messages of the program with every message read before the next one is
stored. -/
theorem delivered_in_turn_program :
    ∃ state, (exchange (transmission commands txParent) (transmission commands txChild)
        createdSegment).ReachableUnder InTurn state ∧
      received .parent state.log = transmission commands txChild ∧
      received .child state.log = transmission commands txParent ∧ Delivered state := by
  have hrun : (((exchange (transmission commands txParent) (transmission commands txChild)
        createdSegment).restrict InTurn).run
        (exchange (transmission commands txParent) (transmission commands txChild)
          createdSegment).initial
        ((List.replicate 10 (passOn .parent)).flatten ++
          (List.replicate 10 (passOn .child)).flatten)).any
      (fun state ↦ received .parent state.log = transmission commands txChild ∧
        received .child state.log = transmission commands txParent) = true := by
    decide +kernel
  obtain ⟨state, hstate, hfinal⟩ := (Option.any_eq_true _ _).mp hrun
  obtain ⟨hparent, hchild⟩ := of_decide_eq_true hfinal
  have hreach := System.reachableUnder_of_run hstate
  exact ⟨state, hreach, hparent, hchild, (delivered_in_turn _ _ _ _ _ hreach).1⟩

end Apes.SharedMemory
