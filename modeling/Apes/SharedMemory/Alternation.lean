import Apes.SharedMemory.Discipline
import Mathlib.Algebra.Ring.Parity

/-!
# Writes and reads of the segment alternate

Without signals the token of the two semaphores (`Disciplined`) passes from the writes to the reads
and back: a process inside for a write finds the slot empty, one inside for a read finds it full.
`Alternating` is what follows for the log of the accesses, whichever processes make them and however
many they have to make: writes and reads take turns, the segment is what the writes so far have left
there, and each read sees what the write before it has left. `accesses_alternate` states it for the
`k`-th read and the `k`-th write.

The kinds of the two may differ when the processes disagree about the sequence; a read of the other
kind sees the same bytes as what it expects.
-/

set_option autoImplicit false
set_option relaxedAutoImplicit false

namespace Apes.SharedMemory

open Library Ipc

/-! ### The sequence of the accesses -/

/-- Whether an access is a write. -/
def Access.isWrite : Access → Bool
  | .write _ _ => true
  | .read _ _ => false

/-- The message that a write stores. -/
def Access.storedMessage : Access → Option Message
  | .write _ message => some message
  | .read _ _ => none

/-- The message that a read sees. -/
def Access.seenMessage : Access → Option Message
  | .write _ _ => none
  | .read _ message => some message

/-- The messages stored by the guarded writes of both processes, oldest first. -/
def guardedWrites (log : List Access) : List Message := log.filterMap Access.storedMessage

/-- The messages seen by the guarded reads of both processes, oldest first. -/
def guardedReads (log : List Access) : List Message := log.filterMap Access.seenMessage

/-- The segment after a sequence of writes. -/
def segmentAfter (contents : List UInt8) (messages : List Message) : List UInt8 :=
  messages.foldl (fun segment message ↦ stored message segment) contents

/-- What is read has the kind that was asked for. -/
@[simp] theorem kind_loaded (kind : Kind) (segment : List UInt8) :
    (loaded kind segment).kind = kind := by
  cases kind <;> rfl

section Append

variable (log : List Access) (party : Party) (message : Message)

@[simp] theorem guardedWrites_append_write :
    guardedWrites (log ++ [.write party message]) = guardedWrites log ++ [message] := by
  rw [guardedWrites, List.filterMap_append]
  rfl

@[simp] theorem guardedWrites_append_read :
    guardedWrites (log ++ [.read party message]) = guardedWrites log := by
  rw [guardedWrites, List.filterMap_append]
  exact List.append_nil _

@[simp] theorem guardedReads_append_write :
    guardedReads (log ++ [.write party message]) = guardedReads log := by
  rw [guardedReads, List.filterMap_append]
  exact List.append_nil _

@[simp] theorem guardedReads_append_read :
    guardedReads (log ++ [.read party message]) = guardedReads log ++ [message] := by
  rw [guardedReads, List.filterMap_append]
  rfl

end Append

/-- One write more. -/
theorem segmentAfter_append (contents : List UInt8) (messages : List Message) (message : Message) :
    segmentAfter contents (messages ++ [message]) =
      stored message (segmentAfter contents messages) := by
  rw [segmentAfter, List.foldl_append]
  rfl

/-! ### The invariant -/

/-- The accesses so far take turns, starting with a write, and each read has seen what the write
before it has left in the segment. -/
structure Alternating (contents : List UInt8) (state : State) : Prop where
  segment : state.segment = segmentAfter contents (guardedWrites state.log)
  length : state.log.length =
    (guardedWrites state.log).length + (guardedReads state.log).length
  pending : (guardedWrites state.log).length =
    (guardedReads state.log).length + if slot state.log = none then 0 else 1
  turns : ∀ (index : ℕ) (access : Access), state.log[index]? = some access →
    (access.isWrite = true ↔ Even index)
  seen : ∀ (index : ℕ) (message : Message), (guardedReads state.log)[index]? = some message →
    message = loaded message.kind
      (segmentAfter contents ((guardedWrites state.log).take (index + 1)))

variable {contents : List UInt8} {state next : State} {party : Party}

/-- A property of the elements of a list at their positions holds after an element has been
appended. -/
theorem forall_getElem?_append_singleton {α : Type*} {property : ℕ → α → Prop} {items : List α}
    {item : α} (hitems : ∀ index other, items[index]? = some other → property index other)
    (hitem : property items.length item) (index : ℕ) (other : α)
    (hother : (items ++ [item])[index]? = some other) : property index other := by
  rcases Nat.lt_trichotomy index items.length with hless | heq | hgreater
  · rw [List.getElem?_append_left hless] at hother
    exact hitems index other hother
  · subst heq
    rw [List.getElem?_concat_length, Option.some.injEq] at hother
    exact hother ▸ hitem
  · rw [List.getElem?_eq_none (by rw [List.length_append, List.length_singleton]; omega)] at hother
    simp at hother

/-- A write into an empty slot is the turn of the writes. -/
theorem Alternating.writeSegment (hstate : Alternating contents state)
    (hslot : slot state.log = none) (message : Message) :
    Alternating contents (writeSegment party message state) := by
  have hlength := hstate.length
  have hpending := hstate.pending
  rw [if_pos hslot] at hpending
  constructor
  · change stored message state.segment = segmentAfter contents (guardedWrites (_ ++ [_]))
    rw [guardedWrites_append_write, segmentAfter_append, hstate.segment]
  · change (state.log ++ [Access.write party message]).length = _ + (guardedReads (_ ++ [_])).length
    change _ = (guardedWrites (_ ++ [_])).length + _
    rw [guardedWrites_append_write, guardedReads_append_write, List.length_append,
      List.length_append]
    simp only [List.length_singleton]
    omega
  · change (guardedWrites (_ ++ [_])).length =
      (guardedReads (_ ++ [_])).length + if slot (_ ++ [_]) = none then 0 else 1
    rw [guardedWrites_append_write, guardedReads_append_write, slot_append_write,
      if_neg (Option.some_ne_none _), List.length_append, List.length_singleton, hpending]
  · refine forall_getElem?_append_singleton hstate.turns ?_
    refine iff_of_true rfl ?_
    rw [hlength, hpending]
    exact ⟨_, rfl⟩
  · intro index seen hseen
    change (guardedReads (_ ++ [_]))[index]? = some seen at hseen
    rw [guardedReads_append_write] at hseen
    have hindex := (List.getElem?_eq_some_iff.mp hseen).1
    change seen = loaded seen.kind (segmentAfter contents ((guardedWrites (_ ++ [_])).take _))
    rw [guardedWrites_append_write, List.take_append_of_le_length (by omega)]
    exact hstate.seen index seen hseen

/-- A read from a full slot is the turn of the reads. -/
theorem Alternating.readSegment (hstate : Alternating contents state)
    (hslot : slot state.log ≠ none) (kind : Kind) :
    Alternating contents (readSegment party kind state) := by
  have hlength := hstate.length
  have hpending := hstate.pending
  rw [if_neg hslot] at hpending
  constructor
  · change state.segment = segmentAfter contents (guardedWrites (_ ++ [_]))
    rw [guardedWrites_append_read, hstate.segment]
  · change (state.log ++ [Access.read party _]).length = _ + (guardedReads (_ ++ [_])).length
    change _ = (guardedWrites (_ ++ [_])).length + _
    rw [guardedWrites_append_read, guardedReads_append_read, List.length_append, List.length_append]
    simp only [List.length_singleton]
    omega
  · change (guardedWrites (_ ++ [_])).length =
      (guardedReads (_ ++ [_])).length + if slot (_ ++ [_]) = none then 0 else 1
    rw [guardedWrites_append_read, guardedReads_append_read, slot_append_read, if_pos rfl,
      List.length_append, List.length_singleton, hpending]
  · refine forall_getElem?_append_singleton hstate.turns ?_
    refine iff_of_false Bool.false_ne_true ?_
    rw [hlength, hpending, Nat.not_even_iff_odd]
    exact ⟨(guardedReads state.log).length, by omega⟩
  · change ∀ (index : ℕ) (message : Message), (guardedReads (_ ++ [_]))[index]? = some message →
      message = loaded message.kind (segmentAfter contents ((guardedWrites (_ ++ [_])).take _))
    rw [guardedReads_append_read, guardedWrites_append_read]
    refine forall_getElem?_append_singleton hstate.seen ?_
    rw [kind_loaded, ← hpending, List.take_length, ← hstate.segment]

/-- Every step of a process keeps the turns. Assumes: the discipline of the semaphores. -/
theorem Alternating.move (hstate : Alternating contents state) (hdisciplined : Disciplined state)
    (hmove : move party state = some next) : Alternating contents next := by
  rcases move_cases hmove with ⟨-, rfl⟩ | ⟨transfer, rest, -, -, -, rfl⟩ |
    ⟨message, rest, hstage, hpending, rfl⟩ | ⟨kind, rest, hstage, hpending, rfl⟩ |
    ⟨transfer, rest, -, -, rfl⟩ | ⟨-, rfl⟩
  · exact ⟨hstate.segment, hstate.length, hstate.pending, hstate.turns, hstate.seen⟩
  · exact ⟨hstate.segment, hstate.length, hstate.pending, hstate.turns, hstate.seen⟩
  · have hslot := (hdisciplined.agrees party _ rest hpending).1 hstage
    exact hstate.writeSegment hslot message
  · have hslot := (hdisciplined.agrees party _ rest hpending).1 hstage
    exact hstate.readSegment hslot kind
  · exact ⟨hstate.segment, hstate.length, hstate.pending, hstate.turns, hstate.seen⟩
  · exact ⟨hstate.segment, hstate.length, hstate.pending, hstate.turns, hstate.seen⟩

/-- Before the first access. -/
theorem alternating_initial (parent child : List Transfer) (contents : List UInt8) :
    Alternating contents (transferring parent child contents).initial := by
  constructor
  · rfl
  · rfl
  · rfl
  · intro index access haccess
    cases haccess
  · intro index message hmessage
    cases hmessage

/-- Every state reached without a signal is disciplined and its accesses take turns. -/
theorem alternating_of_reachable {parent child : List Transfer}
    (hreach : (transferring parent child contents).ReachableUnder Unsignalled state) :
    Disciplined state ∧ Alternating contents state := by
  refine System.ReachableUnder.invariant ?_ ?_ hreach
  · exact ⟨disciplined_initial parent child contents, alternating_initial parent child contents⟩
  · rintro state event next ⟨hdisciplined, hstate⟩ hunsignalled hstep
    cases event with
    | step party => exact ⟨hdisciplined.move hstep, hstate.move hdisciplined hstep⟩
    | sigint party => exact hunsignalled.elim

/-- **Writes and reads of the segment alternate.** For every two lists of transfers and every
interleaving without a signal: the accesses at the even positions of the log are the writes; there
is a `k`-th write for the `k`-th read, the read sees the segment as that write has left it, and it
sees the message stored when it expects one of that kind. -/
theorem accesses_alternate (parent child : List Transfer) (contents : List UInt8) {state : State}
    (hreach : (transferring parent child contents).ReachableUnder Unsignalled state) :
    (∀ (index : ℕ) (access : Access), state.log[index]? = some access →
        (access.isWrite = true ↔ Even index)) ∧
      ∀ (k : ℕ) (seen : Message), (guardedReads state.log)[k]? = some seen →
        ∃ sent, (guardedWrites state.log)[k]? = some sent ∧
          seen = loaded seen.kind
            (segmentAfter contents ((guardedWrites state.log).take (k + 1))) ∧
          (seen.kind = sent.kind → seen = sent) := by
  obtain ⟨-, hstate⟩ := alternating_of_reachable hreach
  refine ⟨hstate.turns, ?_⟩
  intro k seen hseen
  have hread := (List.getElem?_eq_some_iff.mp hseen).1
  have hwrite : k < (guardedWrites state.log).length := by
    have hpending := hstate.pending
    omega
  have hloaded := hstate.seen k seen hseen
  refine ⟨(guardedWrites state.log)[k], List.getElem?_eq_getElem hwrite, hloaded, ?_⟩
  intro hkind
  rw [List.take_add_one, List.getElem?_eq_getElem hwrite, Option.toList_some,
    segmentAfter_append, hkind, loaded_stored] at hloaded
  exact hloaded

/-- The first two messages of the program, each stored by the parent and read by the child. -/
theorem accesses_alternate_program : ∃ state : State,
    (transferring (writes (transmission commands txParent)) (reads (transmission commands txParent))
      createdSegment).ReachableUnder Unsignalled state ∧
    guardedReads state.log = [.command 1, .command 0] ∧
    ∃ sent, (guardedWrites state.log)[1]? = some sent ∧ sent = .command 0 := by
  have hrun : ∃ state : State, ((transferring (writes (transmission commands txParent))
        (reads (transmission commands txParent)) createdSegment).restrict Unsignalled).run
      (transferring (writes (transmission commands txParent))
        (reads (transmission commands txParent)) createdSegment).initial
      ((List.replicate 2 (List.replicate 4 (Event.step .parent) ++
        List.replicate 4 (.step .child))).flatten) = some state ∧
      guardedReads state.log = [.command 1, .command 0] ∧
      guardedWrites state.log = [.command 1, .command 0] := by
    refine ⟨_, rfl, ?_⟩
    decide
  obtain ⟨state, hstate, hreads, hwrites⟩ := hrun
  have hreach := System.reachableUnder_of_run hstate
  obtain ⟨-, hseen⟩ := accesses_alternate _ _ _ hreach
  obtain ⟨sent, hsent, -, hsame⟩ := hseen 1 (.command 0) (by rw [hreads]; rfl)
  refine ⟨state, hreach, hreads, sent, hsent, ?_⟩
  rw [hwrites, List.getElem?_cons_succ, List.getElem?_cons_zero, Option.some.injEq] at hsent
  exact (hsame (by rw [← hsent])).symm

end Apes.SharedMemory
