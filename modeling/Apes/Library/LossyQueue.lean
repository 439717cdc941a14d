import Mathlib.Data.List.Basic
import Mathlib.Tactic.Common

/-!
# Queues that drop what they have no room for

A sender that does not wait offers its items to a queue of a given capacity: the queue takes an item
while it has room, and the item is dropped when it has none. `Traffic` is the queue with the history
of the items that left it. `Accounts capacity offered traffic` says that nothing that was offered is
lost or duplicated otherwise: every item has been received, waits in the queue or has been dropped,
and those that were not dropped keep their order. One lemma for an offer (`Accounts.offer`) and one
for a receipt (`Accounts.receive`) keeps it; `Accounts.length_eq` and `Accounts.received_sublist`
are what it says about the counts and about the receiver.
-/

set_option autoImplicit false
set_option relaxedAutoImplicit false

namespace Apes.Library

variable {α : Type*}

/-- The items received from a queue, those that wait in it, the oldest first, and those that were
dropped. -/
structure Traffic (α : Type*) where
  received : List α
  queue : List α
  dropped : List α

/-- An item is offered to a queue of the capacity. -/
def Traffic.offer (capacity : ℕ) (item : α) (traffic : Traffic α) : Traffic α :=
  if traffic.queue.length < capacity then { traffic with queue := traffic.queue ++ [item] }
  else { traffic with dropped := traffic.dropped ++ [item] }

/-- Every item offered has been received, waits or has been dropped, and those that were not dropped
keep their order. -/
structure Accounts (capacity : ℕ) (offered : List α) (traffic : Traffic α) : Prop where
  bounded : traffic.queue.length ≤ capacity
  ordered : (traffic.received ++ traffic.queue).Sublist offered
  complete : offered.Perm (traffic.received ++ traffic.queue ++ traffic.dropped)

variable {capacity : ℕ} {offered received rest dropped : List α} {traffic : Traffic α} {item : α}

/-- Before anything is offered the queue is empty. -/
theorem accounts_nil (capacity : ℕ) : Accounts capacity ([] : List α) ⟨[], [], []⟩ :=
  ⟨Nat.zero_le _, .refl _, .refl _⟩

/-- An item is taken or dropped. -/
theorem Accounts.offer (haccounts : Accounts capacity offered traffic) (item : α) :
    Accounts capacity (offered ++ [item]) (traffic.offer capacity item) := by
  unfold Traffic.offer
  split_ifs with hroom
  · constructor
    · rw [List.length_append]
      exact hroom
    · rw [← List.append_assoc]
      exact haccounts.ordered.append_right [item]
    · have hmoved : (traffic.received ++ traffic.queue ++ traffic.dropped ++ [item]).Perm
          (traffic.received ++ traffic.queue ++ [item] ++ traffic.dropped) := by
        rw [List.append_assoc, List.append_assoc _ [item]]
        exact (List.perm_append_comm).append_left _
      rw [← List.append_assoc]
      exact (haccounts.complete.append_right [item]).trans hmoved
  · constructor
    · exact haccounts.bounded
    · exact haccounts.ordered.trans (List.sublist_append_left offered [item])
    · rw [← List.append_assoc]
      exact haccounts.complete.append_right [item]

/-- The oldest item of the queue is received. -/
theorem Accounts.receive (haccounts : Accounts capacity offered ⟨received, item :: rest, dropped⟩) :
    Accounts capacity offered ⟨received ++ [item], rest, dropped⟩ := by
  have hmoved : received ++ [item] ++ rest = received ++ item :: rest := by
    rw [List.append_assoc, List.singleton_append]
  constructor
  · exact Nat.le_of_succ_le haccounts.bounded
  · rw [hmoved]
    exact haccounts.ordered
  · rw [hmoved]
    exact haccounts.complete

/-- What was received, waits and was dropped makes up what was offered. -/
theorem Accounts.length_eq (haccounts : Accounts capacity offered traffic) :
    traffic.received.length + traffic.queue.length + traffic.dropped.length = offered.length := by
  rw [haccounts.complete.length_eq, List.length_append, List.length_append]

/-- The receiver has what was offered, in order and with gaps. -/
theorem Accounts.received_sublist (haccounts : Accounts capacity offered traffic) :
    traffic.received.Sublist offered :=
  (List.sublist_append_left _ _).trans haccounts.ordered

/-- An item is dropped only by a full queue. -/
theorem Accounts.full_of_dropped (haccounts : Accounts capacity offered traffic)
    (hdropped : (traffic.offer capacity item).dropped ≠ traffic.dropped) :
    traffic.queue.length = capacity := by
  by_cases hroom : traffic.queue.length < capacity
  · rw [Traffic.offer, if_pos hroom] at hdropped
    exact absurd rfl hdropped
  · exact Nat.le_antisymm haccounts.bounded (Nat.le_of_not_lt hroom)

end Apes.Library
