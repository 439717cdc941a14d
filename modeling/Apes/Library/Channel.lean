import Mathlib.Data.List.Forall2
import Mathlib.Tactic.Common

/-!
# Queues between a sender and a receiver

Over a reliable channel in order, what the receiver has still to receive is what is in transit
followed by what the sender has still to send. `Carries` says so for a queue of packets that stand
for items: each packet encodes its item, in a relation that the protocol chooses. A send appends a
packet (`Carries.send`), a receive takes the first one, which encodes the next item
(`Carries.receive`), and an empty queue has nothing in transit (`Carries.eq_of_nil`).
-/

set_option autoImplicit false
set_option relaxedAutoImplicit false

namespace Apes.Library

variable {Packet Item : Type*} {encodes : Packet → Item → Prop}

/-- The queue carries the items that the receiver has still to receive and the sender has sent. -/
def Carries (encodes : Packet → Item → Prop) (queue : List Packet) (toSend toReceive : List Item) :
    Prop :=
  ∃ inTransit, List.Forall₂ encodes queue inTransit ∧ toReceive = inTransit ++ toSend

variable {packet : Packet} {item : Item} {queue : List Packet} {toSend toReceive : List Item}

/-- Before anything has been sent the queue is empty. -/
theorem carries_nil (items : List Item) : Carries encodes [] items items :=
  ⟨[], .nil, rfl⟩

/-- A packet sent for the next item. -/
theorem Carries.send (hcarries : Carries encodes queue (item :: toSend) toReceive)
    (hencodes : encodes packet item) : Carries encodes (queue ++ [packet]) toSend toReceive := by
  obtain ⟨inTransit, hqueue, htotal⟩ := hcarries
  refine ⟨inTransit ++ [item], List.rel_append hqueue (.cons hencodes .nil), ?_⟩
  rw [htotal, List.append_assoc, List.singleton_append]

/-- The first packet encodes the next item to receive. -/
theorem Carries.receive (hcarries : Carries encodes (packet :: queue) toSend toReceive) :
    ∃ item rest, toReceive = item :: rest ∧ encodes packet item ∧
      Carries encodes queue toSend rest := by
  obtain ⟨inTransit, hqueue, htotal⟩ := hcarries
  obtain ⟨item, others, hencodes, hothers, rfl⟩ := List.forall₂_cons_left_iff.mp hqueue
  exact ⟨item, others ++ toSend, htotal, hencodes, others, hothers, rfl⟩

/-- With an empty queue the receiver has to receive what the sender has to send. -/
theorem Carries.eq_of_nil (hcarries : Carries encodes [] toSend toReceive) :
    toReceive = toSend := by
  obtain ⟨inTransit, hqueue, htotal⟩ := hcarries
  rw [List.forall₂_nil_left_iff.mp hqueue] at htotal
  exact htotal

/-- When nothing is left to receive, nothing is in transit and nothing is left to send. -/
theorem Carries.eq_nil (hcarries : Carries encodes queue toSend []) : queue = [] ∧ toSend = [] := by
  obtain ⟨inTransit, hqueue, htotal⟩ := hcarries
  obtain ⟨rfl, rfl⟩ := List.append_eq_nil_iff.mp htotal.symm
  exact ⟨List.forall₂_nil_right_iff.mp hqueue, rfl⟩

/-- The queue is empty when the receiver has to receive no more than the sender has to send. -/
theorem Carries.queue_eq_nil {items : List Item} (hcarries : Carries encodes queue items items) :
    queue = [] := by
  obtain ⟨inTransit, hqueue, htotal⟩ := hcarries
  rw [List.self_eq_append_left.mp htotal] at hqueue
  exact List.forall₂_nil_right_iff.mp hqueue

end Apes.Library
