import Mathlib.Data.List.Flatten

/-!
# Messages on a serial device

Messages are begun one after another and written out item by item. `Emitted begun output pending`
says that the messages begun are written out whole up to what is pending of the last one; `none` is
the device at rest. One lemma for the start of a message, for an item and for the end of a message
keeps it. `Intact` is what a reader of the device sees: whole messages, and the start of at most one
more.
-/

set_option autoImplicit false
set_option relaxedAutoImplicit false

namespace Apes.Library

variable {α : Type*} {begun : List (List α)} {output rest : List α} {item : α}

/-- The messages begun are written out, up to what is pending of the last. -/
def Emitted (begun : List (List α)) (output : List α) : Option (List α) → Prop
  | none => output = begun.flatten
  | some rest =>
    ∃ whole printed, begun = whole ++ [printed ++ rest] ∧ output = whole.flatten ++ printed

/-- The output is a concatenation of messages in the order in which they were begun, the last one
possibly not whole. -/
def Intact (begun : List (List α)) (output : List α) : Prop :=
  output = begun.flatten ∨
    ∃ whole message printed, begun = whole ++ [message] ∧ printed <+: message ∧
      output = whole.flatten ++ printed

/-- A message is begun on the device at rest. -/
theorem Emitted.start (hemitted : Emitted begun output none) (message : List α) :
    Emitted (begun ++ [message]) output (some message) :=
  ⟨begun, [], rfl, hemitted.trans (List.append_nil _).symm⟩

/-- The next item of a message is written. -/
theorem Emitted.put (hemitted : Emitted begun output (some (item :: rest))) :
    Emitted begun (output ++ [item]) (some rest) := by
  obtain ⟨whole, printed, hbegun, houtput⟩ := hemitted
  refine ⟨whole, printed ++ [item], ?_, ?_⟩
  · rw [hbegun, List.append_assoc]
    rfl
  · rw [houtput, List.append_assoc]

/-- A message that is written out whole leaves the device at rest. -/
theorem Emitted.finish (hemitted : Emitted begun output (some [])) : Emitted begun output none := by
  obtain ⟨whole, printed, rfl, rfl⟩ := hemitted
  change _ = List.flatten _
  rw [List.flatten_append, List.append_nil]
  simp

/-- What is emitted in this way is intact. -/
theorem Emitted.intact {pending : Option (List α)} (hemitted : Emitted begun output pending) :
    Intact begun output := by
  cases pending with
  | none => exact .inl hemitted
  | some rest =>
    obtain ⟨whole, printed, hbegun, houtput⟩ := hemitted
    exact .inr ⟨whole, printed ++ rest, printed, hbegun, List.prefix_append _ _, houtput⟩

/-- An intact output has all messages but the last. -/
theorem Intact.length_le (hintact : Intact begun output) :
    begun.dropLast.flatten.length ≤ output.length := by
  rcases hintact with rfl | ⟨whole, message, printed, rfl, -, rfl⟩
  · exact ((List.dropLast_sublist begun).flatten).length_le
  · rw [List.dropLast_concat, List.length_append]
    exact Nat.le_add_right _ _

end Apes.Library
