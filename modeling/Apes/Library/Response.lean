import Mathlib.Data.List.Basic
import Mathlib.Tactic.Common

/-!
# Requests and answers in a history

A history is the list of what has happened, the oldest entry first. `Responds request answer
history` says that no request is left without an answer that came after it. It does not count: one
answer may serve many requests. An answer at the end serves them all (`responds_append_answer`), and
an entry that is no request leaves none open (`Responds.append`).
-/

set_option autoImplicit false
set_option relaxedAutoImplicit false

namespace Apes.Library

variable {Entry : Type*} {request answer : Entry → Prop} {history : List Entry} {last : Entry}

/-- Every request of the history is followed by an answer. -/
def Responds (request answer : Entry → Prop) : List Entry → Prop
  | [] => True
  | entry :: rest => (request entry → ∃ other ∈ rest, answer other) ∧ Responds request answer rest

/-- An entry that is no request leaves no request open. -/
theorem Responds.append (hresponds : Responds request answer history) (hlast : ¬ request last) :
    Responds request answer (history ++ [last]) := by
  induction history with
  | nil => exact ⟨fun hrequest ↦ absurd hrequest hlast, trivial⟩
  | cons entry rest ih =>
    refine ⟨fun hrequest ↦ ?_, ih hresponds.2⟩
    obtain ⟨other, hmem, hother⟩ := hresponds.1 hrequest
    exact ⟨other, List.mem_append_left _ hmem, hother⟩

/-- An answer at the end of a history serves every request. -/
theorem responds_append_answer (history : List Entry) (hlast : ¬ request last)
    (hanswer : answer last) : Responds request answer (history ++ [last]) := by
  induction history with
  | nil => exact ⟨fun hrequest ↦ absurd hrequest hlast, trivial⟩
  | cons entry rest ih =>
    exact ⟨fun _ ↦ ⟨last, List.mem_append_right _ (List.mem_singleton_self last), hanswer⟩, ih⟩

/-- A request anywhere in the history is followed by an answer. -/
theorem Responds.exists_answer {before after : List Entry} {entry : Entry}
    (hresponds : Responds request answer (before ++ entry :: after)) (hrequest : request entry) :
    ∃ other ∈ after, answer other := by
  induction before with
  | nil => exact hresponds.1 hrequest
  | cons first before ih => exact ih hresponds.2

end Apes.Library
