import Mathlib.Tactic.Common

/-!
# Sequences of checks

A call that checks its arguments one after the other, and stops at the first check that fails with
the error of that check, is a computation in `Except Error`. `require condition error` is one check.
`seq_eq_ok_iff` and `require_eq_ok_iff` read off what a call that succeeds has checked;
`require_seq_eq_ok_iff` is both at once, and `require_seq_of` steps over a check that holds.
-/

set_option autoImplicit false
set_option relaxedAutoImplicit false

namespace Apes.Library

variable {Error : Type}

/-- A condition on an optional argument is decided by looking at the argument, also when its type is
finite. -/
instance decidableForallArgument {Value : Type} (argument : Option Value) (condition : Value → Prop)
    [DecidablePred condition] : Decidable (∀ value ∈ argument, condition value) :=
  Option.decidableForallMem argument

/-- A check: the error, unless the condition holds. -/
def require (condition : Prop) [Decidable condition] (error : Error) : Except Error Unit :=
  if condition then .ok () else .error error

/-- A check succeeds exactly when its condition holds. -/
@[simp] theorem require_eq_ok_iff {condition : Prop} [Decidable condition] {error : Error} :
    require condition error = .ok () ↔ condition := by
  unfold require
  split_ifs with hcondition
  · simp [hcondition]
  · simp [hcondition]

/-- A sequence succeeds exactly when its first part succeeds and the rest does on its value. -/
theorem seq_eq_ok_iff {Value Result : Type} {first : Except Error Value}
    {next : Value → Except Error Result} {result : Result} :
    first >>= next = .ok result ↔ ∃ value, first = .ok value ∧ next value = .ok result := by
  cases first with
  | error error =>
    constructor
    · intro hresult
      injection hresult
    · rintro ⟨value, hfirst, -⟩
      injection hfirst
  | ok value =>
    constructor
    · intro hresult
      exact ⟨value, rfl, hresult⟩
    · rintro ⟨other, hfirst, hresult⟩
      injection hfirst with hvalue
      exact hvalue ▸ hresult

/-- A check and what follows succeed exactly when the condition holds and the rest succeeds. -/
theorem require_seq_eq_ok_iff {Result : Type} {condition : Prop} [Decidable condition]
    {error : Error} {rest : Except Error Result} {result : Result} :
    (require condition error >>= fun _ ↦ rest) = .ok result ↔ condition ∧ rest = .ok result := by
  rw [seq_eq_ok_iff]
  constructor
  · rintro ⟨⟨⟩, hcondition, hrest⟩
    exact ⟨require_eq_ok_iff.mp hcondition, hrest⟩
  · rintro ⟨hcondition, hrest⟩
    exact ⟨(), require_eq_ok_iff.mpr hcondition, hrest⟩

/-- A check that holds does nothing. -/
theorem require_seq_of {Result : Type} {condition : Prop} [Decidable condition]
    (hcondition : condition) (error : Error) (rest : Except Error Result) :
    (require condition error >>= fun _ ↦ rest) = rest := by
  unfold require
  rw [if_pos hcondition]
  rfl

end Apes.Library
