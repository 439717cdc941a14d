import Mathlib.Algebra.Group.Nat.Defs
import Mathlib.Data.List.Basic
import Mathlib.Data.Int.Basic
import Mathlib.Tactic.Common

/-!
# Executions that stop at a fault

A C function on `int`s and arrays is modelled in `Except Fault`: every arithmetic result passes
through `checkedInt`, every array access through `load` and `store`, so that a result `.ok` says
that no signed overflow and no access outside an array happened on the way. A loop is `whileLoop`
with a bound on its number of rounds; running out of the bound is a fault of its own, so a result
`.ok` also says that the loop ended.

`whileLoop_spec` is the rule for loops: an invariant that the body keeps and a variant that it
decreases give what the invariant and the negated condition imply, for every bound that the
variant does not exceed. `load_append_cons` and `store_append_cons` are the access rules in the
form the invariants of array loops use, with the array cut at the index accessed.
-/

set_option autoImplicit false
set_option relaxedAutoImplicit false

namespace Apes.Library

/-- What ends an execution before it returns. -/
inductive Fault
  | integerRange (value : ℤ)
  | outOfBounds (index : ℤ) (length : ℕ)
  | emptyArray (length : ℤ)
  | nullPointer
  | deadAddress (address : ℕ)
  | outOfFuel
  deriving DecidableEq, Repr

@[simp] theorem ok_bind {α β : Type} (value : α) (next : α → Except Fault β) :
    ((Except.ok value : Except Fault α) >>= next) = next value := rfl

@[simp] theorem pure_eq_ok {α : Type} (value : α) :
    (pure value : Except Fault α) = .ok value := rfl

/-- An execution that returns has returned from its first part. -/
theorem bind_eq_ok {α β : Type} {first : Except Fault α} {next : α → Except Fault β} {result : β}
    (hresult : first >>= next = .ok result) :
    ∃ value, first = .ok value ∧ next value = .ok result := by
  cases first with
  | error fault => cases hresult
  | ok value => exact ⟨value, rfl, hresult⟩

/-- The value of a signed 32-bit expression, a fault when it leaves the range of `int`. -/
def checkedInt (value : ℤ) : Except Fault ℤ :=
  if -2147483648 ≤ value ∧ value ≤ 2147483647 then .ok value else .error (.integerRange value)

theorem checkedInt_ok {value : ℤ} (hlow : -2147483648 ≤ value) (hhigh : value ≤ 2147483647) :
    checkedInt value = .ok value :=
  if_pos ⟨hlow, hhigh⟩

section Arrays

variable {α : Type*}

/-- Reads an array element. -/
def load (array : List α) (index : ℤ) : Except Fault α :=
  if 0 ≤ index then
    match array[index.toNat]? with
    | some value => .ok value
    | none => .error (.outOfBounds index array.length)
  else .error (.outOfBounds index array.length)

/-- Writes an array element. -/
def store (array : List α) (index : ℤ) (value : α) : Except Fault (List α) :=
  if 0 ≤ index ∧ index.toNat < array.length then .ok (array.set index.toNat value)
  else .error (.outOfBounds index array.length)

/-- A variable-length array of `length` elements with indeterminate contents; its length must be
positive. -/
def variableLengthArray (indeterminate : ℕ → α) (length : ℤ) : Except Fault (List α) :=
  if 0 < length then .ok ((List.range length.toNat).map indeterminate)
  else .error (.emptyArray length)

theorem load_natCast {array : List α} {index : ℕ} {value : α}
    (hvalue : array[index]? = some value) :
    load array index = .ok value := by
  simp [load, hvalue]

/-- Reading behind the end of an array is a fault. -/
theorem load_of_length_le {array : List α} {index : ℤ} (hindex : array.length ≤ index) :
    load array index = .error (.outOfBounds index array.length) := by
  have hnone : array[index.toNat]? = none := List.getElem?_eq_none (by omega)
  simp only [load, hnone, ite_self]

/-- Reading at the index where the array is cut gives the first element of the second part. -/
theorem load_append_cons (first rest : List α) (value : α) {index : ℤ}
    (hindex : index = first.length) : load (first ++ value :: rest) index = .ok value := by
  subst hindex
  exact load_natCast (by simp)

/-- Writing at the index where the array is cut replaces the first element of the second part. -/
theorem store_append_cons (first rest : List α) (old value : α) {index : ℤ}
    (hindex : index = first.length) :
    store (first ++ old :: rest) index value = .ok (first ++ value :: rest) := by
  subst hindex
  simp [store]

theorem variableLengthArray_ok (indeterminate : ℕ → α) {length : ℕ} (hpositive : 0 < length) :
    variableLengthArray indeterminate length = .ok ((List.range length).map indeterminate) := by
  simp [variableLengthArray, hpositive]

end Arrays

section Loops

variable {σ : Type*}

/-- `while (condition) body`, with a bound on the number of rounds. -/
def whileLoop (condition : σ → Bool) (body : σ → Except Fault σ) : ℕ → σ → Except Fault σ
  | 0, state => if condition state then .error .outOfFuel else .ok state
  | fuel + 1, state =>
    if condition state then (body state).bind (whileLoop condition body fuel) else .ok state

theorem whileLoop_exit {condition : σ → Bool} {body : σ → Except Fault σ} {state : σ}
    (hexit : condition state = false) (fuel : ℕ) :
    whileLoop condition body fuel state = .ok state := by
  cases fuel <;> simp [whileLoop, hexit]

/-- A round of a loop whose body succeeds. -/
theorem whileLoop_next {condition : σ → Bool} {body : σ → Except Fault σ} {state next : σ}
    (hcondition : condition state = true) (hbody : body state = .ok next) (fuel : ℕ) :
    whileLoop condition body (fuel + 1) state = whileLoop condition body fuel next := by
  rw [whileLoop, if_pos hcondition, hbody]
  rfl

/-- The rule for loops. Assumes: under the invariant and the condition the body succeeds, keeps the
invariant and decreases the variant, and the invariant without the condition gives the
postcondition. For every bound at least the variant, the loop ends with the postcondition. -/
theorem whileLoop_spec {condition : σ → Bool} {body : σ → Except Fault σ} {post : σ → Prop}
    (invariant : σ → Prop) (variant : σ → ℕ)
    (hbody : ∀ state, invariant state → condition state = true → ∃ next,
      body state = .ok next ∧ invariant next ∧ variant next < variant state)
    (hpost : ∀ state, invariant state → condition state = false → post state)
    {fuel : ℕ} {state : σ} (hstate : invariant state) (hfuel : variant state ≤ fuel) :
    ∃ final, whileLoop condition body fuel state = .ok final ∧ post final := by
  induction fuel generalizing state with
  | zero =>
    cases hcondition : condition state with
    | false => exact ⟨state, whileLoop_exit hcondition 0, hpost state hstate hcondition⟩
    | true =>
      obtain ⟨next, _, _, hless⟩ := hbody state hstate hcondition
      omega
  | succ fuel ih =>
    cases hcondition : condition state with
    | false => exact ⟨state, whileLoop_exit hcondition _, hpost state hstate hcondition⟩
    | true =>
      obtain ⟨next, hnext, hinvariant, hless⟩ := hbody state hstate hcondition
      obtain ⟨final, hfinal, hdone⟩ := ih hinvariant (by omega)
      refine ⟨final, ?_, hdone⟩
      rw [whileLoop_next hcondition hnext]
      exact hfinal

end Loops

end Apes.Library
