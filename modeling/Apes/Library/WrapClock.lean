import Mathlib.Data.Nat.Basic
import Mathlib.Tactic.Common

/-!
# Clocks that wrap around

A counter of a given modulus shows the time only up to the times it has wrapped. `epoch` is how
often it has wrapped at a time and `shown` is what it shows. Two times of one epoch are ordered as
what is shown of them (`shown_le_iff`), two times less than the modulus apart are in one epoch or in
neighbouring ones, which what is shown of them tells (`shown_lt_iff`), and the time between them is
a difference modulo the modulus (`shown_sub`).

`placement` decides from what is shown where a deadline lies that is a period after a command: it
has passed, it is still ahead in the epoch of the present, or it is in the next epoch.
`placement_eq` says that the decision is right as long as the command is less than the modulus ago.
-/

set_option autoImplicit false
set_option relaxedAutoImplicit false

namespace Apes.Library

variable {modulus : ℕ}

/-- How often a counter has wrapped at a time. -/
def epoch (modulus time : ℕ) : ℕ := time / modulus

/-- What a counter shows at a time. -/
def shown (modulus time : ℕ) : ℕ := time % modulus

/-- A time is given by its epoch and by what is shown. -/
theorem epoch_add_shown (modulus time : ℕ) :
    modulus * epoch modulus time + shown modulus time = time := Nat.div_add_mod time modulus

/-- What is shown is less than the modulus. -/
theorem shown_lt (hpos : 0 < modulus) (time : ℕ) : shown modulus time < modulus :=
  Nat.mod_lt time hpos

/-- Later times are not in earlier epochs. -/
theorem epoch_mono {first second : ℕ} (hle : first ≤ second) :
    epoch modulus first ≤ epoch modulus second := Nat.div_le_div_right hle

/-- Two times less than the modulus apart are in one epoch or in neighbouring ones. -/
theorem epoch_cases {first second : ℕ} (hpos : 0 < modulus) (hle : first ≤ second)
    (hrecent : second < first + modulus) :
    epoch modulus second = epoch modulus first ∨
      epoch modulus second = epoch modulus first + 1 := by
  have hnotBefore : epoch modulus first ≤ epoch modulus second := epoch_mono hle
  have hnotAfter : epoch modulus second ≤ epoch modulus first + 1 := by
    calc epoch modulus second
        ≤ epoch modulus (first + modulus) := epoch_mono (Nat.le_of_lt hrecent)
      _ = epoch modulus first + 1 := Nat.add_div_right first hpos
  omega

/-- Two times of one epoch are less than the modulus apart. -/
theorem lt_add_of_epoch_eq {first second : ℕ} (hpos : 0 < modulus)
    (hsame : epoch modulus first = epoch modulus second) : second < first + modulus := by
  have hfirst := epoch_add_shown modulus first
  have hsecond := epoch_add_shown modulus second
  have hshown := shown_lt hpos second
  rw [hsame] at hfirst
  omega

/-- A time of an earlier epoch is earlier. -/
theorem lt_of_epoch_lt {first second : ℕ} (hless : epoch modulus first < epoch modulus second) :
    first < second := by
  by_contra hnot
  exact absurd (epoch_mono (Nat.not_lt.mp hnot)) (Nat.not_le.mpr hless)

/-- In one epoch the times are ordered as what is shown of them. -/
theorem shown_le_iff {first second : ℕ} (hsame : epoch modulus first = epoch modulus second) :
    shown modulus first ≤ shown modulus second ↔ first ≤ second := by
  have hfirst := epoch_add_shown modulus first
  have hsecond := epoch_add_shown modulus second
  rw [hsame] at hfirst
  omega

/-- A time of the next epoch is the time of this epoch that is shown, and the modulus. -/
theorem eq_of_epoch_succ {first second : ℕ}
    (hnext : epoch modulus second = epoch modulus first + 1) :
    first + modulus + shown modulus second = second + shown modulus first := by
  have hfirst := epoch_add_shown modulus first
  have hsecond := epoch_add_shown modulus second
  rw [hnext, Nat.mul_succ] at hsecond
  omega

/-- A counter that shows less than before has wrapped. Assumes: less than the modulus has passed. -/
theorem shown_lt_iff {last now : ℕ} (hpos : 0 < modulus) (hle : last ≤ now)
    (hrecent : now < last + modulus) :
    shown modulus now < shown modulus last ↔ epoch modulus now = epoch modulus last + 1 := by
  constructor
  · intro hless
    rcases epoch_cases hpos hle hrecent with hsame | hnext
    · exact absurd ((shown_le_iff hsame.symm).mpr hle) (Nat.not_le.mpr hless)
    · exact hnext
  · intro hnext
    have heq := eq_of_epoch_succ hnext
    omega

/-- The time that has passed is the difference of what is shown. Assumes: it is less than the
modulus. -/
theorem shown_sub {first second : ℕ} (hpos : 0 < modulus) (hle : first ≤ second)
    (hrecent : second < first + modulus) :
    (modulus - shown modulus first + shown modulus second) % modulus = second - first := by
  have hfirstShown := shown_lt hpos first
  rcases epoch_cases hpos hle hrecent with hsame | hnext
  · have hfirst := epoch_add_shown modulus first
    have hsecond := epoch_add_shown modulus second
    rw [hsame] at hsecond
    have hwrapped : modulus - shown modulus first + shown modulus second =
        second - first + modulus := by omega
    rw [hwrapped, Nat.add_mod_right]
    exact Nat.mod_eq_of_lt (by omega)
  · have heq := eq_of_epoch_succ hnext
    have hdifference : modulus - shown modulus first + shown modulus second =
        second - first := by omega
    rw [hdifference]
    exact Nat.mod_eq_of_lt (by omega)

/-- Where a deadline lies. -/
inductive Placement
  | elapsed
  | thisEpoch
  | nextEpoch
  deriving DecidableEq

/-- The decision from what is shown of the deadline, of the present and of the command. -/
def placement (modulus period deadline now command : ℕ) : Placement :=
  if deadline ≤ now then
    if period ≤ (modulus - command + now) % modulus then .elapsed else .nextEpoch
  else if now < command ∧ command ≤ deadline then .elapsed
  else .thisEpoch

/-- The decision is right. Assumes: the command is not ahead of the present and less than the
modulus ago, and the period is less than the modulus. -/
theorem placement_eq {period now command : ℕ} (hperiod : period < modulus) (hle : command ≤ now)
    (hrecent : now < command + modulus) :
    placement modulus period (shown modulus (command + period)) (shown modulus now)
        (shown modulus command) = .elapsed ∧ command + period ≤ now ∨
      placement modulus period (shown modulus (command + period)) (shown modulus now)
        (shown modulus command) = .thisEpoch ∧ now < command + period ∧
          epoch modulus (command + period) = epoch modulus now ∨
      placement modulus period (shown modulus (command + period)) (shown modulus now)
        (shown modulus command) = .nextEpoch ∧ now < command + period ∧
          epoch modulus (command + period) = epoch modulus now + 1 := by
  have hpos : 0 < modulus := Nat.zero_lt_of_lt hperiod
  have hdeadline : epoch modulus (command + period) = epoch modulus command ∨
      epoch modulus (command + period) = epoch modulus command + 1 :=
    epoch_cases hpos (Nat.le_add_right _ _) (by omega)
  have hpresent := epoch_cases hpos hle hrecent
  have hwrapped := shown_lt_iff hpos hle hrecent
  have hdeadlineShown : shown modulus (command + period) < shown modulus command ↔
      epoch modulus (command + period) = epoch modulus command + 1 :=
    shown_lt_iff hpos (Nat.le_add_right _ _) (by omega)
  unfold placement
  rw [shown_sub hpos hle hrecent]
  by_cases hpassed : command + period ≤ now
  · left
    refine ⟨?_, hpassed⟩
    split_ifs with hshown helapsed hbetween
    · rfl
    · omega
    · rfl
    · exfalso
      have hmono : epoch modulus (command + period) ≤ epoch modulus now := epoch_mono hpassed
      rcases hpresent with hsame | hnext
      · have hsameDeadline : epoch modulus (command + period) = epoch modulus now := by omega
        exact hshown ((shown_le_iff hsameDeadline).mpr hpassed)
      · have hless := hwrapped.mpr hnext
        have hcommand : ¬ shown modulus command ≤ shown modulus (command + period) :=
          fun hcommand ↦ hbetween ⟨hless, hcommand⟩
        have hdeadlineNext := hdeadlineShown.mp (Nat.not_le.mp hcommand)
        exact hshown ((shown_le_iff (hdeadlineNext.trans hnext.symm)).mpr hpassed)
  · right
    have hahead : now < command + period := Nat.not_le.mp hpassed
    have hmono : epoch modulus now ≤ epoch modulus (command + period) :=
      epoch_mono (Nat.le_of_lt hahead)
    split_ifs with hshown helapsed hbetween
    · omega
    · right
      refine ⟨rfl, hahead, ?_⟩
      have hdifferent : epoch modulus (command + period) ≠ epoch modulus now :=
        fun hsame ↦ hpassed ((shown_le_iff hsame).mp hshown)
      omega
    · exfalso
      have hnext := hwrapped.mp hbetween.1
      have hdeadlineNext : epoch modulus (command + period) = epoch modulus command + 1 := by
        omega
      exact absurd (hdeadlineShown.mpr hdeadlineNext) (Nat.not_lt.mpr hbetween.2)
    · left
      refine ⟨rfl, hahead, ?_⟩
      rcases hpresent with hsame | hnext
      · by_contra hdifferent
        have hdeadlineNext : epoch modulus (command + period) = epoch modulus command + 1 := by
          omega
        have hless := hdeadlineShown.mpr hdeadlineNext
        have hpresentLe := (shown_le_iff hsame.symm).mpr hle
        omega
      · omega

end Apes.Library
