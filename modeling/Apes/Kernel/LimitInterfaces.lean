import Apes.Kernel.LimitRuns
import Mathlib.Algebra.Group.Nat.Defs
import Mathlib.Data.Nat.Basic
import Mathlib.Order.Basic

/-!
# The interfaces to the limits

A limit is set and read through interfaces of different widths. `wordTo64_wordOf64`,
`wordOf64_wordTo64`, `wordToCompat_wordOfCompat` and `wordOfCompat_wordToCompat_iff` say what
becomes of one value on the way in and out, and out and in again.

`reset_limit_iff` is about a task that reads a limit and sets it again, in machine words: the call
succeeds and changes nothing, except for a hard limit of no processor time, under which the soft
limit is one second and so above it. `compat_reset_limit_iff` is the same in 32 bits, where further
every value has to fit or be no limit; a larger one comes back as no limit, which is a raise.
`oldGetrlimit_eq_iff` is about what `old_getrlimit` shows, in 31 bits.

`prlimit64_read_back` and `compat_read_back` are about a limit that is set and read at any later
time of a run in which no call sets a limit for that resource: what is shown is what was set. Both
rest on `doPrlimit_read_back`, for the limit itself, and on `settled_convert`, for its conversion.
-/

set_option autoImplicit false
set_option relaxedAutoImplicit false

namespace Apes.Kernel

open Library

variable {w : ℕ}

/-! ### The conversions -/

@[ext]
theorem RLimit.ext {first second : RLimit w} (hcur : first.rlimCur = second.rlimCur)
    (hmax : first.rlimMax = second.rlimMax) : first = second := by
  obtain ⟨cur, max⟩ := first
  obtain rfl : cur = second.rlimCur := hcur
  obtain rfl : max = second.rlimMax := hmax
  rfl

/-- What `prlimit64` shows of a value that it has set: a value that does not fit is no limit. -/
def saturate (w : ℕ) (value : BitVec 64) : BitVec 64 :=
  if rlim64IsInfinity w value then rlimInfinity 64 else value

/-- The largest value of a machine word is no limit. -/
theorem rlim64IsInfinity_iff (hw : w ≤ 64) (value : BitVec 64) :
    rlim64IsInfinity w value = true ↔ 2 ^ w - 1 ≤ value.toNat := by
  have hle : 2 ^ w ≤ 2 ^ 64 := Nat.pow_le_pow_right (by decide) hw
  unfold rlim64IsInfinity
  split_ifs with hnarrow
  · rw [decide_eq_true_iff, BitVec.le_def, BitVec.toNat_setWidth, BitVec.toNat_allOnes,
      Nat.mod_eq_of_lt (by omega)]
  · obtain rfl : w = 64 := by omega
    rw [decide_eq_true_iff]
    constructor
    · rintro rfl
      exact le_rfl
    · intro hlarge
      refine BitVec.eq_of_toNat_eq ?_
      have hvalue := value.isLt
      rw [rlimInfinity, BitVec.toNat_allOnes]
      omega

/-- A machine word is no limit exactly when it is the largest one. -/
theorem eq_rlimInfinity_iff (value : BitVec w) :
    value = rlimInfinity w ↔ 2 ^ w - 1 ≤ value.toNat := by
  constructor
  · rintro rfl
    exact (BitVec.toNat_allOnes).ge
  · intro hlarge
    refine BitVec.eq_of_toNat_eq ?_
    have hvalue := value.isLt
    rw [rlimInfinity, BitVec.toNat_allOnes]
    omega

/-- A value in 64 bits, as it is shown after it has been set. -/
theorem wordTo64_wordOf64 (hw : w ≤ 64) (value : BitVec 64) :
    wordTo64 (wordOf64 value : BitVec w) = saturate w value := by
  unfold wordOf64 saturate
  split_ifs with hinfinite
  · exact if_pos rfl
  · have hvalue : value.toNat < 2 ^ w - 1 :=
      Nat.not_le.mp fun hlarge ↦ hinfinite ((rlim64IsInfinity_iff hw value).mpr hlarge)
    have hfits : (value.setWidth w).toNat = value.toNat := by
      rw [BitVec.toNat_setWidth]
      exact Nat.mod_eq_of_lt (by omega)
    have hfinite : value.setWidth w ≠ rlimInfinity w := by
      rw [Ne, eq_rlimInfinity_iff, hfits]
      omega
    unfold wordTo64
    rw [if_neg hfinite]
    refine BitVec.eq_of_toNat_eq ?_
    rw [BitVec.toNat_setWidth, hfits]
    exact Nat.mod_eq_of_lt value.isLt

/-- A machine word, as it is set again after it has been shown in 64 bits. -/
theorem wordOf64_wordTo64 (hw : w ≤ 64) (value : BitVec w) : wordOf64 (wordTo64 value) = value := by
  have hle : 2 ^ w ≤ 2 ^ 64 := Nat.pow_le_pow_right (by decide) hw
  have hvalue := value.isLt
  unfold wordTo64
  split_ifs with hinfinite
  · have hlarge : rlim64IsInfinity w (rlimInfinity 64) = true := by
      rw [rlim64IsInfinity_iff hw, rlimInfinity, BitVec.toNat_allOnes]
      omega
    unfold wordOf64
    rw [if_pos hlarge, hinfinite]
  · have hwide : (value.setWidth 64).toNat = value.toNat := by
      rw [BitVec.toNat_setWidth]
      exact Nat.mod_eq_of_lt (by omega)
    have hsmall : ¬ rlim64IsInfinity w (value.setWidth 64) = true := by
      rw [rlim64IsInfinity_iff hw, hwide, ← eq_rlimInfinity_iff]
      exact hinfinite
    unfold wordOf64
    rw [if_neg hsmall]
    refine BitVec.eq_of_toNat_eq ?_
    rw [BitVec.toNat_setWidth, hwide]
    exact Nat.mod_eq_of_lt hvalue

/-- A value in 32 bits, as it is shown after it has been set. -/
theorem wordToCompat_wordOfCompat (hw : 32 ≤ w) (value : BitVec 32) :
    wordToCompat (wordOfCompat value : BitVec w) = value := by
  have hle : 2 ^ 32 ≤ 2 ^ w := Nat.pow_le_pow_right (by decide) hw
  have hvalue := value.isLt
  unfold wordOfCompat
  split_ifs with hinfinite
  · unfold wordToCompat
    rw [hinfinite]
    split_ifs with hlarge
    · rfl
    · refine BitVec.eq_of_toNat_eq ?_
      rw [rlimInfinity, rlimInfinity, BitVec.toNat_allOnes, BitVec.toNat_allOnes] at hlarge
      rw [BitVec.toNat_setWidth, rlimInfinity, rlimInfinity, BitVec.toNat_allOnes,
        BitVec.toNat_allOnes]
      omega
  · have hfits : (value.setWidth w).toNat = value.toNat := by
      rw [BitVec.toNat_setWidth]
      exact Nat.mod_eq_of_lt (by omega)
    have hsmall : ¬ (rlimInfinity 32).toNat < (value.setWidth w).toNat := by
      rw [hfits, rlimInfinity, BitVec.toNat_allOnes]
      omega
    unfold wordToCompat
    rw [if_neg hsmall]
    refine BitVec.eq_of_toNat_eq ?_
    rw [BitVec.toNat_setWidth, hfits]
    exact Nat.mod_eq_of_lt hvalue

/-- A machine word that fits is the same after it has been shown in 32 bits and set again. -/
theorem wordOfCompat_wordToCompat_of_lt (hw : 32 ≤ w) {value : BitVec w}
    (hsmall : value.toNat < 2 ^ 32 - 1) : wordOfCompat (wordToCompat value) = value := by
  have hle : 2 ^ 32 ≤ 2 ^ w := Nat.pow_le_pow_right (by decide) hw
  have hnarrow : (value.setWidth 32).toNat = value.toNat := by
    rw [BitVec.toNat_setWidth]
    exact Nat.mod_eq_of_lt (by omega)
  have hfits : ¬ (rlimInfinity 32).toNat < value.toNat := by
    rw [rlimInfinity, BitVec.toNat_allOnes]
    omega
  have hfinite : value.setWidth 32 ≠ rlimInfinity 32 := by
    rw [Ne, eq_rlimInfinity_iff, hnarrow]
    omega
  unfold wordToCompat wordOfCompat
  rw [if_neg hfits, if_neg hfinite]
  refine BitVec.eq_of_toNat_eq ?_
  rw [BitVec.toNat_setWidth, hnarrow]
  exact Nat.mod_eq_of_lt value.isLt

/-- A machine word that does not fit is no limit after it has been shown in 32 bits and set
again. -/
theorem wordOfCompat_wordToCompat_of_le {value : BitVec w} (hlarge : 2 ^ 32 - 1 ≤ value.toNat) :
    wordOfCompat (wordToCompat value) = rlimInfinity w := by
  have hshown : wordToCompat value = rlimInfinity 32 := by
    unfold wordToCompat
    split_ifs with hover
    · rfl
    · rw [rlimInfinity, BitVec.toNat_allOnes] at hover
      rw [eq_rlimInfinity_iff, BitVec.toNat_setWidth]
      omega
  rw [hshown]
  exact if_pos rfl

/-- A machine word is the same after it has been shown in 32 bits and set again exactly when it is
less than the largest value of 32 bits, or no limit. -/
theorem wordOfCompat_wordToCompat_iff (hw : 32 ≤ w) (value : BitVec w) :
    wordOfCompat (wordToCompat value) = value ↔
      value.toNat < 2 ^ 32 - 1 ∨ value = rlimInfinity w := by
  by_cases hsmall : value.toNat < 2 ^ 32 - 1
  · exact iff_of_true (wordOfCompat_wordToCompat_of_lt hw hsmall) (Or.inl hsmall)
  · rw [wordOfCompat_wordToCompat_of_le (Nat.not_lt.mp hsmall), eq_comm]
    exact (or_iff_right hsmall).symm

/-- A limit is the same after it has been shown in 32 bits and set again exactly when both of its
values are. -/
theorem ofCompat_toCompat_iff (hw : 32 ≤ w) (rlim : RLimit w) :
    ofCompat (toCompat rlim) = rlim ↔
      (rlim.rlimCur.toNat < 2 ^ 32 - 1 ∨ rlim.rlimCur = rlimInfinity w) ∧
        (rlim.rlimMax.toNat < 2 ^ 32 - 1 ∨ rlim.rlimMax = rlimInfinity w) := by
  rw [← wordOfCompat_wordToCompat_iff hw, ← wordOfCompat_wordToCompat_iff hw]
  exact RLimit.ext_iff

/-! ### A limit that is read and set again -/

section Restore

variable {state : LimitState w} {current : LimitTask} {resource : ℕ}

/-- What `do_prlimit` reads. -/
theorem doPrlimit_read {answers : LimitAnswers} {value : RLimit w}
    (hread : (doPrlimit answers state current resource none).1 = .ok value) :
    resource < rlimNlimits ∧ current.sighand = true ∧
      value = state.rlim current.signal resource := by
  unfold doPrlimit at hread
  cases hcheck : checkPrlimit answers (state.rlim current.signal) current resource none with
  | error errno =>
    rw [hcheck] at hread
    injection hread
  | ok _ =>
    rw [hcheck] at hread
    unfold checkPrlimit at hcheck
    obtain ⟨hinRange, hcheck⟩ := require_seq_eq_ok_iff.mp hcheck
    obtain ⟨-, hcheck⟩ := require_seq_eq_ok_iff.mp hcheck
    obtain ⟨-, hcheck⟩ := require_seq_eq_ok_iff.mp hcheck
    obtain ⟨hsighand, -⟩ := require_seq_eq_ok_iff.mp hcheck
    exact ⟨hinRange, hsighand, (Except.ok.inj hread).symm⟩

/-- What is copied to the caller is the value. -/
theorem copyToUser_eq_ok {Value : Type} {answers : LimitAnswers} {value shown : Value}
    (hcopy : copyToUser answers value = .ok shown) : shown = value :=
  (Except.ok.inj (require_seq_eq_ok_iff.mp hcopy).2).symm

/-- What `getrlimit` reads. -/
theorem getrlimit_eq_ok {answers : LimitAnswers} {value : RLimit w}
    (hget : getrlimit answers state current resource = .ok value) :
    resource < rlimNlimits ∧ current.sighand = true ∧
      value = state.rlim current.signal resource := by
  obtain ⟨read, hread, hcopy⟩ := seq_eq_ok_iff.mp hget
  exact copyToUser_eq_ok hcopy ▸ doPrlimit_read hread

/-- What the compat `getrlimit` reads. -/
theorem compatGetrlimit_eq_ok {answers : LimitAnswers} {shown : RLimit 32}
    (hget : compatGetrlimit answers state current resource = .ok shown) :
    resource < rlimNlimits ∧ current.sighand = true ∧
      shown = toCompat (state.rlim current.signal resource) := by
  obtain ⟨read, hread, hcopy⟩ := seq_eq_ok_iff.mp hget
  obtain ⟨hinRange, hsighand, hvalue⟩ := doPrlimit_read hread
  exact ⟨hinRange, hsighand, hvalue ▸ copyToUser_eq_ok hcopy⟩

/-- A value is shown by `old_getrlimit` as it is exactly when it fits in 31 bits. -/
theorem wordToOld_eq_iff (hw : 32 ≤ w) (value : BitVec w) :
    wordToOld value = value ↔ value.toNat ≤ 0x7FFFFFFF := by
  unfold wordToOld
  split_ifs with hlarge
  · have hfits : (0x7FFFFFFF : ℕ) < 2 ^ w :=
      Nat.lt_of_lt_of_le (by decide) (Nat.pow_le_pow_right (by decide) hw)
    refine iff_of_false (fun hsame ↦ ?_) (Nat.not_le.mpr hlarge)
    rw [← hsame, BitVec.toNat_ofNat, Nat.mod_eq_of_lt hfits] at hlarge
    exact Nat.lt_irrefl _ hlarge
  · exact iff_of_true rfl (Nat.not_lt.mp hlarge)

/-- `old_getrlimit`, which does not go through `do_prlimit`, returns the same limit as `getrlimit`
exactly when both of its values fit in 31 bits. -/
theorem oldGetrlimit_eq_iff (hw : 32 ≤ w) {answers : LimitAnswers} {value : RLimit w}
    (hget : getrlimit answers state current resource = .ok value) :
    oldGetrlimit answers state current resource = .ok value ↔
      value.rlimCur.toNat ≤ 0x7FFFFFFF ∧ value.rlimMax.toNat ≤ 0x7FFFFFFF := by
  obtain ⟨read, -, hcopy⟩ := seq_eq_ok_iff.mp hget
  obtain ⟨hwritable, -⟩ := require_seq_eq_ok_iff.mp hcopy
  obtain ⟨hinRange, -, rfl⟩ := getrlimit_eq_ok hget
  have hshown : oldGetrlimit answers state current resource =
      .ok (toOld (state.rlim current.signal resource)) := by
    unfold oldGetrlimit copyToUser
    rw [require_seq_of hinRange, require_seq_of hwritable]
    rfl
  rw [hshown, Except.ok.injEq, ← wordToOld_eq_iff hw, ← wordToOld_eq_iff hw]
  exact RLimit.ext_iff

/-- Setting a limit to its value changes nothing. -/
theorem LimitState.store_self (state : LimitState w) (signal resource : ℕ) :
    state.store signal resource (state.rlim signal resource) = state := by
  unfold LimitState.store
  rw [Function.update_eq_self, Function.update_eq_self]

/-- A call of `setrlimit` that succeeds and changes nothing. -/
theorem setrlimit_unchanged_iff {answers : LimitAnswers} {new : RLimit w}
    (hcopy : answers.copyFromUser = true) :
    setrlimit answers state current resource new = (.ok (), state) ↔
      checkPrlimit answers (state.rlim current.signal) current resource (some new) = .ok () ∧
        settled resource new = state.rlim current.signal resource := by
  unfold setrlimit doPrlimit
  rw [if_pos hcopy]
  cases hcheck : checkPrlimit answers (state.rlim current.signal) current resource (some new) with
  | error errno => simp [Prod.map, Except.map]
  | ok _ =>
    simp only [Prod.map, Except.map, id_eq, Prod.mk.injEq, true_and]
    constructor
    · intro hsame
      have hrlim := congrFun (congrFun (congrArg LimitState.rlim hsame) current.signal) resource
      rwa [LimitState.store_rlim, if_pos ⟨rfl, rfl⟩] at hrlim
    · intro hsame
      rw [hsame, LimitState.store_self]

/-- A call of `setrlimit` with a new limit that settles to the old one. Assumes: the answers that
the call gets do not refuse the old limit. -/
theorem setrlimit_eq_iff {answers : LimitAnswers} {new : RLimit w}
    (hinRange : resource < rlimNlimits) (hsighand : current.sighand = true)
    (hcopy : answers.copyFromUser = true) (hhook : answers.taskSetrlimit = none)
    (hfiles : resource = rlimitNofile →
      (state.rlim current.signal resource).rlimMax.toNat ≤ answers.nrOpen) :
    setrlimit answers state current resource new = (.ok (), state) ↔
      new.rlimCur ≤ new.rlimMax ∧ settled resource new = state.rlim current.signal resource := by
  have hmax : (settled resource new).rlimMax = new.rlimMax := by
    unfold settled
    split_ifs <;> rfl
  rw [setrlimit_unchanged_iff hcopy, checkPrlimit_some_iff]
  constructor
  · rintro ⟨⟨hadmits, -⟩, hsettled⟩
    exact ⟨hadmits.ordered, hsettled⟩
  · rintro ⟨hordered, hsettled⟩
    have hsame : new.rlimMax = (state.rlim current.signal resource).rlimMax := by
      rw [← hsettled, hmax]
    refine ⟨⟨⟨hinRange, hordered, ?_, Or.inl (hsame ▸ BitVec.le_refl _)⟩, hsighand, ?_⟩, hsettled⟩
    · intro hnofile
      rw [hsame]
      exact hfiles hnofile
    · rw [hhook]
      rfl

/-- A limit in order has its soft limit below the hard one, unless there is no processor time. -/
theorem RLimit.Sound.ordered_iff {rlim : RLimit w} (hsound : rlim.Sound resource) :
    rlim.rlimCur ≤ rlim.rlimMax ↔ ¬ (resource = rlimitCpu ∧ rlim.rlimMax = 0) := by
  constructor
  · rintro hle ⟨hcpu, hzero⟩
    refine hsound.nonzero hcpu (BitVec.eq_of_toNat_eq ?_)
    rw [hzero, BitVec.le_def] at hle
    simpa using hle
  · intro hquirk
    exact hsound.ordered.resolve_right fun hcheat ↦ hquirk ⟨hcheat.1, hcheat.2.2⟩

/-- A limit in order is stored as it is. -/
theorem RLimit.Sound.settled_eq {rlim : RLimit w} (hsound : rlim.Sound resource) :
    settled resource rlim = rlim :=
  if_neg fun hcheat ↦ hsound.nonzero hcheat.1 hcheat.2

/-- A limit in order that has been shown in 32 bits and is set again settles to itself exactly when
both of its values fit or are no limit. -/
theorem RLimit.Sound.settled_compat_iff (hw : 32 ≤ w) {rlim : RLimit w}
    (hsound : rlim.Sound resource) :
    settled resource (ofCompat (toCompat rlim)) = rlim ↔
      (rlim.rlimCur.toNat < 2 ^ 32 - 1 ∨ rlim.rlimCur = rlimInfinity w) ∧
        (rlim.rlimMax.toNat < 2 ^ 32 - 1 ∨ rlim.rlimMax = rlimInfinity w) := by
  have hzero : resource = rlimitCpu →
      wordOfCompat (wordToCompat rlim.rlimCur) ≠ (0 : BitVec w) := by
    intro hcpu hnone
    have hnonzero := hsound.nonzero hcpu
    by_cases hsmall : rlim.rlimCur.toNat < 2 ^ 32 - 1
    · rw [wordOfCompat_wordToCompat_of_lt hw hsmall] at hnone
      exact hnonzero hnone
    · rw [wordOfCompat_wordToCompat_of_le (Nat.not_lt.mp hsmall)] at hnone
      have hle : 2 ^ 32 ≤ 2 ^ w := Nat.pow_le_pow_right (by decide) hw
      have hvalue := congrArg BitVec.toNat hnone
      have hnothing : (0 : BitVec w).toNat = 0 := BitVec.toNat_zero
      rw [rlimInfinity, BitVec.toNat_allOnes, hnothing] at hvalue
      omega
  have hkept : settled resource (ofCompat (toCompat rlim)) = ofCompat (toCompat rlim) :=
    if_neg fun hcheat ↦ hzero hcheat.1 hcheat.2
  rw [hkept, ofCompat_toCompat_iff hw]

/-- In every run, a limit that a task reads with `getrlimit` and sets again with `setrlimit` is
accepted and left as it is, except a hard limit of no processor time: its soft limit is one second.
Assumes: the limits of the first state are in order, the copy from the caller succeeds, no security
hook refuses, and `sysctl_nr_open` is not below a limit of open files. -/
theorem reset_limit_iff (hw : 0 < w) {first : LimitState w}
    (hfirst : ∀ signal resource, (first.rlim signal resource).Sound resource)
    (hreach : (resourceLimits first).Reachable state) {reading writing : LimitAnswers}
    {value : RLimit w} (hget : getrlimit reading state current resource = .ok value)
    (hcopy : writing.copyFromUser = true) (hhook : writing.taskSetrlimit = none)
    (hfiles : resource = rlimitNofile → value.rlimMax.toNat ≤ writing.nrOpen) :
    setrlimit writing state current resource value = (.ok (), state) ↔
      ¬ (resource = rlimitCpu ∧ value.rlimMax = 0) := by
  obtain ⟨hinRange, hsighand, rfl⟩ := getrlimit_eq_ok hget
  have hsound := sound_of_reachable hw hfirst hreach current.signal resource
  rw [setrlimit_eq_iff hinRange hsighand hcopy hhook hfiles, ← hsound.ordered_iff]
  exact and_iff_left hsound.settled_eq

/-- In every run, a limit that a task reads with the compat `getrlimit` and sets again with the
compat `setrlimit` is accepted and left as it is exactly when, further, each of its two values is
less than the largest one of 32 bits or is no limit. Assumes: as before. -/
theorem compat_reset_limit_iff (hw : 32 ≤ w) {first : LimitState w}
    (hfirst : ∀ signal resource, (first.rlim signal resource).Sound resource)
    (hreach : (resourceLimits first).Reachable state) {reading writing : LimitAnswers}
    {shown : RLimit 32} (hget : compatGetrlimit reading state current resource = .ok shown)
    (hcopy : writing.copyFromUser = true) (hhook : writing.taskSetrlimit = none)
    (hfiles : resource = rlimitNofile →
      (state.rlim current.signal resource).rlimMax.toNat ≤ writing.nrOpen) :
    compatSetrlimit writing state current resource shown = (.ok (), state) ↔
      ¬ (resource = rlimitCpu ∧ (state.rlim current.signal resource).rlimMax = 0) ∧
      ((state.rlim current.signal resource).rlimCur.toNat < 2 ^ 32 - 1 ∨
        (state.rlim current.signal resource).rlimCur = rlimInfinity w) ∧
      ((state.rlim current.signal resource).rlimMax.toNat < 2 ^ 32 - 1 ∨
        (state.rlim current.signal resource).rlimMax = rlimInfinity w) := by
  obtain ⟨hinRange, hsighand, rfl⟩ := compatGetrlimit_eq_ok hget
  have hsound := sound_of_reachable (Nat.lt_of_lt_of_le (by decide) hw) hfirst hreach
    current.signal resource
  unfold compatSetrlimit
  rw [setrlimit_eq_iff hinRange hsighand hcopy hhook hfiles, hsound.settled_compat_iff hw,
    ← hsound.ordered_iff]
  refine and_congr_left fun hfits ↦ ?_
  rw [(ofCompat_toCompat_iff hw _).mpr hfits]

end Restore

/-- The limits of the first process are in order. -/
theorem firstProcess_sound (signal resource : ℕ) :
    (firstProcess.rlim signal resource).Sound resource := by
  change RLimit.Sound resource (if resource = rlimitNofile then _ else _)
  split_ifs with hnofile
  · refine ⟨Or.inl (by decide), fun _ ↦ by decide⟩
  · refine ⟨Or.inl (by decide), fun _ ↦ by decide⟩

/-- The first process reads its limit of open files and sets it again, in machine words. -/
theorem reset_limit_firstProcess :
    setrlimit permitting firstProcess firstTask rlimitNofile ⟨1024, 4096⟩ =
      (.ok (), firstProcess) := by
  have hget : getrlimit permitting firstProcess firstTask rlimitNofile =
      .ok ⟨1024, 4096⟩ := by rfl
  refine (reset_limit_iff (by decide) firstProcess_sound .initial hget rfl rfl fun _ ↦ ?_).mpr ?_
  · decide
  · decide

/-- The first process reads its limit of open files and sets it again, in 32 bits. -/
theorem compat_reset_limit_firstProcess :
    compatSetrlimit permitting firstProcess firstTask rlimitNofile ⟨1024, 4096⟩ =
      (.ok (), firstProcess) := by
  have hget : compatGetrlimit permitting firstProcess firstTask rlimitNofile =
      .ok ⟨1024, 4096⟩ := by rfl
  refine (compat_reset_limit_iff (by decide) firstProcess_sound .initial hget rfl rfl
    fun _ ↦ ?_).mpr ?_
  · decide
  · decide

/-! ### A limit that is set and read later -/

section ReadBack

/-- The resource whose limit a call may set. -/
def LimitEvent.sets : LimitEvent w → Option ℕ
  | .call _ (.prlimit64 _ resource (some _) _) _ => some resource
  | .call _ (.setrlimit resource _) _ => some resource
  | .call _ (.compatSetrlimit resource _) _ => some resource
  | _ => none

/-- `do_prlimit` leaves every limit but the one that it sets. -/
theorem doPrlimit_rlim {answers : LimitAnswers} {state : LimitState w} {tsk : LimitTask}
    {resource kind : ℕ} {new : Option (RLimit w)} (hspared : new.isSome → kind ≠ resource)
    (signal : ℕ) :
    (doPrlimit answers state tsk resource new).2.rlim signal kind = state.rlim signal kind := by
  unfold doPrlimit
  cases checkPrlimit answers (state.rlim tsk.signal) tsk resource new with
  | error errno => rfl
  | ok _ =>
    cases new with
    | none => rfl
    | some new =>
      exact (state.store_rlim _ _ _ signal kind).trans (if_neg fun hsame ↦ hspared rfl hsame.2)

/-- A call that does not set a limit leaves it. -/
theorem LimitState.call_rlim {state : LimitState w} {caller : ℤ × LimitTask}
    {answers : LimitAnswers} {call : LimitCall w} {kind : ℕ}
    (hspared : (LimitEvent.call caller.1 call answers).sets ≠ some kind) (signal : ℕ) :
    (state.call caller answers call).rlim signal kind = state.rlim signal kind := by
  have hset : ∀ (resource : ℕ) (new : RLimit w), kind ≠ resource →
      (setrlimit answers state caller.2 resource new).2.rlim signal kind =
        state.rlim signal kind := by
    intro resource new hother
    unfold setrlimit
    split_ifs
    · exact doPrlimit_rlim (fun _ ↦ hother) signal
    · rfl
  cases call with
  | prlimit64 pid resource new wantsOld =>
    change (prlimit64 answers state caller pid resource new wantsOld).2.rlim signal kind = _
    unfold prlimit64
    cases prlimitTarget answers state caller pid new with
    | error errno => rfl
    | ok tsk =>
      refine doPrlimit_rlim (fun hsome ↦ ?_) signal
      rintro rfl
      cases new with
      | none => exact absurd hsome (by simp)
      | some new => exact hspared rfl
  | setrlimit resource new => exact hset resource new fun hsame ↦ hspared (hsame ▸ rfl)
  | compatSetrlimit resource new =>
    exact hset resource (ofCompat new) fun hsame ↦ hspared (hsame ▸ rfl)

/-- An event that does not set a limit leaves it. -/
theorem LimitState.step_rlim {state next : LimitState w} {event : LimitEvent w} {signal kind : ℕ}
    (hstep : state.step event = some next) (hsignal : signal < state.signals)
    (hspared : event.sets ≠ some kind) : next.rlim signal kind = state.rlim signal kind := by
  by_contra hchanged
  obtain ⟨caller, current, call, answers, -, -, rfl, hcaller, -⟩ :=
    LimitState.maySet_of_step hstep hsignal fun hsame ↦ hchanged (congrFun hsame kind)
  obtain ⟨found, hfound, rfl⟩ := Option.map_eq_some_iff.mp hstep
  exact hchanged (LimitState.call_rlim hspared signal)

/-- A run in which no call sets a limit leaves it. -/
theorem rlim_of_run {first state final : LimitState w} {events : List (LimitEvent w)}
    {signal kind : ℕ} (hrun : (resourceLimits first).run state events = some final)
    (hsignal : signal < state.signals) (hspared : ∀ event ∈ events, event.sets ≠ some kind) :
    final.rlim signal kind = state.rlim signal kind := by
  induction events generalizing state with
  | nil =>
    rw [System.run_nil, Option.some.injEq] at hrun
    rw [hrun]
  | cons event rest ih =>
    rw [System.run_cons, Option.bind_eq_some_iff] at hrun
    obtain ⟨next, hstep, hrest⟩ := hrun
    have hgrown := (LimitState.step_moves hstep).signals_le
    rw [ih hrest (hsignal.trans_le hgrown) fun later hlater ↦
        hspared later (List.mem_cons_of_mem _ hlater),
      LimitState.step_rlim hstep hsignal (hspared event List.mem_cons_self)]

/-- What `do_prlimit` reads is what it has set, whatever else has happened in between. -/
theorem doPrlimit_read_back {first state next final : LimitState w} {tsk other : LimitTask}
    {answers reading : LimitAnswers} {resource : ℕ} {new old value : RLimit w}
    {events : List (LimitEvent w)} (hsignal : tsk.signal < state.signals)
    (hset : (doPrlimit answers state tsk resource (some new)).1 = .ok old)
    (hnext : (doPrlimit answers state tsk resource (some new)).2 = next)
    (hrun : (resourceLimits first).run next events = some final)
    (hspared : ∀ event ∈ events, event.sets ≠ some resource) (hsame : other.signal = tsk.signal)
    (hread : (doPrlimit reading final other resource none).1 = .ok value) :
    value = settled resource new := by
  obtain ⟨-, -, rfl⟩ := doPrlimit_read hread
  unfold doPrlimit at hset hnext
  cases hcheck : checkPrlimit answers (state.rlim tsk.signal) tsk resource (some new) with
  | error errno =>
    rw [hcheck] at hset
    injection hset
  | ok _ =>
    rw [hcheck] at hnext
    subst hnext
    rw [hsame, rlim_of_run hrun hsignal hspared, LimitState.store_rlim, if_pos ⟨rfl, rfl⟩]

/-- A conversion that keeps zero and one apart from the rest leaves the second of processor time to
be put in before it or after it. -/
theorem settled_convert {v : ℕ} {conversion : BitVec v → BitVec w} {resource : ℕ}
    (hzero : ∀ value, conversion value = 0 ↔ value = 0) (hone : conversion 1 = 1)
    (rlim : RLimit v) :
    (settled resource rlim).convert conversion = settled resource (rlim.convert conversion) := by
  by_cases hcheat : resource = rlimitCpu ∧ rlim.rlimCur = 0
  · have hconverted : resource = rlimitCpu ∧ (rlim.convert conversion).rlimCur = 0 :=
      ⟨hcheat.1, (hzero _).mpr hcheat.2⟩
    unfold settled
    rw [if_pos hcheat, if_pos hconverted]
    exact RLimit.ext hone rfl
  · have hconverted : ¬ (resource = rlimitCpu ∧ (rlim.convert conversion).rlimCur = 0) :=
      fun hboth ↦ hcheat ⟨hboth.1, (hzero _).mp hboth.2⟩
    unfold settled
    rw [if_neg hcheat, if_neg hconverted]

/-- No value but zero is shown as zero in 64 bits. -/
theorem wordTo64_eq_zero_iff (hw : w ≤ 64) (hpos : 0 < w) (value : BitVec w) :
    wordTo64 value = 0 ↔ value = 0 := by
  have hnothing : wordTo64 (0 : BitVec w) = 0 := by
    have hfinite : (0 : BitVec w) ≠ rlimInfinity w := by
      intro hsame
      have hbits : 1 < 2 ^ w := Nat.one_lt_two_pow hpos.ne'
      have hvalue := (eq_rlimInfinity_iff _).mp hsame
      have hzero : (0 : BitVec w).toNat = 0 := BitVec.toNat_zero
      omega
    unfold wordTo64
    rw [if_neg hfinite]
    exact BitVec.setWidth_zero 64 w
  constructor
  · intro hzero
    rw [← wordOf64_wordTo64 hw value, hzero, ← hnothing, wordOf64_wordTo64 hw]
  · rintro rfl
    exact hnothing

/-- No value but zero is shown as zero in 32 bits. -/
theorem wordToCompat_eq_zero_iff (value : BitVec w) : wordToCompat value = 0 ↔ value = 0 := by
  unfold wordToCompat
  split_ifs with hlarge
  · refine iff_of_false (by decide) ?_
    rintro rfl
    have hzero : (0 : BitVec w).toNat = 0 := BitVec.toNat_zero
    omega
  · rw [rlimInfinity, BitVec.toNat_allOnes] at hlarge
    have hwide : (0 : BitVec w).toNat = 0 := BitVec.toNat_zero
    have hnarrow : (0 : BitVec 32).toNat = 0 := rfl
    rw [← BitVec.toNat_inj, ← BitVec.toNat_inj, BitVec.toNat_setWidth, hwide, hnarrow,
      Nat.mod_eq_of_lt (by omega)]

/-- A call of `prlimit64` that succeeds has gone through `do_prlimit`. -/
theorem prlimit64_eq_ok {answers : LimitAnswers} {state : LimitState w} {current : ℤ × LimitTask}
    {pid : ℤ} {resource : ℕ} {new : Option (RLimit 64)} {wantsOld : Bool}
    {reply : Option (RLimit 64)} {tsk : LimitTask}
    (htarget : prlimitTarget answers state current pid new = .ok tsk)
    (hok : (prlimit64 answers state current pid resource new wantsOld).1 = .ok reply) :
    ∃ old, (doPrlimit answers state tsk resource (new.map rlim64ToRlim)).1 = .ok old ∧
      (wantsOld = true → reply = some (rlimToRlim64 old)) := by
  unfold prlimit64 at hok
  rw [htarget] at hok
  obtain ⟨old, hold, hreply⟩ := seq_eq_ok_iff.mp hok
  refine ⟨old, hold, fun hwants ↦ ?_⟩
  rw [if_pos hwants] at hreply
  obtain ⟨shown, hshown, hreply⟩ := seq_eq_ok_iff.mp hreply
  rw [← copyToUser_eq_ok hshown]
  exact (Except.ok.inj hreply).symm

/-- What `prlimit64` shows is what it has set, whatever else has happened in between: a limit that
does not fit in a machine word as no limit, and no processor time as one second. Assumes: the two
calls name tasks of one thread group, and no call in between sets a limit for the same resource. -/
theorem prlimit64_read_back (hw : w = 32 ∨ w = 64) {first state next final : LimitState w}
    (hfirst : first.WellFormed) (hreach : (resourceLimits first).Reachable state)
    {setter reader : ℤ × LimitTask} (hsetter : state.task setter.1 = some setter.2)
    {answers reading : LimitAnswers} {pid named : ℤ} {resource : ℕ} {new shown : RLimit 64}
    {wantsOld : Bool} {old : Option (RLimit 64)} {tsk other : LimitTask}
    {events : List (LimitEvent w)}
    (htarget : prlimitTarget answers state setter pid (some new) = .ok tsk)
    (hset : prlimit64 answers state setter pid resource (some new) wantsOld = (.ok old, next))
    (hrun : (resourceLimits first).run next events = some final)
    (hspared : ∀ event ∈ events, event.sets ≠ some resource)
    (hother : prlimitTarget reading final reader named none = .ok other)
    (hsame : other.signal = tsk.signal)
    (hread : (prlimit64 reading final reader named resource none true).1 = .ok (some shown)) :
    shown = settled resource (new.convert (saturate w)) := by
  have hle : w ≤ 64 := by omega
  have hpos : 0 < w := by omega
  have hone : wordTo64 (1 : BitVec w) = 1 := by obtain rfl | rfl := hw <;> decide
  obtain ⟨pid', htask, -⟩ := permitted_of_prlimitTarget hsetter htarget
  have hsignal : tsk.signal < state.signals := wellFormed_of_reachable hfirst hreach pid' tsk htask
  obtain ⟨previous, hstored, -⟩ := prlimit64_eq_ok htarget (congrArg Prod.fst hset)
  obtain ⟨value, hvalue, hshown⟩ := prlimit64_eq_ok hother hread
  have hnext : (doPrlimit answers state tsk resource (some (rlim64ToRlim new))).2 = next := by
    unfold prlimit64 at hset
    rw [htarget] at hset
    exact congrArg Prod.snd hset
  have hback := doPrlimit_read_back hsignal hstored hnext hrun hspared hsame hvalue
  rw [Option.some.inj (hshown rfl), hback]
  calc rlimToRlim64 (settled resource (rlim64ToRlim new : RLimit w))
      = settled resource (rlimToRlim64 (rlim64ToRlim new : RLimit w)) :=
        settled_convert (wordTo64_eq_zero_iff hle hpos) hone _
    _ = settled resource (new.convert (saturate w)) :=
        congrArg (settled resource) (RLimit.ext (wordTo64_wordOf64 hle _) (wordTo64_wordOf64 hle _))

/-- What the compat `getrlimit` shows is what the compat `setrlimit` has set, whatever else has
happened in between: no processor time as one second. Assumes: as before, for the two tasks
themselves. -/
theorem compat_read_back (hw : w = 32 ∨ w = 64) {first state next final : LimitState w}
    (hfirst : first.WellFormed) (hreach : (resourceLimits first).Reachable state) {pid : ℤ}
    {current other : LimitTask} (hcurrent : state.task pid = some current)
    {answers reading : LimitAnswers} {resource : ℕ} {new shown : RLimit 32}
    {events : List (LimitEvent w)}
    (hset : compatSetrlimit answers state current resource new = (.ok (), next))
    (hrun : (resourceLimits first).run next events = some final)
    (hspared : ∀ event ∈ events, event.sets ≠ some resource)
    (hsame : other.signal = current.signal)
    (hread : compatGetrlimit reading final other resource = .ok shown) :
    shown = settled resource new := by
  have hle : 32 ≤ w := by omega
  have hone : wordToCompat (1 : BitVec w) = 1 := by obtain rfl | rfl := hw <;> decide
  have hsignal := wellFormed_of_reachable hfirst hreach pid current hcurrent
  obtain ⟨value, hvalue, hcopy⟩ := seq_eq_ok_iff.mp hread
  have hback : value = settled resource (ofCompat new) := by
    unfold compatSetrlimit setrlimit at hset
    split_ifs at hset
    · obtain ⟨old, hold⟩ : ∃ old,
          (doPrlimit answers state current resource (some (ofCompat new))).1 = .ok old := by
        cases hreply : (doPrlimit answers state current resource (some (ofCompat new))).1 with
        | error errno =>
          have hfailed := congrArg Prod.fst hset
          rw [Prod.map_fst, hreply] at hfailed
          injection hfailed
        | ok old => exact ⟨old, rfl⟩
      have hnext : (doPrlimit answers state current resource (some (ofCompat new))).2 = next :=
        congrArg Prod.snd hset
      exact doPrlimit_read_back hsignal hold hnext hrun hspared hsame hvalue
    · injection hset with hreply
      injection hreply
  rw [copyToUser_eq_ok hcopy, hback]
  calc toCompat (settled resource (ofCompat new : RLimit w))
      = settled resource (toCompat (ofCompat new : RLimit w)) :=
        settled_convert wordToCompat_eq_zero_iff hone _
    _ = settled resource new :=
        congrArg (settled resource)
          (RLimit.ext (wordToCompat_wordOfCompat hle _) (wordToCompat_wordOfCompat hle _))

end ReadBack

/-- The first process sets its limit of open files, forks, and reads it. -/
theorem prlimit64_read_back_firstProcess :
    ∃ shown, (prlimit64 permitting ((firstProcess.store 0 rlimitNofile ⟨100, 200⟩).fork firstTask 2)
        (1, firstTask) 0 rlimitNofile none true).1 = .ok (some shown) ∧
      shown = settled rlimitNofile (RLimit.convert (saturate 64) ⟨100, 200⟩) := by
  have htarget : prlimitTarget permitting firstProcess (1, firstTask) 0 (some ⟨100, 200⟩) =
      .ok firstTask := by rfl
  have hset : prlimit64 permitting firstProcess (1, firstTask) 0 rlimitNofile
      (some ⟨100, 200⟩) false = (.ok none, firstProcess.store 0 rlimitNofile ⟨100, 200⟩) := by rfl
  have hrun : (resourceLimits firstProcess).run (firstProcess.store 0 rlimitNofile ⟨100, 200⟩)
      [.fork 1 2] =
        some ((firstProcess.store 0 rlimitNofile ⟨100, 200⟩).fork firstTask 2) := by rfl
  have hother : prlimitTarget permitting
      ((firstProcess.store 0 rlimitNofile ⟨100, 200⟩).fork firstTask 2) (1, firstTask) 0 none =
        .ok firstTask := by rfl
  have hread : (prlimit64 permitting
      ((firstProcess.store 0 rlimitNofile ⟨100, 200⟩).fork firstTask 2) (1, firstTask) 0
        rlimitNofile none true).1 = .ok (some ⟨100, 200⟩) := by rfl
  have hspared : ∀ event ∈ [LimitEvent.fork 1 2], (event : LimitEvent 64).sets ≠
      some rlimitNofile := by
    simp [LimitEvent.sets]
  exact ⟨_, hread, prlimit64_read_back (Or.inr rfl) firstProcess_wellFormed .initial rfl htarget
    hset hrun hspared hother rfl hread⟩

end Apes.Kernel
