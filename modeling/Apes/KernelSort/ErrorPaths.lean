import Apes.KernelSort.BufferBounds

/-!
# The exits of `kMergeSort`

A call can end at three checks, at either copy and after the sort, and `kmalloc` can have returned
`NULL`. `CleanExit` is what the kernel expects of each exit: no service has been handed a `NULL`
buffer, the live allocations are those of the entry, and the result is zero when the sorted data
was delivered and a negative errno otherwise.

No exit of the call returns a negative number (`kMergeSort_result`): the errnos of the checks and of
the copies are returned as they are. The two exits at a copy also leave the buffer allocated, and a
`NULL` from `kmalloc` is handed to `copy_from_user`. So a call is clean exactly when nothing in it
fails (`cleanExit_iff`).
-/

set_option autoImplicit false
set_option relaxedAutoImplicit false

namespace Apes.KernelSort

open Library

/-- The sorted data was fully delivered: the call gets past its checks, a buffer and both copies,
and the destination holds a sorted permutation of what the source held on entry. -/
structure Delivered (services : Services) (unsorted sorted : ℕ) (size : ℤ)
    (state final : KernelState) : Prop where
  checked : unsorted ≠ 0 ∧ sorted ≠ 0 ∧ 256 ≤ size
  buffered : services.kmalloc.isSome = true
  copied : services.copyFromUserLeft = 0 ∧ services.copyToUserLeft = 0
  pairwise : (elements final.user sorted size.toNat).Pairwise (· ≤ ·)
  perm : (elements final.user sorted size.toNat).Perm (elements state.user unsorted size.toNat)

/-- A call returns, has handed no service a `NULL` buffer, leaves the live allocations as they were
on entry, and its result is zero when the sorted data was delivered and negative otherwise. -/
def CleanExit (services : Services) (indeterminate : ℕ → Int32) (unsorted sorted : ℕ) (size : ℤ)
    (state : KernelState) : Prop :=
  ∃ result final,
    kMergeSort services indeterminate unsorted sorted size state = .ok (result, final) ∧
      final.nullUses = state.nullUses ∧ final.live.Perm state.live ∧
      (result = 0 ↔ Delivered services unsorted sorted size state final) ∧
      (result ≠ 0 → result < 0)

/-! ### The results of a call -/

/-- The part after the copy in returns zero or the errno of a failed copy, as it is. -/
theorem sortAndDeliver_result {services : Services} {indeterminate : ℕ → Int32} {buffer : Buffer}
    {sorted : ℕ} {size result : ℤ} {state final : KernelState}
    (hreturns : sortAndDeliver services indeterminate buffer sorted size state =
      .ok (result, final)) :
    result = 0 ∨ result = EFAULT := by
  obtain ⟨printed, -, hreturns⟩ := bind_eq_ok hreturns
  obtain ⟨last, -, hreturns⟩ := bind_eq_ok hreturns
  obtain ⟨contents, -, hreturns⟩ := bind_eq_ok hreturns
  by_cases hcopy : services.copyToUserLeft = 0
  · simp only [copyToUser, hcopy, ne_eq, not_true_eq_false, if_false] at hreturns
    obtain ⟨logged, -, hreturns⟩ := bind_eq_ok hreturns
    rw [pure_eq_ok, Except.ok.injEq, Prod.mk.injEq] at hreturns
    exact Or.inl hreturns.1.symm
  · simp only [copyToUser, ne_eq, hcopy, not_false_eq_true, if_true, pure_eq_ok, Except.ok.injEq,
      Prod.mk.injEq] at hreturns
    exact Or.inr hreturns.1.symm

/-- The results of a call: zero, or an errno as it is. -/
theorem kMergeSort_result {services : Services} {indeterminate : ℕ → Int32} {unsorted sorted : ℕ}
    {size result : ℤ} {state final : KernelState}
    (hreturns : kMergeSort services indeterminate unsorted sorted size state =
      .ok (result, final)) :
    result = 0 ∨ result = EFAULT ∨ result = EDESTADDRREQ ∨ result = EINVAL := by
  by_cases hunsorted : unsorted = 0
  · rw [kMergeSort, if_pos hunsorted, Except.ok.injEq, Prod.mk.injEq] at hreturns
    exact Or.inr (Or.inl hreturns.1.symm)
  by_cases hsorted : sorted = 0
  · simp only [kMergeSort, if_neg hunsorted, if_pos hsorted, Except.ok.injEq,
      Prod.mk.injEq] at hreturns
    exact Or.inr (Or.inr (Or.inl hreturns.1.symm))
  by_cases hsize : size < 256
  · simp only [kMergeSort, if_neg hunsorted, if_neg hsorted, if_pos hsize, Except.ok.injEq,
      Prod.mk.injEq] at hreturns
    exact Or.inr (Or.inr (Or.inr hreturns.1.symm))
  simp only [kMergeSort, if_neg hunsorted, if_neg hsorted, if_neg hsize] at hreturns
  obtain ⟨⟨left, buffer, entry⟩, -, hreturns⟩ := bind_eq_ok hreturns
  by_cases hleft : left = 0
  · simp only [hleft, ne_eq, not_true_eq_false, if_false] at hreturns
    cases buffer with
    | none => cases hreturns
    | some buffer =>
      obtain hzero | hfault := sortAndDeliver_result hreturns
      · exact Or.inl hzero
      · exact Or.inr (Or.inl hfault)
  · simp only [ne_eq, hleft, not_false_eq_true, if_true, pure_eq_ok, Except.ok.injEq,
      Prod.mk.injEq] at hreturns
    exact Or.inr (Or.inl hreturns.1.symm)

/-- No call returns a negative number. -/
theorem kMergeSort_result_nonneg {services : Services} {indeterminate : ℕ → Int32}
    {unsorted sorted : ℕ} {size result : ℤ} {state final : KernelState}
    (hreturns : kMergeSort services indeterminate unsorted sorted size state =
      .ok (result, final)) :
    0 ≤ result := by
  obtain rfl | rfl | rfl | rfl := kMergeSort_result hreturns
  all_goals decide

/-! ### The exits at the copies -/

/-- A call whose copy in fails returns `EFAULT` and leaves its buffer allocated. Assumes: nonnull
pointers, a size of at least 256, a buffer, and an incomplete copy in. -/
theorem kMergeSort_leaks {services : Services} {unsorted sorted : ℕ} {size : ℤ}
    {contents : ℕ → Int32} (indeterminate : ℕ → Int32) (state : KernelState)
    (hunsorted : unsorted ≠ 0) (hsorted : sorted ≠ 0) (hsize : 256 ≤ size)
    (hkmalloc : services.kmalloc = some contents) (hcopy : services.copyFromUserLeft ≠ 0) :
    ∃ final, kMergeSort services indeterminate unsorted sorted size state = .ok (EFAULT, final) ∧
      final.live = state.allocated :: state.live := by
  simp only [kMergeSort, if_neg hunsorted, if_neg hsorted, if_neg (Int.not_lt.mpr hsize), kmalloc,
    hkmalloc, copyFromUser, if_neg hcopy, ok_bind, if_pos hcopy, pure_eq_ok]
  exact ⟨_, rfl, rfl⟩

/-- A call without a buffer hands `NULL` to `copy_from_user`, or writes through it. Assumes:
nonnull pointers, a size of at least 256, and no buffer. -/
theorem kMergeSort_uses_null {services : Services} {unsorted sorted : ℕ} {size : ℤ}
    (indeterminate : ℕ → Int32) (state : KernelState) (hunsorted : unsorted ≠ 0)
    (hsorted : sorted ≠ 0) (hsize : 256 ≤ size) (hkmalloc : services.kmalloc = none) :
    kMergeSort services indeterminate unsorted sorted size state = .error .nullPointer ∨
      ∃ final, kMergeSort services indeterminate unsorted sorted size state =
          .ok (EFAULT, final) ∧ final.nullUses = state.nullUses + 1 := by
  by_cases hcopy : services.copyFromUserLeft = 0
  · apply Or.inl
    simp only [kMergeSort, if_neg hunsorted, if_neg hsorted, if_neg (Int.not_lt.mpr hsize),
      kmalloc, hkmalloc, copyFromUser, if_pos hcopy]
    rfl
  · apply Or.inr
    simp only [kMergeSort, if_neg hunsorted, if_neg hsorted, if_neg (Int.not_lt.mpr hsize),
      kmalloc, hkmalloc, copyFromUser, if_neg hcopy, ok_bind, if_pos hcopy, pure_eq_ok]
    exact ⟨_, rfl, rfl⟩

/-! ### When the exit is clean -/

/-- **The exit of a call is clean exactly when nothing fails on the way.** For every `int` size: the
pointers are not null, the size passes its check and its byte count does not wrap, `kmalloc` returns
a buffer and both copies are complete. -/
theorem cleanExit_iff {services : Services} {unsorted sorted : ℕ} {size : ℤ}
    (indeterminate : ℕ → Int32) (state : KernelState) (hint : size ≤ 2147483647) :
    CleanExit services indeterminate unsorted sorted size state ↔
      (unsorted ≠ 0 ∧ sorted ≠ 0 ∧ 256 ≤ size ∧ size < 1073741824) ∧
        services.kmalloc.isSome = true ∧ services.copyFromUserLeft = 0 ∧
          services.copyToUserLeft = 0 := by
  constructor
  · intro hclean
    obtain ⟨result, final, hcall, -, -, hzero, hnegative⟩ := hclean
    have hresult : result = 0 := by
      by_contra hnonzero
      exact absurd (hnegative hnonzero) (Int.not_lt.mpr (kMergeSort_result_nonneg hcall))
    obtain ⟨⟨hunsorted, hsorted, hsize⟩, hbuffered, ⟨hfrom, hto⟩, -, -⟩ := hzero.mp hresult
    refine ⟨⟨hunsorted, hsorted, hsize, ?_⟩, hbuffered, hfrom, hto⟩
    by_contra hwraps
    obtain ⟨contents, hcontents⟩ := Option.isSome_iff_exists.mp hbuffered
    obtain ⟨index, length, hfault⟩ := kMergeSort_outOfBounds indeterminate state hunsorted hsorted
      (Int.not_lt.mp hwraps) hint hcontents hfrom
    rw [hfault] at hcall
    cases hcall
  · intro hcondition
    obtain ⟨⟨hunsorted, hsorted, hsize, hsmall⟩, hbuffered, hfrom, hto⟩ := hcondition
    obtain ⟨final, hcall, hpairwise, hperm, -, hlive, hnull⟩ := kMergeSort_delivers indeterminate
      state hunsorted hsorted hsize (by omega) hbuffered hfrom hto
    have hdelivered : Delivered services unsorted sorted size state final :=
      ⟨⟨hunsorted, hsorted, hsize⟩, hbuffered, ⟨hfrom, hto⟩, hpairwise, hperm⟩
    exact ⟨0, final, hcall, hnull, hlive ▸ List.Perm.refl _, iff_of_true rfl hdelivered,
      fun hnonzero ↦ absurd rfl hnonzero⟩

/-- The smallest size with everything succeeding, and the same call with a copy out that leaves one
byte uncopied. -/
theorem cleanExit_iff_smallest :
    CleanExit ⟨some fun _ ↦ 0, 0, 0⟩ (fun _ ↦ 0) 4096 8192 256 ⟨fun _ ↦ 0, [], 0, 0, []⟩ ∧
      ¬ CleanExit ⟨some fun _ ↦ 0, 0, 1⟩ (fun _ ↦ 0) 4096 8192 256
        ⟨fun _ ↦ 0, [], 0, 0, []⟩ := by
  constructor
  · exact (cleanExit_iff _ _ (by decide)).mpr ⟨by decide, rfl, rfl, rfl⟩
  · intro hclean
    obtain ⟨-, -, -, hcopy⟩ := (cleanExit_iff _ _ (by decide)).mp hclean
    cases hcopy

/-- **A failed copy in leaks the buffer, under a positive result.** A source address that the kernel
cannot read, with everything else in order. -/
theorem failed_copy_not_clean :
    ∃ final, kMergeSort ⟨some fun _ ↦ 0, 1024, 0⟩ (fun _ ↦ 0) 4096 8192 256
        ⟨fun _ ↦ 0, [], 0, 0, []⟩ = .ok (14, final) ∧ final.live = [0] ∧
      ¬ CleanExit ⟨some fun _ ↦ 0, 1024, 0⟩ (fun _ ↦ 0) 4096 8192 256
        ⟨fun _ ↦ 0, [], 0, 0, []⟩ := by
  let services : Services := ⟨some fun _ ↦ 0, 1024, 0⟩
  let state : KernelState := ⟨fun _ ↦ 0, [], 0, 0, []⟩
  obtain ⟨final, hcall, hlive⟩ := kMergeSort_leaks (fun _ ↦ 0) state (by decide : 4096 ≠ 0)
    (by decide : 8192 ≠ 0) (by decide : (256 : ℤ) ≤ 256)
    (rfl : services.kmalloc = some fun _ ↦ 0) (by decide)
  refine ⟨final, hcall, hlive, fun hclean ↦ ?_⟩
  obtain ⟨result, other, hother, -, hperm, -⟩ := hclean
  obtain ⟨-, rfl⟩ := Prod.mk.inj (Except.ok.inj (hcall.symm.trans hother))
  rw [hlive] at hperm
  cases hperm.length_eq

end Apes.KernelSort
