import Apes.KernelSort.KMergeSort

/-!
# The bounds of the kernel buffer of `kMergeSort`

The check of `size` bounds it from below only. The bytes of the kernel buffer are counted in the
32-bit `size_t` of the target, where `sizeof(int32_t) * size` wraps from a size of `2 ^ 30` on; the
printing loops and the recursion count elements in an `int`, which does not wrap. `StaysInside` says
that no index of a call leaves the buffer.

For the sizes that do not wrap every call returns, so no access has been a fault
(`kMergeSort_returns`). For the others the buffer has fewer elements than `size`, and the first
printing loop reads behind its end (`printBuffer_outOfBounds`). `staysInside_iff` puts the two
together.
-/

set_option autoImplicit false
set_option relaxedAutoImplicit false

namespace Apes.KernelSort

open Library

/-- No index that a call with this size uses leaves its array, for all pointers and for everything
that the kernel services do, when `kmalloc` returns a buffer. -/
def StaysInside (size : ℤ) : Prop :=
  ∀ (services : Services) (indeterminate : ℕ → Int32) (unsorted sorted : ℕ) (state : KernelState)
    (index : ℤ) (length : ℕ), services.kmalloc.isSome = true →
    kMergeSort services indeterminate unsorted sorted size state ≠
      .error (.outOfBounds index length)

/-! ### Sizes that do not wrap -/

/-- The part after the copy in returns for every buffer of `size` elements, whether the copy out is
complete or not. -/
theorem sortAndDeliver_returns (services : Services) (indeterminate : ℕ → Int32) (buffer : Buffer)
    (sorted : ℕ) (state : KernelState) (hlength : buffer.contents.length ≤ 2147483646) :
    ∃ result, sortAndDeliver services indeterminate buffer sorted buffer.contents.length state =
      .ok result := by
  by_cases hcopy : services.copyToUserLeft = 0
  · obtain ⟨_, final, hdeliver, -⟩ :=
      sortAndDeliver_spec services indeterminate buffer sorted state hlength hcopy
    exact ⟨(0, final), hdeliver⟩
  · have hlast : checkedInt ((buffer.contents.length : ℤ) - 1) =
        .ok ((buffer.contents.length : ℤ) - 1) := checkedInt_ok (by omega) (by omega)
    obtain ⟨contents, hsort, -, -⟩ :=
      mergeSort_whole indeterminate buffer.contents (Nat.le_succ_of_le hlength)
    simp only [sortAndDeliver, printBuffer_spec _ _ hlength, ok_bind, hlast, hsort, copyToUser,
      ne_eq, hcopy, not_false_eq_true, if_true, pure_eq_ok]
    exact ⟨_, rfl⟩

/-- Every call with a size whose count of bytes does not wrap returns. Assumes: `kmalloc` returns a
buffer. -/
theorem kMergeSort_returns {services : Services} {size : ℤ} (hsize : size < 1073741824)
    (hkmalloc : services.kmalloc.isSome = true) (indeterminate : ℕ → Int32) (unsorted sorted : ℕ)
    (state : KernelState) :
    ∃ result, kMergeSort services indeterminate unsorted sorted size state = .ok result := by
  by_cases hfailure : unsorted = 0 ∨ sorted = 0 ∨ size < 256 ∨ services.copyFromUserLeft ≠ 0
  · obtain ⟨result, final, hcall, -⟩ := kMergeSort_of_failure indeterminate state hfailure
    exact ⟨(result, final), hcall⟩
  · have hsuccess : unsorted ≠ 0 ∧ sorted ≠ 0 ∧ 256 ≤ size ∧ services.copyFromUserLeft = 0 := by
      omega
    obtain ⟨hunsorted, hsorted, hlarge, hcopy⟩ := hsuccess
    obtain ⟨count, rfl⟩ : ∃ count : ℕ, size = count := ⟨size.toNat, by omega⟩
    obtain ⟨initial, hinitial⟩ := Option.isSome_iff_exists.mp hkmalloc
    obtain ⟨entry, -, -, -, hcall⟩ := kMergeSort_eq_sortAndDeliver indeterminate state hunsorted
      hsorted hlarge hinitial hcopy
    rw [byteCount_of_no_wrap (by omega), Nat.mul_div_cancel_left _ (by omega)] at hcall
    obtain ⟨result, hdeliver⟩ := sortAndDeliver_returns services indeterminate
      ⟨state.allocated, elements state.user unsorted count⟩ sorted entry
      (by rw [length_elements]; omega)
    rw [length_elements] at hdeliver
    exact ⟨result, hcall.trans hdeliver⟩

/-! ### Sizes that wrap -/

/-- A printing loop that has come to an element logs the rest of the buffer and reads behind its
end. Assumes: the loop counts further than the buffer has elements. -/
theorem printLoop_outOfBounds (done todo : List Int32) {size : ℤ} {rounds : ℕ}
    (hsize : ((done ++ todo).length : ℤ) < size) (hint : size ≤ 2147483647)
    (hrounds : todo.length < rounds) (kernel : KernelState) :
    whileLoop (fun state ↦ decide (state.i < size)) (printStep (done ++ todo)) rounds
        ⟨done.length, kernel⟩ =
      .error (.outOfBounds (done ++ todo).length (done ++ todo).length) := by
  induction todo generalizing done rounds kernel with
  | nil =>
    obtain ⟨rounds, rfl⟩ := Nat.exists_eq_add_one_of_ne_zero (Nat.ne_zero_of_lt hrounds)
    rw [List.append_nil] at hsize ⊢
    rw [whileLoop, if_pos (decide_eq_true hsize), printStep, load_of_length_le (Int.le_refl _)]
    rfl
  | cons value todo ih =>
    have hless : (done.length : ℤ) < size := by
      rw [List.length_append] at hsize
      omega
    have hload : load (done ++ value :: todo) done.length = .ok value :=
      load_append_cons done todo value rfl
    have hcounter : checkedInt ((done.length : ℤ) + 1) = .ok ((done.length : ℤ) + 1) :=
      checkedInt_ok (by omega) (by omega)
    have hround : printStep (done ++ value :: todo) ⟨done.length, kernel⟩ =
        .ok ⟨(done ++ [value]).length, printk (elementLine value) kernel⟩ := by
      simp only [printStep, hload, hcounter, ok_bind, pure_eq_ok, elementLine, List.length_append,
        List.length_singleton, Int.natCast_add, Int.natCast_one]
    have hshift : done ++ value :: todo = done ++ [value] ++ todo := by
      rw [List.append_assoc, List.singleton_append]
    rw [List.length_cons] at hrounds
    obtain ⟨rounds, rfl⟩ := Nat.exists_eq_add_one_of_ne_zero (Nat.ne_zero_of_lt hrounds)
    rw [whileLoop, if_pos (decide_eq_true hless), hround]
    rw [hshift] at hsize ⊢
    exact ih (done ++ [value]) hsize (by omega) _

/-- The first printing loop reads behind the end of a buffer with fewer elements than it counts. -/
theorem printBuffer_outOfBounds (contents : List Int32) {size : ℤ}
    (hsize : (contents.length : ℤ) < size) (hint : size ≤ 2147483647) (kernel : KernelState) :
    printBuffer contents size kernel =
      .error (.outOfBounds contents.length contents.length) := by
  have hloop : whileLoop (fun state ↦ decide (state.i < size)) (printStep contents) size.toNat
      ⟨0, kernel⟩ = .error (.outOfBounds contents.length contents.length) :=
    printLoop_outOfBounds [] contents hsize hint (by omega) kernel
  unfold printBuffer
  rw [hloop]
  rfl

/-- A call with a size whose count of bytes wraps leaves its buffer. Assumes: nonnull pointers, a
buffer, and a complete copy in. -/
theorem kMergeSort_outOfBounds {services : Services} {unsorted sorted : ℕ} {size : ℤ}
    {contents : ℕ → Int32} (indeterminate : ℕ → Int32) (state : KernelState)
    (hunsorted : unsorted ≠ 0) (hsorted : sorted ≠ 0) (hsize : 1073741824 ≤ size)
    (hint : size ≤ 2147483647) (hkmalloc : services.kmalloc = some contents)
    (hcopy : services.copyFromUserLeft = 0) :
    ∃ index length, kMergeSort services indeterminate unsorted sorted size state =
      .error (.outOfBounds index length) := by
  obtain ⟨entry, -, -, -, hcall⟩ := kMergeSort_eq_sortAndDeliver indeterminate state hunsorted
    hsorted (by omega : 256 ≤ size) hkmalloc hcopy
  let buffer := elements state.user unsorted (byteCount size / 4)
  have hshort : (buffer.length : ℤ) < size := by
    rw [length_elements, byteCount]
    omega
  have hdeliver : sortAndDeliver services indeterminate ⟨state.allocated, buffer⟩ sorted size
      entry = .error (.outOfBounds buffer.length buffer.length) := by
    simp only [sortAndDeliver, printBuffer_outOfBounds _ hshort hint]
    rfl
  exact ⟨_, _, hcall.trans hdeliver⟩

/-- **A call stays inside its buffer exactly when its count of bytes does not wrap.** For every
`int`; the sizes that fail the check are among those that stay inside. -/
theorem staysInside_iff {size : ℤ} (hint : size ≤ 2147483647) :
    StaysInside size ↔ size < 1073741824 := by
  constructor
  · intro hinside
    by_contra hwraps
    let services : Services := ⟨some fun _ ↦ 0, 0, 0⟩
    have hleaves := kMergeSort_outOfBounds (fun _ ↦ 0) ⟨fun _ ↦ 0, [], 0, 0, []⟩
      (by decide : 4096 ≠ 0) (by decide : 8192 ≠ 0) (Int.not_lt.mp hwraps) hint
      (rfl : services.kmalloc = some fun _ ↦ 0) rfl
    obtain ⟨index, length, hcall⟩ := hleaves
    exact hinside _ _ _ _ _ index length rfl hcall
  · intro hsmall services indeterminate unsorted sorted state index length hkmalloc hcall
    obtain ⟨result, hreturns⟩ :=
      kMergeSort_returns hsmall hkmalloc indeterminate unsorted sorted state
    rw [hreturns] at hcall
    cases hcall

/-- The smallest and the largest size at which the check and the count of bytes disagree. -/
theorem staysInside_iff_at_wrap : StaysInside 1073741823 ∧ ¬ StaysInside 1073741824 := by
  constructor
  · exact (staysInside_iff (by decide)).mpr (by decide)
  · exact fun hinside ↦ absurd ((staysInside_iff (by decide)).mp hinside) (by decide)

/-- **A call can leave its buffer.** A size of `2 ^ 30 + 256` asks for 1024 bytes. -/
theorem wrapped_size_not_inside : ¬ ∀ size : ℤ, 256 ≤ size → size ≤ 2147483647 →
    StaysInside size := by
  intro hinside
  let services : Services := ⟨some fun _ ↦ 0, 0, 0⟩
  have hleaves := kMergeSort_outOfBounds (fun _ ↦ 0) ⟨fun _ ↦ 0, [], 0, 0, []⟩
    (by decide : 4096 ≠ 0) (by decide : 8192 ≠ 0) (by decide : (1073741824 : ℤ) ≤ 1073742080)
    (by decide) (rfl : services.kmalloc = some fun _ ↦ 0) rfl
  obtain ⟨index, length, hcall⟩ := hleaves
  exact hinside 1073742080 (by decide) (by decide) _ _ _ _ _ index length rfl hcall

end Apes.KernelSort
