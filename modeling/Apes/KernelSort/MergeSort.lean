import Apes.Library.CheckedExecution

/-!
# The recursive sort of `sys.c`

`mergeSort` sorts `arr[l..r]` in place by recursion on index ranges. The two halves are sorted,
copied into the temporary arrays `L` and `R`, and merged back by three loops. The model follows the
C text: `mergeHalves` is what follows the two recursive calls, `copyToTemp` is one of the two copy
loops, `takeLeft` and `takeRight` are the assignments `arr[k] = L[i]` and `arr[k] = R[j]` with their
increments. Every `int` expression is checked for overflow and every array access for its bounds,
and the temporary arrays start with indeterminate contents.

`mergeHalves_spec` says that on an array cut into a prefix, two nonempty segments and a suffix the
merge replaces the two segments by their ordered merge and leaves the prefix and the suffix alone.
The invariant of the three loops is `MergeInvariant`: what is written so far, followed by the merge
of what is left to read, is the merge of the two segments. `mergeSort_spec` follows by induction
on the depth of the recursion: the segment is replaced by a sorted permutation of itself, without
a fault, and a segment of at most `2 ^ depth` elements needs at most `depth` nested calls. A deeper
bound changes nothing (`mergeSort_of_depth_le`), and `mergeSort_safe` concludes that a call on any
range of any array ends without a fault.
-/

set_option autoImplicit false
set_option relaxedAutoImplicit false

namespace Apes.KernelSort

open Library

/-! ### The C function -/

/-- The variables of a copy loop: the counter and the temporary array. -/
structure CopyState where
  index : ℤ
  temp : List Int32

/-- The body of a copy loop, `temp[i] = arr[position i]; i++`. -/
def copyStep (arr : List Int32) (position : ℤ → Except Fault ℤ) (state : CopyState) :
    Except Fault CopyState := do
  let source ← position state.index
  let value ← load arr source
  let temp ← store state.temp state.index value
  let index ← checkedInt (state.index + 1)
  pure ⟨index, temp⟩

/-- `for (i = 0; i < n; i++) temp[i] = arr[position i];` -/
def copyToTemp (arr : List Int32) (position : ℤ → Except Fault ℤ) (n : ℤ) (temp : List Int32) :
    Except Fault (List Int32) := do
  let final ← whileLoop (fun state ↦ decide (state.index < n)) (copyStep arr position) n.toNat
    ⟨0, temp⟩
  pure final.temp

/-- The variables of the three merge loops. -/
structure MergeState where
  arr : List Int32
  i : ℤ
  j : ℤ
  k : ℤ

/-- `arr[k] = L[i]; i++; k++;` -/
def takeLeft (L : List Int32) (state : MergeState) : Except Fault MergeState := do
  let value ← load L state.i
  let arr ← store state.arr state.k value
  let i ← checkedInt (state.i + 1)
  let k ← checkedInt (state.k + 1)
  pure ⟨arr, i, state.j, k⟩

/-- `arr[k] = R[j]; j++; k++;` -/
def takeRight (R : List Int32) (state : MergeState) : Except Fault MergeState := do
  let value ← load R state.j
  let arr ← store state.arr state.k value
  let j ← checkedInt (state.j + 1)
  let k ← checkedInt (state.k + 1)
  pure ⟨arr, state.i, j, k⟩

/-- The body of the first merge loop: the smaller front element, the left one on a tie. -/
def takeSmaller (L R : List Int32) (state : MergeState) : Except Fault MergeState := do
  let left ← load L state.i
  let right ← load R state.j
  if left ≤ right then takeLeft L state else takeRight R state

/-- `while (i < n1 && j < n2)` over `takeSmaller`. -/
def mergeLoop (L R : List Int32) (n1 n2 : ℤ) : ℕ → MergeState → Except Fault MergeState :=
  whileLoop (fun state ↦ decide (state.i < n1 ∧ state.j < n2)) (takeSmaller L R)

/-- `while (i < n1)` over `takeLeft`. -/
def restOfLeft (L : List Int32) (n1 : ℤ) : ℕ → MergeState → Except Fault MergeState :=
  whileLoop (fun state ↦ decide (state.i < n1)) (takeLeft L)

/-- `while (j < n2)` over `takeRight`. -/
def restOfRight (R : List Int32) (n2 : ℤ) : ℕ → MergeState → Except Fault MergeState :=
  whileLoop (fun state ↦ decide (state.j < n2)) (takeRight R)

/-- What `mergeSort` does after its two recursive calls: the temporary arrays, the two copy loops
and the three merge loops. -/
def mergeHalves (indeterminate : ℕ → Int32) (arr : List Int32) (l m r : ℤ) :
    Except Fault (List Int32) := do
  let difference ← checkedInt (m - l)
  let n1 ← checkedInt (difference + 1)
  let n2 ← checkedInt (r - m)
  let L ← variableLengthArray indeterminate n1
  let R ← variableLengthArray indeterminate n2
  let L ← copyToTemp arr (fun i ↦ checkedInt (l + i)) n1 L
  let R ← copyToTemp arr (fun j ↦ (checkedInt (m + 1)).bind fun start ↦ checkedInt (start + j)) n2 R
  let rounds := (n1 + n2).toNat
  let state ← mergeLoop L R n1 n2 rounds ⟨arr, 0, 0, l⟩
  let state ← restOfLeft L n1 rounds state
  let state ← restOfRight R n2 rounds state
  pure state.arr

/-- `mergeSort(arr, l, r)` with at most `depth` nested recursive calls. -/
def mergeSort (indeterminate : ℕ → Int32) :
    ℕ → List Int32 → ℤ → ℤ → Except Fault (List Int32)
  | 0, arr, l, r => if l < r then .error .outOfFuel else .ok arr
  | depth + 1, arr, l, r =>
    if l < r then do
      let width ← checkedInt (r - l)
      let m ← checkedInt (l + width / 2)
      let arr ← mergeSort indeterminate depth arr l m
      let start ← checkedInt (m + 1)
      let arr ← mergeSort indeterminate depth arr start r
      mergeHalves indeterminate arr l m r
    else .ok arr

/-! ### The ordered merge -/

/-- The ordered merge of two lists, the left element first on a tie. -/
abbrev mergeOrdered (left right : List Int32) : List Int32 :=
  left.merge right fun a b ↦ decide (a ≤ b)

theorem mergeOrdered_pairwise {left right : List Int32} (hleft : left.Pairwise (· ≤ ·))
    (hright : right.Pairwise (· ≤ ·)) : (mergeOrdered left right).Pairwise (· ≤ ·) := by
  have htrans : ∀ a b c : Int32, decide (a ≤ b) = true → decide (b ≤ c) = true →
      decide (a ≤ c) = true := fun a b c hab hbc ↦
    decide_eq_true (Int32.le_trans (of_decide_eq_true hab) (of_decide_eq_true hbc))
  have htotal : ∀ a b : Int32, (decide (a ≤ b) || decide (b ≤ a)) = true := fun a b ↦ by
    simpa using Int32.le_total a b
  simpa using List.pairwise_merge htrans htotal left right (by simpa using hleft)
    (by simpa using hright)

/-! ### The copy loops -/

/-- The invariant of a copy loop: the part of the segment before the counter is in the temporary
array. -/
def CopyInvariant (seg : List Int32) (state : CopyState) : Prop :=
  ∃ done todo rest, seg = done ++ todo ∧ state.index = done.length ∧
    state.temp = done ++ rest ∧ rest.length = todo.length

/-- One round of a copy loop reads the next element of the segment. -/
theorem copyStep_spec {pre seg post : List Int32} {position : ℤ → Except Fault ℤ}
    (hlength : pre.length + seg.length ≤ 2147483647)
    (hposition : ∀ i : ℕ, i < seg.length → position i = .ok (pre.length + i)) {state : CopyState}
    (hstate : CopyInvariant seg state) (hcondition : state.index < seg.length) :
    ∃ next, copyStep (pre ++ seg ++ post) position state = .ok next ∧ CopyInvariant seg next ∧
      next.index = state.index + 1 := by
  obtain ⟨index, temp⟩ := state
  obtain ⟨done, todo, rest, rfl, rfl, rfl, hrest⟩ := hstate
  obtain _ | ⟨value, todo⟩ := todo
  · simp at hcondition
  obtain _ | ⟨old, rest⟩ := rest
  · simp at hrest
  simp only [List.length_append, List.length_cons] at hlength hrest
  have hload : load (pre ++ (done ++ value :: todo) ++ post) (pre.length + done.length) =
      .ok value := by
    have hcut : load ((pre ++ done) ++ value :: (todo ++ post)) (pre.length + done.length) =
        .ok value := load_append_cons _ _ value (by simp)
    simpa using hcut
  have hindex : checkedInt (done.length + 1 : ℤ) = .ok (done.length + 1 : ℤ) :=
    checkedInt_ok (by omega) (by omega)
  refine ⟨⟨done.length + 1, done ++ value :: rest⟩, ?_,
    ⟨done ++ [value], todo, rest, by simp, by simp, by simp, by omega⟩, rfl⟩
  simp only [copyStep, hposition done.length (by simp), ok_bind, hload,
    store_append_cons done rest old value rfl, hindex, pure_eq_ok]

/-- A copy loop fills the temporary array with the segment of the array it reads. Assumes: the
position of the `i`-th element is computed without overflow as `i` past the prefix, and the
temporary array has the length of the segment. -/
theorem copyToTemp_spec {arr seg temp : List Int32} {position : ℤ → Except Fault ℤ}
    (pre post : List Int32) (harr : arr = pre ++ seg ++ post)
    (hlength : pre.length + seg.length ≤ 2147483647)
    (htemp : temp.length = seg.length)
    (hposition : ∀ i : ℕ, i < seg.length → position i = .ok (pre.length + i)) :
    copyToTemp arr position seg.length temp = .ok seg := by
  subst harr
  have hinitial : CopyInvariant seg ⟨0, temp⟩ := ⟨[], seg, temp, rfl, rfl, rfl, htemp⟩
  have hloop : ∃ final, whileLoop (fun state ↦ decide (state.index < (seg.length : ℤ)))
      (copyStep (pre ++ seg ++ post) position) (seg.length : ℤ).toNat ⟨0, temp⟩ = .ok final ∧
      final.temp = seg := by
    refine whileLoop_spec (CopyInvariant seg) (fun state ↦ (seg.length - state.index).toNat)
      (fun state hstate hcondition ↦ ?_) (fun state hstate hexit ↦ ?_) hinitial (by simp)
    · have hless := of_decide_eq_true hcondition
      obtain ⟨next, hnext, hinvariant, hindex⟩ := copyStep_spec hlength hposition hstate hless
      exact ⟨next, hnext, hinvariant, by omega⟩
    · obtain ⟨done, todo, rest, hseg, hindex, hcopied, hrest⟩ := hstate
      have hlast := of_decide_eq_false hexit
      rw [hindex, hseg, List.length_append] at hlast
      obtain rfl : todo = [] := List.eq_nil_of_length_eq_zero (by omega)
      obtain rfl : rest = [] := List.eq_nil_of_length_eq_zero hrest
      rw [hcopied, hseg]
  obtain ⟨final, hfinal, hcopied⟩ := hloop
  unfold copyToTemp
  rw [hfinal, ok_bind, pure_eq_ok, hcopied]

/-! ### The merge loops -/

/-- The invariant of the merge loops on the array `pre ++ … ++ post`. The temporary arrays are
split at `i` and `j` into what is merged already and what is left, `out` is what is written before
`k`, and `out` followed by the merge of what is left is the merge of the two arrays. -/
structure MergeInvariant (pre post left right : List Int32) (state : MergeState)
    (leftDone leftTodo rightDone rightTodo out rest : List Int32) : Prop where
  left_eq : left = leftDone ++ leftTodo
  right_eq : right = rightDone ++ rightTodo
  i_eq : state.i = leftDone.length
  j_eq : state.j = rightDone.length
  k_eq : state.k = pre.length + out.length
  arr_eq : state.arr = pre ++ out ++ rest ++ post
  room : rest.length = leftTodo.length + rightTodo.length
  merged : out ++ mergeOrdered leftTodo rightTodo = mergeOrdered left right

/-- The state is inside the merge of two lists. -/
def Merging (pre post left right : List Int32) (state : MergeState) : Prop :=
  ∃ leftDone leftTodo rightDone rightTodo out rest,
    MergeInvariant pre post left right state leftDone leftTodo rightDone rightTodo out rest

section MergeLoops

variable {pre post left right leftDone leftTodo rightDone rightTodo out rest : List Int32}
  {state : MergeState}

/-- What is written and what is left to merge have together the length of the two arrays. -/
theorem MergeInvariant.length_out (hstate : MergeInvariant pre post left right state leftDone
    leftTodo rightDone rightTodo out rest) :
    out.length + leftTodo.length + rightTodo.length = left.length + right.length := by
  have hlengths := congrArg List.length hstate.merged
  simp only [List.length_append, List.length_merge] at hlengths
  omega

/-- The write `arr[k] = value; k++` of a round with something left to merge. -/
theorem MergeInvariant.store_next (value : Int32)
    (hlength : pre.length + left.length + right.length ≤ 2147483647)
    (hstate : MergeInvariant pre post left right state leftDone leftTodo rightDone rightTodo out
      rest) (htodo : 0 < leftTodo.length + rightTodo.length) :
    ∃ tail, store state.arr state.k value = .ok (pre ++ (out ++ [value]) ++ tail ++ post) ∧
      checkedInt (state.k + 1) = .ok (state.k + 1) ∧
      tail.length + 1 = leftTodo.length + rightTodo.length := by
  have hout := hstate.length_out
  have hk := hstate.k_eq
  have hroom := hstate.room
  have harr := hstate.arr_eq
  obtain _ | ⟨old, tail⟩ := rest
  · rw [List.length_nil] at hroom
    omega
  refine ⟨tail, ?_, checkedInt_ok (by omega) (by omega), hroom⟩
  have hindex : state.k = (pre ++ out).length := by
    rw [hk, List.length_append, Int.natCast_add]
  simpa [harr] using store_append_cons (pre ++ out) (tail ++ post) old value hindex

/-- A round that takes from the left array. Assumes: the next element of the ordered merge is the
front of what is left of it. -/
theorem takeLeft_spec {value : Int32}
    (hlength : pre.length + left.length + right.length ≤ 2147483647)
    (hstate : MergeInvariant pre post left right state leftDone (value :: leftTodo) rightDone
      rightTodo out rest)
    (hfront : mergeOrdered (value :: leftTodo) rightTodo =
      value :: mergeOrdered leftTodo rightTodo) :
    ∃ next, takeLeft left state = .ok next ∧ Merging pre post left right next ∧
      next.i = state.i + 1 ∧ next.j = state.j := by
  obtain ⟨tail, hstore, hposition, hroom⟩ :=
    hstate.store_next value hlength (by rw [List.length_cons]; omega)
  have hload : load left state.i = .ok value := by
    rw [hstate.left_eq]
    exact load_append_cons leftDone leftTodo value hstate.i_eq
  have hcounter : checkedInt (state.i + 1) = .ok (state.i + 1) := by
    have hlengths := congrArg List.length hstate.left_eq
    have hi := hstate.i_eq
    rw [List.length_append, List.length_cons] at hlengths
    exact checkedInt_ok (by omega) (by omega)
  refine ⟨⟨pre ++ (out ++ [value]) ++ tail ++ post, state.i + 1, state.j, state.k + 1⟩, ?_,
    ⟨leftDone ++ [value], leftTodo, rightDone, rightTodo, out ++ [value], tail, ?_⟩, rfl, rfl⟩
  · simp only [takeLeft, hload, ok_bind, hstore, hcounter, hposition, pure_eq_ok]
  · refine ⟨by rw [hstate.left_eq, List.append_assoc, List.singleton_append], hstate.right_eq,
      by simp [hstate.i_eq], hstate.j_eq, by simp [hstate.k_eq, Int.add_assoc], rfl, ?_, ?_⟩
    · rw [List.length_cons] at hroom
      omega
    · rw [← hstate.merged, hfront, List.append_assoc, List.singleton_append]

/-- A round that takes from the right array. Assumes: the next element of the ordered merge is the
front of what is left of it. -/
theorem takeRight_spec {value : Int32}
    (hlength : pre.length + left.length + right.length ≤ 2147483647)
    (hstate : MergeInvariant pre post left right state leftDone leftTodo rightDone
      (value :: rightTodo) out rest)
    (hfront : mergeOrdered leftTodo (value :: rightTodo) =
      value :: mergeOrdered leftTodo rightTodo) :
    ∃ next, takeRight right state = .ok next ∧ Merging pre post left right next ∧
      next.i = state.i ∧ next.j = state.j + 1 := by
  obtain ⟨tail, hstore, hposition, hroom⟩ :=
    hstate.store_next value hlength (by rw [List.length_cons]; omega)
  have hload : load right state.j = .ok value := by
    rw [hstate.right_eq]
    exact load_append_cons rightDone rightTodo value hstate.j_eq
  have hcounter : checkedInt (state.j + 1) = .ok (state.j + 1) := by
    have hlengths := congrArg List.length hstate.right_eq
    have hj := hstate.j_eq
    rw [List.length_append, List.length_cons] at hlengths
    exact checkedInt_ok (by omega) (by omega)
  refine ⟨⟨pre ++ (out ++ [value]) ++ tail ++ post, state.i, state.j + 1, state.k + 1⟩, ?_,
    ⟨leftDone, leftTodo, rightDone ++ [value], rightTodo, out ++ [value], tail, ?_⟩, rfl, rfl⟩
  · simp only [takeRight, hload, ok_bind, hstore, hcounter, hposition, pure_eq_ok]
  · refine ⟨hstate.left_eq, by rw [hstate.right_eq, List.append_assoc, List.singleton_append],
      hstate.i_eq, by simp [hstate.j_eq], by simp [hstate.k_eq, Int.add_assoc], rfl, ?_, ?_⟩
    · rw [List.length_cons] at hroom
      omega
    · rw [← hstate.merged, hfront, List.append_assoc, List.singleton_append]

/-- A round of the first loop takes the smaller of the two front elements. -/
theorem takeSmaller_spec
    (hlength : pre.length + left.length + right.length ≤ 2147483647)
    (hstate : Merging pre post left right state) (hi : state.i < left.length)
    (hj : state.j < right.length) :
    ∃ next, takeSmaller left right state = .ok next ∧ Merging pre post left right next ∧
      next.i + next.j = state.i + state.j + 1 := by
  obtain ⟨leftDone, leftTodo, rightDone, rightTodo, out, rest, hstate⟩ := hstate
  obtain _ | ⟨x, leftTodo⟩ := leftTodo
  · simp [hstate.i_eq, hstate.left_eq] at hi
  obtain _ | ⟨y, rightTodo⟩ := rightTodo
  · simp [hstate.j_eq, hstate.right_eq] at hj
  have hx : load left state.i = .ok x := by
    rw [hstate.left_eq]
    exact load_append_cons leftDone leftTodo x hstate.i_eq
  have hy : load right state.j = .ok y := by
    rw [hstate.right_eq]
    exact load_append_cons rightDone rightTodo y hstate.j_eq
  simp only [takeSmaller, hx, hy, ok_bind]
  by_cases hxy : x ≤ y
  · obtain ⟨next, hnext, hmerging, hni, hnj⟩ := takeLeft_spec hlength hstate (by simp [hxy])
    rw [if_pos hxy]
    exact ⟨next, hnext, hmerging, by omega⟩
  · obtain ⟨next, hnext, hmerging, hni, hnj⟩ := takeRight_spec hlength hstate (by simp [hxy])
    rw [if_neg hxy]
    exact ⟨next, hnext, hmerging, by omega⟩

/-- Nothing is left of the left array once its counter is at its end. -/
theorem MergeInvariant.leftTodo_eq_nil (hstate : MergeInvariant pre post left right state leftDone
    leftTodo rightDone rightTodo out rest) (hend : left.length ≤ state.i) : leftTodo = [] := by
  rw [hstate.i_eq, hstate.left_eq, List.length_append] at hend
  exact List.eq_nil_of_length_eq_zero (by omega)

/-- Nothing is left of the right array once its counter is at its end. -/
theorem MergeInvariant.rightTodo_eq_nil (hstate : MergeInvariant pre post left right state leftDone
    leftTodo rightDone rightTodo out rest) (hend : right.length ≤ state.j) : rightTodo = [] := by
  rw [hstate.j_eq, hstate.right_eq, List.length_append] at hend
  exact List.eq_nil_of_length_eq_zero (by omega)

/-- The second loop with nothing left of the right array takes a round from the left one. -/
theorem takeLeft_rest
    (hlength : pre.length + left.length + right.length ≤ 2147483647)
    (hstate : Merging pre post left right state) (hi : state.i < left.length)
    (hj : right.length ≤ state.j) :
    ∃ next, takeLeft left state = .ok next ∧ Merging pre post left right next ∧
      next.i = state.i + 1 ∧ next.j = state.j := by
  obtain ⟨leftDone, leftTodo, rightDone, rightTodo, out, rest, hstate⟩ := hstate
  obtain rfl := hstate.rightTodo_eq_nil hj
  obtain _ | ⟨x, leftTodo⟩ := leftTodo
  · simp [hstate.i_eq, hstate.left_eq] at hi
  exact takeLeft_spec hlength hstate (by simp)

/-- The third loop with nothing left of the left array takes a round from the right one. -/
theorem takeRight_rest
    (hlength : pre.length + left.length + right.length ≤ 2147483647)
    (hstate : Merging pre post left right state) (hi : left.length ≤ state.i)
    (hj : state.j < right.length) :
    ∃ next, takeRight right state = .ok next ∧ Merging pre post left right next ∧
      next.i = state.i ∧ next.j = state.j + 1 := by
  obtain ⟨leftDone, leftTodo, rightDone, rightTodo, out, rest, hstate⟩ := hstate
  obtain rfl := hstate.leftTodo_eq_nil hi
  obtain _ | ⟨y, rightTodo⟩ := rightTodo
  · simp [hstate.j_eq, hstate.right_eq] at hj
  exact takeRight_spec hlength hstate (by simp)

/-- With both arrays read to their ends, the ordered merge is in place. -/
theorem Merging.arr_eq_of_end (hstate : Merging pre post left right state)
    (hi : left.length ≤ state.i) (hj : right.length ≤ state.j) :
    state.arr = pre ++ mergeOrdered left right ++ post := by
  obtain ⟨leftDone, leftTodo, rightDone, rightTodo, out, rest, hstate⟩ := hstate
  obtain rfl := hstate.leftTodo_eq_nil hi
  obtain rfl := hstate.rightTodo_eq_nil hj
  have hmerged : out = mergeOrdered left right := by simpa using hstate.merged
  have hrest : rest = [] := List.eq_nil_of_length_eq_zero (by simpa using hstate.room)
  rw [hstate.arr_eq, hmerged, hrest, List.append_nil]

/-- The counters of a merge stay within the two arrays. -/
theorem Merging.counters (hstate : Merging pre post left right state) :
    0 ≤ state.i ∧ state.i ≤ left.length ∧ 0 ≤ state.j ∧ state.j ≤ right.length := by
  obtain ⟨leftDone, leftTodo, rightDone, rightTodo, out, rest, hstate⟩ := hstate
  rw [hstate.i_eq, hstate.j_eq, hstate.left_eq, hstate.right_eq, List.length_append,
    List.length_append]
  omega

/-- The first loop merges until one of the two arrays is read to its end. -/
theorem mergeLoop_spec
    (hlength : pre.length + left.length + right.length ≤ 2147483647)
    (hstate : Merging pre post left right state) {rounds : ℕ}
    (hrounds : left.length + right.length ≤ rounds) :
    ∃ final, mergeLoop left right left.length right.length rounds state = .ok final ∧
      Merging pre post left right final ∧
      ((left.length : ℤ) ≤ final.i ∨ (right.length : ℤ) ≤ final.j) := by
  have hcounters := hstate.counters
  refine whileLoop_spec (Merging pre post left right)
    (fun state ↦ (left.length + right.length - (state.i + state.j)).toNat)
    (fun state hstate hcondition ↦ ?_) (fun state hstate hexit ↦ ?_) hstate (by omega)
  · obtain ⟨hi, hj⟩ := of_decide_eq_true hcondition
    obtain ⟨next, hnext, hmerging, hsum⟩ := takeSmaller_spec hlength hstate hi hj
    exact ⟨next, hnext, hmerging, by omega⟩
  · have hend := of_decide_eq_false hexit
    exact ⟨hstate, by omega⟩

/-- The second loop takes what is left of the left array. Assumes: one of the two arrays is read to
its end. -/
theorem restOfLeft_spec
    (hlength : pre.length + left.length + right.length ≤ 2147483647)
    (hstate : Merging pre post left right state)
    (hend : (left.length : ℤ) ≤ state.i ∨ (right.length : ℤ) ≤ state.j) {rounds : ℕ}
    (hrounds : left.length + right.length ≤ rounds) :
    ∃ final, restOfLeft left left.length rounds state = .ok final ∧
      Merging pre post left right final ∧ (left.length : ℤ) ≤ final.i := by
  have hcounters := hstate.counters
  refine whileLoop_spec
    (fun state ↦ Merging pre post left right state ∧
      ((left.length : ℤ) ≤ state.i ∨ (right.length : ℤ) ≤ state.j))
    (fun state ↦ (left.length - state.i).toNat)
    (fun state hstate hcondition ↦ ?_) (fun state hstate hexit ↦ ?_) ⟨hstate, hend⟩ (by omega)
  · have hi := of_decide_eq_true hcondition
    have hj : (right.length : ℤ) ≤ state.j := hstate.2.resolve_left (by omega)
    obtain ⟨next, hnext, hmerging, hni, hnj⟩ := takeLeft_rest hlength hstate.1 hi hj
    exact ⟨next, hnext, ⟨hmerging, Or.inr (by omega)⟩, by omega⟩
  · have hi := of_decide_eq_false hexit
    exact ⟨hstate.1, by omega⟩

/-- The third loop takes what is left of the right array, and the ordered merge is in place.
Assumes: the left array is read to its end. -/
theorem restOfRight_spec
    (hlength : pre.length + left.length + right.length ≤ 2147483647)
    (hstate : Merging pre post left right state) (hend : (left.length : ℤ) ≤ state.i) {rounds : ℕ}
    (hrounds : left.length + right.length ≤ rounds) :
    ∃ final, restOfRight right right.length rounds state = .ok final ∧
      final.arr = pre ++ mergeOrdered left right ++ post := by
  have hcounters := hstate.counters
  refine whileLoop_spec
    (fun state ↦ Merging pre post left right state ∧ (left.length : ℤ) ≤ state.i)
    (fun state ↦ (right.length - state.j).toNat)
    (fun state hstate hcondition ↦ ?_) (fun state hstate hexit ↦ ?_) ⟨hstate, hend⟩ (by omega)
  · have hj := of_decide_eq_true hcondition
    obtain ⟨next, hnext, hmerging, hni, hnj⟩ := takeRight_rest hlength hstate.1 hstate.2 hj
    exact ⟨next, hnext, ⟨hmerging, by have hi := hstate.2; omega⟩, by omega⟩
  · have hj := of_decide_eq_false hexit
    exact hstate.1.arr_eq_of_end hstate.2 (by omega)

end MergeLoops

/-! ### The sort -/

/-- `mergeHalves` replaces two adjacent nonempty segments by their ordered merge and leaves the
rest of the array alone. -/
theorem mergeHalves_spec (indeterminate : ℕ → Int32) {pre left right post : List Int32}
    (hlength : pre.length + left.length + right.length ≤ 2147483647)
    (hleft : 0 < left.length) (hright : 0 < right.length) {l m r : ℤ} (hl : l = pre.length)
    (hm : m + 1 = l + left.length) (hr : r = m + right.length) :
    mergeHalves indeterminate (pre ++ left ++ right ++ post) l m r =
      .ok (pre ++ mergeOrdered left right ++ post) := by
  have hdifference : checkedInt (m - l) = .ok (m - l) := checkedInt_ok (by omega) (by omega)
  have hn1 : checkedInt (m - l + 1) = .ok (left.length : ℤ) := by
    rw [checkedInt_ok (by omega) (by omega)]
    exact congrArg _ (by omega)
  have hn2 : checkedInt (r - m) = .ok (right.length : ℤ) := by
    rw [checkedInt_ok (by omega) (by omega)]
    exact congrArg _ (by omega)
  have hcopyLeft : copyToTemp (pre ++ left ++ right ++ post) (fun i ↦ checkedInt (l + i))
      left.length ((List.range left.length).map indeterminate) = .ok left := by
    refine copyToTemp_spec pre (right ++ post) (by simp) (by omega) (by simp) fun i hi ↦ ?_
    rw [hl]
    exact checkedInt_ok (by omega) (by omega)
  have hcopyRight : copyToTemp (pre ++ left ++ right ++ post)
      (fun j ↦ (checkedInt (m + 1)).bind fun start ↦ checkedInt (start + j)) right.length
      ((List.range right.length).map indeterminate) = .ok right := by
    refine copyToTemp_spec (pre ++ left) post (by simp)
      (by rw [List.length_append]; exact hlength) (by simp) fun j hj ↦ ?_
    have hstart : m + 1 = (pre ++ left).length := by
      rw [hm, hl, List.length_append, Int.natCast_add]
    rw [hstart, List.length_append, checkedInt_ok (by omega) (by omega)]
    exact checkedInt_ok (by omega) (by omega)
  have hstart : Merging pre post left right ⟨pre ++ left ++ right ++ post, 0, 0, l⟩ :=
    ⟨[], left, [], right, [], left ++ right,
      ⟨rfl, rfl, rfl, rfl, by simp [hl], by simp, by simp, rfl⟩⟩
  have hrounds : left.length + right.length ≤ ((left.length : ℤ) + right.length).toNat := by omega
  obtain ⟨first, hfirst, hfirstState, hfirstEnd⟩ := mergeLoop_spec hlength hstart hrounds
  obtain ⟨second, hsecond, hsecondState, hsecondEnd⟩ :=
    restOfLeft_spec hlength hfirstState hfirstEnd hrounds
  obtain ⟨third, hthird, hthirdArr⟩ := restOfRight_spec hlength hsecondState hsecondEnd hrounds
  simp only [mergeHalves, hdifference, hn1, hn2, ok_bind, variableLengthArray_ok _ hleft,
    variableLengthArray_ok _ hright, hcopyLeft, hcopyRight, hfirst, hsecond, hthird, pure_eq_ok,
    hthirdArr]

/-- A call on an empty or one-element range returns at once. -/
theorem mergeSort_of_le (indeterminate : ℕ → Int32) (depth : ℕ) (arr : List Int32) {l r : ℤ}
    (hrange : r ≤ l) : mergeSort indeterminate depth arr l r = .ok arr := by
  cases depth <;> rw [mergeSort, if_neg (by omega)]

/-- A list of at most one element is sorted. -/
theorem pairwise_of_length_le_one {seg : List Int32} (hshort : seg.length ≤ 1) :
    seg.Pairwise (· ≤ ·) := by
  match seg, hshort with
  | [], _ => exact .nil
  | [value], _ => exact List.pairwise_singleton _ value

/-- The sort on a segment of the array. Assumes: the index behind the segment is an `int`, and the
recursion depth covers the length of the segment. The call returns with the segment replaced by a
sorted permutation of itself and the rest of the array unchanged. -/
theorem mergeSort_spec (indeterminate : ℕ → Int32) (depth : ℕ) (pre seg post : List Int32)
    {arr : List Int32} (harr : arr = pre ++ seg ++ post)
    (hlength : pre.length + seg.length ≤ 2147483647) (hdepth : seg.length ≤ 2 ^ depth) {l r : ℤ}
    (hl : l = pre.length) (hr : r + 1 = l + seg.length) :
    ∃ sorted, mergeSort indeterminate depth arr l r = .ok (pre ++ sorted ++ post) ∧
      sorted.Pairwise (· ≤ ·) ∧ sorted.Perm seg := by
  induction depth generalizing pre seg post arr l r with
  | zero =>
    have hshort : seg.length ≤ 1 := by simpa using hdepth
    refine ⟨seg, ?_, pairwise_of_length_le_one hshort, .rfl⟩
    rw [mergeSort_of_le _ _ _ (by omega), harr]
  | succ depth ih =>
    by_cases hrange : l < r
    · obtain ⟨left, right, rfl, hleft⟩ : ∃ left right, seg = left ++ right ∧
          left.length = (seg.length - 1) / 2 + 1 :=
        ⟨seg.take ((seg.length - 1) / 2 + 1), seg.drop ((seg.length - 1) / 2 + 1), by simp,
          by rw [List.length_take]; omega⟩
      rw [List.length_append] at hleft hlength hdepth hr
      have hpower : 2 ^ (depth + 1) = 2 * 2 ^ depth := Nat.pow_succ'
      have hwidth : checkedInt (r - l) = .ok (r - l) := checkedInt_ok (by omega) (by omega)
      have hm : l + (r - l) / 2 + 1 = l + left.length := by omega
      have hmiddle : checkedInt (l + (r - l) / 2) = .ok (l + (r - l) / 2) :=
        checkedInt_ok (by omega) (by omega)
      have hstart : checkedInt (l + (r - l) / 2 + 1) = .ok (l + (r - l) / 2 + 1) :=
        checkedInt_ok (by omega) (by omega)
      obtain ⟨first, hfirst, hfirstSorted, hfirstPerm⟩ : ∃ first,
          mergeSort indeterminate depth arr l (l + (r - l) / 2) =
            .ok (pre ++ first ++ (right ++ post)) ∧ first.Pairwise (· ≤ ·) ∧ first.Perm left :=
        ih pre left (right ++ post) (by simp [harr]) (by omega) (by omega) hl hm
      have hfirstLength := hfirstPerm.length_eq
      obtain ⟨second, hsecond, hsecondSorted, hsecondPerm⟩ : ∃ second,
          mergeSort indeterminate depth (pre ++ first ++ (right ++ post)) (l + (r - l) / 2 + 1) r =
            .ok (pre ++ first ++ second ++ post) ∧ second.Pairwise (· ≤ ·) ∧ second.Perm right :=
        ih (pre ++ first) right post (by simp) (by simp only [List.length_append]; omega) (by omega)
          (by rw [hm, hl, List.length_append, hfirstLength, Int.natCast_add]) (by omega)
      have hsecondLength := hsecondPerm.length_eq
      refine ⟨mergeOrdered first second, ?_, mergeOrdered_pairwise hfirstSorted hsecondSorted,
        (List.merge_perm_append _).trans (hfirstPerm.append hsecondPerm)⟩
      simp only [mergeSort, if_pos hrange, hwidth, hmiddle, hstart, ok_bind, hfirst, hsecond]
      exact mergeHalves_spec indeterminate (by omega) (by omega) (by omega) hl (by omega) (by omega)
    · refine ⟨seg, ?_, pairwise_of_length_le_one (by omega), .rfl⟩
      rw [mergeSort_of_le _ _ _ (by omega), harr]

/-- The sort on a whole array, with the recursion depth that covers every array. -/
theorem mergeSort_whole (indeterminate : ℕ → Int32) (arr : List Int32)
    (hlength : arr.length ≤ 2147483647) :
    ∃ sorted, mergeSort indeterminate 31 arr 0 ((arr.length : ℤ) - 1) = .ok sorted ∧
      sorted.Pairwise (· ≤ ·) ∧ sorted.Perm arr := by
  obtain ⟨sorted, hsort, hpairwise, hperm⟩ : ∃ sorted,
      mergeSort indeterminate 31 arr 0 ((arr.length : ℤ) - 1) = .ok ([] ++ sorted ++ []) ∧
        sorted.Pairwise (· ≤ ·) ∧ sorted.Perm arr :=
    mergeSort_spec indeterminate 31 [] arr [] (by simp) (by rw [List.length_nil]; omega) (by omega)
      (by rfl) (by omega)
  rw [List.nil_append, List.append_nil] at hsort
  exact ⟨sorted, hsort, hpairwise, hperm⟩

/-! ### A call on a range -/

/-- The elements `arr[l..r]`, none when `r < l`. -/
def subrange (arr : List Int32) (l r : ℤ) : List Int32 := (arr.drop l.toNat).take (r + 1 - l).toNat

/-- An array can be cut at the ends of a range inside it. -/
theorem exists_cut (arr : List Int32) {l r : ℤ} (hl : 0 ≤ l) (hrange : l ≤ r)
    (hr : r < arr.length) : ∃ pre seg post, arr = pre ++ seg ++ post ∧ l = pre.length ∧
      r + 1 = l + seg.length := by
  refine ⟨arr.take l.toNat, (arr.drop l.toNat).take (r + 1 - l).toNat,
    (arr.drop l.toNat).drop (r + 1 - l).toNat, ?_, ?_, ?_⟩
  · rw [List.append_assoc, List.take_append_drop, List.take_append_drop]
  · rw [List.length_take]
    omega
  · rw [List.length_take, List.length_drop]
    omega

/-- The range of an array that has been cut there. -/
theorem subrange_append (pre seg post : List Int32) {l r : ℤ} (hl : l = pre.length)
    (hr : r + 1 = l + seg.length) : subrange (pre ++ seg ++ post) l r = seg := by
  have hstart : l.toNat = pre.length := by omega
  have hcount : (r + 1 - l).toNat = seg.length := by omega
  rw [subrange, hstart, hcount, List.append_assoc, List.drop_left, List.take_left]

/-- Two arrays that differ in a segment of the same length agree outside it. -/
theorem getElem?_of_outside {pre seg sorted post : List Int32}
    (hlength : sorted.length = seg.length) {index : ℕ}
    (houtside : index < pre.length ∨ pre.length + seg.length ≤ index) :
    (pre ++ sorted ++ post)[index]? = (pre ++ seg ++ post)[index]? := by
  rcases houtside with hbelow | habove
  · rw [List.append_assoc, List.append_assoc, List.getElem?_append_left hbelow,
      List.getElem?_append_left hbelow]
  · have hsorted : (pre ++ sorted).length ≤ index := by
      rw [List.length_append]
      omega
    have hseg : (pre ++ seg).length ≤ index := by
      rw [List.length_append]
      omega
    rw [List.getElem?_append_right hsorted, List.getElem?_append_right hseg, List.length_append,
      List.length_append, hlength]

/-- **The sort on a range.** For every array and all bounds inside it, the empty range included: the
call returns, the elements of the range are then sorted and a permutation of what they were, and
every other element is unchanged. Assumes: the index behind the range is an `int`. -/
theorem mergeSort_subrange (indeterminate : ℕ → Int32) (arr : List Int32) {l r : ℤ} (hl : 0 ≤ l)
    (hr : r < arr.length) (hint : r + 1 ≤ 2147483647) :
    ∃ result, mergeSort indeterminate 31 arr l r = .ok result ∧ result.length = arr.length ∧
      (subrange result l r).Pairwise (· ≤ ·) ∧ (subrange result l r).Perm (subrange arr l r) ∧
      ∀ index : ℕ, index < l ∨ r < index → result[index]? = arr[index]? := by
  by_cases hrange : l ≤ r
  · obtain ⟨pre, seg, post, rfl, hpre, hseg⟩ := exists_cut arr hl hrange hr
    obtain ⟨sorted, hsort, hpairwise, hperm⟩ := mergeSort_spec indeterminate 31 pre seg post rfl
      (by omega) (by omega) hpre hseg
    have hlength := hperm.length_eq
    refine ⟨pre ++ sorted ++ post, hsort, ?_, ?_, ?_, ?_⟩
    · simp only [List.length_append, hlength]
    · rw [subrange_append _ _ _ hpre (by omega)]
      exact hpairwise
    · rw [subrange_append _ _ _ hpre (by omega), subrange_append _ _ _ hpre hseg]
      exact hperm
    · intro index hindex
      exact getElem?_of_outside hlength (by omega)
  · have hempty : subrange arr l r = [] := by
      rw [subrange, Int.toNat_of_nonpos (by omega), List.take_zero]
    refine ⟨arr, mergeSort_of_le _ _ _ (by omega), rfl, ?_, .rfl, fun _ _ ↦ rfl⟩
    rw [hempty]
    exact .nil

/-- Four elements in the middle of an array of six. -/
theorem mergeSort_subrange_middle : ∃ result : List Int32,
    mergeSort (fun _ ↦ 0) 31 [9, 4, 3, 2, 1, 0] 1 4 = .ok result ∧
      (subrange result 1 4).Pairwise (· ≤ ·) ∧ result[0]? = some 9 ∧ result[5]? = some 0 := by
  obtain ⟨result, hsort, -, hpairwise, -, houtside⟩ := mergeSort_subrange (fun _ ↦ 0)
    [9, 4, 3, 2, 1, 0] (l := 1) (r := 4) (by decide) (by decide) (by decide)
  exact ⟨result, hsort, hpairwise, houtside 0 (by decide), houtside 5 (by decide)⟩

/-! ### The depth of the recursion -/

/-- A call that returns does so in the same way with one more nested call allowed. -/
theorem mergeSort_succ {indeterminate : ℕ → Int32} {depth : ℕ} {arr result : List Int32} {l r : ℤ}
    (hreturns : mergeSort indeterminate depth arr l r = .ok result) :
    mergeSort indeterminate (depth + 1) arr l r = .ok result := by
  induction depth generalizing arr l r result with
  | zero =>
    by_cases hrange : l < r
    · rw [mergeSort, if_pos hrange] at hreturns
      cases hreturns
    · rw [mergeSort, if_neg hrange] at hreturns
      rw [mergeSort, if_neg hrange, hreturns]
  | succ depth ih =>
    by_cases hrange : l < r
    · rw [mergeSort, if_pos hrange] at hreturns
      obtain ⟨width, hwidth, hreturns⟩ := bind_eq_ok hreturns
      obtain ⟨m, hm, hreturns⟩ := bind_eq_ok hreturns
      obtain ⟨first, hfirst, hreturns⟩ := bind_eq_ok hreturns
      obtain ⟨start, hstart, hreturns⟩ := bind_eq_ok hreturns
      obtain ⟨second, hsecond, hreturns⟩ := bind_eq_ok hreturns
      rw [mergeSort, if_pos hrange, hwidth, ok_bind, hm, ok_bind, ih hfirst, ok_bind, hstart,
        ok_bind, ih hsecond, ok_bind, hreturns]
    · rw [mergeSort, if_neg hrange] at hreturns
      rw [mergeSort, if_neg hrange, hreturns]

/-- A call that returns does so in the same way with more nested calls allowed. -/
theorem mergeSort_of_depth_le {indeterminate : ℕ → Int32} {depth more : ℕ}
    {arr result : List Int32} {l r : ℤ} (hdepth : depth ≤ more)
    (hreturns : mergeSort indeterminate depth arr l r = .ok result) :
    mergeSort indeterminate more arr l r = .ok result := by
  induction more, hdepth using Nat.le_induction with
  | base => exact hreturns
  | succ more _ ih => exact mergeSort_succ ih

/-- **The sort is safe and it ends.** For every array whose length is an `int` and all bounds inside
it, also with `r < l`: the call returns, under every bound on its nested calls that leaves room for
halving the range down to one element, and always in the same way. A result `.ok` says that each
value of `m`, `n1`, `n2`, `l + i`, `m + 1 + j`, `i`, `j` and `k` in the call and in all calls nested
in it is an `int`, that `n1` and `n2` are positive where the temporary arrays are declared, and that
each access to `arr`, `L` and `R` is inside its array. -/
theorem mergeSort_safe (indeterminate : ℕ → Int32) (arr : List Int32)
    (hlength : arr.length ≤ 2147483647) {l r : ℤ} (hl : 0 ≤ l) (hr : r < arr.length) :
    ∃ result, result.length = arr.length ∧ ∀ depth : ℕ, (r - l).toNat < 2 ^ depth →
      mergeSort indeterminate depth arr l r = .ok result := by
  by_cases hrange : l ≤ r
  · obtain ⟨pre, seg, post, rfl, hpre, hseg⟩ := exists_cut arr hl hrange hr
    have hint : pre.length + seg.length ≤ 2147483647 := by omega
    obtain ⟨sorted, hsort, -, hperm⟩ :=
      mergeSort_spec indeterminate 31 pre seg post rfl hint (by omega) hpre hseg
    refine ⟨pre ++ sorted ++ post, ?_, fun depth hdepth ↦ ?_⟩
    · simp only [List.length_append, hperm.length_eq]
    · obtain ⟨other, hother, -, -⟩ :=
        mergeSort_spec indeterminate depth pre seg post rfl hint (by omega) hpre hseg
      have hsame := (mergeSort_of_depth_le (Nat.le_max_left depth 31) hother).symm.trans
        (mergeSort_of_depth_le (Nat.le_max_right depth 31) hsort)
      rw [hother, hsame]
  · exact ⟨arr, rfl, fun depth _ ↦ mergeSort_of_le indeterminate depth arr (by omega)⟩

/-- Three elements and two levels of nested calls. -/
theorem mergeSort_safe_three : ∃ result : List Int32,
    result.length = 3 ∧ mergeSort (fun _ ↦ 0) 2 [3, 1, 2] 0 2 = .ok result := by
  obtain ⟨result, hlength, hreturns⟩ :=
    mergeSort_safe (fun _ ↦ 0) [3, 1, 2] (by decide) (Int.le_refl 0) (by decide : (2 : ℤ) < 3)
  exact ⟨result, hlength, hreturns 2 (by decide)⟩

end Apes.KernelSort
