import Apes.KernelSort.MergeSort
import Mathlib.Data.List.GetD

/-!
# The system call `kMergeSort` of `sys.c`

The call checks its arguments, copies `size` elements from the caller into a kernel buffer, sorts
the buffer with `mergeSort`, copies it back to the caller and returns. User memory is a function
from addresses to bytes, and an element is the little-endian `int32_t` at a byte address, so the two
regions may be disjoint, equal, or overlap at any byte offset. Byte counts are computed in the
32-bit `size_t` of the ARM target (`byteCount`). What the kernel services do in a call (whether
`kmalloc` returns a buffer and with which contents, how many bytes each copy leaves uncopied) is the
parameter `Services`.

`kMergeSort_correct` is the contract of the call. When everything succeeds the destination holds a
sorted permutation of what the source held on entry, whatever the overlap, because the whole source
is in the kernel buffer before the destination is written; when a check or the copy in fails, the
result is not zero and user memory is as before.
-/

set_option autoImplicit false
set_option relaxedAutoImplicit false

namespace Apes.KernelSort

open Library

/-! ### User memory -/

/-- The bytes of user memory by address. -/
abbrev UserMemory := ℕ → UInt8

/-- Byte `offset` of the little-endian representation of an `int32_t`. -/
def byteOf (value : Int32) (offset : ℕ) : UInt8 :=
  UInt8.ofNat (value.toUInt32.toNat / 256 ^ offset)

/-- The `int32_t` of four little-endian bytes. -/
def ofBytes (b0 b1 b2 b3 : UInt8) : Int32 :=
  (UInt32.ofNat (b0.toNat + 256 * b1.toNat + 65536 * b2.toNat + 16777216 * b3.toNat)).toInt32

/-- The `int32_t` at an address of user memory. -/
def readElement (user : UserMemory) (address : ℕ) : Int32 :=
  ofBytes (user address) (user (address + 1)) (user (address + 2)) (user (address + 3))

/-- The `count` elements from an address on. -/
def elements (user : UserMemory) (address count : ℕ) : List Int32 :=
  (List.range count).map fun index ↦ readElement user (address + 4 * index)

/-- Byte `offset` of an array of `int32_t`. -/
def arrayByte (array : List Int32) (offset : ℕ) : UInt8 :=
  byteOf (array.getD (offset / 4) 0) (offset % 4)

/-- User memory with the first `bytes` bytes of an array written at an address. -/
def writeBytes (user : UserMemory) (address : ℕ) (array : List Int32) (bytes : ℕ) : UserMemory :=
  fun target ↦
    if address ≤ target ∧ target < address + bytes then arrayByte array (target - address)
    else user target

/-- An `int32_t` is the value of its four bytes. -/
theorem ofBytes_byteOf (value : Int32) :
    ofBytes (byteOf value 0) (byteOf value 1) (byteOf value 2) (byteOf value 3) = value := by
  have hbound := value.toUInt32.toNat_lt
  have hbytes : (byteOf value 0).toNat + 256 * (byteOf value 1).toNat +
      65536 * (byteOf value 2).toNat + 16777216 * (byteOf value 3).toNat =
      value.toUInt32.toNat := by
    simp only [byteOf, UInt8.toNat_ofNat']
    omega
  rw [ofBytes, hbytes, UInt32.ofNat_toNat, Int32.toInt32_toUInt32]

@[simp] theorem length_elements (user : UserMemory) (address count : ℕ) :
    (elements user address count).length = count := by
  simp [elements]

/-- Reading the region where an array has been written gives the array. -/
theorem elements_writeBytes (user : UserMemory) (address : ℕ) (array : List Int32) :
    elements (writeBytes user address array (4 * array.length)) address array.length = array := by
  refine List.ext_getElem (length_elements _ _ _) fun index hindex hbound ↦ ?_
  have hbyte : ∀ offset < 4, writeBytes user address array (4 * array.length)
      (address + 4 * index + offset) = byteOf array[index] offset := by
    intro offset hoffset
    have hcell : address + 4 * index + offset - address = 4 * index + offset := by omega
    rw [writeBytes, if_pos (by omega), hcell, arrayByte, Nat.mul_add_div (by omega),
      Nat.mul_add_mod, Nat.div_eq_of_lt hoffset, Nat.mod_eq_of_lt hoffset, Nat.add_zero,
      List.getD_eq_getElem _ _ hbound]
  have hzero := hbyte 0 (by omega)
  rw [Nat.add_zero] at hzero
  simp only [elements, List.getElem_map, List.getElem_range]
  rw [readElement, hzero, hbyte 1 (by omega), hbyte 2 (by omega), hbyte 3 (by omega),
    ofBytes_byteOf]

/-- Bytes outside the region written are unchanged. -/
theorem writeBytes_of_outside (user : UserMemory) (address : ℕ) (array : List Int32)
    {bytes target : ℕ} (houtside : target < address ∨ address + bytes ≤ target) :
    writeBytes user address array bytes target = user target :=
  if_neg (by omega)

/-! ### The kernel's side of a call -/

/-- What the kernel services do in one call: the contents of the buffer that `kmalloc` returns,
`none` for `NULL`, and the number of bytes that each copy leaves uncopied. -/
structure Services where
  kmalloc : Option (ℕ → Int32)
  copyFromUserLeft : ℕ
  copyToUserLeft : ℕ

/-- The state a call acts on: user memory, the live kernel allocations, the number of allocations
made so far, how often a kernel service was handed a `NULL` buffer, and the kernel log. -/
structure KernelState where
  user : UserMemory
  live : List ℕ
  allocated : ℕ
  nullUses : ℕ
  log : List String

/-- A buffer obtained from `kmalloc`. -/
structure Buffer where
  identifier : ℕ
  contents : List Int32

def EFAULT : ℤ := 14

def EINVAL : ℤ := 22

def EDESTADDRREQ : ℤ := 89

/-- `sizeof(int32_t) * size` in the 32-bit `size_t` of the target. -/
def byteCount (size : ℤ) : ℕ := (4 * size % 4294967296).toNat

/-- `printk`: a message is appended to the kernel log. -/
def printk (message : String) (state : KernelState) : KernelState :=
  { state with log := state.log ++ [message] }

/-- `kmalloc` of a number of bytes: a fresh live allocation of exactly that size, or `NULL`. -/
def kmalloc (services : Services) (bytes : ℕ) (state : KernelState) :
    Option Buffer × KernelState :=
  match services.kmalloc with
  | none => (none, state)
  | some contents =>
    (some ⟨state.allocated, (List.range (bytes / 4)).map contents⟩,
      { state with live := state.allocated :: state.live, allocated := state.allocated + 1 })

/-- `kfree`. -/
def kfree (buffer : Buffer) (state : KernelState) : KernelState :=
  { state with live := state.live.erase buffer.identifier }

/-- `copy_from_user(buffer, address, bytes)`: the number of bytes left uncopied, and the buffer with
the elements of user memory when none is left. A complete copy to `NULL` is a fault. After an
incomplete one the caller does not read the buffer, whose contents are left as they were. -/
def copyFromUser (services : Services) (buffer : Option Buffer) (address bytes : ℕ)
    (state : KernelState) : Except Fault (ℕ × Option Buffer × KernelState) :=
  match buffer with
  | none =>
    if services.copyFromUserLeft = 0 then .error .nullPointer
    else .ok (services.copyFromUserLeft, none, { state with nullUses := state.nullUses + 1 })
  | some buffer =>
    if services.copyFromUserLeft = 0 then
      .ok (0, some { buffer with contents := elements state.user address (bytes / 4) }, state)
    else .ok (services.copyFromUserLeft, some buffer, state)

/-- `copy_to_user(address, buffer, bytes)`: the number of bytes left uncopied; the bytes before them
are written. -/
def copyToUser (services : Services) (buffer : Buffer) (address bytes : ℕ) (state : KernelState) :
    ℕ × KernelState :=
  (services.copyToUserLeft,
    { state with
      user := writeBytes state.user address buffer.contents (bytes - services.copyToUserLeft) })

/-- The variables of a printing loop. -/
structure PrintState where
  i : ℤ
  kernel : KernelState

/-- The body of a printing loop, `printk("%d\n", kernelBuffer[i]); i++`. -/
def printStep (contents : List Int32) (state : PrintState) : Except Fault PrintState := do
  let value ← load contents state.i
  let i ← checkedInt (state.i + 1)
  pure ⟨i, printk (toString value.toInt ++ "\n") state.kernel⟩

/-- `for (i=0; i<size; i++) printk("%d\n", kernelBuffer[i]);` -/
def printBuffer (contents : List Int32) (size : ℤ) (kernel : KernelState) :
    Except Fault KernelState := do
  let final ← whileLoop (fun state ↦ decide (state.i < size)) (printStep contents) size.toNat
    ⟨0, kernel⟩
  pure final.kernel

/-- The part of `kMergeSort` after the copy in: print, sort, copy out, print, free. A recursion of
31 nested calls covers every `int` range. -/
def sortAndDeliver (services : Services) (indeterminate : ℕ → Int32) (buffer : Buffer) (sorted : ℕ)
    (size : ℤ) (state : KernelState) : Except Fault (ℤ × KernelState) := do
  let state := printk "\nBuffer contents on entering syscall:\n" state
  let state ← printBuffer buffer.contents size state
  let last ← checkedInt (size - 1)
  let contents ← mergeSort indeterminate 31 buffer.contents 0 last
  let buffer := { buffer with contents := contents }
  let (left, state) := copyToUser services buffer sorted (byteCount size) state
  if left ≠ 0 then pure (EFAULT, printk "Copy to user unsuccessful" state)
  else do
    let state := printk "\nBuffer contents on completion of the sort:\n" state
    let state ← printBuffer buffer.contents size state
    pure (0, kfree buffer state)

/-- The system call: the result and the state it leaves. -/
def kMergeSort (services : Services) (indeterminate : ℕ → Int32) (unsorted sorted : ℕ) (size : ℤ)
    (state : KernelState) : Except Fault (ℤ × KernelState) :=
  if unsorted = 0 then .ok (EFAULT, printk "Null pointer to unsorted array" state)
  else
    let state := printk "Pointer to unsorted array is valid" state
    if sorted = 0 then .ok (EDESTADDRREQ, printk "Null pointer to sorted array" state)
    else
      let state := printk "Pointer to sorted array is valid" state
      if size < 256 then .ok (EINVAL, printk "Input buffer size is insufficient" state)
      else do
        let (buffer, state) := kmalloc services (byteCount size) state
        let (left, buffer, state) ← copyFromUser services buffer unsorted (byteCount size) state
        if left ≠ 0 then pure (EFAULT, printk "Copy from user unsuccessful" state)
        else
          match buffer with
          | none => .error .nullPointer
          | some buffer => sortAndDeliver services indeterminate buffer sorted size state

/-! ### The contract of the call -/

/-- The log line of an element. -/
def elementLine (value : Int32) : String := toString value.toInt ++ "\n"

/-- A printing loop over exactly the buffer logs every element. -/
theorem printBuffer_spec (contents : List Int32) (kernel : KernelState)
    (hlength : contents.length ≤ 2147483646) :
    printBuffer contents contents.length kernel =
      .ok { kernel with log := kernel.log ++ contents.map elementLine } := by
  have hloop : ∃ final, whileLoop (fun state ↦ decide (state.i < (contents.length : ℤ)))
      (printStep contents) (contents.length : ℤ).toNat ⟨0, kernel⟩ = .ok final ∧
      final.kernel = { kernel with log := kernel.log ++ contents.map elementLine } := by
    refine whileLoop_spec
      (fun state : PrintState ↦ ∃ done todo, contents = done ++ todo ∧ state.i = done.length ∧
        state.kernel = { kernel with log := kernel.log ++ done.map elementLine })
      (fun state ↦ (contents.length - state.i).toNat)
      (fun state hstate hcondition ↦ ?_) (fun state hstate hexit ↦ ?_)
      ⟨[], contents, rfl, rfl, by simp⟩ (by simp)
    · obtain ⟨done, todo, hcontents, hi, hkernel⟩ := hstate
      have hless := of_decide_eq_true hcondition
      obtain _ | ⟨value, todo⟩ := todo
      · simp [hi, hcontents] at hless
      have hload : load contents state.i = .ok value := by
        rw [hcontents]
        exact load_append_cons done todo value hi
      have hcounter : checkedInt (state.i + 1) = .ok (state.i + 1) :=
        checkedInt_ok (by omega) (by omega)
      refine ⟨⟨state.i + 1, printk (elementLine value) state.kernel⟩, ?_,
        ⟨done ++ [value], todo, by simp [hcontents], by simp [hi], by simp [hkernel, printk]⟩,
        by dsimp only; omega⟩
      simp only [printStep, hload, ok_bind, hcounter, pure_eq_ok, elementLine]
    · obtain ⟨done, todo, hcontents, hi, hkernel⟩ := hstate
      have hlast := of_decide_eq_false hexit
      rw [hi, hcontents, List.length_append] at hlast
      obtain rfl : todo = [] := List.eq_nil_of_length_eq_zero (by omega)
      rw [hkernel, hcontents, List.append_nil]
  obtain ⟨final, hfinal, hkernel⟩ := hloop
  unfold printBuffer
  rw [hfinal, ok_bind, pure_eq_ok, hkernel]

/-- The part after the copy in. Assumes: a buffer of `size` elements with `size` below the largest
`int`, and a complete copy out. The call returns zero, a sorted permutation of the buffer is
written at the destination, and the buffer is freed. -/
theorem sortAndDeliver_spec (services : Services) (indeterminate : ℕ → Int32) (buffer : Buffer)
    (sorted : ℕ) (state : KernelState) (hlength : buffer.contents.length ≤ 2147483646)
    (hcopy : services.copyToUserLeft = 0) :
    ∃ contents final,
      sortAndDeliver services indeterminate buffer sorted buffer.contents.length state =
        .ok (0, final) ∧
      contents.Pairwise (· ≤ ·) ∧ contents.Perm buffer.contents ∧
      final.user = writeBytes state.user sorted contents (byteCount buffer.contents.length) ∧
      final.live = state.live.erase buffer.identifier ∧ final.nullUses = state.nullUses := by
  have hlast : checkedInt ((buffer.contents.length : ℤ) - 1) =
      .ok ((buffer.contents.length : ℤ) - 1) := checkedInt_ok (by omega) (by omega)
  obtain ⟨contents, hsort, hpairwise, hperm⟩ :=
    mergeSort_whole indeterminate buffer.contents (Nat.le_succ_of_le hlength)
  have hprintSorted := printBuffer_spec contents
  rw [hperm.length_eq] at hprintSorted
  refine ⟨contents, kfree buffer
    { state with
      user := writeBytes state.user sorted contents (byteCount buffer.contents.length)
      log := state.log ++ ["\nBuffer contents on entering syscall:\n"] ++
        buffer.contents.map elementLine ++ ["\nBuffer contents on completion of the sort:\n"] ++
        contents.map elementLine }, ?_, hpairwise, hperm, rfl, rfl, rfl⟩
  simp only [sortAndDeliver, printBuffer_spec _ _ hlength, ok_bind, hlast, hsort, copyToUser,
    hcopy, ne_eq, not_true_eq_false, if_false, hprintSorted _ hlength, pure_eq_ok, printk, kfree,
    Nat.sub_zero]

/-- The byte count of a size whose count of bytes does not wrap. -/
theorem byteCount_of_no_wrap {count : ℕ} (hwrap : 4 * count < 4294967296) :
    byteCount count = 4 * count := by
  rw [byteCount]
  omega

/-- A call that passes the checks and gets its source copied in goes on with the copied elements.
Assumes: nonnull pointers, a size of at least 256, a buffer, and a complete copy in. -/
theorem kMergeSort_eq_sortAndDeliver {services : Services} {unsorted sorted : ℕ} {size : ℤ}
    {contents : ℕ → Int32} (indeterminate : ℕ → Int32) (state : KernelState)
    (hunsorted : unsorted ≠ 0) (hsorted : sorted ≠ 0) (hsize : 256 ≤ size)
    (hkmalloc : services.kmalloc = some contents) (hcopy : services.copyFromUserLeft = 0) :
    ∃ entry : KernelState, entry.user = state.user ∧
      entry.live = state.allocated :: state.live ∧ entry.nullUses = state.nullUses ∧
      kMergeSort services indeterminate unsorted sorted size state =
        sortAndDeliver services indeterminate
          ⟨state.allocated, elements state.user unsorted (byteCount size / 4)⟩ sorted size
          entry := by
  refine ⟨{ state with
    live := state.allocated :: state.live
    allocated := state.allocated + 1
    log := state.log ++ ["Pointer to unsorted array is valid"] ++
      ["Pointer to sorted array is valid"] }, rfl, rfl, rfl, ?_⟩
  have hlarge : ¬ size < 256 := by omega
  simp only [kMergeSort, if_neg hunsorted, if_neg hsorted, if_neg hlarge, kmalloc, hkmalloc,
    copyFromUser, hcopy, if_true, ok_bind, ne_eq, not_true_eq_false, if_false, printk]

/-- A call stopped by a check or by the copy in returns an error and leaves user memory alone. -/
theorem kMergeSort_of_failure {services : Services} {unsorted sorted : ℕ} {size : ℤ}
    (indeterminate : ℕ → Int32) (state : KernelState)
    (hfailure : unsorted = 0 ∨ sorted = 0 ∨ size < 256 ∨ services.copyFromUserLeft ≠ 0) :
    ∃ result final,
      kMergeSort services indeterminate unsorted sorted size state = .ok (result, final) ∧
        result ≠ 0 ∧ final.user = state.user := by
  by_cases hunsorted : unsorted = 0
  · exact ⟨EFAULT, _, if_pos hunsorted, by decide, rfl⟩
  by_cases hsorted : sorted = 0
  · simp only [kMergeSort, if_neg hunsorted, if_pos hsorted]
    exact ⟨EDESTADDRREQ, _, rfl, by decide, rfl⟩
  by_cases hsize : size < 256
  · simp only [kMergeSort, if_neg hunsorted, if_neg hsorted, if_pos hsize]
    exact ⟨EINVAL, _, rfl, by decide, rfl⟩
  have hcopy : services.copyFromUserLeft ≠ 0 := by tauto
  cases hkmalloc : services.kmalloc with
  | none =>
    simp only [kMergeSort, if_neg hunsorted, if_neg hsorted, if_neg hsize, kmalloc, hkmalloc,
      copyFromUser, if_neg hcopy, ok_bind, if_pos hcopy, pure_eq_ok]
    exact ⟨EFAULT, _, rfl, by decide, rfl⟩
  | some contents =>
    simp only [kMergeSort, if_neg hunsorted, if_neg hsorted, if_neg hsize, kmalloc, hkmalloc,
      copyFromUser, if_neg hcopy, ok_bind, if_pos hcopy, pure_eq_ok]
    exact ⟨EFAULT, _, rfl, by decide, rfl⟩

/-- A call in which nothing fails. Assumes: nonnull pointers, a size of at least 256 whose byte
count does not wrap, a buffer, and complete copies. It returns zero, writes a sorted permutation of
the source at the destination and nothing elsewhere, and leaves the allocations as they were. -/
theorem kMergeSort_delivers {services : Services} {unsorted sorted : ℕ} {size : ℤ}
    (indeterminate : ℕ → Int32) (state : KernelState) (hunsorted : unsorted ≠ 0)
    (hsorted : sorted ≠ 0) (hsize : 256 ≤ size) (hwrap : 4 * size < 4294967296)
    (hkmalloc : services.kmalloc.isSome) (hfrom : services.copyFromUserLeft = 0)
    (hto : services.copyToUserLeft = 0) :
    ∃ final, kMergeSort services indeterminate unsorted sorted size state = .ok (0, final) ∧
      (elements final.user sorted size.toNat).Pairwise (· ≤ ·) ∧
      (elements final.user sorted size.toNat).Perm (elements state.user unsorted size.toNat) ∧
      (∀ address, address < sorted ∨ sorted + 4 * size.toNat ≤ address →
        final.user address = state.user address) ∧
      final.live = state.live ∧ final.nullUses = state.nullUses := by
  obtain ⟨count, rfl⟩ : ∃ count : ℕ, size = count := ⟨size.toNat, by omega⟩
  obtain ⟨initial, hinitial⟩ := Option.isSome_iff_exists.mp hkmalloc
  obtain ⟨entry, hentry, hlive, hnull, hcall⟩ :=
    kMergeSort_eq_sortAndDeliver indeterminate state hunsorted hsorted hsize hinitial hfrom
  have hbytes : byteCount count = 4 * count := byteCount_of_no_wrap (by omega)
  rw [hbytes, Nat.mul_div_cancel_left _ (by omega)] at hcall
  obtain ⟨contents, final, hdeliver, hpairwise, hperm, huser, hfreed, hunused⟩ :=
    sortAndDeliver_spec services indeterminate
      ⟨state.allocated, elements state.user unsorted count⟩ sorted entry
      (by rw [length_elements]; omega) hto
  rw [length_elements] at hdeliver huser
  have hcount : contents.length = count := by rw [hperm.length_eq, length_elements]
  have hdelivered : elements final.user sorted count = contents := by
    rw [huser, hbytes, ← hcount]
    exact elements_writeBytes _ _ _
  refine ⟨final, hcall.trans hdeliver, ?_, ?_, fun address houtside ↦ ?_, ?_,
    hunused.trans hnull⟩
  · rw [Int.toNat_natCast, hdelivered]
    exact hpairwise
  · rw [Int.toNat_natCast, hdelivered]
    exact hperm
  · rw [Int.toNat_natCast] at houtside
    rw [huser, hbytes, writeBytes_of_outside _ _ _ houtside, hentry]
  · rw [hfreed, hlive, List.erase_cons_head]

/-- The contract of `kMergeSort`. When the arguments pass the checks, the byte count does not wrap
and the kernel services succeed, the call returns zero, the elements at `sorted` are a sorted
permutation of the elements that were at `unsorted` on entry, and every byte outside the
destination is unchanged. When a check or the copy in fails, the result is not zero and user
memory is unchanged. -/
theorem kMergeSort_correct (services : Services) (indeterminate : ℕ → Int32)
    (unsorted sorted : ℕ) (size : ℤ) (state : KernelState) :
    (unsorted ≠ 0 → sorted ≠ 0 → 256 ≤ size → 4 * size < 4294967296 →
        services.kmalloc.isSome → services.copyFromUserLeft = 0 → services.copyToUserLeft = 0 →
      ∃ final, kMergeSort services indeterminate unsorted sorted size state = .ok (0, final) ∧
        (elements final.user sorted size.toNat).Pairwise (· ≤ ·) ∧
        (elements final.user sorted size.toNat).Perm (elements state.user unsorted size.toNat) ∧
        ∀ address, address < sorted ∨ sorted + 4 * size.toNat ≤ address →
          final.user address = state.user address) ∧
    (unsorted = 0 ∨ sorted = 0 ∨ size < 256 ∨ services.copyFromUserLeft ≠ 0 →
      ∃ result final,
        kMergeSort services indeterminate unsorted sorted size state = .ok (result, final) ∧
          result ≠ 0 ∧ final.user = state.user) := by
  refine ⟨fun hunsorted hsorted hsize hwrap hkmalloc hfrom hto ↦ ?_,
    kMergeSort_of_failure indeterminate state⟩
  obtain ⟨final, hcall, hpairwise, hperm, houtside, -⟩ :=
    kMergeSort_delivers indeterminate state hunsorted hsorted hsize hwrap hkmalloc hfrom hto
  exact ⟨final, hcall, hpairwise, hperm, houtside⟩

/-- The contract at two regions of 256 elements that overlap by all but half an element, and at a
`NULL` source. -/
theorem kMergeSort_correct_overlapping :
    (∃ final, kMergeSort ⟨some fun _ ↦ 0, 0, 0⟩ (fun _ ↦ 0) 4096 4098 256
        ⟨fun address ↦ UInt8.ofNat (7 * address), [], 0, 0, []⟩ = .ok (0, final) ∧
      (elements final.user 4098 (256 : ℤ).toNat).Pairwise (· ≤ ·) ∧
      (elements final.user 4098 (256 : ℤ).toNat).Perm
        (elements (fun address ↦ UInt8.ofNat (7 * address)) 4096 (256 : ℤ).toNat) ∧
      ∀ address, address < 4098 ∨ 4098 + 4 * (256 : ℤ).toNat ≤ address →
        final.user address = UInt8.ofNat (7 * address)) ∧
    ∃ result final, kMergeSort ⟨some fun _ ↦ 0, 0, 0⟩ (fun _ ↦ 0) 0 4098 256
        ⟨fun address ↦ UInt8.ofNat (7 * address), [], 0, 0, []⟩ = .ok (result, final) ∧
      result ≠ 0 ∧ final.user = fun address ↦ UInt8.ofNat (7 * address) :=
  ⟨(kMergeSort_correct _ _ 4096 4098 256 _).1 (by decide) (by decide) (by decide) (by decide) rfl
      rfl rfl,
    (kMergeSort_correct _ _ 0 4098 256 _).2 (Or.inl rfl)⟩

end Apes.KernelSort
