import Apes.Kernel.Limits
import Mathlib.Logic.Function.Basic

/-!
# The memory map that a task shows, `sys.c`

A task's `mm_struct` says where its code, data, heap, stack, arguments and environment are, which
auxiliary vector it was started with and which file it executes. `prctl_set_mm` lets the task write
all of this: one field at a time, or with `PR_SET_MM_MAP` all the fields in one call, which then
may also replace the auxiliary vector and the file. Both ways check the new fields with
`validate_prctl_map`.

The fields of `struct prctl_mm_map` have 64 bits and those of `mm_struct` are machine words, so the
checks that cast a field see its low bits only. `w` is the number of bits of a machine word and `n`
the number of bytes of `saved_auxv`. `MmLayout` has what the kernel fixes: the bounds of the address
space, `check_data_rlimit`, the size of `struct prctl_mm_map` and whether the kernel has
`CONFIG_CHECKPOINT_RESTORE`. What else a call finds, in the caller's memory and in the rest of the
kernel, stands in `MmAnswers`: any answer is possible at any call.

No call writes anything before all of its checks have been made, so a call is an error or the
`mm_struct` after it. `memoryMap` is the transition system in which a task makes any sequence of
these calls.
-/

set_option autoImplicit false
set_option relaxedAutoImplicit false

namespace Apes.Kernel

open Library

/-! ### The fields -/

/-- The fields that `prctl_set_mm` writes. -/
inductive MmField
  | startCode
  | endCode
  | startData
  | endData
  | startBrk
  | brk
  | startStack
  | argStart
  | argEnd
  | envStart
  | envEnd
  deriving DecidableEq, Repr

/-- The table `offsets` of `validate_prctl_map`. -/
def MmField.offsets : List MmField :=
  [.startCode, .endCode, .startData, .endData, .startBrk, .brk, .startStack, .argStart, .argEnd,
    .envStart, .envEnd]

/-- The fields for which `prctl_set_mm` looks for a mapping of the address. -/
def MmField.needsMapping : MmField → Bool
  | .startStack | .argStart | .argEnd | .envStart | .envEnd => true
  | _ => false

/-- The values of the fields. -/
abbrev MmMap (w : ℕ) : Type := MmField → BitVec w

/-- The options of `prctl_set_mm`; the last one is any other number. -/
inductive MmOption
  | field (field : MmField)
  | auxv
  | exeFile
  | map
  | mapSize
  | other
  deriving DecidableEq, Repr

/-- An open file: its path, whether it is a regular file and whether it is on a file system from
which nothing is executed. -/
structure OpenFile where
  path : ℕ
  regular : Bool
  noexec : Bool
  deriving DecidableEq, Repr

/-- `struct prctl_mm_map`; `auxv` is none when the pointer is null, and else the bytes that can be
read from it on. -/
structure PrctlMmMap where
  map : MmMap 64
  auxv : Option (List UInt8)
  auxvSize : UInt32
  exeFd : UInt32

/-- The `exe_fd` that stands for no file. -/
def noFd : UInt32 := 0xFFFFFFFF

/-- The part of `mm_struct` that `prctl_set_mm` writes. -/
structure Mm (w n : ℕ) where
  map : MmMap w
  savedAuxv : Fin n → UInt8
  exeFile : Option OpenFile

/-- What the kernel fixes: `TASK_SIZE`, `mmap_min_addr`, whether `check_data_rlimit` accepts a limit
and the new values of `brk`, `start_brk`, `end_data` and `start_data`, the size of
`struct prctl_mm_map`, and `CONFIG_CHECKPOINT_RESTORE`. -/
structure MmLayout (w : ℕ) where
  taskSize : BitVec w
  mmapMinAddr : BitVec w
  checkDataRlimit : BitVec w → BitVec w → BitVec w → BitVec w → BitVec w → Bool
  mapSize : ℕ
  checkpointRestore : Bool

/-- What a call finds: whether the caller has `CAP_SYS_RESOURCE`, and `CAP_SYS_ADMIN` in its
namespace; its limit `RLIMIT_DATA`; the structure and the bytes that can be read at the address that
it gives, and whether a number can be written there; its open files, the error of
`inode_permission`, the paths of the mapped files, and whether `find_vma` finds a mapping. -/
structure MmAnswers (w : ℕ) where
  capable : Bool
  nsCapable : Bool
  dataLimit : BitVec w
  request : Option PrctlMmMap
  bytes : List UInt8
  putUser : Bool
  file : UInt32 → Option OpenFile
  mayExec : Option Errno
  mapped : List (Option ℕ)
  vma : Bool

variable {w n : ℕ}

/-! ### The checks -/

/-- An address is in the address space. -/
def MmLayout.Contains (layout : MmLayout w) (addr : BitVec w) : Prop :=
  addr < layout.taskSize ∧ layout.mmapMinAddr ≤ addr

instance (layout : MmLayout w) (addr : BitVec w) : Decidable (layout.Contains addr) :=
  inferInstanceAs (Decidable (_ ∧ _))

/-- The machine words of the fields. -/
def PrctlMmMap.words (prctlMap : PrctlMmMap) : MmMap w :=
  fun field ↦ (prctlMap.map field).setWidth w

/-- The pairs of fields are ordered. -/
def MmMap.Ordered (map : MmMap w) : Prop :=
  map .startCode < map .endCode ∧ map .startData < map .endData ∧ map .startBrk ≤ map .brk ∧
    map .argStart ≤ map .argEnd ∧ map .envStart ≤ map .envEnd

instance (map : MmMap w) : Decidable map.Ordered := inferInstanceAs (Decidable (_ ∧ _ ∧ _ ∧ _ ∧ _))

/-- `check_data_rlimit` accepts the fields. -/
def MmLayout.acceptsData (layout : MmLayout w) (dataLimit : BitVec w) (map : MmMap w) : Bool :=
  layout.checkDataRlimit dataLimit (map .brk) (map .startBrk) (map .endData) (map .startData)

/-- `validate_prctl_map`. The order of the heap and the data is that of the 64 bits. -/
def validatePrctlMap (n : ℕ) (layout : MmLayout w) (answers : MmAnswers w)
    (prctlMap : PrctlMmMap) : Except Errno Unit := do
  require (∀ field ∈ MmField.offsets, layout.Contains (prctlMap.words field)) .einval
  require (prctlMap.words : MmMap w).Ordered .einval
  require (prctlMap.map .endData < prctlMap.map .startBrk ∧
    prctlMap.map .endData < prctlMap.map .brk) .einval
  require (layout.acceptsData answers.dataLimit prctlMap.words) .einval
  require (prctlMap.auxvSize ≠ 0 → prctlMap.auxv.isSome ∧ prctlMap.auxvSize.toNat ≤ n) .einval
  require (prctlMap.exeFd ≠ noFd → answers.nsCapable) .einval

/-- `prctl_set_mm_exe_file`: the file that it sets. The old file must not be mapped any more. -/
def prctlSetMmExeFile (answers : MmAnswers w) (exeFile : Option OpenFile) (fd : UInt32) :
    Except Errno OpenFile :=
  match answers.file fd with
  | none => .error .ebadf
  | some exe => do
    require (exe.regular ∧ ¬ exe.noexec) .eacces
    hookAccepts answers.mayExec
    require (∀ old ∈ exeFile, some old.path ∉ answers.mapped) .ebusy
    return exe

/-- Bytes for `saved_auxv`, the last two words of which are zero. -/
def sealAuxv (w : ℕ) (bytes : Fin n → UInt8) : Fin n → UInt8 :=
  fun i ↦ if n - 2 * (w / 8) ≤ i then 0 else bytes i

/-! ### The calls -/

/-- The auxiliary vector that a `struct prctl_mm_map` asks for; the bytes that it does not give are
zero. -/
def PrctlMmMap.newAuxv (prctlMap : PrctlMmMap) (w : ℕ) (savedAuxv : Fin n → UInt8) :
    Except Errno (Fin n → UInt8) :=
  if prctlMap.auxvSize = 0 then .ok savedAuxv
  else do
    let bytes := prctlMap.auxv.getD []
    require (prctlMap.auxvSize.toNat ≤ bytes.length) .efault
    return sealAuxv w fun i ↦ if i < prctlMap.auxvSize.toNat then bytes.getD i 0 else 0

/-- The file that a `struct prctl_mm_map` asks for. -/
def PrctlMmMap.newExeFile (prctlMap : PrctlMmMap) (answers : MmAnswers w)
    (exeFile : Option OpenFile) : Except Errno (Option OpenFile) :=
  if prctlMap.exeFd = noFd then .ok exeFile
  else (prctlSetMmExeFile answers exeFile prctlMap.exeFd).map some

/-- `prctl_set_mm_map` for `PR_SET_MM_MAP`. -/
def setWholeMap (layout : MmLayout w) (answers : MmAnswers w) (mm : Mm w n) (dataSize : BitVec w) :
    Except Errno (Mm w n) := do
  require (dataSize.toNat = layout.mapSize) .einval
  match answers.request with
  | none => .error .efault
  | some prctlMap => do
    validatePrctlMap n layout answers prctlMap
    let savedAuxv ← prctlMap.newAuxv w mm.savedAuxv
    let exeFile ← prctlMap.newExeFile answers mm.exeFile
    return { map := prctlMap.words, savedAuxv, exeFile }

/-- `prctl_set_mm_map`: what it writes for the caller, and the `mm_struct` after it. -/
def prctlSetMmMap (layout : MmLayout w) (answers : MmAnswers w) (mm : Mm w n) (opt : MmOption)
    (dataSize : BitVec w) : Except Errno (Option ℕ × Mm w n) :=
  if opt = .mapSize then do
    require answers.putUser .efault
    return (some layout.mapSize, mm)
  else do
    let next ← setWholeMap layout answers mm dataSize
    return (none, next)

/-- `prctl_set_auxv`: it writes the first bytes of `saved_auxv`, as many as the caller gives. -/
def prctlSetAuxv (answers : MmAnswers w) (mm : Mm w n) (len : BitVec w) :
    Except Errno (Mm w n) := do
  require (len.toNat ≤ n) .einval
  require (len.toNat ≤ answers.bytes.length) .efault
  let userAuxv := sealAuxv w fun i : Fin n ↦ answers.bytes.getD i 0
  return { mm with savedAuxv := fun i ↦ if i < len.toNat then userAuxv i else mm.savedAuxv i }

/-- The `struct prctl_mm_map` with the fields that the `mm_struct` has, but for one. -/
def Mm.withField (mm : Mm w n) (field : MmField) (addr : BitVec w) : PrctlMmMap where
  map := Function.update (fun field ↦ (mm.map field).setWidth 64) field (addr.setWidth 64)
  auxv := none
  auxvSize := 0
  exeFd := noFd

/-- The rest of `prctl_set_mm` for one field. -/
def setField (layout : MmLayout w) (answers : MmAnswers w) (mm : Mm w n) (field : MmField)
    (addr : BitVec w) : Except Errno (Mm w n) := do
  validatePrctlMap n layout answers (mm.withField field addr)
  require (field.needsMapping → answers.vma) .efault
  return { mm with map := (mm.withField field addr).words }

/-- `prctl_set_mm`: what it writes for the caller, and the `mm_struct` after it. -/
def prctlSetMm (layout : MmLayout w) (answers : MmAnswers w) (mm : Mm w n) (opt : MmOption)
    (addr arg4 arg5 : BitVec w) : Except Errno (Option ℕ × Mm w n) := do
  require (arg5 = 0 ∧ (arg4 ≠ 0 → opt = .auxv ∨ opt = .map ∨ opt = .mapSize)) .einval
  if layout.checkpointRestore ∧ (opt = .map ∨ opt = .mapSize) then
    prctlSetMmMap layout answers mm opt arg4
  else do
    require answers.capable .eperm
    match opt with
    | .exeFile => do
      let exe ← prctlSetMmExeFile answers mm.exeFile (UInt32.ofNat addr.toNat)
      return (none, { mm with exeFile := some exe })
    | .auxv => do
      let next ← prctlSetAuxv answers mm arg4
      return (none, next)
    | .field field => do
      require (layout.Contains addr) .einval
      let next ← setField layout answers mm field addr
      return (none, next)
    | .map | .mapSize | .other => .error .einval

/-! ### The transition system -/

/-- A call with what it finds. -/
structure MmEvent (w : ℕ) where
  opt : MmOption
  addr : BitVec w
  arg4 : BitVec w
  arg5 : BitVec w
  answers : MmAnswers w

/-- The `mm_struct` after a call. -/
def Mm.after (layout : MmLayout w) (mm : Mm w n) (event : MmEvent w) : Mm w n :=
  match prctlSetMm layout event.answers mm event.opt event.addr event.arg4 event.arg5 with
  | .ok (_, next) => next
  | .error _ => mm

/-- A task that makes calls, from its first `mm_struct` on. -/
def memoryMap (layout : MmLayout w) (first : Mm w n) : System (Mm w n) (MmEvent w) where
  initial := first
  step mm event := some (mm.after layout event)

/-- A call without either of the capabilities. -/
def MmEvent.Incapable (event : MmEvent w) : Prop :=
  event.answers.capable = false ∧ event.answers.nsCapable = false

end Apes.Kernel
