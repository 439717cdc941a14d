import Mathlib.Data.Int.Notation
import Mathlib.Tactic.Common

/-!
# The failure paths of `get_shared_memory`

`get_shared_memory` creates the segment or opens the existing one, opens the two semaphores, and
maps the segment. The calls signal failure in different ways: `shm_open` returns `-1` and sets
`errno`, `ftruncate` a negative number, `sem_open` `SEM_FAILED`, and `mmap` `MAP_FAILED`. `Calls`
are the results of the calls in one run, and `getSharedMemory` is the function with what it prints,
ending in an `exit` or in a return to `main`.

The function takes a descriptor for a success when it is positive, so the descriptor zero passes
both branches and leaves the semaphores `NULL`; it prints that a `sem_open` has failed and goes on;
and it compares the result of `mmap` with `NULL`. `returnsUsable_iff` is the condition under which
what it returns can be used.
-/

set_option autoImplicit false
set_option relaxedAutoImplicit false

namespace Apes.SharedMemory.Setup

/-! ### The calls -/

/-- The result of `shm_open`: a descriptor, or `-1` with an `errno`. -/
inductive ShmOpen
  | descriptor (number : ℕ)
  | failed (errno : ℕ)
  deriving DecidableEq

/-- `EEXIST`. -/
def EEXIST : ℕ := 17

/-- What `shm_open` returns. -/
def ShmOpen.value : ShmOpen → ℤ
  | .descriptor number => number
  | .failed _ => -1

/-- The results of the calls: `shm_open` with `O_CREAT` and without, `ftruncate`, the two
`sem_open`s, `none` being `SEM_FAILED`, and `mmap`, `none` being `MAP_FAILED`. -/
structure Calls where
  create : ShmOpen
  reopen : ShmOpen
  ftruncate : ℤ
  semRead : Option ℕ
  semWrite : Option ℕ
  mmap : Option ℕ

/-- A pointer: `NULL`, the value by which a call signals its failure, or an address. -/
inductive Pointer
  | null
  | failed
  | valid (address : ℕ)
  deriving DecidableEq

/-- The pointer that a call returns. -/
def Pointer.ofCall : Option ℕ → Pointer
  | none => .failed
  | some address => .valid address

/-- The globals of the program, `shm_fd`, `shm_read` and `shm_write`, and what has been printed. -/
structure Globals where
  shmFd : ℤ
  shmRead : Pointer
  shmWrite : Pointer
  printed : List String

/-- How `get_shared_memory` ends: with an `exit`, or by returning a pointer to `main`. -/
inductive Ending
  | exit (status : ℤ) (globals : Globals)
  | returns (shmP : Pointer) (globals : Globals)

/-! ### The function -/

/-- `printf` and `perror`. -/
def print (message : String) (globals : Globals) : Globals :=
  { globals with printed := globals.printed ++ [message] }

/-- The two calls of `sem_open` with their check. -/
def openSemaphores (calls : Calls) (globals : Globals) : Globals :=
  let globals := { globals with
    shmRead := .ofCall calls.semRead
    shmWrite := .ofCall calls.semWrite }
  if globals.shmRead = .failed ∨ globals.shmWrite = .failed then
    print "sem_open failed\n" globals
  else globals

/-- The part after the two branches: the check of `shm_fd` and the mapping. -/
def mapSegment (calls : Calls) (globals : Globals) : Ending :=
  if globals.shmFd = -1 then .exit 1 (print "shm_open /shared_mem" globals)
  else
    let shmP := Pointer.ofCall calls.mmap
    if shmP = .null then .exit 1 (print "mmap" globals)
    else .returns shmP globals

/-- `get_shared_memory`. -/
def getSharedMemory (calls : Calls) : Ending :=
  let globals : Globals := ⟨calls.create.value, .null, .null, []⟩
  if globals.shmFd > 0 then
    let globals := print "Creating shared memory and setting size=65536\n" globals
    if calls.ftruncate < 0 then .exit 1 (print "ftruncate" globals)
    else mapSegment calls (openSemaphores calls globals)
  else if globals.shmFd = -1 ∧ calls.create = .failed EEXIST then
    mapSegment calls (openSemaphores calls { globals with shmFd := calls.reopen.value })
  else mapSegment calls globals

/-! ### What is usable -/

/-- A pointer to something. -/
def Pointer.IsValid (pointer : Pointer) : Prop := ∃ address, pointer = .valid address

/-- Everything that `main` uses afterwards is there: the descriptor, the semaphores and the
mapping. -/
structure Usable (shmP : Pointer) (globals : Globals) : Prop where
  descriptor : 0 ≤ globals.shmFd
  shmRead : globals.shmRead.IsValid
  shmWrite : globals.shmWrite.IsValid
  mapping : shmP.IsValid

/-- The function returns to `main` only with everything usable, and exits otherwise. -/
def ReturnsUsable (calls : Calls) : Prop :=
  ∀ shmP globals, getSharedMemory calls = .returns shmP globals → Usable shmP globals

/-- A branch of the function opens the segment: it is created under a positive descriptor and
expanded, or it exists and is opened. -/
def Opens (calls : Calls) : Prop :=
  ((∃ number, calls.create = .descriptor (number + 1)) ∧ 0 ≤ calls.ftruncate) ∨
    (calls.create = .failed EEXIST ∧ ∃ number, calls.reopen = .descriptor number)

theorem isValid_ofCall_iff (call : Option ℕ) :
    (Pointer.ofCall call).IsValid ↔ call.isSome = true := by
  constructor
  · intro hvalid
    obtain ⟨address, hsame⟩ := hvalid
    cases call with
    | none => cases hsame
    | some value => rfl
  · intro hsome
    obtain ⟨address, rfl⟩ := Option.isSome_iff_exists.mp hsome
    exact ⟨address, rfl⟩

/-- What a call returns is not `NULL`. -/
theorem ofCall_ne_null (call : Option ℕ) : Pointer.ofCall call ≠ .null := by
  cases call with
  | none => exact Pointer.noConfusion
  | some address => exact Pointer.noConfusion

section Paths

variable {calls : Calls}

/-- The part after the branches exits without a descriptor. -/
theorem mapSegment_exit {globals : Globals} (hfd : globals.shmFd = -1) :
    mapSegment calls globals = .exit 1 (print "shm_open /shared_mem" globals) :=
  if_pos hfd

/-- The part after the branches returns with a descriptor, whatever `mmap` has returned. -/
theorem mapSegment_returns {globals : Globals} (hfd : globals.shmFd ≠ -1) :
    mapSegment calls globals = .returns (.ofCall calls.mmap) globals := by
  rw [mapSegment, if_neg hfd]
  exact if_neg (ofCall_ne_null calls.mmap)

/-- Opening the semaphores sets their two pointers, and prints at most. -/
theorem openSemaphores_spec (calls : Calls) (globals : Globals) :
    (openSemaphores calls globals).shmFd = globals.shmFd ∧
      (openSemaphores calls globals).shmRead = .ofCall calls.semRead ∧
      (openSemaphores calls globals).shmWrite = .ofCall calls.semWrite := by
  unfold openSemaphores
  dsimp only
  split_ifs
  · exact ⟨rfl, rfl, rfl⟩
  · exact ⟨rfl, rfl, rfl⟩

/-- With a descriptor the part after the branches returns, whether the semaphores have been opened
or not. -/
theorem mapSegment_openSemaphores {globals : Globals} (hfd : 0 ≤ globals.shmFd) :
    mapSegment calls (openSemaphores calls globals) =
      .returns (.ofCall calls.mmap) (openSemaphores calls globals) := by
  apply mapSegment_returns
  rw [(openSemaphores_spec calls globals).1]
  omega

/-- After the semaphores have been opened and with a descriptor, what is returned is usable exactly
when the three pointers are. -/
theorem usable_openSemaphores_iff {globals : Globals} (hfd : 0 ≤ globals.shmFd) :
    Usable (.ofCall calls.mmap) (openSemaphores calls globals) ↔
      calls.semRead.isSome = true ∧ calls.semWrite.isSome = true ∧ calls.mmap.isSome = true := by
  obtain ⟨hdescriptor, hread, hwrite⟩ := openSemaphores_spec calls globals
  rw [← isValid_ofCall_iff, ← isValid_ofCall_iff, ← isValid_ofCall_iff, ← hread, ← hwrite]
  constructor
  · exact fun husable ↦ ⟨husable.shmRead, husable.shmWrite, husable.mapping⟩
  · exact fun hvalid ↦ ⟨hdescriptor.symm ▸ hfd, hvalid.1, hvalid.2.1, hvalid.2.2⟩

/-- The run in which the segment is created under a positive descriptor. -/
theorem getSharedMemory_created {number : ℕ} (hcreate : calls.create = .descriptor (number + 1))
    (htruncate : 0 ≤ calls.ftruncate) :
    ∃ globals, 0 ≤ globals.shmFd ∧
      getSharedMemory calls = .returns (.ofCall calls.mmap) (openSemaphores calls globals) := by
  let globals : Globals :=
    ⟨((number + 1 : ℕ) : ℤ), .null, .null, ["Creating shared memory and setting size=65536\n"]⟩
  have hfd : 0 ≤ globals.shmFd := Int.natCast_nonneg _
  refine ⟨globals, hfd, ?_⟩
  have hpositive : ((number + 1 : ℕ) : ℤ) > 0 := by omega
  simp only [getSharedMemory, hcreate, ShmOpen.value, if_pos hpositive,
    if_neg (Int.not_lt.mpr htruncate)]
  exact mapSegment_openSemaphores hfd

/-- The run in which the segment is created under the descriptor zero: neither branch is taken. -/
theorem getSharedMemory_zero (hcreate : calls.create = .descriptor 0) :
    getSharedMemory calls = .returns (.ofCall calls.mmap) ⟨0, .null, .null, []⟩ := by
  have hfd : (⟨0, .null, .null, []⟩ : Globals).shmFd ≠ -1 := by decide
  simp only [getSharedMemory, hcreate, ShmOpen.value]
  exact mapSegment_returns hfd

/-- The run in which the segment exists and is opened. -/
theorem getSharedMemory_reopened {number : ℕ} (hcreate : calls.create = .failed EEXIST)
    (hreopen : calls.reopen = .descriptor number) :
    ∃ globals, 0 ≤ globals.shmFd ∧
      getSharedMemory calls = .returns (.ofCall calls.mmap) (openSemaphores calls globals) := by
  let globals : Globals := ⟨(number : ℤ), .null, .null, []⟩
  have hfd : 0 ≤ globals.shmFd := Int.natCast_nonneg _
  refine ⟨globals, hfd, ?_⟩
  simp only [getSharedMemory, hcreate, hreopen, ShmOpen.value]
  exact mapSegment_openSemaphores hfd

/-- A run in which the segment is not opened, and whose descriptor is not zero, exits. -/
theorem getSharedMemory_exits (hzero : calls.create ≠ .descriptor 0) (hopens : ¬ Opens calls) :
    ∃ globals, getSharedMemory calls = .exit 1 globals := by
  rw [Opens, not_or] at hopens
  match hcreate : calls.create with
  | .descriptor 0 => exact absurd hcreate hzero
  | .descriptor (number + 1) =>
    have htruncate : calls.ftruncate < 0 := by
      by_contra hsucceeds
      exact hopens.1 ⟨⟨number, hcreate⟩, Int.not_lt.mp hsucceeds⟩
    have hpositive : ((number + 1 : ℕ) : ℤ) > 0 := by omega
    simp only [getSharedMemory, hcreate, ShmOpen.value, if_pos hpositive, if_pos htruncate]
    exact ⟨_, rfl⟩
  | .failed errno =>
    have hnegative : ¬ (-1 : ℤ) > 0 := by decide
    by_cases hexists : errno = EEXIST
    · subst hexists
      match hreopen : calls.reopen with
      | .descriptor number => exact absurd ⟨hcreate, number, hreopen⟩ hopens.2
      | .failed errno =>
        let globals : Globals := ⟨-1, .null, .null, []⟩
        refine ⟨print "shm_open /shared_mem" (openSemaphores calls globals), ?_⟩
        simp only [getSharedMemory, hcreate, hreopen, ShmOpen.value, if_neg hnegative, and_self,
          if_true]
        exact mapSegment_exit (openSemaphores_spec calls globals).1
    · have hother : ShmOpen.failed errno ≠ .failed EEXIST := fun hsame ↦
        hexists (ShmOpen.failed.inj hsame)
      let globals : Globals := ⟨-1, .null, .null, []⟩
      refine ⟨print "shm_open /shared_mem" globals, ?_⟩
      simp only [getSharedMemory, hcreate, ShmOpen.value, if_neg hnegative, hother, and_false,
        if_false]
      exact mapSegment_exit (rfl : globals.shmFd = -1)

end Paths

/-- **What is returned is usable exactly when no failure is missed.** For every combination of
results of the calls: the segment is not created under the descriptor zero, and whenever a branch
opens it, both `sem_open`s and `mmap` succeed. -/
theorem returnsUsable_iff (calls : Calls) :
    ReturnsUsable calls ↔
      calls.create ≠ .descriptor 0 ∧
        (Opens calls → calls.semRead.isSome = true ∧ calls.semWrite.isSome = true ∧
          calls.mmap.isSome = true) := by
  have hopened : Opens calls → ∃ globals, 0 ≤ globals.shmFd ∧
      getSharedMemory calls = .returns (.ofCall calls.mmap) (openSemaphores calls globals) := by
    intro hopens
    obtain ⟨⟨number, hcreate⟩, htruncate⟩ | ⟨hcreate, number, hreopen⟩ := hopens
    · exact getSharedMemory_created hcreate htruncate
    · exact getSharedMemory_reopened hcreate hreopen
  constructor
  · intro husable
    refine ⟨fun hzero ↦ ?_, fun hopens ↦ ?_⟩
    · obtain ⟨address, hnull⟩ := (husable _ _ (getSharedMemory_zero hzero)).shmRead
      cases hnull
    · obtain ⟨globals, hfd, hreturns⟩ := hopened hopens
      exact (usable_openSemaphores_iff hfd).mp (husable _ _ hreturns)
  · intro hcondition shmP globals hreturns
    by_cases hopens : Opens calls
    · obtain ⟨opened, hfd, hopened⟩ := hopened hopens
      rw [hopened, Ending.returns.injEq] at hreturns
      rw [← hreturns.1, ← hreturns.2]
      exact (usable_openSemaphores_iff hfd).mpr (hcondition.2 hopens)
    · obtain ⟨exited, hexit⟩ := getSharedMemory_exits hcondition.1 hopens
      rw [hexit] at hreturns
      cases hreturns

/-- **Failures are missed.** A failed `sem_open`, a failed `mmap`, and a segment created under the
descriptor zero, each with everything else in order. -/
theorem failures_missed :
    ¬ ReturnsUsable ⟨.descriptor 3, .failed EEXIST, 0, none, some 8, some 4096⟩ ∧
      ¬ ReturnsUsable ⟨.descriptor 3, .failed EEXIST, 0, some 16, some 8, none⟩ ∧
      ¬ ReturnsUsable ⟨.descriptor 0, .failed EEXIST, 0, some 16, some 8, some 4096⟩ := by
  refine ⟨fun husable ↦ ?_, fun husable ↦ ?_, fun husable ↦ ?_⟩
  · obtain ⟨address, hfailed⟩ := (husable _ _ rfl).shmRead
    cases hfailed
  · obtain ⟨address, hfailed⟩ := (husable _ _ rfl).mapping
    cases hfailed
  · obtain ⟨address, hfailed⟩ := (husable _ _ rfl).shmRead
    cases hfailed

end Apes.SharedMemory.Setup
