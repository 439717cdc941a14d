import Apes.Kernel.Credentials
import Mathlib.Logic.Function.Basic

/-!
# Resource limits, `sys.c`

Every thread group has a soft and a hard limit for each resource, in `signal->rlim`. `do_prlimit`
reads and sets them, and all the system calls go through it but the two `old_getrlimit`:
`prlimit64` for any task and in 64 bits, `setrlimit` and `getrlimit` for the caller and in machine
words, and their compat versions in 32 bits. The interfaces differ in how they write "no limit" and
in what they show of a limit that does not fit, which is what the conversions here say. `w` is
the number of bits of a machine word.

`LimitState` is the table of tasks with the limits of their thread groups, and `resourceLimits` the
transition system in which any task makes any of the calls, and tasks are forked and released and
change their credentials in between. A fork copies the limits.
-/

set_option autoImplicit false
set_option relaxedAutoImplicit false

namespace Apes.Kernel

open Library

/-! ### Limits and their representations -/

/-- `struct rlimit` with fields of `w` bits; with 32 bits it is `struct compat_rlimit`, and with 64
bits `struct rlimit64`. -/
structure RLimit (w : ℕ) where
  rlimCur : BitVec w
  rlimMax : BitVec w
  deriving DecidableEq, Repr

/-- `RLIM_INFINITY`, `RLIM64_INFINITY` and `COMPAT_RLIM_INFINITY`. -/
def rlimInfinity (w : ℕ) : BitVec w := BitVec.allOnes w

/-- `rlim64_is_infinity`. -/
def rlim64IsInfinity (w : ℕ) (rlim64 : BitVec 64) : Bool :=
  if w < 64 then (BitVec.allOnes w).setWidth 64 ≤ rlim64 else rlim64 = rlimInfinity 64

variable {w : ℕ}

/-- A limit with a conversion applied to both of its fields. -/
def RLimit.convert {v : ℕ} (conversion : BitVec v → BitVec w) (rlim : RLimit v) : RLimit w :=
  ⟨conversion rlim.rlimCur, conversion rlim.rlimMax⟩

/-- A field in `rlim_to_rlim64`. -/
def wordTo64 (value : BitVec w) : BitVec 64 :=
  if value = rlimInfinity w then rlimInfinity 64 else value.setWidth 64

/-- A field in `rlim64_to_rlim`. -/
def wordOf64 (value : BitVec 64) : BitVec w :=
  if rlim64IsInfinity w value then rlimInfinity w else value.setWidth w

/-- A field in the compat `setrlimit`. -/
def wordOfCompat (value : BitVec 32) : BitVec w :=
  if value = rlimInfinity 32 then rlimInfinity w else value.setWidth w

/-- A field in the compat `getrlimit`. -/
def wordToCompat (value : BitVec w) : BitVec 32 :=
  if (rlimInfinity 32).toNat < value.toNat then rlimInfinity 32 else value.setWidth 32

/-- A field in `old_getrlimit` and its compat version. -/
def wordToOld (value : BitVec w) : BitVec w :=
  if 0x7FFFFFFF < value.toNat then 0x7FFFFFFF#w else value

/-- `rlim_to_rlim64`. -/
def rlimToRlim64 : RLimit w → RLimit 64 := RLimit.convert wordTo64

/-- `rlim64_to_rlim`. -/
def rlim64ToRlim : RLimit 64 → RLimit w := RLimit.convert wordOf64

/-- What the compat `setrlimit` makes of its argument. -/
def ofCompat : RLimit 32 → RLimit w := RLimit.convert wordOfCompat

/-- What the compat `getrlimit` shows of a limit. -/
def toCompat : RLimit w → RLimit 32 := RLimit.convert wordToCompat

/-- What `old_getrlimit` and its compat version show of a limit. -/
def toOld : RLimit w → RLimit w := RLimit.convert wordToOld

/-! ### The tasks and their limits -/

/-- `RLIMIT_CPU`. -/
def rlimitCpu : ℕ := 0

/-- `RLIMIT_NOFILE`. -/
def rlimitNofile : ℕ := 7

/-- `RLIM_NLIMITS`. -/
def rlimNlimits : ℕ := 16

/-- A task: the number of its `signal_struct`, whether it still has a `sighand_struct`, and its
credentials. -/
structure LimitTask where
  signal : ℕ
  sighand : Bool
  cred : Cred

/-- The tasks by their pids, the limits of each `signal_struct` by the number of the resource, and
the number of the next `signal_struct`. -/
structure LimitState (w : ℕ) where
  task : ℤ → Option LimitTask
  rlim : ℕ → ℕ → RLimit w
  signals : ℕ

/-- What the rest of the kernel answers during a call: whether the copies from and to the caller's
memory succeed, whether the caller has `CAP_SYS_RESOURCE`, at large and in the namespace of the task
that it names, the value of `sysctl_nr_open`, and the errors of the two security hooks. -/
structure LimitAnswers where
  copyFromUser : Bool
  copyToUser : Bool
  capable : Bool
  nsCapable : Bool
  nrOpen : ℕ
  taskPrlimit : Option Errno
  taskSetrlimit : Option Errno

/-- A security hook: its error, if it refuses. -/
def hookAccepts : Option Errno → Except Errno Unit
  | none => .ok ()
  | some errno => .error errno

/-! ### Reading and setting a limit -/

/-- The limit that `do_prlimit` stores: no time at all for `RLIMIT_CPU` becomes one second. -/
def settled (resource : ℕ) (new : RLimit w) : RLimit w :=
  if resource = rlimitCpu ∧ new.rlimCur = 0 then { new with rlimCur := 1 } else new

/-- The checks of `do_prlimit`. -/
def checkPrlimit (answers : LimitAnswers) (rlim : ℕ → RLimit w) (tsk : LimitTask) (resource : ℕ)
    (new : Option (RLimit w)) : Except Errno Unit := do
  require (resource < rlimNlimits) .einval
  require (∀ rlim ∈ new, rlim.rlimCur ≤ rlim.rlimMax) .einval
  require (∀ rlim ∈ new, resource = rlimitNofile → rlim.rlimMax.toNat ≤ answers.nrOpen) .eperm
  require tsk.sighand .esrch
  require (∀ newRlim ∈ new, newRlim.rlimMax ≤ (rlim resource).rlimMax ∨ answers.capable) .eperm
  if new.isSome then hookAccepts answers.taskSetrlimit else .ok ()

/-- The state with a limit of a `signal_struct` set. -/
def LimitState.store (state : LimitState w) (signal resource : ℕ) (new : RLimit w) :
    LimitState w where
  task := state.task
  rlim := Function.update state.rlim signal (Function.update (state.rlim signal) resource new)
  signals := state.signals

/-- `do_prlimit`: the old limit, and the state after the call. -/
def doPrlimit (answers : LimitAnswers) (state : LimitState w) (tsk : LimitTask) (resource : ℕ)
    (new : Option (RLimit w)) : Except Errno (RLimit w) × LimitState w :=
  match checkPrlimit answers (state.rlim tsk.signal) tsk resource new with
  | .error errno => (.error errno, state)
  | .ok () =>
    (.ok (state.rlim tsk.signal resource),
      match new with
      | none => state
      | some new => state.store tsk.signal resource (settled resource new))

/-- The ids of the caller are those of the task. -/
def idMatch (cred tcred : Cred) : Bool :=
  cred.uids.id = tcred.uids.eid ∧ cred.uids.id = tcred.uids.sid ∧ cred.uids.id = tcred.uids.id ∧
    cred.gids.id = tcred.gids.eid ∧ cred.gids.id = tcred.gids.sid ∧ cred.gids.id = tcred.gids.id

/-- `check_prlimit_permission`, for a caller and a task given by their pids. -/
def checkPrlimitPermission (answers : LimitAnswers) (current task : ℤ × LimitTask) :
    Except Errno Unit := do
  if current.1 = task.1 then return
  require (idMatch current.2.cred task.2.cred ∨ answers.nsCapable) .eperm
  hookAccepts answers.taskPrlimit

/-- `copy_to_user` of a result. -/
def copyToUser {Value : Type} (answers : LimitAnswers) (value : Value) : Except Errno Value := do
  require answers.copyToUser .efault
  return value

/-- The task that a call of `prlimit64` names, with its pid. -/
def LimitState.named (state : LimitState w) (current : ℤ × LimitTask) (pid : ℤ) :
    Except Errno (ℤ × LimitTask) :=
  if pid = 0 then .ok current
  else
    match state.task pid with
    | none => .error .esrch
    | some task => .ok (pid, task)

/-- The part of `prlimit64` before `do_prlimit`: the task that it is about. -/
def prlimitTarget (answers : LimitAnswers) (state : LimitState w) (current : ℤ × LimitTask)
    (pid : ℤ) (new : Option (RLimit 64)) : Except Errno LimitTask := do
  require (new.isSome → answers.copyFromUser) .efault
  let target ← state.named current pid
  checkPrlimitPermission answers current target
  return target.2

/-- `prlimit64`: the old limit when it is asked for, and the state after the call. The new limit is
set also when the old one cannot be copied to the caller. -/
def prlimit64 (answers : LimitAnswers) (state : LimitState w) (current : ℤ × LimitTask) (pid : ℤ)
    (resource : ℕ) (new : Option (RLimit 64)) (wantsOld : Bool) :
    Except Errno (Option (RLimit 64)) × LimitState w :=
  match prlimitTarget answers state current pid new with
  | .error errno => (.error errno, state)
  | .ok tsk =>
    (doPrlimit answers state tsk resource (new.map rlim64ToRlim)).map
      (fun reply ↦ do
        let old ← reply
        if wantsOld then return some (← copyToUser answers (rlimToRlim64 old)) else return none)
      id

/-- `setrlimit`. -/
def setrlimit (answers : LimitAnswers) (state : LimitState w) (current : LimitTask) (resource : ℕ)
    (new : RLimit w) : Except Errno Unit × LimitState w :=
  if answers.copyFromUser then
    (doPrlimit answers state current resource (some new)).map (·.map fun _ ↦ ()) id
  else (.error .efault, state)

/-- The compat `setrlimit`. -/
def compatSetrlimit (answers : LimitAnswers) (state : LimitState w) (current : LimitTask)
    (resource : ℕ) (new : RLimit 32) : Except Errno Unit × LimitState w :=
  setrlimit answers state current resource (ofCompat new)

/-- `getrlimit`. -/
def getrlimit (answers : LimitAnswers) (state : LimitState w) (current : LimitTask)
    (resource : ℕ) : Except Errno (RLimit w) := do
  let value ← (doPrlimit answers state current resource none).1
  copyToUser answers value

/-- The compat `getrlimit`. -/
def compatGetrlimit (answers : LimitAnswers) (state : LimitState w) (current : LimitTask)
    (resource : ℕ) : Except Errno (RLimit 32) := do
  let value ← (doPrlimit answers state current resource none).1
  copyToUser answers (toCompat value)

/-- `old_getrlimit` and its compat version, which do not go through `do_prlimit`. -/
def oldGetrlimit (answers : LimitAnswers) (state : LimitState w) (current : LimitTask)
    (resource : ℕ) : Except Errno (RLimit w) := do
  require (resource < rlimNlimits) .einval
  copyToUser answers (toOld (state.rlim current.signal resource))

/-! ### The transition system -/

/-- The calls that may set a limit. -/
inductive LimitCall (w : ℕ)
  | prlimit64 (pid : ℤ) (resource : ℕ) (new : Option (RLimit 64)) (wantsOld : Bool)
  | setrlimit (resource : ℕ) (new : RLimit w)
  | compatSetrlimit (resource : ℕ) (new : RLimit 32)

/-- A call of a task; and what else happens to the tasks: a task forks a process or starts a thread,
loses its `sighand_struct` and then its pid, or gets other credentials. -/
inductive LimitEvent (w : ℕ)
  | call (caller : ℤ) (call : LimitCall w) (answers : LimitAnswers)
  | fork (parent child : ℤ)
  | thread (parent child : ℤ)
  | exit (pid : ℤ)
  | release (pid : ℤ)
  | commitCreds (pid : ℤ) (cred : Cred)

/-- The state after a call. -/
def LimitState.call (state : LimitState w) (caller : ℤ × LimitTask) (answers : LimitAnswers) :
    LimitCall w → LimitState w
  | .prlimit64 pid resource new wantsOld =>
    (prlimit64 answers state caller pid resource new wantsOld).2
  | .setrlimit resource new => (setrlimit answers state caller.2 resource new).2
  | .compatSetrlimit resource new => (compatSetrlimit answers state caller.2 resource new).2

/-- The state with a task put at a pid, or taken from it. -/
def LimitState.put (state : LimitState w) (pid : ℤ) (task : Option LimitTask) : LimitState w where
  task := Function.update state.task pid task
  rlim := state.rlim
  signals := state.signals

/-- A new process: a task with a `signal_struct` of its own, whose limits are copied. -/
def LimitState.fork (state : LimitState w) (parent : LimitTask) (child : ℤ) : LimitState w where
  task := Function.update state.task child
    (some { signal := state.signals, sighand := true, cred := parent.cred })
  rlim := Function.update state.rlim state.signals (state.rlim parent.signal)
  signals := state.signals + 1

/-- One event. A pid is given to a new task only when it is free. -/
def LimitState.step (state : LimitState w) : LimitEvent w → Option (LimitState w)
  | .call caller call answers =>
    (state.task caller).map fun current ↦ state.call (caller, current) answers call
  | .fork parent child =>
    if 0 < child ∧ (state.task child).isNone then
      (state.task parent).map fun current ↦ state.fork current child
    else none
  | .thread parent child =>
    if 0 < child ∧ (state.task child).isNone then
      (state.task parent).map fun current ↦ state.put child (some { current with sighand := true })
    else none
  | .exit pid =>
    (state.task pid).map fun current ↦ state.put pid (some { current with sighand := false })
  | .release pid => some (state.put pid none)
  | .commitCreds pid cred =>
    (state.task pid).map fun current ↦ state.put pid (some { current with cred })

/-- The tasks from a first state on. -/
def resourceLimits (initial : LimitState w) : System (LimitState w) (LimitEvent w) where
  initial
  step := LimitState.step

end Apes.Kernel
