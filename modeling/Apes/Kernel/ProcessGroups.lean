import Apes.Kernel.Limits
import Mathlib.Logic.Function.Basic

/-!
# Process groups and sessions, `sys.c`

Every process belongs to a process group and to a session, both numbered by pids. `setpgid` moves a
process to another group of its session, or to the group that has the pid of the process for its
number; a process may move itself, and its children until they have called `exec`. `setsid` makes
the caller the leader of a new session and of a new group, both with its own pid.

`GroupState` has the processes by the pids of their leading threads, the other threads, and for
every number the tasks that are attached to it as members of the group and of the session with that
number, the newest first, as `attach_pid` keeps them. `processGroups` is the transition system of
the two calls and of what else happens to processes: `fork`, new threads, `exec`, the exit of a
process, whose children get another parent, and its release. The numbers are those of one pid
namespace; a number is free for a new task when nothing is attached to it.
-/

set_option autoImplicit false
set_option relaxedAutoImplicit false

namespace Apes.Kernel

open Library

/-- What the kernel knows of a process: the process of its `real_parent`, its group, its session,
`signal->leader` and the flag `PF_FORKNOEXEC` of its leading thread. -/
structure Process where
  realParent : ℤ
  pgrp : ℤ
  session : ℤ
  leader : Bool
  forkNoExec : Bool
  deriving DecidableEq, Repr

/-- The processes by the pids of their leading threads, the processes of the other threads, and the
tasks attached to each number as `PIDTYPE_PGID` and as `PIDTYPE_SID`. -/
structure GroupState where
  process : ℤ → Option Process
  thread : ℤ → Option ℤ
  groupTasks : ℤ → List ℤ
  sessionTasks : ℤ → List ℤ

/-! ### Attaching to groups and sessions -/

/-- The lists of attached tasks after `change_pid` of a task from one number to another. -/
def changePid (tasks : ℤ → List ℤ) (pid former new : ℤ) : ℤ → List ℤ :=
  let detached := Function.update tasks former ((tasks former).filter (· ≠ pid))
  Function.update detached new (pid :: detached new)

/-- A process changes its group. -/
def GroupState.changePgrp (state : GroupState) (pid : ℤ) (p : Process) (pgrp : ℤ) : GroupState :=
  if p.pgrp = pgrp then state
  else { state with
    process := Function.update state.process pid (some { p with pgrp })
    groupTasks := changePid state.groupTasks pid p.pgrp pgrp }

/-- A process changes its session. -/
def GroupState.changeSession (state : GroupState) (pid : ℤ) (p : Process) (session : ℤ) :
    GroupState :=
  if p.session = session then state
  else { state with
    process := Function.update state.process pid (some { p with session })
    sessionTasks := changePid state.sessionTasks pid p.session session }

/-! ### The calls -/

/-- `find_task_by_vpid`, for a leading thread; another thread is no process to move. -/
def GroupState.findLeader (state : GroupState) (pid : ℤ) : Except Errno Process :=
  match state.process pid with
  | some p => .ok p
  | none => .error (if (state.thread pid).isSome then .einval else .esrch)

/-- The newest task of a group is in a session. -/
def GroupState.groupIsIn (state : GroupState) (pgrp session : ℤ) : Bool :=
  match (state.groupTasks pgrp).head? with
  | none => false
  | some g => (state.process g).any fun member ↦ member.session = session

/-- The checks of `setpgid` on behalf of a process `caller`, and the process that is to be moved. -/
def checkSetpgid (hook : Option Errno) (state : GroupState) (caller : ℤ) (groupLeader : Process)
    (pid pgid : ℤ) : Except Errno Process := do
  require (0 ≤ pgid) .einval
  let p ← state.findLeader pid
  require (p.realParent = caller → p.session = groupLeader.session) .eperm
  require (p.realParent = caller → p.forkNoExec) .eacces
  require (p.realParent ≠ caller → pid = caller) .esrch
  require (¬ p.leader) .eperm
  require (pgid ≠ pid → state.groupIsIn pgid groupLeader.session) .eperm
  hookAccepts hook
  return p

/-- `setpgid`: an argument zero stands for the caller, or for the process that is moved. -/
def setpgid (hook : Option Errno) (state : GroupState) (caller : ℤ) (groupLeader : Process)
    (pid pgid : ℤ) : Except Errno Unit × GroupState :=
  let pid := if pid = 0 then caller else pid
  let pgid := if pgid = 0 then pid else pgid
  match checkSetpgid hook state caller groupLeader pid pgid with
  | .error errno => (.error errno, state)
  | .ok p => (.ok (), state.changePgrp pid p pgid)

/-- `set_special_pids`. -/
def GroupState.setSpecialPids (state : GroupState) (curr : ℤ) (p : Process) : GroupState :=
  (state.changeSession curr p curr).changePgrp curr { p with session := curr } curr

/-- `setsid` of a process `caller`. -/
def setsid (state : GroupState) (caller : ℤ) (groupLeader : Process) :
    Except Errno ℤ × GroupState :=
  if groupLeader.leader ∨ state.groupTasks caller ≠ [] then (.error .eperm, state)
  else
    (.ok caller,
      GroupState.setSpecialPids
        { state with process :=
            Function.update state.process caller (some { groupLeader with leader := true }) }
        caller { groupLeader with leader := true })

/-- The process of a task. -/
def GroupState.processOf (state : GroupState) (pid : ℤ) : Option Process :=
  match state.process pid with
  | some p => some p
  | none => (state.thread pid).bind state.process

/-- `getpgid` and `getsid` on behalf of a process: what a number of the process of a task is, when
the security hook allows it. -/
def getNumber (number : Process → ℤ) (hook : Option Errno) (state : GroupState) (current : Process)
    (pid : ℤ) : Except Errno ℤ :=
  if pid = 0 then .ok (number current)
  else
    match state.processOf pid with
    | none => .error .esrch
    | some p => (hookAccepts hook).map fun _ ↦ number p

def getpgid : Option Errno → GroupState → Process → ℤ → Except Errno ℤ := getNumber Process.pgrp

def getsid : Option Errno → GroupState → Process → ℤ → Except Errno ℤ := getNumber Process.session

def getpgrp (state : GroupState) (current : Process) : Except Errno ℤ :=
  getpgid none state current 0

/-! ### The transition system -/

/-- A call of a process; and what else happens to processes. A fork makes the forking process or its
parent the parent of the child. A process that exits leaves its children to another process. -/
inductive GroupEvent
  | setpgid (caller pid pgid : ℤ) (hook : Option Errno)
  | setsid (caller : ℤ)
  | fork (forking child : ℤ) (cloneParent : Bool)
  | clone (process tid : ℤ)
  | exec (process : ℤ)
  | exit (process reaper : ℤ)
  | release (process : ℤ)
  deriving DecidableEq, Repr

/-- A number is free for a new task. -/
def GroupState.Free (state : GroupState) (pid : ℤ) : Prop :=
  0 < pid ∧ state.process pid = none ∧ state.thread pid = none ∧ state.groupTasks pid = [] ∧
    state.sessionTasks pid = []

instance (state : GroupState) (pid : ℤ) : Decidable (state.Free pid) :=
  inferInstanceAs (Decidable (_ ∧ _ ∧ _ ∧ _ ∧ _))

/-- The child of a fork: it is in the group and in the session of the forking process. -/
def Process.child (forking : ℤ) (p : Process) (cloneParent : Bool) : Process where
  realParent := if cloneParent then p.realParent else forking
  pgrp := p.pgrp
  session := p.session
  leader := false
  forkNoExec := true

/-- A new process is attached to its group and to its session. -/
def GroupState.attach (state : GroupState) (pid : ℤ) (p : Process) : GroupState :=
  { state with
    process := Function.update state.process pid (some p)
    groupTasks := Function.update state.groupTasks p.pgrp (pid :: state.groupTasks p.pgrp)
    sessionTasks := Function.update state.sessionTasks p.session
      (pid :: state.sessionTasks p.session) }

/-- A process is released: it is detached from its group and from its session. -/
def GroupState.detach (state : GroupState) (pid : ℤ) : GroupState where
  process := Function.update state.process pid none
  thread tid := (state.thread tid).filter (· ≠ pid)
  groupTasks pgrp := (state.groupTasks pgrp).filter (· ≠ pid)
  sessionTasks session := (state.sessionTasks session).filter (· ≠ pid)

/-- One event. -/
def GroupState.step (state : GroupState) : GroupEvent → Option GroupState
  | .setpgid caller pid pgid hook =>
    (state.process caller).map fun groupLeader ↦
      (Kernel.setpgid hook state caller groupLeader pid pgid).2
  | .setsid caller =>
    (state.process caller).map fun groupLeader ↦ (Kernel.setsid state caller groupLeader).2
  | .fork forking child cloneParent =>
    if state.Free child then
      (state.process forking).map fun p ↦ state.attach child (p.child forking cloneParent)
    else none
  | .clone process tid =>
    if state.Free tid ∧ (state.process process).isSome then
      some { state with thread := Function.update state.thread tid (some process) }
    else none
  | .exec process =>
    (state.process process).map fun p ↦ { state with
      process := Function.update state.process process (some { p with forkNoExec := false })
      thread := fun tid ↦ (state.thread tid).filter (· ≠ process) }
  | .exit process reaper =>
    if (state.process process).isSome then
      some { state with process := fun pid ↦ (state.process pid).map fun p ↦
        if p.realParent = process then { p with realParent := reaper } else p }
    else none
  | .release process =>
    if (state.process process).isSome then some (state.detach process) else none

/-- The first process, in the group and the session of the idle task, which have the number zero. -/
def initProcess : GroupState where
  process pid := if pid = 1 then some ⟨0, 0, 0, false, true⟩ else none
  thread _ := none
  groupTasks pgrp := if pgrp = 0 then [1] else []
  sessionTasks session := if session = 0 then [1] else []

/-- The processes from the first one on. -/
def processGroups : System GroupState GroupEvent where
  initial := initProcess
  step := GroupState.step

end Apes.Kernel
