import Apes.Library.Checks
import Apes.Library.TransitionSystem
import Mathlib.Tactic.Common

/-!
# The credentials of a task, `sys.c`

A task has four user ids and four group ids: the real, the effective, the saved and the filesystem
id. `setreuid`, `setuid`, `setresuid` and `setfsuid` change the user ids, and `setregid`, `setgid`,
`setresgid` and `setfsgid` the group ids. Both families take the new ids from the same rules:
`IdMapping.setre`, `IdMapping.set`, `IdMapping.setres` and `IdMapping.setfs` are these rules, over
the mapping of the caller's user namespace for that kind of id.

A change of the user ids goes on with `set_user`, when the real uid changes, and with the security
hook `security_task_fix_setuid`; each may refuse it. What the rest of the kernel answers during a
call stands in `IdAnswers`: any answer is possible at any call. `set_user` records on its way
whether the new user has too many processes, and that note stays when the hook then refuses the
change.

`IdCall` lists the calls, and `credentials` is the transition system in which a task makes any
sequence of them.
-/

set_option autoImplicit false
set_option relaxedAutoImplicit false

namespace Apes.Kernel

open Library

/-- The error codes that a call returns; a security hook may return a code of its own. -/
inductive Errno
  | eperm
  | esrch
  | ebadf
  | eagain
  | enomem
  | eacces
  | efault
  | ebusy
  | einval
  | hook (code : ℕ)
  deriving DecidableEq, Repr

/-! ### Ids and their namespace -/

/-- The ids of one kind of a task: real, effective, saved and filesystem id. -/
structure Ids where
  id : UInt32
  eid : UInt32
  sid : UInt32
  fsid : UInt32
  deriving DecidableEq, Repr

/-- The argument `-1` of a call, which leaves an id as it is. -/
def unchanged : UInt32 := 0xFFFFFFFF

/-- `INVALID_UID` and `INVALID_GID`, what an id without a mapping is mapped to. -/
def invalidId : UInt32 := 0xFFFFFFFF

/-- The mapping of one kind of id in a user namespace: `make_kuid` and `from_kuid_munged`, or
`make_kgid` and `from_kgid_munged`. -/
structure IdMapping where
  make : UInt32 → UInt32
  fromMunged : UInt32 → UInt32

/-- The mappings of a user namespace. -/
structure Namespace where
  uid : IdMapping
  gid : IdMapping

/-- What the rest of the kernel answers during a call: whether `prepare_creds` finds memory, whether
the caller has `CAP_SETUID` or `CAP_SETGID`, the number of processes of the new user when
`alloc_uid` succeeds, the limit `RLIMIT_NPROC`, and the error of `security_task_fix_setuid`. -/
structure IdAnswers where
  prepared : Bool
  capable : Bool
  newUser : Option ℕ
  nprocLimit : ℕ
  fixSetuid : Option Errno
  deriving DecidableEq, Repr

/-- The id that an argument asks for, none when it asks for no change. -/
def IdMapping.wanted (mapping : IdMapping) (id : UInt32) : Option UInt32 :=
  if id = unchanged then none else some (mapping.make id)

/-- The check of an argument: an id to change to is a valid one. -/
def IdMapping.checkArgument (mapping : IdMapping) (id : UInt32) : Except Errno Unit :=
  require (id ≠ unchanged → mapping.make id ≠ invalidId) .einval

/-- `prepare_creds`. -/
def prepareCreds (answers : IdAnswers) : Except Errno Unit :=
  require answers.prepared .enomem

/-! ### The rules for a change of ids -/

/-- An id is the real, the effective or the saved one. -/
def Ids.Held (ids : Ids) (kid : UInt32) : Prop := kid = ids.id ∨ kid = ids.eid ∨ kid = ids.sid

instance (ids : Ids) (kid : UInt32) : Decidable (ids.Held kid) :=
  inferInstanceAs (Decidable (_ ∨ _ ∨ _))

/-- The rule of `setreuid` and `setregid`: the new real id is the real or the effective one, the new
effective id one of the three, unless the caller is capable. A new real id, or a new effective id
other than the old real one, makes the effective id the saved one. -/
def Ids.setre (old : Ids) (capable : Bool) (rid eid : Option UInt32) : Except Errno Ids := do
  require (∀ krid ∈ rid, old.id = krid ∨ old.eid = krid ∨ capable) .eperm
  require (∀ keid ∈ eid, old.Held keid ∨ capable) .eperm
  return {
    id := rid.getD old.id
    eid := eid.getD old.eid
    sid := if rid.isSome ∨ ∃ keid ∈ eid, keid ≠ old.id then eid.getD old.eid else old.sid
    fsid := eid.getD old.eid }

/-- The rule of `setuid` and `setgid`: all four ids for a capable caller, and else the effective and
the filesystem id, to the real or the saved one. -/
def Ids.set (old : Ids) (capable : Bool) (kid : UInt32) : Except Errno Ids := do
  require (capable ∨ kid = old.id ∨ kid = old.sid) .eperm
  return if capable then ⟨kid, kid, kid, kid⟩ else { old with eid := kid, fsid := kid }

/-- The rule of `setresuid` and `setresgid`: each of the three ids to one of the three, unless the
caller is capable; the filesystem id follows the effective one. -/
def Ids.setres (old : Ids) (capable : Bool) (rid eid sid : Option UInt32) :
    Except Errno Ids := do
  require (capable ∨ ∀ krid ∈ rid, old.Held krid) .eperm
  require (capable ∨ ∀ keid ∈ eid, old.Held keid) .eperm
  require (capable ∨ ∀ ksid ∈ sid, old.Held ksid) .eperm
  return {
    id := rid.getD old.id
    eid := eid.getD old.eid
    sid := sid.getD old.sid
    fsid := eid.getD old.eid }

/-- `setreuid` and `setregid` up to the ids that they set. -/
def IdMapping.setre (mapping : IdMapping) (answers : IdAnswers) (old : Ids) (rid eid : UInt32) :
    Except Errno Ids := do
  mapping.checkArgument rid
  mapping.checkArgument eid
  prepareCreds answers
  old.setre answers.capable (mapping.wanted rid) (mapping.wanted eid)

/-- `setuid` and `setgid` up to the ids that they set; `-1` asks for an id here too. -/
def IdMapping.set (mapping : IdMapping) (answers : IdAnswers) (old : Ids) (id : UInt32) :
    Except Errno Ids := do
  require (mapping.make id ≠ invalidId) .einval
  prepareCreds answers
  old.set answers.capable (mapping.make id)

/-- `setresuid` and `setresgid` up to the ids that they set. -/
def IdMapping.setres (mapping : IdMapping) (answers : IdAnswers) (old : Ids)
    (rid eid sid : UInt32) : Except Errno Ids := do
  mapping.checkArgument rid
  mapping.checkArgument eid
  mapping.checkArgument sid
  prepareCreds answers
  old.setres answers.capable (mapping.wanted rid) (mapping.wanted eid) (mapping.wanted sid)

/-- `setfsuid` and `setfsgid` up to the security hook: the ids to set, none when there is nothing to
change. The new filesystem id is one of the four, unless the caller is capable. -/
def IdMapping.setfs (mapping : IdMapping) (answers : IdAnswers) (old : Ids) (id : UInt32) :
    Option Ids :=
  if mapping.make id ≠ invalidId ∧ answers.prepared ∧
      (old.Held (mapping.make id) ∨ mapping.make id = old.fsid ∨ answers.capable) ∧
      mapping.make id ≠ old.fsid then
    some { old with fsid := mapping.make id }
  else none

/-! ### The task -/

/-- `struct cred`: the ids, and the user that the task is charged to. -/
structure Cred where
  uids : Ids
  gids : Ids
  user : UInt32
  deriving DecidableEq, Repr

/-- A task: its credentials, and the flag `PF_NPROC_EXCEEDED`. -/
structure Task where
  cred : Cred
  nprocExceeded : Bool
  deriving DecidableEq, Repr

/-- The user `INIT_USER`, whose processes are not limited. -/
def initUser : UInt32 := 0

/-- `set_user`: the user to charge, and the flag that it sets or clears. -/
def setUser (answers : IdAnswers) (uid : UInt32) : Except Errno (UInt32 × Bool) :=
  match answers.newUser with
  | none => .error .eagain
  | some processes => .ok (uid, answers.nprocLimit ≤ processes ∧ uid ≠ initUser)

/-- `set_user`, in a call in which the real uid becomes `uid`: it is called when that is a
change. -/
def Task.userFor (task : Task) (answers : IdAnswers) (uid : UInt32) :
    Except Errno (UInt32 × Bool) :=
  if uid = task.cred.uids.id then .ok (task.cred.user, task.nprocExceeded)
  else setUser answers uid

/-- The rest of a call that sets the user ids: `set_user`, the security hook and `commit_creds`. -/
def Task.commitUids (task : Task) (answers : IdAnswers) :
    Except Errno Ids → Except Errno Unit × Task
  | .error errno => (.error errno, task)
  | .ok uids =>
    match task.userFor answers uids.id with
    | .error errno => (.error errno, task)
    | .ok (user, nprocExceeded) =>
      match answers.fixSetuid with
      | some errno => (.error errno, { task with nprocExceeded })
      | none => (.ok (), { cred := { task.cred with uids, user }, nprocExceeded })

/-- The rest of a call that sets the group ids: `commit_creds`. -/
def Task.commitGids (task : Task) : Except Errno Ids → Except Errno Unit × Task
  | .error errno => (.error errno, task)
  | .ok gids => (.ok (), { task with cred := { task.cred with gids } })

/-! ### The calls -/

variable (ns : Namespace) (answers : IdAnswers) (task : Task)

def setreuid (ruid euid : UInt32) : Except Errno Unit × Task :=
  task.commitUids answers (ns.uid.setre answers task.cred.uids ruid euid)

def setuid (uid : UInt32) : Except Errno Unit × Task :=
  task.commitUids answers (ns.uid.set answers task.cred.uids uid)

def setresuid (ruid euid suid : UInt32) : Except Errno Unit × Task :=
  task.commitUids answers (ns.uid.setres answers task.cred.uids ruid euid suid)

def setregid (rgid egid : UInt32) : Except Errno Unit × Task :=
  task.commitGids (ns.gid.setre answers task.cred.gids rgid egid)

def setgid (gid : UInt32) : Except Errno Unit × Task :=
  task.commitGids (ns.gid.set answers task.cred.gids gid)

def setresgid (rgid egid sgid : UInt32) : Except Errno Unit × Task :=
  task.commitGids (ns.gid.setres answers task.cred.gids rgid egid sgid)

/-- `setfsuid` returns the old filesystem uid, whether it has changed it or not. -/
def setfsuid (uid : UInt32) : UInt32 × Task :=
  (ns.uid.fromMunged task.cred.uids.fsid,
    match ns.uid.setfs answers task.cred.uids uid, answers.fixSetuid with
    | some uids, none => { task with cred := { task.cred with uids } }
    | _, _ => task)

/-- `setfsgid` returns the old filesystem gid, whether it has changed it or not. -/
def setfsgid (gid : UInt32) : UInt32 × Task :=
  (ns.gid.fromMunged task.cred.gids.fsid,
    match ns.gid.setfs answers task.cred.gids gid with
    | some gids => { task with cred := { task.cred with gids } }
    | none => task)

/-- The three ids that `getresuid` and `getresgid` store, as far as `put_user` succeeds, and the
error. -/
def IdMapping.getres (mapping : IdMapping) (ids : Ids) (writable : List Bool) :
    Except Errno Unit × List UInt32 :=
  let stored := (([ids.id, ids.eid, ids.sid].map mapping.fromMunged).zip writable).takeWhile
    fun entry ↦ entry.2
  (if stored.length = 3 then .ok () else .error .efault, stored.map Prod.fst)

def getresuid (writable : List Bool) : Except Errno Unit × List UInt32 :=
  ns.uid.getres task.cred.uids writable

def getresgid (writable : List Bool) : Except Errno Unit × List UInt32 :=
  ns.gid.getres task.cred.gids writable

def getuid : UInt32 := ns.uid.fromMunged task.cred.uids.id

def geteuid : UInt32 := ns.uid.fromMunged task.cred.uids.eid

def getgid : UInt32 := ns.gid.fromMunged task.cred.gids.id

def getegid : UInt32 := ns.gid.fromMunged task.cred.gids.eid

/-! ### The transition system -/

/-- The calls that set ids. -/
inductive IdCall
  | setreuid (ruid euid : UInt32)
  | setuid (uid : UInt32)
  | setresuid (ruid euid suid : UInt32)
  | setfsuid (uid : UInt32)
  | setregid (rgid egid : UInt32)
  | setgid (gid : UInt32)
  | setresgid (rgid egid sgid : UInt32)
  | setfsgid (gid : UInt32)
  deriving DecidableEq, Repr

/-- What a call returns, and the task after it. -/
def Task.call : IdCall → Except Errno UInt32 × Task
  | .setreuid ruid euid => (setreuid ns answers task ruid euid).map (·.map fun _ ↦ 0) id
  | .setuid uid => (setuid ns answers task uid).map (·.map fun _ ↦ 0) id
  | .setresuid ruid euid suid => (setresuid ns answers task ruid euid suid).map (·.map fun _ ↦ 0) id
  | .setfsuid uid => (setfsuid ns answers task uid).map .ok id
  | .setregid rgid egid => (setregid ns answers task rgid egid).map (·.map fun _ ↦ 0) id
  | .setgid gid => (setgid ns answers task gid).map (·.map fun _ ↦ 0) id
  | .setresgid rgid egid sgid => (setresgid ns answers task rgid egid sgid).map (·.map fun _ ↦ 0) id
  | .setfsgid gid => (setfsgid ns answers task gid).map .ok id

/-- A call with what the rest of the kernel answers during it. -/
structure IdEvent where
  call : IdCall
  answers : IdAnswers
  deriving DecidableEq, Repr

/-- A task that makes calls, from its first credentials on. -/
def credentials : System Task IdEvent where
  initial := task
  step current event := some (current.call ns event.answers event.call).2

/-- A call without the capability. -/
def Unprivileged (_ : Task) (event : IdEvent) : Prop := event.answers.capable = false

instance (state : Task) (event : IdEvent) : Decidable (Unprivileged state event) :=
  inferInstanceAs (Decidable (_ = _))

end Apes.Kernel
