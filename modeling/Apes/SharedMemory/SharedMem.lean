import Apes.Ipc.Exchange
import Apes.Library.TransitionSystem
import Mathlib.Logic.Function.Basic

/-!
# The shared-memory exchange `sharedMem.c`

Parent and child pass messages through the start of one shared segment, guarded by two semaphores:
`shm_write` guards the writes and `shm_read` the reads, and each access posts the other one. The
model takes the semaphore operations and the guarded accesses as the atomic steps. A process is the
list of transfers it still has to do and its place in the first of them, so the same step function
serves both processes and every number of transfers; `parentTransfers` and `childTransfers` are the
sequences of the two branches of `main`.

The segment is a list of bytes. A command is stored in its first byte and a string from its first
byte on, with the terminator; `loaded_stored` says that a message is read back when it is read as
what it is. The log of accesses is kept by the model: `written` and `received` are what a process
has stored and what it has read.

A process that has done its transfers waits for `terminateSignal`, which the handler of `SIGINT`
sets. The call of `sem_wait` is a step of its own: a signal before it, while the process opens or
writes its log or sleeps, runs the handler and the later call waits as it would have, and only a
signal to a process that is in the call, with the semaphore at zero, makes `sem_wait` return without
having decremented the semaphore.
-/

set_option autoImplicit false
set_option relaxedAutoImplicit false

namespace Apes.SharedMemory

open Library Ipc

/-- The two named semaphores. -/
inductive Semaphore
  | shmRead
  | shmWrite
  deriving DecidableEq

/-- The semaphore that guards an access. -/
def waitsOn : Transfer → Semaphore
  | .write _ => .shmWrite
  | .read _ => .shmRead

/-- The semaphore that is posted after an access. -/
def posts : Transfer → Semaphore
  | .write _ => .shmRead
  | .read _ => .shmWrite

/-- Where a process stands: in its own code before the `sem_wait` of its first transfer or behind
its last transfer, in `sem_wait`, between `sem_wait` and the access, between the access and
`sem_post`, or past the end of the program. -/
inductive Stage
  | outside
  | waiting
  | entered
  | accessed
  | exited
  deriving DecidableEq

/-- A process: the transfers that it has not completed, its place in the first of them, and its copy
of `terminateSignal`. -/
structure Process where
  pending : List Transfer
  stage : Stage
  terminateSignal : Bool

/-- An access to the segment that has happened. -/
inductive Access
  | write (party : Party) (message : Message)
  | read (party : Party) (message : Message)
  deriving DecidableEq

/-- `SHM_SEGMENT_SIZE`. -/
def shmSegmentSize : ℕ := 65536

/-- The state of an exchange. -/
structure State where
  semaphore : Semaphore → ℕ
  segment : List UInt8
  process : Party → Process
  log : List Access

/-! ### The segment -/

/-- The segment after a message has been stored in it. -/
def stored : Message → List UInt8 → List UInt8
  | .command byte, segment => byte :: segment.drop 1
  | .text string, segment => string.bytes ++ 0 :: segment.drop (string.bytes.length + 1)

/-- What is read from the segment as a command or as a string. -/
def loaded : Kind → List UInt8 → Message
  | .command, segment => .command (segment.headD 0)
  | .text, segment => .text (.ofBuffer segment)

/-- A message that was stored is read back when it is read as what it is. -/
@[simp] theorem loaded_stored (message : Message) (segment : List UInt8) :
    loaded message.kind (stored message segment) = message := by
  cases message with
  | command byte => rfl
  | text string =>
    change Message.text (.ofBuffer (string.bytes ++ 0 :: _)) = _
    rw [CString.ofBuffer_append_nul]

/-! ### The steps -/

/-- The process calls `sem_wait`. -/
def callSemWait (party : Party) (state : State) : State :=
  { state with
    process := Function.update state.process party { state.process party with stage := .waiting } }

/-- `sem_wait` returns: the semaphore is decremented and the process goes on to its access. -/
def semWait (party : Party) (semaphore : Semaphore) (state : State) : State :=
  { state with
    semaphore := Function.update state.semaphore semaphore (state.semaphore semaphore - 1)
    process := Function.update state.process party
      { state.process party with stage := .entered } }

/-- `sem_post`: the semaphore is incremented and the transfer is complete. -/
def semPost (party : Party) (semaphore : Semaphore) (state : State) : State :=
  { state with
    semaphore := Function.update state.semaphore semaphore (state.semaphore semaphore + 1)
    process := Function.update state.process party
      { state.process party with
        pending := (state.process party).pending.tail
        stage := .outside } }

/-- A guarded write. -/
def writeSegment (party : Party) (message : Message) (state : State) : State :=
  { state with
    segment := stored message state.segment
    process := Function.update state.process party
      { state.process party with stage := .accessed }
    log := state.log ++ [.write party message] }

/-- A guarded read. -/
def readSegment (party : Party) (kind : Kind) (state : State) : State :=
  { state with
    process := Function.update state.process party
      { state.process party with stage := .accessed }
    log := state.log ++ [.read party (loaded kind state.segment)] }

/-- The process leaves the loop on `terminateSignal` and exits. -/
def exit (party : Party) (state : State) : State :=
  { state with
    process := Function.update state.process party { state.process party with stage := .exited } }

/-- One step of a process. -/
def move (party : Party) (state : State) : Option State :=
  match (state.process party).stage, (state.process party).pending with
  | .outside, [] => if (state.process party).terminateSignal then some (exit party state) else none
  | .outside, _ :: _ => some (callSemWait party state)
  | .waiting, transfer :: _ =>
    if state.semaphore (waitsOn transfer) = 0 then none
    else some (semWait party (waitsOn transfer) state)
  | .entered, .write message :: _ => some (writeSegment party message state)
  | .entered, .read kind :: _ => some (readSegment party kind state)
  | .accessed, transfer :: _ => some (semPost party (posts transfer) state)
  | _, _ => none

/-- The process is in a `sem_wait` on a semaphore that is zero. -/
def Blocked (state : State) (party : Party) : Prop :=
  (state.process party).stage = .waiting ∧
    ∃ transfer ∈ (state.process party).pending.head?, state.semaphore (waitsOn transfer) = 0

instance (state : State) (party : Party) : Decidable (Blocked state party) :=
  inferInstanceAs (Decidable (_ ∧ ∃ transfer ∈ (state.process party).pending.head?, _))

/-- The handler of `SIGINT` runs and sets `terminateSignal`. A `sem_wait` in which the process is
blocked returns, and the process goes on to its access. -/
def interrupt (party : Party) (state : State) : Option State :=
  let process := state.process party
  if process.stage = .exited then none
  else some { state with
    process := Function.update state.process party
      { process with
        stage := if Blocked state party then .entered else process.stage
        terminateSignal := true } }

/-! ### The exchange -/

/-- The transfers of the parent: it writes its messages, then reads those of the child. -/
def parentTransfers (parent child : List Message) : List Transfer :=
  writes parent ++ reads child

/-- The transfers of the child: it reads the messages of the parent, then writes its own. -/
def childTransfers (parent child : List Message) : List Transfer :=
  reads parent ++ writes child

/-- The processes after `fork`, on the transfers of the two branches. -/
def forked (parent child : List Transfer) : Party → Process
  | .parent => ⟨parent, .outside, false⟩
  | .child => ⟨child, .outside, false⟩

/-- The values with which the semaphores are created. -/
def createdSemaphores : Semaphore → ℕ
  | .shmRead => 0
  | .shmWrite => 1

/-- Two processes with transfers to do over a segment with some contents. -/
def transferring (parent child : List Transfer) (contents : List UInt8) : System State Event where
  initial :=
    { semaphore := createdSemaphores
      segment := contents
      process := forked parent child
      log := [] }
  step state event :=
    match event with
    | .step party => move party state
    | .sigint party => interrupt party state

/-- The exchange of the messages of the two sides. -/
def exchange (parent child : List Message) (contents : List UInt8) : System State Event :=
  transferring (parentTransfers parent child) (childTransfers parent child) contents

/-- The contents of a segment that has just been created: `ftruncate` fills it with zeros. -/
def createdSegment : List UInt8 := List.replicate shmSegmentSize 0

/-- The messages a process has stored, oldest first. -/
def written (party : Party) (log : List Access) : List Message :=
  log.filterMap fun access ↦
    match access with
    | .write writer message => if writer = party then some message else none
    | .read _ _ => none

/-- The messages a process has read, oldest first. -/
def received (party : Party) (log : List Access) : List Message :=
  log.filterMap fun access ↦
    match access with
    | .write _ _ => none
    | .read reader message => if reader = party then some message else none

/-- The process has no read left to do. -/
def ReadsDone (process : Process) : Prop := ∀ transfer ∈ process.pending, transfer.isRead = false

instance (process : Process) : Decidable (ReadsDone process) :=
  inferInstanceAs (Decidable (∀ transfer ∈ process.pending, transfer.isRead = false))

end Apes.SharedMemory
