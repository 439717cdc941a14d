import Apes.Ipc.Exchange
import Apes.Library.TransitionSystem
import Mathlib.Logic.Function.Basic

/-!
# The exchange over two pipes, `pipestest.c`

The parent writes to `fifo1` and reads from `fifo2`, the child the other way round. Both open
`fifo1` first and `fifo2` after it, send their messages, and then read those of the other. A FIFO
carries bytes without a boundary: a command is one byte and a string its 20-byte slot, and a read
asks for as many bytes as it expects.

The model follows the calls, each of them two steps, its call and its return. An `open` blocks until
the other end is being opened too. A `write` puts its bytes in at once and blocks while there is no
room for all of them. A `read` blocks while the FIFO is empty and otherwise takes what is there, up
to the bytes asked for; the caller does not look at the number returned and logs its buffer, whose
old bytes remain where no new ones came. A read from an empty FIFO whose writer has exited returns
nothing, a write without a reader ends the process.

The handler of `SIGINT` ends the last loop, and a `read` or `write` in which the process is blocked
returns without having moved a byte; between two calls the handler does nothing else. The model
delivers the signal after the two `open`s.
-/

set_option autoImplicit false
set_option relaxedAutoImplicit false

namespace Apes.Pipes

open Library Ipc

/-- The two named pipes. -/
inductive Fifo
  | fifo1
  | fifo2
  deriving DecidableEq

/-- The pipe that a process writes to. -/
def outgoing : Party → Fifo
  | .parent => .fifo1
  | .child => .fifo2

/-- The pipe that a process reads from. -/
def incoming (party : Party) : Fifo := outgoing party.peer

/-- A process: the pipes that it has still to open, the transfers that it has to do after that,
whether it is in the first of these calls, its two receive buffers, what it has logged as received,
and whether it has got the signal and has ended. -/
structure Process where
  opens : List Fifo
  pending : List Transfer
  called : Bool
  readCmd : UInt8
  rxString : List UInt8
  received : List Message
  terminateSignal : Bool
  exited : Bool

/-- The contents of the pipes and the two processes. -/
structure State where
  content : Fifo → List UInt8
  process : Party → Process

/-! ### The receive buffers -/

/-- A process stores the bytes it got in the buffer for the kind and logs the buffer. -/
def Process.receive (process : Process) (kind : Kind) (bytes : List UInt8) : Process :=
  match kind with
  | .command =>
    { process with
      readCmd := bytes.headD process.readCmd
      received := process.received ++ [.command (bytes.headD process.readCmd)] }
  | .text =>
    { process with
      rxString := bytes ++ process.rxString.drop bytes.length
      received := process.received ++
        [.text (.ofBuffer (bytes ++ process.rxString.drop bytes.length))] }

/-! ### The calls -/

/-- A process is replaced by another. -/
def State.set (state : State) (party : Party) (process : Process) : State :=
  { state with process := Function.update state.process party process }

/-- The process has called `open` on the pipe. -/
def Process.HasCalledOpen (process : Process) (fifo : Fifo) : Prop :=
  fifo ∉ process.opens ∨ process.opens.head? = some fifo ∧ process.called = true

instance (process : Process) (fifo : Fifo) : Decidable (process.HasCalledOpen fifo) :=
  inferInstanceAs (Decidable (_ ∨ _))

/-- The process makes the next of its calls. -/
def enterCall (party : Party) (state : State) : State :=
  state.set party { state.process party with called := true }

/-- `open` returns once the other end is being opened. -/
def openFifo (party : Party) (fifo : Fifo) (rest : List Fifo) (state : State) : Option State :=
  if (state.process party.peer).HasCalledOpen fifo then
    some (state.set party { state.process party with opens := rest, called := false })
  else none

/-- `write`: all the bytes when there is room for them. -/
def writeFifo (capacity : ℕ) (party : Party) (message : Message) (rest : List Transfer)
    (state : State) : Option State :=
  let process := state.process party
  if (state.process party.peer).exited = true then
    some (state.set party { process with pending := [], exited := true })
  else if (state.content (outgoing party)).length + (frame message).length ≤ capacity then
    some { content := Function.update state.content (outgoing party)
             (state.content (outgoing party) ++ frame message)
           process := Function.update state.process party
             { process with pending := rest, called := false } }
  else none

/-- `read`: what is there, up to the bytes asked for. -/
def readFifo (party : Party) (kind : Kind) (rest : List Transfer) (state : State) :
    Option State :=
  let process := { state.process party with pending := rest, called := false }
  match state.content (incoming party) with
  | [] =>
    if (state.process party.peer).exited = true then
      some (state.set party (process.receive kind []))
    else none
  | byte :: others =>
    some { content := Function.update state.content (incoming party)
             ((byte :: others).drop (frameSize kind))
           process := Function.update state.process party
             (process.receive kind ((byte :: others).take (frameSize kind))) }

/-- The call in which a process is returns. -/
def finishCall (capacity : ℕ) (party : Party) (state : State) : Option State :=
  match (state.process party).opens, (state.process party).pending with
  | fifo :: rest, _ => openFifo party fifo rest state
  | [], .write message :: rest => writeFifo capacity party message rest state
  | [], .read kind :: rest => readFifo party kind rest state
  | [], [] => none

/-- The process has no call left to make. -/
def Process.Done (process : Process) : Prop := process.opens = [] ∧ process.pending = []

instance (process : Process) : Decidable process.Done := inferInstanceAs (Decidable (_ ∧ _))

/-- One step of a process. -/
def move (capacity : ℕ) (party : Party) (state : State) : Option State :=
  let process := state.process party
  if process.exited = true then none
  else if process.Done then
    if process.terminateSignal = true then some (state.set party { process with exited := true })
    else none
  else if process.called = false then some (enterCall party state)
  else finishCall capacity party state

/-- The process is blocked in a `read` or a `write`: it has called it, and the call cannot return.
-/
def BlockedInTransfer (capacity : ℕ) (state : State) (party : Party) : Prop :=
  (state.process party).opens = [] ∧ (state.process party).pending ≠ [] ∧
    (state.process party).called = true ∧ finishCall capacity party state = none

instance (capacity : ℕ) (state : State) (party : Party) :
    Decidable (BlockedInTransfer capacity state party) :=
  decidable_of_iff ((state.process party).opens = [] ∧ (state.process party).pending ≠ [] ∧
    (state.process party).called = true ∧ (finishCall capacity party state).isNone = true)
    (by simp [BlockedInTransfer])

/-- The first transfer of a process is over without a byte moved. -/
def Process.interrupted (process : Process) : Process :=
  match process.pending with
  | .read kind :: rest => { process with pending := rest, called := false }.receive kind []
  | .write _ :: rest => { process with pending := rest, called := false }
  | [] => process

/-- The handler of `SIGINT` runs in a process that has opened its pipes and sets `terminateSignal`.
A transfer in which the process is blocked is over. -/
def interrupt (capacity : ℕ) (party : Party) (state : State) : Option State :=
  let process := { state.process party with terminateSignal := true }
  if process.exited = true ∨ process.opens ≠ [] then none
  else if BlockedInTransfer capacity state party then some (state.set party process.interrupted)
  else some (state.set party process)

/-- A process after `fork`: it sends its messages and then receives those of the other, and its
receive buffers are uninitialised. -/
def forked (own others : List Message) (readCmd : UInt8) (rxString : List UInt8) : Process where
  opens := [.fifo1, .fifo2]
  pending := writes own ++ reads others
  called := false
  readCmd := readCmd
  rxString := rxString
  received := []
  terminateSignal := false
  exited := false

/-- The exchange of the messages of the two sides over pipes of a capacity, with some contents of
the uninitialised buffers. -/
def exchange (messages : Party → List Message) (capacity : ℕ) (readCmd : Party → UInt8)
    (rxString : Party → List UInt8) : System State Event where
  initial :=
    { content := fun _ ↦ []
      process := fun party ↦
        forked (messages party) (messages party.peer) (readCmd party) (rxString party) }
  step state event :=
    match event with
    | .step party => move capacity party state
    | .sigint party => interrupt capacity party state

end Apes.Pipes
