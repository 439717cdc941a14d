import Apes.Library.CString
import Mathlib.Tactic.TypeStar

/-!
# What two processes exchange

The three exchange programs (shared memory, pipes, sockets) send the same kind of data: each side
has an array of commands, single bytes, and an array of strings in slots of `STR_MAX_LEN` bytes, and
sends the commands first and the strings after them. Nothing in a medium says which of the two a
message is; the receiver knows it from the position. A `Message` carries its `Kind`, and
`transmission` is the sequence of messages of a side. What a process has to do is a list of
`Transfer`s: `writes` for the messages it sends and `reads` for the kinds it expects.

The programs on shared memory and on pipes fork, and their runs are schedules of steps of the parent
and of the child; `SIGINT` may be delivered to either.
-/

set_option autoImplicit false
set_option relaxedAutoImplicit false

namespace Apes.Ipc

open Library

/-- `STR_MAX_LEN`. -/
def strMaxLen : ℕ := 20

/-- A string of a transmit array: it fits, with its terminator, into a slot. -/
structure Text where
  string : CString
  fits : string.bytes.length < strMaxLen

/-- Whether a message is a command byte or a string. -/
inductive Kind
  | command
  | text
  deriving DecidableEq

/-- A message as it is sent or logged. -/
inductive Message
  | command (byte : UInt8)
  | text (string : CString)
  deriving DecidableEq

/-- The kind of a message. -/
def Message.kind : Message → Kind
  | .command _ => .command
  | .text _ => .text

/-- The messages of a side in the order in which it sends them. -/
def transmission (commands : List UInt8) (texts : List Text) : List Message :=
  commands.map .command ++ texts.map fun text ↦ .text text.string

/-- A string that fits into a slot. -/
def Message.Fits : Message → Prop
  | .command _ => True
  | .text string => string.bytes.length < strMaxLen

/-- The messages of a side fit. -/
theorem fits_of_mem_transmission {commands : List UInt8} {texts : List Text} {message : Message}
    (hmem : message ∈ transmission commands texts) : message.Fits := by
  rcases List.mem_append.mp hmem with hcommand | htext
  · obtain ⟨byte, -, rfl⟩ := List.mem_map.mp hcommand
    trivial
  · obtain ⟨text, -, rfl⟩ := List.mem_map.mp htext
    exact text.fits

/-! ### Frames -/

/-- The bytes that are written for a message: one for a command, the slot for a string. -/
def frame : Message → List UInt8
  | .command byte => [byte]
  | .text string => string.padded strMaxLen

/-- The number of bytes that a read asks for. -/
def frameSize : Kind → ℕ
  | .command => 1
  | .text => strMaxLen

/-- A message that fits has as many bytes as a read of its kind asks for. -/
theorem length_frame {message : Message} (hfits : message.Fits) :
    (frame message).length = frameSize message.kind := by
  cases message with
  | command byte => rfl
  | text string => exact CString.length_padded (Nat.le_of_lt hfits)

/-- A read asks for something. -/
theorem frameSize_pos (kind : Kind) : 0 < frameSize kind := by
  cases kind <;> decide

/-! ### What a process has to do -/

/-- The transfer of one message: the message to send, or the kind expected. -/
inductive Transfer
  | write (message : Message)
  | read (kind : Kind)
  deriving DecidableEq

/-- Whether the transfer is a read. -/
def Transfer.isRead : Transfer → Bool
  | .write _ => false
  | .read _ => true

/-- The transfers that send a list of messages. -/
def writes (messages : List Message) : List Transfer := messages.map .write

/-- The transfers that receive a list of messages. -/
def reads (messages : List Message) : List Transfer := messages.map fun message ↦ .read message.kind

theorem reads_ne_write_cons (messages : List Message) (message : Message) (rest : List Transfer) :
    reads messages ≠ .write message :: rest := by
  cases messages <;> simp [reads]

theorem writes_ne_read_cons (messages : List Message) (kind : Kind) (rest : List Transfer) :
    writes messages ≠ .read kind :: rest := by
  cases messages <;> simp [writes]

/-! ### The two processes -/

/-- The two processes of the programs that fork. -/
inductive Party
  | parent
  | child
  deriving DecidableEq

/-- The other process. -/
def Party.peer : Party → Party
  | .parent => .child
  | .child => .parent

/-- A step of a process, or the delivery of `SIGINT` to it. -/
inductive Event
  | step (party : Party)
  | sigint (party : Party)
  deriving DecidableEq

/-- No signal is delivered. -/
def Unsignalled {State : Type*} (_ : State) : Event → Prop
  | .step _ => True
  | .sigint _ => False

instance {State : Type*} (state : State) (event : Event) : Decidable (Unsignalled state event) :=
  match event with
  | .step _ => .isTrue trivial
  | .sigint _ => .isFalse id

/-! ### The data of the programs that fork -/

/-- The commands that both sides send. -/
def commands : List UInt8 := [1, 0, 1, 1, 0]

/-- The strings that the parent sends: Firmino, Salah, Mane, Van Dijk and Alisson. -/
def txParent : List Text :=
  [⟨⟨[70, 105, 114, 109, 105, 110, 111], by decide⟩, by decide⟩,
    ⟨⟨[83, 97, 108, 97, 104], by decide⟩, by decide⟩,
    ⟨⟨[77, 97, 110, 101], by decide⟩, by decide⟩,
    ⟨⟨[86, 97, 110, 32, 68, 105, 106, 107], by decide⟩, by decide⟩,
    ⟨⟨[65, 108, 105, 115, 115, 111, 110], by decide⟩, by decide⟩]

/-- The strings that the child sends: Fabinho, Robertson, Alexander Arnold, Lovren and Wijnaldum. -/
def txChild : List Text :=
  [⟨⟨[70, 97, 98, 105, 110, 104, 111], by decide⟩, by decide⟩,
    ⟨⟨[82, 111, 98, 101, 114, 116, 115, 111, 110], by decide⟩, by decide⟩,
    ⟨⟨[65, 108, 101, 120, 97, 110, 100, 101, 114, 32, 65, 114, 110, 111, 108, 100], by decide⟩,
      by decide⟩,
    ⟨⟨[76, 111, 118, 114, 101, 110], by decide⟩, by decide⟩,
    ⟨⟨[87, 105, 106, 110, 97, 108, 100, 117, 109], by decide⟩, by decide⟩]

/-- The strings that a side sends. -/
def tx : Party → List Text
  | .parent => txParent
  | .child => txChild

end Apes.Ipc
