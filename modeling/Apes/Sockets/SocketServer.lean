import Apes.Ipc.Exchange
import Apes.Library.CheckedExecution
import Apes.Library.TransitionSystem
import Mathlib.Logic.Function.Basic

/-!
# The socket server and its clients, `socketServer.c` and `socketClient.c`

The server accepts connections on a local `SOCK_SEQPACKET` socket, one session after another. In a
session the client sends its messages and an `END` packet, and the server then does the same. A
receiver takes the first five packets for commands and every later one for a string; it leaves its
loop at a string that is `END`. `Receiver.round` is one round of that loop, the same in both
programs: the packet overlays the bytes of a buffer of 20 that still holds what came before, and
what is there is logged with `%s`. When none of the 20 bytes is zero, that reads past the end of the
buffer, which is a fault and leaves the program at the stage `faulted`.

The model has any number of clients, numbered in the order in which they connect. Each connection
has a queue of packets in each direction; a write blocks while the queue is full and a read while it
is empty. A client connects as soon as the one before it has, and sends whether or not its session
has been accepted. The server writes every line of its log to one stream, opened before the main
loop and closed at the end of the body of that loop; a line written to a closed stream is lost and
is remembered as `closedStreamUse`.
-/

set_option autoImplicit false
set_option relaxedAutoImplicit false

namespace Apes.Sockets

open Library Ipc

/-- A packet is a string of bytes. -/
abbrev Packet := List UInt8

/-- The number of packets that a receive loop takes for commands. -/
def commandCount : ℕ := 5

/-- The string `END`. -/
def endString : CString := ⟨[69, 78, 68], by decide⟩

/-- What a side sends in a session: five commands, and strings other than `END`. -/
structure Batch where
  commands : List UInt8
  texts : List Text
  five : commands.length = commandCount
  not_end : ∀ text ∈ texts, text.string ≠ endString

/-- The messages of a batch. -/
def Batch.messages (batch : Batch) : List Message := transmission batch.commands batch.texts

/-! ### The receive loop -/

/-- The 20 bytes of `buffer`. -/
structure Buffer where
  bytes : List UInt8
  sized : bytes.length = strMaxLen

/-- A read of a packet into the start of the buffer. -/
def Buffer.overlay (buffer : Buffer) (packet : Packet) : Buffer where
  bytes := packet.take strMaxLen ++ buffer.bytes.drop (packet.take strMaxLen).length
  sized := by
    have hsized := buffer.sized
    simp only [List.length_append, List.length_take, List.length_drop]
    omega

/-- `strcpy (buffer, "END")`. -/
def Buffer.copyEnd (buffer : Buffer) : Buffer where
  bytes := endString.bytes ++ 0 :: buffer.bytes.drop (endString.bytes.length + 1)
  sized := by
    have hsized := buffer.sized
    have hfits : endString.bytes.length + 1 ≤ strMaxLen := by decide
    simp only [List.length_append, List.length_cons, List.length_drop]
    omega

/-- The conversion `%s` of the buffer: the string up to the terminator. Without one it reads past
the end of the buffer. -/
def Buffer.print (buffer : Buffer) : Except Fault CString :=
  if 0 ∈ buffer.bytes then .ok (.ofBuffer buffer.bytes)
  else .error (.outOfBounds strMaxLen strMaxLen)

/-- The variables of a receive loop. -/
structure Receiver where
  result : UInt8
  buffer : Buffer

/-- One round of a receive loop on the next packet: the variables after it, and the message logged,
none when the loop is left. -/
def Receiver.round (receiver : Receiver) (i : ℕ) (packet : Packet) :
    Except Fault (Receiver × Option Message) :=
  if i < commandCount then
    .ok ({ receiver with result := packet.headD receiver.result },
      some (.command (packet.headD receiver.result)))
  else
    let read := { receiver with buffer := receiver.buffer.overlay packet }
    if strncmp strMaxLen read.buffer.bytes endString.bytes = 0 then .ok (read, none)
    else do
      let string ← read.buffer.print
      .ok (read, some (.text string))

/-- `strcpy (buffer, "END")`. -/
def Receiver.copyEnd (receiver : Receiver) : Receiver :=
  { receiver with buffer := receiver.buffer.copyEnd }

/-! ### The state -/

/-- Where the server stands: before `accept`, in the receive loop, sending, before the write of its
`END` packet, before the `close` of the connection, or past a fault. -/
inductive ServerStage
  | accepting
  | receiving (i : ℕ)
  | sending (pending : List Message)
  | ending
  | closing
  | faulted

/-- Where a client stands: before `connect`, sending, before the write of its `END` packet, in the
receive loop, past it, or past a fault. -/
inductive ClientStage
  | connecting
  | sending (pending : List Message)
  | ending
  | receiving (i : ℕ)
  | finished
  | faulted

/-- A client, with the messages that it has logged as received. -/
structure Client where
  stage : ClientStage
  receiver : Receiver
  received : List Message

/-- A line of the server's log. -/
inductive LogLine
  | received (session : ℕ) (message : Message)
  | sent (session : ℕ) (message : Message)

/-- The server's log stream: whether it is open, whether it has been used while closed, and its
lines. -/
structure LogStream where
  isOpen : Bool
  closedStreamUse : Bool
  lines : List LogLine

/-- The server, with the number of sessions that it has served and its log stream, the clients, and
the packets on their way. -/
structure State where
  served : ℕ
  stage : ServerStage
  receiver : Receiver
  stream : LogStream
  client : ℕ → Client
  toServer : ℕ → List Packet
  toClient : ℕ → List Packet

/-- A step of the server or of a client. -/
inductive Event
  | server
  | client (session : ℕ)

/-! ### The log stream -/

/-- `fputs`. -/
def LogStream.fputs (stream : LogStream) (line : LogLine) : LogStream :=
  if stream.isOpen = true then { stream with lines := stream.lines ++ [line] }
  else { stream with closedStreamUse := true }

/-- `fflush`. -/
def LogStream.fflush (stream : LogStream) : LogStream :=
  if stream.isOpen = true then stream else { stream with closedStreamUse := true }

/-- `fclose`. -/
def LogStream.fclose (stream : LogStream) : LogStream :=
  if stream.isOpen = true then { stream with isOpen := false }
  else { stream with closedStreamUse := true }

/-! ### The steps -/

/-- The server takes the first packet of its session in a round of the receive loop. -/
def receiveRound (server : Batch) (i : ℕ) (packet : Packet) (rest : List Packet) (state : State) :
    State :=
  let taken := { state with toServer := Function.update state.toServer state.served rest }
  match state.receiver.round i packet with
  | .ok (receiver, some message) =>
    { taken with
      receiver := receiver
      stream := state.stream.fputs (.received state.served message)
      stage := .receiving (i + 1) }
  | .ok (receiver, none) =>
    { taken with
      receiver := receiver
      stream := state.stream.fflush
      stage := .sending server.messages }
  | .error _ => { taken with stage := .faulted }

/-- One step of the server, out of a number of clients and over queues of a capacity. -/
def serverStep (clients capacity : ℕ) (server : Batch) (state : State) : Option State :=
  match state.stage with
  | .accepting =>
    if state.served < clients then
      match (state.client state.served).stage with
      | .connecting => none
      | _ => some { state with stage := .receiving 0 }
    else none
  | .receiving i =>
    match state.toServer state.served with
    | [] => none
    | packet :: rest => some (receiveRound server i packet rest state)
  | .sending (message :: rest) =>
    if (state.toClient state.served).length < capacity then
      some { state with
        toClient := Function.update state.toClient state.served
          (state.toClient state.served ++ [frame message])
        stream := state.stream.fputs (.sent state.served message)
        stage := .sending rest }
    else none
  | .sending [] =>
    some { state with
      stream := state.stream.fflush.fclose
      receiver := state.receiver.copyEnd
      stage := .ending }
  | .ending =>
    if (state.toClient state.served).length < capacity then
      some { state with
        toClient := Function.update state.toClient state.served
          (state.toClient state.served ++ [state.receiver.buffer.bytes])
        stage := .closing }
    else none
  | .closing => some { state with stage := .accepting, served := state.served + 1 }
  | .faulted => none

/-- A client takes the first packet of its connection in a round of the receive loop. -/
def Client.receiveRound (i : ℕ) (packet : Packet) (client : Client) : Client :=
  match client.receiver.round i packet with
  | .ok (receiver, some message) =>
    { stage := .receiving (i + 1)
      receiver := receiver
      received := client.received ++ [message] }
  | .ok (receiver, none) => { client with stage := .finished, receiver := receiver }
  | .error _ => { client with stage := .faulted }

/-- The client before this one, if any, has connected. -/
def State.MayConnect (session : ℕ) (state : State) : Prop :=
  match session with
  | 0 => True
  | before + 1 =>
    match (state.client before).stage with
    | .connecting => False
    | _ => True

instance (session : ℕ) (state : State) : Decidable (state.MayConnect session) := by
  unfold State.MayConnect
  split
  · infer_instance
  · split <;> infer_instance

/-- One step of a client. -/
def clientStep (capacity : ℕ) (batch : Batch) (session : ℕ) (state : State) : Option State :=
  let client := state.client session
  match client.stage with
  | .connecting =>
    if state.MayConnect session then
      some { state with
        client := Function.update state.client session
          { client with stage := .sending batch.messages } }
    else none
  | .sending (message :: rest) =>
    if (state.toServer session).length < capacity then
      some { state with
        toServer := Function.update state.toServer session
          (state.toServer session ++ [frame message])
        client := Function.update state.client session { client with stage := .sending rest } }
    else none
  | .sending [] =>
    some { state with
      client := Function.update state.client session
        { client with stage := .ending, receiver := client.receiver.copyEnd } }
  | .ending =>
    if (state.toServer session).length < capacity then
      some { state with
        toServer := Function.update state.toServer session
          (state.toServer session ++
            [client.receiver.buffer.bytes.take (endString.bytes.length + 1)])
        client := Function.update state.client session { client with stage := .receiving 0 } }
    else none
  | .receiving i =>
    match state.toClient session with
    | [] => none
    | packet :: rest =>
      some { state with
        toClient := Function.update state.toClient session rest
        client := Function.update state.client session (client.receiveRound i packet) }
  | .finished => none
  | .faulted => none

/-- The data of a run: the number of clients, the capacity of a queue, what each side sends, and the
uninitialised buffers. -/
structure Setting where
  clients : ℕ
  capacity : ℕ
  server : Batch
  client : ℕ → Batch
  serverBuffer : Receiver
  clientBuffer : ℕ → Receiver
  room : 0 < capacity

/-- The server and its clients. -/
def sessions (setting : Setting) : System State Event where
  initial :=
    { served := 0
      stage := .accepting
      receiver := setting.serverBuffer
      stream := ⟨true, false, []⟩
      client := fun session ↦ ⟨.connecting, setting.clientBuffer session, []⟩
      toServer := fun _ ↦ []
      toClient := fun _ ↦ [] }
  step state event :=
    match event with
    | .server => serverStep setting.clients setting.capacity setting.server state
    | .client session =>
      if session < setting.clients then
        clientStep setting.capacity (setting.client session) session state
      else none

/-- The messages that the server has logged as received in a session. -/
def receivedLines (session : ℕ) (lines : List LogLine) : List Message :=
  lines.filterMap fun line ↦
    match line with
    | .received other message => if other = session then some message else none
    | .sent _ _ => none

/-- The messages that the server has logged as sent in a session. -/
def sentLines (session : ℕ) (lines : List LogLine) : List Message :=
  lines.filterMap fun line ↦
    match line with
    | .received _ _ => none
    | .sent other message => if other = session then some message else none

/-! ### The data of the programs -/

/-- What the server sends. -/
def txServer : Batch := ⟨commands, txChild, rfl, by decide⟩

/-- What every client sends. -/
def txClient : Batch := ⟨commands, txParent, rfl, by decide⟩

/-- A number of clients, over queues of 16 packets. -/
def program (clients : ℕ) : Setting where
  clients := clients
  capacity := 16
  server := txServer
  client _ := txClient
  serverBuffer := ⟨0, ⟨List.replicate 20 255, rfl⟩⟩
  clientBuffer _ := ⟨0, ⟨List.replicate 20 255, rfl⟩⟩
  room := by decide

end Apes.Sockets
