import Apes.Sockets.SocketServer
import Apes.Library.Channel

/-!
# The sessions of the socket server

What a side sends in a session is a list of items: its messages, and then the end. `Encodes` says
which packets stand for an item; an end packet is any that starts with `END` and its terminator, so
the 4 bytes of the client and the 20 bytes of the server, with whatever the buffer held before, are
the same to the receiver. `round_eq` is the agreement of the two sides: a round of the receive loop
on the packet of the item at its index gives that item and no fault, whatever the buffer held.

`InSession` is the invariant of one session. Its queues carry the items in both directions
(`Carries`), and the client has logged what its place in the loop says. One lemma for each kind of
step keeps it; `sound_of_reachable` has it for every session of every run, where a session that has
not been accepted counts as one before `accept` and one that is over as one before `close`.
-/

set_option autoImplicit false
set_option relaxedAutoImplicit false

namespace Apes.Sockets

open Library Ipc

/-! ### Items and packets -/

/-- The items of a batch: its messages, and the end. -/
def Batch.items (batch : Batch) : List (Option Message) := batch.messages.map some ++ [none]

/-- The packet stands for the item. -/
def Encodes (packet : Packet) : Option Message → Prop
  | some message => packet = frame message
  | none => ∃ rest, packet = endString.bytes ++ 0 :: rest ∧ packet.length ≤ strMaxLen

/-- The first five items are commands; a later one is a string other than `END`, or the end. -/
theorem Batch.item_cases (batch : Batch) {i : ℕ} {item : Option Message}
    (hitem : batch.items[i]? = some item) :
    (i < commandCount ∧ ∃ byte, item = some (.command byte)) ∨
      (¬ i < commandCount ∧
        (item = none ∨ ∃ text ∈ batch.texts, item = some (.text text.string))) := by
  have hitems : batch.items = batch.commands.map (fun byte ↦ some (.command byte)) ++
      (batch.texts.map (fun text ↦ some (.text text.string)) ++ [none]) := by
    simp [Batch.items, Batch.messages, transmission, Function.comp_def]
  rw [hitems] at hitem
  by_cases hcommand : i < commandCount
  · left
    rw [List.getElem?_append_left (by simpa [batch.five] using hcommand)] at hitem
    obtain ⟨byte, -, rfl⟩ := List.mem_map.mp (List.mem_of_getElem? hitem)
    exact ⟨hcommand, byte, rfl⟩
  · right
    rw [List.getElem?_append_right (by simpa [batch.five] using hcommand)] at hitem
    rcases List.mem_append.mp (List.mem_of_getElem? hitem) with htext | hend
    · obtain ⟨text, hmem, rfl⟩ := List.mem_map.mp htext
      exact ⟨hcommand, .inr ⟨text, hmem, rfl⟩⟩
    · exact ⟨hcommand, .inl (List.mem_singleton.mp hend)⟩

/-- The buffer after a packet that fits. -/
theorem bytes_overlay_of_le {packet : Packet} (hlength : packet.length ≤ strMaxLen)
    (buffer : Buffer) :
    (buffer.overlay packet).bytes = packet ++ buffer.bytes.drop packet.length := by
  change packet.take strMaxLen ++ buffer.bytes.drop (packet.take strMaxLen).length = _
  rw [List.take_of_length_le hlength]

/-- A buffer with a terminator is printed up to it. -/
theorem print_of_terminated {buffer : Buffer} (hzero : 0 ∈ buffer.bytes) :
    buffer.print = .ok (.ofBuffer buffer.bytes) := if_pos hzero

/-- The slot of a string that fits leaves that string in the buffer, with a terminator. -/
theorem print_overlay_text (text : Text) (buffer : Buffer) :
    CString.ofBuffer (buffer.overlay (text.string.padded strMaxLen)).bytes = text.string ∧
      (buffer.overlay (text.string.padded strMaxLen)).print = .ok text.string := by
  have hlength : (text.string.padded strMaxLen).length ≤ strMaxLen := by
    rw [CString.length_padded (Nat.le_of_lt text.fits)]
  have hbytes := bytes_overlay_of_le hlength buffer
  have hread : CString.ofBuffer (buffer.overlay (text.string.padded strMaxLen)).bytes =
      text.string := by
    rw [hbytes]
    exact CString.ofBuffer_padded_append text.fits _
  have hzero : 0 ∈ (buffer.overlay (text.string.padded strMaxLen)).bytes := by
    have hfits := text.fits
    rw [hbytes]
    refine List.mem_append_left _ (List.mem_append_right _ (List.mem_replicate.mpr ⟨?_, rfl⟩))
    omega
  refine ⟨hread, ?_⟩
  rw [print_of_terminated hzero, hread]

/-- A round of the receive loop on the packet of the item at its index gives the item. -/
theorem round_eq (batch : Batch) {i : ℕ} {item : Option Message} {packet : Packet}
    (hitem : batch.items[i]? = some item) (hencodes : Encodes packet item) (receiver : Receiver) :
    ∃ next, receiver.round i packet = .ok (next, item) := by
  unfold Receiver.round
  rcases batch.item_cases hitem with ⟨hcommand, byte, rfl⟩ | ⟨hcommand, rfl | ⟨text, hmem, rfl⟩⟩
  · rw [if_pos hcommand, show packet = [byte] from hencodes]
    exact ⟨_, rfl⟩
  · obtain ⟨rest, hpacket, hlength⟩ := hencodes
    rw [if_neg hcommand]
    dsimp only
    rw [if_pos]
    · exact ⟨_, rfl⟩
    · refine (strncmp_eq_zero_iff _ (by decide)).mpr ?_
      rw [bytes_overlay_of_le hlength, hpacket, List.append_assoc, List.cons_append]
      exact CString.ofBuffer_append_nul _ _
  · obtain ⟨hread, hprint⟩ := print_overlay_text text receiver.buffer
    rw [if_neg hcommand, show packet = text.string.padded strMaxLen from hencodes]
    dsimp only
    rw [if_neg, hprint]
    · exact ⟨_, rfl⟩
    · intro hequal
      exact batch.not_end text hmem
        (hread.symm.trans ((strncmp_eq_zero_iff _ (by decide)).mp hequal))

/-- The end packets of both sides stand for the end. -/
theorem encodes_copyEnd (receiver : Receiver) {count : ℕ} (hlow : endString.bytes.length < count)
    (hhigh : count ≤ strMaxLen) : Encodes (receiver.copyEnd.buffer.bytes.take count) none := by
  obtain ⟨extra, rfl⟩ : ∃ extra, count = endString.bytes.length + 1 + extra :=
    ⟨count - (endString.bytes.length + 1), by omega⟩
  refine ⟨(receiver.buffer.bytes.drop (endString.bytes.length + 1)).take extra, ?_, ?_⟩
  · have hbuffer : receiver.copyEnd.buffer.bytes =
        (endString.bytes ++ [0]) ++ receiver.buffer.bytes.drop (endString.bytes.length + 1) := by
      rw [List.append_assoc]
      rfl
    rw [hbuffer]
    change List.take ((endString.bytes ++ [0]).length + extra) _ = _
    rw [List.take_length_add_append, List.append_assoc]
    rfl
  · exact (List.length_take_le _ _).trans hhigh

/-- The whole buffer of the server stands for the end. -/
theorem encodes_copyEnd_buffer (receiver : Receiver) :
    Encodes receiver.copyEnd.buffer.bytes none := by
  have hencodes := encodes_copyEnd receiver (by decide) (le_refl strMaxLen)
  rwa [List.take_of_length_le (le_of_eq receiver.copyEnd.buffer.sized)] at hencodes

/-! ### One session -/

/-- The items that the server has still to receive in a session. -/
def ServerStage.toReceive (batch : Batch) : ServerStage → List (Option Message)
  | .accepting => batch.items
  | .receiving i => batch.items.drop i
  | _ => []

/-- The items that the server has still to send in a session. -/
def ServerStage.toSend (server : Batch) : ServerStage → List (Option Message)
  | .accepting => server.items
  | .receiving _ => server.items
  | .sending pending => pending.map some ++ [none]
  | .ending => [none]
  | .closing => []
  | .faulted => []

/-- The items that a client has still to send. -/
def ClientStage.toSend (batch : Batch) : ClientStage → List (Option Message)
  | .connecting => batch.items
  | .sending pending => pending.map some ++ [none]
  | .ending => [none]
  | _ => []

/-- The items that a client has still to receive. -/
def ClientStage.toReceive (server : Batch) : ClientStage → List (Option Message)
  | .receiving i => server.items.drop i
  | .finished => []
  | _ => server.items

/-- The messages that a client has received. -/
def ClientStage.got (server : Batch) : ClientStage → List Message
  | .receiving i => server.messages.take i
  | .finished => server.messages
  | _ => []

/-- The index of a receive loop of the server is at most that of the end, and there is no fault. -/
def ServerStage.InRange (batch : Batch) : ServerStage → Prop
  | .receiving i => i ≤ batch.messages.length
  | .faulted => False
  | _ => True

/-- The index of a receive loop of a client is at most that of the end, and there is no fault. -/
def ClientStage.InRange (server : Batch) : ClientStage → Prop
  | .receiving i => i ≤ server.messages.length
  | .faulted => False
  | _ => True

/-- One session: what its server and its client have still to send and to receive is what the queues
carry, and the client has logged what it has received. -/
structure InSession (batch server : Batch) (stage : ServerStage) (client : Client)
    (toServer toClient : List Packet) : Prop where
  serverIndex : stage.InRange batch
  clientIndex : client.stage.InRange server
  up : Carries Encodes toServer (client.stage.toSend batch) (stage.toReceive batch)
  down : Carries Encodes toClient (stage.toSend server) (client.stage.toReceive server)
  received : client.received = client.stage.got server
  ending : client.stage = .ending → ∃ earlier : Receiver, client.receiver = earlier.copyEnd

variable {batch server : Batch} {stage : ServerStage} {client : Client} {message : Message}
  {packet : Packet} {toServer toClient queue : List Packet} {i : ℕ} {rest : List Message}

/-- The item at an index is the first of those from there on. -/
theorem getElem?_of_drop_eq_cons {items others : List (Option Message)} {item : Option Message}
    (hdrop : items.drop i = item :: others) :
    items[i]? = some item ∧ items.drop (i + 1) = others := by
  constructor
  · rw [← List.head?_drop, hdrop, List.head?_cons]
  · rw [← List.tail_drop, hdrop, List.tail_cons]

/-- A round of the receive loop on the first packet takes the next item, and the messages up to the
index grow by it; at the end they are all. -/
theorem carries_round {toSend : List (Option Message)}
    (hcarries : Carries Encodes (packet :: queue) toSend (batch.items.drop i))
    (receiver : Receiver) :
    (∃ after message, receiver.round i packet = .ok (after, some message) ∧
      i < batch.messages.length ∧
      batch.messages.take (i + 1) = batch.messages.take i ++ [message] ∧
      Carries Encodes queue toSend (batch.items.drop (i + 1))) ∨
    (∃ after, receiver.round i packet = .ok (after, none) ∧ i = batch.messages.length ∧
      Carries Encodes queue toSend []) := by
  obtain ⟨item, others, hitems, hencodes, hrest⟩ := hcarries.receive
  obtain ⟨hitem, hdrop⟩ := getElem?_of_drop_eq_cons hitems
  obtain ⟨after, hround⟩ := round_eq batch hitem hencodes receiver
  by_cases hmessage : i < batch.messages.length
  · left
    obtain ⟨message, rfl⟩ : ∃ message, item = some message := by
      rw [Batch.items, List.getElem?_append_left (by simpa using hmessage)] at hitem
      obtain ⟨message, -, rfl⟩ := List.mem_map.mp (List.mem_of_getElem? hitem)
      exact ⟨message, rfl⟩
    refine ⟨after, message, hround, hmessage, ?_, hdrop ▸ hrest⟩
    rw [Batch.items, List.getElem?_append_left (by simpa using hmessage),
      List.getElem?_map] at hitem
    obtain ⟨found, hfound, hsame⟩ := Option.map_eq_some_iff.mp hitem
    rw [Option.some.inj hsame] at hfound
    rw [List.take_add_one, hfound]
    rfl
  · right
    have hlength : batch.items.length = batch.messages.length + 1 := by simp [Batch.items]
    have hbound : i < batch.items.length := (List.getElem?_eq_some_iff.mp hitem).1
    have hlast : i = batch.messages.length := by omega
    obtain rfl : item = none := by
      rw [Batch.items, hlast, List.getElem?_append_right (by simp)] at hitem
      simpa using hitem.symm
    obtain rfl : others = [] := by
      rw [← hdrop, List.drop_of_length_le (by omega)]
    exact ⟨after, hround, hlast, hrest⟩

namespace InSession

/-- The server accepts the connection. -/
theorem accept (hsession : InSession batch server .accepting client toServer toClient) :
    InSession batch server (.receiving 0) client toServer toClient :=
  ⟨Nat.zero_le _, hsession.clientIndex, hsession.up, hsession.down, hsession.received,
    hsession.ending⟩

/-- The server takes a packet: it goes on in its loop with one more message, or leaves it after all
of them. -/
theorem serverReceive
    (hsession : InSession batch server (.receiving i) client (packet :: queue) toClient)
    (receiver : Receiver) :
    (∃ after message, receiver.round i packet = .ok (after, some message) ∧
      batch.messages.take (i + 1) = batch.messages.take i ++ [message] ∧
      InSession batch server (.receiving (i + 1)) client queue toClient) ∨
    (∃ after, receiver.round i packet = .ok (after, none) ∧ i = batch.messages.length ∧
      InSession batch server (.sending server.messages) client queue toClient) := by
  rcases carries_round hsession.up receiver with ⟨after, message, hround, hindex, htake, hup⟩ |
    ⟨after, hround, hindex, hup⟩
  · exact .inl ⟨after, message, hround, htake, hindex, hsession.clientIndex, hup, hsession.down,
      hsession.received, hsession.ending⟩
  · exact .inr ⟨after, hround, hindex, trivial, hsession.clientIndex, hup, hsession.down,
      hsession.received, hsession.ending⟩

/-- The server sends a message. -/
theorem serverSend
    (hsession : InSession batch server (.sending (message :: rest)) client toServer toClient) :
    InSession batch server (.sending rest) client toServer (toClient ++ [frame message]) :=
  ⟨trivial, hsession.clientIndex, hsession.up, hsession.down.send rfl, hsession.received,
    hsession.ending⟩

/-- The server has sent its messages. -/
theorem serverCopyEnd
    (hsession : InSession batch server (.sending []) client toServer toClient) :
    InSession batch server .ending client toServer toClient :=
  ⟨trivial, hsession.clientIndex, hsession.up, hsession.down, hsession.received, hsession.ending⟩

/-- The server sends its end packet. -/
theorem serverEnd (hsession : InSession batch server .ending client toServer toClient)
    (hencodes : Encodes packet none) :
    InSession batch server .closing client toServer (toClient ++ [packet]) :=
  ⟨trivial, hsession.clientIndex, hsession.up, hsession.down.send hencodes, hsession.received,
    hsession.ending⟩

/-- The client connects. -/
theorem connect (hsession : InSession batch server stage client toServer toClient)
    (hstage : client.stage = .connecting) :
    InSession batch server stage { client with stage := .sending batch.messages } toServer
      toClient := by
  obtain ⟨hserver, -, hup, hdown, hreceived, -⟩ := hsession
  rw [hstage] at hup hdown hreceived
  exact ⟨hserver, trivial, hup, hdown, hreceived, nofun⟩

/-- The client sends a message. -/
theorem clientSend (hsession : InSession batch server stage client toServer toClient)
    (hstage : client.stage = .sending (message :: rest)) :
    InSession batch server stage { client with stage := .sending rest }
      (toServer ++ [frame message]) toClient := by
  obtain ⟨hserver, -, hup, hdown, hreceived, -⟩ := hsession
  rw [hstage] at hup hdown hreceived
  exact ⟨hserver, trivial, hup.send rfl, hdown, hreceived, nofun⟩

/-- The client has sent its messages. -/
theorem clientCopyEnd (hsession : InSession batch server stage client toServer toClient)
    (hstage : client.stage = .sending []) :
    InSession batch server stage
      { client with stage := .ending, receiver := client.receiver.copyEnd } toServer toClient := by
  obtain ⟨hserver, -, hup, hdown, hreceived, -⟩ := hsession
  rw [hstage] at hup hdown hreceived
  exact ⟨hserver, trivial, hup, hdown, hreceived, fun _ ↦ ⟨_, rfl⟩⟩

/-- The client sends its end packet. -/
theorem clientEnd (hsession : InSession batch server stage client toServer toClient)
    (hstage : client.stage = .ending) :
    InSession batch server stage { client with stage := .receiving 0 }
      (toServer ++ [client.receiver.buffer.bytes.take (endString.bytes.length + 1)]) toClient := by
  obtain ⟨hserver, -, hup, hdown, hreceived, hending⟩ := hsession
  obtain ⟨earlier, hearlier⟩ := hending hstage
  rw [hstage] at hup hdown hreceived
  refine ⟨hserver, Nat.zero_le _, ?_, hdown, hreceived, nofun⟩
  rw [hearlier]
  exact hup.send (encodes_copyEnd earlier (Nat.lt_succ_self _) (by decide))

/-- The client takes a packet: it goes on in its loop with one more message, or leaves it after all
of them. -/
theorem clientReceive (hsession : InSession batch server stage client toServer (packet :: queue))
    (hstage : client.stage = .receiving i) :
    InSession batch server stage (client.receiveRound i packet) toServer queue := by
  obtain ⟨hserver, -, hup, hdown, hreceived, -⟩ := hsession
  rw [hstage] at hup hdown hreceived
  unfold Client.receiveRound
  rcases carries_round hdown client.receiver with
    ⟨after, message, hround, hindex, htake, hrest⟩ | ⟨after, hround, hindex, hrest⟩
  · rw [hround]
    refine ⟨hserver, hindex, hup, hrest, ?_, nofun⟩
    exact (congrArg (· ++ [message]) hreceived).trans htake.symm
  · rw [hround]
    refine ⟨hserver, trivial, hup, hrest, ?_, nofun⟩
    exact hreceived.trans (List.take_of_length_le (by omega))

end InSession

/-! ### The steps left -/

/-- The number of steps that a client has left at most. -/
def ClientStage.work (batch server : Batch) : ClientStage → ℕ
  | .connecting => batch.messages.length + server.messages.length + 5
  | .sending pending => pending.length + server.messages.length + 4
  | .ending => server.messages.length + 3
  | .receiving i => server.messages.length + 2 - i
  | .finished => 0
  | .faulted => 0

/-- The number of steps that the server has left at most in a session, without the last one. -/
def ServerStage.work (batch server : Batch) : ServerStage → ℕ
  | .accepting => batch.messages.length + server.messages.length + 6
  | .receiving i => batch.messages.length + server.messages.length + 5 - i
  | .sending pending => pending.length + 3
  | .ending => 2
  | .closing => 1
  | .faulted => 0

/-- A round of the receive loop of the server shortens its session. -/
theorem receiveRound_work (hindex : i ≤ batch.messages.length) (state : State) :
    (receiveRound server i packet queue state).stage.work batch server <
      ServerStage.work batch server (.receiving i) := by
  unfold receiveRound
  rcases state.receiver.round i packet with fault | ⟨receiver, _ | message⟩ <;>
    simp only [ServerStage.work] <;> omega

/-- A round of the receive loop of a client shortens its session. -/
theorem Client.receiveRound_work (hindex : i ≤ server.messages.length) (client : Client) :
    (client.receiveRound i packet).stage.work batch server <
      ClientStage.work batch server (.receiving i) := by
  unfold Client.receiveRound
  rcases client.receiver.round i packet with fault | ⟨receiver, _ | message⟩ <;>
    simp only [ClientStage.work] <;> omega

/-! ### The steps -/

variable {setting : Setting} {state next : State} {clients capacity session : ℕ}

/-- What a step of the server can do. -/
theorem serverStep_cases (hstep : serverStep clients capacity server state = some next) :
    (state.stage = .accepting ∧ state.served < clients ∧
      next = { state with stage := .receiving 0 }) ∨
    (∃ i packet rest, state.stage = .receiving i ∧ state.toServer state.served = packet :: rest ∧
      next = receiveRound server i packet rest state) ∨
    (∃ message rest, state.stage = .sending (message :: rest) ∧ next = { state with
      toClient := Function.update state.toClient state.served
        (state.toClient state.served ++ [frame message])
      stream := state.stream.fputs (.sent state.served message)
      stage := .sending rest }) ∨
    (state.stage = .sending [] ∧ next = { state with
      stream := state.stream.fflush.fclose
      receiver := state.receiver.copyEnd
      stage := .ending }) ∨
    (state.stage = .ending ∧ next = { state with
      toClient := Function.update state.toClient state.served
        (state.toClient state.served ++ [state.receiver.buffer.bytes])
      stage := .closing }) ∨
    (state.stage = .closing ∧
      next = { state with stage := .accepting, served := state.served + 1 }) := by
  unfold serverStep at hstep
  split at hstep
  case h_1 hstage =>
    split_ifs at hstep with hserved
    split at hstep
    · simp at hstep
    · exact .inl ⟨hstage, hserved, (Option.some.inj hstep).symm⟩
  case h_2 i hstage =>
    split at hstep
    · simp at hstep
    case h_2 packet rest hqueue =>
      exact .inr (.inl ⟨i, packet, rest, hstage, hqueue, (Option.some.inj hstep).symm⟩)
  case h_3 message rest hstage =>
    split_ifs at hstep
    exact .inr (.inr (.inl ⟨message, rest, hstage, (Option.some.inj hstep).symm⟩))
  case h_4 hstage =>
    exact .inr (.inr (.inr (.inl ⟨hstage, (Option.some.inj hstep).symm⟩)))
  case h_5 hstage =>
    split_ifs at hstep
    exact .inr (.inr (.inr (.inr (.inl ⟨hstage, (Option.some.inj hstep).symm⟩))))
  case h_6 hstage =>
    exact .inr (.inr (.inr (.inr (.inr ⟨hstage, (Option.some.inj hstep).symm⟩))))
  case h_7 => simp at hstep

/-- A step of a client keeps its session, shortens it, and changes nothing but its own data and
queues. -/
theorem clientStep_cases {stage : ServerStage}
    (hsession : InSession batch server stage (state.client session) (state.toServer session)
      (state.toClient session))
    (hstep : clientStep capacity batch session state = some next) :
    ∃ client toServer toClient, InSession batch server stage client toServer toClient ∧
      client.stage.work batch server < (state.client session).stage.work batch server ∧
      next = { state with
        client := Function.update state.client session client
        toServer := Function.update state.toServer session toServer
        toClient := Function.update state.toClient session toClient } := by
  unfold clientStep at hstep
  dsimp only at hstep
  split at hstep
  case h_1 hstage =>
    split_ifs at hstep
    refine ⟨_, state.toServer session, state.toClient session, hsession.connect hstage, ?_, ?_⟩
    · rw [hstage]
      simp only [ClientStage.work]
      omega
    · rw [Function.update_eq_self, Function.update_eq_self]
      exact (Option.some.inj hstep).symm
  case h_2 message rest hstage =>
    split_ifs at hstep
    refine ⟨_, _, state.toClient session, hsession.clientSend hstage, ?_, ?_⟩
    · rw [hstage]
      simp only [ClientStage.work, List.length_cons]
      omega
    · rw [Function.update_eq_self]
      exact (Option.some.inj hstep).symm
  case h_3 hstage =>
    refine ⟨_, state.toServer session, state.toClient session, hsession.clientCopyEnd hstage, ?_,
      ?_⟩
    · rw [hstage]
      simp only [ClientStage.work, List.length_nil]
      omega
    · rw [Function.update_eq_self, Function.update_eq_self]
      exact (Option.some.inj hstep).symm
  case h_4 hstage =>
    split_ifs at hstep
    refine ⟨_, _, state.toClient session, hsession.clientEnd hstage, ?_, ?_⟩
    · rw [hstage]
      simp only [ClientStage.work]
      omega
    · rw [Function.update_eq_self]
      exact (Option.some.inj hstep).symm
  case h_5 i hstage =>
    split at hstep
    · simp at hstep
    case h_2 packet rest hqueue =>
      have hindex := hsession.clientIndex
      rw [hstage] at hindex
      rw [hqueue] at hsession
      refine ⟨_, state.toServer session, rest, hsession.clientReceive hstage, ?_, ?_⟩
      · rw [hstage]
        exact Client.receiveRound_work hindex _
      · rw [Function.update_eq_self]
        exact (Option.some.inj hstep).symm
  case h_6 => simp at hstep
  case h_7 => simp at hstep

/-! ### All sessions -/

/-- Where the server stands towards a session: past it, in it, or not there yet. -/
def stageOf (state : State) (session : ℕ) : ServerStage :=
  if session < state.served then .closing
  else if session = state.served then state.stage
  else .accepting

theorem stageOf_served (state : State) : stageOf state state.served = state.stage := by
  rw [stageOf, if_neg (lt_irrefl _), if_pos rfl]

/-- Towards another session the server stands where it stood as long as it serves the same one. -/
theorem stageOf_of_ne (hserved : next.served = state.served) (hne : session ≠ state.served) :
    stageOf next session = stageOf state session := by
  rw [stageOf, stageOf, hserved, if_neg hne, if_neg hne]

/-- With the end of a session the server stands before the `accept` of the next one. -/
theorem stageOf_close (hstage : state.stage = .closing) (session : ℕ) :
    stageOf { state with stage := .accepting, served := state.served + 1 } session =
      stageOf state session := by
  unfold stageOf
  dsimp only
  rcases lt_trichotomy session state.served with hlt | rfl | hgt
  · rw [if_pos (Nat.lt_succ_of_lt hlt), if_pos hlt]
  · rw [if_pos (Nat.lt_succ_self _), if_neg (lt_irrefl _), if_pos rfl, hstage]
  · rw [if_neg (not_lt.mpr hgt), if_neg (Nat.lt_asymm hgt), if_neg hgt.ne']
    split_ifs <;> rfl

/-- Every session is in order, the server serves one of the clients, and its buffer holds `END` when
it is about to send it. -/
structure Sound (setting : Setting) (state : State) : Prop where
  session : ∀ session, InSession (setting.client session) setting.server (stageOf state session)
    (state.client session) (state.toServer session) (state.toClient session)
  served : state.served ≤ setting.clients
  active : state.stage = .accepting ∨ state.served < setting.clients
  ending : state.stage = .ending → ∃ earlier : Receiver, state.receiver = earlier.copyEnd

theorem sound_initial (setting : Setting) : Sound setting (sessions setting).initial := by
  refine ⟨fun session ↦ ?_, Nat.zero_le _, .inl rfl, nofun⟩
  have hstage : stageOf (sessions setting).initial session = .accepting := by
    unfold stageOf
    split_ifs
    · exact absurd ‹_› (Nat.not_lt_zero _)
    · rfl
    · rfl
  rw [hstage]
  exact ⟨trivial, trivial, carries_nil _, carries_nil _, rfl, nofun⟩

/-- A step of the server in its session keeps every session in order when it keeps that one. -/
theorem Sound.update (hstate : Sound setting state) (hserved : next.served = state.served)
    (hclient : next.client = state.client)
    (hothers : ∀ session, session ≠ state.served → next.toServer session = state.toServer session ∧
      next.toClient session = state.toClient session)
    (hsession : InSession (setting.client state.served) setting.server next.stage
      (state.client state.served) (next.toServer state.served) (next.toClient state.served))
    (session : ℕ) : InSession (setting.client session) setting.server (stageOf next session)
      (next.client session) (next.toServer session) (next.toClient session) := by
  rw [hclient]
  rcases eq_or_ne session state.served with rfl | hne
  · rwa [← hserved, stageOf_served, hserved]
  · rw [stageOf_of_ne hserved hne, (hothers session hne).1, (hothers session hne).2]
    exact hstate.session session

/-- The session that the server is in. -/
theorem Sound.current (hstate : Sound setting state) :
    InSession (setting.client state.served) setting.server state.stage
      (state.client state.served) (state.toServer state.served) (state.toClient state.served) := by
  have hsession := hstate.session state.served
  rwa [stageOf_served] at hsession

/-- A step of the server keeps every session in order. -/
theorem Sound.serverStep (hstate : Sound setting state)
    (hstep : Sockets.serverStep setting.clients setting.capacity setting.server state = some next) :
    Sound setting next := by
  have hcurrent := hstate.current
  rcases serverStep_cases hstep with ⟨hstage, hserved, rfl⟩ |
    ⟨i, packet, rest, hstage, hqueue, rfl⟩ | ⟨message, rest, hstage, rfl⟩ | ⟨hstage, rfl⟩ |
    ⟨hstage, rfl⟩ | ⟨hstage, rfl⟩
  · rw [hstage] at hcurrent
    exact ⟨hstate.update rfl rfl (fun _ _ ↦ ⟨rfl, rfl⟩) hcurrent.accept, hstate.served,
      .inr hserved, nofun⟩
  · have hactive := hstate.active.resolve_left (by simp [hstage])
    rw [hstage, hqueue] at hcurrent
    have hothers : ∀ session, session ≠ state.served →
        Function.update state.toServer state.served rest session = state.toServer session ∧
          state.toClient session = state.toClient session :=
      fun session hne ↦ ⟨Function.update_of_ne hne _ _, rfl⟩
    unfold receiveRound
    rcases hcurrent.serverReceive state.receiver with ⟨after, message, hround, -, hnext⟩ |
      ⟨after, hround, -, hnext⟩
    · rw [hround]
      refine ⟨hstate.update rfl rfl hothers ?_, hstate.served, .inr hactive, nofun⟩
      dsimp only
      rwa [Function.update_self]
    · rw [hround]
      refine ⟨hstate.update rfl rfl hothers ?_, hstate.served, .inr hactive, nofun⟩
      dsimp only
      rwa [Function.update_self]
  · have hactive := hstate.active.resolve_left (by simp [hstage])
    rw [hstage] at hcurrent
    refine ⟨hstate.update rfl rfl (fun _ hne ↦ ⟨rfl, Function.update_of_ne hne _ _⟩) ?_,
      hstate.served, .inr hactive, nofun⟩
    dsimp only
    rw [Function.update_self]
    exact hcurrent.serverSend
  · have hactive := hstate.active.resolve_left (by simp [hstage])
    rw [hstage] at hcurrent
    exact ⟨hstate.update rfl rfl (fun _ _ ↦ ⟨rfl, rfl⟩) hcurrent.serverCopyEnd, hstate.served,
      .inr hactive, fun _ ↦ ⟨_, rfl⟩⟩
  · have hactive := hstate.active.resolve_left (by simp [hstage])
    obtain ⟨earlier, hearlier⟩ := hstate.ending hstage
    rw [hstage] at hcurrent
    refine ⟨hstate.update rfl rfl (fun _ hne ↦ ⟨rfl, Function.update_of_ne hne _ _⟩) ?_,
      hstate.served, .inr hactive, nofun⟩
    dsimp only
    rw [Function.update_self, hearlier]
    exact hcurrent.serverEnd (encodes_copyEnd_buffer earlier)
  · have hactive := hstate.active.resolve_left (by simp [hstage])
    refine ⟨fun session ↦ ?_, hactive, .inl rfl, nofun⟩
    rw [stageOf_close hstage]
    exact hstate.session session

/-- A step of a client keeps every session in order. -/
theorem Sound.clientStep (hstate : Sound setting state)
    (hstep : Sockets.clientStep setting.capacity (setting.client session) session state =
      some next) : Sound setting next := by
  obtain ⟨client, toServer, toClient, hsession, -, rfl⟩ :=
    clientStep_cases (hstate.session session) hstep
  refine ⟨fun other ↦ ?_, hstate.served, hstate.active, hstate.ending⟩
  change InSession _ _ (stageOf state other) _ _ _
  dsimp only
  rcases eq_or_ne other session with rfl | hne
  · simpa only [Function.update_self] using hsession
  · simpa only [Function.update_of_ne hne] using hstate.session other

/-- A step of the program keeps every session in order. -/
theorem Sound.step (hstate : Sound setting state) {event : Event}
    (hstep : (sessions setting).step state event = some next) : Sound setting next := by
  cases event with
  | server => exact hstate.serverStep hstep
  | client session =>
    change (if session < setting.clients then _ else none) = some next at hstep
    split_ifs at hstep
    exact hstate.clientStep hstep

/-- Every session of every run is in order. -/
theorem sound_of_reachable (hreach : (sessions setting).Reachable state) : Sound setting state := by
  refine System.Reachable.invariant (sound_initial setting) ?_ hreach
  intro state event next hstate hstep
  exact hstate.step hstep

end Apes.Sockets
