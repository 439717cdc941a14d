import Apes.Pipes.PipesTest
import Mathlib.Data.List.Infix

/-!
# Every message passes the pipes whole

The bytes in a pipe carry no boundary, so the frames stay apart only if every read takes exactly the
bytes of one message. `Balanced` is the invariant that says so: for each direction the messages of
the sender are those received, those in transit and those not yet sent, the pipe holds the frames of
the ones in transit, and what a process has still to do is to send its unsent messages and to read
the others' outstanding ones.

`move_cases` says what a step can do without a signal, and `Balanced.move` that it keeps the
invariant; the read is the case that needs the length of a frame to be the number of bytes asked
for. `Balanced.stuck` is the progress argument: the two processes open the pipes in the same order,
the capacity is enough for all of a direction, and a reader waits only for a message that is on its
way. `roundTrip` puts them together over runs.
-/

set_option autoImplicit false
set_option relaxedAutoImplicit false

namespace Apes.Pipes

open Library Ipc

/-! ### Frames -/

/-- The bytes of a list of messages. -/
def frames (messages : List Message) : List UInt8 := messages.flatMap frame

@[simp] theorem frames_nil : frames [] = [] := rfl

@[simp] theorem frames_cons (message : Message) (rest : List Message) :
    frames (message :: rest) = frame message ++ frames rest := List.flatMap_cons

@[simp] theorem frames_append (first second : List Message) :
    frames (first ++ second) = frames first ++ frames second := List.flatMap_append

/-- Receiving the frame of a message logs the message. -/
theorem received_receive_frame {message : Message} (hfits : message.Fits) (process : Process) :
    (process.receive message.kind (frame message)).received = process.received ++ [message] := by
  cases message with
  | command byte => rfl
  | text string =>
    change process.received ++ [Message.text _] = _
    rw [frame, CString.ofBuffer_padded_append hfits]

section Receive

variable (process : Process) (kind : Kind) (bytes : List UInt8)

@[simp] theorem opens_receive : (process.receive kind bytes).opens = process.opens := by
  cases kind <;> rfl

@[simp] theorem pending_receive : (process.receive kind bytes).pending = process.pending := by
  cases kind <;> rfl

@[simp] theorem exited_receive : (process.receive kind bytes).exited = process.exited := by
  cases kind <;> rfl

@[simp] theorem terminateSignal_receive :
    (process.receive kind bytes).terminateSignal = process.terminateSignal := by
  cases kind <;> rfl

end Receive

/-! ### What a step does -/

variable {capacity : ℕ} {party : Party} {state next : State}

@[simp] theorem peer_peer (party : Party) : party.peer.peer = party := by
  cases party <;> rfl

theorem outgoing_injective : Function.Injective outgoing := by
  intro first second hsame
  cases first <;> cases second <;> first | rfl | cases hsame

/-- What a step of a process can do when nobody has exited and no signal has come: it makes a call
or goes on with an `open`, it writes a message for which there is room, or it reads from a pipe that
is not empty. -/
theorem move_cases (hpeer : (state.process party.peer).exited = false)
    (hsignal : (state.process party).terminateSignal = false)
    (hmove : move capacity party state = some next) :
    (∃ opens called, next = state.set party { state.process party with
        opens := opens
        called := called } ∧ opens <:+ (state.process party).opens) ∨
    (∃ message rest, (state.process party).pending = .write message :: rest ∧
      next = ⟨Function.update state.content (outgoing party)
          (state.content (outgoing party) ++ frame message),
        Function.update state.process party
          { state.process party with pending := rest, called := false }⟩) ∨
    (∃ kind rest, (state.process party).pending = .read kind :: rest ∧
      state.content (incoming party) ≠ [] ∧
      next = ⟨Function.update state.content (incoming party)
          ((state.content (incoming party)).drop (frameSize kind)),
        Function.update state.process party
          ({ state.process party with pending := rest, called := false }.receive
            kind ((state.content (incoming party)).take (frameSize kind)))⟩) := by
  unfold move at hmove
  dsimp only at hmove
  split_ifs at hmove with hexited hdone hterminate hcalled
  · rw [hsignal] at hterminate
    cases hterminate
  · left
    exact ⟨(state.process party).opens, true, (Option.some.inj hmove).symm, List.suffix_rfl⟩
  · unfold finishCall at hmove
    split at hmove
    case h_1 pending fifo rest hopens =>
      left
      unfold openFifo at hmove
      split_ifs at hmove
      exact ⟨rest, false, (Option.some.inj hmove).symm, hopens ▸ List.suffix_cons fifo rest⟩
    case h_2 message rest hopens hpending =>
      right
      left
      unfold writeFifo at hmove
      dsimp only at hmove
      rw [if_neg (by simp [hpeer])] at hmove
      split_ifs at hmove
      exact ⟨message, rest, hpending, (Option.some.inj hmove).symm⟩
    case h_3 kind rest hopens hpending =>
      right
      right
      unfold readFifo at hmove
      dsimp only at hmove
      split at hmove
      · rw [if_neg (by simp [hpeer])] at hmove
        simp at hmove
      case h_2 byte others hcontent =>
        refine ⟨kind, rest, hpending, by simp [hcontent], ?_⟩
        rw [hcontent]
        exact (Option.some.inj hmove).symm
    case h_4 => simp at hmove

/-! ### The invariant -/

/-- A process with messages still to send and messages it still awaits, out of those expected. -/
structure Process.Accounts (process : Process) (unsent awaited expected : List Message) : Prop where
  opens : process.opens <:+ [.fifo1, .fifo2]
  running : process.exited = false
  signal : process.terminateSignal = false
  total : process.received ++ awaited = expected
  pending : process.pending = writes unsent ++ reads awaited

/-- Each process accounts for its messages, and a pipe holds the frames of the messages that its
reader awaits and its writer has sent. -/
structure Balanced (messages unsent awaited : Party → List Message) (state : State) : Prop where
  process : ∀ party,
    (state.process party).Accounts (unsent party) (awaited party) (messages party.peer)
  content : ∀ party, ∃ inTransit, awaited party.peer = inTransit ++ unsent party ∧
    state.content (outgoing party) = frames inTransit

variable {messages unsent awaited : Party → List Message}

/-- At the start everything is unsent. -/
theorem balanced_initial (messages : Party → List Message) (capacity : ℕ) (readCmd : Party → UInt8)
    (rxString : Party → List UInt8) :
    Balanced messages messages (fun party ↦ messages party.peer)
      (exchange messages capacity readCmd rxString).initial := by
  constructor
  · intro party
    exact ⟨List.suffix_rfl, rfl, rfl, rfl, rfl⟩
  · intro party
    exact ⟨[], by simp, rfl⟩

/-- Making a call and going on with an `open` keep the balance. -/
theorem Balanced.openFifo (hstate : Balanced messages unsent awaited state) {opens : List Fifo}
    (hopens : opens <:+ (state.process party).opens) (called : Bool) :
    Balanced messages unsent awaited (state.set party { state.process party with
      opens := opens
      called := called }) := by
  constructor
  · refine (Function.forall_update_iff state.process fun other process ↦
      process.Accounts (unsent other) (awaited other) (messages other.peer)).mpr ⟨?_, ?_⟩
    · have hparty := hstate.process party
      exact ⟨hopens.trans hparty.opens, hparty.running, hparty.signal, hparty.total, hparty.pending⟩
    · intro other _
      exact hstate.process other
  · exact hstate.content

/-- A write puts the first unsent message on its way. -/
theorem Balanced.writeFifo (hstate : Balanced messages unsent awaited state) {message : Message}
    {rest : List Transfer} (hpending : (state.process party).pending = .write message :: rest) :
    ∃ others, Balanced messages (Function.update unsent party others) awaited
      ⟨Function.update state.content (outgoing party)
          (state.content (outgoing party) ++ frame message),
        Function.update state.process party
          { state.process party with pending := rest, called := false }⟩ := by
  have hparty := hstate.process party
  have htransfers := hparty.pending.symm.trans hpending
  rcases hunsent : unsent party with _ | ⟨first, others⟩
  · rw [hunsent] at htransfers
    exact absurd htransfers (reads_ne_write_cons _ _ _)
  · rw [hunsent] at htransfers
    obtain ⟨hfirst, rfl⟩ := List.cons.inj htransfers
    obtain rfl := Transfer.write.inj hfirst
    refine ⟨others, ?_, ?_⟩
    · intro other
      rcases eq_or_ne other party with rfl | hne
      · simp only [Function.update_self]
        exact ⟨hparty.opens, hparty.running, hparty.signal, hparty.total, rfl⟩
      · simp only [Function.update_of_ne hne]
        exact hstate.process other
    · intro other
      obtain ⟨inTransit, hawaited, hcontent⟩ := hstate.content other
      dsimp only
      rcases eq_or_ne other party with rfl | hne
      · refine ⟨inTransit ++ [first], ?_, ?_⟩
        · rw [Function.update_self, hawaited, hunsent]
          simp
        · rw [Function.update_self, hcontent]
          simp
      · rw [Function.update_of_ne hne,
          Function.update_of_ne fun hsame ↦ hne (outgoing_injective hsame)]
        exact ⟨inTransit, hawaited, hcontent⟩

/-- A process that has sent everything accounts for the frame of the first message that it awaits.
Assumes: the message fits. -/
theorem Process.Accounts.receive {process : Process} {first : Message}
    {others expected : List Message} (haccounts : process.Accounts [] (first :: others) expected)
    (hfits : first.Fits) :
    ({ process with pending := reads others, called := false }.receive first.kind
      (frame first)).Accounts [] others expected := by
  refine ⟨?_, ?_, ?_, ?_, ?_⟩
  · rw [opens_receive]
    exact haccounts.opens
  · rw [exited_receive]
    exact haccounts.running
  · rw [terminateSignal_receive]
    exact haccounts.signal
  · rw [received_receive_frame hfits, ← haccounts.total, List.append_assoc]
    rfl
  · rw [pending_receive]
    rfl

/-- A read takes the frame of the first message awaited and logs that message. Assumes: the messages
fit into their slots. -/
theorem Balanced.readFifo (hstate : Balanced messages unsent awaited state)
    (hfits : ∀ party, ∀ message ∈ messages party, message.Fits) {kind : Kind}
    {rest : List Transfer} (hpending : (state.process party).pending = .read kind :: rest)
    (hcontent : state.content (incoming party) ≠ []) :
    ∃ others, Balanced messages unsent (Function.update awaited party others)
      ⟨Function.update state.content (incoming party)
          ((state.content (incoming party)).drop (frameSize kind)),
        Function.update state.process party
          ({ state.process party with pending := rest, called := false }.receive
            kind ((state.content (incoming party)).take (frameSize kind)))⟩ := by
  have hparty := hstate.process party
  have htransfers := hparty.pending.symm.trans hpending
  obtain ⟨inTransit, hawaited, hframes⟩ := hstate.content party.peer
  rw [peer_peer] at hawaited
  change state.content (incoming party) = frames inTransit at hframes
  rcases inTransit with _ | ⟨first, inTransit⟩
  · exact absurd hframes hcontent
  rcases hunsent : unsent party with _ | ⟨message, others⟩
  · rw [hunsent, hawaited] at htransfers
    obtain ⟨hkind, rfl⟩ := List.cons.inj htransfers
    obtain rfl := Transfer.read.inj hkind
    have hmem : first ∈ messages party.peer := by
      rw [← hparty.total, hawaited]
      simp
    have hlength := length_frame (hfits _ _ hmem)
    have htake : (state.content (incoming party)).take (frameSize first.kind) = frame first := by
      rw [hframes, frames_cons, ← hlength, List.take_left]
    have hdrop : (state.content (incoming party)).drop (frameSize first.kind) =
        frames inTransit := by
      rw [hframes, frames_cons, ← hlength, List.drop_left]
    rw [htake, hdrop]
    refine ⟨inTransit ++ unsent party.peer, ?_, ?_⟩
    · intro other
      rcases eq_or_ne other party with rfl | hne
      · simp only [Function.update_self]
        rw [hunsent, hawaited] at hparty
        rw [hunsent]
        exact hparty.receive (hfits _ _ hmem)
      · simp only [Function.update_of_ne hne]
        exact hstate.process other
    · intro other
      dsimp only
      rcases eq_or_ne other party.peer with rfl | hne
      · refine ⟨inTransit, ?_, ?_⟩
        · rw [peer_peer, Function.update_self]
        · exact Function.update_self _ _ _
      · obtain ⟨sent, hsent, hbytes⟩ := hstate.content other
        have hpeer : other.peer ≠ party := fun hsame ↦ hne (hsame ▸ (peer_peer other).symm)
        refine ⟨sent, ?_, ?_⟩
        · rw [Function.update_of_ne hpeer, hsent]
        · rw [incoming, Function.update_of_ne fun hsame ↦ hne (outgoing_injective hsame), hbytes]
  · rw [hunsent] at htransfers
    cases htransfers

/-- Every step keeps the balance. -/
theorem Balanced.move (hstate : Balanced messages unsent awaited state)
    (hfits : ∀ party, ∀ message ∈ messages party, message.Fits)
    (hmove : move capacity party state = some next) :
    ∃ unsent awaited, Balanced messages unsent awaited next := by
  rcases move_cases (hstate.process party.peer).running (hstate.process party).signal hmove with
    ⟨opens, called, rfl, hopens⟩ | ⟨message, rest, hpending, rfl⟩ |
    ⟨kind, rest, hpending, hcontent, rfl⟩
  · exact ⟨_, _, hstate.openFifo hopens called⟩
  · obtain ⟨others, hnext⟩ := hstate.writeFifo hpending
    exact ⟨_, _, hnext⟩
  · obtain ⟨others, hnext⟩ := hstate.readFifo hfits hpending hcontent
    exact ⟨_, _, hnext⟩

/-! ### Progress -/

/-- Of two ends of the sequence of pipes, neither of which starts before the other, both start at
the same pipe. -/
theorem head_eq_of_suffix {first second : List Fifo} (hfirst : first <:+ [.fifo1, .fifo2])
    (hsecond : second <:+ [.fifo1, .fifo2]) {fifo other : Fifo} (hfifo : first.head? = some fifo)
    (hother : second.head? = some other) (hmem : fifo ∈ second) (hotherMem : other ∈ first) :
    fifo = other := by
  rw [List.suffix_cons_iff, List.suffix_cons_iff, List.suffix_nil] at hfirst hsecond
  rcases hfirst with rfl | rfl | rfl <;> rcases hsecond with rfl | rfl | rfl <;> simp_all

/-- A process that cannot take a step and has a call to make is in it, and it cannot return. -/
theorem called_of_stuck (hrunning : (state.process party).exited = false)
    (hleft : ¬ (state.process party).Done) (hstuck : move capacity party state = none) :
    (state.process party).called = true ∧ finishCall capacity party state = none := by
  unfold move at hstuck
  dsimp only at hstuck
  rw [if_neg (by simp [hrunning]), if_neg hleft] at hstuck
  split_ifs at hstuck with hcalled
  exact ⟨by simpa using hcalled, hstuck⟩

/-- A process that cannot take a step in its `open` waits for the other end of the same pipe, which
the other process has not begun to open. -/
theorem not_called_of_stuck (hrunning : (state.process party).exited = false) {fifo : Fifo}
    {rest : List Fifo} (hopens : (state.process party).opens = fifo :: rest)
    (hstuck : move capacity party state = none) :
    (state.process party).called = true ∧
      ¬ (state.process party.peer).HasCalledOpen fifo := by
  have hleft : ¬ (state.process party).Done := fun hdone ↦ by simp [hdone.1] at hopens
  obtain ⟨hcalled, hfinish⟩ := called_of_stuck hrunning hleft hstuck
  refine ⟨hcalled, ?_⟩
  unfold finishCall at hfinish
  rw [hopens] at hfinish
  dsimp only at hfinish
  unfold openFifo at hfinish
  split_ifs at hfinish with hother
  exact hother

/-- A process that has opened its pipes and has a transfer to do has a call to make. -/
theorem not_done_of_pending {process : Process} {transfer : Transfer} {rest : List Transfer}
    (hpending : process.pending = transfer :: rest) : ¬ process.Done :=
  fun hdone ↦ by simp [hdone.2] at hpending

/-- A write for which there is room can be taken. -/
theorem move_write (hrunning : (state.process party).exited = false)
    (hpeer : (state.process party.peer).exited = false)
    (hopens : (state.process party).opens = []) {message : Message} {rest : List Transfer}
    (hpending : (state.process party).pending = .write message :: rest)
    (hroom : (state.content (outgoing party)).length + (frame message).length ≤ capacity) :
    move capacity party state ≠ none := by
  intro hstuck
  obtain ⟨-, hfinish⟩ := called_of_stuck hrunning (not_done_of_pending hpending) hstuck
  unfold finishCall at hfinish
  rw [hopens, hpending] at hfinish
  dsimp only at hfinish
  unfold writeFifo at hfinish
  dsimp only at hfinish
  rw [if_neg (by simp [hpeer]), if_pos hroom] at hfinish
  simp at hfinish

/-- A read from a pipe that is not empty can be taken. -/
theorem move_read (hrunning : (state.process party).exited = false)
    (hopens : (state.process party).opens = []) {kind : Kind} {rest : List Transfer}
    (hpending : (state.process party).pending = .read kind :: rest)
    (hcontent : state.content (incoming party) ≠ []) : move capacity party state ≠ none := by
  intro hstuck
  obtain ⟨byte, others, hbytes⟩ := List.exists_cons_of_ne_nil hcontent
  obtain ⟨-, hfinish⟩ := called_of_stuck hrunning (not_done_of_pending hpending) hstuck
  unfold finishCall at hfinish
  rw [hopens, hpending] at hfinish
  dsimp only at hfinish
  unfold readFifo at hfinish
  dsimp only at hfinish
  rw [hbytes] at hfinish
  simp at hfinish

/-- When neither process can take a step both have opened their pipes: they open them in the same
order, so the one that is behind is not waiting for the other. -/
theorem Balanced.opened_of_stuck (hstate : Balanced messages unsent awaited state)
    (hstuck : ∀ party, Pipes.move capacity party state = none) (party : Party) :
    (state.process party).opens = [] := by
  by_contra hopening
  obtain ⟨fifo, rest, hopens⟩ := List.exists_cons_of_ne_nil hopening
  obtain ⟨hcalled, hother⟩ :=
    not_called_of_stuck (hstate.process party).running hopens (hstuck party)
  obtain ⟨hmem, hhead⟩ := not_or.mp hother
  obtain ⟨otherFifo, otherRest, hotherOpens⟩ :=
    List.exists_cons_of_ne_nil (List.ne_nil_of_mem (not_not.mp hmem))
  obtain ⟨hotherCalled, hown⟩ :=
    not_called_of_stuck (hstate.process party.peer).running hotherOpens (hstuck party.peer)
  rw [peer_peer] at hown
  have hotherHead : (state.process party.peer).opens.head? = some otherFifo := by
    rw [hotherOpens]
    rfl
  have hsame : fifo = otherFifo :=
    head_eq_of_suffix (hstate.process party).opens (hstate.process party.peer).opens
      (by rw [hopens]; rfl) hotherHead (not_not.mp hmem) (not_not.mp (not_or.mp hown).1)
  exact hhead ⟨hsame ▸ hotherHead, hotherCalled⟩

/-- When neither process can take a step every message has been sent. Assumes: the capacity is
enough for the messages of each side. -/
theorem Balanced.sent_of_stuck (hstate : Balanced messages unsent awaited state)
    (hcapacity : ∀ party, (frames (messages party)).length ≤ capacity)
    (hstuck : ∀ party, Pipes.move capacity party state = none) (party : Party) :
    unsent party = [] := by
  by_contra hunsent
  obtain ⟨first, others, hfirst⟩ := List.exists_cons_of_ne_nil hunsent
  have hparty := hstate.process party
  have hpeer := hstate.process party.peer
  have hpending := hparty.pending
  rw [hfirst] at hpending
  obtain ⟨inTransit, hawaited, hcontent⟩ := hstate.content party
  refine move_write hparty.running hpeer.running (hstate.opened_of_stuck hstuck party) hpending ?_
    (hstuck party)
  calc (state.content (outgoing party)).length + (frame first).length
      ≤ (frames ((state.process party.peer).received ++ awaited party.peer)).length := by
        rw [hcontent, hawaited, hfirst]
        simp only [frames_append, frames_cons, List.length_append]
        omega
    _ = (frames (messages party)).length := by rw [hpeer.total, peer_peer]
    _ ≤ capacity := hcapacity party

/-- When neither process can take a step every message has been received. -/
theorem Balanced.received_of_stuck (hstate : Balanced messages unsent awaited state)
    (hfits : ∀ party, ∀ message ∈ messages party, message.Fits)
    (hcapacity : ∀ party, (frames (messages party)).length ≤ capacity)
    (hstuck : ∀ party, Pipes.move capacity party state = none) (party : Party) :
    (state.process party).received = messages party.peer := by
  have hsent := hstate.sent_of_stuck hcapacity hstuck
  have hparty := hstate.process party
  rcases hawaited : awaited party with _ | ⟨first, others⟩
  · have htotal := hparty.total
    rwa [hawaited, List.append_nil] at htotal
  · obtain ⟨inTransit, hinTransit, hcontent⟩ := hstate.content party.peer
    rw [peer_peer, hsent party.peer, List.append_nil, hawaited] at hinTransit
    have hpending := hparty.pending
    rw [hsent party, hawaited] at hpending
    have hmem : first ∈ messages party.peer := by
      rw [← hparty.total, hawaited]
      simp
    have harrived : state.content (incoming party) ≠ [] := by
      have hlength := length_frame (hfits _ _ hmem)
      have hpos := frameSize_pos first.kind
      change state.content (outgoing party.peer) ≠ []
      rw [hcontent, ← hinTransit, frames_cons]
      apply List.append_ne_nil_of_left_ne_nil
      exact List.ne_nil_of_length_pos (by omega)
    exact absurd (hstuck party)
      (move_read hparty.running (hstate.opened_of_stuck hstuck party) hpending harrived)

/-! ### Runs -/

/-- Every state reached without a signal is balanced. -/
theorem balanced_of_reachable {readCmd : Party → UInt8} {rxString : Party → List UInt8}
    (hfits : ∀ party, ∀ message ∈ messages party, message.Fits)
    (hreach : (exchange messages capacity readCmd rxString).ReachableUnder Unsignalled state) :
    ∃ unsent awaited, Balanced messages unsent awaited state := by
  refine System.ReachableUnder.invariant ?_ ?_ hreach
  · exact ⟨_, _, balanced_initial messages capacity readCmd rxString⟩
  · rintro state event next ⟨unsent, awaited, hstate⟩ hunsignalled hstep
    cases event with
    | step party => exact hstate.move hfits hstep
    | sigint party => exact hunsignalled.elim

/-- **The exchange over pipes is a round trip.** For every two lists of commands and of strings, in
every state of every schedule without a signal: what a process has logged as received is a prefix of
what the other one sends, and all of it when the process has no transfer left; a pipe holds whole
frames, those of the next messages of its reader; and when neither process can take a step both have
received everything. Assumes: the capacity is enough for the bytes of each side. -/
theorem exchange_roundTrip (commands : Party → List UInt8) (texts : Party → List Text)
    (capacity : ℕ) (readCmd : Party → UInt8) (rxString : Party → List UInt8)
    (hcapacity : ∀ party,
      (frames (transmission (commands party) (texts party))).length ≤ capacity)
    {state : State}
    (hreach : (exchange (fun party ↦ transmission (commands party) (texts party)) capacity readCmd
      rxString).ReachableUnder Unsignalled state) :
    (∀ party, (state.process party).received <+:
        transmission (commands party.peer) (texts party.peer)) ∧
      (∀ party, (state.process party).pending = [] → (state.process party).received =
        transmission (commands party.peer) (texts party.peer)) ∧
      (∀ party, ∃ inTransit, state.content (incoming party) = frames inTransit ∧
        (state.process party).received ++ inTransit <+:
          transmission (commands party.peer) (texts party.peer)) ∧
      ((∀ party, move capacity party state = none) → ∀ party, (state.process party).received =
        transmission (commands party.peer) (texts party.peer)) := by
  obtain ⟨unsent, awaited, hstate⟩ :=
    balanced_of_reachable (fun party message ↦ fits_of_mem_transmission) hreach
  refine ⟨?_, ?_, ?_, ?_⟩
  · intro party
    exact ⟨awaited party, (hstate.process party).total⟩
  · intro party hdone
    have hpending := (hstate.process party).pending
    rw [hdone] at hpending
    have hawaited : awaited party = [] :=
      List.map_eq_nil_iff.mp (List.append_eq_nil_iff.mp hpending.symm).2
    have htotal := (hstate.process party).total
    rwa [hawaited, List.append_nil] at htotal
  · intro party
    obtain ⟨inTransit, hawaited, hcontent⟩ := hstate.content party.peer
    rw [peer_peer] at hawaited
    refine ⟨inTransit, hcontent, unsent party.peer, ?_⟩
    rw [List.append_assoc, ← hawaited]
    exact (hstate.process party).total
  · intro hstuck
    exact hstate.received_of_stuck (fun party message ↦ fits_of_mem_transmission) hcapacity hstuck

/-- The exchange of the messages of the program over pipes of 65536 bytes, each side sending
everything before either reads. -/
theorem exchange_roundTrip_program :
    ∃ state, (exchange (fun party ↦ transmission commands (tx party)) 65536 (fun _ ↦ 0)
        (fun _ ↦ List.replicate 20 255)).ReachableUnder Unsignalled state ∧
      (state.process .parent).received = transmission commands txChild ∧
      (state.process .child).received = transmission commands txParent := by
  have hrun : (((exchange (fun party ↦ transmission commands (tx party)) 65536 (fun _ ↦ 0)
        (fun _ ↦ List.replicate 20 255)).restrict Unsignalled).run
        (exchange (fun party ↦ transmission commands (tx party)) 65536 (fun _ ↦ 0)
          (fun _ ↦ List.replicate 20 255)).initial
        ((List.replicate 4 [Event.step .parent, Event.step .child]).flatten ++
          (List.replicate 20 (Event.step .parent) ++ List.replicate 20 (Event.step .child)) ++
          (List.replicate 20 (Event.step .parent) ++ List.replicate 20 (Event.step .child)))).any
      (fun state ↦ (state.process .parent).pending = [] ∧ (state.process .child).pending = []) =
        true := by
    decide +kernel
  obtain ⟨state, hstate, hfinal⟩ := (Option.any_eq_true _ _).mp hrun
  obtain ⟨hparent, hchild⟩ := of_decide_eq_true hfinal
  have hreach := System.reachableUnder_of_run hstate
  have hcapacity : ∀ party, (frames (transmission commands (tx party))).length ≤ 65536 := by
    intro party
    cases party <;> decide
  obtain ⟨-, hall, -, -⟩ := exchange_roundTrip _ _ _ _ _ hcapacity hreach
  exact ⟨state, hreach, hall .parent hparent, hall .child hchild⟩

end Apes.Pipes
