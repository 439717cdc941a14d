import Apes.Pipes.RoundTrip

/-!
# SIGINT during the exchange over pipes

The handler of `SIGINT` sets `terminateSignal`, which is looked at after the last transfer, so the
exchange goes on after a signal. A `read` that is blocked on an empty FIFO returns when the handler
has run, though, with its buffer as it was, and the program logs the buffer and goes on to the next
`read`: the commands after it each arrive one `read` late, and the `read`s of the strings start one
byte early, at the last command. `interrupted_read_not_received` is such a schedule.

A state with signals is compared with the state without them (`unsignalled`): as long as no process
is interrupted while it is blocked in a transfer, every step is one of the exchange without signals,
or the end of a process, which the exchange without signals does not see
(`Balanced.unsignalled_move`). That a process which has ended disturbs nobody is part of it: it has
sent and received everything, so the other one writes no more and reads only what is in the FIFO.
`received_of_sparesTransfers` draws the conclusion from the invariant of the exchange without
signals.
-/

set_option autoImplicit false
set_option relaxedAutoImplicit false

namespace Apes.Pipes

open Library Ipc

variable {capacity : ℕ} {party : Party} {state next : State}

/-- A signal is not delivered to a process that is blocked in a transfer. -/
def SparesTransfers (capacity : ℕ) (state : State) (event : Event) : Prop :=
  ∀ party, event = .sigint party → ¬ BlockedInTransfer capacity state party

instance (capacity : ℕ) (state : State) (event : Event) :
    Decidable (SparesTransfers capacity state event) :=
  match event with
  | .step _ => .isTrue fun _ hevent ↦ absurd hevent (by simp)
  | .sigint party => decidable_of_iff (¬ BlockedInTransfer capacity state party)
      ⟨fun hspared _ hevent ↦ Event.sigint.inj hevent ▸ hspared, fun hspares ↦ hspares party rfl⟩

/-- **An interrupted read is logged.** The child has sent its messages and read the first command of
the parent; interrupted when it is blocked in its next read, it logs that command once more. -/
theorem interrupted_read_not_received : ¬ ∀ events before state, before <+: events →
    (exchange (fun party ↦ transmission commands (tx party)) 65536 (fun _ ↦ 0)
        (fun _ ↦ List.replicate 20 255)).run
      (exchange (fun party ↦ transmission commands (tx party)) 65536 (fun _ ↦ 0)
        (fun _ ↦ List.replicate 20 255)).initial before = some state →
    ∀ party, (state.process party).received <+: transmission commands (tx party.peer) := by
  intro hreceived
  have hrun : ((exchange (fun party ↦ transmission commands (tx party)) 65536 (fun _ ↦ 0)
        (fun _ ↦ List.replicate 20 255)).run
      (exchange (fun party ↦ transmission commands (tx party)) 65536 (fun _ ↦ 0)
        (fun _ ↦ List.replicate 20 255)).initial
      ((List.replicate 4 [Event.step .parent, Event.step .child]).flatten ++
        List.replicate 20 (Event.step .child) ++ List.replicate 2 (Event.step .parent) ++
        List.replicate 3 (Event.step .child) ++ [Event.sigint .child])).any
      (fun state ↦ ¬ (state.process .child).received <+: transmission commands txParent) =
        true := by
    decide +kernel
  obtain ⟨state, hstate, hrepeated⟩ := (Option.any_eq_true _ _).mp hrun
  exact of_decide_eq_true hrepeated (hreceived _ _ state List.prefix_rfl hstate .child)

/-! ### The state without the signals -/

/-- A process without what the signals have done to it. -/
def Process.unsignalled (process : Process) : Process :=
  { process with
    terminateSignal := false
    exited := false }

/-- The state without what the signals have done to the processes. -/
def unsignalled (state : State) : State :=
  { state with process := fun party ↦ (state.process party).unsignalled }

/-- A process that has ended has done its transfers. -/
def EndsDone (state : State) : Prop :=
  ∀ party, (state.process party).exited = true → (state.process party).Done

@[simp] theorem process_unsignalled (state : State) (party : Party) :
    (unsignalled state).process party = (state.process party).unsignalled := rfl

@[simp] theorem content_unsignalled (state : State) :
    (unsignalled state).content = state.content := rfl

/-- Receiving has nothing to do with the signals. -/
theorem unsignalled_receive (process : Process) (kind : Kind) (bytes : List UInt8) :
    (process.receive kind bytes).unsignalled = process.unsignalled.receive kind bytes := by
  cases kind <;> rfl

/-- Replacing a process. -/
theorem unsignalled_update (content : Fifo → List UInt8) (state : State) (party : Party)
    (process : Process) :
    unsignalled ⟨content, Function.update state.process party process⟩ =
      ⟨content, Function.update (unsignalled state).process party process.unsignalled⟩ := by
  unfold unsignalled
  congr 1
  ext other : 1
  dsimp only
  by_cases hother : other = party
  · subst hother
    rw [Function.update_self, Function.update_self]
  · rw [Function.update_of_ne hother, Function.update_of_ne hother]

/-- Replacing a process by one that differs only in what signals do. -/
theorem unsignalled_set_of_eq {process : Process}
    (hsame : process.unsignalled = (state.process party).unsignalled) :
    unsignalled (state.set party process) = unsignalled state := by
  unfold State.set
  rw [unsignalled_update, hsame]
  unfold unsignalled
  congr 1
  exact Function.update_eq_self _ _

/-! ### The step of a process in each of its calls -/

theorem finishCall_eq_openFifo {fifo : Fifo} {rest : List Fifo}
    (hopens : (state.process party).opens = fifo :: rest) :
    finishCall capacity party state = openFifo party fifo rest state := by
  unfold finishCall
  rw [hopens]

theorem finishCall_eq_writeFifo {message : Message} {rest : List Transfer}
    (hopens : (state.process party).opens = [])
    (hpending : (state.process party).pending = .write message :: rest) :
    finishCall capacity party state = writeFifo capacity party message rest state := by
  unfold finishCall
  rw [hopens, hpending]

theorem finishCall_eq_readFifo {kind : Kind} {rest : List Transfer}
    (hopens : (state.process party).opens = [])
    (hpending : (state.process party).pending = .read kind :: rest) :
    finishCall capacity party state = readFifo party kind rest state := by
  unfold finishCall
  rw [hopens, hpending]

theorem finishCall_of_done (hdone : (state.process party).Done) :
    finishCall capacity party state = none := by
  unfold finishCall
  rw [hdone.1, hdone.2]

/-- The step of a process with a call to make. -/
theorem move_of_not_done (hrunning : (state.process party).exited = false)
    (hleft : ¬ (state.process party).Done) :
    move capacity party state = if (state.process party).called = false then
      some (enterCall party state) else finishCall capacity party state := by
  unfold move
  dsimp only
  rw [if_neg (by simp [hrunning]), if_neg hleft]

/-- A process that has ended takes no step. -/
theorem running_of_move (hmove : move capacity party state = some next) :
    (state.process party).exited = false := by
  unfold move at hmove
  dsimp only at hmove
  by_contra hexited
  rw [if_pos (by simpa using hexited)] at hmove
  simp at hmove

/-- Replacing a process by one that has not ended keeps what holds of the ends. -/
theorem EndsDone.update (hends : EndsDone state) {process : Process}
    (hprocess : process.exited = true → process.Done)
    (content : Fifo → List UInt8) :
    EndsDone ⟨content, Function.update state.process party process⟩ := by
  intro other hexited
  dsimp only at hexited ⊢
  by_cases hother : other = party
  · subst hother
    rw [Function.update_self] at hexited ⊢
    exact hprocess hexited
  · rw [Function.update_of_ne hother] at hexited ⊢
    exact hends other hexited

variable {messages unsent awaited : Party → List Message}

/-- What a process that has ended has sent and received. Assumes: the balance without the
signals. -/
theorem Balanced.done (hstate : Balanced messages unsent awaited (unsignalled state))
    (hdone : (state.process party).pending = []) : unsent party = [] ∧ awaited party = [] := by
  have hpending := (hstate.process party).pending
  change (state.process party).pending = _ at hpending
  rw [hdone] at hpending
  obtain ⟨hwrites, hreads⟩ := List.append_eq_nil_iff.mp hpending.symm
  exact ⟨List.map_eq_nil_iff.mp hwrites, List.map_eq_nil_iff.mp hreads⟩

/-- A process does not write when the other one has ended. -/
theorem Balanced.not_write (hstate : Balanced messages unsent awaited (unsignalled state))
    (hpeer : (state.process party.peer).pending = []) {message : Message} {rest : List Transfer} :
    (state.process party).pending ≠ .write message :: rest := by
  intro hwrite
  obtain ⟨-, hawaited⟩ := hstate.done hpeer
  obtain ⟨inTransit, hinTransit, -⟩ := hstate.content party
  rw [hawaited] at hinTransit
  have hpending := (hstate.process party).pending
  change (state.process party).pending = _ at hpending
  rw [hwrite, (List.append_eq_nil_iff.mp hinTransit.symm).2] at hpending
  exact reads_ne_write_cons _ _ _ hpending.symm

/-- A process does not read from an empty FIFO when the other one has ended. Assumes: the messages
fit into their slots. -/
theorem Balanced.content_ne_nil (hstate : Balanced messages unsent awaited (unsignalled state))
    (hfits : ∀ party, ∀ message ∈ messages party, message.Fits)
    (hpeer : (state.process party.peer).pending = []) {kind : Kind} {rest : List Transfer}
    (hread : (state.process party).pending = .read kind :: rest) :
    state.content (incoming party) ≠ [] := by
  intro hempty
  obtain ⟨hunsent, -⟩ := hstate.done hpeer
  obtain ⟨inTransit, hinTransit, hcontent⟩ := hstate.content party.peer
  rw [peer_peer, hunsent, List.append_nil] at hinTransit
  change state.content (incoming party) = frames inTransit at hcontent
  have htotal := (hstate.process party).total
  rw [hinTransit] at htotal
  rcases inTransit with _ | ⟨first, others⟩
  · have hpending := (hstate.process party).pending
    change (state.process party).pending = _ at hpending
    rw [hread, hinTransit] at hpending
    change _ = writes _ ++ [] at hpending
    rw [List.append_nil] at hpending
    exact writes_ne_read_cons _ _ _ hpending.symm
  · have hmem : first ∈ messages party.peer := by
      rw [← htotal]
      simp
    have hlength := length_frame (hfits _ _ hmem)
    have hpos := frameSize_pos first.kind
    rw [hempty, frames_cons] at hcontent
    have hframe := (List.append_eq_nil_iff.mp hcontent.symm).1
    rw [hframe, List.length_nil] at hlength
    omega

/-! ### The steps -/

/-- A process that goes on running keeps what holds of the ends. -/
theorem EndsDone.running (hends : EndsDone state) {process : Process}
    (hrunning : process.exited = false) (content : Fifo → List UInt8) :
    EndsDone ⟨content, Function.update state.process party process⟩ := by
  refine hends.update ?_ content
  intro hexited
  rw [hrunning] at hexited
  cases hexited

section Calls

variable (hrunning : (state.process party).exited = false)

include hrunning

/-- An `open` does not look at the signals. -/
theorem unsignalled_openFifo (hends : EndsDone state) {fifo : Fifo} {rest : List Fifo}
    (hstep : openFifo party fifo rest state = some next) :
    EndsDone next ∧ openFifo party fifo rest (unsignalled state) = some (unsignalled next) := by
  unfold openFifo State.set at hstep ⊢
  split_ifs at hstep with hcalled
  cases hstep
  refine ⟨hends.running ?_ _, ?_⟩
  · exact hrunning
  · rw [unsignalled_update]
    exact if_pos hcalled

/-- A `write` does not look at the signals while the other process is running. -/
theorem unsignalled_writeFifo (hends : EndsDone state) {message : Message} {rest : List Transfer}
    (hpeer : (state.process party.peer).exited = false)
    (hstep : writeFifo capacity party message rest state = some next) :
    EndsDone next ∧
      writeFifo capacity party message rest (unsignalled state) = some (unsignalled next) := by
  unfold writeFifo at hstep ⊢
  dsimp only at hstep ⊢
  rw [if_neg (by simp [hpeer])] at hstep
  split_ifs at hstep with hroom
  cases hstep
  refine ⟨hends.running ?_ _, ?_⟩
  · exact hrunning
  · rw [unsignalled_update]
    exact (if_neg (by simp [Process.unsignalled])).trans (if_pos hroom)

/-- A `read` of something does not look at the signals. -/
theorem unsignalled_readFifo (hends : EndsDone state) {kind : Kind} {rest : List Transfer}
    (hcontent : state.content (incoming party) ≠ [])
    (hstep : readFifo party kind rest state = some next) :
    EndsDone next ∧ readFifo party kind rest (unsignalled state) = some (unsignalled next) := by
  unfold readFifo at hstep ⊢
  dsimp only at hstep ⊢
  rcases hbytes : state.content (incoming party) with _ | ⟨byte, others⟩
  · exact absurd hbytes hcontent
  · rw [hbytes] at hstep
    cases hstep
    refine ⟨hends.running ?_ _, ?_⟩
    · rw [exited_receive]
      exact hrunning
    · rw [unsignalled_update, unsignalled_receive, content_unsignalled, hbytes]
      rfl

end Calls

/-- The return from a call is one of the exchange without signals. Assumes: the balance without the
signals, and that the messages fit into their slots. -/
theorem Balanced.unsignalled_finishCall
    (hstate : Balanced messages unsent awaited (unsignalled state)) (hends : EndsDone state)
    (hfits : ∀ party, ∀ message ∈ messages party, message.Fits)
    (hrunning : (state.process party).exited = false)
    (hfinish : finishCall capacity party state = some next) :
    EndsDone next ∧ finishCall capacity party (unsignalled state) = some (unsignalled next) := by
  rcases hopens : (state.process party).opens with _ | ⟨fifo, rest⟩
  · rcases hpending : (state.process party).pending with _ | ⟨message | kind, rest⟩
    · rw [finishCall_of_done ⟨hopens, hpending⟩] at hfinish
      cases hfinish
    · have hpeer : (state.process party.peer).exited = false := by
        by_contra hexited
        exact hstate.not_write (hends party.peer (by simpa using hexited)).2 hpending
      rw [finishCall_eq_writeFifo hopens hpending] at hfinish
      obtain ⟨hnext, hother⟩ := unsignalled_writeFifo hrunning hends hpeer hfinish
      exact ⟨hnext, Eq.trans (finishCall_eq_writeFifo hopens hpending) hother⟩
    · have hcontent : state.content (incoming party) ≠ [] := by
        intro hempty
        rw [finishCall_eq_readFifo hopens hpending] at hfinish
        unfold Pipes.readFifo at hfinish
        dsimp only at hfinish
        rw [hempty] at hfinish
        dsimp only at hfinish
        split_ifs at hfinish with hexited
        exact hstate.content_ne_nil hfits (hends party.peer hexited).2 hpending hempty
      rw [finishCall_eq_readFifo hopens hpending] at hfinish
      obtain ⟨hnext, hother⟩ := unsignalled_readFifo hrunning hends hcontent hfinish
      exact ⟨hnext, Eq.trans (finishCall_eq_readFifo hopens hpending) hother⟩
  · rw [finishCall_eq_openFifo hopens] at hfinish
    obtain ⟨hnext, hother⟩ := unsignalled_openFifo hrunning hends hfinish
    exact ⟨hnext, Eq.trans (finishCall_eq_openFifo hopens) hother⟩

/-- A step of a process is one of the exchange without signals, or the end of the process. Assumes:
the balance without the signals, and that the messages fit into their slots. -/
theorem Balanced.unsignalled_move
    (hstate : Balanced messages unsent awaited (unsignalled state)) (hends : EndsDone state)
    (hfits : ∀ party, ∀ message ∈ messages party, message.Fits)
    (hmove : Pipes.move capacity party state = some next) :
    EndsDone next ∧ (unsignalled next = unsignalled state ∨
      Pipes.move capacity party (unsignalled state) = some (unsignalled next)) := by
  have hrunning := running_of_move hmove
  by_cases hdone : (state.process party).Done
  · unfold Pipes.move at hmove
    dsimp only at hmove
    rw [if_neg (by simp [hrunning]), if_pos hdone] at hmove
    split_ifs at hmove
    cases hmove
    refine ⟨hends.update ?_ _, .inl (unsignalled_set_of_eq rfl)⟩
    exact fun _ ↦ hdone
  · have hother : Pipes.move capacity party (unsignalled state) =
        if (state.process party).called = false then some (enterCall party (unsignalled state))
        else finishCall capacity party (unsignalled state) := move_of_not_done rfl hdone
    rw [move_of_not_done hrunning hdone] at hmove
    rw [hother]
    split_ifs at hmove ⊢ with hcalled
    · cases hmove
      refine ⟨hends.running ?_ _, .inr ?_⟩
      · exact hrunning
      · unfold enterCall State.set
        rw [unsignalled_update]
        rfl
    · exact (hstate.unsignalled_finishCall hends hfits hrunning hmove).imp_right .inr

/-- A signal to a process that is not blocked in a transfer sets `terminateSignal`. -/
theorem unsignalled_interrupt (hends : EndsDone state)
    (hblocked : ¬ BlockedInTransfer capacity state party)
    (hstep : interrupt capacity party state = some next) :
    EndsDone next ∧ unsignalled next = unsignalled state := by
  unfold interrupt at hstep
  dsimp only at hstep
  split_ifs at hstep
  cases hstep
  constructor
  · refine hends.update ?_ _
    exact hends party
  · exact unsignalled_set_of_eq rfl

/-! ### Runs with signals -/

variable {readCmd : Party → UInt8} {rxString : Party → List UInt8}

/-- A state reached without interrupting a transfer is, without its signals, one that the exchange
reaches without signals. -/
theorem unsignalled_of_reachable (hfits : ∀ party, ∀ message ∈ messages party, message.Fits)
    (hreach : (exchange messages capacity readCmd rxString).ReachableUnder
      (SparesTransfers capacity) state) :
    EndsDone state ∧ (exchange messages capacity readCmd rxString).ReachableUnder Unsignalled
      (unsignalled state) := by
  refine hreach.simulate unsignalled ?_ rfl ?_
  · intro party hexited
    cases hexited
  · intro state event next hends hother hspares hstep
    obtain ⟨unsent, awaited, hstate⟩ := balanced_of_reachable hfits hother
    cases event with
    | step party =>
      obtain ⟨hnext, hsame⟩ := hstate.unsignalled_move hends hfits hstep
      refine ⟨hnext, hsame.imp_right fun hmatch ↦ ⟨.step party, trivial, hmatch⟩⟩
    | sigint party =>
      obtain ⟨hnext, hsame⟩ := unsignalled_interrupt hends (hspares party rfl) hstep
      exact ⟨hnext, .inl hsame⟩

/-- **Signals that interrupt no transfer leave the exchange alone.** For every two lists of commands
and of strings, in every state of every schedule in which no signal is delivered to a process that
is blocked in a transfer: what a process has logged as received is a prefix of what the other one
sends, and all of it when the process has no transfer left, and so when it has ended. -/
theorem received_of_sparesTransfers (commands : Party → List UInt8) (texts : Party → List Text)
    (capacity : ℕ) (readCmd : Party → UInt8) (rxString : Party → List UInt8) {state : State}
    (hreach : (exchange (fun party ↦ transmission (commands party) (texts party)) capacity readCmd
      rxString).ReachableUnder (SparesTransfers capacity) state) (party : Party) :
    (state.process party).received <+: transmission (commands party.peer) (texts party.peer) ∧
      ((state.process party).pending = [] ∨ (state.process party).exited = true →
        (state.process party).received =
          transmission (commands party.peer) (texts party.peer)) := by
  have hfits : ∀ party, ∀ message ∈ transmission (commands party) (texts party), message.Fits :=
    fun party message ↦ fits_of_mem_transmission
  obtain ⟨hends, hother⟩ := unsignalled_of_reachable hfits hreach
  obtain ⟨unsent, awaited, hstate⟩ := balanced_of_reachable hfits hother
  have htotal := (hstate.process party).total
  change (state.process party).received ++ awaited party = _ at htotal
  refine ⟨⟨awaited party, htotal⟩, ?_⟩
  intro hended
  have hdone : (state.process party).pending = [] := by
    rcases hended with hdone | hexited
    · exact hdone
    · exact (hends party hexited).2
  rwa [(hstate.done hdone).2, List.append_nil] at htotal

/-- The exchange of the messages of the program with a signal to each process before its first read,
up to the end of both. -/
theorem received_of_sparesTransfers_program :
    ∃ state, (exchange (fun party ↦ transmission commands (tx party)) 65536 (fun _ ↦ 0)
        (fun _ ↦ List.replicate 20 255)).ReachableUnder (SparesTransfers 65536) state ∧
      (state.process .parent).received = transmission commands txChild ∧
      (state.process .child).received = transmission commands txParent := by
  have hrun : (((exchange (fun party ↦ transmission commands (tx party)) 65536 (fun _ ↦ 0)
        (fun _ ↦ List.replicate 20 255)).restrict (SparesTransfers 65536)).run
        (exchange (fun party ↦ transmission commands (tx party)) 65536 (fun _ ↦ 0)
          (fun _ ↦ List.replicate 20 255)).initial
        ((List.replicate 4 [Event.step .parent, Event.step .child]).flatten ++
          (List.replicate 20 (Event.step .parent) ++ List.replicate 20 (Event.step .child)) ++
          [Event.sigint .parent, Event.sigint .child] ++
          (List.replicate 21 (Event.step .parent) ++ List.replicate 21 (Event.step .child)))).any
      (fun state ↦ (state.process .parent).exited = true ∧ (state.process .child).exited = true) =
        true := by
    decide +kernel
  obtain ⟨state, hstate, hfinal⟩ := (Option.any_eq_true _ _).mp hrun
  obtain ⟨hparent, hchild⟩ := of_decide_eq_true hfinal
  have hreach := System.reachableUnder_of_run hstate
  exact ⟨state, hreach,
    (received_of_sparesTransfers _ _ _ _ _ hreach .parent).2 (.inr hparent),
    (received_of_sparesTransfers _ _ _ _ _ hreach .child).2 (.inr hchild)⟩

end Apes.Pipes
