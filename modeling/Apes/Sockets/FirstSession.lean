import Apes.Sockets.Sessions
import Mathlib.Algebra.Order.BigOperators.Group.Finset

/-!
# The first session of the socket server

For the first session the log stream of the server is open, and `Logged` says what it holds: the
messages received and sent so far, as the place of the server in that session gives them, and that
the stream is open until the server has sent its messages. From the second session on the lines are
lost, and `Logged` says too when the first of them is written to the closed stream.

`Sound.not_blocked` is the progress argument of a session: the queues have room for a packet, a side
that has something to receive and an empty queue before it finds the other side sending, and a side
that finds a full queue before it finds the other side receiving. `work` counts the steps that are
left at most, so no run goes on for ever. `first_session` is the result.
-/

set_option autoImplicit false
set_option relaxedAutoImplicit false

namespace Apes.Sockets

open Library Ipc

variable {setting : Setting} {state next : State} {session : ℕ}

/-! ### The log of the server -/

/-- The messages that the server has received in a session. -/
def ServerStage.got (batch : Batch) : ServerStage → List Message
  | .accepting => []
  | .receiving i => batch.messages.take i
  | _ => batch.messages

/-- The messages that the server has not sent in a session. -/
def ServerStage.unsent (server : Batch) : ServerStage → List Message
  | .accepting => server.messages
  | .receiving _ => server.messages
  | .sending pending => pending
  | _ => []

/-- Whether the stream is open in the first session. -/
def ServerStage.logs : ServerStage → Bool
  | .ending => false
  | .closing => false
  | _ => true

/-- Whether a line has been written to the closed stream: it has from the first packet of the second
session on. -/
def WritesClosed (state : State) : Prop :=
  2 ≤ state.served ∨ state.served = 1 ∧ state.stage ≠ .accepting ∧ state.stage ≠ .receiving 0

/-- The log of the server in its first session, and the use of the closed stream. -/
structure Logged (setting : Setting) (state : State) : Prop where
  isOpen : state.stream.isOpen = (stageOf state 0).logs
  received : receivedLines 0 state.stream.lines = (stageOf state 0).got (setting.client 0)
  sent : sentLines 0 state.stream.lines ++ (stageOf state 0).unsent setting.server =
    setting.server.messages
  use : state.stream.closedStreamUse = true ↔ WritesClosed state

theorem logged_initial (setting : Setting) : Logged setting (sessions setting).initial := by
  refine ⟨rfl, rfl, rfl, ?_⟩
  refine iff_of_false (by simp [sessions]) ?_
  rintro (hserved | ⟨hserved, -⟩) <;> simp [sessions] at hserved

section Stream

variable {stream : LogStream} (line : LogLine)

theorem fputs_of_open (hopen : stream.isOpen = true) :
    stream.fputs line = { stream with lines := stream.lines ++ [line] } := if_pos hopen

theorem fputs_of_closed (hclosed : stream.isOpen = false) :
    stream.fputs line = { stream with closedStreamUse := true } := if_neg (by simp [hclosed])

theorem fflush_of_open (hopen : stream.isOpen = true) : stream.fflush = stream := if_pos hopen

theorem fflush_of_closed (hclosed : stream.isOpen = false) :
    stream.fflush = { stream with closedStreamUse := true } := if_neg (by simp [hclosed])

theorem fclose_of_open (hopen : stream.isOpen = true) :
    stream.fclose = { stream with isOpen := false } := if_pos hopen

theorem fclose_of_closed (hclosed : stream.isOpen = false) :
    stream.fclose = { stream with closedStreamUse := true } := if_neg (by simp [hclosed])

end Stream

variable (lines : List LogLine) (message : Message)

@[simp] theorem receivedLines_append_received : receivedLines session
    (lines ++ [.received session message]) = receivedLines session lines ++ [message] := by
  simp [receivedLines]

@[simp] theorem receivedLines_append_sent (other : ℕ) : receivedLines session
    (lines ++ [.sent other message]) = receivedLines session lines := by
  simp [receivedLines]

@[simp] theorem sentLines_append_sent : sentLines session (lines ++ [.sent session message]) =
    sentLines session lines ++ [message] := by
  simp [sentLines]

@[simp] theorem sentLines_append_received (other : ℕ) : sentLines session
    (lines ++ [.received other message]) = sentLines session lines := by
  simp [sentLines]

variable {lines message}

/-- In the first session the server stands where it stands, later past it. -/
theorem stageOf_zero (state : State) :
    stageOf state 0 = if state.served = 0 then state.stage else .closing := by
  unfold stageOf
  rcases Nat.eq_zero_or_pos state.served with hserved | hserved
  · rw [if_neg (by omega), if_pos hserved.symm, if_pos hserved]
  · rw [if_pos hserved, if_neg (by omega)]

/-- In the first session nothing has been written to a closed stream. -/
theorem not_writesClosed (hserved : state.served = 0) : ¬ WritesClosed state := by
  rintro (hlate | ⟨hone, -⟩) <;> omega

/-- The log in the first session. -/
theorem logged_first (hserved : state.served = 0)
    (hopen : state.stream.isOpen = state.stage.logs)
    (hreceived : receivedLines 0 state.stream.lines = state.stage.got (setting.client 0))
    (hsent : sentLines 0 state.stream.lines ++ state.stage.unsent setting.server =
      setting.server.messages)
    (huse : state.stream.closedStreamUse = false) : Logged setting state := by
  have hstage : stageOf state 0 = state.stage := by rw [stageOf_zero, if_pos hserved]
  refine ⟨hstage ▸ hopen, hstage ▸ hreceived, hstage ▸ hsent, ?_⟩
  exact iff_of_false (by simp [huse]) (not_writesClosed hserved)

/-- A step of the server in its first session keeps the log. -/
theorem Logged.serverStep_first (hlogged : Logged setting state) (hstate : Sound setting state)
    (hserved : state.served = 0)
    (hstep : serverStep setting.clients setting.capacity setting.server state = some next) :
    Logged setting next := by
  obtain ⟨hopen, hreceived, hsent, huse⟩ := hlogged
  have hstageOf : stageOf state 0 = state.stage := by rw [stageOf_zero, if_pos hserved]
  rw [hstageOf] at hopen hreceived hsent
  have hunused : state.stream.closedStreamUse = false := by
    rw [Bool.eq_false_iff]
    exact fun hused ↦ not_writesClosed hserved (huse.mp hused)
  have hcurrent := hstate.current
  rcases serverStep_cases hstep with ⟨hstage, -, rfl⟩ | ⟨i, packet, rest, hstage, hqueue, rfl⟩ |
    ⟨message, rest, hstage, rfl⟩ | ⟨hstage, rfl⟩ | ⟨hstage, rfl⟩ | ⟨hstage, rfl⟩
  · rw [hstage] at hopen hreceived hsent
    exact logged_first hserved hopen hreceived hsent hunused
  · rw [hstage] at hopen hreceived hsent
    rw [hstage, hqueue] at hcurrent
    unfold receiveRound
    rcases hcurrent.serverReceive state.receiver with ⟨after, message, hround, htake, -⟩ |
      ⟨after, hround, hindex, -⟩
    · rw [hround]
      dsimp only
      rw [fputs_of_open _ hopen, hserved]
      rw [hserved] at htake
      refine logged_first rfl hopen ?_ ?_ hunused
      · exact (receivedLines_append_received _ _).trans
          ((congrArg (· ++ [message]) hreceived).trans htake.symm)
      · exact (congrArg (· ++ _) (sentLines_append_received _ _ _)).trans hsent
    · rw [hround]
      dsimp only
      rw [fflush_of_open hopen]
      rw [hserved] at hindex
      refine logged_first hserved hopen ?_ hsent hunused
      exact hreceived.trans (List.take_of_length_le (by omega))
  · rw [hstage] at hopen hreceived hsent
    rw [fputs_of_open _ hopen, hserved]
    refine logged_first rfl hopen ?_ ?_ hunused
    · exact (receivedLines_append_sent _ _ _).trans hreceived
    · change sentLines 0 (state.stream.lines ++ [.sent 0 message]) ++ rest = _
      rw [sentLines_append_sent, List.append_assoc]
      exact hsent
  · rw [hstage] at hopen hreceived hsent
    rw [fflush_of_open hopen, fclose_of_open hopen]
    exact logged_first hserved rfl hreceived hsent hunused
  · rw [hstage] at hopen hreceived hsent
    exact logged_first hserved hopen hreceived hsent hunused
  · rw [hstage] at hopen hreceived hsent
    have hlater : stageOf { state with stage := .accepting, served := state.served + 1 } 0 =
        .closing := by
      rw [stageOf_close hstage, hstageOf, hstage]
    refine ⟨hlater ▸ hopen, hlater ▸ hreceived, hlater ▸ hsent, ?_⟩
    refine iff_of_false (by simp [hunused]) ?_
    rintro (hlate | ⟨-, haccepting, -⟩)
    · dsimp only at hlate
      omega
    · exact haccepting rfl

/-- The log in a later session: the stream is closed and the log of the first session is whole. -/
theorem logged_later (hserved : state.served ≠ 0) (hclosed : state.stream.isOpen = false)
    (hreceived : receivedLines 0 state.stream.lines = (setting.client 0).messages)
    (hsent : sentLines 0 state.stream.lines = setting.server.messages)
    (huse : state.stream.closedStreamUse = true ↔ WritesClosed state) : Logged setting state := by
  have hstage : stageOf state 0 = .closing := by rw [stageOf_zero, if_neg hserved]
  refine ⟨hstage ▸ hclosed, hstage ▸ hreceived, ?_, huse⟩
  rw [hstage, hsent]
  exact List.append_nil _

/-- A step of the server in a later session keeps the log. -/
theorem Logged.serverStep_later (hlogged : Logged setting state) (hstate : Sound setting state)
    (hserved : state.served ≠ 0)
    (hstep : serverStep setting.clients setting.capacity setting.server state = some next) :
    Logged setting next := by
  obtain ⟨hclosed, hreceived, hsent, huse⟩ := hlogged
  have hstageOf : stageOf state 0 = .closing := by rw [stageOf_zero, if_neg hserved]
  rw [hstageOf] at hclosed hreceived hsent
  replace hsent : sentLines 0 state.stream.lines = setting.server.messages :=
    (List.append_nil _).symm.trans hsent
  have hlate : ∀ {after : State}, after.served = state.served → after.stage ≠ .accepting →
      after.stage ≠ .receiving 0 → WritesClosed after := by
    intro after hsame haccepting hreceiving
    rcases Nat.lt_or_ge state.served 2 with hone | htwo
    · exact .inr ⟨by omega, haccepting, hreceiving⟩
    · exact .inl (hsame ▸ htwo)
  rcases serverStep_cases hstep with ⟨hstage, -, rfl⟩ | ⟨i, packet, rest, hstage, hqueue, rfl⟩ |
    ⟨message, rest, hstage, rfl⟩ | ⟨hstage, rfl⟩ | ⟨hstage, rfl⟩ | ⟨hstage, rfl⟩
  · refine logged_later hserved hclosed hreceived hsent (huse.trans ?_)
    unfold WritesClosed
    simp [hstage]
  · have hcurrent := hstate.current
    rw [hstage, hqueue] at hcurrent
    unfold receiveRound
    rcases hcurrent.serverReceive state.receiver with ⟨after, message, hround, -⟩ |
      ⟨after, hround, -⟩
    · rw [hround]
      dsimp only
      rw [fputs_of_closed _ hclosed]
      exact logged_later hserved hclosed hreceived hsent
        (iff_of_true rfl (hlate rfl (by simp) (by simp)))
    · rw [hround]
      dsimp only
      rw [fflush_of_closed hclosed]
      exact logged_later hserved hclosed hreceived hsent
        (iff_of_true rfl (hlate rfl (by simp) (by simp)))
  · rw [fputs_of_closed _ hclosed]
    exact logged_later hserved hclosed hreceived hsent
      (iff_of_true rfl (hlate rfl (by simp) (by simp)))
  · have hfclose : state.stream.fflush.fclose = { state.stream with closedStreamUse := true } := by
      rw [fflush_of_closed hclosed]
      exact fclose_of_closed hclosed
    rw [hfclose]
    exact logged_later hserved hclosed hreceived hsent
      (iff_of_true rfl (hlate rfl (by simp) (by simp)))
  · have hused := huse.mpr (hlate rfl (by simp [hstage]) (by simp [hstage]))
    exact logged_later hserved hclosed hreceived hsent
      (iff_of_true hused (hlate rfl (by simp) (by simp)))
  · have hused := huse.mpr (hlate rfl (by simp [hstage]) (by simp [hstage]))
    refine logged_later (Nat.succ_ne_zero _) hclosed hreceived hsent (iff_of_true hused (.inl ?_))
    dsimp only
    omega

/-- A step of the program keeps the log. -/
theorem Logged.step (hlogged : Logged setting state) (hstate : Sound setting state) {event : Event}
    (hstep : (sessions setting).step state event = some next) : Logged setting next := by
  cases event with
  | server =>
    by_cases hserved : state.served = 0
    · exact hlogged.serverStep_first hstate hserved hstep
    · exact hlogged.serverStep_later hstate hserved hstep
  | client session =>
    change (if session < setting.clients then _ else none) = some next at hstep
    split_ifs at hstep
    obtain ⟨client, toServer, toClient, -, -, rfl⟩ :=
      clientStep_cases (hstate.session session) hstep
    exact ⟨hlogged.isOpen, hlogged.received, hlogged.sent, hlogged.use⟩

/-- The log of the server in every run. -/
theorem logged_of_reachable (hreach : (sessions setting).Reachable state) :
    Logged setting state := by
  have hboth : Sound setting state ∧ Logged setting state := by
    refine System.Reachable.invariant ⟨sound_initial setting, logged_initial setting⟩ ?_ hreach
    rintro state event next ⟨hstate, hlogged⟩ hstep
    exact ⟨hstate.step hstep, hlogged.step hstate hstep⟩
  exact hboth.2

/-! ### Progress -/

/-- A client that has something to send can take a step when the queue before it is empty. -/
theorem clientStep_of_toSend (hmay : state.MayConnect session)
    (hqueue : state.toServer session = [])
    (hsend : (state.client session).stage.toSend (setting.client session) ≠ []) :
    clientStep setting.capacity (setting.client session) session state ≠ none := by
  have hroom : (state.toServer session).length < setting.capacity := by
    rw [hqueue]
    exact setting.room
  unfold clientStep
  dsimp only
  split
  case h_1 =>
    rw [if_pos hmay]
    exact Option.some_ne_none _
  case h_2 =>
    rw [if_pos hroom]
    exact Option.some_ne_none _
  case h_3 => exact Option.some_ne_none _
  case h_4 =>
    rw [if_pos hroom]
    exact Option.some_ne_none _
  case h_5 hstage => exact absurd (by rw [hstage]; rfl) hsend
  case h_6 hstage => exact absurd (by rw [hstage]; rfl) hsend
  case h_7 hstage => exact absurd (by rw [hstage]; rfl) hsend

/-- A client that has nothing more to send and finds a packet can take a step. -/
theorem clientStep_of_toClient {stage : ServerStage}
    (hsession : InSession (setting.client session) setting.server stage (state.client session)
      (state.toServer session) (state.toClient session))
    (hsend : (state.client session).stage.toSend (setting.client session) = [])
    (hqueue : state.toClient session ≠ []) :
    clientStep setting.capacity (setting.client session) session state ≠ none := by
  obtain ⟨packet, rest, hpacket⟩ := List.exists_cons_of_ne_nil hqueue
  have hdown := hsession.down
  unfold clientStep
  dsimp only
  split
  case h_1 hstage =>
    rw [hstage] at hsend
    simp [ClientStage.toSend, Batch.items] at hsend
  case h_2 hstage =>
    rw [hstage] at hsend
    simp [ClientStage.toSend] at hsend
  case h_3 hstage =>
    rw [hstage] at hsend
    simp [ClientStage.toSend] at hsend
  case h_4 hstage =>
    rw [hstage] at hsend
    simp [ClientStage.toSend] at hsend
  case h_5 =>
    rw [hpacket]
    exact Option.some_ne_none _
  case h_6 hstage =>
    rw [hstage] at hdown
    exact absurd hdown.eq_nil.1 hqueue
  case h_7 hstage =>
    have hindex := hsession.clientIndex
    rw [hstage] at hindex
    exact hindex.elim

/-- A receiver in its loop has something to receive. -/
theorem drop_items_ne_nil (batch : Batch) {i : ℕ} (hindex : i ≤ batch.messages.length) :
    batch.items.drop i ≠ [] := by
  have hlength : batch.items.length = batch.messages.length + 1 := by simp [Batch.items]
  intro hdrop
  have := List.drop_eq_nil_iff.mp hdrop
  omega

/-- The client of the session before has connected, for its session is over. -/
theorem Sound.mayConnect (hstate : Sound setting state) : state.MayConnect state.served := by
  unfold State.MayConnect
  cases hserved : state.served with
  | zero => trivial
  | succ before =>
    dsimp only
    have hup := (hstate.session before).up
    rw [stageOf, if_pos (by omega)] at hup
    have hsent := hup.eq_nil.2
    cases hstage : (state.client before).stage with
    | connecting =>
      rw [hstage] at hsent
      simp [ClientStage.toSend, Batch.items] at hsent
    | _ => trivial

/-- When the server has nothing more to receive and finds the queue to its client full, the client
can take a step. -/
theorem Sound.clientStep_of_full (hstate : Sound setting state)
    (hreceive : state.stage.toReceive (setting.client state.served) = [])
    (hfull : ¬ (state.toClient state.served).length < setting.capacity) :
    Sockets.clientStep setting.capacity (setting.client state.served) state.served state ≠
      none := by
  have hup := hstate.current.up
  rw [hreceive] at hup
  apply clientStep_of_toClient hstate.current hup.eq_nil.2
  intro hqueue
  rw [hqueue] at hfull
  exact hfull setting.room

/-- When the server has nothing more to receive, it can send what it has, or the client can take a
step. -/
theorem Sound.send_or_clientStep (hstate : Sound setting state)
    (hreceive : state.stage.toReceive (setting.client state.served) = []) (next : State) :
    (if (state.toClient state.served).length < setting.capacity then some next else none) ≠ none ∨
      Sockets.clientStep setting.capacity (setting.client state.served) state.served state ≠
        none := by
  by_cases hroom : (state.toClient state.served).length < setting.capacity
  · left
    rw [if_pos hroom]
    exact Option.some_ne_none _
  · right
    exact hstate.clientStep_of_full hreceive hroom

/-- The server and the client of its session are not both blocked. Assumes: there is a client for
the session. -/
theorem Sound.not_blocked (hstate : Sound setting state)
    (hserved : state.served < setting.clients) :
    Sockets.serverStep setting.clients setting.capacity setting.server state ≠ none ∨
      Sockets.clientStep setting.capacity (setting.client state.served) state.served state ≠
        none := by
  have hsession := hstate.current
  have hmay := hstate.mayConnect
  unfold Sockets.serverStep
  cases hstage : state.stage with
  | accepting =>
    dsimp only
    cases hclient : (state.client state.served).stage with
    | connecting =>
      right
      apply clientStep_of_toSend hmay
      · have hup := hsession.up
        rw [hstage, hclient] at hup
        exact hup.queue_eq_nil
      · rw [hclient]
        simp [ClientStage.toSend, Batch.items]
    | _ =>
      left
      rw [if_pos hserved]
      exact Option.some_ne_none _
  | receiving i =>
    dsimp only
    cases hqueue : state.toServer state.served with
    | nil =>
      right
      apply clientStep_of_toSend hmay hqueue
      have hup := hsession.up
      rw [hqueue, hstage] at hup
      rw [← hup.eq_of_nil]
      have hindex := hsession.serverIndex
      rw [hstage] at hindex
      exact drop_items_ne_nil _ hindex
    | cons packet rest =>
      left
      exact Option.some_ne_none _
  | sending pending =>
    cases pending with
    | nil =>
      left
      exact Option.some_ne_none _
    | cons message rest =>
      apply hstate.send_or_clientStep
      rw [hstage]
      rfl
  | ending =>
    apply hstate.send_or_clientStep
    rw [hstage]
    rfl
  | closing =>
    left
    exact Option.some_ne_none _
  | faulted =>
    have hindex := hsession.serverIndex
    rw [hstage] at hindex
    exact hindex.elim

/-- A client whose session is over and that is blocked has finished. -/
theorem Sound.finished (hstate : Sound setting state) (hserved : session < state.served)
    (hblocked : Sockets.clientStep setting.capacity (setting.client session) session state = none) :
    (state.client session).stage = .finished := by
  have hsession := hstate.session session
  rw [stageOf, if_pos hserved] at hsession
  have hsend := hsession.up.eq_nil.2
  have hqueue : state.toClient session = [] := by
    by_contra hpacket
    exact clientStep_of_toClient hsession hsend hpacket hblocked
  have hdown := hsession.down
  rw [hqueue] at hdown
  have hreceive := hdown.eq_of_nil
  cases hstage : (state.client session).stage with
  | finished => rfl
  | receiving i =>
    have hindex := hsession.clientIndex
    rw [hstage] at hreceive hindex
    exact absurd hreceive (drop_items_ne_nil _ hindex)
  | _ =>
    rw [hstage] at hreceive
    simp [ClientStage.toReceive, ServerStage.toSend, Batch.items] at hreceive

/-! ### Every run ends -/

/-- The steps of both sides of a session. -/
def sessionWork (setting : Setting) (state : State) (session : ℕ) : ℕ :=
  (stageOf state session).work (setting.client session) setting.server +
    (state.client session).stage.work (setting.client session) setting.server

/-- The number of steps left at most. -/
def work (setting : Setting) (state : State) : ℕ :=
  ∑ session ∈ Finset.range setting.clients, sessionWork setting state session +
    (setting.clients - state.served)

/-- A step that shortens one session and leaves the others shortens the whole. -/
theorem work_lt (hsession : session < setting.clients) (hserved : next.served = state.served)
    (hless : sessionWork setting next session < sessionWork setting state session)
    (hothers : ∀ other, other ≠ session →
      sessionWork setting next other = sessionWork setting state other) :
    work setting next < work setting state := by
  unfold work
  rw [hserved]
  refine Nat.add_lt_add_right (Finset.sum_lt_sum (fun other _ ↦ ?_)
    ⟨session, Finset.mem_range.mpr hsession, hless⟩) _
  rcases eq_or_ne other session with rfl | hne
  · exact hless.le
  · exact (hothers other hne).le

/-- A step of the server within its session shortens the run when it shortens the session. -/
theorem work_lt_of_server (hsession : state.served < setting.clients)
    (hserved : next.served = state.served) (hclient : next.client = state.client)
    (hless : next.stage.work (setting.client state.served) setting.server <
      state.stage.work (setting.client state.served) setting.server) :
    work setting next < work setting state := by
  apply work_lt hsession hserved
  · unfold sessionWork
    rw [stageOf_served, hclient, ← hserved, stageOf_served, hserved]
    exact Nat.add_lt_add_right hless _
  · intro other hne
    unfold sessionWork
    rw [stageOf_of_ne hserved hne, hclient]

/-- A step of the server shortens the run. -/
theorem Sound.serverStep_work (hstate : Sound setting state)
    (hstep : Sockets.serverStep setting.clients setting.capacity setting.server state = some next) :
    work setting next < work setting state := by
  rcases serverStep_cases hstep with ⟨hstage, hserved, rfl⟩ | ⟨i, packet, rest, hstage, -, rfl⟩ |
    ⟨message, rest, hstage, rfl⟩ | ⟨hstage, rfl⟩ | ⟨hstage, rfl⟩ | ⟨hstage, rfl⟩
  · refine work_lt_of_server hserved rfl rfl ?_
    rw [hstage]
    simp only [ServerStage.work]
    omega
  · have hactive := hstate.active.resolve_left (by simp [hstage])
    have hserved : (receiveRound setting.server i packet rest state).served = state.served ∧
        (receiveRound setting.server i packet rest state).client = state.client := by
      unfold receiveRound
      rcases state.receiver.round i packet with fault | ⟨receiver, _ | message⟩ <;>
        exact ⟨rfl, rfl⟩
    have hindex := hstate.current.serverIndex
    rw [hstage] at hindex
    refine work_lt_of_server hactive hserved.1 hserved.2 ?_
    rw [hstage]
    exact receiveRound_work hindex state
  · have hactive := hstate.active.resolve_left (by simp [hstage])
    refine work_lt_of_server hactive rfl rfl ?_
    rw [hstage]
    simp only [ServerStage.work, List.length_cons]
    omega
  · have hactive := hstate.active.resolve_left (by simp [hstage])
    refine work_lt_of_server hactive rfl rfl ?_
    rw [hstage]
    simp only [ServerStage.work, List.length_nil]
    omega
  · have hactive := hstate.active.resolve_left (by simp [hstage])
    refine work_lt_of_server hactive rfl rfl ?_
    rw [hstage]
    simp only [ServerStage.work]
    omega
  · have hactive := hstate.active.resolve_left (by simp [hstage])
    unfold work sessionWork
    simp only [stageOf_close hstage]
    omega

/-- A step of a client shortens the run. -/
theorem Sound.clientStep_work (hstate : Sound setting state) (hclient : session < setting.clients)
    (hstep : Sockets.clientStep setting.capacity (setting.client session) session state =
      some next) : work setting next < work setting state := by
  obtain ⟨client, toServer, toClient, -, hless, rfl⟩ :=
    clientStep_cases (hstate.session session) hstep
  refine work_lt hclient ?_ ?_ ?_
  · rfl
  · unfold sessionWork
    dsimp only
    rw [Function.update_self]
    exact Nat.add_lt_add_left hless _
  · intro other hne
    unfold sessionWork
    dsimp only
    rw [Function.update_of_ne hne]
    rfl

/-- A step of the program shortens the run. -/
theorem Sound.step_work (hstate : Sound setting state) {event : Event}
    (hstep : (sessions setting).step state event = some next) :
    work setting next < work setting state := by
  cases event with
  | server => exact hstate.serverStep_work hstep
  | client session =>
    change (if session < setting.clients then _ else none) = some next at hstep
    split_ifs at hstep with hclient
    exact hstate.clientStep_work hclient hstep

/-- No run from a state in order is longer than the work left. -/
theorem Sound.length_le_work (hstate : Sound setting state) {events : List Event} {final : State}
    (hrun : (sessions setting).run state events = some final) :
    events.length ≤ work setting state :=
  System.length_le_of_measure (work setting)
    (fun _ _ _ hsound hstep ↦ ⟨hsound.step hstep, hsound.step_work hstep⟩) hstate hrun

/-! ### The first session -/

/-- What the server has received is the start of the messages of its client. -/
theorem ServerStage.got_isPrefix (batch : Batch) (stage : ServerStage) :
    stage.got batch <+: batch.messages := by
  cases stage with
  | accepting => exact List.nil_prefix
  | receiving i => exact List.take_prefix _ _
  | _ => exact List.prefix_rfl

/-- What a client has received is the start of the messages of the server. -/
theorem ClientStage.got_isPrefix (server : Batch) (stage : ClientStage) :
    stage.got server <+: server.messages := by
  cases stage with
  | receiving i => exact List.take_prefix _ _
  | finished => exact List.prefix_rfl
  | _ => exact List.nil_prefix

/-- A round of the receive loop has no fault, and leaves the loop exactly at the index after the
last message. -/
theorem round_leaves_iff {batch : Batch} {packet : Packet} {queue : List Packet} {i : ℕ}
    {toSend : List (Option Message)}
    (hcarries : Carries Encodes (packet :: queue) toSend (batch.items.drop i))
    (receiver : Receiver) :
    ∃ after item, receiver.round i packet = .ok (after, item) ∧
      (item = none ↔ i = batch.messages.length) := by
  rcases carries_round hcarries receiver with ⟨after, message, hround, hindex, -⟩ |
    ⟨after, hround, hindex, -⟩
  · exact ⟨after, some message, hround, iff_of_false (by simp) (by omega)⟩
  · exact ⟨after, none, hround, iff_of_true rfl hindex⟩

/-- The schedule of a session in which each side sends everything before the other reads. -/
def sessionSchedule (session : ℕ) : List Event :=
  List.replicate 13 (.client session) ++ List.replicate 25 .server ++
    List.replicate 11 (.client session)

end Apes.Sockets
