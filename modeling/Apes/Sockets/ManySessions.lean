import Apes.Sockets.FirstSession

/-!
# Sessions one after another

`SurvivesSessions` is what the accept loop is for: with any number of clients the server writes to
its log stream only while it is open, logs and answers every session whole, and does not end before
the last of them. `survivesSessions_iff` says when it does: the body of the loop closes the stream,
which is opened before the loop, so it does with at most one client. With two clients every run can
go on until the first line of the second session is written to the closed stream.
-/

set_option autoImplicit false
set_option relaxedAutoImplicit false

namespace Apes.Sockets

open Library Ipc

/-- The server survives its sessions: in every state of every run it has used its log stream only
while it was open, every session that is over is logged as received and sent in full, a client that
has finished has all messages of the server, and a run that cannot go on has served all clients. -/
def SurvivesSessions (setting : Setting) : Prop :=
  ∀ state, (sessions setting).Reachable state →
    state.stream.closedStreamUse = false ∧
      (∀ session < state.served,
        receivedLines session state.stream.lines = (setting.client session).messages ∧
          sentLines session state.stream.lines = setting.server.messages) ∧
      (∀ session < setting.clients, (state.client session).stage = .finished →
        (state.client session).received = setting.server.messages) ∧
      ((sessions setting).Stuck state → state.served = setting.clients ∧
        ∀ session < setting.clients, (state.client session).stage = .finished)

variable {setting : Setting} {state : State}

/-- While clients are left to serve, the program can take a step. -/
theorem Sound.exists_step (hstate : Sound setting state)
    (hserved : state.served < setting.clients) :
    ∃ event next, (sessions setting).step state event = some next := by
  rcases hstate.not_blocked hserved with hmove | hmove
  · obtain ⟨next, hstep⟩ := Option.ne_none_iff_exists'.mp hmove
    exact ⟨.server, next, hstep⟩
  · obtain ⟨next, hstep⟩ := Option.ne_none_iff_exists'.mp hmove
    refine ⟨.client state.served, next, ?_⟩
    change (if state.served < setting.clients then _ else none) = some next
    rw [if_pos hserved]
    exact hstep

/-- A run that cannot go on has served all clients, and all have finished. -/
theorem Sound.served_of_stuck (hstate : Sound setting state)
    (hstuck : (sessions setting).Stuck state) :
    state.served = setting.clients ∧
      ∀ session < setting.clients, (state.client session).stage = .finished := by
  have hserved : state.served = setting.clients := by
    by_contra hleft
    obtain ⟨event, next, hstep⟩ :=
      hstate.exists_step (Nat.lt_of_le_of_ne hstate.served hleft)
    rw [hstuck event] at hstep
    simp at hstep
  refine ⟨hserved, fun session hsession ↦ hstate.finished (hserved ▸ hsession) ?_⟩
  have hblocked := hstuck (.client session)
  change (if session < setting.clients then _ else none) = none at hblocked
  rwa [if_pos hsession] at hblocked

/-- With at most one client the server survives. -/
theorem survivesSessions_of_le_one (hclients : setting.clients ≤ 1) : SurvivesSessions setting := by
  intro state hreach
  have hstate := sound_of_reachable hreach
  have hlogged := logged_of_reachable hreach
  have hserved := hstate.served
  refine ⟨?_, ?_, ?_, hstate.served_of_stuck⟩
  · rw [Bool.eq_false_iff]
    intro hused
    rcases hlogged.use.mp hused with hlate | ⟨hone, haccepting, -⟩
    · omega
    · have hactive := hstate.active.resolve_left haccepting
      omega
  · intro session hsession
    obtain rfl : session = 0 := by omega
    have hstage : stageOf state 0 = .closing := by rw [stageOf_zero, if_neg (by omega)]
    have hreceived := hlogged.received
    have hsent := hlogged.sent
    rw [hstage] at hreceived hsent
    exact ⟨hreceived, (List.append_nil _).symm.trans hsent⟩
  · intro session _ hfinished
    rw [(hstate.session session).received, hfinished]
    rfl

/-- With two clients some run uses the closed stream. -/
theorem exists_closedStreamUse (setting : Setting) (hclients : 2 ≤ setting.clients) :
    ∃ state, (sessions setting).Reachable state ∧ state.stream.closedStreamUse = true := by
  have hprogress : ∀ state, (Sound setting state ∧ Logged setting state) →
      ¬ state.stream.closedStreamUse = true → ∃ event next,
        (sessions setting).step state event = some next ∧
          (Sound setting next ∧ Logged setting next) ∧ work setting next < work setting state := by
    rintro state ⟨hstate, hlogged⟩ hunused
    have hserved : state.served < setting.clients := by
      by_contra hall
      exact hunused (hlogged.use.mpr (.inl (by omega)))
    obtain ⟨event, next, hstep⟩ := hstate.exists_step hserved
    exact ⟨event, next, hstep, ⟨hstate.step hstep, hlogged.step hstate hstep⟩,
      hstate.step_work hstep⟩
  obtain ⟨events, final, hrun, -, hused⟩ := System.exists_run_of_measure (work setting) hprogress
    ⟨sound_initial setting, logged_initial setting⟩
  exact ⟨final, System.reachable_of_run hrun, hused⟩

/-- **The server survives its sessions exactly when there is at most one.** For every setting: the
batches, the capacity of the queues and the contents of the buffers do not matter. -/
theorem survivesSessions_iff (setting : Setting) :
    SurvivesSessions setting ↔ setting.clients ≤ 1 := by
  constructor
  · intro hsurvives
    by_contra hclients
    obtain ⟨state, hreach, hused⟩ := exists_closedStreamUse setting (by omega)
    rw [(hsurvives state hreach).1] at hused
    simp at hused
  · exact survivesSessions_of_le_one

/-- The program with two clients: the first packet of the second session is logged to the stream
that the first session closed, and the line is lost. -/
theorem second_session_lost : ¬ SurvivesSessions (program 2) := by
  intro hsurvives
  have hrun : ∃ state, (sessions (program 2)).run (sessions (program 2)).initial
      (sessionSchedule 0 ++ [.client 1, .client 1, .server, .server]) = some state ∧
      state.stream.closedStreamUse = true ∧ receivedLines 1 state.stream.lines = [] := by
    refine ⟨_, rfl, rfl, rfl⟩
  obtain ⟨state, hstate, hused, -⟩ := hrun
  rw [(hsurvives state (System.reachable_of_run hstate)).1] at hused
  simp at hused

end Apes.Sockets
