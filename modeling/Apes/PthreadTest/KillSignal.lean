import Apes.Library.TransitionSystem
import Mathlib.Logic.Function.Basic

/-!
# Ending a thread of `pthreadtest.c` by a signal

The two threads share `killedThreadID` and `recdSignal`. `sigHandler` runs in the thread that is
signalled and stores its id and the number of the signal there; a thread polls `killedThreadID`
against its own id and, on a match, reads `recdSignal` once for each line it may log. A delivery is
one atomic step, and each read of a shared variable in a poll is a step of its own, so deliveries
may come between the reads. The model keeps the list of the deliveries.

`Attributed` is what one step should respect: a thread that polls after a signal to it takes that
signal, no other thread does, and the line it logs names a signal delivered to it.
`terminates_within` says that a thread that has taken a signal ends with its own next steps.
`LastDelivery` is the invariant of the two variables: they are those of the last delivery.
`signal_path_not_attributed` is a schedule in which a thread polls past its signal. A poll is
`Undisturbed` when the last delivery is one to the polling thread, and `attributed_iff_undisturbed`
says that along every schedule this is exactly what is needed.
-/

set_option autoImplicit false
set_option relaxedAutoImplicit false

namespace Apes.PthreadTest

open Library

/-- The two threads. -/
inductive Thread
  | processCharacters
  | reportCPUUtil
  deriving DecidableEq

/-- The two signals for which the handler is installed. -/
inductive Signal
  | sigusr1
  | sigusr2
  deriving DecidableEq

/-- The number of a signal. -/
def Signal.number : Signal → UInt32
  | .sigusr1 => 10
  | .sigusr2 => 12

/-- The kernel's ids of the two threads: they differ and none is zero. -/
structure ThreadIds where
  tid : Thread → UInt32
  distinct : tid .processCharacters ≠ tid .reportCPUUtil
  nonzero : ∀ thread, tid thread ≠ 0

/-- How a thread ends: by a signal, with the line it logged if any, or by completion. -/
inductive Ending
  | signalled (line : Option Signal)
  | completion
  deriving DecidableEq

/-- Where a thread stands: before its next poll of `killedThreadID`, after a match, after reading
that the signal is not `SIGUSR1`, closing its file, or returned. -/
inductive Stage
  | polling
  | matched
  | notUsr1
  | closing (ending : Ending)
  | exited (ending : Ending)
  deriving DecidableEq

/-- The shared variables, the threads, and the deliveries so far, the last one at the end. -/
structure State where
  killedThreadID : UInt32
  recdSignal : UInt32
  stage : Thread → Stage
  deliveries : List (Thread × Signal)

/-- The delivery of a signal to a thread, a step of a thread, or the end of the loop of
`processCharacters` at the end of its file. -/
inductive Event
  | deliver (thread : Thread) (signal : Signal)
  | step (thread : Thread)
  | endOfFile
  deriving DecidableEq

variable (ids : ThreadIds)

/-- `sigHandler`, run in the thread with the id. -/
def sigHandler (tid signal : UInt32) (state : State) : State :=
  { state with
    killedThreadID := tid
    recdSignal :=
      if signal = Signal.sigusr1.number then Signal.sigusr1.number
      else if signal = Signal.sigusr2.number then Signal.sigusr2.number
      else 0 }

/-- A thread goes on to another stage. -/
def State.goto (state : State) (thread : Thread) (stage : Stage) : State :=
  { state with stage := Function.update state.stage thread stage }

/-- One step of a thread: a poll, the two reads of the signal, and the return. -/
def stepThread (thread : Thread) (state : State) : Option State :=
  match state.stage thread with
  | .polling =>
    if state.killedThreadID = ids.tid thread then some (state.goto thread .matched) else some state
  | .matched =>
    if state.recdSignal = Signal.sigusr1.number then
      some (state.goto thread (.closing (.signalled (some .sigusr1))))
    else some (state.goto thread .notUsr1)
  | .notUsr1 =>
    if state.recdSignal = Signal.sigusr2.number then
      some (state.goto thread (.closing (.signalled (some .sigusr2))))
    else some (state.goto thread (.closing (.signalled none)))
  | .closing ending => some (state.goto thread (.exited ending))
  | .exited _ => none

/-- A signal is delivered to a thread that has not returned. -/
def deliver (thread : Thread) (signal : Signal) (state : State) : Option State :=
  match state.stage thread with
  | .exited _ => none
  | _ => some { sigHandler (ids.tid thread) signal.number state with
      deliveries := state.deliveries ++ [(thread, signal)] }

/-- The loop of `processCharacters` ends after a poll. -/
def endOfFile (state : State) : Option State :=
  if state.stage .processCharacters = .polling then
    some (state.goto .processCharacters (.closing .completion))
  else none

/-- The two threads under the deliveries of signals. -/
def signalling : System State Event where
  initial :=
    { killedThreadID := 0
      recdSignal := 0
      stage := fun _ ↦ .polling
      deliveries := [] }
  step state event :=
    match event with
    | .deliver thread signal => deliver ids thread signal state
    | .step thread => stepThread ids thread state
    | .endOfFile => endOfFile state

/-! ### The property of a step -/

/-- The signals delivered to a thread. -/
def delivered (thread : Thread) (state : State) : List Signal :=
  state.deliveries.filterMap fun delivery ↦
    if delivery.1 = thread then some delivery.2 else none

/-- What a step of a thread respects: a poll takes a signal exactly when one has been delivered to
the thread, and a line names a signal delivered to the thread. -/
structure AttributedTo (thread : Thread) (state next : State) : Prop where
  taken : state.stage thread = .polling → delivered thread state ≠ [] →
    next.stage thread = .matched
  own : state.stage thread = .polling → next.stage thread = .matched → delivered thread state ≠ []
  line : ∀ signal, state.stage thread = .matched ∨ state.stage thread = .notUsr1 →
    next.stage thread = .closing (.signalled (some signal)) → signal ∈ delivered thread state

/-- A step respects the deliveries. -/
def Attributed (state : State) (event : Event) (next : State) : Prop :=
  ∀ thread, event = .step thread → AttributedTo thread state next

/-- The last delivery does not disturb a read of a thread: when the thread polls with a signal
delivered to it, the last delivery is one to it, and when it compares the signal with one of the
two, that one is not the last delivered or has been delivered to it. -/
def UndisturbedFor (thread : Thread) (state : State) : Prop :=
  match state.stage thread with
  | .polling => delivered thread state ≠ [] →
      ∃ signal, state.deliveries.getLast? = some (thread, signal)
  | .matched => ∀ other, state.deliveries.getLast? = some (other, .sigusr1) →
      .sigusr1 ∈ delivered thread state
  | .notUsr1 => ∀ other, state.deliveries.getLast? = some (other, .sigusr2) →
      .sigusr2 ∈ delivered thread state
  | _ => True

/-- No delivery disturbs the step. -/
def Undisturbed (state : State) (event : Event) (_next : State) : Prop :=
  ∀ thread, event = .step thread → UndisturbedFor thread state

/-! ### A schedule that loses a signal -/

/-- **A thread can poll past its signal.** `SIGUSR1` is delivered to the character thread and
`SIGUSR2` to the other before the first one polls: it polls and goes on. -/
theorem signal_path_not_attributed :
    ∃ (ids : ThreadIds) (state next : State), (signalling ids).Reachable state ∧
      (signalling ids).step state (.step .processCharacters) = some next ∧
      ¬ Attributed state (.step .processCharacters) next := by
  let ids : ThreadIds :=
    ⟨fun thread ↦ if thread = .processCharacters then 4298 else 4299, by decide, by
      intro thread
      cases thread <;> decide⟩
  have hrun : ∃ state, (signalling ids).run (signalling ids).initial
      [.deliver .processCharacters .sigusr1, .deliver .reportCPUUtil .sigusr2] = some state ∧
      state.stage .processCharacters = .polling ∧
      (∃ next, stepThread ids .processCharacters state = some next ∧
        next.stage .processCharacters = .polling) ∧
      delivered .processCharacters state ≠ [] := by
    refine ⟨_, rfl, rfl, ⟨_, rfl, rfl⟩, by decide⟩
  obtain ⟨state, hstate, hpolling, ⟨next, hnext, hmissed⟩, hdelivered⟩ := hrun
  refine ⟨ids, state, next, System.reachable_of_run hstate, hnext, ?_⟩
  intro hattributed
  have htaken := (hattributed .processCharacters rfl).taken hpolling hdelivered
  exact nomatch hmissed.symm.trans htaken

/-! ### The shared variables hold the last delivery -/

variable {ids} {state next final : State} {thread other : Thread} {signal : Signal}

/-- The handler stores the number of the signal. -/
theorem recdSignal_sigHandler (tid : UInt32) (signal : Signal) (state : State) :
    (sigHandler tid signal.number state).recdSignal = signal.number := by
  cases signal <;> rfl

/-- The numbers of the signals differ, and none is zero. -/
theorem number_inj {first second : Signal} : first.number = second.number ↔ first = second := by
  cases first <;> cases second <;> simp [Signal.number]

theorem number_ne_zero (signal : Signal) : signal.number ≠ 0 := by
  cases signal <;> simp [Signal.number]

/-- The ids of the threads differ. -/
theorem ThreadIds.tid_inj (ids : ThreadIds) : ids.tid thread = ids.tid other ↔ thread = other := by
  have hdistinct := ids.distinct
  cases thread <;> cases other <;> simp [hdistinct, hdistinct.symm]

/-- The shared variables are those of the last delivery, zero before the first. -/
structure LastDelivery (ids : ThreadIds) (state : State) : Prop where
  killedThreadID : state.killedThreadID =
    (state.deliveries.getLast?.map fun delivery ↦ ids.tid delivery.1).getD 0
  recdSignal : state.recdSignal =
    (state.deliveries.getLast?.map fun delivery ↦ delivery.2.number).getD 0

/-- A step of a thread changes no more than its own stage. -/
theorem stepThread_frame (hstep : stepThread ids thread state = some next) :
    ∃ stage, next = state.goto thread stage := by
  unfold stepThread at hstep
  split at hstep
  case h_1 hstage =>
    split_ifs at hstep
    · exact ⟨_, (Option.some.inj hstep).symm⟩
    · refine ⟨.polling, ?_⟩
      rw [State.goto, ← hstage, Function.update_eq_self]
      exact (Option.some.inj hstep).symm
  case h_2 =>
    split_ifs at hstep
    · exact ⟨_, (Option.some.inj hstep).symm⟩
    · exact ⟨_, (Option.some.inj hstep).symm⟩
  case h_3 =>
    split_ifs at hstep
    · exact ⟨_, (Option.some.inj hstep).symm⟩
    · exact ⟨_, (Option.some.inj hstep).symm⟩
  case h_4 ending hstage => exact ⟨_, (Option.some.inj hstep).symm⟩
  case h_5 => simp at hstep

/-- A delivery runs the handler in a thread that has not returned. -/
theorem deliver_cases (hstep : deliver ids thread signal state = some next) :
    next = { sigHandler (ids.tid thread) signal.number state with
      deliveries := state.deliveries ++ [(thread, signal)] } := by
  unfold deliver at hstep
  split at hstep
  · simp at hstep
  · exact (Option.some.inj hstep).symm

/-- The end of the file closes the character thread. -/
theorem endOfFile_cases (hstep : endOfFile state = some next) :
    state.stage .processCharacters = .polling ∧
      next = state.goto .processCharacters (.closing .completion) := by
  unfold endOfFile at hstep
  split_ifs at hstep with hpolling
  exact ⟨hpolling, (Option.some.inj hstep).symm⟩

/-- In every state reached the shared variables are those of the last delivery. -/
theorem lastDelivery_of_reachable (hreach : (signalling ids).Reachable state) :
    LastDelivery ids state := by
  refine System.Reachable.invariant ⟨rfl, rfl⟩ ?_ hreach
  intro state event next hstate hstep
  cases event with
  | deliver thread signal =>
    rw [deliver_cases hstep]
    constructor
    · rw [List.getLast?_concat]
      rfl
    · rw [List.getLast?_concat]
      exact recdSignal_sigHandler (ids.tid thread) signal state
  | step thread =>
    obtain ⟨stage, rfl⟩ := stepThread_frame hstep
    exact ⟨hstate.killedThreadID, hstate.recdSignal⟩
  | endOfFile =>
    obtain ⟨-, rfl⟩ := endOfFile_cases hstep
    exact ⟨hstate.killedThreadID, hstate.recdSignal⟩

/-- A poll matches exactly when the last delivery is one to the polling thread. -/
theorem LastDelivery.matches_iff (hstate : LastDelivery ids state) :
    state.killedThreadID = ids.tid thread ↔
      ∃ signal, state.deliveries.getLast? = some (thread, signal) := by
  rw [hstate.killedThreadID]
  cases state.deliveries.getLast? with
  | none => simp [(ids.nonzero thread).symm]
  | some delivery =>
    obtain ⟨other, signal⟩ := delivery
    simp [ids.tid_inj, eq_comm]

/-- A signal read is the last one delivered. -/
theorem LastDelivery.reads_iff (hstate : LastDelivery ids state) :
    state.recdSignal = signal.number ↔
      ∃ other, state.deliveries.getLast? = some (other, signal) := by
  rw [hstate.recdSignal]
  cases state.deliveries.getLast? with
  | none => simp [(number_ne_zero signal).symm]
  | some delivery =>
    obtain ⟨other, last⟩ := delivery
    simp [number_inj]

/-- The last delivery counts for the thread it went to. -/
theorem mem_delivered_of_getLast? (hlast : state.deliveries.getLast? = some (thread, signal)) :
    signal ∈ delivered thread state :=
  List.mem_filterMap.mpr ⟨(thread, signal), List.mem_of_getLast? hlast, if_pos rfl⟩

/-! ### The steps of a poll -/

@[simp] theorem stage_goto (state : State) (thread : Thread) (stage : Stage) :
    (state.goto thread stage).stage thread = stage := Function.update_self _ _ _

theorem stage_goto_of_ne (state : State) {thread other : Thread} (hother : thread ≠ other)
    (stage : Stage) : (state.goto other stage).stage thread = state.stage thread :=
  Function.update_of_ne hother _ _

/-- A poll matches on the own id. -/
theorem polling_next (hstage : state.stage thread = .polling)
    (hstep : stepThread ids thread state = some next) :
    next.stage thread = .matched ↔ state.killedThreadID = ids.tid thread := by
  unfold stepThread at hstep
  rw [hstage] at hstep
  dsimp only at hstep
  split_ifs at hstep with hmatch
  · obtain rfl := Option.some.inj hstep
    simp [hmatch]
  · obtain rfl := Option.some.inj hstep
    simp [hmatch, hstage]

/-- The first read of the signal logs `SIGUSR1` or nothing. -/
theorem matched_next (hstage : state.stage thread = .matched)
    (hstep : stepThread ids thread state = some next) :
    next.stage thread = .closing (.signalled (some signal)) ↔
      signal = .sigusr1 ∧ state.recdSignal = Signal.sigusr1.number := by
  unfold stepThread at hstep
  rw [hstage] at hstep
  dsimp only at hstep
  split_ifs at hstep with hsignal
  · obtain rfl := Option.some.inj hstep
    simp [hsignal, eq_comm]
  · obtain rfl := Option.some.inj hstep
    simp [hsignal]

/-- The second read of the signal logs `SIGUSR2` or nothing. -/
theorem notUsr1_next (hstage : state.stage thread = .notUsr1)
    (hstep : stepThread ids thread state = some next) :
    next.stage thread = .closing (.signalled (some signal)) ↔
      signal = .sigusr2 ∧ state.recdSignal = Signal.sigusr2.number := by
  unfold stepThread at hstep
  rw [hstage] at hstep
  dsimp only at hstep
  split_ifs at hstep with hsignal
  · obtain rfl := Option.some.inj hstep
    simp [hsignal, eq_comm]
  · obtain rfl := Option.some.inj hstep
    simp [hsignal]

/-! ### When the deliveries are respected -/

/-- A step of a thread respects the deliveries to it exactly when the last delivery does not disturb
it. Assumes: the shared variables are those of the last delivery. -/
theorem attributedTo_iff (hstate : LastDelivery ids state)
    (hstep : stepThread ids thread state = some next) :
    AttributedTo thread state next ↔ UndisturbedFor thread state := by
  unfold UndisturbedFor
  split
  case h_1 hstage =>
    have hmatched := (polling_next hstage hstep).trans hstate.matches_iff
    constructor
    · intro hattributed hdelivered
      exact hmatched.mp (hattributed.taken hstage hdelivered)
    · intro hundisturbed
      refine ⟨fun _ hdelivered ↦ hmatched.mpr (hundisturbed hdelivered), fun _ hnext ↦ ?_, ?_⟩
      · obtain ⟨signal, hlast⟩ := hmatched.mp hnext
        exact List.ne_nil_of_mem (mem_delivered_of_getLast? hlast)
      · intro signal hline
        rw [hstage] at hline
        exact absurd hline (by simp)
  case h_2 hstage =>
    constructor
    · intro hattributed other hlast
      have hread := hstate.reads_iff.mpr ⟨other, hlast⟩
      exact hattributed.line .sigusr1 (.inl hstage) ((matched_next hstage hstep).mpr ⟨rfl, hread⟩)
    · intro hundisturbed
      refine ⟨fun hpolling ↦ absurd (hstage.symm.trans hpolling) (by simp),
        fun hpolling ↦ absurd (hstage.symm.trans hpolling) (by simp), ?_⟩
      intro signal _ hline
      obtain ⟨rfl, hread⟩ := (matched_next hstage hstep).mp hline
      obtain ⟨other, hlast⟩ := hstate.reads_iff.mp hread
      exact hundisturbed other hlast
  case h_3 hstage =>
    constructor
    · intro hattributed other hlast
      have hread := hstate.reads_iff.mpr ⟨other, hlast⟩
      exact hattributed.line .sigusr2 (.inr hstage) ((notUsr1_next hstage hstep).mpr ⟨rfl, hread⟩)
    · intro hundisturbed
      refine ⟨fun hpolling ↦ absurd (hstage.symm.trans hpolling) (by simp),
        fun hpolling ↦ absurd (hstage.symm.trans hpolling) (by simp), ?_⟩
      intro signal _ hline
      obtain ⟨rfl, hread⟩ := (notUsr1_next hstage hstep).mp hline
      obtain ⟨other, hlast⟩ := hstate.reads_iff.mp hread
      exact hundisturbed other hlast
  case h_4 hpolling hmatched hnotUsr1 =>
    refine iff_of_true
      ⟨fun hstage ↦ absurd hstage hpolling, fun hstage ↦ absurd hstage hpolling, ?_⟩
      trivial
    rintro signal (hstage | hstage) -
    · exact absurd hstage hmatched
    · exact absurd hstage hnotUsr1

/-- **When no signal is lost or misattributed.** Along every schedule of deliveries and steps, every
step respects the deliveries exactly when no delivery disturbs a step: each poll of a thread with a
signal delivered to it comes while the last delivery is one to that thread, and each comparison of
the signal while the last delivery does not name a signal that the thread was not sent. -/
theorem attributed_iff_undisturbed (ids : ThreadIds) (events : List Event) :
    (signalling ids).Along Attributed (signalling ids).initial events ↔
      (signalling ids).Along Undisturbed (signalling ids).initial events := by
  refine System.along_iff ?_ .initial events
  intro state event next hreach hstep
  refine forall_congr' fun thread ↦ forall_congr' fun hevent ↦ ?_
  subst hevent
  exact attributedTo_iff (lastDelivery_of_reachable hreach) hstep

/-! ### A thread that has taken a signal ends -/

/-- The thread has taken a signal and closes its file after at most so many of its own steps. -/
def EndsWithin : Stage → ℕ → Prop
  | .matched, steps => 2 ≤ steps
  | .notUsr1, steps => 1 ≤ steps
  | .closing (.signalled _), _ => True
  | .exited (.signalled _), _ => True
  | _, _ => False

/-- A step of the thread brings its end nearer by one. -/
theorem endsWithin_own {steps : ℕ} (hends : EndsWithin (state.stage thread) steps)
    (hstep : stepThread ids thread state = some next) :
    EndsWithin (next.stage thread) (steps - 1) := by
  unfold stepThread at hstep
  split at hstep
  case h_1 hstage =>
    rw [hstage] at hends
    exact hends.elim
  case h_2 hstage =>
    rw [hstage] at hends
    change 2 ≤ steps at hends
    split_ifs at hstep
    · obtain rfl := Option.some.inj hstep
      rw [stage_goto]
      trivial
    · obtain rfl := Option.some.inj hstep
      rw [stage_goto]
      change 1 ≤ steps - 1
      omega
  case h_3 hstage =>
    split_ifs at hstep
    · obtain rfl := Option.some.inj hstep
      rw [stage_goto]
      trivial
    · obtain rfl := Option.some.inj hstep
      rw [stage_goto]
      trivial
  case h_4 ending hstage =>
    obtain rfl := Option.some.inj hstep
    rw [hstage] at hends
    rw [stage_goto]
    cases ending with
    | signalled line => trivial
    | completion => exact hends.elim
  case h_5 => simp at hstep

/-- Whatever else happens leaves the thread where it stands. -/
theorem endsWithin_other {steps : ℕ} {event : Event} (hends : EndsWithin (state.stage thread) steps)
    (hother : event ≠ .step thread) (hstep : (signalling ids).step state event = some next) :
    EndsWithin (next.stage thread) steps := by
  cases event with
  | deliver target signal =>
    rw [deliver_cases hstep]
    exact hends
  | step other =>
    obtain ⟨stage, rfl⟩ := stepThread_frame hstep
    have hne : thread ≠ other := fun hsame ↦ hother (congrArg Event.step hsame.symm)
    rw [stage_goto_of_ne state hne]
    exact hends
  | endOfFile =>
    obtain ⟨hpolling, rfl⟩ := endOfFile_cases hstep
    have hne : thread ≠ .processCharacters := by
      rintro rfl
      rw [hpolling] at hends
      exact hends
    rw [stage_goto_of_ne state hne]
    exact hends

/-- A thread that has taken a signal ends by it with its next two steps, whatever happens in
between. Assumes: a schedule with at least two steps of the thread. -/
theorem terminates_within {events : List Event} (hstage : state.stage thread = .matched)
    (hrun : (signalling ids).run state events = some final)
    (hsteps : 2 ≤ events.count (.step thread)) :
    ∃ line, final.stage thread = .closing (.signalled line) ∨
      final.stage thread = .exited (.signalled line) := by
  have hends : EndsWithin (state.stage thread) (events.count (.step thread)) := by
    rw [hstage]
    exact hsteps
  have hfinal : EndsWithin (final.stage thread) 0 := by
    clear hstage hsteps
    induction events generalizing state with
    | nil =>
      rw [System.run_nil, Option.some.injEq] at hrun
      exact hrun ▸ hends
    | cons event rest ih =>
      rw [System.run_cons, Option.bind_eq_some_iff] at hrun
      obtain ⟨next, hstep, hrest⟩ := hrun
      refine ih hrest ?_
      by_cases hown : event = .step thread
      · subst hown
        rw [List.count_cons_self] at hends
        exact endsWithin_own hends hstep
      · rw [List.count_cons_of_ne hown] at hends
        exact endsWithin_other hends hown hstep
  revert hfinal
  generalize final.stage thread = stage
  intro hfinal
  match stage, hfinal with
  | .closing (.signalled line), _ => exact ⟨line, .inl rfl⟩
  | .exited (.signalled line), _ => exact ⟨line, .inr rfl⟩

end Apes.PthreadTest
