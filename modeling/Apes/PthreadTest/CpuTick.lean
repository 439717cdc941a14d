import Apes.Library.TransitionSystem
import Mathlib.Data.List.TakeWhile

/-!
# The timer ticks of `reportCPUUtil`

A timer expires every 100 ms, and its handler sets `CPUUtilFlag`. The loop of `reportCPUUtil` tests
the flag, calls `checkStatFile` when it is set, and clears it after the call. The model has the
steps of the loop and the expiries, each at any point, and a history of the expiries and of the
calls.

`TickPending` is what the flag is for: an expiry that no later call reports is still in the flag.
`tick_lost` is a schedule in which it is not, an expiry during a call being cleared away after it.
`tickPending_iff` says that this is all that can go wrong: the flag keeps every expiry exactly when
none has come between the beginning of a call and the clearing of the flag after it.
-/

set_option autoImplicit false
set_option relaxedAutoImplicit false

namespace Apes.PthreadTest

open Library

/-! ### The loop -/

/-- Where `reportCPUUtil` stands: before it compares `killedThreadID` with its own id, before it
tests `CPUUtilFlag`, before the call of `checkStatFile`, inside the call, before it clears the flag,
or returned. -/
inductive LoopStage
  | pollKill
  | testFlag
  | beforeCall
  | insideCall
  | clearFlag
  | exited
  deriving DecidableEq

/-- What the history records: an expiry of the timer, or the beginning of a call of
`checkStatFile`. -/
inductive Tick
  | expiry
  | call
  deriving DecidableEq

/-- The flag, whether `killedThreadID` is the id of the thread, its place, and the expiries and
calls so far, oldest first. -/
structure LoopState where
  CPUUtilFlag : UInt8
  killed : Bool
  stage : LoopStage
  history : List Tick

/-- An expiry of the timer, a signal that stores the id of this thread or of another one, or a step
of the loop. -/
inductive LoopEvent
  | expiry
  | deliver (own : Bool)
  | step
  deriving DecidableEq

/-- The handler of the timer. -/
def timerHandler (state : LoopState) : LoopState :=
  { state with
    CPUUtilFlag := 1
    history := state.history ++ [.expiry] }

/-- One step of the loop of `reportCPUUtil`. -/
def loopStep (state : LoopState) : Option LoopState :=
  match state.stage with
  | .pollKill =>
    if state.killed = true then some { state with stage := .exited }
    else some { state with stage := .testFlag }
  | .testFlag =>
    if state.CPUUtilFlag = 1 then some { state with stage := .beforeCall }
    else some { state with stage := .pollKill }
  | .beforeCall =>
    some { state with
      stage := .insideCall
      history := state.history ++ [.call] }
  | .insideCall => some { state with stage := .clearFlag }
  | .clearFlag =>
    some { state with
      CPUUtilFlag := 0
      stage := .pollKill }
  | .exited => none

/-- The loop under the expiries of the timer. -/
def ticking : System LoopState LoopEvent where
  initial := ⟨0, false, .pollKill, []⟩
  step state event :=
    match event with
    | .expiry => some (timerHandler state)
    | .deliver own => some { state with killed := own }
    | .step => loopStep state

/-! ### Pending expiries -/

/-- The timer has expired since the last call began, or since the start when none has. -/
def ExpiredSinceCall (history : List Tick) : Prop :=
  Tick.expiry ∈ history.reverse.takeWhile fun tick ↦ decide (tick ≠ .call)

instance (history : List Tick) : Decidable (ExpiredSinceCall history) :=
  inferInstanceAs (Decidable (_ ∈ _))

/-- An expiry since the last call began is pending in the flag. -/
def TickPending (state : LoopState) : Prop :=
  ExpiredSinceCall state.history → state.CPUUtilFlag = 1

instance (state : LoopState) : Decidable (TickPending state) := inferInstanceAs (Decidable (_ → _))

/-- The flag is cleared only when the timer has not expired since the call before it began. -/
def ClearsNoTick (state : LoopState) (event : LoopEvent) (_next : LoopState) : Prop :=
  event = .step → state.stage = .clearFlag → ¬ ExpiredSinceCall state.history

/-- A call that has begun comes after all expiries. -/
theorem not_expiredSinceCall_append_call (history : List Tick) :
    ¬ ExpiredSinceCall (history ++ [.call]) := by
  unfold ExpiredSinceCall
  rw [List.reverse_append]
  exact List.not_mem_nil

variable {state next : LoopState} {event : LoopEvent}

/-- A step of the loop other than the clearing of the flag keeps the expiries in the flag. -/
theorem TickPending.loopStep (hstate : TickPending state)
    (hstep : PthreadTest.loopStep state = some next) (hclear : state.stage ≠ .clearFlag) :
    TickPending next := by
  unfold PthreadTest.loopStep at hstep
  split at hstep
  case h_1 =>
    split_ifs at hstep
    · cases hstep
      exact hstate
    · cases hstep
      exact hstate
  case h_2 =>
    split_ifs at hstep
    · cases hstep
      exact hstate
    · cases hstep
      exact hstate
  case h_3 =>
    cases hstep
    intro hexpired
    exact absurd hexpired (not_expiredSinceCall_append_call state.history)
  case h_4 =>
    cases hstep
    exact hstate
  case h_5 hstage => exact absurd hstage hclear
  case h_6 => simp at hstep

/-- Clearing the flag keeps the expiries in it exactly when there is none. -/
theorem tickPending_clearFlag_iff (hclear : state.stage = .clearFlag)
    (hstep : loopStep state = some next) :
    TickPending next ↔ ¬ ExpiredSinceCall state.history := by
  unfold loopStep at hstep
  rw [hclear] at hstep
  cases hstep
  have hzero : ¬ (0 : UInt8) = 1 := by simp
  exact ⟨fun hpending hexpired ↦ hzero (hpending hexpired), fun hnone hexpired ↦
    absurd hexpired hnone⟩

/-- A step keeps the expiries in the flag exactly when it does not clear one away. Assumes: they are
there before the step. -/
theorem TickPending.clearsNoTick_iff (hstate : TickPending state)
    (hstep : ticking.step state event = some next) :
    ClearsNoTick state event next ↔ TickPending next := by
  cases event with
  | expiry =>
    cases hstep
    refine iff_of_true ?_ fun _ ↦ rfl
    intro hevent
    cases hevent
  | deliver own =>
    cases hstep
    refine iff_of_true ?_ hstate
    intro hevent
    cases hevent
  | step =>
    by_cases hclear : state.stage = .clearFlag
    · rw [tickPending_clearFlag_iff hclear hstep]
      exact ⟨fun hnone ↦ hnone rfl hclear, fun hnone _ _ ↦ hnone⟩
    · exact iff_of_true (fun _ hstage ↦ absurd hstage hclear) (hstate.loopStep hstep hclear)

/-- At the start nothing is pending. -/
theorem tickPending_initial : TickPending ticking.initial := by
  intro hexpired
  cases hexpired

/-- **The flag keeps the ticks exactly when none comes during a report.** For every schedule of
expiries, signals and steps of the loop: in every state an expiry since the last call of
`checkStatFile` began is pending in `CPUUtilFlag`, exactly when the flag is never cleared after an
expiry since the call began. -/
theorem tickPending_iff (events : List LoopEvent) :
    (∀ before state, before <+: events → ticking.run ticking.initial before = some state →
      TickPending state) ↔ ticking.Along ClearsNoTick ticking.initial events := by
  rw [System.forall_prefix_iff, System.along_iff_of_invariant
    (fun _ _ _ hstate hstep ↦ hstate.clearsNoTick_iff hstep)
    (fun _ _ _ hstate hstep hclears ↦ (hstate.clearsNoTick_iff hstep).mp hclears)
    tickPending_initial events]
  exact and_iff_right tickPending_initial

/-- A second expiry comes while the first one is being reported. -/
theorem tick_lost : ¬ ∀ events before state, before <+: events →
    ticking.run ticking.initial before = some state → TickPending state := by
  intro hpending
  have hrun : ∃ state, ticking.run ticking.initial
      [.expiry, .step, .step, .step, .expiry, .step, .step] = some state ∧ ¬ TickPending state := by
    refine ⟨_, rfl, ?_⟩
    decide
  obtain ⟨state, hstate, hlost⟩ := hrun
  exact hlost (hpending _ _ state List.prefix_rfl hstate)

end Apes.PthreadTest
