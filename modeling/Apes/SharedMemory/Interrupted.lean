import Apes.SharedMemory.Discipline

/-!
# SIGINT and the semaphores of the shared-memory exchange

The handler of `SIGINT` only sets `terminateSignal`, which the program looks at after its last
transfer, so an exchange goes on after a signal. But a `sem_wait` in which the process is blocked
returns when the handler has run, without having decremented the semaphore, and none of the forty
`sem_wait`s of the program looks at the result: the process goes on to its access, and then posts
the other semaphore.

`Exclusive` is what the semaphores are for: the two of them and the processes between a `sem_wait`
and its `sem_post` share one token. `interrupted_not_exclusive` is a schedule of the program that
breaks it, with a signal to the child while it waits for the first message. A delivery is `Harmless`
when the process is not blocked; `Disciplined.interrupt` says that it then keeps the discipline, and
`tokens_interrupt_of_blocked` that it otherwise brings a second token. `exclusive_iff` puts them
together over every schedule.
-/

set_option autoImplicit false
set_option relaxedAutoImplicit false

namespace Apes.SharedMemory

open Library Ipc

variable {state next : State} {party : Party}

/-- The two semaphores and the processes between a `sem_wait` and its `sem_post` share one token,
and at most one process is there. -/
def Exclusive (state : State) : Prop :=
  (state.process .parent).inside + (state.process .child).inside ≤ 1 ∧
    state.semaphore .shmRead + state.semaphore .shmWrite +
      ((state.process .parent).inside + (state.process .child).inside) = 1

instance (state : State) : Decidable (Exclusive state) := inferInstanceAs (Decidable (_ ∧ _))

/-- A signal is not delivered to a process that is blocked in a `sem_wait`. -/
def Harmless (state : State) (event : Event) (_next : State) : Prop :=
  ∀ party, event = .sigint party → ¬ Blocked state party

/-- A disciplined state has one token. -/
theorem Disciplined.exclusive (hstate : Disciplined state) : Exclusive state := by
  have htoken := hstate.token
  unfold tokens at htoken
  constructor
  · omega
  · exact htoken

/-! ### What the handler does -/

/-- The handler in a process that is not blocked sets `terminateSignal` and nothing else. -/
theorem interrupt_of_not_blocked (hblocked : ¬ Blocked state party)
    (hstep : interrupt party state = some next) :
    next = { state with
      process := Function.update state.process party
        { state.process party with terminateSignal := true } } := by
  unfold interrupt at hstep
  dsimp only at hstep
  split_ifs at hstep
  exact (Option.some.inj hstep).symm

/-- The handler in a blocked process lets it go on to its access. -/
theorem interrupt_of_blocked (hblocked : Blocked state party)
    (hstep : interrupt party state = some next) :
    next = { state with
      process := Function.update state.process party
        { state.process party with
          stage := .entered
          terminateSignal := true } } := by
  unfold interrupt at hstep
  dsimp only at hstep
  split_ifs at hstep
  exact (Option.some.inj hstep).symm

/-- Setting `terminateSignal` keeps the discipline. -/
theorem Disciplined.interrupt (hstate : Disciplined state) (hblocked : ¬ Blocked state party)
    (hstep : SharedMemory.interrupt party state = some next) : Disciplined next := by
  rw [interrupt_of_not_blocked hblocked hstep]
  constructor
  · have htokens := tokens_update state party state.semaphore state.segment state.log
      { state.process party with terminateSignal := true }
    change _ = tokens state + (state.process party).inside + _ at htokens
    change tokens ⟨_, _, _, _⟩ = 1
    rw [hstate.token] at htokens
    omega
  · exact hstate.ready
  · exact agrees_update (hstate.agrees party) fun other _ ↦ hstate.agrees other
  · exact hstate.segment

/-- A blocked process that is interrupted brings a token of its own. -/
theorem tokens_interrupt_of_blocked (hblocked : Blocked state party)
    (hstep : interrupt party state = some next) : tokens next = tokens state + 1 := by
  have htokens := tokens_update state party state.semaphore state.segment state.log
    { state.process party with
      stage := .entered
      terminateSignal := true }
  rw [inside_of_waiting hblocked.1, inside_of_entered rfl] at htokens
  rw [interrupt_of_blocked hblocked hstep]
  omega

/-! ### Schedules with signals -/

/-- A step of a schedule keeps the discipline when it is harmless. -/
theorem Disciplined.step {parent child : List Transfer} {contents : List UInt8} {event : Event}
    (hstate : Disciplined state)
    (hstep : (transferring parent child contents).step state event = some next)
    (hharmless : Harmless state event next) : Disciplined next := by
  cases event with
  | step party => exact hstate.move hstep
  | sigint party => exact hstate.interrupt (hharmless party rfl) hstep

/-- **The semaphores exclude exactly when no blocked process is interrupted.** For every two lists
of transfers and every schedule of steps and signals: in every state at most one process is between
a `sem_wait` and its `sem_post` and the two semaphores and these processes share one token, exactly
when no signal is delivered to a process that is blocked in a `sem_wait`. -/
theorem exclusive_iff (parent child : List Transfer) (contents : List UInt8)
    (events : List Event) :
    (∀ before state, before <+: events →
      (transferring parent child contents).run (transferring parent child contents).initial before =
        some state → Exclusive state) ↔
      (transferring parent child contents).Along Harmless
        (transferring parent child contents).initial events := by
  have hinitial := disciplined_initial parent child contents
  have hagree : ∀ state event next, Disciplined state →
      (transferring parent child contents).step state event = some next →
      (Harmless state event next ↔ Exclusive next) := by
    intro state event next hstate hstep
    constructor
    · intro hharmless
      exact (hstate.step hstep hharmless).exclusive
    · rintro ⟨-, htoken⟩ party rfl hblocked
      have htokens := tokens_interrupt_of_blocked hblocked hstep
      rw [hstate.token] at htokens
      unfold tokens at htokens
      omega
  rw [System.forall_prefix_iff, System.along_iff_of_invariant hagree
    (fun _ _ _ hstate hstep hharmless ↦ hstate.step hstep hharmless) hinitial events]
  exact and_iff_right hinitial.exclusive

/-- A signal is delivered to the child while it waits for the first message of the parent: it is
then inside with the value of `shm_write` still 1, and the parent enters too. -/
theorem interrupted_not_exclusive : ¬ ∀ events before state, before <+: events →
    (exchange (transmission commands txParent) (transmission commands txChild)
        createdSegment).run
      (exchange (transmission commands txParent) (transmission commands txChild)
        createdSegment).initial before = some state → Exclusive state := by
  intro hexclusive
  have hrun : ∃ state, (exchange (transmission commands txParent) (transmission commands txChild)
        createdSegment).run
      (exchange (transmission commands txParent) (transmission commands txChild)
        createdSegment).initial
      [.step .child, .sigint .child, .step .parent, .step .parent] = some state ∧
      (state.process .parent).inside + (state.process .child).inside = 2 := by
    refine ⟨_, rfl, ?_⟩
    decide
  obtain ⟨state, hstate, hinside⟩ := hrun
  have hone := (hexclusive _ _ state List.prefix_rfl hstate).1
  omega

end Apes.SharedMemory
