import Apes.Kernel.Limits
import Apes.Library.Lineage
import Mathlib.Data.Nat.Basic
import Mathlib.Order.Basic

/-!
# What runs do to the limits

`LimitState.step_moves` says once what an event can do: a call sets one limit that has passed the
checks of `do_prlimit`, or none; a fork copies the limits; the other events leave them. The results
about runs follow from it.

`descends_of_incapable` is about runs without `CAP_SYS_RESOURCE`: every process then has hard limits
at most those of the process of the first state that it descends from. `sound_of_reachable` is about
every run: a soft limit is at most the hard one, except that `do_prlimit` leaves a second of
processor time where none was asked for, also under a hard limit of none.
`exists_maySet_of_changed` finds, in every run in which the limits of a process have changed, a call
by a task with the ids or the capability for it.
-/

set_option autoImplicit false
set_option relaxedAutoImplicit false

namespace Apes.Kernel

open Library

variable {w : ℕ}

/-! ### One call -/

/-- What a call does to the limits: nothing, or it sets one limit of one `signal_struct`. The new
limit has passed the checks of `do_prlimit` for a task of that `signal_struct`. -/
inductive LimitState.Sets (answers : LimitAnswers) (state next : LimitState w) : Prop
  | none (hsame : next = state)
  | store (tsk : LimitTask) (resource : ℕ) (new : RLimit w)
      (hcheck : checkPrlimit answers (state.rlim tsk.signal) tsk resource (some new) = .ok ())
      (hnext : next = state.store tsk.signal resource (settled resource new))

/-- What `do_prlimit` does to the limits. -/
theorem doPrlimit_sets (answers : LimitAnswers) (state : LimitState w) (tsk : LimitTask)
    (resource : ℕ) (new : Option (RLimit w)) :
    state.Sets answers (doPrlimit answers state tsk resource new).2 := by
  unfold doPrlimit
  cases hcheck : checkPrlimit answers (state.rlim tsk.signal) tsk resource new with
  | error errno => exact .none rfl
  | ok _ =>
    cases new with
    | none => exact .none rfl
    | some new => exact .store tsk resource new hcheck rfl

/-- What any call does to the limits. -/
theorem LimitState.call_sets (state : LimitState w) (caller : ℤ × LimitTask)
    (answers : LimitAnswers) (call : LimitCall w) :
    state.Sets answers (state.call caller answers call) := by
  have hset : ∀ (resource : ℕ) (new : RLimit w),
      state.Sets answers (setrlimit answers state caller.2 resource new).2 := by
    intro resource new
    unfold setrlimit
    split_ifs
    · exact doPrlimit_sets answers state caller.2 resource (some new)
    · exact .none rfl
  cases call with
  | prlimit64 pid resource new wantsOld =>
    change state.Sets answers (prlimit64 answers state caller pid resource new wantsOld).2
    unfold prlimit64
    cases prlimitTarget answers state caller pid new with
    | error errno => exact .none rfl
    | ok tsk => exact doPrlimit_sets answers state tsk resource _
  | setrlimit resource new => exact hset resource new
  | compatSetrlimit resource new => exact hset resource (ofCompat new)

/-- A new limit has passed the checks against the old one. -/
structure RLimit.Admits (old : RLimit w) (answers : LimitAnswers) (resource : ℕ)
    (new : RLimit w) : Prop where
  inRange : resource < rlimNlimits
  ordered : new.rlimCur ≤ new.rlimMax
  files : resource = rlimitNofile → new.rlimMax.toNat ≤ answers.nrOpen
  raised : new.rlimMax ≤ old.rlimMax ∨ answers.capable = true

/-- What the checks of `do_prlimit` check of a new limit. -/
theorem checkPrlimit_some_iff {answers : LimitAnswers} {rlim : ℕ → RLimit w} {tsk : LimitTask}
    {resource : ℕ} {new : RLimit w} :
    checkPrlimit answers rlim tsk resource (some new) = .ok () ↔
      (rlim resource).Admits answers resource new ∧ tsk.sighand = true ∧
        hookAccepts answers.taskSetrlimit = .ok () := by
  unfold checkPrlimit
  simp only [require_seq_eq_ok_iff, Option.mem_def, Option.some.injEq, forall_eq']
  constructor
  · rintro ⟨hinRange, hordered, hfiles, hsighand, hraised, hhook⟩
    exact ⟨⟨hinRange, hordered, hfiles, hraised⟩, hsighand, hhook⟩
  · rintro ⟨⟨hinRange, hordered, hfiles, hraised⟩, hsighand, hhook⟩
    exact ⟨hinRange, hordered, hfiles, hsighand, hraised, hhook⟩

/-- The limits after one of them is set. -/
theorem LimitState.store_rlim (state : LimitState w) (signal resource : ℕ) (new : RLimit w)
    (other kind : ℕ) :
    (state.store signal resource new).rlim other kind =
      if other = signal ∧ kind = resource then new else state.rlim other kind := by
  unfold LimitState.store
  by_cases hother : other = signal
  · subst hother
    by_cases hkind : kind = resource
    · subst hkind
      simp
    · simp [hkind]
  · simp [hother]

/-- The limits after a fork. -/
theorem LimitState.fork_rlim (state : LimitState w) (parent : LimitTask) (child : ℤ)
    (other : ℕ) :
    (state.fork parent child).rlim other =
      if other = state.signals then state.rlim parent.signal else state.rlim other := by
  unfold LimitState.fork
  by_cases hother : other = state.signals
  · simp [hother]
  · simp [hother]

/-! ### The events -/

/-- The `signal_struct` that an event makes, after that of the task that forks. -/
def LimitState.birth (state : LimitState w) : LimitEvent w → Option (ℕ × ℕ)
  | .fork parent _ => (state.task parent).map fun task ↦ (task.signal, state.signals)
  | _ => none

/-- What an event does: a call sets a limit or none, a fork gives the limits of a task to a new
`signal_struct`, and the other events leave the limits and give no task another
`signal_struct`. -/
inductive LimitState.Moves (state : LimitState w) (event : LimitEvent w) (next : LimitState w) :
    Prop
  | call (caller : ℤ) (call : LimitCall w) (answers : LimitAnswers)
      (hevent : event = .call caller call answers) (hsets : state.Sets answers next)
  | fork (parent : LimitTask) (child pid : ℤ) (hevent : event = .fork pid child)
      (htask : state.task pid = some parent) (hnext : next = state.fork parent child)
  | other (hbirth : state.birth event = none) (hrlim : next.rlim = state.rlim)
      (hsignals : next.signals = state.signals)
      (htasks : ∀ pid task, next.task pid = some task →
        ∃ former current, state.task former = some current ∧ current.signal = task.signal)

/-- A task put at a pid has the `signal_struct` of a task before. -/
theorem LimitState.put_moves {state : LimitState w} {event : LimitEvent w}
    (hbirth : state.birth event = none) {pid : ℤ} {task : Option LimitTask}
    (htask : ∀ new ∈ task, ∃ former current, state.task former = some current ∧
      current.signal = new.signal) : state.Moves event (state.put pid task) := by
  refine .other hbirth rfl rfl fun other new hnew ↦ ?_
  by_cases hother : other = pid
  · subst hother
    have hput : task = some new := by simpa [LimitState.put] using hnew
    exact htask new hput
  · have hkept : state.task other = some new := by simpa [LimitState.put, hother] using hnew
    exact ⟨other, new, hkept, rfl⟩

/-- What an event that happens does. -/
theorem LimitState.step_moves {state next : LimitState w} {event : LimitEvent w}
    (hstep : state.step event = some next) : state.Moves event next := by
  cases event with
  | call caller call answers =>
    obtain ⟨current, -, rfl⟩ := Option.map_eq_some_iff.mp hstep
    exact .call caller call answers rfl (state.call_sets (caller, current) answers call)
  | fork parent child =>
    dsimp only [LimitState.step] at hstep
    split_ifs at hstep
    obtain ⟨current, htask, rfl⟩ := Option.map_eq_some_iff.mp hstep
    exact .fork current child parent rfl htask rfl
  | thread parent child =>
    dsimp only [LimitState.step] at hstep
    split_ifs at hstep
    obtain ⟨current, htask, rfl⟩ := Option.map_eq_some_iff.mp hstep
    exact LimitState.put_moves rfl (by rintro new ⟨⟩; exact ⟨parent, current, htask, rfl⟩)
  | exit pid =>
    obtain ⟨current, htask, rfl⟩ := Option.map_eq_some_iff.mp hstep
    exact LimitState.put_moves rfl (by rintro new ⟨⟩; exact ⟨pid, current, htask, rfl⟩)
  | release pid =>
    obtain rfl := Option.some.inj hstep
    exact LimitState.put_moves rfl (by rintro new ⟨⟩)
  | commitCreds pid cred =>
    obtain ⟨current, htask, rfl⟩ := Option.map_eq_some_iff.mp hstep
    exact LimitState.put_moves rfl (by rintro new ⟨⟩; exact ⟨pid, current, htask, rfl⟩)

/-- The tasks have `signal_struct`s that exist. -/
def LimitState.WellFormed (state : LimitState w) : Prop :=
  ∀ pid task, state.task pid = some task → task.signal < state.signals

/-- A limit that is set leaves the tasks and their number. -/
theorem LimitState.Sets.frame {answers : LimitAnswers} {state next : LimitState w}
    (hsets : state.Sets answers next) :
    next.task = state.task ∧ next.signals = state.signals := by
  cases hsets with
  | none hsame => exact hsame ▸ ⟨rfl, rfl⟩
  | store tsk resource new hcheck hnext => exact hnext ▸ ⟨rfl, rfl⟩

/-- Every event keeps the tasks in order. -/
theorem LimitState.Moves.wellFormed {state next : LimitState w} {event : LimitEvent w}
    (hmoves : state.Moves event next) (hstate : state.WellFormed) : next.WellFormed := by
  intro pid task htask
  cases hmoves with
  | call caller call answers hevent hsets =>
    obtain ⟨htasks, hsignals⟩ := hsets.frame
    rw [hsignals]
    exact hstate pid task (htasks ▸ htask)
  | fork parent child former hevent hparent hnext =>
    subst hnext
    by_cases hchild : pid = child
    · subst hchild
      have hnew : { signal := state.signals, sighand := true, cred := parent.cred } = task := by
        simpa [LimitState.fork] using htask
      rw [← hnew]
      exact Nat.lt_succ_self state.signals
    · have hkept : state.task pid = some task := by simpa [LimitState.fork, hchild] using htask
      exact Nat.lt_succ_of_lt (hstate pid task hkept)
  | other hbirth hrlim hsignals htasks =>
    obtain ⟨former, current, hcurrent, hsignal⟩ := htasks pid task htask
    rw [hsignals, ← hsignal]
    exact hstate former current hcurrent

/-- In every run the tasks stay in order. -/
theorem wellFormed_of_reachable {first state : LimitState w} (hfirst : first.WellFormed)
    (hreach : (resourceLimits first).Reachable state) : state.WellFormed := by
  refine hreach.invariant hfirst ?_
  exact fun state event next hstate hstep ↦ (LimitState.step_moves hstep).wellFormed hstate

/-! ### Hard limits in runs without the capability -/

/-- A call without `CAP_SYS_RESOURCE`, or another event. -/
def LimitEvent.Incapable : LimitEvent w → Prop
  | .call _ _ answers => answers.capable = false
  | _ => True

instance (event : LimitEvent w) : Decidable event.Incapable :=
  match event with
  | .call _ _ answers => inferInstanceAs (Decidable (answers.capable = false))
  | .fork _ _ | .thread _ _ | .exit _ | .release _ | .commitCreds _ _ => .isTrue trivial

/-- The hard limits of a `signal_struct` are at most those of another one in a state before. -/
def LimitState.HardWithin (state former : LimitState w) (signal ancestor : ℕ) : Prop :=
  ∀ resource, (state.rlim signal resource).rlimMax ≤ (former.rlim ancestor resource).rlimMax

/-- A limit that is set without the capability is not raised. -/
theorem LimitState.Sets.hardWithin {answers : LimitAnswers} {state next : LimitState w}
    (hsets : state.Sets answers next) (hincapable : answers.capable = false) (signal : ℕ) :
    next.HardWithin state signal signal := by
  intro kind
  cases hsets with
  | none hsame => exact hsame ▸ BitVec.le_refl _
  | store tsk resource new hcheck hnext =>
    rw [hnext, LimitState.store_rlim]
    split_ifs with hsame
    · obtain ⟨rfl, rfl⟩ := hsame
      have hlowered : new.rlimMax ≤ (state.rlim tsk.signal kind).rlimMax := by
        refine (checkPrlimit_some_iff.mp hcheck).1.raised.resolve_right ?_
        simp [hincapable]
      have hmax : (settled kind new).rlimMax = new.rlimMax := by
        unfold settled
        split_ifs <;> rfl
      rw [hmax]
      exact hlowered
    · exact BitVec.le_refl _

/-- The number of `signal_struct`s never falls. -/
theorem LimitState.Moves.signals_le {state next : LimitState w} {event : LimitEvent w}
    (hmoves : state.Moves event next) : state.signals ≤ next.signals := by
  cases hmoves with
  | call caller call answers hevent hsets => exact hsets.frame.2.ge
  | fork parent child pid hevent htask hnext => exact hnext ▸ Nat.le_succ _
  | other hbirth hrlim hsignals htasks => exact hsignals.ge

/-- A step without the capability raises no hard limit, and a new process has the limits of the one
that forked it. Assumes: the tasks are in order. -/
theorem LimitState.Moves.inherits {state next : LimitState w} {event : LimitEvent w}
    (hmoves : state.Moves event next) (hincapable : event.Incapable) (hformed : state.WellFormed)
    {signal : ℕ} (hsignal : signal < next.signals) :
    System.former LimitState.birth state event signal < state.signals ∧
      next.HardWithin state signal (System.former LimitState.birth state event signal) := by
  cases hmoves with
  | call caller call answers hevent hsets =>
    subst hevent
    have hbirth : state.birth (.call caller call answers) = none := rfl
    rw [System.former_eq_self (by simp [hbirth])]
    exact ⟨hsets.frame.2 ▸ hsignal, hsets.hardWithin hincapable signal⟩
  | fork parent child pid hevent htask hnext =>
    subst hevent hnext
    have hbirth : state.birth (.fork pid child) = some (parent.signal, state.signals) := by
      rw [LimitState.birth, htask, Option.map_some]
    unfold System.former LimitState.HardWithin
    rw [hbirth, LimitState.fork_rlim]
    dsimp only
    by_cases hnew : signal = state.signals
    · rw [if_pos hnew, if_pos hnew]
      exact ⟨hformed pid parent htask, fun _ ↦ BitVec.le_refl _⟩
    · rw [if_neg hnew, if_neg hnew]
      exact ⟨lt_of_le_of_ne (Nat.lt_succ_iff.mp hsignal) hnew, fun _ ↦ BitVec.le_refl _⟩
  | other hbirth hrlim hsignals htasks =>
    rw [System.former_eq_self (by simp [hbirth])]
    refine ⟨hsignals ▸ hsignal, fun resource ↦ ?_⟩
    rw [hrlim]
    exact BitVec.le_refl _

/-- The process of the first state that a process descends from, by the forks of a run. -/
def LimitState.origin (first : LimitState w) (events : List (LimitEvent w)) (signal : ℕ) : ℕ :=
  (resourceLimits first).origin LimitState.birth first events signal

/-- After a run every process descends from one of the first state and has no hard limit above that
one's, and a process of the first state descends from itself. -/
structure LimitState.Descends (final first : LimitState w) (events : List (LimitEvent w)) :
    Prop where
  bounded : ∀ signal < final.signals, first.origin events signal < first.signals ∧
    final.HardWithin first signal (first.origin events signal)
  own : ∀ signal < first.signals, first.origin events signal = signal

/-- A process that a fork makes was not there before. -/
theorem LimitState.not_present_of_birth {state : LimitState w} {event : LimitEvent w}
    {parent child : ℕ} (hbirth : state.birth event = some (parent, child)) :
    ¬ child < state.signals := by
  cases event with
  | fork =>
    obtain ⟨task, -, hpair⟩ := Option.map_eq_some_iff.mp hbirth
    rw [← (Prod.mk.inj hpair).2]
    exact lt_irrefl _
  | _ => cases hbirth

/-- In every run in which no call has `CAP_SYS_RESOURCE`, no process ever has a hard limit above
that of the process of the first state it descends from by the forks of the run. Assumes: the tasks
of the first state have limits. -/
theorem descends_of_incapable {first final : LimitState w} (hformed : first.WellFormed)
    {events : List (LimitEvent w)} (hincapable : ∀ event ∈ events, event.Incapable)
    (hrun : (resourceLimits first).run first events = some final) :
    final.Descends first events := by
  constructor
  · intro signal hsignal
    have hrefl : ∀ (state : LimitState w) (signal : ℕ), state.HardWithin state signal signal :=
      fun _ _ _ ↦ BitVec.le_refl _
    have htrans : ∀ {a b c : LimitState w} {former signal later : ℕ},
        b.HardWithin a signal former → c.HardWithin b later signal → c.HardWithin a later former :=
      fun hearlier hlater resource ↦ BitVec.le_trans (hlater resource) (hearlier resource)
    have hkept : ∀ {state : LimitState w} {event : LimitEvent w} {next : LimitState w},
        state.WellFormed → event.Incapable → (resourceLimits first).step state event = some next →
        next.WellFormed ∧ ∀ signal, signal < next.signals →
          System.former LimitState.birth state event signal < state.signals ∧
            next.HardWithin state signal (System.former LimitState.birth state event signal) := by
      intro state event next hformed hincapable hstep
      have hmoves := LimitState.step_moves hstep
      exact ⟨hmoves.wellFormed hformed, fun signal hsignal ↦
        hmoves.inherits hincapable hformed hsignal⟩
    exact System.bound_origin (fun state signal ↦ signal < state.signals)
      (fun state former next signal ↦ next.HardWithin state signal former) hrefl htrans hkept
      hformed hincapable hrun hsignal
  · intro signal hsignal
    exact System.origin_eq_self (fun state signal ↦ signal < state.signals)
      (fun _ hbirth ↦ LimitState.not_present_of_birth hbirth)
      (fun hstep hpresent ↦ hpresent.trans_le (LimitState.step_moves hstep).signals_le) events
      hsignal

/-- The task of the first process. -/
def firstTask : LimitTask :=
  { signal := 0, sighand := true, cred := ⟨⟨0, 0, 0, 0⟩, ⟨0, 0, 0, 0⟩, 0⟩ }

/-- The first process of a machine with 64-bit words: it may open 1024 files, and 4096 if it asks,
and its other resources are not limited. -/
def firstProcess : LimitState 64 where
  task pid := if pid = 1 then some firstTask else none
  rlim _ resource := if resource = rlimitNofile then ⟨1024, 4096⟩
    else ⟨rlimInfinity 64, rlimInfinity 64⟩
  signals := 1

/-- The answers to a call without the capability that nothing else refuses. -/
def permitting : LimitAnswers where
  copyFromUser := true
  copyToUser := true
  capable := false
  nsCapable := false
  nrOpen := 4096
  taskPrlimit := none
  taskSetrlimit := none

theorem firstProcess_wellFormed : firstProcess.WellFormed := by
  intro pid task htask
  change (if pid = 1 then _ else none) = some task at htask
  split_ifs at htask
  rw [← Option.some.inj htask]
  exact Nat.zero_lt_one

/-- The first process lowers its limit to 10 files and forks a child, which asks for 20 in vain. -/
def lowersAndForks : List (LimitEvent 64) :=
  [.call 1 (.setrlimit rlimitNofile ⟨10, 10⟩) permitting, .fork 1 2,
    .call 2 (.setrlimit rlimitNofile ⟨20, 20⟩) permitting]

/-- The child descends from the first process, whose limit it has. -/
theorem descends_lowersAndForks :
    ∃ final, (resourceLimits firstProcess).run firstProcess lowersAndForks = some final ∧
      final.rlim 1 rlimitNofile = ⟨10, 10⟩ ∧ firstProcess.origin lowersAndForks 1 = 0 ∧
      final.Descends firstProcess lowersAndForks := by
  have hrun : ((resourceLimits firstProcess).run firstProcess lowersAndForks).any
      (fun final ↦ final.rlim 1 rlimitNofile = ⟨10, 10⟩) = true := by
    decide +kernel
  obtain ⟨final, hfinal, hlimit⟩ := (Option.any_eq_true _ _).mp hrun
  exact ⟨final, hfinal, of_decide_eq_true hlimit, by decide +kernel,
    descends_of_incapable firstProcess_wellFormed (by decide) hfinal⟩

/-! ### Soft limits in every run -/

/-- A limit is in order: the soft limit is at most the hard one, or it is the second of processor
time that is left where none was asked for; a limit of processor time is never zero. -/
structure RLimit.Sound (resource : ℕ) (rlim : RLimit w) : Prop where
  ordered : rlim.rlimCur ≤ rlim.rlimMax ∨
    resource = rlimitCpu ∧ rlim.rlimCur = 1 ∧ rlim.rlimMax = 0
  nonzero : resource = rlimitCpu → rlim.rlimCur ≠ 0

/-- What `do_prlimit` stores is in order. -/
theorem sound_settled (hw : 0 < w) {resource : ℕ} {new : RLimit w}
    (hordered : new.rlimCur ≤ new.rlimMax) : (settled resource new).Sound resource := by
  unfold settled
  split_ifs with hcheat
  · refine ⟨?_, fun _ ↦ ?_⟩
    · by_cases hzero : new.rlimMax = 0
      · exact Or.inr ⟨hcheat.1, rfl, hzero⟩
      · refine Or.inl (BitVec.le_def.mpr ?_)
        have hpos : 0 < new.rlimMax.toNat := by
          refine Nat.pos_of_ne_zero fun hnone ↦ hzero ?_
          exact BitVec.eq_of_toNat_eq (by simpa using hnone)
        exact (Nat.mod_le 1 _).trans hpos
    · intro hone
      have hmod : (1#w).toNat = 0 := by
        have hvalue := congrArg BitVec.toNat hone
        simpa using hvalue
      rw [BitVec.toNat_ofNat, Nat.mod_eq_of_lt (Nat.one_lt_two_pow hw.ne')] at hmod
      exact absurd hmod Nat.one_ne_zero
  · exact ⟨Or.inl hordered, fun hcpu hzero ↦ hcheat ⟨hcpu, hzero⟩⟩

/-- Every event keeps the limits in order. -/
theorem LimitState.Moves.sound (hw : 0 < w) {state next : LimitState w} {event : LimitEvent w}
    (hmoves : state.Moves event next)
    (hstate : ∀ signal resource, (state.rlim signal resource).Sound resource)
    (signal resource : ℕ) : (next.rlim signal resource).Sound resource := by
  cases hmoves with
  | call caller call answers hevent hsets =>
    cases hsets with
    | none hsame => exact hsame ▸ hstate signal resource
    | store tsk kind new hcheck hnext =>
      rw [hnext, LimitState.store_rlim]
      split_ifs with hsame
      · exact hsame.2 ▸ sound_settled hw (checkPrlimit_some_iff.mp hcheck).1.ordered
      · exact hstate signal resource
  | fork parent child pid hevent htask hnext =>
    rw [hnext, LimitState.fork_rlim]
    split_ifs
    · exact hstate parent.signal resource
    · exact hstate signal resource
  | other hbirth hrlim hsignals htasks =>
    rw [hrlim]
    exact hstate signal resource

/-- In every run every limit stays in order. Assumes: machine words have bits, and the limits of the
first state are in order. -/
theorem sound_of_reachable (hw : 0 < w) {first : LimitState w}
    (hfirst : ∀ signal resource, (first.rlim signal resource).Sound resource)
    {state : LimitState w} (hreach : (resourceLimits first).Reachable state) (signal resource : ℕ) :
    (state.rlim signal resource).Sound resource := by
  have hall : ∀ signal resource, (state.rlim signal resource).Sound resource := by
    refine hreach.invariant hfirst ?_
    exact fun state event next hstate hstep signal resource ↦
      (LimitState.step_moves hstep).sound hw hstate signal resource
  exact hall signal resource

/-! ### Who changes a limit -/

/-- A call of a task that may set the limits of a `signal_struct`: the task is one of its own, or
has the ids of one, or has the capability over one. -/
def LimitEvent.MaySet (state : LimitState w) (signal : ℕ) (event : LimitEvent w) : Prop :=
  ∃ caller current call answers pid tsk, event = .call caller call answers ∧
    state.task caller = some current ∧ state.task pid = some tsk ∧ tsk.signal = signal ∧
    (pid = caller ∨ idMatch current.cred tsk.cred = true ∨ answers.nsCapable = true)

/-- The task that a call of `prlimit64` names is one that the caller may set the limits of. -/
theorem permitted_of_prlimitTarget {answers : LimitAnswers} {state : LimitState w} {caller : ℤ}
    {current tsk : LimitTask} {pid : ℤ} {new : Option (RLimit 64)}
    (hcaller : state.task caller = some current)
    (htarget : prlimitTarget answers state (caller, current) pid new = .ok tsk) :
    ∃ named, state.task named = some tsk ∧
      (named = caller ∨ idMatch current.cred tsk.cred = true ∨ answers.nsCapable = true) := by
  unfold prlimitTarget at htarget
  obtain ⟨-, htarget⟩ := require_seq_eq_ok_iff.mp htarget
  obtain ⟨⟨named, task⟩, hnamed, htarget⟩ := seq_eq_ok_iff.mp htarget
  obtain ⟨⟨⟩, hpermission, htarget⟩ := seq_eq_ok_iff.mp htarget
  obtain rfl := Except.ok.inj htarget
  have htask : state.task named = some task := by
    unfold LimitState.named at hnamed
    split_ifs at hnamed
    · cases hnamed
      exact hcaller
    · split at hnamed
      · injection hnamed
      · cases hnamed
        assumption
  refine ⟨named, htask, ?_⟩
  unfold checkPrlimitPermission at hpermission
  split_ifs at hpermission with hself
  · exact Or.inl hself.symm
  · exact Or.inr (require_seq_eq_ok_iff.mp hpermission).1

/-- A call that changes a limit of a `signal_struct` may set it. -/
theorem LimitState.maySet_of_call {state : LimitState w} {caller : ℤ} {current : LimitTask}
    (hcaller : state.task caller = some current) (call : LimitCall w) (answers : LimitAnswers)
    {signal : ℕ} (hchanged : (state.call (caller, current) answers call).rlim signal ≠
      state.rlim signal) : LimitEvent.MaySet state signal (.call caller call answers) := by
  have hstored : ∀ (tsk : LimitTask) (resource : ℕ) (new : Option (RLimit w)),
      (doPrlimit answers state tsk resource new).2.rlim signal ≠ state.rlim signal →
      tsk.signal = signal := by
    intro tsk resource new hstore
    by_contra hother
    refine hstore ?_
    unfold doPrlimit
    cases checkPrlimit answers (state.rlim tsk.signal) tsk resource new with
    | error errno => rfl
    | ok _ =>
      cases new with
      | none => rfl
      | some new =>
        funext kind
        exact (state.store_rlim _ _ _ signal kind).trans
          (if_neg fun hsame ↦ hother hsame.1.symm)
  have hown : ∀ (resource : ℕ) (new : RLimit w),
      (setrlimit answers state current resource new).2.rlim signal ≠ state.rlim signal →
      current.signal = signal := by
    intro resource new hset
    unfold setrlimit at hset
    split_ifs at hset
    · exact hstored current resource (some new) hset
    · exact absurd rfl hset
  cases call with
  | prlimit64 pid resource new wantsOld =>
    change (prlimit64 answers state (caller, current) pid resource new wantsOld).2.rlim signal ≠ _
      at hchanged
    unfold prlimit64 at hchanged
    cases htarget : prlimitTarget answers state (caller, current) pid new with
    | error errno =>
      rw [htarget] at hchanged
      exact absurd rfl hchanged
    | ok tsk =>
      rw [htarget] at hchanged
      obtain ⟨named, htask, hpermitted⟩ := permitted_of_prlimitTarget hcaller htarget
      exact ⟨caller, current, _, answers, named, tsk, rfl, hcaller, htask,
        hstored tsk resource _ hchanged, hpermitted⟩
  | setrlimit resource new =>
    exact ⟨caller, current, _, answers, caller, current, rfl, hcaller, hcaller,
      hown resource new hchanged, Or.inl rfl⟩
  | compatSetrlimit resource new =>
    exact ⟨caller, current, _, answers, caller, current, rfl, hcaller, hcaller,
      hown resource (ofCompat new) hchanged, Or.inl rfl⟩

/-- An event that changes a limit of a `signal_struct` that exists is a call that may set it. -/
theorem LimitState.maySet_of_step {state next : LimitState w} {event : LimitEvent w} {signal : ℕ}
    (hstep : state.step event = some next) (hsignal : signal < state.signals)
    (hchanged : next.rlim signal ≠ state.rlim signal) : event.MaySet state signal := by
  cases event with
  | call caller call answers =>
    obtain ⟨current, hcaller, rfl⟩ := Option.map_eq_some_iff.mp hstep
    exact LimitState.maySet_of_call hcaller call answers hchanged
  | fork parent child =>
    dsimp only [LimitState.step] at hstep
    split_ifs at hstep
    obtain ⟨current, -, rfl⟩ := Option.map_eq_some_iff.mp hstep
    refine absurd ?_ hchanged
    rw [LimitState.fork_rlim, if_neg hsignal.ne]
  | thread parent child =>
    dsimp only [LimitState.step] at hstep
    split_ifs at hstep
    obtain ⟨current, -, rfl⟩ := Option.map_eq_some_iff.mp hstep
    exact absurd rfl hchanged
  | exit pid | commitCreds pid cred =>
    obtain ⟨current, -, rfl⟩ := Option.map_eq_some_iff.mp hstep
    exact absurd rfl hchanged
  | release pid =>
    obtain rfl := Option.some.inj hstep
    exact absurd rfl hchanged

/-- When the limits of a process of the first state are others at the end of a run, some call on the
way was made by a task that may set them. -/
theorem exists_maySet_of_changed {first final : LimitState w} {events : List (LimitEvent w)}
    (hrun : (resourceLimits first).run first events = some final) {signal : ℕ}
    (hsignal : signal < first.signals) (hchanged : final.rlim signal ≠ first.rlim signal) :
    ∃ before event rest between, events = before ++ event :: rest ∧
      (resourceLimits first).run first before = some between ∧ event.MaySet between signal := by
  obtain ⟨before, event, rest, between, next, hevents, hbefore, hstep, hnext⟩ :=
    System.exists_change_of_run (fun state ↦ state.rlim signal) hrun hchanged
  have hreach : (resourceLimits first).Reachable between := System.reachable_of_run hbefore
  have hgrown : first.signals ≤ between.signals := by
    refine hreach.invariant le_rfl ?_
    exact fun state event next hstate hstep ↦
      hstate.trans (LimitState.step_moves hstep).signals_le
  exact ⟨before, event, rest, between, hevents, hbefore,
    LimitState.maySet_of_step hstep (hsignal.trans_le hgrown) hnext⟩

/-- The child of the first process lowers the limit of its parent. -/
def childLowers : List (LimitEvent 64) :=
  [.fork 1 2, .call 2 (.prlimit64 1 rlimitNofile (some ⟨10, 10⟩) false) permitting]

/-- The limit of the parent has been changed by a task that may set it. -/
theorem exists_maySet_childLowers :
    ∃ before event rest between, childLowers = before ++ event :: rest ∧
      (resourceLimits firstProcess).run firstProcess before = some between ∧
      event.MaySet between 0 := by
  have hrun : ((resourceLimits firstProcess).run firstProcess childLowers).any (fun final ↦
      final.rlim 0 rlimitNofile ≠ firstProcess.rlim 0 rlimitNofile) = true := by
    decide +kernel
  obtain ⟨final, hfinal, hchanged⟩ := (Option.any_eq_true _ _).mp hrun
  exact exists_maySet_of_changed hfinal Nat.zero_lt_one fun hsame ↦
    of_decide_eq_true hchanged (congrFun hsame rlimitNofile)

end Apes.Kernel
