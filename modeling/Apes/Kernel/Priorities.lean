import Apes.Kernel.Limits
import Apes.Library.Lineage
import Mathlib.Data.List.Basic
import Mathlib.Order.Basic

/-!
# Priorities, `sys.c`

`setpriority` and `getpriority` are about all the tasks that are selected by a number and by what
the number means: one task, the tasks of a process group or those of a user. `setpriority` goes
through the selected tasks and sets the nice value of each one that the caller may set it for. It
stops at no refusal: the error that it returns is kept from one task to the next, starts as `ESRCH`,
becomes the error of every task that refuses, and is cleared by a success only when it is `ESRCH`.
`getpriority` returns the largest of the selected priorities, counted from 1 to 40 so that no
priority looks like an error.

`setpriority_eq` is what the loop comes to when no security hook answers `ESRCH` of itself: exactly
the selected tasks that do not refuse get the nice value, within its bounds, and the result is the
error of the last task that refuses, `ESRCH` when no task is selected, and else success.
`getpriority_of_setpriority` reads the priority back after a success.

`priorities` is the transition system of these calls and of forks, for every selection of tasks and
every answer of the rest of the kernel at each call. `descends_of_impolite` is about runs in which
`can_nice` allows nothing.
-/

set_option autoImplicit false
set_option relaxedAutoImplicit false

namespace Apes.Kernel

open Library

/-! ### The calls -/

/-- `PRIO_PROCESS`. -/
def prioProcess : ℤ := 0

/-- `PRIO_PGRP`. -/
def prioPgrp : ℤ := 1

/-- `PRIO_USER`. -/
def prioUser : ℤ := 2

/-- `MIN_NICE`. -/
def minNice : ℤ := -20

/-- `MAX_NICE`. -/
def maxNice : ℤ := 19

/-- What a call finds of the tasks: all of them and those of each process group, in the order of the
loops; the task with a pid; the credentials and the group of each; whether `task_pid_vnr` is zero;
the mapping of the user ids in the caller's namespace; and whether `find_user` finds a user. -/
structure TaskTable where
  threads : List ℕ
  members : ℤ → List ℕ
  byPid : ℤ → Option ℕ
  cred : ℕ → Cred
  pgrp : ℕ → ℤ
  hidden : ℕ → Bool
  uid : IdMapping
  user : UInt32 → Bool

/-- What the rest of the kernel answers about each task: whether the caller has `CAP_SYS_NICE` in
its namespace, `can_nice`, and the error of `security_task_setnice`. -/
structure PrioAnswers where
  nsCapable : ℕ → Bool
  canNice : ℕ → ℤ → Bool
  setnice : ℕ → Option Errno

/-- The tasks of a user that `PRIO_USER` selects. -/
def TaskTable.ofUser (table : TaskTable) (uid : UInt32) : List ℕ :=
  table.threads.filter fun p ↦ (table.cred p).uids.id = uid ∧ ¬ table.hidden p

/-- The tasks that `which` and `who` select, in the order of the loops. -/
def TaskTable.selected (table : TaskTable) (current : ℕ) (which who : ℤ) : List ℕ :=
  if which = prioProcess then
    (if who = 0 then some current else table.byPid who).toList
  else if which = prioPgrp then
    table.members (if who = 0 then table.pgrp current else who)
  else
    let own := (table.cred current).uids.id
    let uid := if who = 0 then own else table.uid.make (UInt32.ofInt who)
    if uid ≠ own ∧ ¬ table.user uid then [] else table.ofUser uid

/-- `set_one_prio_perm`. -/
def setOnePrioPerm (table : TaskTable) (answers : PrioAnswers) (current p : ℕ) : Bool :=
  (table.cred p).uids.id = (table.cred current).uids.eid ∨
    (table.cred p).uids.eid = (table.cred current).uids.eid ∨ answers.nsCapable p

/-- The checks of `set_one_prio`, for the nice values that the tasks have. -/
def checkOnePrio (table : TaskTable) (answers : PrioAnswers) (current : ℕ) (niceval : ℤ)
    (nice : ℕ → ℤ) (p : ℕ) : Except Errno Unit := do
  require (setOnePrioPerm table answers current p) .eperm
  require (niceval < nice p → answers.canNice p niceval) .eacces
  hookAccepts (answers.setnice p)

/-- `set_one_prio`: the error after it, and the nice values. -/
def setOnePrio (table : TaskTable) (answers : PrioAnswers) (current : ℕ) (niceval : ℤ)
    (state : Except Errno Unit × (ℕ → ℤ)) (p : ℕ) : Except Errno Unit × (ℕ → ℤ) :=
  match checkOnePrio table answers current niceval state.2 p, state.1 with
  | .error errno, _ => (.error errno, state.2)
  | .ok (), .error .esrch => (.ok (), Function.update state.2 p niceval)
  | .ok (), error => (error, Function.update state.2 p niceval)

/-- A nice value within its bounds. -/
def clampNice (niceval : ℤ) : ℤ :=
  let niceval := if niceval < minNice then minNice else niceval
  if maxNice < niceval then maxNice else niceval

/-- `setpriority`: what it returns, and the nice values after it. -/
def setpriority (table : TaskTable) (answers : PrioAnswers) (current : ℕ) (nice : ℕ → ℤ)
    (which who niceval : ℤ) : Except Errno Unit × (ℕ → ℤ) :=
  if prioUser < which ∨ which < prioProcess then (.error .einval, nice)
  else
    (table.selected current which who).foldl
      (setOnePrio table answers current (clampNice niceval)) (.error .esrch, nice)

/-- `nice_to_rlimit`. -/
def niceToRlimit (nice : ℤ) : ℤ := maxNice - nice + 1

/-- A step of the loops of `getpriority`. -/
def largerPrio (nice : ℕ → ℤ) (retval : ℤ) (p : ℕ) : ℤ :=
  if retval < niceToRlimit (nice p) then niceToRlimit (nice p) else retval

/-- `getpriority`; an error is a negative number. -/
def getpriority (table : TaskTable) (current : ℕ) (nice : ℕ → ℤ) (which who : ℤ) : ℤ :=
  if prioUser < which ∨ which < prioProcess then -22
  else (table.selected current which who).foldl (largerPrio nice) (-3)

/-! ### What the loop of `setpriority` comes to -/

section Loop

variable {table : TaskTable} {answers : PrioAnswers} {current : ℕ} {niceval : ℤ} {nice : ℕ → ℤ}

/-- The error with which a task refuses a nice value, if it does. -/
def refusal (table : TaskTable) (answers : PrioAnswers) (current : ℕ) (niceval : ℤ) (nice : ℕ → ℤ)
    (p : ℕ) : Option Errno :=
  match checkOnePrio table answers current niceval nice p with
  | .error errno => some errno
  | .ok () => none

/-- The nice values after the loop: the tasks that do not refuse have the new one. -/
def reniced (table : TaskTable) (answers : PrioAnswers) (current : ℕ) (niceval : ℤ) (nice : ℕ → ℤ)
    (tasks : List ℕ) : ℕ → ℤ := fun p ↦
  if p ∈ tasks ∧ refusal table answers current niceval nice p = none then niceval else nice p

/-- The result of the loop: the error of the last task that refuses. -/
def lastRefusal (table : TaskTable) (answers : PrioAnswers) (current : ℕ) (niceval : ℤ)
    (nice : ℕ → ℤ) (tasks : List ℕ) : Except Errno Unit :=
  match (tasks.filterMap (refusal table answers current niceval nice)).getLast? with
  | some errno => .error errno
  | none => if tasks = [] then .error .esrch else .ok ()

/-- A task does not refuse exactly when all the checks succeed. -/
theorem refusal_eq_none_iff {p : ℕ} :
    refusal table answers current niceval nice p = none ↔
      setOnePrioPerm table answers current p = true ∧
        (niceval < nice p → answers.canNice p niceval = true) ∧ answers.setnice p = none := by
  have hchecks : checkOnePrio table answers current niceval nice p = .ok () ↔
      setOnePrioPerm table answers current p = true ∧
        (niceval < nice p → answers.canNice p niceval = true) ∧ answers.setnice p = none := by
    unfold checkOnePrio
    rw [require_seq_eq_ok_iff, require_seq_eq_ok_iff]
    cases answers.setnice p <;> simp [hookAccepts]
  rw [← hchecks]
  unfold refusal
  split <;> simp_all

/-- What a task answers depends on no other nice value than its own. -/
theorem refusal_congr {other : ℕ → ℤ} {p : ℕ} (hsame : other p = nice p) :
    refusal table answers current niceval other p =
      refusal table answers current niceval nice p := by
  unfold refusal checkOnePrio
  rw [hsame]

/-- What a task answers does not depend on who has got the nice value before it. -/
theorem refusal_reniced (tasks : List ℕ) (p : ℕ) :
    refusal table answers current niceval (reniced table answers current niceval nice tasks) p =
      refusal table answers current niceval nice p := by
  by_cases hreniced : p ∈ tasks ∧ refusal table answers current niceval nice p = none
  · obtain ⟨hperm, -, hhook⟩ := refusal_eq_none_iff.mp hreniced.2
    rw [hreniced.2, refusal_eq_none_iff]
    refine ⟨hperm, fun hlower ↦ absurd hlower ?_, hhook⟩
    rw [reniced, if_pos hreniced]
    exact Int.lt_irrefl niceval
  · exact refusal_congr (if_neg hreniced)

/-- Only a security hook can answer `ESRCH`. -/
theorem refusal_ne_esrch (hhook : ∀ p, answers.setnice p ≠ some .esrch) (p : ℕ) :
    refusal table answers current niceval nice p ≠ some .esrch := by
  intro hrefusal
  unfold refusal checkOnePrio require at hrefusal
  specialize hhook p
  cases hanswer : answers.setnice p with
  | none =>
    rw [hanswer] at hrefusal
    split_ifs at hrefusal <;> simp [hookAccepts, bind, Except.bind] at hrefusal
  | some errno =>
    rw [hanswer] at hrefusal hhook
    split_ifs at hrefusal <;> simp [hookAccepts, bind, Except.bind] at hrefusal
    exact hhook (congrArg some hrefusal)

/-- A step of the loop, by the answer of the task. -/
theorem setOnePrio_eq (error : Except Errno Unit) (p : ℕ) :
    setOnePrio table answers current niceval (error, nice) p =
      match refusal table answers current niceval nice p, error with
      | some errno, _ => (.error errno, nice)
      | none, .error .esrch => (.ok (), Function.update nice p niceval)
      | none, error => (error, Function.update nice p niceval) := by
  unfold setOnePrio refusal
  dsimp only
  cases checkOnePrio table answers current niceval nice p with
  | error errno => rfl
  | ok _ =>
    cases error with
    | error errno => cases errno <;> rfl
    | ok _ => rfl

/-- One more task that refuses. -/
theorem loop_append_refused (tasks : List ℕ) {p : ℕ} {errno : Errno}
    (hrefusal : refusal table answers current niceval nice p = some errno) :
    lastRefusal table answers current niceval nice (tasks ++ [p]) = .error errno ∧
      reniced table answers current niceval nice (tasks ++ [p]) =
        reniced table answers current niceval nice tasks := by
  constructor
  · simp [lastRefusal, List.filterMap_append, hrefusal]
  · funext q
    unfold reniced
    by_cases hsame : q = p
    · subst hsame
      simp [hrefusal]
    · simp [hsame]

/-- One more task that does not refuse. -/
theorem loop_append_accepted (tasks : List ℕ) {p : ℕ}
    (haccepted : refusal table answers current niceval nice p = none) :
    lastRefusal table answers current niceval nice (tasks ++ [p]) =
        (match (tasks.filterMap (refusal table answers current niceval nice)).getLast? with
        | some errno => .error errno
        | none => .ok ()) ∧
      reniced table answers current niceval nice (tasks ++ [p]) =
        Function.update (reniced table answers current niceval nice tasks) p niceval := by
  constructor
  · simp [lastRefusal, List.filterMap_append, haccepted]
  · funext q
    unfold reniced
    by_cases hsame : q = p
    · subst hsame
      simp [haccepted]
    · simp [hsame]

/-- What the loop over the tasks comes to. Assumes: no security hook answers `ESRCH`. -/
theorem foldl_setOnePrio (hhook : ∀ p, answers.setnice p ≠ some .esrch) (tasks : List ℕ) :
    tasks.foldl (setOnePrio table answers current niceval) (.error .esrch, nice) =
      (lastRefusal table answers current niceval nice tasks,
        reniced table answers current niceval nice tasks) := by
  induction tasks using List.reverseRecOn with
  | nil =>
    have hnice : reniced table answers current niceval nice [] = nice := by
      funext p
      simp [reniced]
    rw [hnice]
    rfl
  | append_singleton tasks p ih =>
    rw [List.foldl_append, ih, List.foldl_cons, List.foldl_nil, setOnePrio_eq, refusal_reniced]
    cases hrefusal : refusal table answers current niceval nice p with
    | some errno =>
      obtain ⟨hlast, hnice⟩ := loop_append_refused tasks hrefusal
      rw [hlast, hnice]
    | none =>
      obtain ⟨hlast, hnice⟩ := loop_append_accepted tasks hrefusal
      rw [hlast, hnice]
      unfold lastRefusal
      cases hfirst : (tasks.filterMap (refusal table answers current niceval nice)).getLast? with
      | none =>
        dsimp only
        split_ifs <;> rfl
      | some errno =>
        have hesrch : errno ≠ .esrch := by
          rintro rfl
          obtain ⟨q, -, hq⟩ := List.mem_filterMap.mp (List.mem_of_getLast? hfirst)
          exact refusal_ne_esrch hhook q hq
        cases errno <;> first | exact absurd rfl hesrch | rfl

end Loop

/-! ### What the calls return -/

section Calls

variable {table : TaskTable} {answers : PrioAnswers} {current : ℕ} {nice : ℕ → ℤ}
  {which who niceval : ℤ}

/-- What `setpriority` does: exactly the selected tasks that do not refuse get the nice value, and
the result is the error of the last one that refuses, or `ESRCH` when no task is selected. Assumes:
`which` is one of the three numbers, and no security hook answers `ESRCH`. -/
theorem setpriority_eq (hwhich : prioProcess ≤ which ∧ which ≤ prioUser)
    (hhook : ∀ p, answers.setnice p ≠ some .esrch) :
    setpriority table answers current nice which who niceval =
      (lastRefusal table answers current (clampNice niceval) nice
        (table.selected current which who),
      reniced table answers current (clampNice niceval) nice
        (table.selected current which who)) := by
  unfold setpriority
  rw [if_neg (by omega), foldl_setOnePrio hhook]

/-- Three tasks in one group, the last of them of another user. -/
def threeTasks : TaskTable where
  threads := [0, 1, 2]
  members pgrp := if pgrp = 4 then [2, 1, 0] else []
  byPid pid := if pid = 4 then some 0 else none
  cred p :=
    if p = 2 then ⟨⟨7, 7, 7, 7⟩, ⟨7, 7, 7, 7⟩, 7⟩
    else ⟨⟨1000, 1000, 1000, 1000⟩, ⟨1000, 1000, 1000, 1000⟩, 1000⟩
  pgrp _ := 4
  hidden _ := false
  uid := ⟨id, id⟩
  user uid := uid = 7 ∨ uid = 1000

/-- A caller without a capability. -/
def ordinary : PrioAnswers :=
  { nsCapable := fun _ ↦ false, canNice := fun _ _ ↦ false, setnice := fun _ ↦ none }

/-- No security hook refuses the caller. -/
theorem ordinary_setnice (p : ℕ) : ordinary.setnice p ≠ some .esrch := fun hesrch ↦ nomatch hesrch

/-- The group is reniced but for the task of the other user, whose error is returned. -/
theorem setpriority_eq_threeTasks :
    (setpriority threeTasks ordinary 0 (fun _ ↦ 0) prioPgrp 4 30).1 = .error .eperm ∧
      (setpriority threeTasks ordinary 0 (fun _ ↦ 0) prioPgrp 4 30).2 1 = maxNice ∧
      (setpriority threeTasks ordinary 0 (fun _ ↦ 0) prioPgrp 4 30).2 2 = 0 := by
  rw [setpriority_eq (by decide) ordinary_setnice]
  exact ⟨rfl, by decide, by decide⟩

/-- The loop succeeds exactly when there is a task and none refuses. -/
theorem lastRefusal_eq_ok_iff {tasks : List ℕ} :
    lastRefusal table answers current niceval nice tasks = .ok () ↔
      tasks ≠ [] ∧ ∀ p ∈ tasks, refusal table answers current niceval nice p = none := by
  unfold lastRefusal
  cases hlast : (tasks.filterMap (refusal table answers current niceval nice)).getLast? with
  | some errno =>
    obtain ⟨p, hp, hrefusal⟩ := List.mem_filterMap.mp (List.mem_of_getLast? hlast)
    refine iff_of_false (fun hok ↦ nomatch hok) ?_
    rintro ⟨-, hnone⟩
    exact absurd ((hnone p hp).symm.trans hrefusal) (by simp)
  | none =>
    have hnone : ∀ p ∈ tasks, refusal table answers current niceval nice p = none := by
      rwa [List.getLast?_eq_none_iff, List.filterMap_eq_nil_iff] at hlast
    dsimp only
    split_ifs with hempty
    · exact iff_of_false (fun hok ↦ nomatch hok) fun hboth ↦ hboth.1 hempty
    · exact iff_of_true rfl ⟨hempty, hnone⟩

/-- The loop of `getpriority`: what it returns is at least each of the priorities, and is one of
them or what the loop has started from. -/
theorem foldl_largerPrio (nice : ℕ → ℤ) (tasks : List ℕ) (retval : ℤ) :
    retval ≤ tasks.foldl (largerPrio nice) retval ∧
      (∀ p ∈ tasks, niceToRlimit (nice p) ≤ tasks.foldl (largerPrio nice) retval) ∧
      (tasks.foldl (largerPrio nice) retval = retval ∨
        ∃ p ∈ tasks, tasks.foldl (largerPrio nice) retval = niceToRlimit (nice p)) := by
  induction tasks generalizing retval with
  | nil => exact ⟨Int.le_refl retval, fun _ hp ↦ absurd hp List.not_mem_nil, Or.inl rfl⟩
  | cons p tasks ih =>
    obtain ⟨hstart, hall, hone⟩ := ih (largerPrio nice retval p)
    rw [List.foldl_cons]
    have hlarger : retval ≤ largerPrio nice retval p ∧
        niceToRlimit (nice p) ≤ largerPrio nice retval p := by
      unfold largerPrio
      split_ifs <;> omega
    refine ⟨Int.le_trans hlarger.1 hstart, ?_, ?_⟩
    · intro q hq
      obtain rfl | hlater := List.mem_cons.mp hq
      · exact Int.le_trans hlarger.2 hstart
      · exact hall q hlater
    · obtain hkept | ⟨q, hq, hvalue⟩ := hone
      · rw [hkept]
        unfold largerPrio
        split_ifs
        · exact Or.inr ⟨p, List.mem_cons_self, rfl⟩
        · exact Or.inl rfl
      · exact Or.inr ⟨q, List.mem_cons_of_mem p hq, hvalue⟩

/-- The nice values are within their bounds. -/
def NiceInRange (nice : ℕ → ℤ) : Prop := ∀ p, minNice ≤ nice p ∧ nice p ≤ maxNice

/-- What `getpriority` returns when a task is selected: the largest of the priorities. Assumes: the
nice values are within their bounds. -/
theorem getpriority_eq_iff (hrange : NiceInRange nice)
    (hwhich : prioProcess ≤ which ∧ which ≤ prioUser)
    (htasks : table.selected current which who ≠ []) (priority : ℤ) :
    getpriority table current nice which who = priority ↔
      (∃ p ∈ table.selected current which who, priority = niceToRlimit (nice p)) ∧
        ∀ p ∈ table.selected current which who, niceToRlimit (nice p) ≤ priority := by
  obtain ⟨-, hall, hone⟩ := foldl_largerPrio nice (table.selected current which who) (-3)
  have hone : ∃ p ∈ table.selected current which who,
      getpriority table current nice which who = niceToRlimit (nice p) := by
    unfold getpriority
    rw [if_neg (by omega)]
    refine hone.resolve_left fun hnothing ↦ ?_
    obtain ⟨p, hp⟩ := List.exists_mem_of_ne_nil _ htasks
    have hle := hall p hp
    have hmax := (hrange p).2
    rw [hnothing] at hle
    unfold niceToRlimit at hle
    omega
  have hall : ∀ p ∈ table.selected current which who,
      niceToRlimit (nice p) ≤ getpriority table current nice which who := by
    unfold getpriority
    rwa [if_neg (by omega)]
  constructor
  · rintro rfl
    exact ⟨hone, hall⟩
  · rintro ⟨⟨p, hp, rfl⟩, hle⟩
    obtain ⟨q, hq, hvalue⟩ := hone
    exact Int.le_antisymm (hvalue ▸ hle q hq) (hall p hp)

/-- A clamped nice value is within the bounds. -/
theorem clampNice_inRange (niceval : ℤ) :
    minNice ≤ clampNice niceval ∧ clampNice niceval ≤ maxNice := by
  have hbounds : minNice ≤ maxNice := by decide
  unfold clampNice
  dsimp only
  split_ifs <;> omega

/-- The loop keeps the nice values within their bounds. -/
theorem NiceInRange.reniced (hrange : NiceInRange nice) (tasks : List ℕ) :
    NiceInRange (reniced table answers current (clampNice niceval) nice tasks) := by
  intro p
  unfold Kernel.reniced
  split_ifs
  · exact clampNice_inRange niceval
  · exact hrange p

/-- What has been set is read back: after a `setpriority` that succeeds, `getpriority` of the same
tasks returns the priority of that nice value, within its bounds. Assumes: no security hook answers
`ESRCH`, and the nice values were within their bounds. -/
theorem getpriority_of_setpriority (hrange : NiceInRange nice)
    (hhook : ∀ p, answers.setnice p ≠ some .esrch)
    (hok : (setpriority table answers current nice which who niceval).1 = .ok ()) :
    getpriority table current
        (setpriority table answers current nice which who niceval).2 which who =
      niceToRlimit (clampNice niceval) := by
  have hwhich : prioProcess ≤ which ∧ which ≤ prioUser := by
    unfold setpriority at hok
    split_ifs at hok with hbounds
    omega
  rw [setpriority_eq hwhich hhook] at hok ⊢
  obtain ⟨htasks, hnone⟩ := lastRefusal_eq_ok_iff.mp hok
  have hset : ∀ p ∈ table.selected current which who,
      reniced table answers current (clampNice niceval) nice (table.selected current which who) p =
        clampNice niceval := fun p hp ↦ if_pos ⟨hp, hnone p hp⟩
  obtain ⟨first, hfirst⟩ := List.exists_mem_of_ne_nil _ htasks
  rw [getpriority_eq_iff (hrange.reniced _) hwhich htasks]
  exact ⟨⟨first, hfirst, (congrArg niceToRlimit (hset first hfirst)).symm⟩,
    fun p hp ↦ Int.le_of_eq (congrArg niceToRlimit (hset p hp))⟩

/-- The tasks of the user are reniced, and the priority is read back. -/
theorem getpriority_of_setpriority_threeTasks :
    getpriority threeTasks 0
      (setpriority threeTasks ordinary 0 (fun _ ↦ 0) prioUser 1000 30).2 prioUser 1000 = 1 :=
  getpriority_of_setpriority (fun _ ↦ by decide) ordinary_setnice rfl

end Calls

/-! ### The transition system -/

/-- The nice values of the tasks, and the number of the next one. -/
structure PrioState where
  nice : ℕ → ℤ
  tasks : ℕ

/-- A call of a task, with what it finds and what it is answered; and a fork. -/
inductive PrioEvent
  | setpriority (current : ℕ) (which who niceval : ℤ) (table : TaskTable) (answers : PrioAnswers)
  | fork (parent : ℕ)

/-- One event. A new task has the nice value of its parent. -/
def PrioState.step (state : PrioState) : PrioEvent → Option PrioState
  | .setpriority current which who niceval table answers =>
    some { state with
      nice := (Kernel.setpriority table answers current state.nice which who niceval).2 }
  | .fork parent =>
    if parent < state.tasks then
      some { nice := Function.update state.nice state.tasks (state.nice parent)
             tasks := state.tasks + 1 }
    else none

/-- The tasks from a first state on. -/
def priorities (first : PrioState) : System PrioState PrioEvent where
  initial := first
  step := PrioState.step

section Runs

variable {table : TaskTable} {answers : PrioAnswers} {current : ℕ} {nice : ℕ → ℤ}
  {which who niceval : ℤ}

/-- What a step of the loop does to the nice value of a task: nothing, or the task does not refuse
the new one. -/
theorem setOnePrio_nice (niceval : ℤ) (state : Except Errno Unit × (ℕ → ℤ)) (p q : ℕ) :
    (setOnePrio table answers current niceval state p).2 q = state.2 q ∨
      (setOnePrio table answers current niceval state p).2 q = niceval ∧
        refusal table answers current niceval state.2 q = none := by
  obtain ⟨error, nice⟩ := state
  rw [setOnePrio_eq]
  cases hrefusal : refusal table answers current niceval nice p with
  | some errno => exact Or.inl rfl
  | none =>
    by_cases hsame : q = p
    · subst hsame
      refine Or.inr ⟨?_, hrefusal⟩
      split <;> simp_all
    · refine Or.inl ?_
      split <;> simp_all

/-- What the loop does to the nice value of a task. -/
theorem foldl_setOnePrio_nice (tasks : List ℕ) (state : Except Errno Unit × (ℕ → ℤ)) (p : ℕ) :
    (tasks.foldl (setOnePrio table answers current niceval) state).2 p = state.2 p ∨
      (tasks.foldl (setOnePrio table answers current niceval) state).2 p = niceval ∧
        refusal table answers current niceval state.2 p = none := by
  induction tasks generalizing state with
  | nil => exact Or.inl rfl
  | cons q tasks ih =>
    rw [List.foldl_cons]
    obtain hkept | ⟨hset, haccepted⟩ := setOnePrio_nice niceval state q p
    · have hrest := ih (setOnePrio table answers current niceval state q)
      rwa [hkept, refusal_congr hkept] at hrest
    · refine Or.inr ⟨?_, haccepted⟩
      obtain hlater | ⟨hlater, -⟩ := ih (setOnePrio table answers current niceval state q)
      · exact hlater.trans hset
      · exact hlater

/-- What a call does to the nice value of a task. -/
theorem setpriority_nice (p : ℕ) :
    (setpriority table answers current nice which who niceval).2 p = nice p ∨
      (setpriority table answers current nice which who niceval).2 p = clampNice niceval ∧
        refusal table answers current (clampNice niceval) nice p = none := by
  unfold setpriority
  split_ifs
  · exact Or.inl rfl
  · exact foldl_setOnePrio_nice _ _ p

/-- A call to which `can_nice` allows nothing; a fork is no call. -/
def PrioEvent.Impolite : PrioEvent → Prop
  | .setpriority _ _ _ _ _ answers => ∀ p niceval, answers.canNice p niceval = false
  | .fork _ => True

/-- The task that an event makes, after the one that forks. -/
def PrioState.birth (state : PrioState) : PrioEvent → Option (ℕ × ℕ)
  | .setpriority _ _ _ _ _ _ => none
  | .fork parent => some (parent, state.tasks)

/-- The task of the first state that a task descends from, by the forks of a run. -/
def PrioState.origin (first : PrioState) (events : List PrioEvent) (p : ℕ) : ℕ :=
  (priorities first).origin PrioState.birth first events p

/-- After a run every task descends from one of the first state and has at least that one's nice
value, and a task of the first state descends from itself. -/
structure PrioState.Descends (final first : PrioState) (events : List PrioEvent) : Prop where
  bounded : ∀ p < final.tasks, first.origin events p < first.tasks ∧
    first.nice (first.origin events p) ≤ final.nice p
  own : ∀ p < first.tasks, first.origin events p = p

/-- A step in which `can_nice` allows nothing makes no nice value smaller, and a new task has that
of the one that forked it. -/
theorem PrioState.inherits {state next : PrioState} {event : PrioEvent}
    (himpolite : event.Impolite) (hstep : state.step event = some next) {p : ℕ}
    (hp : p < next.tasks) :
    System.former PrioState.birth state event p < state.tasks ∧
      state.nice (System.former PrioState.birth state event p) ≤ next.nice p := by
  cases event with
  | setpriority current which who niceval table answers =>
    obtain rfl := Option.some.inj hstep
    refine ⟨hp, ?_⟩
    have hnice := @setpriority_nice table answers current state.nice which who niceval p
    obtain hkept | ⟨hset, haccepted⟩ := hnice
    · exact Int.le_of_eq hkept.symm
    · refine Int.not_lt.mp fun hlower ↦ ?_
      have hcan := (refusal_eq_none_iff.mp haccepted).2.1 (hset ▸ hlower)
      exact absurd ((himpolite p _).symm.trans hcan) (by decide)
  | fork parent =>
    dsimp only [PrioState.step] at hstep
    split_ifs at hstep with hparent
    obtain rfl := Option.some.inj hstep
    change (if p = state.tasks then parent else p) < state.tasks ∧
      state.nice (if p = state.tasks then parent else p) ≤
        Function.update state.nice state.tasks (state.nice parent) p
    by_cases hnew : p = state.tasks
    · rw [if_pos hnew, hnew, Function.update_self]
      exact ⟨hparent, Int.le_refl _⟩
    · rw [if_neg hnew, Function.update_of_ne hnew]
      exact ⟨Nat.lt_of_le_of_ne (Nat.le_of_lt_succ hp) hnew, Int.le_refl _⟩

/-- The number of tasks never falls. -/
theorem PrioState.tasks_le {state next : PrioState} {event : PrioEvent}
    (hstep : state.step event = some next) : state.tasks ≤ next.tasks := by
  cases event with
  | setpriority current which who niceval table answers =>
    obtain rfl := Option.some.inj hstep
    exact Nat.le_refl _
  | fork parent =>
    dsimp only [PrioState.step] at hstep
    split_ifs at hstep
    obtain rfl := Option.some.inj hstep
    exact Nat.le_succ _

/-- A task that a fork makes was not there before. -/
theorem PrioState.not_present_of_birth {state : PrioState} {event : PrioEvent} {parent child : ℕ}
    (hbirth : state.birth event = some (parent, child)) : ¬ child < state.tasks := by
  cases event with
  | setpriority => cases hbirth
  | fork =>
    cases hbirth
    exact Nat.lt_irrefl _

/-- In every run in which `can_nice` allows nothing, no task ever has a smaller nice value than the
task of the first state that it descends from by the forks of the run. -/
theorem descends_of_impolite {first final : PrioState} {events : List PrioEvent}
    (himpolite : ∀ event ∈ events, event.Impolite)
    (hrun : (priorities first).run first events = some final) : final.Descends first events := by
  constructor
  · intro p hp
    exact System.bound_origin (fun state p ↦ p < state.tasks)
      (fun state former next p ↦ state.nice former ≤ next.nice p) (fun _ _ ↦ Int.le_refl _)
      (fun hearlier hlater ↦ Int.le_trans hearlier hlater)
      (fun _ himpolite hstep ↦ ⟨trivial, fun _ hp ↦ PrioState.inherits himpolite hstep hp⟩)
      trivial himpolite hrun hp
  · intro p hp
    exact System.origin_eq_self (fun state p ↦ p < state.tasks)
      (fun _ hbirth ↦ PrioState.not_present_of_birth hbirth)
      (fun hstep hpresent ↦ Nat.lt_of_lt_of_le hpresent (PrioState.tasks_le hstep)) events hp

/-- One task that nobody has reniced. -/
def oneTask : PrioState := ⟨fun _ ↦ 0, 1⟩

/-- The first task makes itself nicer, starts another one, and cannot go back. -/
def nicerAndForks : List PrioEvent :=
  [.setpriority 0 prioProcess 0 5 threeTasks ordinary, .fork 0,
    .setpriority 0 prioProcess 0 0 threeTasks ordinary]

/-- The task that was started descends from the first one, whose nice value it has. -/
theorem descends_oneTask :
    ∃ final, (priorities oneTask).run oneTask nicerAndForks = some final ∧ final.nice 0 = 5 ∧
      final.nice 1 = 5 ∧ oneTask.origin nicerAndForks 1 = 0 ∧
        final.Descends oneTask nicerAndForks := by
  have himpolite : ∀ event ∈ nicerAndForks, event.Impolite := by
    have hcall : ∀ niceval,
        (PrioEvent.setpriority 0 prioProcess 0 niceval threeTasks ordinary).Impolite :=
      fun _ _ _ ↦ rfl
    have hfork : (PrioEvent.fork 0).Impolite := trivial
    intro event hevent
    simp only [nicerAndForks, List.mem_cons, List.not_mem_nil, or_false] at hevent
    rcases hevent with rfl | rfl | rfl
    · exact hcall 5
    · exact hfork
    · exact hcall 0
  have hrun : ((priorities oneTask).run oneTask nicerAndForks).any
      (fun final ↦ final.nice 0 = 5 ∧ final.nice 1 = 5) = true := by
    decide +kernel
  obtain ⟨final, hfinal, hnice⟩ := (Option.any_eq_true _ _).mp hrun
  obtain ⟨hfirst, hsecond⟩ := of_decide_eq_true hnice
  exact ⟨final, hfinal, hfirst, hsecond, by decide +kernel,
    descends_of_impolite himpolite hfinal⟩

end Runs

end Apes.Kernel
