import Apes.Kernel.ProcessGroups
import Mathlib.Data.List.Basic

/-!
# What holds of groups and sessions

`groups_of_reachable` is the invariant of the process groups, for every run of the processes. The
processes of one group are in one session, which is also the session of the process with the number
of the group; the process with the number of a session is its leader and a leader is in the group
and in the session with its own number. The tasks that are attached to a number are those that
have it, which is what `setpgid` and `setsid` rely on when they look at one task of a group, or for
any.

`getsid_of_getpgid`, `getpgid_of_setpgid` and `getsid_of_setsid` say what the processes are told of
it. `leader_stays` and `group_of_executed` follow one process through a run. A session leader stays
one until it is released, and a process that has called `exec` is moved by no one but itself.

`GroupState.Moves` is what an event does to the processes, without the lists of attached tasks, and
`GroupState.step_moves` the one proof that looks into the calls. The invariant of the processes is
`Orderly`, and `Fits` says of one process that it may be added to the others.
-/

set_option autoImplicit false
set_option relaxedAutoImplicit false

namespace Apes.Kernel

open Library

/-! ### The lists of attached tasks -/

section Attached

variable {number : Process → ℤ} {tasks : ℤ → List ℤ} {process : ℤ → Option Process}

/-- The tasks attached to a number are the processes that have it. -/
def Attached (number : Process → ℤ) (tasks : ℤ → List ℤ) (process : ℤ → Option Process) : Prop :=
  ∀ n pid, pid ∈ tasks n ↔ ∃ p, process pid = some p ∧ number p = n

/-- A process that changes, but not its number. -/
theorem Attached.update (hattached : Attached number tasks process) {pid : ℤ} {p new : Process}
    (hp : process pid = some p) (hsame : number new = number p) :
    Attached number tasks (Function.update process pid (some new)) := by
  intro n q
  rw [hattached n q]
  by_cases hq : q = pid
  · subst hq
    simp [hp, hsame]
  · simp [hq]

/-- A process whose number changes with `change_pid`. -/
theorem Attached.changePid (hattached : Attached number tasks process) {pid m : ℤ}
    {p new : Process} (hp : process pid = some p) (hnumber : number new = m) :
    Attached number (changePid tasks pid (number p) m)
      (Function.update process pid (some new)) := by
  subst hnumber
  intro n q
  have hdetached : ∀ m, q ∈ Function.update tasks (number p)
      ((tasks (number p)).filter (· ≠ pid)) m ↔ q ≠ pid ∧ q ∈ tasks m := by
    intro m
    by_cases hm : m = number p
    · subst hm
      simp [and_comm]
    · have hother : q ∈ tasks m → q ≠ pid := by
        rintro hmember rfl
        obtain ⟨found, hfound, hnumber⟩ := (hattached m q).mp hmember
        rw [hp, Option.some.injEq] at hfound
        exact hm (hfound ▸ hnumber.symm)
      simpa [hm] using hother
  have hmember : q ∈ Kernel.changePid tasks pid (number p) (number new) n ↔
      (n = number new ∧ q = pid) ∨ (q ≠ pid ∧ q ∈ tasks n) := by
    unfold Kernel.changePid
    by_cases hn : n = number new
    · subst hn
      simp only [Function.update_self, List.mem_cons, hdetached, true_and]
    · simp only [Function.update_of_ne hn, hdetached, hn, false_and, false_or]
  rw [hmember]
  by_cases hq : q = pid
  · subst hq
    simp [eq_comm]
  · simp [hq, hattached n q]

/-- A new process that is attached to its number. -/
theorem Attached.attach (hattached : Attached number tasks process) {pid : ℤ}
    (hfree : process pid = none) (new : Process) :
    Attached number (Function.update tasks (number new) (pid :: tasks (number new)))
      (Function.update process pid (some new)) := by
  intro n q
  have hmember : q ∈ Function.update tasks (number new) (pid :: tasks (number new)) n ↔
      (n = number new ∧ q = pid) ∨ q ∈ tasks n := by
    by_cases hn : n = number new
    · subst hn
      simp
    · simp [hn]
  rw [hmember, hattached n q]
  by_cases hq : q = pid
  · subst hq
    simp [hfree, eq_comm]
  · simp [hq]

/-- A process that is detached. -/
theorem Attached.detach (hattached : Attached number tasks process) (pid : ℤ) :
    Attached number (fun n ↦ (tasks n).filter (· ≠ pid)) (Function.update process pid none) := by
  intro n q
  by_cases hq : q = pid
  · subst hq
    simp
  · simp [hq, hattached n q]

/-- Processes that change, but not their numbers. -/
theorem Attached.map (hattached : Attached number tasks process) {change : Process → Process}
    (hsame : ∀ p, number (change p) = number p) :
    Attached number tasks fun pid ↦ (process pid).map change := by
  intro n q
  rw [hattached n q]
  cases hq : process q with
  | none => simp [hq]
  | some p => simp [hq, hsame]

end Attached

/-- The lists of the attached tasks are those of the groups and of the sessions. -/
structure GroupState.Listed (state : GroupState) : Prop where
  groups : Attached Process.pgrp state.groupTasks state.process
  sessions : Attached Process.session state.sessionTasks state.process

/-! ### The events -/

/-- What an event does to the processes. A process that is moved is no session leader, and the group
that it is moved to has its own number or a member in its session; it is moved by itself or by its
parent, by the latter only before it has called `exec`. A process that becomes a session leader is
none yet, and no process is in the group with its number. The number of a new process is that of no
process, no group and no session. -/
inductive GroupState.Moves (state : GroupState) (event : GroupEvent) (next : GroupState) : Prop
  | same (hnext : next.process = state.process)
  | regroup (caller pid pgid pgrp : ℤ) (hook : Option Errno) (p : Process)
      (hevent : event = .setpgid caller pid pgid hook) (moved : ℤ)
      (hp : state.process moved = some p)
      (hcaller : moved = caller ∨ p.realParent = caller ∧ p.forkNoExec = true)
      (hleader : p.leader = false)
      (hgroup : pgrp = moved ∨ ∃ g member, state.process g = some member ∧
        member.pgrp = pgrp ∧ member.session = p.session)
      (hnext : next.process = Function.update state.process moved (some { p with pgrp }))
  | newSession (caller : ℤ) (p : Process) (hevent : event = .setsid caller)
      (hp : state.process caller = some p) (hleader : p.leader = false)
      (hempty : ∀ pid member, state.process pid = some member → member.pgrp ≠ caller)
      (hnext : next.process = Function.update state.process caller
        (some { p with leader := true, session := caller, pgrp := caller }))
  | fork (forking child : ℤ) (cloneParent : Bool) (p : Process)
      (hevent : event = .fork forking child cloneParent)
      (hp : state.process forking = some p) (hfree : state.process child = none)
      (hunused : ∀ pid other, state.process pid = some other →
        other.pgrp ≠ child ∧ other.session ≠ child)
      (hnext : next.process =
        Function.update state.process child (some (p.child forking cloneParent)))
  | exec (pid : ℤ) (p : Process) (hevent : event = .exec pid) (hp : state.process pid = some p)
      (hnext : next.process =
        Function.update state.process pid (some { p with forkNoExec := false }))
  | exit (pid reaper : ℤ) (hevent : event = .exit pid reaper)
      (hnext : next.process = fun q ↦ (state.process q).map fun p ↦
        if p.realParent = pid then { p with realParent := reaper } else p)
  | release (pid : ℤ) (hevent : event = .release pid)
      (hnext : next.process = Function.update state.process pid none)

/-- A group that is in a session has a member there. -/
theorem exists_member_of_groupIsIn {state : GroupState} (hlisted : state.Listed)
    {pgrp session : ℤ} (hin : state.groupIsIn pgrp session = true) :
    ∃ g member, state.process g = some member ∧ member.pgrp = pgrp ∧
      member.session = session := by
  unfold GroupState.groupIsIn at hin
  cases htasks : state.groupTasks pgrp with
  | nil => simp [htasks] at hin
  | cons g rest =>
    rw [htasks, List.head?_cons] at hin
    obtain ⟨member, hmember, hsession⟩ := (Option.any_eq_true _ _).mp hin
    obtain ⟨found, hfound, hpgrp⟩ := (hlisted.groups pgrp g).mp (htasks ▸ List.mem_cons_self)
    rw [hmember, Option.some.injEq] at hfound
    exact ⟨g, member, hmember, hfound ▸ hpgrp, of_decide_eq_true hsession⟩

/-- What `find_task_by_vpid` has found. -/
theorem process_of_findLeader {state : GroupState} {pid : ℤ} {p : Process}
    (hfound : state.findLeader pid = .ok p) : state.process pid = some p := by
  unfold GroupState.findLeader at hfound
  split at hfound
  · rename_i other hother
    rw [hother, Except.ok.inj hfound]
  · injection hfound

/-- The process that `setpgid` moves. -/
theorem process_of_checkSetpgid {state : GroupState} {hook : Option Errno} {caller pid pgid : ℤ}
    {groupLeader p : Process}
    (hcheck : checkSetpgid hook state caller groupLeader pid pgid = .ok p) :
    state.process pid = some p := by
  unfold checkSetpgid at hcheck
  obtain ⟨-, hcheck⟩ := require_seq_eq_ok_iff.mp hcheck
  obtain ⟨found, hfound, hcheck⟩ := seq_eq_ok_iff.mp hcheck
  obtain ⟨-, hcheck⟩ := require_seq_eq_ok_iff.mp hcheck
  obtain ⟨-, hcheck⟩ := require_seq_eq_ok_iff.mp hcheck
  obtain ⟨-, hcheck⟩ := require_seq_eq_ok_iff.mp hcheck
  obtain ⟨-, hcheck⟩ := require_seq_eq_ok_iff.mp hcheck
  obtain ⟨-, hcheck⟩ := require_seq_eq_ok_iff.mp hcheck
  obtain ⟨⟨⟩, -, hcheck⟩ := seq_eq_ok_iff.mp hcheck
  exact Except.ok.inj hcheck ▸ process_of_findLeader hfound

/-- A process changes its group, as the processes show it. -/
theorem GroupState.changePgrp_process {state : GroupState} {pid : ℤ} {p : Process}
    (hp : state.process pid = some p) (pgrp : ℤ) :
    (state.changePgrp pid p pgrp).process =
      Function.update state.process pid (some { p with pgrp }) := by
  unfold GroupState.changePgrp
  split_ifs with hsame
  · rw [← hsame, ← hp]
    exact (Function.update_eq_self pid state.process).symm
  · rfl

/-- A process changes its session, as the processes show it. -/
theorem GroupState.changeSession_process {state : GroupState} {pid : ℤ} {p : Process}
    (hp : state.process pid = some p) (session : ℤ) :
    (state.changeSession pid p session).process =
      Function.update state.process pid (some { p with session }) := by
  unfold GroupState.changeSession
  split_ifs with hsame
  · rw [← hsame, ← hp]
    exact (Function.update_eq_self pid state.process).symm
  · rfl

/-- What `setpgid` does. -/
theorem setpgid_moves {state : GroupState} (hlisted : state.Listed) {caller : ℤ}
    {groupLeader : Process} (hleader : state.process caller = some groupLeader) (pid pgid : ℤ)
    (hook : Option Errno) :
    state.Moves (.setpgid caller pid pgid hook)
      (setpgid hook state caller groupLeader pid pgid).2 := by
  unfold setpgid
  dsimp only
  generalize (if pid = 0 then caller else pid) = moved
  generalize (if pgid = 0 then moved else pgid) = pgrp
  cases hcheck : checkSetpgid hook state caller groupLeader moved pgrp with
  | error errno => exact .same rfl
  | ok p =>
    unfold checkSetpgid at hcheck
    obtain ⟨-, hcheck⟩ := require_seq_eq_ok_iff.mp hcheck
    obtain ⟨found, hfound, hcheck⟩ := seq_eq_ok_iff.mp hcheck
    obtain ⟨hsession, hcheck⟩ := require_seq_eq_ok_iff.mp hcheck
    obtain ⟨hexec, hcheck⟩ := require_seq_eq_ok_iff.mp hcheck
    obtain ⟨hself, hcheck⟩ := require_seq_eq_ok_iff.mp hcheck
    obtain ⟨hnotLeader, hcheck⟩ := require_seq_eq_ok_iff.mp hcheck
    obtain ⟨hgroup, hcheck⟩ := require_seq_eq_ok_iff.mp hcheck
    obtain ⟨⟨⟩, -, hcheck⟩ := seq_eq_ok_iff.mp hcheck
    obtain rfl := Except.ok.inj hcheck
    have hp := process_of_findLeader hfound
    have hcaller : moved = caller ∨ found.realParent = caller ∧ found.forkNoExec = true := by
      by_cases hparent : found.realParent = caller
      · exact Or.inr ⟨hparent, hexec hparent⟩
      · exact Or.inl (hself hparent)
    have hsame : groupLeader.session = found.session := by
      by_cases hparent : found.realParent = caller
      · exact (hsession hparent).symm
      · obtain rfl := hself hparent
        rw [hleader, Option.some.injEq] at hp
        rw [hp]
    refine .regroup caller pid pgid pgrp hook found rfl moved hp hcaller ?_ ?_
      (GroupState.changePgrp_process hp pgrp)
    · exact Bool.eq_false_iff.mpr hnotLeader
    · by_cases hown : pgrp = moved
      · exact Or.inl hown
      · exact Or.inr (hsame ▸ exists_member_of_groupIsIn hlisted (hgroup hown))

/-- A process becomes the leader of a session and of a group, as the processes show it. -/
theorem setSpecialPids_process (state : GroupState) (caller : ℤ) (groupLeader : Process) :
    (GroupState.setSpecialPids
        { state with process :=
            Function.update state.process caller (some { groupLeader with leader := true }) }
        caller { groupLeader with leader := true }).process =
      Function.update state.process caller
        (some { groupLeader with leader := true, session := caller, pgrp := caller }) := by
  unfold GroupState.setSpecialPids
  have hled : Function.update state.process caller
      (some { groupLeader with leader := true }) caller =
        some { groupLeader with leader := true } := Function.update_self ..
  rw [GroupState.changePgrp_process, GroupState.changeSession_process hled]
  · dsimp only
    rw [Function.update_idem, Function.update_idem]
  · rw [GroupState.changeSession_process hled]
    exact Function.update_self ..

/-- What `setsid` does. -/
theorem setsid_moves {state : GroupState} (hlisted : state.Listed) {caller : ℤ}
    {groupLeader : Process} (hleader : state.process caller = some groupLeader) :
    state.Moves (.setsid caller) (setsid state caller groupLeader).2 := by
  unfold setsid
  split_ifs with hrefused
  · exact .same rfl
  · obtain ⟨hnone, hempty⟩ := not_or.mp hrefused
    refine .newSession caller groupLeader rfl hleader (Bool.eq_false_iff.mpr hnone) ?_ ?_
    · intro pid member hmember hpgrp
      have htask := (hlisted.groups caller pid).mpr ⟨member, hmember, hpgrp⟩
      exact hempty fun hnil ↦ absurd (hnil ▸ htask) List.not_mem_nil
    · exact setSpecialPids_process state caller groupLeader

/-- What an event that happens does. -/
theorem GroupState.step_moves {state next : GroupState} {event : GroupEvent}
    (hlisted : state.Listed) (hstep : state.step event = some next) : state.Moves event next := by
  cases event with
  | setpgid caller pid pgid hook =>
    obtain ⟨groupLeader, hleader, rfl⟩ := Option.map_eq_some_iff.mp hstep
    exact setpgid_moves hlisted hleader pid pgid hook
  | setsid caller =>
    obtain ⟨groupLeader, hleader, rfl⟩ := Option.map_eq_some_iff.mp hstep
    exact setsid_moves hlisted hleader
  | fork forking child cloneParent =>
    dsimp only [GroupState.step] at hstep
    split_ifs at hstep with hfree
    obtain ⟨p, hp, rfl⟩ := Option.map_eq_some_iff.mp hstep
    obtain ⟨-, hnone, -, hgroup, hsession⟩ := hfree
    refine .fork forking child cloneParent p rfl hp hnone ?_ rfl
    intro pid other hother
    constructor
    · intro hpgrp
      have htask := (hlisted.groups child pid).mpr ⟨other, hother, hpgrp⟩
      exact absurd (hgroup ▸ htask) List.not_mem_nil
    · intro hnumber
      have htask := (hlisted.sessions child pid).mpr ⟨other, hother, hnumber⟩
      exact absurd (hsession ▸ htask) List.not_mem_nil
  | clone process tid =>
    dsimp only [GroupState.step] at hstep
    split_ifs at hstep
    obtain rfl := Option.some.inj hstep
    exact .same rfl
  | exec process =>
    obtain ⟨p, hp, rfl⟩ := Option.map_eq_some_iff.mp hstep
    exact .exec process p rfl hp rfl
  | exit process reaper =>
    dsimp only [GroupState.step] at hstep
    split_ifs at hstep
    obtain rfl := Option.some.inj hstep
    exact .exit process reaper rfl rfl
  | release process =>
    dsimp only [GroupState.step] at hstep
    split_ifs at hstep
    obtain rfl := Option.some.inj hstep
    exact .release process rfl rfl

/-! ### The lists stay those of the processes -/

/-- A change of the group keeps the lists. -/
theorem GroupState.Listed.changePgrp {state : GroupState} (hlisted : state.Listed) {pid : ℤ}
    {p : Process} (hp : state.process pid = some p) (pgrp : ℤ) :
    (state.changePgrp pid p pgrp).Listed := by
  unfold GroupState.changePgrp
  split_ifs
  · exact hlisted
  · exact ⟨hlisted.groups.changePid hp rfl, hlisted.sessions.update hp rfl⟩

/-- A change of the session keeps the lists. -/
theorem GroupState.Listed.changeSession {state : GroupState} (hlisted : state.Listed) {pid : ℤ}
    {p : Process} (hp : state.process pid = some p) (session : ℤ) :
    (state.changeSession pid p session).Listed := by
  unfold GroupState.changeSession
  split_ifs
  · exact hlisted
  · exact ⟨hlisted.groups.update hp rfl, hlisted.sessions.changePid hp rfl⟩

/-- Every event keeps the lists. -/
theorem GroupState.Listed.step {state next : GroupState} {event : GroupEvent}
    (hlisted : state.Listed) (hstep : state.step event = some next) : next.Listed := by
  cases event with
  | setpgid caller pid pgid hook =>
    obtain ⟨groupLeader, hleader, rfl⟩ := Option.map_eq_some_iff.mp hstep
    unfold setpgid
    dsimp only
    split
    · exact hlisted
    · rename_i p hcheck
      exact hlisted.changePgrp (process_of_checkSetpgid hcheck) _
  | setsid caller =>
    obtain ⟨groupLeader, hleader, rfl⟩ := Option.map_eq_some_iff.mp hstep
    unfold Kernel.setsid
    split_ifs
    · exact hlisted
    · have hled : GroupState.Listed { state with
          process := Function.update state.process caller
            (some { groupLeader with leader := true }) } :=
        ⟨hlisted.groups.update hleader rfl, hlisted.sessions.update hleader rfl⟩
      have hself : Function.update state.process caller
          (some { groupLeader with leader := true }) caller =
            some { groupLeader with leader := true } := Function.update_self ..
      refine (hled.changeSession hself caller).changePgrp ?_ caller
      rw [GroupState.changeSession_process hself]
      exact Function.update_self ..
  | fork forking child cloneParent =>
    dsimp only [GroupState.step] at hstep
    split_ifs at hstep with hfree
    obtain ⟨p, hp, rfl⟩ := Option.map_eq_some_iff.mp hstep
    exact ⟨hlisted.groups.attach hfree.2.1 _, hlisted.sessions.attach hfree.2.1 _⟩
  | clone process tid =>
    dsimp only [GroupState.step] at hstep
    split_ifs at hstep
    obtain rfl := Option.some.inj hstep
    exact ⟨hlisted.groups, hlisted.sessions⟩
  | exec process =>
    obtain ⟨p, hp, rfl⟩ := Option.map_eq_some_iff.mp hstep
    exact ⟨hlisted.groups.update hp rfl, hlisted.sessions.update hp rfl⟩
  | exit process reaper =>
    dsimp only [GroupState.step] at hstep
    split_ifs at hstep
    obtain rfl := Option.some.inj hstep
    refine ⟨hlisted.groups.map fun p ↦ ?_, hlisted.sessions.map fun p ↦ ?_⟩ <;> split_ifs <;> rfl
  | release process =>
    dsimp only [GroupState.step] at hstep
    split_ifs at hstep
    obtain rfl := Option.some.inj hstep
    exact ⟨hlisted.groups.detach process, hlisted.sessions.detach process⟩

/-! ### The invariant -/

/-- Groups and sessions are in order: the processes of a group are in one session, which is also
that of the process with the number of the group; the process with the number of a session is its
leader; and a session leader is in the group and in the session with its own number. -/
structure Orderly (process : ℤ → Option Process) : Prop where
  shared : ∀ pid other p q, process pid = some p → process other = some q → p.pgrp = q.pgrp →
    p.session = q.session
  owner : ∀ pid other p q, process pid = some p → process other = some q → q.pgrp = pid →
    q.session = p.session
  sessionOwner : ∀ pid other p q, process pid = some p → process other = some q →
    q.session = pid → p.leader = true
  leads : ∀ pid p, process pid = some p → p.leader = true → p.pgrp = pid ∧ p.session = pid

/-- A process fits in among the others. -/
structure Fits (process : ℤ → Option Process) (pid : ℤ) (new : Process) : Prop where
  shared : ∀ other q, other ≠ pid → process other = some q → q.pgrp = new.pgrp →
    q.session = new.session
  owns : ∀ other q, other ≠ pid → process other = some q → q.pgrp = pid → q.session = new.session
  owned : ∀ other q, other ≠ pid → process other = some q → new.pgrp = other →
    new.session = q.session
  leadsOthers : ∀ other q, other ≠ pid → process other = some q → q.session = pid →
    new.leader = true
  led : ∀ other q, other ≠ pid → process other = some q → new.session = other → q.leader = true
  leadsSelf : new.session = pid → new.leader = true
  leads : new.leader = true → new.pgrp = pid ∧ new.session = pid

section Invariant

variable {process : ℤ → Option Process} {pid : ℤ}

/-- A process after an update is the new one or an old one. -/
theorem update_eq_some {new q : Process} {other : ℤ}
    (hq : Function.update process pid (some new) other = some q) :
    other = pid ∧ q = new ∨ other ≠ pid ∧ process other = some q := by
  by_cases hother : other = pid
  · subst hother
    rw [Function.update_self, Option.some.injEq] at hq
    exact Or.inl ⟨rfl, hq.symm⟩
  · rw [Function.update_of_ne hother] at hq
    exact Or.inr ⟨hother, hq⟩

/-- A process that fits in leaves the groups and sessions in order. -/
theorem Orderly.update (horderly : Orderly process) {new : Process} (hfits : Fits process pid new) :
    Orderly (Function.update process pid (some new)) := by
  constructor
  · intro first second p q hp hq hsame
    obtain ⟨rfl, rfl⟩ | ⟨hfirst, hfirstOld⟩ := update_eq_some hp <;>
      obtain ⟨rfl, rfl⟩ | ⟨hsecond, hsecondOld⟩ := update_eq_some hq
    · rfl
    · exact (hfits.shared second q hsecond hsecondOld hsame.symm).symm
    · exact hfits.shared first p hfirst hfirstOld hsame
    · exact horderly.shared first second p q hfirstOld hsecondOld hsame
  · intro first second p q hp hq hsame
    obtain ⟨rfl, rfl⟩ | ⟨hfirst, hfirstOld⟩ := update_eq_some hp <;>
      obtain ⟨rfl, rfl⟩ | ⟨hsecond, hsecondOld⟩ := update_eq_some hq
    · rfl
    · exact hfits.owns second q hsecond hsecondOld hsame
    · exact hfits.owned first p hfirst hfirstOld hsame
    · exact horderly.owner first second p q hfirstOld hsecondOld hsame
  · intro first second p q hp hq hsame
    obtain ⟨rfl, rfl⟩ | ⟨hfirst, hfirstOld⟩ := update_eq_some hp <;>
      obtain ⟨rfl, rfl⟩ | ⟨hsecond, hsecondOld⟩ := update_eq_some hq
    · exact hfits.leadsSelf hsame
    · exact hfits.leadsOthers second q hsecond hsecondOld hsame
    · exact hfits.led first p hfirst hfirstOld hsame
    · exact horderly.sessionOwner first second p q hfirstOld hsecondOld hsame
  · intro first p hp hleader
    obtain ⟨rfl, rfl⟩ | ⟨hfirst, hfirstOld⟩ := update_eq_some hp
    · exact hfits.leads hleader
    · exact horderly.leads first p hfirstOld hleader

/-- A process that is there fits in, also with another parent and after `exec`. -/
theorem Orderly.fits (horderly : Orderly process) {p new : Process} (hp : process pid = some p)
    (hpgrp : new.pgrp = p.pgrp) (hsession : new.session = p.session)
    (hleader : new.leader = p.leader) : Fits process pid new := by
  constructor
  · intro other q hother hq hsame
    exact hsession ▸ horderly.shared other pid q p hq hp (hsame.trans hpgrp)
  · intro other q hother hq hsame
    exact hsession ▸ horderly.owner pid other p q hp hq hsame
  · intro other q hother hq hsame
    exact hsession ▸ horderly.owner other pid q p hq hp (hpgrp ▸ hsame)
  · intro other q hother hq hsame
    exact hleader ▸ horderly.sessionOwner pid other p q hp hq hsame
  · intro other q hother hq hsame
    exact horderly.sessionOwner other pid q p hq hp (hsession ▸ hsame)
  · intro hsame
    exact hleader ▸ horderly.sessionOwner pid pid p p hp hp (hsession ▸ hsame)
  · intro hnew
    rw [hpgrp, hsession]
    exact horderly.leads pid p hp (hleader ▸ hnew)

/-- A process that is moved to a group fits in. -/
theorem Orderly.fits_regroup (horderly : Orderly process) {p : Process} {pgrp : ℤ}
    (hp : process pid = some p) (hleader : p.leader = false)
    (hgroup : pgrp = pid ∨ ∃ g member, process g = some member ∧ member.pgrp = pgrp ∧
      member.session = p.session) : Fits process pid { p with pgrp } := by
  have hkept := horderly.fits hp rfl rfl rfl
  have hjoined : ∀ other q, process other = some q → q.pgrp = pgrp → q.session = p.session := by
    intro other q hq hsame
    obtain rfl | ⟨g, member, hmember, hnumber, hsession⟩ := hgroup
    · exact horderly.owner _ other p q hp hq hsame
    · exact (horderly.shared other g q member hq hmember (hsame.trans hnumber.symm)).trans hsession
  refine ⟨fun other q _ ↦ hjoined other q, hkept.owns, ?_, hkept.leadsOthers, hkept.led,
    hkept.leadsSelf, fun hnew ↦ absurd (hleader.symm.trans hnew) (by decide)⟩
  intro other q hother hq hsame
  obtain rfl | ⟨g, member, hmember, hnumber, hsession⟩ := hgroup
  · exact absurd hsame.symm hother
  · have hnumbered : member.pgrp = other := hnumber.trans hsame
    exact hsession.symm.trans (horderly.owner other g q member hq hmember hnumbered)

/-- A new session leader fits in. -/
theorem Orderly.fits_newSession (horderly : Orderly process) {p : Process}
    (hp : process pid = some p) (hleader : p.leader = false)
    (hempty : ∀ other member, process other = some member → member.pgrp ≠ pid) :
    Fits process pid { p with leader := true, session := pid, pgrp := pid } := by
  have hnone : ∀ other q, process other = some q → q.session ≠ pid := by
    intro other q hq hsame
    exact absurd (hleader.symm.trans (horderly.sessionOwner pid other p q hp hq hsame)) (by decide)
  constructor
  · intro other q hother hq hsame
    exact absurd hsame (hempty other q hq)
  · intro other q hother hq hsame
    exact absurd hsame (hempty other q hq)
  · intro other q hother hq hsame
    exact absurd hsame.symm hother
  · intro other q hother hq hsame
    rfl
  · intro other q hother hq hsame
    exact absurd hsame.symm hother
  · intro hsame
    rfl
  · intro hnew
    exact ⟨rfl, rfl⟩

/-- A child fits in. -/
theorem Orderly.fits_child (horderly : Orderly process) {forking : ℤ} {p : Process}
    {cloneParent : Bool} (hp : process forking = some p)
    (hunused : ∀ other q, process other = some q → q.pgrp ≠ pid ∧ q.session ≠ pid) :
    Fits process pid (p.child forking cloneParent) := by
  constructor
  · intro other q hother hq hsame
    exact horderly.shared other forking q p hq hp hsame
  · intro other q hother hq hsame
    exact absurd hsame (hunused other q hq).1
  · intro other q hother hq hsame
    exact horderly.owner other forking q p hq hp hsame
  · intro other q hother hq hsame
    exact absurd hsame (hunused other q hq).2
  · intro other q hother hq hsame
    exact horderly.sessionOwner other forking q p hq hp hsame
  · intro hsame
    exact absurd hsame (hunused forking p hp).2
  · intro hnew
    exact absurd hnew (by simp [Process.child])

end Invariant

/-- Processes that change, but not their groups and sessions. -/
theorem Orderly.map {process : ℤ → Option Process} (horderly : Orderly process)
    {change : Process → Process} (hpgrp : ∀ p, (change p).pgrp = p.pgrp)
    (hsession : ∀ p, (change p).session = p.session) (hleader : ∀ p, (change p).leader = p.leader) :
    Orderly fun pid ↦ (process pid).map change := by
  constructor
  · intro first second p q hp hq hsame
    obtain ⟨p, hfirst, rfl⟩ := Option.map_eq_some_iff.mp hp
    obtain ⟨q, hsecond, rfl⟩ := Option.map_eq_some_iff.mp hq
    rw [hpgrp, hpgrp] at hsame
    rw [hsession, hsession]
    exact horderly.shared first second p q hfirst hsecond hsame
  · intro first second p q hp hq hsame
    obtain ⟨p, hfirst, rfl⟩ := Option.map_eq_some_iff.mp hp
    obtain ⟨q, hsecond, rfl⟩ := Option.map_eq_some_iff.mp hq
    rw [hpgrp] at hsame
    rw [hsession, hsession]
    exact horderly.owner first second p q hfirst hsecond hsame
  · intro first second p q hp hq hsame
    obtain ⟨p, hfirst, rfl⟩ := Option.map_eq_some_iff.mp hp
    obtain ⟨q, hsecond, rfl⟩ := Option.map_eq_some_iff.mp hq
    rw [hsession] at hsame
    rw [hleader]
    exact horderly.sessionOwner first second p q hfirst hsecond hsame
  · intro first p hp hlead
    obtain ⟨p, hfirst, rfl⟩ := Option.map_eq_some_iff.mp hp
    rw [hleader] at hlead
    rw [hpgrp, hsession]
    exact horderly.leads first p hfirst hlead

/-- The processes that are left after one of them is released. -/
theorem Orderly.remove {process : ℤ → Option Process} (horderly : Orderly process) (pid : ℤ) :
    Orderly (Function.update process pid none) := by
  have hkept : ∀ {other q}, Function.update process pid none other = some q →
      process other = some q := by
    intro other q hq
    by_cases hother : other = pid
    · subst hother
      simp at hq
    · rwa [Function.update_of_ne hother] at hq
  constructor
  · intro first second p q hp hq hsame
    exact horderly.shared first second p q (hkept hp) (hkept hq) hsame
  · intro first second p q hp hq hsame
    exact horderly.owner first second p q (hkept hp) (hkept hq) hsame
  · intro first second p q hp hq hsame
    exact horderly.sessionOwner first second p q (hkept hp) (hkept hq) hsame
  · intro first p hp hlead
    exact horderly.leads first p (hkept hp) hlead

/-! ### Every run -/

/-- Every event keeps the groups and sessions in order. -/
theorem GroupState.Moves.orderly {state next : GroupState} {event : GroupEvent}
    (hmoves : state.Moves event next) (horderly : Orderly state.process) :
    Orderly next.process := by
  cases hmoves with
  | same hnext => exact hnext ▸ horderly
  | regroup caller pid pgid pgrp hook p hevent moved hp hcaller hleader hgroup hnext =>
    exact hnext ▸ horderly.update (horderly.fits_regroup hp hleader hgroup)
  | newSession caller p hevent hp hleader hempty hnext =>
    exact hnext ▸ horderly.update (horderly.fits_newSession hp hleader hempty)
  | fork forking child cloneParent p hevent hp hfree hunused hnext =>
    exact hnext ▸ horderly.update (horderly.fits_child hp hunused)
  | exec pid p hevent hp hnext =>
    exact hnext ▸ horderly.update (horderly.fits hp rfl rfl rfl)
  | exit pid reaper hevent hnext =>
    rw [hnext]
    refine horderly.map (fun p ↦ ?_) (fun p ↦ ?_) (fun p ↦ ?_) <;> split_ifs <;> rfl
  | release pid hevent hnext => exact hnext ▸ horderly.remove pid

/-- The only process at the start. -/
theorem eq_of_initProcess {pid : ℤ} {p : Process} (hp : initProcess.process pid = some p) :
    pid = 1 ∧ p = ⟨0, 0, 0, false, true⟩ := by
  change (if pid = 1 then some _ else none) = some p at hp
  split_ifs at hp with hpid
  exact ⟨hpid, (Option.some.inj hp).symm⟩

/-- At the start the lists are those of the processes. -/
theorem initProcess_listed : initProcess.Listed := by
  have hattached : ∀ number : Process → ℤ, number ⟨0, 0, 0, false, true⟩ = 0 →
      Attached number (fun n ↦ if n = 0 then [1] else []) initProcess.process := by
    intro number hnumber n pid
    dsimp only
    constructor
    · intro hmember
      split_ifs at hmember with hn
      · obtain rfl := List.mem_singleton.mp hmember
        exact ⟨_, rfl, hnumber.trans hn.symm⟩
      · exact absurd hmember List.not_mem_nil
    · rintro ⟨p, hp, hn⟩
      obtain ⟨rfl, rfl⟩ := eq_of_initProcess hp
      rw [if_pos (hn.symm.trans hnumber)]
      exact List.mem_singleton_self 1
  exact ⟨hattached Process.pgrp rfl, hattached Process.session rfl⟩

/-- At the start the groups and sessions are in order. -/
theorem initProcess_orderly : Orderly initProcess.process := by
  constructor
  · intro first second p q hp hq hsame
    rw [(eq_of_initProcess hp).2, (eq_of_initProcess hq).2]
  · intro first second p q hp hq hsame
    rw [(eq_of_initProcess hp).2, (eq_of_initProcess hq).2]
  · intro first second p q hp hq hsame
    obtain ⟨rfl, -⟩ := eq_of_initProcess hp
    obtain ⟨-, rfl⟩ := eq_of_initProcess hq
    exact absurd hsame (by decide)
  · intro first p hp hlead
    rw [(eq_of_initProcess hp).2] at hlead
    exact absurd hlead (by decide)

/-- In every run the lists and the groups and sessions are in order. -/
theorem inOrder_of_reachable {state : GroupState} (hreach : processGroups.Reachable state) :
    state.Listed ∧ Orderly state.process := by
  refine hreach.invariant ⟨initProcess_listed, initProcess_orderly⟩ ?_
  rintro state event next ⟨hlisted, horderly⟩ hstep
  exact ⟨hlisted.step hstep, (GroupState.step_moves hlisted hstep).orderly horderly⟩

/-- In every run, whatever the processes do: the processes of one group are in one session, the
process with the number of a session is its leader, a session leader is in the group and in the
session with its own number, and the tasks attached to a number are those that have it. -/
theorem groups_of_reachable {state : GroupState} (hreach : processGroups.Reachable state) :
    Orderly state.process ∧ state.Listed :=
  ⟨(inOrder_of_reachable hreach).2, (inOrder_of_reachable hreach).1⟩

/-- A shell with the pid 2 becomes a session leader; it makes its child 3 the first process of a
pipeline, and its child 4 the second, after the first one has called `exec`. -/
def startsPipeline : List GroupEvent :=
  [.fork 1 2 false, .setsid 2, .fork 2 3 false, .setpgid 2 3 3 none, .exec 3, .fork 2 4 false,
    .setpgid 2 4 3 none]

/-- The shell has its pipeline in one group of its session. -/
theorem groups_startsPipeline :
    ∃ state, processGroups.run initProcess startsPipeline = some state ∧
      state.process 4 = some ⟨2, 3, 2, false, true⟩ ∧ Orderly state.process ∧ state.Listed := by
  have hrun : (processGroups.run initProcess startsPipeline).any (fun state ↦
      state.process 4 = some ⟨2, 3, 2, false, true⟩) = true := by
    decide +kernel
  obtain ⟨state, hstate, hlast⟩ := (Option.any_eq_true _ _).mp hrun
  exact ⟨state, hstate, of_decide_eq_true hlast,
    groups_of_reachable (System.reachable_of_run hstate)⟩

/-! ### What the processes are told -/

section Told

variable {state : GroupState} {current : Process} {caller : ℤ}

/-- The process that `getpgid` and `getsid` are asked about. -/
def GroupState.askedAbout (state : GroupState) (current : Process) (pid : ℤ) : Option Process :=
  if pid = 0 then some current else state.processOf pid

/-- A number that is told is that of the process asked about. -/
theorem getNumber_eq_ok {number : Process → ℤ} {hook : Option Errno} {pid n : ℤ}
    (htold : getNumber number hook state current pid = .ok n) :
    ∃ p, state.askedAbout current pid = some p ∧ number p = n := by
  unfold getNumber at htold
  unfold GroupState.askedAbout
  split_ifs at htold ⊢ with hself
  · exact ⟨current, rfl, Except.ok.inj htold⟩
  · cases hfound : state.processOf pid with
    | none =>
      rw [hfound] at htold
      cases htold
    | some p =>
      rw [hfound] at htold
      unfold hookAccepts at htold
      cases hook with
      | none => exact ⟨p, rfl, Except.ok.inj htold⟩
      | some errno => cases htold

/-- The process asked about is one of the processes. -/
theorem exists_process_of_askedAbout (hcurrent : state.process caller = some current) {pid : ℤ}
    {p : Process} (hasked : state.askedAbout current pid = some p) :
    ∃ owner, state.process owner = some p := by
  unfold GroupState.askedAbout at hasked
  split_ifs at hasked with hself
  · exact ⟨caller, hcurrent.trans hasked⟩
  · unfold GroupState.processOf at hasked
    cases hfound : state.process pid with
    | some found =>
      rw [hfound] at hasked
      exact ⟨pid, hfound.trans hasked⟩
    | none =>
      rw [hfound] at hasked
      obtain ⟨leading, -, hleading⟩ := Option.bind_eq_some_iff.mp hasked
      exact ⟨leading, hleading⟩

/-- In every run, two tasks of which `getpgid` returns the same group are tasks of which `getsid`
returns the same session. -/
theorem getsid_of_getpgid (hreach : processGroups.Reachable state)
    (hcurrent : state.process caller = some current) {hook : Option Errno}
    {first second pgrp session other : ℤ}
    (hfirst : getpgid hook state current first = .ok pgrp)
    (hsecond : getpgid hook state current second = .ok pgrp)
    (hsession : getsid hook state current first = .ok session)
    (hother : getsid hook state current second = .ok other) : session = other := by
  obtain ⟨p, hp, hpgrp⟩ := getNumber_eq_ok hfirst
  obtain ⟨q, hq, hsame⟩ := getNumber_eq_ok hsecond
  obtain ⟨p', hp', rfl⟩ := getNumber_eq_ok hsession
  obtain ⟨q', hq', rfl⟩ := getNumber_eq_ok hother
  obtain rfl : p = p' := Option.some.inj (hp.symm.trans hp')
  obtain rfl : q = q' := Option.some.inj (hq.symm.trans hq')
  obtain ⟨firstOwner, hfirstOwner⟩ := exists_process_of_askedAbout hcurrent hp
  obtain ⟨secondOwner, hsecondOwner⟩ := exists_process_of_askedAbout hcurrent hq
  exact (inOrder_of_reachable hreach).2.shared _ _ p q hfirstOwner hsecondOwner
    (hpgrp.trans hsame.symm)

/-- The group that `setpgid` sets is the one that `getpgid` then returns of the process. -/
theorem getpgid_of_setpgid {groupLeader : Process} {hook : Option Errno} {pid pgid : ℤ}
    (hpid : pid ≠ 0) (hok : (setpgid hook state caller groupLeader pid pgid).1 = .ok ()) :
    getpgid none (setpgid hook state caller groupLeader pid pgid).2 current pid =
      .ok (if pgid = 0 then pid else pgid) := by
  unfold setpgid at hok ⊢
  rw [if_neg hpid] at hok ⊢
  dsimp only at hok ⊢
  generalize (if pgid = 0 then pid else pgid) = pgrp at hok ⊢
  cases hcheck : checkSetpgid hook state caller groupLeader pid pgrp with
  | error errno =>
    rw [hcheck] at hok
    cases hok
  | ok p =>
    have hmoved : (state.changePgrp pid p pgrp).process pid = some { p with pgrp } := by
      rw [GroupState.changePgrp_process (process_of_checkSetpgid hcheck) pgrp]
      exact Function.update_self ..
    unfold getpgid getNumber GroupState.processOf
    dsimp only
    rw [if_neg hpid, hmoved]
    rfl

/-- A process that has called `setsid` is told its own pid for its group and for its session. -/
theorem getsid_of_setsid {groupLeader : Process} {n : ℤ}
    (hok : (setsid state caller groupLeader).1 = .ok n) :
    ∃ p, (setsid state caller groupLeader).2.process caller = some p ∧
      getpgrp (setsid state caller groupLeader).2 p = .ok n ∧
        getsid none (setsid state caller groupLeader).2 p 0 = .ok n := by
  unfold setsid at hok ⊢
  split_ifs at hok ⊢ with hrefused
  obtain rfl := Except.ok.inj hok
  refine ⟨{ groupLeader with leader := true, session := caller, pgrp := caller }, ?_, rfl, rfl⟩
  dsimp only
  rw [setSpecialPids_process]
  exact Function.update_self ..

end Told

/-! ### What becomes of one process -/

/-- The process that makes a call. -/
def GroupEvent.caller : GroupEvent → Option ℤ
  | .setpgid caller _ _ _ => some caller
  | .setsid caller => some caller
  | _ => none

/-- What an event leaves of a process: it does not forget an `exec`, and its group, its session and
whether it leads one stay, unless it is no session leader and has made the call itself, or its
parent has before it called `exec`. -/
structure Process.Becomes (pid : ℤ) (p : Process) (event : GroupEvent) (q : Process) : Prop where
  exec : q.forkNoExec = true → p.forkNoExec = true
  moves : q.pgrp = p.pgrp ∧ q.session = p.session ∧ q.leader = p.leader ∨
    p.leader = false ∧ (event.caller = some pid ∨
      event.caller = some p.realParent ∧ p.forkNoExec = true)

/-- What an event leaves of a process that it does not release. -/
theorem GroupState.Moves.becomes {state next : GroupState} {event : GroupEvent}
    (hmoves : state.Moves event next) {pid : ℤ} {p : Process} (hp : state.process pid = some p)
    (hkept : event ≠ .release pid) : ∃ q, next.process pid = some q ∧ p.Becomes pid event q := by
  have hunchanged : p.Becomes pid event p := ⟨id, Or.inl ⟨rfl, rfl, rfl⟩⟩
  cases hmoves with
  | same hnext => exact ⟨p, hnext ▸ hp, hunchanged⟩
  | regroup caller named pgid pgrp hook moving hevent moved hmoving hcaller hleader hgroup hnext =>
    by_cases hself : pid = moved
    · subst hself
      obtain rfl := Option.some.inj (hp.symm.trans hmoving)
      refine ⟨{ p with pgrp }, by rw [hnext, Function.update_self], id, Or.inr ⟨hleader, ?_⟩⟩
      subst hevent
      obtain rfl | ⟨hparent, hexec⟩ := hcaller
      · exact Or.inl rfl
      · exact Or.inr ⟨congrArg some hparent.symm, hexec⟩
    · exact ⟨p, by rw [hnext, Function.update_of_ne hself, hp], hunchanged⟩
  | newSession caller leading hevent hleading hleader hempty hnext =>
    by_cases hself : pid = caller
    · subst hself
      obtain rfl := Option.some.inj (hp.symm.trans hleading)
      refine ⟨{ p with leader := true, session := pid, pgrp := pid },
        by rw [hnext, Function.update_self], id, Or.inr ⟨hleader, Or.inl ?_⟩⟩
      rw [hevent]
      rfl
    · exact ⟨p, by rw [hnext, Function.update_of_ne hself, hp], hunchanged⟩
  | fork forking child cloneParent parent hevent hparent hfree hunused hnext =>
    have hother : pid ≠ child := by
      rintro rfl
      exact absurd (hfree.symm.trans hp) (by simp)
    exact ⟨p, by rw [hnext, Function.update_of_ne hother, hp], hunchanged⟩
  | exec executing q hevent hq hnext =>
    by_cases hself : pid = executing
    · subst hself
      obtain rfl := Option.some.inj (hp.symm.trans hq)
      exact ⟨{ p with forkNoExec := false }, by rw [hnext, Function.update_self],
        fun hnever ↦ absurd hnever (by simp), Or.inl ⟨rfl, rfl, rfl⟩⟩
    · exact ⟨p, by rw [hnext, Function.update_of_ne hself, hp], hunchanged⟩
  | exit exiting reaper hevent hnext =>
    refine ⟨if p.realParent = exiting then { p with realParent := reaper } else p, ?_, ?_⟩
    · rw [hnext]
      dsimp only
      rw [hp]
      rfl
    · split_ifs
      · exact ⟨id, Or.inl ⟨rfl, rfl, rfl⟩⟩
      · exact hunchanged
  | release released hevent hnext =>
    have hother : pid ≠ released := by
      rintro rfl
      exact hkept hevent
    exact ⟨p, by rw [hnext, Function.update_of_ne hother, hp], hunchanged⟩

/-- A relation to a process at the start of a run that every event keeps for the process holds at
the end of the run, as long as the process is not released. -/
theorem process_of_run (kept : Process → Prop) {admitted : GroupEvent → Prop}
    {state final : GroupState} {events : List GroupEvent} {pid : ℤ}
    (hreach : processGroups.Reachable state)
    (hrun : processGroups.run state events = some final)
    (hadmitted : ∀ event ∈ events, admitted event ∧ event ≠ .release pid)
    (hkept : ∀ p event q, kept p → admitted event → p.Becomes pid event q → kept q)
    {p : Process} (hp : state.process pid = some p) (hstart : kept p) :
    ∃ q, final.process pid = some q ∧ kept q := by
  induction events generalizing state p with
  | nil =>
    rw [System.run_nil, Option.some.injEq] at hrun
    exact ⟨p, hrun ▸ hp, hstart⟩
  | cons event rest ih =>
    rw [System.run_cons, Option.bind_eq_some_iff] at hrun
    obtain ⟨next, hstep, hrest⟩ := hrun
    obtain ⟨hevent, hnotReleased⟩ := hadmitted event List.mem_cons_self
    obtain ⟨q, hq, hbecomes⟩ :=
      (GroupState.step_moves (inOrder_of_reachable hreach).1 hstep).becomes hp hnotReleased
    exact ih (hreach.next hstep) hrest
      (fun later hlater ↦ hadmitted later (List.mem_cons_of_mem _ hlater)) hq
      (hkept p event q hstart hevent hbecomes)

/-- A session leader stays one: in every run from a reachable state, until it is released, it is in
the group and in the session with its own number. -/
theorem leader_stays {state final : GroupState} {events : List GroupEvent} {pid : ℤ} {p : Process}
    (hreach : processGroups.Reachable state)
    (hrun : processGroups.run state events = some final)
    (hkept : ∀ event ∈ events, event ≠ .release pid)
    (hp : state.process pid = some p) (hleader : p.leader = true) :
    ∃ q, final.process pid = some q ∧ q.leader = true ∧ q.pgrp = pid ∧ q.session = pid := by
  have hstart : p.leader = true ∧ p.pgrp = pid ∧ p.session = pid :=
    ⟨hleader, (inOrder_of_reachable hreach).2.leads pid p hp hleader⟩
  have hadmitted : ∀ event ∈ events, True ∧ event ≠ .release pid :=
    fun event hevent ↦ ⟨trivial, hkept event hevent⟩
  refine process_of_run (fun p ↦ p.leader = true ∧ p.pgrp = pid ∧ p.session = pid)
    hreach hrun hadmitted ?_ hp hstart
  rintro p event q ⟨hlead, hpgrp, hsession⟩ - hbecomes
  obtain ⟨hsamePgrp, hsameSession, hsameLeader⟩ | ⟨hnone, -⟩ := hbecomes.moves
  · exact ⟨hsameLeader.trans hlead, hsamePgrp.trans hpgrp, hsameSession.trans hsession⟩
  · exact absurd (hnone.symm.trans hlead) (by decide)

/-- The shell stays a session leader while it starts a pipeline. -/
theorem leader_stays_startsPipeline :
    ∃ state final, processGroups.run initProcess [.fork 1 2 false, .setsid 2] = some state ∧
      processGroups.run state [.fork 2 3 false, .setpgid 2 2 3 none] = some final ∧
      ∃ q, final.process 2 = some q ∧ q.leader = true ∧ q.pgrp = 2 ∧ q.session = 2 := by
  have hrun : (processGroups.run initProcess [.fork 1 2 false, .setsid 2]).any (fun state ↦
      state.process 2 = some ⟨1, 2, 2, true, true⟩ ∧
        (processGroups.run state [.fork 2 3 false, .setpgid 2 2 3 none]).isSome) = true := by
    decide +kernel
  obtain ⟨state, hstate, hboth⟩ := (Option.any_eq_true _ _).mp hrun
  obtain ⟨hshell, hmore⟩ := of_decide_eq_true hboth
  obtain ⟨final, hfinal⟩ := Option.isSome_iff_exists.mp hmore
  exact ⟨state, final, hstate, hfinal,
    leader_stays (System.reachable_of_run hstate) hfinal (by simp) hshell rfl⟩

/-- No one moves a process that has called `exec` but the process itself: in every run from a
reachable state in which it makes no call of its own, until it is released, it stays in its group
and in its session. -/
theorem group_of_executed {state final : GroupState} {events : List GroupEvent} {pid : ℤ}
    {p : Process} (hreach : processGroups.Reachable state)
    (hrun : processGroups.run state events = some final)
    (hkept : ∀ event ∈ events, event.caller ≠ some pid ∧ event ≠ .release pid)
    (hp : state.process pid = some p) (hexec : p.forkNoExec = false) :
    ∃ q, final.process pid = some q ∧ q.pgrp = p.pgrp ∧ q.session = p.session := by
  have hstart : p.forkNoExec = false ∧ p.pgrp = p.pgrp ∧ p.session = p.session :=
    ⟨hexec, rfl, rfl⟩
  have hstep : ∀ (first : Process) (event : GroupEvent) (q : Process),
      (first.forkNoExec = false ∧ first.pgrp = p.pgrp ∧ first.session = p.session) →
      event.caller ≠ some pid → first.Becomes pid event q →
      q.forkNoExec = false ∧ q.pgrp = p.pgrp ∧ q.session = p.session := by
    rintro first event q ⟨hfirst, hpgrp, hsession⟩ hcaller hbecomes
    have hstill : q.forkNoExec = false := by
      refine Bool.eq_false_iff.mpr fun hforgotten ↦ ?_
      exact absurd (hfirst.symm.trans (hbecomes.exec hforgotten)) (by decide)
    obtain ⟨hsamePgrp, hsameSession, -⟩ | ⟨-, hself | ⟨-, hnever⟩⟩ := hbecomes.moves
    · exact ⟨hstill, hsamePgrp.trans hpgrp, hsameSession.trans hsession⟩
    · exact absurd hself hcaller
    · exact absurd (hfirst.symm.trans hnever) (by decide)
  obtain ⟨q, hq, -, hgroup⟩ := process_of_run
    (fun q ↦ q.forkNoExec = false ∧ q.pgrp = p.pgrp ∧ q.session = p.session)
    hreach hrun hkept hstep hp hstart
  exact ⟨q, hq, hgroup⟩

/-- The shell cannot move the first process of its pipeline any more. -/
theorem group_of_executed_startsPipeline :
    ∃ state final, processGroups.run initProcess startsPipeline = some state ∧
      processGroups.run state [.setpgid 2 3 4 none] = some final ∧
      ∃ q, final.process 3 = some q ∧ q.pgrp = 3 ∧ q.session = 2 := by
  have hrun : (processGroups.run initProcess startsPipeline).any (fun state ↦
      state.process 3 = some ⟨2, 3, 2, false, false⟩ ∧
        (processGroups.run state [.setpgid 2 3 4 none]).isSome) = true := by
    decide +kernel
  obtain ⟨state, hstate, hboth⟩ := (Option.any_eq_true _ _).mp hrun
  obtain ⟨hfirst, hmore⟩ := of_decide_eq_true hboth
  obtain ⟨final, hfinal⟩ := Option.isSome_iff_exists.mp hmore
  have hkept : ∀ event ∈ [GroupEvent.setpgid 2 3 4 none],
      event.caller ≠ some 3 ∧ event ≠ .release 3 := by
    decide
  exact ⟨state, final, hstate, hfinal,
    group_of_executed (System.reachable_of_run hstate) hfinal hkept hfirst rfl⟩

end Apes.Kernel
