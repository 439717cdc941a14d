import Apes.SharedMemory.Interrupted

/-!
# Starting the shared-memory program again

The segment and the two semaphores have names and outlive the processes. `get_shared_memory` creates
the segment or finds it, and in both branches opens the semaphores with `O_CREAT` and without
`O_EXCL`: a semaphore whose name is still there keeps its value. A process takes the names of the
semaphores away at its end, in `sem_unlink`, and a process that is killed does not. Nothing takes
the name of the segment away, `shmdt` and `shmctl` being calls for another kind of segment.

`Machine` is what a run finds and leaves. A history is a schedule of starts of the program, steps
and signals of the exchange, `sem_unlink`s and kills; a start needs that no process of an earlier
run is alive. `Fresh` is what a start relies on: the semaphores that it opens have the values 0 and
1. `killed_not_fresh` is a history in which the two processes are killed when the first message has
been stored and not read. `fresh_iff` says when all starts are safe: exactly when a run whose last
process is killed has left its values in the semaphores that are still named. As long as no signal
hits a blocked `sem_wait` this is a matter of the exchange alone (`Orderly.restored_iff_leftIdle`):
no process was killed between a `sem_wait` and its `sem_post`, and every message stored has been
read.
-/

set_option autoImplicit false
set_option relaxedAutoImplicit false

namespace Apes.SharedMemory

open Library Ipc

/-! ### Runs of the program -/

/-- Whether the named segment exists, which semaphores have their names, the exchange of the last
run with the values of its semaphores, the `sem_unlink`s that a process has still to do, and which
of its processes are alive. -/
structure Machine where
  segmentExists : Bool
  linked : Semaphore → Bool
  exchange : State
  unlinks : Party → List Semaphore
  alive : Party → Bool

/-- The start of a run, a step or a signal of its exchange, a `sem_unlink` of a process, or the end
of a process by a signal that it does not handle. -/
inductive MachineEvent
  | start
  | exchange (event : Event)
  | unlink (party : Party)
  | kill (party : Party)

/-- `sem_open` with `O_CREAT`: a semaphore that exists keeps its value. -/
def semOpen (semaphore : Semaphore) (machine : Machine) : Machine :=
  if machine.linked semaphore = true then machine
  else { machine with
    linked := Function.update machine.linked semaphore true
    exchange := { machine.exchange with
      semaphore := Function.update machine.exchange.semaphore semaphore
        (createdSemaphores semaphore) } }

/-- `get_shared_memory`: the segment is created or found, and the semaphores are opened. -/
def getSharedMemory (machine : Machine) : Machine :=
  if machine.segmentExists = true then semOpen .shmWrite (semOpen .shmRead machine)
  else semOpen .shmWrite (semOpen .shmRead { machine with
    segmentExists := true
    exchange := { machine.exchange with segment := createdSegment } })

/-- A run starts, with no process of an earlier one alive. -/
def start (parent child : List Transfer) (machine : Machine) : Option Machine :=
  if machine.alive .parent = true ∨ machine.alive .child = true then none
  else
    let opened := getSharedMemory machine
    some { opened with
      exchange := { opened.exchange with
        process := forked parent child
        log := [] }
      unlinks := fun _ ↦ [.shmRead, .shmWrite]
      alive := fun _ ↦ true }

/-- The process that an event of the exchange is about. -/
def partyOf : Event → Party
  | .step party => party
  | .sigint party => party

/-- The next `sem_unlink` of a process that has left its last loop; the process ends with the last
of them. -/
def semUnlink (party : Party) (machine : Machine) : Option Machine :=
  match (machine.exchange.process party).stage, machine.unlinks party with
  | .exited, semaphore :: rest =>
    if machine.alive party = true then
      some { machine with
        linked := Function.update machine.linked semaphore false
        unlinks := Function.update machine.unlinks party rest
        alive := Function.update machine.alive party (!rest.isEmpty) }
    else none
  | _, _ => none

/-- A process is killed. -/
def kill (party : Party) (machine : Machine) : Option Machine :=
  if machine.alive party = true then
    some { machine with alive := Function.update machine.alive party false }
  else none

/-- Runs of the program, one after another, on a machine on which it has not been started yet. -/
def runs (parent child : List Transfer) : System Machine MachineEvent where
  initial :=
    { segmentExists := false
      linked := fun _ ↦ false
      exchange := ⟨createdSemaphores, [], forked [] [], []⟩
      unlinks := fun _ ↦ []
      alive := fun _ ↦ false }
  step machine event :=
    match event with
    | .start => start parent child machine
    | .exchange event =>
      if machine.alive (partyOf event) = true then
        ((transferring parent child createdSegment).step machine.exchange event).map
          fun exchange ↦ { machine with exchange := exchange }
      else none
    | .unlink party => semUnlink party machine
    | .kill party => kill party machine

/-- When no process is alive, `get_shared_memory` opens the semaphores with the values 0 and 1. -/
def Fresh (machine : Machine) : Prop :=
  (∀ party, machine.alive party = false) →
    (getSharedMemory machine).exchange.semaphore .shmRead = 0 ∧
      (getSharedMemory machine).exchange.semaphore .shmWrite = 1

/-- **A run can find the values of one that was killed.** The parent stores its first message, and
both processes are killed. -/
theorem killed_not_fresh : ¬ ∀ events before machine, before <+: events →
    (runs (parentTransfers (transmission commands txParent) (transmission commands txChild))
        (childTransfers (transmission commands txParent) (transmission commands txChild))).run
      (runs (parentTransfers (transmission commands txParent) (transmission commands txChild))
        (childTransfers (transmission commands txParent) (transmission commands txChild))).initial
      before = some machine → Fresh machine := by
  intro hfresh
  have hrun : ∃ machine,
      (runs (parentTransfers (transmission commands txParent) (transmission commands txChild))
        (childTransfers (transmission commands txParent) (transmission commands txChild))).run
      (runs (parentTransfers (transmission commands txParent) (transmission commands txChild))
        (childTransfers (transmission commands txParent) (transmission commands txChild))).initial
      (.start :: List.replicate 4 (.exchange (.step .parent)) ++
        [.kill .parent, .kill .child]) = some machine ∧
      machine.alive .parent = false ∧ machine.alive .child = false ∧
      (getSharedMemory machine).exchange.semaphore .shmRead = 1 := by
    refine ⟨_, rfl, ?_⟩
    decide
  obtain ⟨machine, hmachine, hparent, hchild, hread⟩ := hrun
  have hdead : ∀ party, machine.alive party = false := by
    intro party
    cases party with
    | parent => exact hparent
    | child => exact hchild
  have hzero := (hfresh _ _ machine List.prefix_rfl hmachine hdead).1
  omega

/-! ### What a start finds -/

variable {machine next : Machine} {party : Party}

/-- `sem_open` leaves the other semaphores alone, and creates this one if its name is free. -/
theorem semaphore_semOpen (opened semaphore : Semaphore) (machine : Machine) :
    (semOpen opened machine).exchange.semaphore semaphore =
      if semaphore = opened ∧ machine.linked opened = false then createdSemaphores semaphore
      else machine.exchange.semaphore semaphore := by
  unfold semOpen
  by_cases hlinked : machine.linked opened = true
  · rw [if_pos hlinked, if_neg (by simp [hlinked])]
  · rw [if_neg hlinked]
    rw [Bool.not_eq_true] at hlinked
    dsimp only
    by_cases hsame : semaphore = opened
    · subst hsame
      rw [Function.update_self, if_pos ⟨rfl, hlinked⟩]
    · rw [Function.update_of_ne hsame, if_neg fun hboth ↦ hsame hboth.1]

/-- `sem_open` names the semaphore. -/
theorem linked_semOpen (opened semaphore : Semaphore) (machine : Machine) :
    (semOpen opened machine).linked semaphore =
      (machine.linked semaphore || decide (semaphore = opened)) := by
  unfold semOpen
  by_cases hlinked : machine.linked opened = true
  · rw [if_pos hlinked]
    by_cases hsame : semaphore = opened
    · subst hsame
      simp [hlinked]
    · simp [hsame]
  · rw [if_neg hlinked]
    dsimp only
    by_cases hsame : semaphore = opened
    · subst hsame
      simp
    · rw [Function.update_of_ne hsame]
      simp [hsame]

/-- `get_shared_memory` finds the values of the semaphores that are still named and creates the
others. -/
theorem semaphore_getSharedMemory (machine : Machine) (semaphore : Semaphore) :
    (getSharedMemory machine).exchange.semaphore semaphore =
      if machine.linked semaphore = true then machine.exchange.semaphore semaphore
      else createdSemaphores semaphore := by
  unfold getSharedMemory
  split_ifs with hexists hlinked hlinked <;> cases semaphore <;>
    simp [semaphore_semOpen, linked_semOpen, hlinked]

/-- After `get_shared_memory` both semaphores have their names. -/
theorem linked_getSharedMemory (machine : Machine) (semaphore : Semaphore) :
    (getSharedMemory machine).linked semaphore = true := by
  unfold getSharedMemory
  split_ifs <;> cases semaphore <;> simp [linked_semOpen]

/-- Every semaphore that is still named has the value with which it was created. -/
def Restores (machine : Machine) : Prop :=
  ∀ semaphore, machine.linked semaphore = true →
    machine.exchange.semaphore semaphore = createdSemaphores semaphore

/-- A start is safe exactly when the semaphores that are still named have their values. -/
theorem fresh_iff_restores (hdead : ∀ party, machine.alive party = false) :
    Fresh machine ↔ Restores machine := by
  unfold Fresh
  rw [imp_iff_right hdead, semaphore_getSharedMemory, semaphore_getSharedMemory]
  constructor
  · rintro ⟨hread, hwrite⟩ semaphore hlinked
    cases semaphore with
    | shmRead =>
      rw [if_pos hlinked] at hread
      exact hread
    | shmWrite =>
      rw [if_pos hlinked] at hwrite
      exact hwrite
  · intro hrestores
    constructor
    · split_ifs with hlinked
      · exact hrestores .shmRead hlinked
      · rfl
    · split_ifs with hlinked
      · exact hrestores .shmWrite hlinked
      · rfl

/-- While a process is alive nothing is started. -/
theorem fresh_of_alive (party : Party) (halive : machine.alive party = true) : Fresh machine := by
  intro hdead
  rw [hdead party] at halive
  simp at halive

/-! ### What a step does -/

variable {parent child : List Transfer}

/-- A run starts with what `get_shared_memory` has opened. -/
theorem start_cases (hstep : start parent child machine = some next) :
    (∀ party, machine.alive party = false) ∧
      next = { getSharedMemory machine with
        exchange := { (getSharedMemory machine).exchange with
          process := forked parent child
          log := [] }
        unlinks := fun _ ↦ [.shmRead, .shmWrite]
        alive := fun _ ↦ true } := by
  unfold start at hstep
  split_ifs at hstep with halive
  refine ⟨?_, (Option.some.inj hstep).symm⟩
  push Not at halive
  intro party
  cases party with
  | parent => simpa using halive.1
  | child => simpa using halive.2

/-- A step of the exchange is one of a process that is alive. -/
theorem exchange_cases {event : Event}
    (hstep : (runs parent child).step machine (.exchange event) = some next) :
    machine.alive (partyOf event) = true ∧ ∃ exchange,
      (transferring parent child createdSegment).step machine.exchange event = some exchange ∧
        next = { machine with exchange := exchange } := by
  change (if machine.alive (partyOf event) = true then Option.map _ _ else none) = _ at hstep
  split_ifs at hstep with halive
  obtain ⟨exchange, hexchange, hnext⟩ := Option.map_eq_some_iff.mp hstep
  exact ⟨halive, exchange, hexchange, hnext.symm⟩

/-- A `sem_unlink` takes a name away, the last one with the process. -/
theorem semUnlink_cases (hstep : semUnlink party machine = some next) :
    machine.alive party = true ∧ ∃ semaphore rest,
      machine.unlinks party = semaphore :: rest ∧
        next = { machine with
          linked := Function.update machine.linked semaphore false
          unlinks := Function.update machine.unlinks party rest
          alive := Function.update machine.alive party (!rest.isEmpty) } := by
  unfold semUnlink at hstep
  split at hstep
  case h_1 semaphore rest hstage hunlinks =>
    split_ifs at hstep with halive
    exact ⟨halive, semaphore, rest, hunlinks, (Option.some.inj hstep).symm⟩
  case h_2 => simp at hstep

/-- A kill ends a process and leaves the rest alone. -/
theorem kill_cases (hstep : kill party machine = some next) :
    machine.alive party = true ∧
      next = { machine with alive := Function.update machine.alive party false } := by
  unfold kill at hstep
  split_ifs at hstep with halive
  exact ⟨halive, (Option.some.inj hstep).symm⟩

/-! ### When every start is safe -/

/-- A kill that leaves no process alive finds the semaphores that are still named with the values
with which they were created. -/
def Restored (machine : Machine) (event : MachineEvent) (_next : Machine) : Prop :=
  ∀ party, event = .kill party → machine.alive party.peer = false → Restores machine

/-- What holds between the steps of the runs: a start would be safe, and the names that a process
has no `sem_unlink` for any more are gone. -/
structure Sound (machine : Machine) : Prop where
  fresh : Fresh machine
  unlinked : ∀ party semaphore, semaphore ∉ machine.unlinks party →
    machine.linked semaphore = false

/-- A process that has done its `sem_unlink`s leaves no name. -/
theorem fresh_of_unlinked (hunlinked : ∀ semaphore, machine.linked semaphore = false) :
    Fresh machine := by
  intro hdead
  refine (fresh_iff_restores hdead).mpr ?_ hdead
  intro semaphore hlinked
  rw [hunlinked semaphore] at hlinked
  simp at hlinked

/-- After the kill of a process the other one is alive, or nobody is. -/
theorem dead_of_kill (hpeer : machine.alive party.peer = false) (other : Party) :
    Function.update machine.alive party false other = false := by
  rcases eq_or_ne other party with rfl | hne
  · exact Function.update_self _ _ _
  · rw [Function.update_of_ne hne]
    have hother : other = party.peer := by
      cases other <;> cases party <;> first | rfl | exact absurd rfl hne
    rwa [hother]

/-- The condition is about kills. -/
theorem restored_of_ne_kill {event : MachineEvent} (hevent : ∀ party, event ≠ .kill party) :
    Restored machine event next :=
  fun party hkill ↦ absurd hkill (hevent party)

/-- After the last `sem_unlink` of a process a start is safe. -/
theorem Sound.fresh_of_last_unlink (hmachine : Sound machine) {semaphore : Semaphore}
    (hunlinks : machine.unlinks party = [semaphore]) (unlinks : Party → List Semaphore)
    (alive : Party → Bool) :
    Fresh { machine with
      linked := Function.update machine.linked semaphore false
      unlinks := unlinks
      alive := alive } := by
  apply fresh_of_unlinked
  intro other
  by_cases hsame : other = semaphore
  · rw [hsame]
    exact Function.update_self _ _ _
  · dsimp only
    rw [Function.update_of_ne hsame]
    exact hmachine.unlinked party other (by rw [hunlinks]; simpa using hsame)

/-- After a kill a start is safe exactly when the kill leaves a process alive or finds the values of
the semaphores restored. -/
theorem restored_kill_iff (party : Party) :
    Restored machine (.kill party) next ↔
      Fresh { machine with alive := Function.update machine.alive party false } := by
  by_cases hpeer : machine.alive party.peer = true
  · refine iff_of_true ?_ ?_
    · intro other hevent hother
      obtain rfl := MachineEvent.kill.inj hevent
      rw [hpeer] at hother
      simp at hother
    · refine fresh_of_alive party.peer ?_
      dsimp only
      rw [Function.update_of_ne (by cases party <;> simp [Party.peer])]
      exact hpeer
  · rw [Bool.not_eq_true] at hpeer
    have hnext : Fresh { machine with alive := Function.update machine.alive party false } ↔
        Restores machine := fresh_iff_restores (dead_of_kill hpeer)
    rw [hnext]
    constructor
    · intro hrestored
      exact hrestored party rfl hpeer
    · rintro hrestores other hother -
      exact hrestores

/-- A start after the step is safe exactly when a kill that leaves no process alive finds the values
of the semaphores restored. -/
theorem Sound.restored_iff (hmachine : Sound machine) {event : MachineEvent}
    (hstep : (runs parent child).step machine event = some next) :
    Restored machine event next ↔ Fresh next := by
  cases event with
  | start =>
    obtain ⟨-, rfl⟩ := start_cases hstep
    exact iff_of_true (restored_of_ne_kill (by simp)) (fresh_of_alive .parent rfl)
  | exchange event =>
    obtain ⟨halive, exchange, -, rfl⟩ := exchange_cases hstep
    exact iff_of_true (restored_of_ne_kill (by simp)) (fresh_of_alive (partyOf event) halive)
  | unlink party =>
    obtain ⟨-, semaphore, rest, hunlinks, rfl⟩ := semUnlink_cases hstep
    refine iff_of_true (restored_of_ne_kill (by simp)) ?_
    cases rest with
    | nil => exact hmachine.fresh_of_last_unlink hunlinks _ _
    | cons first rest => exact fresh_of_alive party (Function.update_self _ _ _)
  | kill party =>
    obtain ⟨-, rfl⟩ := kill_cases hstep
    exact restored_kill_iff party

/-- Every step keeps the names: those that a process has no `sem_unlink` for are gone. -/
theorem Sound.step (hmachine : Sound machine) {event : MachineEvent}
    (hstep : (runs parent child).step machine event = some next)
    (hrestored : Restored machine event next) : Sound next := by
  refine ⟨(hmachine.restored_iff hstep).mp hrestored, ?_⟩
  cases event with
  | start =>
    obtain ⟨-, rfl⟩ := start_cases hstep
    intro party semaphore hmem
    cases semaphore <;> simp at hmem
  | exchange event =>
    obtain ⟨-, exchange, -, rfl⟩ := exchange_cases hstep
    exact hmachine.unlinked
  | unlink party =>
    obtain ⟨-, semaphore, rest, hunlinks, rfl⟩ := semUnlink_cases hstep
    intro other removed hmem
    dsimp only at hmem ⊢
    by_cases hsame : removed = semaphore
    · rw [hsame, Function.update_self]
    · rw [Function.update_of_ne hsame]
      by_cases hother : other = party
      · subst hother
        rw [Function.update_self] at hmem
        refine hmachine.unlinked other removed ?_
        rw [hunlinks, List.mem_cons, not_or]
        exact ⟨hsame, hmem⟩
      · rw [Function.update_of_ne hother] at hmem
        exact hmachine.unlinked other removed hmem
  | kill party =>
    obtain ⟨-, rfl⟩ := kill_cases hstep
    exact hmachine.unlinked

/-- Before the first run. -/
theorem sound_initial (parent child : List Transfer) : Sound (runs parent child).initial :=
  ⟨fresh_of_unlinked fun _ ↦ rfl, fun _ _ _ ↦ rfl⟩

/-! ### What a killed run leaves -/

/-- A kill that leaves no process alive while the semaphores are named finds nobody between a
`sem_wait` and its `sem_post`, and the message stored last read. -/
def LeftIdle (machine : Machine) (event : MachineEvent) (_next : Machine) : Prop :=
  ∀ party, event = .kill party → machine.alive party.peer = false →
    machine.linked .shmWrite = true →
      (∀ other, (machine.exchange.process other).inside = 0) ∧ slot machine.exchange.log = none

/-- No signal is delivered to a process that is blocked in a `sem_wait`. -/
def NoWaitInterrupted (machine : Machine) (event : MachineEvent) (_next : Machine) : Prop :=
  ∀ party, event = .exchange (.sigint party) → ¬ Blocked machine.exchange party

/-- The semaphores have their first values exactly when nobody is inside and the slot is empty.
Assumes: the discipline of the semaphores. -/
theorem Disciplined.semaphore_shmWrite_iff {state : State} (hstate : Disciplined state) :
    state.semaphore .shmWrite = 1 ↔
      (∀ party, (state.process party).inside = 0) ∧ slot state.log = none := by
  have htoken := hstate.token
  unfold tokens at htoken
  constructor
  · intro hwrite
    refine ⟨?_, hstate.ready .shmWrite (by omega)⟩
    intro party
    cases party <;> omega
  · rintro ⟨hinside, hslot⟩
    have hread : state.semaphore .shmRead = 0 := by
      by_contra hread
      exact hstate.ready .shmRead hread hslot
    have hparent := hinside .parent
    have hchild := hinside .child
    omega

/-- What holds in the histories in which no blocked `sem_wait` is interrupted: the exchange of a run
is disciplined, the names go in the order of the two `sem_unlink`s. -/
structure Orderly (machine : Machine) : Prop where
  sound : Sound machine
  disciplined : ∀ party, machine.alive party = true → Disciplined machine.exchange
  suffix : ∀ party, machine.unlinks party <:+ [.shmRead, .shmWrite]
  ordered : machine.linked .shmRead = true → machine.linked .shmWrite = true

/-- In an orderly history a kill that leaves no process alive finds the values restored exactly when
it finds the exchange idle. -/
theorem Orderly.restored_iff_leftIdle (hmachine : Orderly machine) {event : MachineEvent}
    (hstep : (runs parent child).step machine event = some next) :
    Restored machine event next ↔ LeftIdle machine event next := by
  refine forall_congr' fun party ↦ forall_congr' fun hevent ↦ forall_congr' fun _ ↦ ?_
  subst hevent
  have hdisciplined := hmachine.disciplined party (kill_cases hstep).1
  have hwrite := hdisciplined.semaphore_shmWrite_iff
  constructor
  · intro hrestores hlinked
    exact hwrite.mp (hrestores .shmWrite hlinked)
  · intro hidle semaphore hlinked
    have hnamed : machine.linked .shmWrite = true := by
      cases semaphore with
      | shmRead => exact hmachine.ordered hlinked
      | shmWrite => exact hlinked
    have hone := hwrite.mpr (hidle hnamed)
    have htoken := hdisciplined.token
    unfold tokens at htoken
    cases semaphore with
    | shmRead =>
      change machine.exchange.semaphore .shmRead = 0
      omega
    | shmWrite => exact hone

/-- The exchange with which a safe start begins. -/
theorem start_disciplined (hmachine : Fresh machine)
    (hdead : ∀ party, machine.alive party = false) :
    Disciplined { (getSharedMemory machine).exchange with
      process := forked parent child
      log := [] } := by
  have hvalues : (getSharedMemory machine).exchange.semaphore = createdSemaphores := by
    funext semaphore
    cases semaphore with
    | shmRead => exact (hmachine hdead).1
    | shmWrite => exact (hmachine hdead).2
  have hinitial := disciplined_initial parent child (getSharedMemory machine).exchange.segment
  dsimp only
  rw [hvalues]
  exact hinitial

/-- When the next name that a process takes away is that of `shm_write`, the other one is gone. -/
theorem Orderly.not_linked_shmRead (hmachine : Orderly machine) {rest : List Semaphore}
    (hunlinks : machine.unlinks party = .shmWrite :: rest) : machine.linked .shmRead = false := by
  refine hmachine.sound.unlinked party .shmRead ?_
  have hsuffix := hmachine.suffix party
  rw [hunlinks, List.suffix_cons_iff, List.suffix_cons_iff, List.suffix_nil] at hsuffix
  rw [hunlinks]
  rcases hsuffix with hboth | hlast | hnone
  · simp at hboth
  · rw [hlast]
    simp
  · simp at hnone

/-- A `sem_unlink` keeps a history orderly. -/
theorem Orderly.semUnlink (hmachine : Orderly machine)
    (hstep : SharedMemory.semUnlink party machine = some next) (hsound : Sound next) :
    Orderly next := by
  obtain ⟨halive, semaphore, rest, hunlinks, rfl⟩ := semUnlink_cases hstep
  refine ⟨hsound, fun _ _ ↦ hmachine.disciplined party halive, ?_, ?_⟩
  · intro other
    dsimp only
    by_cases hother : other = party
    · subst hother
      rw [Function.update_self]
      have hsuffix := hmachine.suffix other
      rw [hunlinks] at hsuffix
      exact (List.suffix_cons semaphore rest).trans hsuffix
    · rw [Function.update_of_ne hother]
      exact hmachine.suffix other
  · dsimp only
    cases semaphore with
    | shmRead =>
      intro hlinked
      rw [Function.update_self] at hlinked
      simp at hlinked
    | shmWrite =>
      intro hlinked
      rw [Function.update_of_ne (by simp), hmachine.not_linked_shmRead hunlinks] at hlinked
      simp at hlinked

/-- Every step of such a history keeps it orderly. -/
theorem Orderly.step (hmachine : Orderly machine) {event : MachineEvent}
    (hstep : (runs parent child).step machine event = some next)
    (hwait : NoWaitInterrupted machine event next) (hrestored : Restored machine event next) :
    Orderly next := by
  have hsound := hmachine.sound.step hstep hrestored
  cases event with
  | start =>
    obtain ⟨hdead, rfl⟩ := start_cases hstep
    refine ⟨hsound, fun _ _ ↦ ?_, fun _ ↦ List.suffix_rfl, fun _ ↦ ?_⟩
    · exact start_disciplined hmachine.sound.fresh hdead
    · exact linked_getSharedMemory machine .shmWrite
  | exchange event =>
    obtain ⟨halive, exchange, hexchange, rfl⟩ := exchange_cases hstep
    refine ⟨hsound, fun _ _ ↦ ?_, hmachine.suffix, hmachine.ordered⟩
    refine (hmachine.disciplined _ halive).step hexchange ?_
    rintro party rfl
    exact hwait party rfl
  | unlink party => exact hmachine.semUnlink hstep hsound
  | kill party =>
    obtain ⟨halive, rfl⟩ := kill_cases hstep
    exact ⟨hsound, fun _ _ ↦ hmachine.disciplined party halive, hmachine.suffix, hmachine.ordered⟩

/-- Before the first run. -/
theorem orderly_initial (parent child : List Transfer) : Orderly (runs parent child).initial := by
  refine ⟨sound_initial parent child, ?_, fun _ ↦ List.nil_suffix, ?_⟩
  · intro party halive
    cases halive
  · intro hlinked
    cases hlinked

/-! ### Histories -/

/-- **When every start is safe.** For every two lists of transfers and every history of runs, each
of which ends or is killed anywhere: the semaphores that `get_shared_memory` opens for a new run
have the values 0 and 1 in every state without a living process, exactly when every kill that leaves
no process alive finds the semaphores that are still named with their first values. In a history in
which no signal hits a blocked `sem_wait`, this is exactly when such a kill finds nobody between a
`sem_wait` and its `sem_post` and the last message read, unless the names are gone. -/
theorem fresh_iff (parent child : List Transfer) (events : List MachineEvent) :
    ((∀ before machine, before <+: events →
        (runs parent child).run (runs parent child).initial before = some machine →
        Fresh machine) ↔
      (runs parent child).Along Restored (runs parent child).initial events) ∧
    ((runs parent child).Along NoWaitInterrupted (runs parent child).initial events →
      ((∀ before machine, before <+: events →
        (runs parent child).run (runs parent child).initial before = some machine →
        Fresh machine) ↔
      (runs parent child).Along LeftIdle (runs parent child).initial events)) := by
  have hinitial := sound_initial parent child
  have hfresh : (∀ before machine, before <+: events →
        (runs parent child).run (runs parent child).initial before = some machine →
        Fresh machine) ↔
      (runs parent child).Along Restored (runs parent child).initial events := by
    rw [System.forall_prefix_iff, System.along_iff_of_invariant
      (fun _ _ _ hmachine hstep ↦ hmachine.restored_iff hstep)
      (fun _ _ _ hmachine hstep hrestored ↦ hmachine.step hstep hrestored) hinitial events]
    exact and_iff_right hinitial.fresh
  refine ⟨hfresh, fun hwait ↦ ?_⟩
  have hboth : (runs parent child).Along
        (fun machine event next ↦ NoWaitInterrupted machine event next ∧
          Restored machine event next) (runs parent child).initial events ↔
      (runs parent child).Along
        (fun machine event next ↦ NoWaitInterrupted machine event next ∧
          LeftIdle machine event next) (runs parent child).initial events := by
    refine System.along_iff_of_invariant ?_ ?_ (orderly_initial parent child) events
    · intro machine event next hmachine hstep
      exact and_congr_right fun _ ↦ hmachine.restored_iff_leftIdle hstep
    · rintro machine event next hmachine hstep ⟨hharmless, hrestored⟩
      exact hmachine.step hstep hharmless hrestored
  rw [System.along_and, System.along_and, and_iff_right hwait, and_iff_right hwait] at hboth
  exact hfresh.trans hboth

end Apes.SharedMemory
