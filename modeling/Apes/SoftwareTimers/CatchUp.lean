import Apes.SoftwareTimers.Periods

/-!
# The timer service catches up

A service that has been kept from the processor is left with timers that have expired, some of them
several times, and with the wrap of the tick count still before it. From every state of a run
without commands its own steps lead it to sleep, without a tick passing (`asleep_of_leftAlone`): it
never goes round in a circle, and what it does until then makes good every call that is overdue.

The measure is `TimerService.work`. A call leaves fewer calls overdue (`daemon_overdue`), a command
that is executed without one leaves fewer commands, and any other step goes on to a stage of lower
rank (`work_daemon`). The one circle in the code is a wait of no ticks, which
`prvProcessTimerOrBlockTask` computes when the tick count is 0 and only the overflow list has
timers; `wait_pos` rules it out, since no timer is armed for more than a period ahead.
-/

set_option autoImplicit false
set_option relaxedAutoImplicit false

namespace Apes.SoftwareTimers

open Library

namespace TimerService

/-- The calls that are overdue. -/
def overdue (timers : TimerHandle → Option Timer) (service : TimerService) : ℕ :=
  (timerPlan timers).overdue service.ticks (service.schedule.pending timers)

/-- The commands that wait or are executed. -/
def unserved (service : TimerService) : ℕ :=
  service.xTimerQueue.length + service.received.toList.length

/-- The lists are to be switched when the tick count has become less. -/
def wraps (xLastTime : UInt32) (service : TimerService) : ℕ :=
  if service.xTaskGetTickCount < xLastTime then 10 else 0

/-- The wait ends at once when a command waits. -/
def wakes (service : TimerService) : ℕ := if service.xTimerQueue = [] then 0 else 20

/-- How far a stage is from sleep while no call and no command is left: the lists may be switched
once, and the wait may end at once. -/
def rank (service : TimerService) : ℕ :=
  match service.stage with
  | .query => service.wakes + service.wraps service.xLastTime + 4
  | .assess _ _ => service.wakes + service.wraps service.xLastTime + 3
  | .expired _ _ | .execute _ _ => 1
  | .switching xTimeNow _ => service.wraps xTimeNow + 6
  | .blocked since xTicksToWait indefinitely =>
    (if indefinitely = false ∧ since + xTicksToWait.toNat ≤ service.ticks then 20
      else service.wakes) + service.wraps service.xLastTime + 2
  | .commands => service.wraps service.xLastTime + 5

/-- What the service task has to do before it sleeps. -/
def work (timers : TimerHandle → Option Timer) (service : TimerService) : ℕ :=
  200 * service.overdue timers + 50 * service.unserved + service.rank

end TimerService

section CatchUp

variable {driver : ListDriver} {service next : TimerService}
  {timers : TimerHandle → Option Timer} {started : List TimerHandle}

theorem wraps_le (xLastTime : UInt32) (service : TimerService) :
    service.wraps xLastTime ≤ 10 := by
  unfold TimerService.wraps
  split_ifs <;> omega

theorem wakes_le (service : TimerService) : service.wakes ≤ 20 := by
  unfold TimerService.wakes
  split_ifs <;> omega

theorem rank_le (service : TimerService) : service.rank ≤ 34 := by
  have hlast := wraps_le service.xLastTime service
  have hwakes := wakes_le service
  unfold TimerService.rank
  cases service.stage with
  | query | assess | expired | execute | commands => dsimp only; omega
  | switching xTimeNow received =>
    exact Nat.le_trans (Nat.add_le_add_right (wraps_le xTimeNow service) 6) (by decide)
  | blocked => dsimp only; split_ifs <;> omega

/-- The commands are those of the queue and the one that is executed. -/
theorem unserved_eq (hqueue : next.xTimerQueue = service.xTimerQueue)
    (hreceived : next.received = service.received) : next.unserved = service.unserved := by
  unfold TimerService.unserved
  rw [hqueue, hreceived]

/-- **A call leaves fewer calls overdue.** A step of the service task calls no timer and leaves
overdue what is, or fewer calls are overdue after it. -/
theorem daemon_overdue (hprepared : Prepared timers started) (hsound : Sound service)
    (hperiod : OnPeriod timers started service.schedule)
    (hstep : service.prvTimerTask driver = some next) :
    next.calls = service.calls ∧ next.overdue timers = service.overdue timers ∨
      next.overdue timers < service.overdue timers := by
  obtain ⟨-, -, hticks, ⟨hcalls, hpending⟩ | ⟨handle, due, hmem, hdue, -, hpending⟩⟩ :=
    daemon_cases hprepared hsound hperiod hstep
  · left
    unfold TimerService.overdue
    rw [hpending, hticks]
    exact ⟨hcalls, rfl⟩
  · right
    have hknown := (hperiod.follows.of_mem hmem).1
    obtain ⟨timer, hlive, hpositive⟩ := hprepared.positive (Multiset.mem_coe.mp hknown)
    rw [← timerPlan_period hlive] at hpositive
    unfold TimerService.overdue
    rw [hpending, hticks]
    exact Recurrence.overdue_replace hmem hdue hpositive

/-- No timer is armed for a round of the tick count ahead. -/
theorem due_lt_of_onPeriod (hprepared : Prepared timers started)
    (hperiod : OnPeriod timers started service.schedule) :
    ∀ item ∈ service.items, item.due < service.ticks + tickModulus := by
  intro item hitem
  have hmem : (item.pvOwner, item.due) ∈ service.schedule.pending timers :=
    Multiset.mem_add.mpr (.inl (mem_armedItems.mpr ⟨item, hitem, rfl⟩))
  have hle := hperiod.follows.le_next hperiod.past hmem
  obtain ⟨timer, hlive, -⟩ :=
    hprepared.positive (Multiset.mem_coe.mp (hperiod.follows.of_mem hmem).1)
  rw [timerPlan_period hlive] at hle
  exact Nat.lt_of_le_of_lt hle (Nat.add_lt_add_left (toNat_lt_tickModulus _) _)

/-- A step that calls a timer leaves fewer calls overdue and at most one more command; any other
step leaves fewer commands, or as many and a lower rank. -/
theorem work_lt (hoverdue : next.calls = service.calls ∧
      next.overdue timers = service.overdue timers ∨
        next.overdue timers < service.overdue timers)
    (hunserved : next.unserved ≤ service.unserved + 1)
    (hquiet : next.calls = service.calls → next.unserved < service.unserved ∨
      next.unserved = service.unserved ∧ next.rank < service.rank) :
    next.work timers < service.work timers := by
  have hrank := rank_le next
  unfold TimerService.work
  rcases hoverdue with ⟨hcalls, hsame⟩ | hless
  · rcases hquiet hcalls with hfewer | ⟨hequal, hlower⟩ <;> omega
  · omega

/-- A wait that ends is not one of no ticks. Assumes: the timers of the overflow list are those of
the next epoch, and expire less than a round from now. -/
theorem wait_pos {now : ℕ} {xNextExpireTime : UInt32} {xListWasEmpty : Bool}
    (hfar : ∀ item ∈ service.pxOverflowTimerList,
      epoch tickModulus item.due = epoch tickModulus now + 1 ∧ item.due < now + tickModulus)
    (hnext : (xNextExpireTime, xListWasEmpty) = service.prvGetNextExpireTime)
    (hahead : ¬ (xListWasEmpty = false ∧ xNextExpireTime ≤ UInt32.ofNat now))
    (hfinite : (if xListWasEmpty then service.pxOverflowTimerList.isEmpty else false) = false) :
    0 < (xNextExpireTime - UInt32.ofNat now).toNat := by
  have hdifferent : xNextExpireTime ≠ UInt32.ofNat now := by
    rintro rfl
    unfold TimerService.prvGetNextExpireTime at hnext
    cases hfirst : service.pxCurrentTimerList with
    | cons item rest =>
      rw [hfirst] at hnext
      exact hahead ⟨(Prod.mk.inj hnext).2, UInt32.le_refl _⟩
    | nil =>
      rw [hfirst] at hnext
      obtain ⟨hzero, rfl⟩ := Prod.mk.inj hnext
      rw [if_pos rfl] at hfinite
      obtain ⟨item, hitem⟩ :=
        List.exists_mem_of_ne_nil _ (List.isEmpty_eq_false_iff.mp hfinite)
      obtain ⟨hepoch, hnear⟩ := hfar item hitem
      have hshown : shown tickModulus now = 0 := by
        rw [← toNat_ofNat_tick, hzero]
        rfl
      have hnow := epoch_add_shown tickModulus now
      have hdue := epoch_add_shown tickModulus item.due
      rw [hepoch, Nat.mul_succ] at hdue
      omega
  refine Nat.pos_of_ne_zero fun hzero ↦ hdifferent (UInt32.toNat_inj.mp ?_)
  rw [UInt32.toNat_sub] at hzero
  have hfirst := xNextExpireTime.toNat_lt
  have hsecond := (UInt32.ofNat now).toNat_lt
  omega

/-- The next expiry time is asked for. -/
theorem work_query (hstage : service.stage = .query)
    (hstep : service.prvTimerTask driver = some next) :
    next.unserved = service.unserved ∧ next.rank < service.rank := by
  unfold TimerService.prvTimerTask at hstep
  rw [hstage] at hstep
  cases hstep
  refine ⟨unserved_eq rfl ?_, ?_⟩
  · unfold TimerService.received
    rw [hstage]
  · unfold TimerService.rank
    rw [hstage]
    exact Nat.lt_succ_self _

/-- The wait ends. -/
theorem work_blocked {since : ℕ} {xTicksToWait : UInt32} {indefinitely : Bool}
    (hstage : service.stage = .blocked since xTicksToWait indefinitely)
    (hstep : service.prvTimerTask driver = some next) :
    next.unserved = service.unserved ∧ next.rank < service.rank := by
  unfold TimerService.prvTimerTask at hstep
  rw [hstage] at hstep
  dsimp only at hstep
  split_ifs at hstep with hwakes
  cases hstep
  refine ⟨unserved_eq rfl ?_, ?_⟩
  · unfold TimerService.received
    rw [hstage]
  · unfold TimerService.rank
    rw [hstage]
    change TimerService.wraps service.xLastTime service + 5 < _
    dsimp only
    split_ifs with hends
    · omega
    · unfold TimerService.wakes
      rw [if_neg (hwakes.resolve_right hends)]
      omega

/-- The next expiry time is assessed. -/
theorem work_assess {xNextExpireTime : UInt32} {xListWasEmpty : Bool} (hsound : Sound service)
    (hnear : ∀ item ∈ service.items, item.due < service.ticks + tickModulus)
    (hstage : service.stage = .assess xNextExpireTime xListWasEmpty)
    (hstep : service.prvTimerTask driver = some next) :
    next.unserved = service.unserved ∧ next.rank < service.rank := by
  have hnext := hsound.1.stage
  unfold StageSound at hnext
  rw [hstage] at hnext
  have hplaced := (hsound.assess hstage).1
  unfold TimerService.prvTimerTask at hstep
  rw [hstage] at hstep
  cases hstep
  have hnone : service.received = none := by
    unfold TimerService.received
    rw [hstage]
  obtain ⟨xLastTime, stage, heq, hreceived⟩ :=
    prvProcessTimerOrBlockTask_frame xNextExpireTime xListWasEmpty service
  have hunserved : TimerService.unserved
      (service.prvProcessTimerOrBlockTask xNextExpireTime xListWasEmpty) = service.unserved := by
    rw [heq]
    exact unserved_eq rfl (hreceived.trans hnone.symm)
  refine ⟨hunserved, ?_⟩
  have hrank : service.rank = service.wakes + service.wraps service.xLastTime + 3 := by
    unfold TimerService.rank
    rw [hstage]
  have hstill : ∀ xLastTime stage, TimerService.wraps (UInt32.ofNat service.ticks)
      { service with xLastTime := xLastTime, sampled := service.ticks, stage := stage } = 0 :=
    fun _ _ ↦ if_neg (UInt32.lt_irrefl _)
  rw [hrank]
  unfold TimerService.prvProcessTimerOrBlockTask TimerService.xTaskGetTickCount at hplaced ⊢
  dsimp only at hplaced ⊢
  by_cases hwrapped : UInt32.ofNat service.ticks < service.xLastTime
  · have hwraps : service.wraps service.xLastTime = 10 := if_pos hwrapped
    rw [if_pos hwrapped, hwraps]
    change TimerService.wraps (UInt32.ofNat service.ticks) _ + 6 < _
    rw [hstill]
    omega
  · rw [if_neg hwrapped] at hplaced ⊢
    by_cases hexpired : xListWasEmpty = false ∧ xNextExpireTime ≤ UInt32.ofNat service.ticks
    · rw [if_pos hexpired]
      change 1 < _
      omega
    · rw [if_neg hexpired] at hplaced ⊢
      unfold TimerService.rank
      dsimp only
      rw [hstill]
      have hfar := hplaced.lists.overflow.epoch
      rw [if_neg]
      · change service.wakes + 0 + 2 < _
        omega
      · rintro ⟨hfinite, hends⟩
        have hpositive : 0 < (xNextExpireTime - UInt32.ofNat service.ticks).toNat :=
          wait_pos (fun item hitem ↦
            ⟨hfar item hitem, hnear item (List.mem_append_right _ hitem)⟩) hnext.2 hexpired hfinite
        omega

/-- A timer is called. -/
theorem unserved_fired {stage : DaemonStage} {item : TimerListItem} {rest : List TimerListItem}
    {timer : Timer} (hplaced : WellPlaced service)
    (hfired : Fired driver stage item rest timer service next)
    (hreceived : next.received = service.received) :
    next.unserved ≤ service.unserved + 1 ∧ next.calls ≠ service.calls := by
  obtain ⟨near, far, queue, rfl, -, hcases⟩ := hfired.cases hplaced.lists
  constructor
  · unfold TimerService.unserved
    rw [hreceived]
    have hlength : queue.length ≤ service.xTimerQueue.length + 1 := by
      rcases hcases with ⟨-, -, rfl, -⟩ | ⟨-, -, -, -, rfl⟩ | ⟨rfl, -⟩
      · exact Nat.le_succ _
      · rw [List.length_append, List.length_singleton]
      · exact Nat.le_succ _
    change queue.length + _ ≤ _
    omega
  · exact fun hsame ↦ List.cons_ne_nil _ _ (List.append_right_eq_self.mp hsame)

/-- The lists are switched. -/
theorem work_switching {xTimeNow : UInt32} {received : Option DaemonTaskMessage}
    (hplaced : WellPlaced service) (hstage : service.stage = .switching xTimeNow received)
    (hstep : service.prvTimerTask driver = some next) :
    next.unserved ≤ service.unserved + 1 ∧
      (next.calls = service.calls →
        next.unserved = service.unserved ∧ next.rank < service.rank) := by
  have hreceived : service.received = received := by
    unfold TimerService.received
    rw [hstage]
  rcases prvSwitchTimerLists_cases hplaced hstage hstep with
    ⟨hempty, rfl⟩ | ⟨item, rest, timer, hfired⟩
  · have hrank : service.rank = service.wraps xTimeNow + 6 := by
      unfold TimerService.rank
      rw [hstage]
    have hsame : TimerService.unserved { service with
        pxCurrentTimerList := service.pxOverflowTimerList
        pxOverflowTimerList := []
        xLastTime := xTimeNow
        stage := received.elim .commands fun message ↦ .execute xTimeNow message } =
        service.unserved := by
      refine unserved_eq rfl ?_
      rw [hreceived]
      cases received with
      | none => rfl
      | some message => rfl
    refine ⟨Nat.le_succ_of_le (Nat.le_of_eq hsame), fun _ ↦ ⟨hsame, ?_⟩⟩
    rw [hrank]
    cases received with
    | none => exact Nat.lt_succ_self _
    | some message =>
      change 1 < _
      omega
  · have hfrom : next.received = service.received := by
      obtain ⟨near, far, queue, rfl, -⟩ := hfired.cases hplaced.lists
      unfold TimerService.received
      rfl
    obtain ⟨hunserved, hcalls⟩ := unserved_fired hplaced hfired hfrom
    exact ⟨hunserved, fun hsame ↦ absurd hsame hcalls⟩

/-- A command is received. -/
theorem work_commands (hstage : service.stage = .commands)
    (hstep : service.prvTimerTask driver = some next) :
    next.unserved < service.unserved ∨
      next.unserved = service.unserved ∧ next.rank < service.rank := by
  have hnone : service.received = none := by
    unfold TimerService.received
    rw [hstage]
  have hrank : service.rank = service.wraps service.xLastTime + 5 := by
    unfold TimerService.rank
    rw [hstage]
  unfold TimerService.prvTimerTask at hstep
  rw [hstage] at hstep
  cases hstep
  rw [hrank]
  rcases receiveCommand_cases service with
    ⟨hqueue, hnext⟩ | ⟨message, rest, hqueue, -, hnext⟩ |
    ⟨message, rest, timer, hqueue, -, xLastTime, stage, hnext, hread⟩
  · rw [hnext]
    refine .inr ⟨unserved_eq rfl hnone.symm, ?_⟩
    change TimerService.wakes _ + service.wraps service.xLastTime + 4 < _
    unfold TimerService.wakes
    rw [if_pos hqueue]
    omega
  · left
    have hreceived : service.receiveCommand.received = none := by
      rw [hnext]
      exact hnone
    unfold TimerService.unserved
    rw [hreceived, hnone, hnext, hqueue]
    exact Nat.lt_succ_self _
  · right
    have hreceived : service.receiveCommand.received = some message := by
      rw [hnext]
      unfold TimerService.received
      rcases hread with ⟨-, rfl⟩ | ⟨-, rfl, -⟩ <;> rfl
    constructor
    · unfold TimerService.unserved
      rw [hreceived, hnone, hnext, hqueue]
      rfl
    · rw [hnext]
      rcases hread with ⟨hwrapped, rfl⟩ | ⟨-, rfl, rfl⟩
      · have hwraps : service.wraps service.xLastTime = 10 := if_pos hwrapped
        change TimerService.wraps (UInt32.ofNat service.ticks) _ + 6 < _
        rw [hwraps]
        unfold TimerService.wraps
        rw [if_neg]
        · decide
        · exact UInt32.lt_irrefl _
      · change 1 < _
        omega

/-- A command is executed. -/
theorem work_execute {xTimeNow : UInt32} {message : DaemonTaskMessage} (hsound : Sound service)
    (hstage : service.stage = .execute xTimeNow message)
    (hstep : service.prvTimerTask driver = some next) :
    next.unserved ≤ service.unserved + 1 ∧
      (next.calls = service.calls → next.unserved < service.unserved) := by
  have hreceived : service.received = some message := by
    unfold TimerService.received
    rw [hstage]
  have hlate : message.xMessageID.CountsFrom → service.ticks < message.stamp + tickModulus := by
    refine hsound.2.commands message (List.mem_append_right _ ?_)
    rw [hreceived]
    exact List.mem_singleton_self message
  obtain ⟨timer, executed, -, hexecuted, rfl⟩ := executeCommand_cases hsound.1 hstage
    (fun hcounts ↦ Nat.lt_of_le_of_lt hsound.1.sampled (hlate hcounts)) hstep
  have hserved : executed.xTimerQueue = service.xTimerQueue →
      TimerService.unserved { executed with stage := .commands } < service.unserved := by
    intro hqueue
    unfold TimerService.unserved
    rw [hreceived, ← hqueue]
    exact Nat.lt_succ_self _
  have hboth : executed.xTimerQueue = service.xTimerQueue →
      TimerService.unserved { executed with stage := .commands } ≤ service.unserved + 1 ∧
        (executed.calls = service.calls →
          TimerService.unserved { executed with stage := .commands } < service.unserved) :=
    fun hqueue ↦ ⟨Nat.le_succ_of_le (Nat.le_of_lt (hserved hqueue)), fun _ ↦ hserved hqueue⟩
  cases hexecuted with
  | started hcommand hahead hinserted =>
    refine hboth ?_
    obtain ⟨rfl, -⟩ | ⟨rfl, -⟩ := hinserted <;> rfl
  | elapsed => exact hboth rfl
  | again hcommand hpassed hreload =>
    rcases xTimerGenericCommand_cases
      ⟨.startDontTrace, UInt32.ofNat (message.stamp + timer.xTimerPeriodInTicks.toNat),
        message.pxTimer, message.stamp + timer.xTimerPeriodInTicks.toNat⟩
      (service.callback message.pxTimer (message.stamp + timer.xTimerPeriodInTicks.toNat)) with
      ⟨-, heq⟩ | ⟨-, heq⟩
    · rw [heq]
      constructor
      · unfold TimerService.unserved
        rw [hreceived]
        change (service.xTimerQueue ++ _).length + 0 ≤ service.xTimerQueue.length + 1 + 1
        rw [List.length_append]
        exact Nat.le_succ _
      · exact fun hsame ↦ absurd (List.append_right_eq_self.mp hsame) (List.cons_ne_nil _ _)
    · rw [heq] at hboth ⊢
      exact hboth rfl
  | stopped => exact hboth rfl
  | changed hcommand hperiod hinserted =>
    refine hboth ?_
    obtain ⟨rfl, -⟩ | ⟨rfl, -⟩ := hinserted <;> rfl
  | cleared => exact hboth rfl
  | deleted => exact hboth rfl

/-- **Every step of the service task is progress.** -/
theorem work_daemon (hprepared : Prepared timers started) (hsound : Sound service)
    (hperiod : OnPeriod timers started service.schedule)
    (hstep : service.prvTimerTask driver = some next) :
    next.work timers < service.work timers := by
  have hoverdue := daemon_overdue hprepared hsound hperiod hstep
  have hquiet : next.unserved = service.unserved ∧ next.rank < service.rank →
      next.work timers < service.work timers := fun hboth ↦
    work_lt hoverdue (Nat.le_succ_of_le (Nat.le_of_eq hboth.1)) fun _ ↦ .inr hboth
  cases hstage : service.stage with
  | query => exact hquiet (work_query hstage hstep)
  | assess =>
    exact hquiet (work_assess hsound (due_lt_of_onPeriod hprepared hperiod) hstage hstep)
  | blocked => exact hquiet (work_blocked hstage hstep)
  | expired =>
    obtain ⟨item, rest, timer, hfired⟩ := prvProcessExpiredTimer_cases hsound.1 hstage hstep
    have hreceived : next.received = service.received := by
      obtain ⟨near, far, queue, rfl, -⟩ := hfired.cases hsound.1.lists
      unfold TimerService.received
      rw [hstage]
    obtain ⟨hunserved, hcalls⟩ := unserved_fired hsound.1 hfired hreceived
    exact work_lt hoverdue hunserved fun hsame ↦ absurd hsame hcalls
  | switching =>
    obtain ⟨hunserved, hrank⟩ := work_switching hsound.1 hstage hstep
    exact work_lt hoverdue hunserved fun hsame ↦ .inr (hrank hsame)
  | commands =>
    have hcases := work_commands hstage hstep
    exact work_lt hoverdue (by omega) fun _ ↦ hcases
  | execute =>
    obtain ⟨hunserved, hfewer⟩ := work_execute hsound hstage hstep
    exact work_lt hoverdue hunserved fun hsame ↦ .inl (hfewer hsame)

/-- **The service catches up.** Assumes: the timers have been created and started before the
scheduler, and no task sends a command. From every state of a punctual run, however many of its
timers have expired and whether or not the tick count has wrapped since it last read it, the service
task comes to sleep by its own steps, of which there are no more than `work` counts and during which
no tick has to pass. -/
theorem asleep_of_leftAlone (hprepared : Prepared timers started)
    (hreach : (timerService driver timers started).ReachableUnder LeftAlone service) :
    ∃ steps asleep, steps ≤ service.work timers ∧
      (timerService driver timers started).run service (List.replicate steps .daemon) =
        some asleep ∧
      asleep.prvTimerTask driver = none ∧ asleep.ticks = service.ticks ∧
      (timerService driver timers started).ReachableUnder LeftAlone asleep := by
  induction hwork : service.work timers using Nat.strong_induction_on generalizing service with
  | _ bound ih =>
    obtain ⟨hsound, hperiod⟩ := onPeriod_of_leftAlone hprepared hreach
    cases hnext : service.prvTimerTask driver with
    | none => exact ⟨0, service, Nat.zero_le _, rfl, hnext, rfl, hreach⟩
    | some next =>
      have hticks := (daemon_cases hprepared hsound hperiod hnext).2.2.1
      have hless := work_daemon hprepared hsound hperiod hnext
      have hdaemon : LeftAlone service .daemon := ⟨trivial, trivial⟩
      have hthere : (timerService driver timers started).ReachableUnder LeftAlone next :=
        hreach.step hdaemon hnext
      obtain ⟨steps, asleep, hsteps, hrun, hstuck, hsame, hfinal⟩ :=
        ih (next.work timers) (hwork ▸ hless) hthere rfl
      refine ⟨steps + 1, asleep, by omega, ?_, hstuck, hsame.trans hticks, hfinal⟩
      rw [List.replicate_succ, System.run_cons]
      change (service.prvTimerTask driver).bind _ = _
      rw [hnext]
      exact hrun

/-- A service that has not had the processor for 4000000000 ticks, of which the tick count shows
fewer than before, comes to sleep. -/
theorem asleep_of_leftAlone_longTimers : ∃ service asleep : TimerService,
    service.ticks = 6000000000 ∧ service.calls = [⟨1, 2000000000, 2000000000⟩] ∧
      asleep.prvTimerTask orderedLists = none ∧ asleep.ticks = 6000000000 := by
  have hrun : (((timerService orderedLists longTimers [0, 1]).restrict LeftAlone).run
      (timerService orderedLists longTimers [0, 1]).initial
      [List.replicate 10 .daemon, [.advance 2000000000], List.replicate 8 .daemon,
        [.advance 4000000000]].flatten).any (fun service ↦
      service.ticks = 6000000000 ∧ service.calls = [⟨1, 2000000000, 2000000000⟩]) = true := by
    decide +kernel
  obtain ⟨service, hservice, hfinal⟩ := (Option.any_eq_true _ _).mp hrun
  obtain ⟨hticks, hcalls⟩ := of_decide_eq_true hfinal
  obtain ⟨steps, asleep, -, -, hstuck, hsame, -⟩ :=
    asleep_of_leftAlone prepared_longTimers (System.reachableUnder_of_run hservice)
  exact ⟨service, asleep, hticks, hcalls, hstuck, hsame.trans hticks⟩

end CatchUp

end Apes.SoftwareTimers
