import Mathlib.Data.Finset.Image
import Mathlib.Data.Finset.Insert
import Apes.SoftwareTimers.Service

/-!
# The schedule that the timer service keeps

What the service is for, without lists, item values or a tick count that wraps: a timer is armed
with the tick at which it expires, it is called when that tick has come, and a timer that reloads
itself is then armed for one period later, at once or through a request in the queue. `scheduling`
is that system. It counts ticks in natural numbers and does not order the timers.

`TimerService.schedule` is what the state of the service means as a schedule, and
`schedule_of_reachable` is the refinement: in a punctual run every step of the service is a step of
the schedule or changes nothing in it, across every wrap of the tick count. It is stated for any
restriction of the runs, and the results about the schedule are carried over by it.
-/

set_option autoImplicit false
set_option relaxedAutoImplicit false

namespace Apes.SoftwareTimers

open Library

/-! ### The schedule -/

/-- A request: to start a timer, counting from a tick, to stop it, to give it a period from now on,
or to delete it. -/
inductive Request
  | start (timer : TimerHandle) (time : ℕ)
  | stop (timer : TimerHandle)
  | changePeriod (timer : TimerHandle) (period : UInt32)
  | delete (timer : TimerHandle)
  deriving DecidableEq

/-- The timer of a request. -/
def Request.timer : Request → TimerHandle
  | .start timer _ | .stop timer | .changePeriod timer _ | .delete timer => timer

/-- The timers, the ticks for which they are armed, the requests that wait, the one that is served
with the tick at which it was received, the present, and the callbacks. -/
structure Schedule where
  timers : TimerHandle → Option Timer
  armed : Finset (TimerHandle × ℕ)
  requests : List Request
  serving : Option (Request × ℕ)
  now : ℕ
  calls : List Call
  touchedFreed : Bool

/-- Time passes, a request comes in, an armed timer is called and armed again or requested to be, a
request is received, or it is served. -/
inductive ScheduleEvent
  | advance (ticks : ℕ)
  | send (request : Request)
  | expire (timer : TimerHandle) (due : ℕ) (requested : Bool)
  | receive
  | serve

namespace Schedule

/-- A timer is armed no longer. -/
def disarm (timer : TimerHandle) (armed : Finset (TimerHandle × ℕ)) : Finset (TimerHandle × ℕ) :=
  armed.filter fun entry ↦ entry.1 ≠ timer

/-- A request is put into the queue while it has room. -/
def request (request : Request) (schedule : Schedule) : Schedule :=
  if schedule.requests.length < configTimerQueueLength then
    { schedule with requests := schedule.requests ++ [request] }
  else schedule

/-- A timer is called. -/
def call (timer : TimerHandle) (due : ℕ) (schedule : Schedule) : Schedule :=
  { schedule with calls := schedule.calls ++ [⟨timer, due, schedule.now⟩] }

/-- An armed timer is called. -/
def expire (handle : TimerHandle) (due : ℕ) (requested : Bool) (timer : Timer)
    (schedule : Schedule) : Schedule :=
  let called := call handle due { schedule with armed := disarm handle schedule.armed }
  if timer.uxAutoReload then
    if requested then called.request (.start handle due)
    else
      { called with
        armed := insert (handle, due + timer.xTimerPeriodInTicks.toNat) called.armed }
  else called

/-- A request is served that was received at a tick. -/
def serve (received : ℕ) (timer : Timer) (schedule : Schedule) : Request → Schedule
  | .start handle time =>
    if time + timer.xTimerPeriodInTicks.toNat ≤ received then
      let called := schedule.call handle (time + timer.xTimerPeriodInTicks.toNat)
      if timer.uxAutoReload then
        called.request (.start handle (time + timer.xTimerPeriodInTicks.toNat))
      else called
    else
      { schedule with
        armed := insert (handle, time + timer.xTimerPeriodInTicks.toNat) schedule.armed }
  | .stop _ => schedule
  | .changePeriod handle period =>
    { schedule with
      timers := Function.update schedule.timers handle
        (some { timer with xTimerPeriodInTicks := period })
      armed :=
        if period = 0 then schedule.armed
        else insert (handle, received + period.toNat) schedule.armed }
  | .delete handle => { schedule with timers := Function.update schedule.timers handle none }

end Schedule

/-- A request does not count from a tick that is still to come. -/
def Request.NotAhead (request : Request) (now : ℕ) : Prop :=
  match request with
  | .start _ time => time ≤ now
  | .stop _ | .changePeriod _ _ | .delete _ => True

instance (request : Request) (now : ℕ) : Decidable (request.NotAhead now) :=
  match request with
  | .start _ time => inferInstanceAs (Decidable (time ≤ now))
  | .stop _ | .changePeriod _ _ | .delete _ => .isTrue trivial

/-- The schedule of the timers, of which some are requested to start from tick 0. -/
def scheduling (timers : TimerHandle → Option Timer) (started : List TimerHandle) :
    System Schedule ScheduleEvent where
  initial := ⟨timers, ∅, (started.take configTimerQueueLength).map (.start · 0), none, 0, [], false⟩
  step schedule
    | .advance ticks => some { schedule with now := schedule.now + ticks }
    | .send request =>
      if request.NotAhead schedule.now ∧ schedule.requests.length < configTimerQueueLength then
        some (schedule.request request)
      else none
    | .expire handle due requested =>
      if (handle, due) ∈ schedule.armed ∧ due ≤ schedule.now then
        (schedule.timers handle).map fun timer ↦ schedule.expire handle due requested timer
      else none
    | .receive =>
      match schedule.serving, schedule.requests with
      | none, request :: rest =>
        match schedule.timers request.timer with
        | none => some { schedule with requests := rest, touchedFreed := true }
        | some _ => some { schedule with
            requests := rest
            serving := some (request, schedule.now)
            armed := Schedule.disarm request.timer schedule.armed }
      | _, _ => none
    | .serve => schedule.serving.bind fun (request, received) ↦
        (schedule.timers request.timer).map fun timer ↦
          { schedule.serve received timer request with serving := none }

/-! ### What the service means -/

/-- The request that a command stands for. -/
def DaemonTaskMessage.request (message : DaemonTaskMessage) : Request :=
  match message.xMessageID with
  | .start | .startFromISR | .reset | .resetFromISR | .startDontTrace =>
    .start message.pxTimer message.stamp
  | .stop | .stopFromISR => .stop message.pxTimer
  | .changePeriod | .changePeriodFromISR => .changePeriod message.pxTimer message.xMessageValue
  | .delete => .delete message.pxTimer

/-- What the lists are armed for. -/
def armedItems (items : List TimerListItem) : Finset (TimerHandle × ℕ) :=
  (items.map fun item ↦ (item.pvOwner, item.due)).toFinset

/-- The schedule that the state of the service stands for. -/
def TimerService.schedule (service : TimerService) : Schedule where
  timers := service.timers
  armed := armedItems service.items
  requests := service.xTimerQueue.map DaemonTaskMessage.request
  serving := service.received.map fun message ↦ (message.request, service.sampled)
  now := service.ticks
  calls := service.calls
  touchedFreed := service.touchedFreed

section Meaning

variable {item : TimerListItem} {items rest : List TimerListItem} {handle : TimerHandle}

theorem mem_armedItems {entry : TimerHandle × ℕ} :
    entry ∈ armedItems items ↔ ∃ item ∈ items, (item.pvOwner, item.due) = entry := by
  unfold armedItems
  rw [List.mem_toFinset, List.mem_map]

/-- The order of the items does not matter. -/
theorem armedItems_perm (hperm : items.Perm rest) : armedItems items = armedItems rest :=
  List.toFinset_eq_of_perm _ _ (hperm.map _)

theorem armedItems_cons :
    armedItems (item :: items) = insert (item.pvOwner, item.due) (armedItems items) := by
  unfold armedItems
  rw [List.map_cons, List.toFinset_cons]

/-- A removed timer is armed no longer. -/
theorem armedItems_remove (handle : TimerHandle) (near far : List TimerListItem) :
    armedItems (uxListRemove handle near ++ uxListRemove handle far) =
      Schedule.disarm handle (armedItems (near ++ far)) := by
  unfold uxListRemove
  rw [← List.filter_append]
  ext entry
  unfold Schedule.disarm
  rw [Finset.mem_filter, mem_armedItems, mem_armedItems]
  constructor
  · rintro ⟨item, hitem, rfl⟩
    obtain ⟨hmem, hother⟩ := List.mem_filter.mp hitem
    exact ⟨⟨item, hmem, rfl⟩, of_decide_eq_true hother⟩
  · rintro ⟨⟨item, hmem, rfl⟩, hother⟩
    exact ⟨item, List.mem_filter.mpr ⟨hmem, decide_eq_true hother⟩, rfl⟩

/-- The first timer of the lists is armed no longer when it has been taken from them. -/
theorem disarm_armedItems_cons (hfresh : ∀ entry ∈ rest, entry.pvOwner ≠ item.pvOwner) :
    Schedule.disarm item.pvOwner (armedItems (item :: rest)) = armedItems rest := by
  ext entry
  unfold Schedule.disarm
  rw [Finset.mem_filter, mem_armedItems, mem_armedItems]
  constructor
  · rintro ⟨⟨other, hother, rfl⟩, hne⟩
    rcases List.mem_cons.mp hother with rfl | hrest
    · exact absurd rfl hne
    · exact ⟨other, hrest, rfl⟩
  · rintro ⟨other, hrest, rfl⟩
    exact ⟨⟨other, List.mem_cons_of_mem item hrest, rfl⟩, hfresh other hrest⟩

/-- A command that counts from a tick is a request to start. -/
theorem request_of_countsFrom {message : DaemonTaskMessage}
    (hcommand : message.xMessageID.CountsFrom) :
    message.request = .start message.pxTimer message.stamp := by
  unfold DaemonTaskMessage.request
  simp only [CommandId.CountsFrom, List.mem_cons, List.not_mem_nil, or_false] at hcommand
  rcases hcommand with hcommand | hcommand | hcommand | hcommand | hcommand <;> rw [hcommand]

/-- A command to stop is a request to stop. -/
theorem request_of_stop {message : DaemonTaskMessage}
    (hcommand : message.xMessageID ∈ [.stop, .stopFromISR]) :
    message.request = .stop message.pxTimer := by
  unfold DaemonTaskMessage.request
  simp only [List.mem_cons, List.not_mem_nil, or_false] at hcommand
  rcases hcommand with hcommand | hcommand <;> rw [hcommand]

/-- A command to change the period is a request to change it. -/
theorem request_of_changePeriod {message : DaemonTaskMessage}
    (hcommand : message.xMessageID ∈ [.changePeriod, .changePeriodFromISR]) :
    message.request = .changePeriod message.pxTimer message.xMessageValue := by
  unfold DaemonTaskMessage.request
  simp only [List.mem_cons, List.not_mem_nil, or_false] at hcommand
  rcases hcommand with hcommand | hcommand <;> rw [hcommand]

/-- A command to delete is a request to delete. -/
theorem request_of_delete {message : DaemonTaskMessage} (hcommand : message.xMessageID = .delete) :
    message.request = .delete message.pxTimer := by
  unfold DaemonTaskMessage.request
  rw [hcommand]

/-- The timer of a command is that of its request. -/
theorem timer_request (message : DaemonTaskMessage) : message.request.timer = message.pxTimer := by
  unfold DaemonTaskMessage.request
  split <;> rfl

end Meaning

/-! ### Every step is a step of the schedule -/

/-- The event of the schedule that an event of the service can be. -/
inductive Matches : TimerEvent → ScheduleEvent → Prop
  | advance (ticks : ℕ) : Matches (.advance ticks) (.advance ticks)
  | send (command : CommandId) (value : UInt32) (waited : ℕ) (request : Request) :
    Matches (.send command request.timer value waited) (.send request)
  | expire (handle : TimerHandle) (due : ℕ) (requested : Bool) :
    Matches .daemon (.expire handle due requested)
  | receive : Matches .daemon .receive
  | serve : Matches .daemon .serve

section Refinement

variable {driver : ListDriver} {service next : TimerService}
  {timers : TimerHandle → Option Timer} {started : List TimerHandle}

/-- A step of the service task is a step of the schedule or changes nothing in it. -/
def Refines (timers : TimerHandle → Option Timer) (started : List TimerHandle) (event : TimerEvent)
    (service next : TimerService) : Prop :=
  next.schedule = service.schedule ∨ ∃ scheduleEvent, Matches event scheduleEvent ∧
    (scheduling timers started).step service.schedule scheduleEvent = some next.schedule

/-- A command of a task is a request. -/
theorem refines_send {command : CommandId} {handle : TimerHandle} {value : UInt32} {waited : ℕ}
    (hstep : (timerService driver timers started).step service
      (.send command handle value waited) = some next) :
    Refines timers started (.send command handle value waited) service next := by
  change (if _ then _ else _) = some next at hstep
  split_ifs at hstep with hsends
  obtain ⟨-, hwaited, hroom⟩ := hsends
  cases hstep
  have hstamped := stamped_sentMessage command handle value waited service.ticks
  have hhandle : (sentMessage command handle value waited service.ticks).request.timer =
      handle := by
    rw [timer_request]
    unfold sentMessage
    split_ifs <;> rfl
  have hmatches := Matches.send command value waited
    (sentMessage command handle value waited service.ticks).request
  rw [hhandle] at hmatches
  refine .inr ⟨_, hmatches, ?_⟩
  have hahead : (sentMessage command handle value waited service.ticks).request.NotAhead
      service.ticks := by
    by_cases hcounts : (sentMessage command handle value waited
        service.ticks).xMessageID.CountsFrom
    · rw [request_of_countsFrom hcounts]
      exact (hstamped hcounts).2
    · generalize sentMessage command handle value waited service.ticks = message at hcounts
      unfold DaemonTaskMessage.request
      cases hcommand : message.xMessageID with
      | start | startFromISR | reset | resetFromISR | startDontTrace =>
        exact absurd (by rw [hcommand]; decide) hcounts
      | stop | stopFromISR | changePeriod | changePeriodFromISR | delete => exact trivial
  have hlength : service.schedule.requests.length < configTimerQueueLength := by
    change (service.xTimerQueue.map _).length < _
    rw [List.length_map]
    exact hroom
  change (if _ ∧ _ then _ else _) = _
  rw [if_pos ⟨hahead, hlength⟩]
  unfold Schedule.request TimerService.xTimerGenericCommand
  rw [if_pos hlength, if_pos hroom]
  unfold TimerService.schedule
  rw [List.map_append]
  rfl

/-- The call of a timer is its expiry in the schedule. -/
theorem refines_fired {stage : DaemonStage} {item : TimerListItem} {rest : List TimerListItem}
    {timer : Timer} (hsound : Sound service)
    (hfired : Fired driver stage item rest timer service next)
    (hreceived : next.received = service.received) :
    Refines timers started .daemon service next := by
  have hlists := hsound.1.lists
  rw [hfired.first] at hlists
  have hfresh := hlists.tail.2
  have hitems : service.items = item :: (rest ++ service.pxOverflowTimerList) := by
    unfold TimerService.items
    rw [hfired.first]
    rfl
  have harmed : (item.pvOwner, item.due) ∈ service.schedule.armed :=
    mem_armedItems.mpr ⟨item, hitems ▸ List.mem_cons_self, rfl⟩
  have hdue : item.due ≤ service.schedule.now :=
    Nat.le_trans hfired.expired hsound.1.sampled
  have hdisarm : Schedule.disarm item.pvOwner service.schedule.armed =
      armedItems (rest ++ service.pxOverflowTimerList) := by
    change Schedule.disarm item.pvOwner (armedItems service.items) = _
    rw [hitems, disarm_armedItems_cons hfresh]
  have hlive : service.schedule.timers item.pvOwner = some timer := hfired.live
  have hlength : service.schedule.requests.length = service.xTimerQueue.length :=
    List.length_map _
  obtain ⟨near, far, queue, rfl, -, hcases⟩ := hfired.cases hsound.1.lists
  have hserving : Option.map (fun message ↦ (message.request, service.sampled))
      (TimerService.received { service with
        pxCurrentTimerList := near
        pxOverflowTimerList := far
        xTimerQueue := queue
        calls := service.calls ++ [⟨item.pvOwner, item.due, service.ticks⟩]
        stage := stage }) = service.schedule.serving := by
    rw [hreceived]
    rfl
  have hmoved : ∀ requested, (scheduling timers started).step service.schedule
      (.expire item.pvOwner item.due requested) =
        some (service.schedule.expire item.pvOwner item.due requested timer) := by
    intro requested
    change (if _ ∧ _ then _ else _) = _
    rw [if_pos ⟨harmed, hdue⟩, hlive]
    rfl
  rcases hcases with ⟨rfl, rfl, rfl, hfull⟩ | ⟨rfl, rfl, hreload, hroom, rfl⟩ |
    ⟨rfl, hreload, hperm⟩
  · refine .inr ⟨.expire item.pvOwner item.due true, .expire _ _ _, (hmoved true).trans ?_⟩
    unfold Schedule.expire Schedule.request Schedule.call
    dsimp only
    rw [hdisarm, hlength]
    unfold TimerService.schedule at hserving ⊢
    rw [hserving]
    cases hreload : timer.uxAutoReload with
    | false => rfl
    | true =>
      rw [if_pos rfl, if_pos rfl, if_neg (Nat.not_lt.mpr (hfull hreload))]
      rfl
  · refine .inr ⟨.expire item.pvOwner item.due true, .expire _ _ _, (hmoved true).trans ?_⟩
    unfold Schedule.expire Schedule.request Schedule.call
    dsimp only
    rw [hdisarm, hlength, hreload, if_pos rfl, if_pos rfl, if_pos hroom]
    unfold TimerService.schedule at hserving ⊢
    rw [hserving, List.map_append]
    rfl
  · refine .inr ⟨.expire item.pvOwner item.due false, .expire _ _ _, (hmoved false).trans ?_⟩
    unfold Schedule.expire Schedule.call
    dsimp only
    rw [hdisarm, hreload, if_pos rfl, if_neg nofun]
    unfold TimerService.schedule at hserving ⊢
    unfold TimerService.items
    rw [hserving, armedItems_perm hperm, armedItems_cons]

/-- The receipt of a command is that of its request. -/
theorem refines_receive (hstage : service.stage = .commands) :
    Refines timers started .daemon service service.receiveCommand := by
  have hnone : service.received = none := by
    unfold TimerService.received
    rw [hstage]
  have hserving : service.schedule.serving = none := by
    unfold TimerService.schedule
    rw [hnone]
    rfl
  rcases receiveCommand_cases service with
    ⟨-, hnext⟩ | ⟨message, rest, hqueue, hlive, hnext⟩ |
    ⟨message, rest, timer, hqueue, hlive, xLastTime, stage, hnext, hread⟩
  · left
    rw [hnext]
    unfold TimerService.schedule
    rw [hnone]
    rfl
  · right
    refine ⟨.receive, .receive, ?_⟩
    have hrequests : service.schedule.requests =
        message.request :: rest.map DaemonTaskMessage.request := by
      unfold TimerService.schedule
      rw [hqueue, List.map_cons]
    have htimer : service.schedule.timers message.request.timer = none := by
      rw [timer_request]
      exact hlive
    unfold scheduling
    dsimp only
    rw [hserving, hrequests]
    dsimp only
    rw [htimer, hnext]
    have hstill : TimerService.received { service with
        xTimerQueue := rest, touchedFreed := true } = none := hnone
    unfold TimerService.schedule
    rw [hstill]
    rfl
  · right
    refine ⟨.receive, .receive, ?_⟩
    have hrequests : service.schedule.requests =
        message.request :: rest.map DaemonTaskMessage.request := by
      unfold TimerService.schedule
      rw [hqueue, List.map_cons]
    have htimer : service.schedule.timers message.request.timer = some timer := by
      rw [timer_request]
      exact hlive
    have hreceived : service.receiveCommand.received = some message := by
      rw [hnext]
      unfold TimerService.received
      rcases hread with ⟨-, rfl⟩ | ⟨-, rfl, -⟩ <;> rfl
    unfold scheduling
    dsimp only
    rw [hserving, hrequests]
    dsimp only
    rw [htimer]
    rw [hnext] at hreceived ⊢
    unfold TimerService.schedule
    rw [hreceived]
    unfold TimerService.items
    rw [armedItems_remove, timer_request]
    rfl

/-- What the execution of a command leaves is, for the schedule, the service of the request. -/
def ServesRequest (message : DaemonTaskMessage) (timer : Timer) (service executed : TimerService) :
    Prop :=
  TimerService.schedule { executed with stage := .commands } =
    { service.schedule.serve service.sampled timer message.request with serving := none }

section Serves

variable {message : DaemonTaskMessage} {timer : Timer} {executed : TimerService}

/-- An insertion changes nothing but the lists, and arms the timer. -/
theorem Inserted.armed {item : TimerListItem} (hinserted : Inserted driver item service next) :
    next = { service with
      pxCurrentTimerList := next.pxCurrentTimerList
      pxOverflowTimerList := next.pxOverflowTimerList } ∧
    armedItems next.items = insert (item.pvOwner, item.due) (armedItems service.items) := by
  rw [← armedItems_cons]
  obtain ⟨rfl, -⟩ | ⟨rfl, -⟩ := hinserted
  · exact ⟨rfl, armedItems_perm ((driver.inserted _ item).append_right _)⟩
  · exact ⟨rfl, armedItems_perm
      (((driver.inserted _ item).append_left _).trans List.perm_middle)⟩

/-- The start of a timer whose period has not passed arms it. -/
theorem serves_started (hcommand : message.xMessageID.CountsFrom)
    (hahead : service.sampled < message.stamp + timer.xTimerPeriodInTicks.toNat)
    (hinserted : Inserted driver
      ⟨UInt32.ofNat (message.stamp + timer.xTimerPeriodInTicks.toNat), message.pxTimer,
        message.stamp + timer.xTimerPeriodInTicks.toNat⟩ service executed) :
    ServesRequest message timer service executed := by
  obtain ⟨hframe, harmed⟩ := hinserted.armed
  unfold ServesRequest
  rw [request_of_countsFrom hcommand]
  unfold Schedule.serve
  dsimp only
  rw [if_neg (Nat.not_le.mpr hahead), hframe]
  change Schedule.mk _ (armedItems executed.items) _ _ _ _ _ = _
  rw [harmed]
  rfl

/-- The start of a timer whose period has passed calls it. -/
theorem serves_elapsed (hcommand : message.xMessageID.CountsFrom)
    (hpassed : message.stamp + timer.xTimerPeriodInTicks.toNat ≤ service.sampled)
    (hreload : timer.uxAutoReload = false) :
    ServesRequest message timer service (service.callback message.pxTimer
      (message.stamp + timer.xTimerPeriodInTicks.toNat)) := by
  unfold ServesRequest
  rw [request_of_countsFrom hcommand]
  unfold Schedule.serve
  dsimp only
  rw [if_pos hpassed, hreload]
  rfl

/-- The start of a timer that reloads itself, and whose period has passed, calls it and requests its
next start. -/
theorem serves_again (hcommand : message.xMessageID.CountsFrom)
    (hpassed : message.stamp + timer.xTimerPeriodInTicks.toNat ≤ service.sampled)
    (hreload : timer.uxAutoReload = true) :
    ServesRequest message timer service ((service.callback message.pxTimer
      (message.stamp + timer.xTimerPeriodInTicks.toNat)).xTimerGenericCommand
        ⟨.startDontTrace, UInt32.ofNat (message.stamp + timer.xTimerPeriodInTicks.toNat),
          message.pxTimer, message.stamp + timer.xTimerPeriodInTicks.toNat⟩).2 := by
  have hlength : service.schedule.requests.length = service.xTimerQueue.length :=
    List.length_map _
  unfold ServesRequest
  rw [request_of_countsFrom hcommand]
  unfold Schedule.serve Schedule.request Schedule.call
  dsimp only
  rw [if_pos hpassed, hreload, if_pos rfl, hlength]
  rcases xTimerGenericCommand_cases
    ⟨.startDontTrace, UInt32.ofNat (message.stamp + timer.xTimerPeriodInTicks.toNat),
      message.pxTimer, message.stamp + timer.xTimerPeriodInTicks.toNat⟩
    (service.callback message.pxTimer (message.stamp + timer.xTimerPeriodInTicks.toNat)) with
    ⟨hroom, heq⟩ | ⟨hfull, heq⟩
  · change service.xTimerQueue.length < configTimerQueueLength at hroom
    rw [heq, if_pos hroom]
    unfold TimerService.schedule TimerService.callback
    dsimp only
    rw [List.map_append]
    rfl
  · change ¬ service.xTimerQueue.length < configTimerQueueLength at hfull
    rw [heq, if_neg hfull]
    rfl

/-- The stop of a timer, which has been taken from its list, leaves the rest. -/
theorem serves_stopped (hcommand : message.xMessageID ∈ [.stop, .stopFromISR]) :
    ServesRequest message timer service service := by
  unfold ServesRequest
  rw [request_of_stop hcommand]
  rfl

/-- The change of a period arms the timer for the new period from now on. -/
theorem serves_changed (hcommand : message.xMessageID ∈ [.changePeriod, .changePeriodFromISR])
    (hperiod : message.xMessageValue ≠ 0)
    (hinserted : Inserted driver
      ⟨UInt32.ofNat (service.sampled + message.xMessageValue.toNat), message.pxTimer,
        service.sampled + message.xMessageValue.toNat⟩
      { service with
        timers := Function.update service.timers message.pxTimer
          (some { timer with xTimerPeriodInTicks := message.xMessageValue }) } executed) :
    ServesRequest message timer service executed := by
  obtain ⟨hframe, harmed⟩ := hinserted.armed
  unfold ServesRequest
  rw [request_of_changePeriod hcommand]
  unfold Schedule.serve
  dsimp only
  rw [if_neg hperiod, hframe]
  change Schedule.mk _ (armedItems executed.items) _ _ _ _ _ = _
  rw [harmed]
  rfl

/-- The change of a period to none leaves the timer out of the lists. -/
theorem serves_cleared (hcommand : message.xMessageID ∈ [.changePeriod, .changePeriodFromISR])
    (hperiod : message.xMessageValue = 0) :
    ServesRequest message timer service { service with
      timers := Function.update service.timers message.pxTimer
        (some { timer with xTimerPeriodInTicks := message.xMessageValue }) } := by
  unfold ServesRequest
  rw [request_of_changePeriod hcommand]
  unfold Schedule.serve
  dsimp only
  rw [if_pos hperiod]
  rfl

/-- A timer that is deleted is one no longer. -/
theorem serves_deleted (hcommand : message.xMessageID = .delete) :
    ServesRequest message timer service { service with
      timers := Function.update service.timers message.pxTimer none } := by
  unfold ServesRequest
  rw [request_of_delete hcommand]
  rfl

/-- Every command serves its request. -/
theorem Executed.serves (hexecuted : Executed driver message timer service executed) :
    ServesRequest message timer service executed := by
  cases hexecuted with
  | started hcommand hahead hinserted => exact serves_started hcommand hahead hinserted
  | elapsed hcommand hpassed hreload => exact serves_elapsed hcommand hpassed hreload
  | again hcommand hpassed hreload => exact serves_again hcommand hpassed hreload
  | stopped hcommand => exact serves_stopped hcommand
  | changed hcommand hperiod hinserted => exact serves_changed hcommand hperiod hinserted
  | cleared hcommand hperiod => exact serves_cleared hcommand hperiod
  | deleted hcommand => exact serves_deleted hcommand

end Serves

/-- The execution of a command is the service of its request. -/
theorem refines_execute {xTimeNow : UInt32} {message : DaemonTaskMessage} (hsound : Sound service)
    (hstage : service.stage = .execute xTimeNow message)
    (hstep : service.prvTimerTask driver = some next) :
    Refines timers started .daemon service next := by
  have hreceived : service.received = some message := by
    unfold TimerService.received
    rw [hstage]
  obtain ⟨timer, executed, hlive, hexecuted, rfl⟩ := executeCommand_cases hsound.1 hstage
    (fun hcounts ↦ Nat.lt_of_le_of_lt hsound.1.sampled (hsound.recent hstage hcounts)) hstep
  have hserving : service.schedule.serving = some (message.request, service.sampled) := by
    unfold TimerService.schedule
    rw [hreceived]
    rfl
  have htimer : service.schedule.timers message.request.timer = some timer := by
    rw [timer_request]
    exact hlive
  refine .inr ⟨.serve, .serve, ?_⟩
  rw [hexecuted.serves]
  unfold scheduling
  dsimp only
  rw [hserving, Option.bind_some]
  dsimp only
  rw [htimer]
  rfl

/-- The assessment of the next expiry time reads the tick count and has no command. -/
theorem prvProcessTimerOrBlockTask_frame (xNextExpireTime : UInt32) (xListWasEmpty : Bool)
    (service : TimerService) :
    ∃ xLastTime stage, service.prvProcessTimerOrBlockTask xNextExpireTime xListWasEmpty =
      { service with xLastTime := xLastTime, sampled := service.ticks, stage := stage } ∧
      TimerService.received { service with
        xLastTime := xLastTime, sampled := service.ticks, stage := stage } = none := by
  unfold TimerService.prvProcessTimerOrBlockTask
  dsimp only
  by_cases hwrapped : service.xTaskGetTickCount < service.xLastTime
  · exact ⟨_, _, if_pos hwrapped, rfl⟩
  · refine ⟨_, _, if_neg hwrapped, ?_⟩
    unfold TimerService.received
    by_cases hexpired : xListWasEmpty = false ∧ xNextExpireTime ≤ service.xTaskGetTickCount
    · dsimp only
      rw [if_pos hexpired]
    · dsimp only
      rw [if_neg hexpired]

/-- A step of the service task. -/
theorem refines_prvTimerTask (hsound : Sound service)
    (hstep : service.prvTimerTask driver = some next) :
    Refines timers started .daemon service next := by
  have hreceived : ∀ stage, service.stage = stage → service.received =
      TimerService.received { service with stage := stage } := by
    rintro stage rfl
    rfl
  cases hstage : service.stage with
  | query =>
    unfold TimerService.prvTimerTask at hstep
    rw [hstage] at hstep
    cases hstep
    left
    unfold TimerService.schedule
    rw [hreceived _ hstage]
    rfl
  | assess xNextExpireTime xListWasEmpty =>
    unfold TimerService.prvTimerTask at hstep
    rw [hstage] at hstep
    cases hstep
    left
    obtain ⟨xLastTime, stage, heq, hnone⟩ :=
      prvProcessTimerOrBlockTask_frame xNextExpireTime xListWasEmpty service
    rw [heq]
    unfold TimerService.schedule
    rw [hnone, hreceived _ hstage]
    rfl
  | expired xNextExpireTime xTimeNow =>
    obtain ⟨item, rest, timer, hfired⟩ := prvProcessExpiredTimer_cases hsound.1 hstage hstep
    refine refines_fired hsound hfired ?_
    obtain ⟨near, far, queue, rfl, -⟩ := hfired.cases hsound.1.lists
    rw [hreceived _ hstage]
    rfl
  | switching xTimeNow received =>
    rcases prvSwitchTimerLists_cases hsound.1 hstage hstep with
      ⟨hempty, rfl⟩ | ⟨item, rest, timer, hfired⟩
    · left
      unfold TimerService.schedule TimerService.items
      rw [hreceived _ hstage, hempty, List.append_nil]
      cases received with
      | none => rfl
      | some message => rfl
    · refine refines_fired hsound hfired ?_
      obtain ⟨near, far, queue, rfl, -⟩ := hfired.cases hsound.1.lists
      rfl
  | blocked since xTicksToWait indefinitely =>
    unfold TimerService.prvTimerTask at hstep
    rw [hstage] at hstep
    dsimp only at hstep
    split_ifs at hstep
    cases hstep
    left
    unfold TimerService.schedule
    rw [hreceived _ hstage]
    rfl
  | commands =>
    unfold TimerService.prvTimerTask at hstep
    rw [hstage] at hstep
    exact Option.some.inj hstep ▸ refines_receive hstage
  | execute xTimeNow message => exact refines_execute hsound hstage hstep

/-- A step of the service. -/
theorem refines_step {event : TimerEvent} (hsound : Sound service)
    (hstep : (timerService driver timers started).step service event = some next) :
    Refines timers started event service next := by
  cases event with
  | advance ticks =>
    cases hstep
    exact .inr ⟨.advance ticks, .advance ticks, rfl⟩
  | send => exact refines_send hstep
  | daemon => exact refines_prvTimerTask hsound hstep

/-- The service starts with the schedule. -/
theorem schedule_initial (driver : ListDriver) (timers : TimerHandle → Option Timer)
    (started : List TimerHandle) :
    (timerService driver timers started).initial.schedule =
      (scheduling timers started).initial := by
  rw [initial_eq]
  unfold TimerService.schedule scheduling
  rw [List.map_map]
  rfl

/-- **The service keeps the schedule.** Assumes: the runs are restricted to punctual ones, and to
events that are admitted in the schedule. Every state that the service reaches stands for a state
that the schedule reaches, and it is in place. -/
theorem schedule_of_reachableUnder {allowed : TimerService → TimerEvent → Prop}
    {admitted : Schedule → ScheduleEvent → Prop}
    (hpunctual : ∀ service event, Sound service → allowed service event → Punctual service event)
    (hadmits : ∀ service event scheduleEvent, Sound service → allowed service event →
      Matches event scheduleEvent → admitted service.schedule scheduleEvent)
    (hreach : (timerService driver timers started).ReachableUnder allowed service) :
    Sound service ∧ (scheduling timers started).ReachableUnder admitted service.schedule := by
  refine System.ReachableUnder.simulate TimerService.schedule sound_initial
    (schedule_initial driver timers started) ?_ hreach
  intro state event next hsound _ hallowed hstep
  refine ⟨hsound.step (hpunctual state event hsound hallowed) hstep, ?_⟩
  refine (refines_step hsound hstep).imp_right ?_
  rintro ⟨scheduleEvent, hmatches, hmove⟩
  exact ⟨scheduleEvent, hadmits state event scheduleEvent hsound hallowed hmatches, hmove⟩

end Refinement

end Apes.SoftwareTimers
