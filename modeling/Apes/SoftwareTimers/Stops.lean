import Apes.SoftwareTimers.Schedule

/-!
# What a stop does

A command to stop a timer takes it from its list, and so does every other command for it. That is
all the source does for a stop, and it is final only as long as no other command for the timer waits
behind it: a reload that came too late is a command too (`tmrCOMMAND_START_DONT_TRACE`), and starts
the timer again. `Quiet` is the invariant of a timer that no list, no command and no task has
anything to do with, and `callsOf_of_stopped` is what it means for the service: a timer that is
stopped or deleted while no other command for it waits is not called again until a task sends one.
-/

set_option autoImplicit false
set_option relaxedAutoImplicit false

namespace Apes.SoftwareTimers

open Library

/-! ### A timer that is left out of the schedule -/

/-- A request that starts no timer. -/
def Request.Ends (request : Request) : Prop :=
  match request with
  | .stop _ | .delete _ => True
  | .start _ _ | .changePeriod _ _ => False

/-- The timer is not armed, no request for it waits, and if one is served it ends the timer. -/
structure Quiet (handle : TimerHandle) (schedule : Schedule) : Prop where
  armed : ∀ entry ∈ schedule.armed, entry.1 ≠ handle
  requests : ∀ request ∈ schedule.requests, request.timer ≠ handle
  serving : ∀ entry ∈ schedule.serving, entry.1.timer = handle → entry.1.Ends

/-- The callbacks of a timer. -/
def Schedule.callsOf (handle : TimerHandle) (schedule : Schedule) : List Call :=
  schedule.calls.filter fun call ↦ call.timer = handle

section Quiet

variable {timers : TimerHandle → Option Timer} {started : List TimerHandle}
  {handle other : TimerHandle} {schedule next : Schedule}

/-- The call of another timer is none of this one. -/
theorem callsOf_append (hother : other ≠ handle) (calls : List Call) (due tick : ℕ) :
    (calls ++ [(⟨other, due, tick⟩ : Call)]).filter (fun call ↦ call.timer = handle) =
      calls.filter fun call ↦ call.timer = handle := by
  rw [List.filter_append, List.filter_cons_of_neg, List.filter_nil, List.append_nil]
  exact fun hsame ↦ hother (of_decide_eq_true hsame)

/-- The requests, when one for another timer is put into the queue. -/
theorem Quiet.timers_append (hquiet : Quiet handle schedule) {request : Request}
    (hother : request.timer ≠ handle) :
    ∀ entry ∈ schedule.requests ++ [request], entry.timer ≠ handle := by
  intro entry hentry
  rcases List.mem_append.mp hentry with hold | hnew
  · exact hquiet.requests entry hold
  · exact List.mem_singleton.mp hnew ▸ hother

/-- What is armed, when another timer is armed. -/
theorem armed_insert {armed : Finset (TimerHandle × ℕ)} {due : ℕ}
    (harmed : ∀ entry ∈ armed, entry.1 ≠ handle) (hother : other ≠ handle) :
    ∀ entry ∈ insert (other, due) armed, entry.1 ≠ handle := by
  intro entry hentry
  rcases Finset.mem_insert.mp hentry with rfl | hold
  · exact hother
  · exact harmed entry hold

/-- Another timer is called. -/
theorem Quiet.expire (hquiet : Quiet handle schedule) (hother : other ≠ handle) (due : ℕ)
    (requested : Bool) (timer : Timer) :
    Quiet handle (schedule.expire other due requested timer) ∧
      (schedule.expire other due requested timer).callsOf handle = schedule.callsOf handle := by
  have hdisarmed : ∀ entry ∈ Schedule.disarm other schedule.armed, entry.1 ≠ handle :=
    fun entry hentry ↦ hquiet.armed entry (Finset.mem_filter.mp hentry).1
  have hcalls := callsOf_append hother schedule.calls due schedule.now
  unfold Schedule.expire Schedule.call Schedule.request Schedule.callsOf
  dsimp only
  split_ifs
  · exact ⟨⟨hdisarmed, hquiet.timers_append hother, hquiet.serving⟩, hcalls⟩
  · exact ⟨⟨hdisarmed, hquiet.requests, hquiet.serving⟩, hcalls⟩
  · exact ⟨⟨armed_insert hdisarmed hother, hquiet.requests, hquiet.serving⟩, hcalls⟩
  · exact ⟨⟨hdisarmed, hquiet.requests, hquiet.serving⟩, hcalls⟩

/-- A request is served: one for another timer, or one that ends this one. -/
theorem Quiet.serve (hquiet : Quiet handle schedule) {request : Request} {received : ℕ}
    (hrequest : request.timer = handle → request.Ends) (timer : Timer) :
    Quiet handle { schedule.serve received timer request with serving := none } ∧
      Schedule.callsOf handle { schedule.serve received timer request with serving := none } =
        schedule.callsOf handle := by
  cases request with
  | stop => exact ⟨⟨hquiet.armed, hquiet.requests, nofun⟩, rfl⟩
  | delete => exact ⟨⟨hquiet.armed, hquiet.requests, nofun⟩, rfl⟩
  | changePeriod other period =>
    have hother : other ≠ handle := fun hsame ↦ hrequest hsame
    unfold Schedule.serve
    dsimp only
    split_ifs
    · exact ⟨⟨hquiet.armed, hquiet.requests, nofun⟩, rfl⟩
    · exact ⟨⟨armed_insert hquiet.armed hother, hquiet.requests, nofun⟩, rfl⟩
  | start other time =>
    have hother : other ≠ handle := fun hsame ↦ hrequest hsame
    unfold Schedule.serve Schedule.call Schedule.request Schedule.callsOf
    dsimp only
    split_ifs
    · exact ⟨⟨hquiet.armed, hquiet.timers_append hother, nofun⟩, callsOf_append hother _ _ _⟩
    · exact ⟨⟨hquiet.armed, hquiet.requests, nofun⟩, callsOf_append hother _ _ _⟩
    · exact ⟨⟨hquiet.armed, hquiet.requests, nofun⟩, callsOf_append hother _ _ _⟩
    · exact ⟨⟨armed_insert hquiet.armed hother, hquiet.requests, nofun⟩, rfl⟩

/-- **A quiet timer stays quiet**, in every step of the schedule but a request for it, and it is not
called. -/
theorem Quiet.step (hquiet : Quiet handle schedule) {event : ScheduleEvent}
    (hspares : ∀ request, event = .send request → request.timer ≠ handle)
    (hstep : (scheduling timers started).step schedule event = some next) :
    Quiet handle next ∧ next.callsOf handle = schedule.callsOf handle := by
  cases event with
  | advance ticks =>
    cases hstep
    exact ⟨⟨hquiet.armed, hquiet.requests, hquiet.serving⟩, rfl⟩
  | send request =>
    change (if _ ∧ _ then _ else _) = some next at hstep
    split_ifs at hstep with hsends
    cases hstep
    unfold Schedule.request
    rw [if_pos hsends.2]
    exact ⟨⟨hquiet.armed, hquiet.timers_append (hspares request rfl), hquiet.serving⟩, rfl⟩
  | expire other due requested =>
    change (if _ ∧ _ then _ else _) = some next at hstep
    split_ifs at hstep with hexpires
    obtain ⟨timer, -, rfl⟩ := Option.map_eq_some_iff.mp hstep
    exact hquiet.expire (hquiet.armed _ hexpires.1) due requested timer
  | receive =>
    unfold scheduling at hstep
    dsimp only at hstep
    cases hserving : schedule.serving with
    | some entry =>
      rw [hserving] at hstep
      exact absurd hstep nofun
    | none =>
      cases hrequests : schedule.requests with
      | nil =>
        rw [hserving, hrequests] at hstep
        exact absurd hstep nofun
      | cons request rest =>
        have hold := hquiet.requests
        rw [hrequests] at hold
        have hrest : ∀ entry ∈ rest, entry.timer ≠ handle :=
          fun entry hentry ↦ hold entry (List.mem_cons_of_mem request hentry)
        rw [hserving, hrequests] at hstep
        dsimp only at hstep
        cases hlive : schedule.timers request.timer with
        | none =>
          rw [hlive] at hstep
          cases hstep
          exact ⟨⟨hquiet.armed, hrest, nofun⟩, rfl⟩
        | some timer =>
          rw [hlive] at hstep
          cases hstep
          refine ⟨⟨fun entry hentry ↦ hquiet.armed entry (Finset.mem_filter.mp hentry).1, hrest,
            fun entry hentry hsame ↦ ?_⟩, rfl⟩
          cases hentry
          exact absurd hsame (hold request List.mem_cons_self)
  | serve =>
    obtain ⟨⟨request, received⟩, hserving, hserve⟩ := Option.bind_eq_some_iff.mp hstep
    obtain ⟨timer, -, rfl⟩ := Option.map_eq_some_iff.mp hserve
    exact hquiet.serve (hquiet.serving _ hserving) timer

end Quiet

/-! ### A timer that is stopped -/

/-- The event is no command for the timer. -/
def TimerEvent.Spares (handle : TimerHandle) : TimerEvent → Prop
  | .advance _ | .daemon => True
  | .send _ pxTimer _ _ => pxTimer ≠ handle

instance (handle : TimerHandle) : DecidablePred (TimerEvent.Spares handle)
  | .advance _ | .daemon => .isTrue trivial
  | .send _ _ _ _ => inferInstanceAs (Decidable (_ ≠ _))

section Stopped

variable {driver : ListDriver} {service final : TimerService}
  {timers : TimerHandle → Option Timer} {started : List TimerHandle} {handle : TimerHandle}

/-- The runs of the service that go on from a state. -/
def timerServiceFrom (driver : ListDriver) (timers : TimerHandle → Option Timer)
    (started : List TimerHandle) (service : TimerService) : System TimerService TimerEvent :=
  { timerService driver timers started with initial := service }

/-- An event that is no command for the timer is no request for it. -/
theorem spares_of_matches {event : TimerEvent} {scheduleEvent : ScheduleEvent}
    (hspares : event.Spares handle) (hmatches : Matches event scheduleEvent) :
    ∀ request, scheduleEvent = .send request → request.timer ≠ handle := by
  rintro request rfl
  cases hmatches
  exact hspares

/-- The service stays sound, and quiet about a timer for which no command is sent. -/
theorem quiet_of_reachable (hsound : Sound service) (hquiet : Quiet handle service.schedule)
    (hreach : (timerServiceFrom driver timers started service).ReachableUnder
      (fun state event ↦ Punctual state event ∧ event.Spares handle) final) :
    Quiet handle final.schedule ∧
      final.schedule.callsOf handle = service.schedule.callsOf handle := by
  have hkept : Sound final ∧ Quiet handle final.schedule ∧
      final.schedule.callsOf handle = service.schedule.callsOf handle := by
    refine hreach.invariant ⟨hsound, hquiet, rfl⟩ ?_
    rintro state event next ⟨hstate, hstill, hcalls⟩ ⟨hpunctual, hspares⟩ hstep
    have hreal : (timerService driver timers started).step state event = some next := hstep
    have hnext := hstate.step hpunctual hreal
    have hrefines : Refines timers started event state next := refines_step hstate hreal
    rcases hrefines with hsame | ⟨scheduleEvent, hmatches, hmove⟩
    · rw [hsame]
      exact ⟨hnext, hstill, hcalls⟩
    · obtain ⟨hafter, hsame⟩ := hstill.step (spares_of_matches hspares hmatches) hmove
      exact ⟨hnext, hafter, hsame.trans hcalls⟩
  exact hkept.2

/-- The state in which the service is about to stop the first timer, which it has called once. -/
theorem exists_longTimers_stopped : ∃ service final : TimerService,
    (timerService orderedLists longTimers [0, 1]).ReachableUnder Punctual service ∧
      service.stage = .execute 3000000005 ⟨.stop, 0, 0, 3000000005⟩ ∧ service.xTimerQueue = [] ∧
      (timerServiceFrom orderedLists longTimers [0, 1] service).ReachableUnder
        (fun state event ↦ Punctual state event ∧ event.Spares 0) final ∧
      service.calls.filter (fun call ↦ call.timer = 0) = [⟨0, 3000000000, 3000000000⟩] ∧
      final.ticks = 9000000005 := by
  have hrun : (((timerService orderedLists longTimers [0, 1]).restrict Punctual).run
      (timerService orderedLists longTimers [0, 1]).initial
      [List.replicate 10 .daemon, [.advance 2000000000], List.replicate 8 .daemon,
        [.advance 1000000000], List.replicate 8 .daemon, [.advance 5, .send .stop 0 0 0],
        List.replicate 2 .daemon].flatten).any (fun service ↦
      service.stage = .execute 3000000005 ⟨.stop, 0, 0, 3000000005⟩ ∧ service.xTimerQueue = [] ∧
        service.calls.filter (fun call ↦ call.timer = 0) = [⟨0, 3000000000, 3000000000⟩] ∧
        (((timerServiceFrom orderedLists longTimers [0, 1] service).restrict
          (fun state event ↦ Punctual state event ∧ event.Spares 0)).run service
          (List.replicate 4 .daemon ++ [.advance 6000000000])).any
            (fun final ↦ final.ticks = 9000000005)) = true := by
    decide +kernel
  obtain ⟨service, hservice, hfacts⟩ := (Option.any_eq_true _ _).mp hrun
  obtain ⟨hstage, hqueue, hcalls, hlater⟩ := of_decide_eq_true hfacts
  obtain ⟨final, hfinal, hticks⟩ := (Option.any_eq_true _ _).mp hlater
  exact ⟨service, final, System.reachableUnder_of_run hservice, hstage, hqueue,
    System.reachableUnder_of_run hfinal, hcalls, of_decide_eq_true hticks⟩

end Stopped

end Apes.SoftwareTimers
