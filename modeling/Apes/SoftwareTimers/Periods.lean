import Mathlib.Data.Finset.Card
import Apes.Library.Recurrence
import Apes.SoftwareTimers.Schedule

/-!
# The timers are called once in every period

What the timers do when no task sends a command after their starts, as on the board. The schedule is
then a recurrence: an entry is pending for each timer, armed or in a request, and the call of a
timer replaces it by the one a period later. `unattended_cases` says so of every step, and
`OnPeriod` is the invariant; no reload is refused, because each timer has at most one entry and the
queue has room for all of them.

The results are about the service and its lists, by `schedule_of_reachableUnder`.
`calls_of_unattended` is the order of the calls of a timer: after one, two, three periods and so on,
none left out, none twice and none early. `calls_of_asleep` is how many there are whenever the
service task sleeps, and `calls_of_prompt` is that each call comes at its tick when no tick passes
while the task is ready.
-/

set_option autoImplicit false
set_option relaxedAutoImplicit false

namespace Apes.SoftwareTimers

open Library

/-! ### The schedule as a recurrence -/

/-- The timers that are started before the scheduler: each has been created, none is started twice,
and the queue has room for their starts. -/
structure Prepared (timers : TimerHandle → Option Timer) (started : List TimerHandle) : Prop where
  created : ∀ handle ∈ started, ∃ xTimerPeriodInTicks uxAutoReload timer,
    xTimerCreate xTimerPeriodInTicks uxAutoReload = some timer ∧ timers handle = some timer
  distinct : started.Nodup
  room : started.length ≤ configTimerQueueLength

/-- The periods of the timers, and which of them reload. -/
def timerPlan (timers : TimerHandle → Option Timer) : Recurrence TimerHandle where
  period handle := (timers handle).elim 0 fun timer ↦ timer.xTimerPeriodInTicks.toNat
  again handle := (timers handle).elim false Timer.uxAutoReload

/-- When the timer of a request to start is to expire. -/
def Request.entry (timers : TimerHandle → Option Timer) : Request → TimerHandle × ℕ
  | .start handle time => (handle, time + (timerPlan timers).period handle)
  | .stop handle | .changePeriod handle _ | .delete handle => (handle, 0)

namespace Schedule

/-- The requests that are served or wait. -/
def waiting (schedule : Schedule) : List Request :=
  schedule.serving.toList.map Prod.fst ++ schedule.requests

/-- What is pending: the timers that are armed, and those that are requested to start. -/
def pending (timers : TimerHandle → Option Timer) (schedule : Schedule) :
    Multiset (TimerHandle × ℕ) :=
  schedule.armed.val + (schedule.waiting.map (Request.entry timers) : List (TimerHandle × ℕ))

/-- The timers called and the ticks at which they were to expire. -/
def history (schedule : Schedule) : List (TimerHandle × ℕ) :=
  schedule.calls.map fun call ↦ (call.timer, call.due)

end Schedule

/-- The schedule of timers that are left to themselves. -/
structure OnPeriod (timers : TimerHandle → Option Timer) (started : List TimerHandle)
    (schedule : Schedule) : Prop where
  table : schedule.timers = timers
  starts : ∀ request ∈ schedule.waiting, ∃ handle time, request = .start handle time
  served : ∀ entry ∈ schedule.serving, entry.2 ≤ schedule.now
  follows : (timerPlan timers).Follows started (schedule.pending timers) schedule.history
  calls : ∀ call ∈ schedule.calls, call.due ≤ call.tick ∧ call.tick ≤ schedule.now
  touchedFreed : schedule.touchedFreed = false

/-- What a step of the schedule leaves as it is. -/
structure Unmoved (schedule next : Schedule) : Prop where
  table : next.timers = schedule.timers
  now : next.now = schedule.now
  touchedFreed : next.touchedFreed = schedule.touchedFreed
  starts : ∀ request ∈ next.waiting, ∃ handle time, request = .start handle time
  served : ∀ entry ∈ next.serving, entry.2 ≤ next.now

section Entries

variable {timers : TimerHandle → Option Timer} {started : List TimerHandle}
  {armed : Finset (TimerHandle × ℕ)} {handle : TimerHandle} {due : ℕ}

theorem Prepared.positive (hprepared : Prepared timers started) (hhandle : handle ∈ started) :
    ∃ timer, timers handle = some timer ∧ 0 < timer.xTimerPeriodInTicks.toNat := by
  obtain ⟨period, reload, timer, hcreated, hlive⟩ := hprepared.created handle hhandle
  refine ⟨timer, hlive, ?_⟩
  unfold xTimerCreate at hcreated
  split_ifs at hcreated with hzero
  obtain rfl := Option.some.inj hcreated
  exact Nat.pos_of_ne_zero fun hperiod ↦ hzero (UInt32.toNat_inj.mp hperiod)

theorem timerPlan_period {timer : Timer} (hlive : timers handle = some timer) :
    (timerPlan timers).period handle = timer.xTimerPeriodInTicks.toNat := by
  change (timers handle).elim 0 _ = _
  rw [hlive]
  rfl

theorem timerPlan_again {timer : Timer} (hlive : timers handle = some timer) :
    (timerPlan timers).again handle = timer.uxAutoReload := by
  change (timers handle).elim false _ = _
  rw [hlive]
  rfl

/-- The only entry of a timer is disarmed. -/
theorem disarm_eq_erase
    (honly : ∀ entry ∈ armed, entry.1 = handle → entry = (handle, due)) :
    Schedule.disarm handle armed = armed.erase (handle, due) := by
  unfold Schedule.disarm
  ext entry
  rw [Finset.mem_filter, Finset.mem_erase]
  constructor
  · rintro ⟨hentry, hother⟩
    exact ⟨fun hsame ↦ hother (congrArg Prod.fst hsame), hentry⟩
  · rintro ⟨hother, hentry⟩
    exact ⟨hentry, fun hsame ↦ hother (honly entry hentry hsame)⟩

/-- A timer without an entry is not armed. -/
theorem disarm_eq_self (hnone : ∀ entry ∈ armed, entry.1 ≠ handle) :
    Schedule.disarm handle armed = armed := Finset.filter_true_of_mem hnone

end Entries

section Unattended

variable {timers : TimerHandle → Option Timer} {started : List TimerHandle}
  {schedule next : Schedule} {handle : TimerHandle} {due : ℕ}

/-- Each timer has at most one entry. -/
theorem OnPeriod.distinct (hperiod : OnPeriod timers started schedule)
    (hprepared : Prepared timers started) : ((schedule.pending timers).map Prod.fst).Nodup :=
  Multiset.nodup_of_le hperiod.follows.pending_keys (Multiset.coe_nodup.mpr hprepared.distinct)

/-- No more is pending than the queue has room for. -/
theorem OnPeriod.card_le (hperiod : OnPeriod timers started schedule)
    (hprepared : Prepared timers started) :
    schedule.armed.card + schedule.serving.toList.length + schedule.requests.length ≤
      configTimerQueueLength := by
  have hcard := Multiset.card_le_card hperiod.follows.pending_keys
  unfold Schedule.pending Schedule.waiting at hcard
  rw [Multiset.card_map, Multiset.card_add, Multiset.coe_card, Multiset.coe_card, List.length_map,
    List.length_append, List.length_map] at hcard
  have hroom := hprepared.room
  change schedule.armed.card + _ ≤ _ at hcard
  omega

/-- An armed timer has no other entry. -/
theorem OnPeriod.armed_unique (hperiod : OnPeriod timers started schedule)
    (hprepared : Prepared timers started) (hmem : (handle, due) ∈ schedule.armed) :
    ∀ entry ∈ schedule.armed, entry.1 = handle → entry = (handle, due) := by
  intro entry hentry hsame
  refine Multiset.inj_on_of_nodup_map (hperiod.distinct hprepared) entry ?_ (handle, due) ?_ hsame
  · exact Multiset.mem_add.mpr (.inl hentry)
  · exact Multiset.mem_add.mpr (.inl hmem)

/-- A timer that is requested to start is not armed. -/
theorem OnPeriod.not_armed (hperiod : OnPeriod timers started schedule)
    (hprepared : Prepared timers started) {request : Request}
    (hrequest : request ∈ schedule.waiting) :
    ∀ entry ∈ schedule.armed, entry.1 ≠ (request.entry timers).1 := by
  intro entry hentry hsame
  have hnodup := hperiod.distinct hprepared
  unfold Schedule.pending at hnodup
  rw [Multiset.map_add] at hnodup
  refine Multiset.disjoint_left.mp (Multiset.nodup_add.mp hnodup).2.2
    (Multiset.mem_map_of_mem Prod.fst hentry) ?_
  rw [hsame]
  exact Multiset.mem_map_of_mem Prod.fst (List.mem_map_of_mem hrequest)

/-- One more request to start is one more entry. -/
theorem coe_entries_append (entries : Multiset (TimerHandle × ℕ)) (requests : List Request)
    (handle : TimerHandle) (time : ℕ) :
    entries + ((requests ++ [Request.start handle time]).map (Request.entry timers) :
      List (TimerHandle × ℕ)) =
    (handle, time + (timerPlan timers).period handle) ::ₘ
      (entries + (requests.map (Request.entry timers) : List (TimerHandle × ℕ))) := by
  rw [List.map_append, ← Multiset.coe_add, ← Multiset.add_assoc, List.map_singleton,
    Multiset.coe_singleton, Multiset.add_comm _ {_}, Multiset.singleton_add]
  rfl

/-- What is requested is pending. -/
theorem mem_pending_of_waiting {request : Request} (hrequest : request ∈ schedule.waiting) :
    request.entry timers ∈ schedule.pending timers :=
  Multiset.mem_add.mpr (.inr (List.mem_map_of_mem hrequest))

/-- An armed timer is called. -/
theorem OnPeriod.expire (hperiod : OnPeriod timers started schedule)
    (hprepared : Prepared timers started) (hmem : (handle, due) ∈ schedule.armed) {timer : Timer}
    (hlive : schedule.timers handle = some timer) (requested : Bool) :
    Unmoved schedule (schedule.expire handle due requested timer) ∧
      (schedule.expire handle due requested timer).calls =
        schedule.calls ++ [⟨handle, due, schedule.now⟩] ∧
      (schedule.expire handle due requested timer).pending timers =
        (timerPlan timers).replace handle due (schedule.pending timers) := by
  have hdisarm := disarm_eq_erase (hperiod.armed_unique hprepared hmem)
  have hpending : (schedule.pending timers).erase (handle, due) =
      (schedule.armed.erase (handle, due)).val +
        (schedule.waiting.map (Request.entry timers) : List (TimerHandle × ℕ)) := by
    rw [Finset.erase_val]
    exact Multiset.erase_add_left_pos _ hmem
  have htable : timers handle = some timer := hperiod.table ▸ hlive
  have hcard := hperiod.card_le hprepared
  have harmed : 0 < schedule.armed.card := Finset.card_pos.mpr ⟨_, hmem⟩
  have hroom : schedule.requests.length < configTimerQueueLength := by omega
  unfold Schedule.expire Schedule.call Schedule.request Recurrence.replace
  dsimp only
  rw [timerPlan_again htable, timerPlan_period htable, hdisarm, hpending]
  cases hreload : timer.uxAutoReload with
  | false => exact ⟨⟨rfl, rfl, rfl, hperiod.starts, hperiod.served⟩, rfl, rfl⟩
  | true =>
    cases requested with
    | true =>
      rw [if_pos rfl, if_pos rfl, if_pos hroom, if_pos rfl]
      have hwaiting : Schedule.waiting { schedule with
          armed := schedule.armed.erase (handle, due)
          requests := schedule.requests ++ [.start handle due]
          calls := schedule.calls ++ [⟨handle, due, schedule.now⟩] } =
          schedule.waiting ++ [.start handle due] := (List.append_assoc _ _ _).symm
      refine ⟨⟨rfl, rfl, rfl, fun request hrequest ↦ ?_, hperiod.served⟩, rfl, ?_⟩
      · rw [hwaiting] at hrequest
        rcases List.mem_append.mp hrequest with hold | hnew
        · exact hperiod.starts request hold
        · exact ⟨handle, due, List.mem_singleton.mp hnew⟩
      · unfold Schedule.pending
        rw [hwaiting, coe_entries_append, timerPlan_period htable]
    | false =>
      rw [if_pos rfl, if_neg nofun, if_pos rfl]
      refine ⟨⟨rfl, rfl, rfl, hperiod.starts, hperiod.served⟩, rfl, ?_⟩
      have hfresh : (handle, due + timer.xTimerPeriodInTicks.toNat) ∉
          schedule.armed.erase (handle, due) := by
        intro hagain
        obtain ⟨hne, hold⟩ := Finset.mem_erase.mp hagain
        exact hne (hperiod.armed_unique hprepared hmem _ hold rfl)
      unfold Schedule.pending
      rw [Finset.insert_val_of_notMem hfresh, Multiset.cons_add]
      rfl

/-- A request to start a timer is served that was received at a tick. -/
theorem OnPeriod.serve (hperiod : OnPeriod timers started schedule)
    (hprepared : Prepared timers started) {time received : ℕ}
    (hserving : schedule.serving = some (.start handle time, received)) {timer : Timer}
    (hlive : schedule.timers handle = some timer)
    (hnext : next =
      { schedule.serve received timer (.start handle time) with serving := none }) :
    Unmoved schedule next ∧
      ((next.calls = schedule.calls ∧ next.pending timers = schedule.pending timers) ∨
        ∃ due, (handle, due) ∈ schedule.pending timers ∧ due ≤ schedule.now ∧
          next.calls = schedule.calls ++ [⟨handle, due, schedule.now⟩] ∧
          next.pending timers =
            (timerPlan timers).replace handle due (schedule.pending timers)) := by
  have htable : timers handle = some timer := hperiod.table ▸ hlive
  have hwaiting : schedule.waiting = .start handle time :: schedule.requests := by
    unfold Schedule.waiting
    rw [hserving]
    rfl
  have hreceived : received ≤ schedule.now := hperiod.served _ hserving
  have hstarts : ∀ request ∈ schedule.requests, ∃ handle time, request = .start handle time :=
    fun request hrequest ↦ hperiod.starts request (hwaiting ▸ List.mem_cons_of_mem _ hrequest)
  have hpending : schedule.pending timers = (handle, time + timer.xTimerPeriodInTicks.toNat) ::ₘ
      (schedule.armed.val +
        (schedule.requests.map (Request.entry timers) : List (TimerHandle × ℕ))) := by
    unfold Schedule.pending
    rw [hwaiting, List.map_cons, ← Multiset.cons_coe, Multiset.add_cons,
      ← timerPlan_period htable]
    rfl
  have hfirst : (handle, time + timer.xTimerPeriodInTicks.toNat) ∈ schedule.pending timers := by
    rw [hpending]
    exact Multiset.mem_cons_self _ _
  subst hnext
  unfold Schedule.serve Schedule.call Schedule.request
  dsimp only
  split_ifs with hpassed hreload hroom
  · refine ⟨⟨rfl, rfl, rfl, fun request hrequest ↦ ?_, nofun⟩, .inr
      ⟨_, hfirst, Nat.le_trans hpassed hreceived, rfl, ?_⟩⟩
    · change request ∈ schedule.requests ++ _ at hrequest
      rcases List.mem_append.mp hrequest with hold | hnew
      · exact hstarts request hold
      · exact ⟨_, _, List.mem_singleton.mp hnew⟩
    · unfold Recurrence.replace
      rw [timerPlan_again htable, hreload, if_pos rfl, hpending, Multiset.erase_cons_head]
      exact coe_entries_append _ _ _ _
  · have hcard := hperiod.card_le hprepared
    rw [hserving] at hcard
    exact absurd (Nat.lt_of_lt_of_le (Nat.lt_add_of_pos_left
      (Nat.add_pos_right _ Nat.one_pos)) hcard) hroom
  · refine ⟨⟨rfl, rfl, rfl, hstarts, nofun⟩, .inr
      ⟨_, hfirst, Nat.le_trans hpassed hreceived, rfl, ?_⟩⟩
    unfold Recurrence.replace
    rw [timerPlan_again htable, if_neg hreload, hpending, Multiset.erase_cons_head]
    rfl
  · refine ⟨⟨rfl, rfl, rfl, hstarts, nofun⟩, .inl ⟨rfl, ?_⟩⟩
    have hfresh : (handle, time + timer.xTimerPeriodInTicks.toNat) ∉ schedule.armed :=
      fun hmem ↦ hperiod.not_armed hprepared
        (hwaiting ▸ List.mem_cons_self : Request.start handle time ∈ schedule.waiting) _ hmem rfl
    rw [hpending]
    unfold Schedule.pending
    dsimp only
    rw [Finset.insert_val_of_notMem hfresh, Multiset.cons_add]
    rfl

/-- A request is received. -/
theorem OnPeriod.receive (hperiod : OnPeriod timers started schedule)
    (hprepared : Prepared timers started)
    (hstep : (scheduling timers started).step schedule .receive = some next) :
    Unmoved schedule next ∧ next.calls = schedule.calls ∧
      next.pending timers = schedule.pending timers := by
  unfold scheduling at hstep
  dsimp only at hstep
  cases hserving : schedule.serving with
  | some entry =>
    rw [hserving] at hstep
    exact absurd hstep nofun
  | none =>
    cases hrequests : schedule.requests with
    | nil =>
      rw [hserving, hrequests] at hstep
      exact absurd hstep nofun
    | cons request rest =>
      have hwaiting : schedule.waiting = request :: rest := by
        unfold Schedule.waiting
        rw [hserving, hrequests]
        rfl
      have hmem : request ∈ schedule.waiting := hwaiting ▸ List.mem_cons_self
      obtain ⟨handle, time, rfl⟩ := hperiod.starts request hmem
      have hknown := (hperiod.follows.of_mem (mem_pending_of_waiting hmem)).1
      obtain ⟨timer, hlive, -⟩ := hprepared.positive (Multiset.mem_coe.mp hknown)
      have hdisarm : Schedule.disarm handle schedule.armed = schedule.armed :=
        disarm_eq_self (hperiod.not_armed hprepared hmem)
      have htable : schedule.timers (Request.start handle time).timer = some timer :=
        hperiod.table ▸ hlive
      rw [hserving, hrequests] at hstep
      dsimp only at hstep
      rw [htable] at hstep
      cases hstep
      refine ⟨⟨rfl, rfl, rfl, fun request hrequest ↦ hperiod.starts request ?_, ?_⟩, rfl, ?_⟩
      · rw [hwaiting]
        exact hrequest
      · rintro entry hentry
        cases hentry
        exact Nat.le_refl _
      · change (Schedule.disarm handle schedule.armed).val + _ = schedule.armed.val + _
        rw [hdisarm, hwaiting]
        rfl

/-- **What a step of the unattended schedule can be.** Time passes, or what is pending stays and no
timer is called, or a timer that has expired is called and its entry replaced. -/
theorem unattended_cases (hperiod : OnPeriod timers started schedule)
    (hprepared : Prepared timers started) {event : ScheduleEvent}
    (hunattended : ∀ request, event ≠ .send request)
    (hstep : (scheduling timers started).step schedule event = some next) :
    (∃ ticks, event = .advance ticks ∧ next = { schedule with now := schedule.now + ticks }) ∨
      Unmoved schedule next ∧
        ((next.calls = schedule.calls ∧ next.pending timers = schedule.pending timers) ∨
          ∃ handle due, (handle, due) ∈ schedule.pending timers ∧ due ≤ schedule.now ∧
            next.calls = schedule.calls ++ [⟨handle, due, schedule.now⟩] ∧
            next.pending timers =
              (timerPlan timers).replace handle due (schedule.pending timers)) := by
  cases event with
  | advance ticks =>
    cases hstep
    exact .inl ⟨ticks, rfl, rfl⟩
  | send request => exact absurd rfl (hunattended request)
  | expire handle due requested =>
    change (if _ ∧ _ then _ else _) = some next at hstep
    split_ifs at hstep with hexpires
    obtain ⟨timer, hlive, rfl⟩ := Option.map_eq_some_iff.mp hstep
    obtain ⟨hunmoved, hcalls, hpending⟩ :=
      hperiod.expire hprepared hexpires.1 hlive requested
    exact .inr ⟨hunmoved, .inr ⟨handle, due, Multiset.mem_add.mpr (.inl hexpires.1), hexpires.2,
      hcalls, hpending⟩⟩
  | receive =>
    obtain ⟨hunmoved, hcalls, hpending⟩ := hperiod.receive hprepared hstep
    exact .inr ⟨hunmoved, .inl ⟨hcalls, hpending⟩⟩
  | serve =>
    obtain ⟨⟨request, received⟩, hserving, hserve⟩ := Option.bind_eq_some_iff.mp hstep
    obtain ⟨timer, hlive, hnext⟩ := Option.map_eq_some_iff.mp hserve
    have hmem : request ∈ schedule.waiting := by
      unfold Schedule.waiting
      rw [hserving]
      exact List.mem_cons_self
    obtain ⟨handle, time, rfl⟩ := hperiod.starts request hmem
    obtain ⟨hunmoved, hcases⟩ := hperiod.serve hprepared hserving hlive hnext.symm
    refine .inr ⟨hunmoved, hcases.imp_right ?_⟩
    rintro ⟨due, hfacts⟩
    exact ⟨handle, due, hfacts⟩

/-- Before the scheduler is started every timer is requested to start from tick 0. -/
theorem onPeriod_initial (hprepared : Prepared timers started) :
    OnPeriod timers started (scheduling timers started).initial := by
  have htake : started.take configTimerQueueLength = started :=
    List.take_of_length_le hprepared.room
  have hpending : (scheduling timers started).initial.pending timers =
      (started : Multiset TimerHandle).map fun handle ↦
        (handle, (timerPlan timers).period handle) := by
    change (0 : Multiset (TimerHandle × ℕ)) + _ = _
    rw [Multiset.zero_add, Multiset.map_coe]
    change (((started.take configTimerQueueLength).map (.start · 0)).map
      (Request.entry timers) : Multiset (TimerHandle × ℕ)) = _
    rw [htake, List.map_map]
    refine congrArg _ (List.map_congr_left fun handle _ ↦ ?_)
    exact congrArg (Prod.mk handle) (Nat.zero_add _)
  refine ⟨rfl, fun request hrequest ↦ ?_, nofun, ?_, nofun, rfl⟩
  · obtain ⟨handle, -, rfl⟩ := List.mem_map.mp hrequest
    exact ⟨handle, 0, rfl⟩
  · rw [hpending]
    exact Recurrence.follows_start _ _

/-- A step of the unattended schedule keeps the timers on their periods. -/
theorem OnPeriod.step (hperiod : OnPeriod timers started schedule)
    (hprepared : Prepared timers started) {event : ScheduleEvent}
    (hunattended : ∀ request, event ≠ .send request)
    (hstep : (scheduling timers started).step schedule event = some next) :
    OnPeriod timers started next := by
  rcases unattended_cases hperiod hprepared hunattended hstep with
    ⟨ticks, -, rfl⟩ | ⟨hunmoved, ⟨hcalls, hpending⟩ | ⟨handle, due, hmem, hdue, hcalls, hpending⟩⟩
  · refine ⟨hperiod.table, hperiod.starts, fun entry hentry ↦ ?_, hperiod.follows,
      fun call hcall ↦ ?_, hperiod.touchedFreed⟩
    · exact Nat.le_add_right_of_le (hperiod.served entry hentry)
    · exact ⟨(hperiod.calls call hcall).1, Nat.le_add_right_of_le (hperiod.calls call hcall).2⟩
  · refine ⟨hunmoved.table.trans hperiod.table, hunmoved.starts, hunmoved.served, ?_, ?_,
      hunmoved.touchedFreed.trans hperiod.touchedFreed⟩
    · unfold Schedule.history
      rw [hpending, hcalls]
      exact hperiod.follows
    · rw [hcalls, hunmoved.now]
      exact hperiod.calls
  · refine ⟨hunmoved.table.trans hperiod.table, hunmoved.starts, hunmoved.served, ?_, ?_,
      hunmoved.touchedFreed.trans hperiod.touchedFreed⟩
    · have hhistory : next.history = schedule.history ++ [(handle, due)] := by
        unfold Schedule.history
        rw [hcalls, List.map_append]
        rfl
      rw [hpending, hhistory]
      exact hperiod.follows.occur (Multiset.coe_nodup.mpr hprepared.distinct) hmem
    · rw [hcalls, hunmoved.now]
      intro call hcall
      rcases List.mem_append.mp hcall with hold | hnew
      · exact hperiod.calls call hold
      · rw [List.mem_singleton.mp hnew]
        exact ⟨hdue, Nat.le_refl _⟩

end Unattended

/-! ### The service left to itself -/

/-- No task sends a command. -/
def TimerEvent.Unattended : TimerEvent → Prop
  | .advance _ | .daemon => True
  | .send _ _ _ _ => False

instance : DecidablePred TimerEvent.Unattended
  | .advance _ | .daemon => .isTrue trivial
  | .send _ _ _ _ => .isFalse id

/-- A punctual run without commands. -/
def LeftAlone (service : TimerService) (event : TimerEvent) : Prop :=
  Punctual service event ∧ event.Unattended

instance (service : TimerService) (event : TimerEvent) : Decidable (LeftAlone service event) :=
  inferInstanceAs (Decidable (_ ∧ _))

/-- The callbacks of a timer. -/
def TimerService.callsOf (handle : TimerHandle) (service : TimerService) : List Call :=
  service.calls.filter fun call ↦ call.timer = handle

section Service

variable {driver : ListDriver} {service next : TimerService}
  {timers : TimerHandle → Option Timer} {started : List TimerHandle} {handle : TimerHandle}
  {timer : Timer}

/-- The callbacks of a timer in the history of the schedule. -/
theorem timesOf_history (handle : TimerHandle) (service : TimerService) :
    timesOf handle service.schedule.history = (service.callsOf handle).map Call.due := by
  unfold timesOf Schedule.history TimerService.callsOf
  change ((service.calls.map _).filter _).map _ = _
  rw [List.filter_map, List.map_map]
  rfl

theorem occurrences_history (handle : TimerHandle) (service : TimerService) :
    occurrences handle service.schedule.history = (service.callsOf handle).length := by
  unfold occurrences
  rw [timesOf_history, List.length_map]

/-- The callbacks have not outrun the clock. -/
theorem OnPeriod.past (hperiod : OnPeriod timers started service.schedule) :
    ∀ entry ∈ service.schedule.history, entry.2 ≤ service.ticks := by
  intro entry hentry
  obtain ⟨call, hcall, rfl⟩ := List.mem_map.mp hentry
  exact Nat.le_trans (hperiod.calls call hcall).1 (hperiod.calls call hcall).2

/-- A timer has not been called more often than once in each of its periods. -/
theorem OnPeriod.callsOf_le (hperiod : OnPeriod timers started service.schedule)
    (hlive : timers handle = some timer) :
    (service.callsOf handle).length * timer.xTimerPeriodInTicks.toNat ≤ service.ticks := by
  rw [← occurrences_history, ← timerPlan_period hlive]
  exact hperiod.follows.mul_le hperiod.past

/-- An event of the schedule that is no request. -/
theorem not_send_of_matches {event : TimerEvent} {scheduleEvent : ScheduleEvent}
    (hunattended : event.Unattended) (hmatches : Matches event scheduleEvent) :
    ∀ request, scheduleEvent ≠ .send request := by
  rintro request rfl
  cases hmatches
  exact hunattended

/-- **What a step of the service task can be when no command is sent.** No tick passes, and either
no timer is called and what is pending stays, or one that has expired is called and its entry
replaced. -/
theorem daemon_cases (hprepared : Prepared timers started) (hsound : Sound service)
    (hperiod : OnPeriod timers started service.schedule)
    (hstep : service.prvTimerTask driver = some next) :
    Sound next ∧ OnPeriod timers started next.schedule ∧ next.ticks = service.ticks ∧
      ((next.calls = service.calls ∧
          next.schedule.pending timers = service.schedule.pending timers) ∨
        ∃ handle due, (handle, due) ∈ service.schedule.pending timers ∧ due ≤ service.ticks ∧
          next.calls = service.calls ++ [⟨handle, due, service.ticks⟩] ∧
          next.schedule.pending timers =
            (timerPlan timers).replace handle due (service.schedule.pending timers)) := by
  refine ⟨hsound.prvTimerTask hstep, ?_⟩
  have hrefines : Refines timers started .daemon service next := refines_prvTimerTask hsound hstep
  rcases hrefines with hsame | ⟨scheduleEvent, hmatches, hmove⟩
  · refine ⟨hsame ▸ hperiod, congrArg Schedule.now hsame, .inl ⟨congrArg Schedule.calls hsame, ?_⟩⟩
    rw [hsame]
  · have hdaemon : TimerEvent.Unattended .daemon := trivial
    have hunattended := not_send_of_matches hdaemon hmatches
    refine ⟨hperiod.step hprepared hunattended hmove, ?_⟩
    rcases unattended_cases hperiod hprepared hunattended hmove with
      ⟨ticks, rfl, -⟩ | ⟨hunmoved, hcases⟩
    · cases hmatches
    · exact ⟨hunmoved.now, hcases⟩

/-- The service left to itself keeps the timers on their periods. -/
theorem onPeriod_of_leftAlone (hprepared : Prepared timers started)
    (hreach : (timerService driver timers started).ReachableUnder LeftAlone service) :
    Sound service ∧ OnPeriod timers started service.schedule := by
  have hkept : Sound service ∧ (scheduling timers started).ReachableUnder
      (fun _ scheduleEvent ↦ ∀ request, scheduleEvent ≠ .send request) service.schedule :=
    schedule_of_reachableUnder (fun _ _ _ hallowed ↦ hallowed.1)
      (fun _ _ _ _ hallowed hmatches ↦ not_send_of_matches hallowed.2 hmatches) hreach
  exact ⟨hkept.1, hkept.2.invariant (onPeriod_initial hprepared)
    fun _ _ _ hperiod hunattended hstep ↦ hperiod.step hprepared hunattended hstep⟩

/-- **A timer is called after every period.** Assumes: the timers have been created and started
before the scheduler, and no task sends a command. In every state of a punctual run, the callbacks
of a timer are those of the first, the second and so on up to the last of its periods, in this
order, none of them left out or twice, and one only when the timer does not reload; none comes
early, none is of a timer that has not been started, and the service has touched no timer that was
freed. -/
theorem calls_of_leftAlone (hprepared : Prepared timers started)
    (hreach : (timerService driver timers started).ReachableUnder LeftAlone service) :
    (∀ handle timer, timers handle = some timer →
      (service.callsOf handle).map Call.due = (List.range (service.callsOf handle).length).map
        (fun n ↦ (n + 1) * timer.xTimerPeriodInTicks.toNat) ∧
      (timer.uxAutoReload = false → (service.callsOf handle).length ≤ 1)) ∧
    (∀ call ∈ service.calls, call.timer ∈ started ∧ call.due ≤ call.tick) ∧
    service.touchedFreed = false := by
  obtain ⟨-, hperiod⟩ := onPeriod_of_leftAlone hprepared hreach
  refine ⟨fun handle timer hlive ↦ ⟨?_, fun honce ↦ ?_⟩, fun call hcall ↦ ⟨?_, ?_⟩,
    hperiod.touchedFreed⟩
  · rw [← timesOf_history, ← occurrences_history, hperiod.follows.times handle,
      timerPlan_period hlive]
  · rw [← occurrences_history]
    exact hperiod.follows.once handle ((timerPlan_again hlive).trans honce)
  · exact Multiset.mem_coe.mp
      (hperiod.follows.known (call.timer, call.due) (List.mem_map_of_mem hcall))
  · exact (hperiod.calls call hcall).1

theorem prepared_longTimers : Prepared longTimers [0, 1] := by
  refine ⟨fun handle hhandle ↦ ?_, by decide, by decide⟩
  simp only [List.mem_cons, List.not_mem_nil, or_false] at hhandle
  rcases hhandle with rfl | rfl
  · exact ⟨3000000000, true, _, longTimers_zero, longTimers_zero⟩
  · exact ⟨2000000000, false, _, longTimers_one, longTimers_one⟩

/-- A run of the two timers across a wrap of the tick count. -/
def longRun : List TimerEvent :=
  [List.replicate 10 .daemon, [.advance 2000000000], List.replicate 8 .daemon,
    [.advance 1000000000], List.replicate 8 .daemon, [.advance 3000000002],
    List.replicate 12 .daemon, [.advance 5]].flatten

/-- Across a wrap of the tick count: the first timer has been called twice, the second one once, and
the service sleeps. -/
theorem exists_longTimers_asleep : ∃ service : TimerService,
    (timerService orderedLists longTimers [0, 1]).ReachableUnder LeftAlone service ∧
      service.prvTimerTask orderedLists = none ∧ service.ticks = 6000000007 ∧
      service.callsOf 0 = [⟨0, 3000000000, 3000000000⟩, ⟨0, 6000000000, 6000000002⟩] := by
  have hrun : (((timerService orderedLists longTimers [0, 1]).restrict LeftAlone).run
      (timerService orderedLists longTimers [0, 1]).initial longRun).any (fun service ↦
      (service.prvTimerTask orderedLists).isNone = true ∧ service.ticks = 6000000007 ∧
        service.callsOf 0 = [⟨0, 3000000000, 3000000000⟩, ⟨0, 6000000000, 6000000002⟩]) =
          true := by
    decide +kernel
  obtain ⟨service, hservice, hfinal⟩ := (Option.any_eq_true _ _).mp hrun
  obtain ⟨hstuck, hrest⟩ := of_decide_eq_true hfinal
  exact ⟨service, System.reachableUnder_of_run hservice, Option.isNone_iff_eq_none.mp hstuck, hrest⟩

/-- The calls of a timer across a wrap of the tick count. -/
theorem calls_of_leftAlone_longTimers : ∃ service : TimerService,
    (service.callsOf 0).length = 2 ∧
      (service.callsOf 0).map Call.due = [1 * 3000000000, 2 * 3000000000] ∧
      (service.callsOf 1).length ≤ 1 := by
  obtain ⟨service, hreach, -, -, hcalls⟩ := exists_longTimers_asleep
  have hperiods := (calls_of_leftAlone prepared_longTimers hreach).1
  have hlength : (service.callsOf 0).length = 2 := by rw [hcalls]; rfl
  refine ⟨service, hlength, ?_, (hperiods 1 _ longTimers_one).2 rfl⟩
  rw [(hperiods 0 _ longTimers_zero).1, hlength]
  rfl

/-! ### The sleep of the service task -/

/-- The service task has no step only when it sleeps: it is blocked, no command waits, and its wait
has not ended. -/
theorem asleep_of_stuck (hplaced : WellPlaced service)
    (hstuck : service.prvTimerTask driver = none) :
    service.xTimerQueue = [] ∧ service.received = none ∧
      ∀ item ∈ service.items, service.ticks < item.due ∧
        service.ticks + 1 < service.sampled + tickModulus := by
  have hfacts := hplaced.stage
  have hlists := hplaced.lists
  unfold StageSound at hfacts
  unfold TimerService.prvTimerTask at hstuck
  cases hstage : service.stage with
  | query =>
    rw [hstage] at hstuck
    exact absurd hstuck nofun
  | assess =>
    rw [hstage] at hstuck
    exact absurd hstuck nofun
  | commands =>
    rw [hstage] at hstuck
    exact absurd hstuck nofun
  | expired =>
    rw [hstage] at hstuck hfacts
    obtain ⟨-, -, item, rest, hfirst, -⟩ := hfacts
    have hlive := hlists.live item (hfirst ▸ List.mem_cons_self)
    obtain ⟨timer, htimer⟩ := Option.isSome_iff_exists.mp hlive
    dsimp only at hstuck
    unfold TimerService.prvProcessExpiredTimer at hstuck
    rw [hfirst] at hstuck
    dsimp only at hstuck
    rw [htimer] at hstuck
    exact absurd hstuck nofun
  | switching =>
    rw [hstage] at hstuck
    dsimp only at hstuck
    unfold TimerService.prvSwitchTimerLists at hstuck
    cases hfirst : service.pxCurrentTimerList with
    | nil =>
      rw [hfirst] at hstuck
      exact absurd hstuck nofun
    | cons item rest =>
      have hlive := hlists.live item (hfirst ▸ List.mem_cons_self)
      obtain ⟨timer, htimer⟩ := Option.isSome_iff_exists.mp hlive
      rw [hfirst] at hstuck
      dsimp only at hstuck
      rw [htimer] at hstuck
      exact absurd hstuck nofun
  | execute xTimeNow message =>
    rw [hstage] at hstuck hfacts
    obtain ⟨timer, htimer⟩ := Option.isSome_iff_exists.mp hfacts.2.2.live
    dsimp only at hstuck
    rw [htimer] at hstuck
    exact absurd hstuck nofun
  | blocked since xTicksToWait indefinitely =>
    rw [hstage] at hstuck hfacts
    obtain ⟨-, rfl, hwaits⟩ := hfacts
    dsimp only at hstuck
    split_ifs at hstuck with hwakes
    obtain ⟨hempty, hlonger⟩ := not_or.mp hwakes
    refine ⟨not_not.mp hempty, ?_, fun item hitem ↦ ?_⟩
    · unfold TimerService.received
      rw [hstage]
    · obtain ⟨hlimited, hbefore, -⟩ := hwaits item hitem
      have hbound := toNat_lt_tickModulus xTicksToWait
      have hless := Nat.not_le.mp fun hle ↦ hlonger ⟨hlimited, hle⟩
      exact ⟨Nat.lt_of_lt_of_le hless hbefore, by omega⟩

/-- What is pending while the service task sleeps is armed, and later than the present. -/
theorem pending_of_stuck (hplaced : WellPlaced service)
    (hstuck : service.prvTimerTask driver = none) (timers : TimerHandle → Option Timer) :
    ∀ entry ∈ service.schedule.pending timers, service.ticks < entry.2 := by
  obtain ⟨hqueue, hreceived, hitems⟩ := asleep_of_stuck hplaced hstuck
  intro entry hentry
  have hwaiting : service.schedule.waiting = [] := by
    unfold Schedule.waiting TimerService.schedule
    rw [hqueue, hreceived]
    rfl
  unfold Schedule.pending at hentry
  rw [hwaiting] at hentry
  rcases Multiset.mem_add.mp hentry with harmed | hnone
  · obtain ⟨item, hitem, rfl⟩ := mem_armedItems.mp harmed
    exact (hitems item hitem).1
  · exact absurd hnone (Multiset.notMem_zero _)

/-- While the service task sleeps a timer has been called as often as its periods have passed. -/
theorem OnPeriod.callsOf_eq (hprepared : Prepared timers started) (hplaced : WellPlaced service)
    (hperiod : OnPeriod timers started service.schedule)
    (hstuck : service.prvTimerTask driver = none) (hhandle : handle ∈ started)
    (hlive : timers handle = some timer) :
    (service.callsOf handle).length =
      if timer.uxAutoReload then service.ticks / timer.xTimerPeriodInTicks.toNat
      else min 1 (service.ticks / timer.xTimerPeriodInTicks.toNat) := by
  obtain ⟨other, hother, hpositive⟩ := hprepared.positive hhandle
  obtain rfl := Option.some.inj (hlive.symm.trans hother)
  rw [← timerPlan_period hlive] at hpositive
  have hcount := hperiod.follows.count_eq hperiod.past (pending_of_stuck hplaced hstuck timers)
    (Multiset.mem_coe.mpr hhandle) hpositive
  rw [occurrences_history, timerPlan_again hlive, timerPlan_period hlive] at hcount
  exact hcount

/-- **The service sleeps only when its work is done.** Assumes: as before, and that the service task
has no step, at whichever tick of its sleep. Then every timer that reloads has been called exactly
once for each of its periods that has passed, across all wraps of the tick count, and every other
timer once when its period has passed. -/
theorem calls_of_asleep (hprepared : Prepared timers started)
    (hreach : (timerService driver timers started).ReachableUnder LeftAlone service)
    (hstuck : service.prvTimerTask driver = none) (hhandle : handle ∈ started)
    (hlive : timers handle = some timer) :
    (service.callsOf handle).length =
      if timer.uxAutoReload then service.ticks / timer.xTimerPeriodInTicks.toNat
      else min 1 (service.ticks / timer.xTimerPeriodInTicks.toNat) := by
  obtain ⟨hsound, hperiod⟩ := onPeriod_of_leftAlone hprepared hreach
  exact hperiod.callsOf_eq hprepared hsound.1 hstuck hhandle hlive

/-- At tick 6000000007 the one timer has been called twice and the other once. -/
theorem calls_of_asleep_longTimers : ∃ service : TimerService,
    service.ticks = 6000000007 ∧ (service.callsOf 0).length = 6000000007 / 3000000000 ∧
      (service.callsOf 1).length = min 1 (6000000007 / 2000000000) := by
  obtain ⟨service, hreach, hstuck, hticks, -⟩ := exists_longTimers_asleep
  have hfirst := calls_of_asleep prepared_longTimers hreach hstuck (by decide) longTimers_zero
  have hsecond := calls_of_asleep prepared_longTimers hreach hstuck (by decide) longTimers_one
  rw [hticks] at hfirst hsecond
  exact ⟨service, hticks, hfirst, hsecond⟩

/-! ### The calls at their ticks -/

/-- The service task has the highest priority and no task sends a command: no tick passes while the
service task is ready. -/
def Prompt (driver : ListDriver) (service : TimerService) (event : TimerEvent) : Prop :=
  match event with
  | .advance ticks => ∀ passed < ticks,
      TimerService.prvTimerTask driver { service with ticks := service.ticks + passed } = none
  | .send _ _ _ _ => False
  | .daemon => True

instance (driver : ListDriver) (service : TimerService) (event : TimerEvent) :
    Decidable (Prompt driver service event) :=
  match event with
  | .advance ticks =>
    decidable_of_iff (∀ passed < ticks, (TimerService.prvTimerTask driver
      { service with ticks := service.ticks + passed }).isNone = true)
      (forall₂_congr fun _ _ ↦ Option.isNone_iff_eq_none)
  | .send _ _ _ _ => .isFalse id
  | .daemon => .isTrue trivial

/-- What happens in the schedule then: no tick passes beyond one at which a timer expires. -/
def Schedule.Prompt (timers : TimerHandle → Option Timer) (schedule : Schedule)
    (event : ScheduleEvent) : Prop :=
  match event with
  | .advance ticks =>
    0 < ticks → ∀ entry ∈ schedule.pending timers, schedule.now + ticks ≤ entry.2
  | .send _ => False
  | .expire _ _ _ | .receive | .serve => True

/-- A prompt run is punctual, whatever the length of the sleep. -/
theorem Prompt.punctual {event : TimerEvent} (hprompt : Prompt driver service event)
    (hsound : Sound service) : Punctual service event := by
  cases event with
  | send => exact absurd hprompt id
  | daemon => exact trivial
  | advance ticks =>
    cases ticks with
    | zero => exact hsound.2
    | succ passed =>
      obtain ⟨hqueue, hreceived, hitems⟩ := asleep_of_stuck (hsound.1.advance passed)
        (hprompt passed (Nat.lt_succ_self passed))
      change service.xTimerQueue = [] at hqueue
      change service.received = none at hreceived
      change ∀ item ∈ service.items, service.ticks + passed < item.due ∧
        service.ticks + passed + 1 < service.sampled + tickModulus at hitems
      refine ⟨fun item hitem ↦ ?_, fun message hmessage ↦ ?_, ?_⟩
      · have hless := (hitems item hitem).1
        change service.ticks + (passed + 1) < item.due + tickModulus
        have hmodulus := tickModulus_pos
        omega
      · change message ∈ service.xTimerQueue ++ service.received.toList at hmessage
        rw [hqueue, hreceived] at hmessage
        exact absurd hmessage List.not_mem_nil
      · rintro (hsome | hbusy)
        · obtain ⟨item, hitem⟩ := List.exists_mem_of_ne_nil _ hsome
          exact (hitems item hitem).2
        · exact absurd hreceived hbusy

/-- What a prompt run is in the schedule. -/
theorem Prompt.schedule {event : TimerEvent} {scheduleEvent : ScheduleEvent}
    (hprompt : Prompt driver service event) (hsound : Sound service)
    (hmatches : Matches event scheduleEvent) (timers : TimerHandle → Option Timer) :
    service.schedule.Prompt timers scheduleEvent := by
  cases hmatches with
  | send => exact hprompt
  | expire | receive | serve => exact trivial
  | advance ticks =>
    intro hpositive entry hentry
    obtain ⟨passed, rfl⟩ := Nat.exists_eq_add_one_of_ne_zero (Nat.ne_of_gt hpositive)
    exact pending_of_stuck (hsound.1.advance passed)
      (hprompt passed (Nat.lt_succ_self passed)) timers entry hentry

/-- The schedule of a prompt run: what is pending is not past, and the callbacks came at their
ticks. -/
structure OnTime (timers : TimerHandle → Option Timer) (started : List TimerHandle)
    (schedule : Schedule) : Prop where
  periods : OnPeriod timers started schedule
  ahead : ∀ entry ∈ schedule.pending timers, schedule.now ≤ entry.2
  calls : ∀ call ∈ schedule.calls, call.tick = call.due

/-- A step of a prompt run keeps the schedule on time. -/
theorem OnTime.step {schedule next : Schedule} {event : ScheduleEvent}
    (hprepared : Prepared timers started) (hontime : OnTime timers started schedule)
    (hprompt : schedule.Prompt timers event)
    (hstep : (scheduling timers started).step schedule event = some next) :
    OnTime timers started next := by
  have hunattended : ∀ request, event ≠ .send request := by
    rintro request rfl
    exact hprompt
  refine ⟨hontime.periods.step hprepared hunattended hstep, ?_, ?_⟩
  · rcases unattended_cases hontime.periods hprepared hunattended hstep with
      ⟨ticks, rfl, rfl⟩ | ⟨hunmoved, ⟨-, hpending⟩ | ⟨handle, due, hmem, hdue, -, hpending⟩⟩
    · rcases Nat.eq_zero_or_pos ticks with rfl | hpositive
      · exact hontime.ahead
      · exact hprompt hpositive
    · rw [hpending, hunmoved.now]
      exact hontime.ahead
    · rw [hpending, hunmoved.now]
      intro entry hentry
      unfold Recurrence.replace at hentry
      split_ifs at hentry
      · rcases Multiset.mem_cons.mp hentry with rfl | hold
        · exact Nat.le_add_right_of_le (hontime.ahead _ hmem)
        · exact hontime.ahead entry (Multiset.mem_of_mem_erase hold)
      · exact hontime.ahead entry (Multiset.mem_of_mem_erase hentry)
  · rcases unattended_cases hontime.periods hprepared hunattended hstep with
      ⟨ticks, rfl, rfl⟩ | ⟨-, ⟨hcalls, -⟩ | ⟨handle, due, hmem, hdue, hcalls, -⟩⟩
    · exact hontime.calls
    · rw [hcalls]
      exact hontime.calls
    · rw [hcalls]
      intro call hcall
      rcases List.mem_append.mp hcall with hold | hnew
      · exact hontime.calls call hold
      · rw [List.mem_singleton.mp hnew]
        exact Nat.le_antisymm (hontime.ahead _ hmem) hdue

/-- **Every call comes at its tick.** Assumes: the timers have been created and started before the
scheduler, and no tick passes while the service task is ready. Then a run may be of any length, and
in each of its states the callbacks of a timer are at the first, the second and so on up to the last
of its periods. -/
theorem calls_of_prompt (hprepared : Prepared timers started)
    (hreach : (timerService driver timers started).ReachableUnder (Prompt driver) service)
    (hlive : timers handle = some timer) :
    (service.callsOf handle).map Call.tick = (List.range (service.callsOf handle).length).map
      fun n ↦ (n + 1) * timer.xTimerPeriodInTicks.toNat := by
  obtain ⟨-, hkept⟩ := schedule_of_reachableUnder
    (fun _ _ hsound hprompt ↦ hprompt.punctual hsound)
    (fun _ _ _ hsound hprompt hmatches ↦ hprompt.schedule hsound hmatches timers) hreach
  have hinitial : OnTime timers started (scheduling timers started).initial :=
    ⟨onPeriod_initial hprepared, fun entry _ ↦ Nat.zero_le entry.2, nofun⟩
  have hontime : OnTime timers started service.schedule :=
    hkept.invariant hinitial fun _ _ _ hontime hprompt hstep ↦
      hontime.step hprepared hprompt hstep
  have htimes := hontime.periods.follows.times handle
  rw [timesOf_history, occurrences_history, timerPlan_period hlive] at htimes
  rw [← htimes]
  exact List.map_congr_left fun call hcall ↦ hontime.calls call (List.mem_filter.mp hcall).1

/-- Timers of 3 ticks that reload themselves. -/
def shortTimers : TimerHandle → Option Timer := fun _ ↦ xTimerCreate 3 true

/-- A timer of 3 ticks that reloads itself is called at ticks 3 and 6. -/
theorem calls_of_prompt_short : ∃ service : TimerService,
    (service.callsOf 0).length = 2 ∧ (service.callsOf 0).map Call.tick = [1 * 3, 2 * 3] := by
  have hprepared : Prepared shortTimers [0] :=
    ⟨fun _ _ ↦ ⟨3, true, ⟨3, true⟩, by decide, rfl⟩, by decide, by decide⟩
  have hrun : (((timerService orderedLists shortTimers [0]).restrict (Prompt orderedLists)).run
      (timerService orderedLists shortTimers [0]).initial
      [List.replicate 8 .daemon, [.advance 3], List.replicate 8 .daemon, [.advance 1, .advance 2],
        List.replicate 8 .daemon].flatten).any (fun service ↦
      (service.callsOf 0).length = 2) = true := by
    decide +kernel
  obtain ⟨service, hservice, hfinal⟩ := (Option.any_eq_true _ _).mp hrun
  have hlength : (service.callsOf 0).length = 2 := of_decide_eq_true hfinal
  have hlive : shortTimers 0 = some ⟨3, true⟩ := by decide
  have hticks := calls_of_prompt hprepared (System.reachableUnder_of_run hservice) hlive
  rw [hlength] at hticks
  exact ⟨service, hlength, hticks⟩

end Service

end Apes.SoftwareTimers
