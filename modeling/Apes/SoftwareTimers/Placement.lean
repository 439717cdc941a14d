import Apes.Library.WrapClock
import Apes.SoftwareTimers.Timers

/-!
# Where the timer service keeps its timers

The service compares 32-bit ticks. `WellPlaced` says what its lists and its commands stand for all
the same: the item value of a timer is its expiry time in ticks without wrapping, seen through the
tick count; each list is in the order of the expiry times and holds those of one epoch, the current
list those of the epoch in which the service has last read the tick count and the overflow list
those of the next one; and no timer is in the lists twice.

That holds in a run as long as it is `Timely`: no timer and no command is as late as a full round of
the tick count, and the service reads the tick count once in a round unless it has no timers.
`Punctual` restricts the passing of time to that. `prvInsertTimerInActiveList_cases` is the
placement of one timer, from `placement_eq`, and `wellPlaced_of_reachable` the result for all runs.
`WellPlaced` includes what the service waits for when it blocks: never longer than the next expiry,
and for ever only when it has no timers.
-/

set_option autoImplicit false
set_option relaxedAutoImplicit false

namespace Apes.SoftwareTimers

open Library

/-! ### Ticks -/

/-- The number of values of the tick count. -/
def tickModulus : ℕ := UInt32.size

theorem tickModulus_pos : 0 < tickModulus := by decide

/-- What the tick count shows of a tick. -/
theorem toNat_ofNat_tick (time : ℕ) : (UInt32.ofNat time).toNat = shown tickModulus time :=
  UInt32.toNat_ofNat'

/-- A period is less than the modulus. -/
theorem toNat_lt_tickModulus (period : UInt32) : period.toNat < tickModulus := period.toNat_lt

/-- The tick a period later. -/
theorem ofNat_add_period (time : ℕ) (period : UInt32) :
    UInt32.ofNat (time + period.toNat) = UInt32.ofNat time + period := by
  rw [UInt32.ofNat_add, UInt32.ofNat_toNat]

/-- In one epoch the tick count orders the ticks. -/
theorem ofNat_le_ofNat_iff {first second : ℕ}
    (hsame : epoch tickModulus first = epoch tickModulus second) :
    UInt32.ofNat first ≤ UInt32.ofNat second ↔ first ≤ second := by
  rw [UInt32.le_iff_toNat_le, toNat_ofNat_tick, toNat_ofNat_tick, shown_le_iff hsame]

/-- A tick count that is less than before has wrapped. Assumes: less than a round has passed. -/
theorem ofNat_lt_ofNat_iff {last now : ℕ} (hle : last ≤ now) (hrecent : now < last + tickModulus) :
    UInt32.ofNat now < UInt32.ofNat last ↔
      epoch tickModulus now = epoch tickModulus last + 1 := by
  rw [UInt32.lt_iff_toNat_lt, toNat_ofNat_tick, toNat_ofNat_tick,
    shown_lt_iff tickModulus_pos hle hrecent]

/-- A tick count that is less than before is not that of the first epoch. -/
theorem epoch_pos_of_ofNat_lt {last now : ℕ} (hle : last ≤ now)
    (hless : UInt32.ofNat now < UInt32.ofNat last) : 0 < epoch tickModulus now := by
  rw [UInt32.lt_iff_toNat_lt, toNat_ofNat_tick, toNat_ofNat_tick] at hless
  have hnow := epoch_add_shown tickModulus now
  have hlast := epoch_add_shown tickModulus last
  have hlastLt := shown_lt tickModulus_pos last
  by_contra hzero
  rw [Nat.eq_zero_of_not_pos hzero, Nat.mul_zero, Nat.zero_add] at hnow
  omega

/-! ### Lists -/

/-- A list of the service: it is in order, its items expire in one epoch, and their values are what
the tick count shows of their expiry times. -/
structure Filed (round : ℕ) (items : List TimerListItem) : Prop where
  ascending : Ascending items
  epoch : ∀ item ∈ items, epoch tickModulus item.due = round
  value : ∀ item ∈ items, item.xItemValue = UInt32.ofNat item.due

section Filed

variable {round : ℕ} {item : TimerListItem} {items rest : List TimerListItem}

theorem filed_nil (round : ℕ) : Filed round [] :=
  ⟨.nil, fun _ hitem ↦ absurd hitem List.not_mem_nil, fun _ hitem ↦ absurd hitem List.not_mem_nil⟩

/-- A part of a list in its order. -/
theorem Filed.sublist (hfiled : Filed round items) (hpart : rest.Sublist items) :
    Filed round rest :=
  ⟨List.Pairwise.sublist hpart hfiled.ascending,
    fun entry hentry ↦ hfiled.epoch entry (hpart.subset hentry),
    fun entry hentry ↦ hfiled.value entry (hpart.subset hentry)⟩

/-- The insertion of an item of the epoch. -/
theorem Filed.insert (hfiled : Filed round items) (driver : ListDriver)
    (hepoch : Library.epoch tickModulus item.due = round)
    (hvalue : item.xItemValue = UInt32.ofNat item.due) :
    Filed round (driver.vListInsert items item) := by
  have hmem : ∀ entry ∈ driver.vListInsert items item, entry = item ∨ entry ∈ items :=
    fun entry hentry ↦ List.mem_cons.mp ((driver.inserted items item).mem_iff.mp hentry)
  refine ⟨driver.ascending items item hfiled.ascending, fun entry hentry ↦ ?_,
    fun entry hentry ↦ ?_⟩
  · rcases hmem entry hentry with rfl | hold
    · exact hepoch
    · exact hfiled.epoch entry hold
  · rcases hmem entry hentry with rfl | hold
    · exact hvalue
    · exact hfiled.value entry hold

/-- The first item is the first to expire. -/
theorem Filed.head_due_le (hfiled : Filed round (item :: rest)) :
    ∀ entry ∈ item :: rest, item.due ≤ entry.due := by
  intro entry hentry
  rcases List.mem_cons.mp hentry with rfl | hrest
  · exact Nat.le_refl _
  · have horder := List.rel_of_pairwise_cons hfiled.ascending hrest
    rw [hfiled.value item List.mem_cons_self, hfiled.value entry hentry] at horder
    have hsame := (hfiled.epoch item List.mem_cons_self).trans (hfiled.epoch entry hentry).symm
    exact (ofNat_le_ofNat_iff hsame).mp horder

end Filed

/-- The two lists: the current one of an epoch and the overflow one of the next, no timer twice, and
none that has been freed. -/
structure FiledLists (round : ℕ) (timers : TimerHandle → Option Timer)
    (near far : List TimerListItem) : Prop where
  current : Filed round near
  overflow : Filed (round + 1) far
  owners : ((near ++ far).map TimerListItem.pvOwner).Nodup
  live : ∀ item ∈ near ++ far, (timers item.pvOwner).isSome = true

section FiledLists

variable {round : ℕ} {timers : TimerHandle → Option Timer} {item : TimerListItem}
  {near far rest : List TimerListItem}

/-- Lists without timers are those of any epoch. -/
theorem FiledLists.of_round {other : ℕ} (hlists : FiledLists round timers near far)
    (hround : near ++ far ≠ [] → round = other) : FiledLists other timers near far := by
  by_cases hempty : near ++ far = []
  · obtain ⟨rfl, rfl⟩ := List.append_eq_nil_iff.mp hempty
    exact ⟨filed_nil other, filed_nil (other + 1), hlists.owners, hlists.live⟩
  · exact hround hempty ▸ hlists

/-- The lists without the first timer of the current one, which is not in the rest of them. -/
theorem FiledLists.tail (hlists : FiledLists round timers (item :: rest) far) :
    FiledLists round timers rest far ∧ ∀ entry ∈ rest ++ far, entry.pvOwner ≠ item.pvOwner := by
  have howners := hlists.owners
  rw [List.cons_append, List.map_cons, List.nodup_cons] at howners
  refine ⟨⟨hlists.current.sublist (List.sublist_cons_self item rest), hlists.overflow, howners.2,
    fun entry hentry ↦ hlists.live entry (List.mem_cons_of_mem item hentry)⟩, ?_⟩
  intro entry hentry hsame
  exact howners.1 (hsame ▸ List.mem_map_of_mem hentry)

/-- The lists without a timer. -/
theorem FiledLists.remove (hlists : FiledLists round timers near far) (handle : TimerHandle) :
    FiledLists round timers (uxListRemove handle near) (uxListRemove handle far) := by
  have hpart : (uxListRemove handle near ++ uxListRemove handle far).Sublist (near ++ far) :=
    List.filter_sublist.append List.filter_sublist
  exact ⟨hlists.current.sublist List.filter_sublist, hlists.overflow.sublist List.filter_sublist,
    (hpart.map _).nodup hlists.owners, fun entry hentry ↦ hlists.live entry (hpart.subset hentry)⟩

/-- A timer that has been removed is in neither list. -/
theorem owner_ne_of_mem_remove {handle : TimerHandle} {entry : TimerListItem}
    (hentry : entry ∈ uxListRemove handle near ++ uxListRemove handle far) :
    entry.pvOwner ≠ handle := by
  unfold uxListRemove at hentry
  rw [← List.filter_append] at hentry
  exact of_decide_eq_true (List.mem_filter.mp hentry).2

/-- The lists are swapped when the current one is empty. -/
theorem FiledLists.swap (hlists : FiledLists round timers [] far) :
    FiledLists (round + 1) timers far [] := by
  refine ⟨hlists.overflow, filed_nil _, ?_, ?_⟩
  · rw [List.append_nil]
    exact hlists.owners
  · rw [List.append_nil]
    exact hlists.live

/-- The insertion of an item into the current list. -/
theorem FiledLists.insertCurrent (hlists : FiledLists round timers near far) (driver : ListDriver)
    (hepoch : Library.epoch tickModulus item.due = round)
    (hvalue : item.xItemValue = UInt32.ofNat item.due)
    (hlive : (timers item.pvOwner).isSome = true)
    (hfresh : ∀ entry ∈ near ++ far, entry.pvOwner ≠ item.pvOwner) :
    FiledLists round timers (driver.vListInsert near item) far := by
  have hperm : (driver.vListInsert near item ++ far).Perm (item :: (near ++ far)) :=
    (driver.inserted near item).append_right far
  refine ⟨hlists.current.insert driver hepoch hvalue, hlists.overflow, ?_, fun entry hentry ↦ ?_⟩
  · rw [(hperm.map _).nodup_iff, List.map_cons, List.nodup_cons]
    refine ⟨fun hmem ↦ ?_, hlists.owners⟩
    obtain ⟨entry, hentry, hsame⟩ := List.mem_map.mp hmem
    exact hfresh entry hentry hsame
  · rcases List.mem_cons.mp (hperm.mem_iff.mp hentry) with rfl | hold
    · exact hlive
    · exact hlists.live entry hold

/-- The insertion of an item into the overflow list. -/
theorem FiledLists.insertOverflow (hlists : FiledLists round timers near far) (driver : ListDriver)
    (hepoch : Library.epoch tickModulus item.due = round + 1)
    (hvalue : item.xItemValue = UInt32.ofNat item.due)
    (hlive : (timers item.pvOwner).isSome = true)
    (hfresh : ∀ entry ∈ near ++ far, entry.pvOwner ≠ item.pvOwner) :
    FiledLists round timers near (driver.vListInsert far item) := by
  have hperm : (near ++ driver.vListInsert far item).Perm (item :: (near ++ far)) :=
    ((driver.inserted far item).append_left near).trans List.perm_middle
  refine ⟨hlists.current, hlists.overflow.insert driver hepoch hvalue, ?_, fun entry hentry ↦ ?_⟩
  · rw [(hperm.map _).nodup_iff, List.map_cons, List.nodup_cons]
    refine ⟨fun hmem ↦ ?_, hlists.owners⟩
    obtain ⟨entry, hentry, hsame⟩ := List.mem_map.mp hmem
    exact hfresh entry hentry hsame
  · rcases List.mem_cons.mp (hperm.mem_iff.mp hentry) with rfl | hold
    · exact hlive
    · exact hlists.live entry hold

end FiledLists

namespace TimerService

/-- The active timers. -/
def items (service : TimerService) : List TimerListItem :=
  service.pxCurrentTimerList ++ service.pxOverflowTimerList

/-- The command that has been received and not yet executed. -/
def received (service : TimerService) : Option DaemonTaskMessage :=
  match service.stage with
  | .switching _ received => received
  | .execute _ message => some message
  | .query | .assess _ _ | .expired _ _ | .blocked _ _ _ | .commands => none

/-- The epoch of the current list: while the lists are being switched, it is the last one. -/
def round (service : TimerService) : ℕ :=
  match service.stage with
  | .switching _ _ => epoch tickModulus service.sampled - 1
  | .query | .assess _ _ | .expired _ _ | .blocked _ _ _ | .commands | .execute _ _ =>
    epoch tickModulus service.sampled

end TimerService

/-! ### What is well placed -/

/-- The value of a command that counts from a tick is what the tick count shows of it. -/
def DaemonTaskMessage.Stamped (message : DaemonTaskMessage) (time : ℕ) : Prop :=
  message.xMessageID.CountsFrom →
    message.xMessageValue = UInt32.ofNat message.stamp ∧ message.stamp ≤ time

/-- What holds of a received command: its timer is live and in no list, and it does not count from a
tick after the one at which the service has read the tick count. -/
structure Taken (sampled : ℕ) (timers : TimerHandle → Option Timer) (items : List TimerListItem)
    (message : DaemonTaskMessage) : Prop where
  stamped : message.Stamped sampled
  live : (timers message.pxTimer).isSome = true
  removed : ∀ item ∈ items, item.pvOwner ≠ message.pxTimer

/-- What holds at each stage. -/
def StageSound (service : TimerService) : Prop :=
  match service.stage with
  | .query | .commands => service.xLastTime = UInt32.ofNat service.sampled
  | .assess xNextExpireTime xListWasEmpty =>
    service.xLastTime = UInt32.ofNat service.sampled ∧
      (xNextExpireTime, xListWasEmpty) = service.prvGetNextExpireTime
  | .expired xNextExpireTime xTimeNow =>
    service.xLastTime = UInt32.ofNat service.sampled ∧
      xTimeNow = UInt32.ofNat service.sampled ∧
      ∃ item rest, service.pxCurrentTimerList = item :: rest ∧
        item.xItemValue = xNextExpireTime ∧ item.due ≤ service.sampled
  | .switching xTimeNow received =>
    xTimeNow = UInt32.ofNat service.sampled ∧ 0 < epoch tickModulus service.sampled ∧
      ∀ message ∈ received, Taken service.sampled service.timers service.items message
  | .blocked since xTicksToWait indefinitely =>
    service.xLastTime = UInt32.ofNat service.sampled ∧ since = service.sampled ∧
      ∀ item ∈ service.items,
        indefinitely = false ∧ since + xTicksToWait.toNat ≤ item.due ∧ since < item.due
  | .execute xTimeNow message =>
    service.xLastTime = UInt32.ofNat service.sampled ∧
      xTimeNow = UInt32.ofNat service.sampled ∧
      Taken service.sampled service.timers service.items message

/-- The lists, the commands and the stage stand for what they are meant to. -/
structure WellPlaced (service : TimerService) : Prop where
  lists : FiledLists service.round service.timers service.pxCurrentTimerList
    service.pxOverflowTimerList
  queue : ∀ message ∈ service.xTimerQueue, message.Stamped service.ticks
  sampled : service.sampled ≤ service.ticks
  stage : StageSound service

/-- No timer and no command is as late as a round of the tick count, and the service has read the
tick count less than a round ago, unless it has neither timers nor a command received. -/
structure Timely (service : TimerService) : Prop where
  items : ∀ item ∈ service.items, service.ticks < item.due + tickModulus
  commands : ∀ message ∈ service.xTimerQueue ++ service.received.toList,
    message.xMessageID.CountsFrom → service.ticks < message.stamp + tickModulus
  sampled : service.items ≠ [] ∨ service.received ≠ none →
    service.ticks < service.sampled + tickModulus

/-- The service is given the processor at least once in a round of the tick count: time does not
pass any further, and no sender has waited for that long. -/
def Punctual (service : TimerService) (event : TimerEvent) : Prop :=
  match event with
  | .advance ticks => Timely { service with ticks := service.ticks + ticks }
  | .send xCommandID _ _ waited => xCommandID.CountsFrom → waited < tickModulus
  | .daemon => True

instance (service : TimerService) : Decidable (Timely service) :=
  decidable_of_iff
    ((∀ item ∈ service.items, service.ticks < item.due + tickModulus) ∧
      (∀ message ∈ service.xTimerQueue ++ service.received.toList,
        message.xMessageID.CountsFrom → service.ticks < message.stamp + tickModulus) ∧
      (service.items ≠ [] ∨ service.received ≠ none →
        service.ticks < service.sampled + tickModulus))
    ⟨fun htimely ↦ ⟨htimely.1, htimely.2.1, htimely.2.2⟩,
      fun htimely ↦ ⟨htimely.items, htimely.commands, htimely.sampled⟩⟩

instance (service : TimerService) (event : TimerEvent) : Decidable (Punctual service event) :=
  match event with
  | .advance _ => inferInstanceAs (Decidable (Timely _))
  | .send _ _ _ _ => inferInstanceAs (Decidable (_ → _))
  | .daemon => .isTrue trivial

/-! ### The placement of a timer -/

/-- The decision of `prvInsertTimerInActiveList` is `placement` of what is shown. -/
theorem prvInsertTimerInActiveList_eq (driver : ListDriver) (item : TimerListItem)
    (xTimerPeriodInTicks xTimeNow xCommandTime : UInt32) (service : TimerService) :
    service.prvInsertTimerInActiveList driver item xTimerPeriodInTicks xTimeNow xCommandTime =
      match placement tickModulus xTimerPeriodInTicks.toNat item.xItemValue.toNat xTimeNow.toNat
        xCommandTime.toNat with
      | .elapsed => (true, service)
      | .thisEpoch => (false, { service with
          pxCurrentTimerList := driver.vListInsert service.pxCurrentTimerList item })
      | .nextEpoch => (false, { service with
          pxOverflowTimerList := driver.vListInsert service.pxOverflowTimerList item }) := by
  have hsub : (tickModulus - xCommandTime.toNat + xTimeNow.toNat) % tickModulus =
      (xTimeNow - xCommandTime).toNat := (UInt32.toNat_sub xTimeNow xCommandTime).symm
  unfold TimerService.prvInsertTimerInActiveList placement
  rw [hsub]
  simp only [UInt32.le_iff_toNat_le, UInt32.lt_iff_toNat_lt, ge_iff_le]
  split_ifs <;> rfl

/-- Where a timer is put. Assumes: the item expires a period after the command, which counts from a
tick not after the present and less than a round ago. -/
theorem prvInsertTimerInActiveList_cases (driver : ListDriver) (item : TimerListItem)
    {period : UInt32} {now command : ℕ} (hvalue : item.xItemValue = UInt32.ofNat item.due)
    (hdue : item.due = command + period.toNat) (hle : command ≤ now)
    (hrecent : now < command + tickModulus) (service : TimerService) :
    (service.prvInsertTimerInActiveList driver item period (UInt32.ofNat now)
        (UInt32.ofNat command) = (true, service) ∧ item.due ≤ now) ∨
    (service.prvInsertTimerInActiveList driver item period (UInt32.ofNat now)
        (UInt32.ofNat command) = (false, { service with
          pxCurrentTimerList := driver.vListInsert service.pxCurrentTimerList item }) ∧
      now < item.due ∧ epoch tickModulus item.due = epoch tickModulus now) ∨
    (service.prvInsertTimerInActiveList driver item period (UInt32.ofNat now)
        (UInt32.ofNat command) = (false, { service with
          pxOverflowTimerList := driver.vListInsert service.pxOverflowTimerList item }) ∧
      now < item.due ∧ epoch tickModulus item.due = epoch tickModulus now + 1) := by
  have hplacement := placement_eq (toNat_lt_tickModulus period) hle hrecent
  rw [← hdue, ← toNat_ofNat_tick, ← toNat_ofNat_tick, ← toNat_ofNat_tick, ← hvalue] at hplacement
  rw [prvInsertTimerInActiveList_eq]
  rcases hplacement with ⟨heq, hpassed⟩ | ⟨heq, hahead⟩ | ⟨heq, hahead⟩
  · exact .inl ⟨by rw [heq], hpassed⟩
  · exact .inr (.inl ⟨by rw [heq], hahead⟩)
  · exact .inr (.inr ⟨by rw [heq], hahead⟩)

/-- An item has been inserted: in the current list when it expires in its epoch, and in the overflow
list when it expires in the next one. -/
def Inserted (driver : ListDriver) (item : TimerListItem) (service next : TimerService) : Prop :=
  next = { service with
      pxCurrentTimerList := driver.vListInsert service.pxCurrentTimerList item } ∧
    epoch tickModulus item.due = service.round ∨
  next = { service with
      pxOverflowTimerList := driver.vListInsert service.pxOverflowTimerList item } ∧
    epoch tickModulus item.due = service.round + 1

/-- A timer of the current list has been called and its next expiry arranged for: there is none, a
command is sent to start it again from the tick at which it has expired, or it is inserted again. -/
inductive Reloaded (driver : ListDriver) (item : TimerListItem) (timer : Timer)
    (removed : TimerService) : TimerService → Prop
  | oneShot (hreload : timer.uxAutoReload = false) : Reloaded driver item timer removed removed
  | command (hreload : timer.uxAutoReload = true) :
    Reloaded driver item timer removed (removed.xTimerGenericCommand
      ⟨.startDontTrace, UInt32.ofNat item.due, item.pvOwner, item.due⟩).2
  | direct (hreload : timer.uxAutoReload = true) {inserted : TimerService}
      (hinserted : Inserted driver
        ⟨UInt32.ofNat (item.due + timer.xTimerPeriodInTicks.toNat), item.pvOwner,
          item.due + timer.xTimerPeriodInTicks.toNat⟩ removed inserted) :
    Reloaded driver item timer removed inserted

/-- The first timer of the current list has expired, is taken from it and called. -/
structure Fired (driver : ListDriver) (stage : DaemonStage) (item : TimerListItem)
    (rest : List TimerListItem) (timer : Timer) (service next : TimerService) : Prop where
  first : service.pxCurrentTimerList = item :: rest
  live : service.timers item.pvOwner = some timer
  expired : item.due ≤ service.sampled
  effect : ∃ reloaded, Reloaded driver item timer { service with pxCurrentTimerList := rest }
    reloaded ∧ next = { reloaded.callback item.pvOwner item.due with stage := stage }

/-- What a step of `prvProcessExpiredTimer` does. -/
theorem prvProcessExpiredTimer_cases {driver : ListDriver} {service next : TimerService}
    {xNextExpireTime xTimeNow : UInt32} (hsound : WellPlaced service)
    (hstage : service.stage = .expired xNextExpireTime xTimeNow)
    (hstep : service.prvTimerTask driver = some next) :
    ∃ item rest timer, Fired driver .commands item rest timer service next := by
  have hfacts := hsound.stage
  unfold StageSound at hfacts
  rw [hstage] at hfacts
  obtain ⟨-, rfl, item, rest, hfirst, rfl, hexpired⟩ := hfacts
  have hvalue := hsound.lists.current.value item (hfirst ▸ List.mem_cons_self)
  have hround : service.round = epoch tickModulus service.sampled := by
    unfold TimerService.round
    rw [hstage]
  have hepoch : epoch tickModulus item.due = epoch tickModulus service.sampled :=
    hround ▸ hsound.lists.current.epoch item (hfirst ▸ List.mem_cons_self)
  unfold TimerService.prvTimerTask at hstep
  rw [hstage] at hstep
  obtain ⟨processed, hprocessed, rfl⟩ := Option.map_eq_some_iff.mp hstep
  unfold TimerService.prvProcessExpiredTimer at hprocessed
  rw [hfirst] at hprocessed
  obtain ⟨timer, hlive, rfl⟩ := Option.map_eq_some_iff.mp hprocessed
  refine ⟨item, rest, timer, hfirst, hlive, hexpired, ?_⟩
  cases hreload : timer.uxAutoReload with
  | false => exact ⟨_, .oneShot hreload, rfl⟩
  | true =>
    dsimp only
    rw [if_pos rfl, hvalue, ← ofNat_add_period]
    have hcases := prvInsertTimerInActiveList_cases driver
      ⟨UInt32.ofNat (item.due + timer.xTimerPeriodInTicks.toNat), item.pvOwner,
        item.due + timer.xTimerPeriodInTicks.toNat⟩ rfl rfl hexpired
      (lt_add_of_epoch_eq tickModulus_pos hepoch)
      { service with pxCurrentTimerList := rest }
    rcases hcases with ⟨heq, -⟩ | ⟨heq, -, hplace⟩ | ⟨heq, -, hplace⟩
    · rw [heq]
      exact ⟨_, .command hreload, rfl⟩
    · rw [heq]
      exact ⟨_, .direct hreload (.inl ⟨rfl, hplace.trans hround.symm⟩), rfl⟩
    · rw [heq]
      exact ⟨_, .direct hreload (.inr ⟨rfl, hplace.trans (congrArg (· + 1) hround.symm)⟩), rfl⟩

/-- The reload time of a timer that is taken while the lists are switched is in the epoch of its
expiry time when it shows more. -/
theorem epoch_reload_of_lt {due : ℕ} {period : UInt32}
    (hmore : UInt32.ofNat due < UInt32.ofNat due + period) :
    epoch tickModulus (due + period.toNat) = epoch tickModulus due := by
  rw [← ofNat_add_period, UInt32.lt_iff_toNat_lt, toNat_ofNat_tick, toNat_ofNat_tick] at hmore
  have hperiod := toNat_lt_tickModulus period
  rcases epoch_cases tickModulus_pos (Nat.le_add_right due period.toNat)
    (Nat.add_lt_add_left hperiod due) with hsame | hnext
  · exact hsame
  · have hless := (shown_lt_iff tickModulus_pos (Nat.le_add_right due period.toNat)
      (Nat.add_lt_add_left hperiod due)).mpr hnext
    exact absurd hmore (Nat.lt_asymm hless)

/-- What a round of `prvSwitchTimerLists` does: the lists are swapped, or a timer is called. -/
theorem prvSwitchTimerLists_cases {driver : ListDriver} {service next : TimerService}
    {xTimeNow : UInt32} {received : Option DaemonTaskMessage} (hsound : WellPlaced service)
    (hstage : service.stage = .switching xTimeNow received)
    (hstep : service.prvTimerTask driver = some next) :
    (service.pxCurrentTimerList = [] ∧ next = { service with
        pxCurrentTimerList := service.pxOverflowTimerList
        pxOverflowTimerList := []
        xLastTime := xTimeNow
        stage := received.elim .commands fun message ↦ .execute xTimeNow message }) ∨
      ∃ item rest timer, Fired driver service.stage item rest timer service next := by
  have hfacts := hsound.stage
  unfold StageSound at hfacts
  rw [hstage] at hfacts
  obtain ⟨-, hpositive, -⟩ := hfacts
  have hround : service.round = epoch tickModulus service.sampled - 1 := by
    unfold TimerService.round
    rw [hstage]
  unfold TimerService.prvTimerTask at hstep
  rw [hstage] at hstep
  change service.prvSwitchTimerLists driver xTimeNow received = some next at hstep
  unfold TimerService.prvSwitchTimerLists at hstep
  cases hfirst : service.pxCurrentTimerList with
  | nil =>
    rw [hfirst] at hstep
    left
    refine ⟨rfl, (Option.some.inj hstep).symm.trans ?_⟩
    cases received with
    | none => rfl
    | some message => rfl
  | cons item rest =>
    right
    rw [hfirst] at hstep
    obtain ⟨timer, hlive, rfl⟩ := Option.map_eq_some_iff.mp hstep
    have hepoch := hsound.lists.current.epoch item (hfirst ▸ List.mem_cons_self)
    have hvalue := hsound.lists.current.value item (hfirst ▸ List.mem_cons_self)
    have hbefore : epoch tickModulus item.due < epoch tickModulus service.sampled := by omega
    have hexpired := lt_of_epoch_lt hbefore
    refine ⟨item, rest, timer, hfirst, hlive, Nat.le_of_lt hexpired, ?_⟩
    dsimp only
    cases hreload : timer.uxAutoReload with
    | false => exact ⟨_, .oneShot hreload, rfl⟩
    | true =>
      rw [if_pos rfl, hvalue]
      split_ifs with hmore
      · have hplace := (epoch_reload_of_lt hmore).trans hepoch
        rw [← ofNat_add_period]
        exact ⟨_, .direct hreload (.inl ⟨rfl, hplace⟩), rfl⟩
      · refine ⟨_, .command hreload, ?_⟩
        unfold TimerService.xTimerGenericCommand TimerService.callback
        dsimp only
        split_ifs <;> rfl

/-- What the receipt of a command does: there is none, its timer has been freed, or the timer is
taken from the lists; the lists are to be switched before the command is executed when the tick
count has become less. -/
theorem receiveCommand_cases (service : TimerService) :
    (service.xTimerQueue = [] ∧ service.receiveCommand = { service with stage := .query }) ∨
    (∃ message rest, service.xTimerQueue = message :: rest ∧
      service.timers message.pxTimer = none ∧
      service.receiveCommand = { service with xTimerQueue := rest, touchedFreed := true }) ∨
    ∃ message rest timer, service.xTimerQueue = message :: rest ∧
      service.timers message.pxTimer = some timer ∧
      ∃ xLastTime stage, service.receiveCommand = { service with
          xTimerQueue := rest
          pxCurrentTimerList := uxListRemove message.pxTimer service.pxCurrentTimerList
          pxOverflowTimerList := uxListRemove message.pxTimer service.pxOverflowTimerList
          sampled := service.ticks
          xLastTime := xLastTime
          stage := stage } ∧
        (UInt32.ofNat service.ticks < service.xLastTime ∧
            stage = .switching (UInt32.ofNat service.ticks) (some message) ∨
          ¬ UInt32.ofNat service.ticks < service.xLastTime ∧
            stage = .execute (UInt32.ofNat service.ticks) message ∧
            xLastTime = UInt32.ofNat service.ticks) := by
  obtain ⟨timers, current, overflow, queue, xLastTime, ticks, stage, sampled, calls, touched⟩ :=
    service
  cases queue with
  | nil => exact .inl ⟨rfl, rfl⟩
  | cons message rest =>
    right
    unfold TimerService.receiveCommand
    dsimp only
    cases hlive : timers message.pxTimer with
    | none => exact .inl ⟨message, rest, rfl, hlive, rfl⟩
    | some timer =>
      refine .inr ⟨message, rest, timer, rfl, hlive, ?_⟩
      dsimp only [TimerService.xTaskGetTickCount]
      by_cases hwrapped : UInt32.ofNat ticks < xLastTime
      · exact ⟨xLastTime, _, if_pos hwrapped, .inl ⟨hwrapped, rfl⟩⟩
      · exact ⟨_, _, if_neg hwrapped, .inr ⟨hwrapped, rfl, rfl⟩⟩

/-- A command has been executed. The start of a timer puts it into a list, or calls it at once when
its period has passed since the tick that the command counts from, and then sends the next start of
a timer that reloads itself. -/
inductive Executed (driver : ListDriver) (message : DaemonTaskMessage) (timer : Timer)
    (service : TimerService) : TimerService → Prop
  | started (hcommand : message.xMessageID.CountsFrom)
    (hahead : service.sampled < message.stamp + timer.xTimerPeriodInTicks.toNat)
    {inserted : TimerService}
    (hinserted : Inserted driver
      ⟨UInt32.ofNat (message.stamp + timer.xTimerPeriodInTicks.toNat), message.pxTimer,
        message.stamp + timer.xTimerPeriodInTicks.toNat⟩ service inserted) :
    Executed driver message timer service inserted
  | elapsed (hcommand : message.xMessageID.CountsFrom)
    (hpassed : message.stamp + timer.xTimerPeriodInTicks.toNat ≤ service.sampled)
    (hreload : timer.uxAutoReload = false) :
    Executed driver message timer service (service.callback message.pxTimer
      (message.stamp + timer.xTimerPeriodInTicks.toNat))
  | again (hcommand : message.xMessageID.CountsFrom)
    (hpassed : message.stamp + timer.xTimerPeriodInTicks.toNat ≤ service.sampled)
    (hreload : timer.uxAutoReload = true) :
    Executed driver message timer service ((service.callback message.pxTimer
      (message.stamp + timer.xTimerPeriodInTicks.toNat)).xTimerGenericCommand
        ⟨.startDontTrace, UInt32.ofNat (message.stamp + timer.xTimerPeriodInTicks.toNat),
          message.pxTimer, message.stamp + timer.xTimerPeriodInTicks.toNat⟩).2
  | stopped (hcommand : message.xMessageID ∈ [.stop, .stopFromISR]) :
    Executed driver message timer service service
  | changed (hcommand : message.xMessageID ∈ [.changePeriod, .changePeriodFromISR])
    (hperiod : message.xMessageValue ≠ 0) {inserted : TimerService}
    (hinserted : Inserted driver
      ⟨UInt32.ofNat (service.sampled + message.xMessageValue.toNat), message.pxTimer,
        service.sampled + message.xMessageValue.toNat⟩
      { service with
        timers := Function.update service.timers message.pxTimer
          (some { timer with xTimerPeriodInTicks := message.xMessageValue }) } inserted) :
    Executed driver message timer service inserted
  | cleared (hcommand : message.xMessageID ∈ [.changePeriod, .changePeriodFromISR])
    (hperiod : message.xMessageValue = 0) :
    Executed driver message timer service { service with
      timers := Function.update service.timers message.pxTimer
        (some { timer with xTimerPeriodInTicks := message.xMessageValue }) }
  | deleted (hcommand : message.xMessageID = .delete) :
    Executed driver message timer service { service with
      timers := Function.update service.timers message.pxTimer none }

section Execute

variable {driver : ListDriver} {service next : TimerService} {message : DaemonTaskMessage}
  {timer : Timer}

/-- The execution of a command that counts from a tick. -/
theorem executed_start (hcommand : message.xMessageID.CountsFrom)
    (hstamped : message.Stamped service.sampled)
    (hrecent : service.sampled < message.stamp + tickModulus)
    (hround : service.round = epoch tickModulus service.sampled) :
    Executed driver message timer service
      (service.executeCommand driver (UInt32.ofNat service.sampled) message timer) := by
  obtain ⟨hvalue, hle⟩ := hstamped hcommand
  obtain ⟨command, value, handle, stamp⟩ := message
  dsimp only at hvalue hle hrecent
  subst hvalue
  have hcases := prvInsertTimerInActiveList_cases driver
    ⟨UInt32.ofNat (stamp + timer.xTimerPeriodInTicks.toNat), handle,
      stamp + timer.xTimerPeriodInTicks.toNat⟩ rfl rfl hle hrecent service
  have hexecute : service.executeCommand driver (UInt32.ofNat service.sampled)
      ⟨command, UInt32.ofNat stamp, handle, stamp⟩ timer =
      service.executeCommand driver (UInt32.ofNat service.sampled)
        ⟨.start, UInt32.ofNat stamp, handle, stamp⟩ timer := by
    simp only [CommandId.CountsFrom, List.mem_cons, List.not_mem_nil, or_false] at hcommand
    rcases hcommand with rfl | rfl | rfl | rfl | rfl <;> rfl
  rw [hexecute]
  unfold TimerService.executeCommand
  dsimp only
  rw [← ofNat_add_period]
  rcases hcases with ⟨heq, hpassed⟩ | ⟨heq, hahead, hplace⟩ | ⟨heq, hahead, hplace⟩
  · rw [heq, if_pos rfl]
    cases hreload : timer.uxAutoReload with
    | false => exact .elapsed hcommand hpassed hreload
    | true => exact .again hcommand hpassed hreload
  · rw [heq]
    exact .started hcommand hahead (.inl ⟨rfl, hplace.trans hround.symm⟩)
  · rw [heq]
    exact .started hcommand hahead (.inr ⟨rfl, hplace.trans (congrArg (· + 1) hround.symm)⟩)

/-- The execution of a new period. -/
theorem executed_changePeriod
    (hcommand : message.xMessageID ∈ [.changePeriod, .changePeriodFromISR])
    (hround : service.round = epoch tickModulus service.sampled) :
    Executed driver message timer service
      (service.executeCommand driver (UInt32.ofNat service.sampled) message timer) := by
  have hexecute : service.executeCommand driver (UInt32.ofNat service.sampled) message timer =
      (TimerService.prvInsertTimerInActiveList driver
        ⟨UInt32.ofNat (service.sampled + message.xMessageValue.toNat), message.pxTimer,
          service.sampled + message.xMessageValue.toNat⟩
        message.xMessageValue (UInt32.ofNat service.sampled) (UInt32.ofNat service.sampled)
        { service with
          timers := Function.update service.timers message.pxTimer
            (some { timer with xTimerPeriodInTicks := message.xMessageValue }) }).2 := by
    unfold TimerService.executeCommand
    rw [ofNat_add_period]
    simp only [List.mem_cons, List.not_mem_nil, or_false] at hcommand
    rcases hcommand with hcommand | hcommand <;> rw [hcommand]
  have hcases := prvInsertTimerInActiveList_cases driver
    ⟨UInt32.ofNat (service.sampled + message.xMessageValue.toNat), message.pxTimer,
      service.sampled + message.xMessageValue.toNat⟩ rfl rfl (Nat.le_refl service.sampled)
    (Nat.lt_add_of_pos_right tickModulus_pos)
    { service with
      timers := Function.update service.timers message.pxTimer
        (some { timer with xTimerPeriodInTicks := message.xMessageValue }) }
  rw [hexecute]
  rcases hcases with ⟨heq, hpassed⟩ | ⟨heq, hahead, hplace⟩ | ⟨heq, hahead, hplace⟩
  · rw [heq]
    refine .cleared hcommand (UInt32.toNat_inj.mp ?_)
    dsimp only at hpassed
    rw [UInt32.toNat_zero]
    omega
  · rw [heq]
    refine .changed hcommand (fun hzero ↦ ?_) (.inl ⟨rfl, hplace.trans hround.symm⟩)
    rw [hzero] at hahead
    exact absurd hahead (Nat.lt_irrefl _)
  · rw [heq]
    refine .changed hcommand (fun hzero ↦ ?_)
      (.inr ⟨rfl, hplace.trans (congrArg (· + 1) hround.symm)⟩)
    rw [hzero] at hahead
    exact absurd hahead (Nat.lt_irrefl _)

/-- What the execution of a command does. Assumes: the command counts from less than a round ago. -/
theorem executeCommand_cases {xTimeNow : UInt32} (hsound : WellPlaced service)
    (hstage : service.stage = .execute xTimeNow message)
    (hrecent : message.xMessageID.CountsFrom → service.sampled < message.stamp + tickModulus)
    (hstep : service.prvTimerTask driver = some next) :
    ∃ timer executed, service.timers message.pxTimer = some timer ∧
      Executed driver message timer service executed ∧
      next = { executed with stage := .commands } := by
  have hfacts := hsound.stage
  unfold StageSound at hfacts
  rw [hstage] at hfacts
  obtain ⟨-, rfl, htaken⟩ := hfacts
  have hround : service.round = epoch tickModulus service.sampled := by
    unfold TimerService.round
    rw [hstage]
  unfold TimerService.prvTimerTask at hstep
  rw [hstage] at hstep
  obtain ⟨timer, hlive, rfl⟩ := Option.map_eq_some_iff.mp hstep
  refine ⟨timer, _, hlive, ?_, rfl⟩
  by_cases hcounts : message.xMessageID.CountsFrom
  · exact executed_start hcounts htaken.stamped (hrecent hcounts) hround
  · by_cases hchange : message.xMessageID ∈ [.changePeriod, .changePeriodFromISR]
    · exact executed_changePeriod hchange hround
    · unfold TimerService.executeCommand
      cases hcommand : message.xMessageID with
      | stop => exact .stopped (by rw [hcommand]; decide)
      | stopFromISR => exact .stopped (by rw [hcommand]; decide)
      | delete => exact .deleted hcommand
      | startDontTrace | start | reset | startFromISR | resetFromISR =>
        exact absurd (by rw [hcommand]; decide) hcounts
      | changePeriod | changePeriodFromISR => exact absurd (by rw [hcommand]; decide) hchange

end Execute

end Apes.SoftwareTimers
