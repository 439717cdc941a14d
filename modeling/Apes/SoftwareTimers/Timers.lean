import Apes.Library.TransitionSystem

/-!
# The software timers of the board, `timers.c`

The timer service task keeps the active timers in two lists in the order of their expiry times, one
for the expiry times that the tick count reaches before it wraps and one for those after, and takes
commands from a queue. `timerService` is its step function. What the service task reads between two
looks at the tick count is one step: a tick interrupt or the command of another task can come
between any two steps. The loops of the source are steps too, one for each timer that
`prvSwitchTimerLists` takes from the current list, and one for the receipt of a command and one for
its effect.

The list functions of the kernel are not part of the repository: `ListDriver` is what its
documentation says of `vListInsert`, and nothing else of it is used. Reading the tick count is
`xTaskGetTickCount`, the low 32 bits of the number of ticks since the scheduler was started. The
configuration leaves `configASSERT` undefined and `INCLUDE_xTimerPendFunctionCall` at its default of
0, so a reload command that the queue refuses is dropped, and there are no pended function calls.
The callbacks of the board give a semaphore and send no commands: a callback is an entry of `calls`.

`due`, `stamp`, `sampled`, `calls` and `touchedFreed` are history, which no step of the service
reads: the tick at which a timer is to expire and the one that a command counts from, without
wrapping; the last tick at which the service has read the tick count; the callbacks called; and
whether a command has been received for a timer that was deleted before.
-/

set_option autoImplicit false
set_option relaxedAutoImplicit false

namespace Apes.SoftwareTimers

open Library

/-! ### Timers, lists and commands -/

/-- The address of a timer. -/
abbrev TimerHandle := ℕ

/-- `Timer_t`, without its list item. -/
structure Timer where
  xTimerPeriodInTicks : UInt32
  uxAutoReload : Bool
  deriving DecidableEq

/-- `xTimerCreate`, when the heap has room: a period of 0 is refused. -/
def xTimerCreate (xTimerPeriodInTicks : UInt32) (uxAutoReload : Bool) : Option Timer :=
  if xTimerPeriodInTicks = 0 then none else some ⟨xTimerPeriodInTicks, uxAutoReload⟩

/-- The list item of an active timer. -/
structure TimerListItem where
  xItemValue : UInt32
  pvOwner : TimerHandle
  due : ℕ
  deriving DecidableEq

/-- `xMessageID` of a timer command. -/
inductive CommandId
  | startDontTrace
  | start
  | reset
  | stop
  | changePeriod
  | delete
  | startFromISR
  | resetFromISR
  | stopFromISR
  | changePeriodFromISR
  deriving DecidableEq

/-- `DaemonTaskMessage_t`. -/
structure DaemonTaskMessage where
  xMessageID : CommandId
  xMessageValue : UInt32
  pxTimer : TimerHandle
  stamp : ℕ
  deriving DecidableEq

/-- The list is in the order of its item values. -/
def Ascending (items : List TimerListItem) : Prop :=
  items.Pairwise fun first second ↦ first.xItemValue ≤ second.xItemValue

/-- `vListInsert` of the kernel: the item is inserted in the order of the item values. -/
structure ListDriver where
  vListInsert (items : List TimerListItem) (item : TimerListItem) : List TimerListItem
  inserted (items : List TimerListItem) (item : TimerListItem) :
    (vListInsert items item).Perm (item :: items)
  ascending (items : List TimerListItem) (item : TimerListItem) :
    Ascending items → Ascending (vListInsert items item)

/-- The insertion behind all items whose value is not greater. -/
def insertBehind (item : TimerListItem) : List TimerListItem → List TimerListItem
  | [] => [item]
  | other :: rest =>
    if other.xItemValue ≤ item.xItemValue then other :: insertBehind item rest
    else item :: other :: rest

/-- The item is inserted. -/
theorem insertBehind_perm (item : TimerListItem) (items : List TimerListItem) :
    (insertBehind item items).Perm (item :: items) := by
  induction items with
  | nil => exact .refl _
  | cons other rest ih =>
    unfold insertBehind
    split_ifs
    · exact (ih.cons other).trans (.swap item other rest)
    · exact .refl _

/-- The order is kept. -/
theorem ascending_insertBehind (item : TimerListItem) {items : List TimerListItem}
    (hascending : Ascending items) : Ascending (insertBehind item items) := by
  induction items with
  | nil => exact List.pairwise_singleton _ _
  | cons other rest ih =>
    obtain ⟨hother, hrest⟩ := List.pairwise_cons.mp hascending
    unfold insertBehind
    split_ifs with hbehind
    · refine List.pairwise_cons.mpr ⟨fun entry hentry ↦ ?_, ih hrest⟩
      rcases List.mem_cons.mp ((insertBehind_perm item rest).mem_iff.mp hentry) with rfl | hmem
      · exact hbehind
      · exact hother entry hmem
    · have hbefore : item.xItemValue ≤ other.xItemValue :=
        UInt32.le_of_lt (UInt32.not_le.mp hbehind)
      refine List.pairwise_cons.mpr ⟨fun entry hentry ↦ ?_, hascending⟩
      rcases List.mem_cons.mp hentry with rfl | hmem
      · exact hbefore
      · exact UInt32.le_trans hbefore (hother entry hmem)

/-- The insertion of the kernel's lists. -/
def orderedLists : ListDriver where
  vListInsert items item := insertBehind item items
  inserted items item := insertBehind_perm item items
  ascending _ item hascending := ascending_insertBehind item hascending

/-- `uxListRemove`, from whichever list the timer is in. -/
def uxListRemove (pxTimer : TimerHandle) (items : List TimerListItem) : List TimerListItem :=
  items.filter fun item ↦ item.pvOwner ≠ pxTimer

/-! ### The state -/

/-- What the service task does next: it asks for the next expiry time, it assesses it, it has found
a timer expired, it takes the timers left from the current list because the tick count has wrapped
(before it goes on to the commands or with a command it has received), it is blocked since a tick,
it takes a command, or it executes one. -/
inductive DaemonStage
  | query
  | assess (xNextExpireTime : UInt32) (xListWasEmpty : Bool)
  | expired (xNextExpireTime xTimeNow : UInt32)
  | switching (xTimeNow : UInt32) (received : Option DaemonTaskMessage)
  | blocked (since : ℕ) (xTicksToWait : UInt32) (indefinitely : Bool)
  | commands
  | execute (xTimeNow : UInt32) (received : DaemonTaskMessage)
  deriving DecidableEq

/-- A callback: the timer, the tick at which it was to expire, and the tick of the call. -/
structure Call where
  timer : TimerHandle
  due : ℕ
  tick : ℕ
  deriving DecidableEq

/-- The timers, the two lists, the queue of commands, the tick at which the service has last read
the tick count, and the number of ticks. -/
structure TimerService where
  timers : TimerHandle → Option Timer
  pxCurrentTimerList : List TimerListItem
  pxOverflowTimerList : List TimerListItem
  xTimerQueue : List DaemonTaskMessage
  xLastTime : UInt32
  ticks : ℕ
  stage : DaemonStage
  sampled : ℕ
  calls : List Call
  touchedFreed : Bool

/-- Ticks pass, another task or an interrupt sends a command, having waited for room in the queue
since it has read the tick count, or the service task takes a step. -/
inductive TimerEvent
  | advance (ticks : ℕ)
  | send (xCommandID : CommandId) (pxTimer : TimerHandle) (xOptionalValue : UInt32) (waited : ℕ)
  | daemon
  deriving DecidableEq

/-- `configTIMER_QUEUE_LENGTH`. -/
def configTimerQueueLength : ℕ := 10

namespace TimerService

variable (driver : ListDriver)

/-- `xTaskGetTickCount`. -/
def xTaskGetTickCount (service : TimerService) : UInt32 := UInt32.ofNat service.ticks

/-- `xTimerGenericCommand` without a time to wait: whether the queue has taken the command, and the
service after it. -/
def xTimerGenericCommand (message : DaemonTaskMessage) (service : TimerService) :
    Bool × TimerService :=
  if service.xTimerQueue.length < configTimerQueueLength then
    (true, { service with xTimerQueue := service.xTimerQueue ++ [message] })
  else (false, service)

/-- `pxCallbackFunction`. -/
def callback (pxTimer : TimerHandle) (due : ℕ) (service : TimerService) : TimerService :=
  { service with calls := service.calls ++ [⟨pxTimer, due, service.ticks⟩] }

/-- `prvGetNextExpireTime`: the time, and whether the list was empty. -/
def prvGetNextExpireTime (service : TimerService) : UInt32 × Bool :=
  match service.pxCurrentTimerList with
  | [] => (0, true)
  | item :: _ => (item.xItemValue, false)

/-- `prvInsertTimerInActiveList`: whether the timer is to be processed now, and the service after
it. -/
def prvInsertTimerInActiveList (item : TimerListItem) (xTimerPeriodInTicks xTimeNow xCommandTime :
    UInt32) (service : TimerService) : Bool × TimerService :=
  if item.xItemValue ≤ xTimeNow then
    if xTimeNow - xCommandTime ≥ xTimerPeriodInTicks then (true, service)
    else
      (false, { service with
        pxOverflowTimerList := driver.vListInsert service.pxOverflowTimerList item })
  else if xTimeNow < xCommandTime ∧ item.xItemValue ≥ xCommandTime then (true, service)
  else
    (false, { service with
      pxCurrentTimerList := driver.vListInsert service.pxCurrentTimerList item })

/-- `prvProcessExpiredTimer`; there is none when the list is empty or the timer has been freed. -/
def prvProcessExpiredTimer (xNextExpireTime xTimeNow : UInt32) (service : TimerService) :
    Option TimerService :=
  match service.pxCurrentTimerList with
  | [] => none
  | item :: rest => (service.timers item.pvOwner).map fun timer ↦
    let removed := { service with pxCurrentTimerList := rest }
    let reloaded :=
      if timer.uxAutoReload then
        let next : TimerListItem :=
          ⟨xNextExpireTime + timer.xTimerPeriodInTicks, item.pvOwner,
            item.due + timer.xTimerPeriodInTicks.toNat⟩
        let (processNow, inserted) := prvInsertTimerInActiveList driver next
          timer.xTimerPeriodInTicks xTimeNow xNextExpireTime removed
        if processNow then
          (xTimerGenericCommand ⟨.startDontTrace, xNextExpireTime, item.pvOwner, item.due⟩
            inserted).2
        else inserted
      else removed
    callback item.pvOwner item.due reloaded

/-- A round of the loop of `prvSwitchTimerLists`, with the time that `prvSampleTimeNow` has read;
the lists are swapped when the current one is empty. -/
def prvSwitchTimerLists (xTimeNow : UInt32) (received : Option DaemonTaskMessage)
    (service : TimerService) : Option TimerService :=
  match service.pxCurrentTimerList with
  | [] => some { service with
      pxCurrentTimerList := service.pxOverflowTimerList
      pxOverflowTimerList := []
      xLastTime := xTimeNow
      stage :=
        match received with
        | none => .commands
        | some message => .execute xTimeNow message }
  | item :: rest => (service.timers item.pvOwner).map fun timer ↦
    let called := callback item.pvOwner item.due { service with pxCurrentTimerList := rest }
    if timer.uxAutoReload then
      let xReloadTime := item.xItemValue + timer.xTimerPeriodInTicks
      if xReloadTime > item.xItemValue then
        { called with
          pxCurrentTimerList := driver.vListInsert rest
            ⟨xReloadTime, item.pvOwner, item.due + timer.xTimerPeriodInTicks.toNat⟩ }
      else
        (xTimerGenericCommand ⟨.startDontTrace, item.xItemValue, item.pvOwner, item.due⟩ called).2
    else called

/-- `prvProcessTimerOrBlockTask`, up to what it has found out from the tick count. -/
def prvProcessTimerOrBlockTask (xNextExpireTime : UInt32) (xListWasEmpty : Bool)
    (service : TimerService) : TimerService :=
  let xTimeNow := service.xTaskGetTickCount
  if xTimeNow < service.xLastTime then
    { service with sampled := service.ticks, stage := .switching xTimeNow none }
  else
    { service with
      xLastTime := xTimeNow
      sampled := service.ticks
      stage :=
        if xListWasEmpty = false ∧ xNextExpireTime ≤ xTimeNow then
          .expired xNextExpireTime xTimeNow
        else
          .blocked service.ticks (xNextExpireTime - xTimeNow)
            (if xListWasEmpty then service.pxOverflowTimerList.isEmpty else false) }

/-- The receipt of a command in `prvProcessReceivedCommands`: its timer is taken from its list and
the tick count is read. -/
def receiveCommand (service : TimerService) : TimerService :=
  match service.xTimerQueue with
  | [] => { service with stage := .query }
  | message :: rest =>
    match service.timers message.pxTimer with
    | none => { service with xTimerQueue := rest, touchedFreed := true }
    | some _ =>
      let xTimeNow := service.xTaskGetTickCount
      let removed := { service with
        xTimerQueue := rest
        pxCurrentTimerList := uxListRemove message.pxTimer service.pxCurrentTimerList
        pxOverflowTimerList := uxListRemove message.pxTimer service.pxOverflowTimerList
        sampled := service.ticks }
      if xTimeNow < service.xLastTime then
        { removed with stage := .switching xTimeNow (some message) }
      else { removed with xLastTime := xTimeNow, stage := .execute xTimeNow message }

/-- The effect of a command in `prvProcessReceivedCommands`. -/
def executeCommand (xTimeNow : UInt32) (message : DaemonTaskMessage) (timer : Timer)
    (service : TimerService) : TimerService :=
  match message.xMessageID with
  | .start | .startFromISR | .reset | .resetFromISR | .startDontTrace =>
    let next : TimerListItem :=
      ⟨message.xMessageValue + timer.xTimerPeriodInTicks, message.pxTimer,
        message.stamp + timer.xTimerPeriodInTicks.toNat⟩
    let (processNow, inserted) := prvInsertTimerInActiveList driver next timer.xTimerPeriodInTicks
      xTimeNow message.xMessageValue service
    if processNow then
      let called := callback message.pxTimer next.due inserted
      if timer.uxAutoReload then
        (xTimerGenericCommand ⟨.startDontTrace, next.xItemValue, message.pxTimer, next.due⟩
          called).2
      else called
    else inserted
  | .stop | .stopFromISR => service
  | .changePeriod | .changePeriodFromISR =>
    (prvInsertTimerInActiveList driver
      ⟨xTimeNow + message.xMessageValue, message.pxTimer,
        service.sampled + message.xMessageValue.toNat⟩
      message.xMessageValue xTimeNow xTimeNow
      { service with
        timers := Function.update service.timers message.pxTimer
          (some { timer with xTimerPeriodInTicks := message.xMessageValue }) }).2
  | .delete => { service with timers := Function.update service.timers message.pxTimer none }

/-- A step of `prvTimerTask`; there is none while the task is blocked and neither a command nor the
end of its wait has come. -/
def prvTimerTask (service : TimerService) : Option TimerService :=
  match service.stage with
  | .query => some { service with
      stage := .assess service.prvGetNextExpireTime.1 service.prvGetNextExpireTime.2 }
  | .assess xNextExpireTime xListWasEmpty =>
    some (service.prvProcessTimerOrBlockTask xNextExpireTime xListWasEmpty)
  | .expired xNextExpireTime xTimeNow =>
    (prvProcessExpiredTimer driver xNextExpireTime xTimeNow service).map fun processed ↦
      { processed with stage := .commands }
  | .switching xTimeNow received => prvSwitchTimerLists driver xTimeNow received service
  | .blocked since xTicksToWait indefinitely =>
    if service.xTimerQueue ≠ [] ∨ indefinitely = false ∧ since + xTicksToWait.toNat ≤ service.ticks
    then some { service with stage := .commands }
    else none
  | .commands => some service.receiveCommand
  | .execute xTimeNow message => (service.timers message.pxTimer).map fun timer ↦
      { executeCommand driver xTimeNow message timer service with stage := .commands }

end TimerService

/-- Whether the value of a command is the time it counts from. -/
def CommandId.CountsFrom (command : CommandId) : Prop :=
  command ∈ [.startDontTrace, .start, .reset, .startFromISR, .resetFromISR]

instance : DecidablePred CommandId.CountsFrom :=
  fun command ↦ inferInstanceAs (Decidable (command ∈ _))

/-- The command that a task or an interrupt sends: the start and the reset of a timer count from the
tick count as the sender has read it, before it waited for room in the queue. -/
def sentMessage (xCommandID : CommandId) (pxTimer : TimerHandle) (xOptionalValue : UInt32)
    (waited ticks : ℕ) : DaemonTaskMessage :=
  if xCommandID.CountsFrom then
    ⟨xCommandID, UInt32.ofNat (ticks - waited), pxTimer, ticks - waited⟩
  else ⟨xCommandID, xOptionalValue, pxTimer, ticks - waited⟩

/-- `xTimerStart` before the scheduler is started: the tick count is 0. -/
def xTimerStart (pxTimer : TimerHandle) (service : TimerService) : Bool × TimerService :=
  service.xTimerGenericCommand (sentMessage .start pxTimer 0 0 service.ticks)

/-- The service after `xTimerCreateTimerTask`. -/
def xTimerCreateTimerTask (timers : TimerHandle → Option Timer) : TimerService where
  timers := timers
  pxCurrentTimerList := []
  pxOverflowTimerList := []
  xTimerQueue := []
  xLastTime := 0
  ticks := 0
  stage := .query
  sampled := 0
  calls := []
  touchedFreed := false

/-- The timers created and started before the scheduler, in the order of their starts, and then the
timer service. A command is sent when the queue has room for it; only the service itself sends
`tmrCOMMAND_START_DONT_TRACE`. -/
def timerService (driver : ListDriver) (timers : TimerHandle → Option Timer)
    (started : List TimerHandle) : System TimerService TimerEvent where
  initial := started.foldl (fun service pxTimer ↦ (xTimerStart pxTimer service).2)
    (xTimerCreateTimerTask timers)
  step service
    | .advance ticks => some { service with ticks := service.ticks + ticks }
    | .send xCommandID pxTimer xOptionalValue waited =>
      if xCommandID ≠ .startDontTrace ∧ waited ≤ service.ticks ∧
          service.xTimerQueue.length < configTimerQueueLength then
        some (service.xTimerGenericCommand
          (sentMessage xCommandID pxTimer xOptionalValue waited service.ticks)).2
      else none
    | .daemon => service.prvTimerTask driver

end Apes.SoftwareTimers
