import Apes.Firmware.Led
import Apes.SoftwareTimers.Periods

/-!
# The whole board, `main.c`

The board of `Board.lean` takes the callbacks of its two timers as they come. Here they come from
the timer service: `main` creates a timer of 1000 ms and one of 100 ms, both reload themselves, and
starts them before the scheduler; no task sends the service a command. A step of the service runs
the callback of the timer that it calls. The tick count that the tasks stamp their records with is
that of the service.

`Clocked` is what holds of the service in every punctual run (`ServedInTime`): it keeps its timers
on their periods. `Linked` ties board and service together in the punctual runs of less than 13
years (`Lasting`): the LED pipeline is sound, and the callbacks that the board has seen are the
calls that the service has made. `toggles_of_reachable` and `toggles_of_keepsUp` are what follows
for the LEDs in ticks of the clock: never more than one toggle in 100 ms, and exactly one when the
LED task keeps up.
-/

set_option autoImplicit false
set_option relaxedAutoImplicit false

namespace Apes.Firmware

open Library SoftwareTimers

/-! ### The program -/

/-- `configTICK_RATE_HZ`. -/
def configTickRateHz : ℕ := 1000

/-- `pdMS_TO_TICKS` of the kernel. -/
def pdMsToTicks (xTimeInMs : ℕ) : UInt32 := UInt32.ofNat (xTimeInMs * configTickRateHz / 1000)

/-- `xTempTimer`. -/
def xTempTimer : TimerHandle := 0

/-- `xLEDTimer`. -/
def xLEDTimer : TimerHandle := 1

/-- The timers that `main` creates. -/
def boardTimers (pxTimer : TimerHandle) : Option Timer :=
  if pxTimer = xTempTimer then xTimerCreate (pdMsToTicks 1000) true
  else if pxTimer = xLEDTimer then xTimerCreate (pdMsToTicks 100) true
  else none

/-- The board and its timer service, and the traffic of the temperature queue, which no step reads:
the records that the logger has received and those that were dropped. -/
structure Program where
  board : Board
  service : TimerService
  tempReceived : List TempLog
  tempDropped : List TempLog

/-- Ticks pass, the timer service takes a step, or a task takes one, on the reading that the sensor
gives. -/
inductive ProgramEvent
  | advance (ticks : ℕ)
  | timers
  | led
  | temp (reading : Reading)
  | logger
  | alert

/-- The callback of a timer. -/
def pxCallbackFunction (pxTimer : TimerHandle) (board : Board) : Board :=
  if pxTimer = xTempTimer then board.vTempTimerCallBack
  else if pxTimer = xLEDTimer then board.vLEDTimerCallBack
  else board

/-- The temperature record that the next step of the logger receives. -/
def nextTempReceived (state : State) : List TempLog :=
  match state.logger, state.xQueueTemp with
  | .receiveTemp, log :: _ => [log]
  | _, _ => []

/-- The temperature record that the next step of the temperature task leaves out of the queue. -/
def nextTempDropped (board : Board) : List TempLog :=
  match board.tempStage, board.sending with
  | .send, some log =>
    if (xQueueSend board.xQueueTemp log).length = board.xQueueTemp.length then [log] else []
  | _, _ => []

/-- A step of the timer service, with the callbacks of the timers that it calls. -/
def Program.timers (driver : ListDriver) (main : Program) : Option Program :=
  (main.service.prvTimerTask driver).map fun service ↦
    { main with
      service := service
      board := (service.calls.drop main.service.calls.length).foldl
        (fun board call ↦ pxCallbackFunction call.timer board) main.board }

/-- The program after the start of the scheduler. `pdTicksToMs` is `pdTICKS_TO_MS` of the kernel. -/
def program (pins : PinDriver) (lists : ListDriver) (pdTicksToMs : UInt32 → UInt32) :
    System Program ProgramEvent where
  initial :=
    ⟨(firmware pins).initial, (timerService lists boardTimers [xTempTimer, xLEDTimer]).initial, [],
      []⟩
  step main
    | .advance ticks =>
      some { main with service := { main.service with ticks := main.service.ticks + ticks } }
    | .timers => main.timers lists
    | .led =>
      (main.board.ledTaskCode pins (pdTicksToMs main.service.xTaskGetTickCount)).map fun board ↦
        { main with board := board }
    | .temp reading =>
      (main.board.tempTaskCode reading (pdTicksToMs main.service.xTaskGetTickCount)).map
        fun board ↦
          { main with
            board := board
            tempDropped := main.tempDropped ++ nextTempDropped main.board }
    | .logger => some { main with
        board := main.board.loggerTaskCode
        tempReceived := main.tempReceived ++ nextTempReceived main.board.toState }
    | .alert => main.board.alertTaskCode.map fun board ↦ { main with board := board }

/-- A punctual run: the timer service is given the processor at least once in a round of the tick
count. The tasks may be as late as they like. -/
def ServedInTime (main : Program) (event : ProgramEvent) : Prop :=
  match event with
  | .advance ticks => Punctual main.service (.advance ticks)
  | .timers | .led | .temp _ | .logger | .alert => True

instance (main : Program) (event : ProgramEvent) : Decidable (ServedInTime main event) :=
  match event with
  | .advance ticks => inferInstanceAs (Decidable (Punctual main.service (.advance ticks)))
  | .timers | .led | .temp _ | .logger | .alert => .isTrue trivial

/-- A punctual run of less than 13 years: the LED task has no chance to count past 32 bits. -/
def Lasting (main : Program) (event : ProgramEvent) : Prop :=
  match event with
  | .advance ticks => Punctual main.service (.advance ticks) ∧
      main.service.ticks + ticks < 100 * (2 ^ 32 - 1)
  | .timers | .led | .temp _ | .logger | .alert => True

instance (main : Program) (event : ProgramEvent) : Decidable (Lasting main event) :=
  match event with
  | .advance _ => inferInstanceAs (Decidable (_ ∧ _))
  | .timers | .led | .temp _ | .logger | .alert => .isTrue trivial

/-- Such a run is punctual. -/
theorem Lasting.servedInTime {main : Program} {event : ProgramEvent}
    (hlasting : Lasting main event) : ServedInTime main event := by
  cases event with
  | advance ticks => exact hlasting.1
  | _ => trivial

/-! ### The board and its timer service -/

theorem boardTimers_temp : boardTimers xTempTimer = some ⟨1000, true⟩ := by decide +kernel

theorem boardTimers_led : boardTimers xLEDTimer = some ⟨100, true⟩ := by decide +kernel

/-- `main` has created both timers, and the queue has room for their starts. -/
theorem prepared_board : Prepared boardTimers [xTempTimer, xLEDTimer] := by
  refine ⟨fun handle hhandle ↦ ?_, by decide, by decide⟩
  simp only [List.mem_cons, List.not_mem_nil, or_false] at hhandle
  rcases hhandle with rfl | rfl
  · exact ⟨1000, true, _, by decide +kernel, boardTimers_temp⟩
  · exact ⟨100, true, _, by decide +kernel, boardTimers_led⟩

/-- The service keeps its timers on their periods. -/
structure Clocked (main : Program) : Prop where
  sound : Sound main.service
  periods : OnPeriod boardTimers [xTempTimer, xLEDTimer] main.service.schedule

/-- The service keeps its timers on their periods, the LED pipeline is sound, and the callbacks that
the board has seen are those that the service has called. -/
structure Linked (main : Program) : Prop extends Clocked main where
  young : main.service.ticks < 100 * (2 ^ 32 - 1)
  led : main.board.pipeline.Sound
  callbacks : main.board.ledCallbacks = (main.service.callsOf xLEDTimer).length

section Linked

variable {pins : PinDriver} {lists : ListDriver} {pdTicksToMs : UInt32 → UInt32}
  {main next : Program} {event : ProgramEvent}

/-- What a step of the timer service does to the board: nothing, or one of the two callbacks. -/
theorem timers_cases (hclocked : Clocked main) (hstep : main.timers lists = some next) :
    main.service.prvTimerTask lists = some next.service ∧
      next.tempReceived = main.tempReceived ∧ next.tempDropped = main.tempDropped ∧
      ((next.service.calls = main.service.calls ∧ next.board = main.board) ∨
        ∃ due, (next.service.calls =
              main.service.calls ++ [⟨xTempTimer, due, main.service.ticks⟩] ∧
            next.board = main.board.vTempTimerCallBack) ∨
          (next.service.calls =
              main.service.calls ++ [⟨xLEDTimer, due, main.service.ticks⟩] ∧
            next.board = main.board.vLEDTimerCallBack)) := by
  obtain ⟨service, hservice, rfl⟩ := Option.map_eq_some_iff.mp hstep
  refine ⟨hservice, rfl, rfl, ?_⟩
  dsimp only
  obtain ⟨-, -, -, ⟨hcalls, -⟩ | ⟨handle, due, hmem, -, hcalls, -⟩⟩ :=
    daemon_cases prepared_board hclocked.sound hclocked.periods hservice
  · rw [hcalls, List.drop_length]
    exact .inl ⟨rfl, rfl⟩
  · right
    rw [hcalls, List.drop_left]
    have hknown := Multiset.mem_coe.mp (hclocked.periods.follows.of_mem hmem).1
    simp only [List.mem_cons, List.not_mem_nil, or_false] at hknown
    rcases hknown with rfl | rfl
    · exact ⟨due, .inl ⟨rfl, rfl⟩⟩
    · exact ⟨due, .inr ⟨rfl, rfl⟩⟩

/-- A step of the program leaves the timers on their periods. -/
theorem Clocked.step (hclocked : Clocked main) (hserved : ServedInTime main event)
    (hstep : (program pins lists pdTicksToMs).step main event = some next) : Clocked next := by
  cases event with
  | advance ticks =>
    cases hstep
    have hunattended : ∀ request, ScheduleEvent.advance ticks ≠ .send request := nofun
    have hperiods := hclocked.periods.step prepared_board hunattended
      (rfl : (scheduling boardTimers [xTempTimer, xLEDTimer]).step main.service.schedule
        (.advance ticks) = some _)
    exact ⟨⟨hclocked.sound.1.advance ticks, hserved⟩, hperiods⟩
  | timers =>
    obtain ⟨service, hservice, rfl⟩ := Option.map_eq_some_iff.mp hstep
    obtain ⟨hsound, hperiods, -, -⟩ :=
      daemon_cases prepared_board hclocked.sound hclocked.periods hservice
    exact ⟨hsound, hperiods⟩
  | logger =>
    cases hstep
    exact ⟨hclocked.sound, hclocked.periods⟩
  | led | temp reading | alert =>
    obtain ⟨board, -, rfl⟩ := Option.map_eq_some_iff.mp hstep
    exact ⟨hclocked.sound, hclocked.periods⟩

/-- A call of a timer is one of its calls. -/
theorem callsOf_called (service : TimerService) {handle : TimerHandle} {calls : List Call}
    {due tick : ℕ} (hcalls : service.calls = calls ++ [⟨handle, due, tick⟩]) :
    (service.callsOf handle).length =
      (calls.filter fun call ↦ call.timer = handle).length + 1 := by
  have hlast : [(⟨handle, due, tick⟩ : Call)].filter (fun call ↦ call.timer = handle) =
      [⟨handle, due, tick⟩] := List.filter_cons_of_pos (decide_eq_true rfl)
  unfold TimerService.callsOf
  rw [hcalls, List.filter_append, List.length_append, hlast]
  rfl

/-- A call of another timer is not. -/
theorem callsOf_other (service : TimerService) {handle other : TimerHandle} {calls : List Call}
    {due tick : ℕ} (hcalls : service.calls = calls ++ [⟨other, due, tick⟩])
    (hother : other ≠ handle) :
    service.callsOf handle = calls.filter fun call ↦ call.timer = handle := by
  unfold TimerService.callsOf
  rw [hcalls, List.filter_append, List.filter_cons_of_neg, List.filter_nil, List.append_nil]
  exact fun hsame ↦ hother (of_decide_eq_true hsame)

/-- The LED task has not counted past 32 bits. -/
theorem Linked.few (hlinked : Linked main) (event : BoardEvent) :
    FewToggles main.board event := by
  intro now _ hstage
  have htriggered := hlinked.led.triggered.callbacks
  change main.board.toggleCount.toNat + main.board.ledStage.taken + main.board.ledSempahore ≤
    main.board.ledCallbacks + 1 at htriggered
  have hcalls : (main.service.callsOf xLEDTimer).length * 100 ≤ main.service.ticks :=
    hlinked.periods.callsOf_le boardTimers_led
  have hyoung := hlinked.young
  rw [hstage, hlinked.callbacks] at htriggered
  change main.board.toggleCount.toNat + 1 + main.board.ledSempahore ≤ _ at htriggered
  omega

/-- A step of a task leaves the service alone. -/
theorem Linked.task (pins : PinDriver) {board : Board} {received dropped : List TempLog}
    (hlinked : Linked main) (event : BoardEvent)
    (hstep : (firmware pins).step main.board event = some board)
    (hcallbacks : board.ledCallbacks = main.board.ledCallbacks) :
    Linked ⟨board, main.service, received, dropped⟩ where
  sound := hlinked.sound
  periods := hlinked.periods
  young := hlinked.young
  led := hlinked.led.step (hlinked.few event) hstep
  callbacks := hcallbacks.trans hlinked.callbacks

/-- The tasks do not count callbacks. -/
theorem ledCallbacks_ledTaskCode {now : UInt32} {board : Board}
    (hstep : main.board.ledTaskCode pins now = some board) :
    board.ledCallbacks = main.board.ledCallbacks := by
  unfold Board.ledTaskCode at hstep
  split at hstep
  case h_1 =>
    obtain ⟨left, -, rfl⟩ := Option.map_eq_some_iff.mp hstep
    rfl
  all_goals
    cases hstep
    rfl

/-- A step of the program keeps the board and the service together. -/
theorem Linked.step (hlinked : Linked main) (hlasting : Lasting main event)
    (hstep : (program pins lists pdTicksToMs).step main event = some next) : Linked next := by
  have hclocked := hlinked.toClocked.step hlasting.servedInTime hstep
  cases event with
  | advance ticks =>
    cases hstep
    exact ⟨hclocked, hlasting.2, hlinked.led, hlinked.callbacks⟩
  | timers =>
    obtain ⟨hservice, -, -, hcases⟩ := timers_cases hlinked.toClocked hstep
    obtain ⟨-, -, hticks, -⟩ :=
      daemon_cases prepared_board hlinked.sound hlinked.periods hservice
    have hyoung := hlinked.young
    rw [← hticks] at hyoung
    rcases hcases with ⟨hcalls, hboard⟩ | ⟨due, ⟨hcalls, hboard⟩ | ⟨hcalls, hboard⟩⟩
    · refine ⟨hclocked, hyoung, hboard ▸ hlinked.led, ?_⟩
      unfold TimerService.callsOf
      rw [hboard, hcalls]
      exact hlinked.callbacks
    · refine ⟨hclocked, hyoung, ?_, ?_⟩
      · rw [hboard]
        exact hlinked.led
      · rw [hboard, callsOf_other _ hcalls (by decide)]
        exact hlinked.callbacks
    · refine ⟨hclocked, hyoung, ?_, ?_⟩
      · rw [hboard]
        exact hlinked.led.step (hlinked.few .ledTimer)
          (rfl : (firmware pins).step main.board .ledTimer = some _)
      · rw [hboard, callsOf_called _ hcalls]
        exact congrArg (· + 1) hlinked.callbacks
  | led =>
    obtain ⟨board, hboard, rfl⟩ := Option.map_eq_some_iff.mp hstep
    exact hlinked.task pins (.led _) hboard (ledCallbacks_ledTaskCode hboard)
  | temp reading =>
    obtain ⟨board, hboard, rfl⟩ := Option.map_eq_some_iff.mp hstep
    exact hlinked.task pins (.temp reading _) hboard
      (congrArg Pipeline.callbacks (pipeline_tempTaskCode hboard))
  | logger =>
    cases hstep
    exact hlinked.task pins .logger rfl rfl
  | alert =>
    obtain ⟨board, hboard, rfl⟩ := Option.map_eq_some_iff.mp hstep
    exact hlinked.task pins .alert hboard
      (congrArg Pipeline.callbacks (pipeline_alertTaskCode hboard))

/-- The program starts with its timers on their periods. -/
theorem clocked_initial : Clocked (program pins lists pdTicksToMs).initial := by
  have hperiods := onPeriod_initial prepared_board
  rw [← schedule_initial lists] at hperiods
  have hsound : Sound (timerService lists boardTimers [xTempTimer, xLEDTimer]).initial :=
    SoftwareTimers.sound_initial
  exact ⟨hsound, hperiods⟩

/-- The program starts with both together. -/
theorem linked_initial : Linked (program pins lists pdTicksToMs).initial := by
  have hticks : (timerService lists boardTimers [xTempTimer, xLEDTimer]).initial.ticks = 0 := by
    rw [initial_eq]
    rfl
  have hcalls : (timerService lists boardTimers [xTempTimer, xLEDTimer]).initial.calls = [] := by
    rw [initial_eq]
    rfl
  refine ⟨clocked_initial, ?_, Firmware.sound_initial pins, ?_⟩
  · change (timerService lists boardTimers [xTempTimer, xLEDTimer]).initial.ticks < _
    rw [hticks]
    decide
  · change 0 = (((timerService lists boardTimers [xTempTimer, xLEDTimer]).initial.calls).filter
      _).length
    rw [hcalls]
    rfl

/-- Board and service are together in every state of the program. -/
theorem linked_of_reachable {allowed : Program → ProgramEvent → Prop}
    (hlasting : ∀ main event, allowed main event → Lasting main event)
    (hreach : (program pins lists pdTicksToMs).ReachableUnder allowed main) : Linked main :=
  hreach.invariant linked_initial fun main event _ hlinked hallowed hstep ↦
    hlinked.step (hlasting main event hallowed) hstep

/-! ### The toggles against the clock -/

/-- **The LEDs do not toggle more often than every 100 ms.** In every interleaving of the timer
service and the tasks, however late the tasks run and across every wrap of the tick count, there has
been at most one toggle for each 100 ticks that have passed, and the one of the semaphore that is
created given. Assumes: the run is punctual and lasts less than 13 years. -/
theorem toggles_of_reachable
    (hreach : (program pins lists pdTicksToMs).ReachableUnder Lasting main) :
    main.board.toggleCount.toNat ≤ main.service.ticks / 100 + 1 := by
  have hlinked := linked_of_reachable (fun _ _ hallowed ↦ hallowed) hreach
  have htriggered := hlinked.led.triggered.callbacks
  change main.board.toggleCount.toNat + main.board.ledStage.taken + main.board.ledSempahore ≤
    main.board.ledCallbacks + 1 at htriggered
  have hcalls : (main.service.callsOf xLEDTimer).length * 100 ≤ main.service.ticks :=
    hlinked.periods.callsOf_le boardTimers_led
  rw [hlinked.callbacks] at htriggered
  omega

/-- The LED task has taken its semaphore whenever the LED timer is called. -/
def KeepsUp (lists : ListDriver) (main : Program) (event : ProgramEvent) : Prop :=
  match event with
  | .timers => ∀ service, main.service.prvTimerTask lists = some service →
      service.callsOf xLEDTimer ≠ main.service.callsOf xLEDTimer → main.board.ledSempahore = 0
  | .advance _ | .led | .temp _ | .logger | .alert => True

instance (lists : ListDriver) (main : Program) (event : ProgramEvent) :
    Decidable (KeepsUp lists main event) :=
  match event with
  | .timers =>
    match hstep : main.service.prvTimerTask lists with
    | none => .isTrue fun _ hnext ↦ absurd (hstep.symm.trans hnext) nofun
    | some service =>
      decidable_of_iff (service.callsOf xLEDTimer ≠ main.service.callsOf xLEDTimer →
        main.board.ledSempahore = 0)
        ⟨fun htaken _ hnext ↦ Option.some.inj (hstep.symm.trans hnext) ▸ htaken,
          fun hkeeps ↦ hkeeps service hstep⟩
  | .advance _ | .led | .temp _ | .logger | .alert => .isTrue trivial

/-- Every callback is a toggle counted, one under way or a semaphore that is given. -/
def Board.Answered (board : Board) : Prop :=
  board.toggleCount.toNat + board.ledStage.taken + board.ledSempahore = board.ledCallbacks + 1

/-- A step of the LED task takes the semaphore, counts the toggle, or leaves both alone. -/
theorem Board.Answered.ledTaskCode {now : UInt32} {board : Board}
    (hanswered : main.board.Answered) (hfew : FewToggles main.board (.led now))
    (hstep : main.board.ledTaskCode pins now = some board) : board.Answered := by
  obtain ⟨⟨state, stage, led1val, led2val, timestamp, semaphore, port, tempStage, tempSemaphore,
    alertTaken, callbacks, received, dropped, history⟩, service, tempReceived, tempDropped⟩ := main
  cases stage with
  | take =>
    change state.toggleCount.toNat + 0 + semaphore = callbacks + 1 at hanswered
    obtain ⟨left, htake, rfl⟩ := Option.map_eq_some_iff.mp hstep
    change xSemaphoreTake semaphore = some left at htake
    unfold xSemaphoreTake at htake
    split_ifs at htake with hgiven
    obtain rfl := Option.some.inj htake
    change state.toggleCount.toNat + 1 + (semaphore - 1) = callbacks + 1
    omega
  | count =>
    cases hstep
    change (state.toggleCount + 1).toNat + 0 + semaphore = callbacks + 1
    rw [toNat_succ (hfew now rfl rfl)]
    exact hanswered
  | _ =>
    cases hstep
    exact hanswered

/-- Two boards with the same LED pipeline. -/
theorem Board.Answered.of_pipeline {board other : Board} (hanswered : board.Answered)
    (hsame : other.pipeline = board.pipeline) : other.Answered := by
  have hfields : (other.pipeline.toggleCount.toNat + other.pipeline.stage.taken +
      other.pipeline.semaphore = other.pipeline.callbacks + 1) := hsame ▸ hanswered
  exact hfields

/-- A step of the program leaves every callback answered. Assumes: the LED task keeps up. -/
theorem Board.Answered.step (hanswered : main.board.Answered) (hlinked : Linked main)
    (hkeeps : KeepsUp lists main event)
    (hstep : (program pins lists pdTicksToMs).step main event = some next) :
    next.board.Answered := by
  cases event with
  | advance ticks =>
    cases hstep
    exact hanswered
  | timers =>
    obtain ⟨hservice, -, -, ⟨-, hboard⟩ | ⟨due, ⟨-, hboard⟩ | ⟨hcalls, hboard⟩⟩⟩ :=
      timers_cases hlinked.toClocked hstep
    · exact hboard ▸ hanswered
    · rw [hboard]
      exact hanswered
    · have hmore : next.service.callsOf xLEDTimer ≠ main.service.callsOf xLEDTimer := by
        intro hsame
        have hlength := callsOf_called _ hcalls
        rw [hsame] at hlength
        exact absurd hlength (Nat.ne_of_lt (Nat.lt_succ_self _))
      have htaken := hkeeps next.service hservice hmore
      rw [hboard]
      unfold Board.Answered at hanswered ⊢
      rw [htaken] at hanswered
      change main.board.toggleCount.toNat + main.board.ledStage.taken +
        xSemaphoreGive main.board.ledSempahore = main.board.ledCallbacks + 1 + 1
      rw [htaken]
      exact congrArg (· + 1) hanswered
  | led =>
    obtain ⟨board, hboard, rfl⟩ := Option.map_eq_some_iff.mp hstep
    exact hanswered.ledTaskCode (hlinked.few _) hboard
  | temp reading =>
    obtain ⟨board, hboard, rfl⟩ := Option.map_eq_some_iff.mp hstep
    exact hanswered.of_pipeline (pipeline_tempTaskCode hboard)
  | logger =>
    cases hstep
    change main.board.loggerTaskCode.Answered
    unfold Board.Answered Board.loggerTaskCode
    dsimp only
    rw [(loggerTaskCode_frame main.board.toState).1]
    exact hanswered
  | alert =>
    obtain ⟨board, hboard, rfl⟩ := Option.map_eq_some_iff.mp hstep
    exact hanswered.of_pipeline (pipeline_alertTaskCode hboard)

/-- **The LEDs toggle every 100 ms.** Assumes: the run is punctual and lasts less than 13 years, and
the LED task has taken its semaphore whenever the LED timer is called. At every tick at which the
timer service sleeps and the LED task waits for its semaphore, the LEDs have toggled exactly once
for each 100 ticks that have passed, and once for the semaphore that is created given. -/
theorem toggles_of_keepsUp
    (hreach : (program pins lists pdTicksToMs).ReachableUnder
      (fun main event ↦ Lasting main event ∧ KeepsUp lists main event) main)
    (hstuck : main.service.prvTimerTask lists = none) (hstage : main.board.ledStage = .take)
    (htaken : main.board.ledSempahore = 0) :
    main.board.toggleCount.toNat = main.service.ticks / 100 + 1 := by
  have hboth : Linked main ∧ main.board.Answered := by
    refine hreach.invariant ⟨linked_initial, rfl⟩ ?_
    rintro state event next ⟨hlinked, hanswered⟩ ⟨hlasting, hkeeps⟩ hstep
    exact ⟨hlinked.step hlasting hstep, hanswered.step hlinked hkeeps hstep⟩
  obtain ⟨hlinked, hanswered⟩ := hboth
  have hcalls := hlinked.periods.callsOf_eq prepared_board hlinked.sound.1 hstuck (by decide)
    boardTimers_led
  unfold Board.Answered at hanswered
  rw [hstage, htaken, hlinked.callbacks, hcalls] at hanswered
  exact hanswered

/-- A run of the program in which the LED task keeps up, up to tick 250. -/
def shortRun : List ProgramEvent :=
  [List.replicate 10 .timers, List.replicate 8 .led, [.advance 100], List.replicate 8 .timers,
    List.replicate 8 .led, [.advance 100], List.replicate 8 .timers, List.replicate 8 .led,
    [.advance 50]].flatten

/-- At tick 250 the LEDs have toggled three times. -/
theorem exists_shortRun : ∃ main : Program,
    (program maskedWrite orderedLists id).ReachableUnder
        (fun main event ↦ Lasting main event ∧ KeepsUp orderedLists main event) main ∧
      main.service.prvTimerTask orderedLists = none ∧ main.board.ledStage = .take ∧
      main.board.ledSempahore = 0 ∧ main.service.ticks = 250 := by
  have hrun : (((program maskedWrite orderedLists id).restrict
      (fun main event ↦ Lasting main event ∧ KeepsUp orderedLists main event)).run
      (program maskedWrite orderedLists id).initial shortRun).any (fun main ↦
        (main.service.prvTimerTask orderedLists).isNone = true ∧ main.board.ledStage = .take ∧
          main.board.ledSempahore = 0 ∧ main.service.ticks = 250) = true := by
    decide +kernel
  obtain ⟨main, hmain, hfinal⟩ := (Option.any_eq_true _ _).mp hrun
  obtain ⟨hstuck, hrest⟩ := of_decide_eq_true hfinal
  exact ⟨main, System.reachableUnder_of_run hmain, Option.isNone_iff_eq_none.mp hstuck, hrest⟩

theorem toggles_of_reachable_short : ∃ main : Program,
    main.service.ticks = 250 ∧ main.board.toggleCount.toNat ≤ 250 / 100 + 1 := by
  obtain ⟨main, hreach, -, -, -, hticks⟩ := exists_shortRun
  have hlasting := hreach.mono fun _ _ hboth ↦ hboth.1
  have htoggles := toggles_of_reachable hlasting
  rw [hticks] at htoggles
  exact ⟨main, hticks, htoggles⟩

theorem toggles_of_keepsUp_short : ∃ main : Program,
    main.service.ticks = 250 ∧ main.board.toggleCount.toNat = 3 := by
  obtain ⟨main, hreach, hstuck, hstage, htaken, hticks⟩ := exists_shortRun
  have htoggles := toggles_of_keepsUp hreach hstuck hstage htaken
  rw [hticks] at htoggles
  exact ⟨main, hticks, htoggles⟩

end Linked

end Apes.Firmware
