import Apes.Firmware.Uart
import Apes.Library.LossyQueue

/-!
# The tasks of the board, step by step, `main.c`, `LED.c`, `tempSensor.c` and `logger.c`

`Uart.lean` takes a pass through the loop of the LED task for one step, because nothing that the
pass does can be seen on the UART. Here every access of the LED task, of the temperature task and of
the alert task is a step of its own, and the callbacks of the two timers are events. No order is
imposed on the events: a task may be preempted between any two of its accesses, and the priorities
of the tasks and of the timer service are not used.

`main` creates the two semaphores with `vSemaphoreCreateBinary`, which creates them given. The
record of the LED task is on its stack: `toggleCount` and `timestamp` are its fields. The last
fields of `Board` are its history, which no step reads: the number of callbacks of the LED timer,
the records that the logger has received and those that were dropped, and the samples, notifications
and alerts in the order in which they happened.

A pass that is not preempted is the step of `Uart.lean`: `run_led_pass`, `run_temp_pass` and
`run_alert_start`.
-/

set_option autoImplicit false
set_option relaxedAutoImplicit false

namespace Apes.Firmware

open Library

/-! ### The kernel and the driver library -/

/-- `xSemaphoreGive` on a binary semaphore: a semaphore that is given stays given. -/
def xSemaphoreGive (semaphore : ℕ) : ℕ := if semaphore < 1 then semaphore + 1 else semaphore

/-- `xSemaphoreTake` with `portMAX_DELAY`: the task is blocked while the semaphore is not given. -/
def xSemaphoreTake (semaphore : ℕ) : Option ℕ :=
  if 0 < semaphore then some (semaphore - 1) else none

/-- `GPIOPinWrite` of the driver library, on the data register of the port: the pins of the mask
take their bits of the value, and all others keep theirs. -/
structure PinDriver where
  GPIOPinWrite (port pins val : UInt8) : UInt8
  written (port pins val : UInt8) : GPIOPinWrite port pins val &&& pins = val &&& pins
  kept (port pins val other : UInt8) :
    other &&& pins = 0 → GPIOPinWrite port pins val &&& other = port &&& other

/-- The masked write to the data register is such a driver. -/
def maskedWrite : PinDriver where
  GPIOPinWrite port pins val := (port &&& ~~~pins) ||| (val &&& pins)
  written port pins val := by
    apply UInt8.eq_of_toBitVec_eq
    ext bit hbit
    simp only [UInt8.toBitVec_and, UInt8.toBitVec_or, UInt8.toBitVec_not, BitVec.getElem_and,
      BitVec.getElem_or, BitVec.getElem_not]
    cases pins.toBitVec[bit] <;> simp
  kept port pins val other hother := by
    apply UInt8.eq_of_toBitVec_eq
    ext bit hbit
    have hdisjoint : (other.toBitVec[bit] && pins.toBitVec[bit]) = false := by
      simpa using congrArg (fun mask : UInt8 ↦ mask.toBitVec[bit]) hother
    simp only [UInt8.toBitVec_and, UInt8.toBitVec_or, UInt8.toBitVec_not, BitVec.getElem_and,
      BitVec.getElem_or, BitVec.getElem_not]
    cases hpins : pins.toBitVec[bit] with
    | false => simp
    | true =>
      rw [hpins, Bool.and_true] at hdisjoint
      rw [hdisjoint, Bool.and_false, Bool.and_false]

/-! ### The state -/

/-- `LED1_PIN`. -/
def led1Pin : UInt8 := 0x01

/-- `LED2_PIN`. -/
def led2Pin : UInt8 := 0x02

/-- What the LED task does next. -/
inductive LedStage
  | take
  | writeLed1
  | writeLed2
  | flipLed1
  | flipLed2
  | count
  | stamp
  | send
  deriving DecidableEq

/-- What the temperature task does next, with the temperature of its record. -/
inductive TempStage
  | take
  | read
  | compare (temp : ℚ)
  | stamp (temp : ℚ)
  | send

deriving instance DecidableEq for Reading, AlertStage

/-- An entry of the history of the alerts: a sample is read, the alert task is notified, or it
begins its message. -/
inductive Mark
  | sampled (reading : Reading)
  | notified
  | begun
  deriving DecidableEq

/-- The state of the UART and of the tasks, with the variables of the LED task, the two semaphores,
the pins of the LEDs, and whether the alert task has returned from `ulTaskNotifyTake` and not yet
begun its message; then the history. -/
structure Board extends State where
  ledStage : LedStage
  led1val : UInt8
  led2val : UInt8
  timestamp : UInt32
  ledSempahore : ℕ
  gpioPortN : UInt8
  tempStage : TempStage
  tempSemaphore : ℕ
  alertTaken : Bool
  ledCallbacks : ℕ
  received : List LedLog
  dropped : List LedLog
  history : List Mark

/-- A callback of a timer, or a step of a task, at a time and on the reading that the sensor
gives. -/
inductive BoardEvent
  | ledTimer
  | tempTimer
  | led (now : UInt32)
  | temp (reading : Reading) (now : UInt32)
  | logger
  | alert

/-- `LEDGPIOInit`, on the data register of the port: both LEDs are turned on. -/
def LEDGPIOInit (driver : PinDriver) (port : UInt8) : UInt8 :=
  driver.GPIOPinWrite (driver.GPIOPinWrite port led1Pin led1Pin) led2Pin led2Pin

/-! ### The tasks -/

namespace Board

/-- `txLog` of the LED task. -/
def txLog (board : Board) : LedLog := ⟨board.toggleCount, "Ashish Tak".toList, board.timestamp⟩

/-- `vLEDTimerCallBack`. -/
def vLEDTimerCallBack (board : Board) : Board :=
  { board with
    ledSempahore := xSemaphoreGive board.ledSempahore
    ledCallbacks := board.ledCallbacks + 1 }

/-- `vTempTimerCallBack`. -/
def vTempTimerCallBack (board : Board) : Board :=
  { board with tempSemaphore := xSemaphoreGive board.tempSemaphore }

/-- One step of `LEDTaskCode`. A record that its send leaves out of the queue is dropped. -/
def ledTaskCode (driver : PinDriver) (now : UInt32) (board : Board) : Option Board :=
  match board.ledStage with
  | .take => (xSemaphoreTake board.ledSempahore).map fun left ↦
      { board with ledSempahore := left, ledStage := .writeLed1 }
  | .writeLed1 => some { board with
      gpioPortN := driver.GPIOPinWrite board.gpioPortN led1Pin board.led1val
      ledStage := .writeLed2 }
  | .writeLed2 => some { board with
      gpioPortN := driver.GPIOPinWrite board.gpioPortN led2Pin board.led2val
      ledStage := .flipLed1 }
  | .flipLed1 => some { board with led1val := board.led1val ^^^ led1Pin, ledStage := .flipLed2 }
  | .flipLed2 => some { board with led2val := board.led2val ^^^ led2Pin, ledStage := .count }
  | .count => some { board with toggleCount := board.toggleCount + 1, ledStage := .stamp }
  | .stamp => some { board with timestamp := now, ledStage := .send }
  | .send => some { board with
      xQueueLed := xQueueSend board.xQueueLed board.txLog
      dropped := if (xQueueSend board.xQueueLed board.txLog).length = board.xQueueLed.length then
        board.dropped ++ [board.txLog] else board.dropped
      ledStage := .take }

/-- One step of `tempTaskCode`. -/
def tempTaskCode (reading : Reading) (now : UInt32) (board : Board) : Option Board :=
  match board.tempStage with
  | .take => (xSemaphoreTake board.tempSemaphore).map fun left ↦
      { board with tempSemaphore := left, tempStage := .read }
  | .read => some { board with
      tempStage := .compare (readTemp reading)
      history := board.history ++ [.sampled reading] }
  | .compare temp =>
    if binary32.round temperatureThreshold < temp then
      some { board with
        notification := board.notification + 1
        history := board.history ++ [.notified]
        tempStage := .stamp temp }
    else some { board with tempStage := .stamp temp }
  | .stamp temp => some { board with sending := some ⟨temp, now⟩, tempStage := .send }
  | .send => (tempTaskSend board.toState).map fun state ↦
      { board with toState := state, tempStage := .take }

/-- What the next step of the logger receives from the queue of the LED task. -/
def nextReceived (state : State) : List LedLog :=
  match state.logger, state.xQueueLed with
  | .receiveLed, log :: _ => [log]
  | _, _ => []

/-- One step of `loggerTaskCode`. -/
def loggerTaskCode (board : Board) : Board :=
  { board with
    toState := Firmware.loggerTaskCode board.toState
    received := board.received ++ nextReceived board.toState }

/-- One step of `alertTaskCode`. `ulTaskNotifyTake` clears the notification value when it
returns. -/
def alertTaskCode (board : Board) : Option Board :=
  if board.alertTaken then
    some { board with
      uart := board.uart.start alertMessage
      alert := .printing alertMessage
      alertTaken := false
      history := board.history ++ [.begun] }
  else
    match board.alert with
    | .waiting =>
      if 0 < board.notification then some { board with notification := 0, alertTaken := true }
      else none
    | .printing _ => (Firmware.alertTaskCode board.toState).map fun state ↦
        { board with toState := state }

end Board

/-- The board after the start of the scheduler. -/
def firmware (driver : PinDriver) : System Board BoardEvent where
  initial := {
    toState := tasks.initial
    ledStage := .take
    led1val := 0
    led2val := led2Pin
    timestamp := 0
    ledSempahore := 1
    gpioPortN := LEDGPIOInit driver 0
    tempStage := .take
    tempSemaphore := 1
    alertTaken := false
    ledCallbacks := 0
    received := []
    dropped := []
    history := [] }
  step board
    | .ledTimer => some board.vLEDTimerCallBack
    | .tempTimer => some board.vTempTimerCallBack
    | .led now => board.ledTaskCode driver now
    | .temp reading now => board.tempTaskCode reading now
    | .logger => some board.loggerTaskCode
    | .alert => board.alertTaskCode

/-! ### What a step does -/

variable {driver : PinDriver} {board next : Board}

/-- A step of the alert task begins the message, returns from `ulTaskNotifyTake`, or goes on with
the message. -/
theorem alertTaskCode_cases (hstep : board.alertTaskCode = some next) :
    (board.alertTaken = true ∧
      next = { board with
        uart := board.uart.start alertMessage
        alert := .printing alertMessage
        alertTaken := false
        history := board.history ++ [.begun] }) ∨
    (board.alertTaken = false ∧ board.alert = .waiting ∧ 0 < board.notification ∧
      next = { board with notification := 0, alertTaken := true }) ∨
    (board.alertTaken = false ∧ ∃ uart alert, uart.begun = board.uart.begun ∧
      next = { board with uart := uart, alert := alert }) := by
  obtain ⟨state, stage, led1val, led2val, timestamp, semaphore, port, tempStage, tempSemaphore,
    alertTaken, callbacks, received, dropped, history⟩ := board
  unfold Board.alertTaskCode at hstep
  cases alertTaken with
  | true =>
    cases hstep
    exact .inl ⟨rfl, rfl⟩
  | false =>
    right
    obtain ⟨uart, logger, alert, notification, sending, toggleCount, xQueueTemp, xQueueLed⟩ := state
    cases alert with
    | waiting =>
      by_cases hnotified : 0 < notification
      · simp only [Bool.false_eq_true, if_false, if_pos hnotified, Option.some.injEq] at hstep
        exact .inl ⟨rfl, rfl, hnotified, hstep.symm⟩
      · simp [hnotified] at hstep
    | printing rest =>
      obtain ⟨state, hprint, rfl⟩ := Option.map_eq_some_iff.mp hstep
      cases rest with
      | nil =>
        cases hprint
        exact .inr ⟨rfl, uart, .waiting, rfl, rfl⟩
      | cons character rest =>
        cases hprint
        exact .inr ⟨rfl, uart.put character, .printing rest, rfl, rfl⟩

/-- The logger leaves the count and the alert task alone, and what it receives is the front of the
queue. -/
theorem loggerTaskCode_frame (state : State) :
    (loggerTaskCode state).toggleCount = state.toggleCount ∧
      (loggerTaskCode state).alert = state.alert ∧
      (loggerTaskCode state).notification = state.notification ∧
      Board.nextReceived state ++ (loggerTaskCode state).xQueueLed = state.xQueueLed := by
  obtain ⟨uart, logger, alert, notification, sending, toggleCount, xQueueTemp, xQueueLed⟩ := state
  cases logger with
  | receiveTemp => cases xQueueTemp <;> exact ⟨rfl, rfl, rfl, rfl⟩
  | printTemp rest => cases rest <;> exact ⟨rfl, rfl, rfl, rfl⟩
  | receiveLed => cases xQueueLed <;> exact ⟨rfl, rfl, rfl, rfl⟩
  | printLed rest => cases rest <;> exact ⟨rfl, rfl, rfl, rfl⟩

/-! ### Passes that are not preempted -/

/-- A pass of the LED task that is not preempted is its step in `Uart.lean`. Assumes: the task waits
for its semaphore, which is given. -/
theorem run_led_pass (hstage : board.ledStage = .take) (hgiven : board.ledSempahore = 1)
    (now : UInt32) :
    ∃ next, (firmware driver).run board (List.replicate 8 (.led now)) = some next ∧
      next.toState = ledTaskCode now board.toState ∧ next.ledStage = .take := by
  obtain ⟨state, stage, led1val, led2val, timestamp, semaphore, port, tempStage, tempSemaphore,
    alertTaken, callbacks, received, dropped, history⟩ := board
  cases hstage
  cases hgiven
  exact ⟨_, rfl, rfl, rfl⟩

/-- A pass of the temperature task up to its send is its step in `Uart.lean`. Assumes: the task
waits for its semaphore, which is given. -/
theorem run_temp_pass (hstage : board.tempStage = .take) (hgiven : board.tempSemaphore = 1)
    (hsending : board.sending = none) (reading : Reading) (now : UInt32) :
    ∃ next, (firmware driver).run board (List.replicate 4 (.temp reading now)) = some next ∧
      tempTaskSample reading now board.toState = some next.toState ∧ next.tempStage = .send := by
  obtain ⟨state, stage, led1val, led2val, timestamp, semaphore, port, tempStage, tempSemaphore,
    alertTaken, callbacks, received, dropped, history⟩ := board
  cases hstage
  cases hgiven
  change state.sending = none at hsending
  by_cases hhigh : binary32.round temperatureThreshold < readTemp reading <;>
    simp [Board.tempTaskCode, System.run, firmware, hhigh, tempTaskSample, pass, hsending,
      xSemaphoreTake]

/-- The return from `ulTaskNotifyTake` and the start of the message are one step of the alert task
in `Uart.lean`. Assumes: the alert task waits and has been notified. -/
theorem run_alert_start (hwaiting : board.alert = .waiting) (htaken : board.alertTaken = false)
    (hnotified : 0 < board.notification) :
    ∃ next, (firmware driver).run board [.alert, .alert] = some next ∧
      alertTaskCode board.toState = some next.toState ∧ next.alertTaken = false := by
  simp [firmware, Board.alertTaskCode, alertTaskCode, hwaiting, htaken, hnotified]

end Apes.Firmware
