import Apes.Firmware.TempSensor
import Apes.Library.SerialOutput
import Apes.Library.TransitionSystem

/-!
# The UART of the logger and of the alert task, `logger.c` and `tempSensor.c`

Two tasks print to the UART: the logger, what it receives from the two queues, and the alert task,
its message. The other tasks run between them: the temperature task notifies the alert task of a
high temperature and sends its record, and the LED task sends a record with every toggle.
`UARTprintf` writes its message character by character and takes no lock; the mutex that is declared
for the UART, `g_pUARTSemaphore`, is neither created nor taken by any task.

The alert task has the higher priority. It may start at any point once it has been notified, and
while it is inside `UARTprintf` no other task runs. Whether the messages are interleaved depends on
when the high readings come. A schedule is `Quiet` when no high reading is taken in the middle of a
message of the logger and the logger begins no message before a notification is served;
`intactOutput_iff` says that at most one task is then inside `UARTprintf` at a time, and the output
consists of whole messages and the start of at most one more. Where the priorities make the alert
task run as soon as it is notified, this is exactly when it is so.
-/

set_option autoImplicit false
set_option relaxedAutoImplicit false

namespace Apes.Firmware

open Library

/-! ### The messages -/

/-- The record that the LED task sends to the logger. -/
structure LedLog where
  toggleCount : UInt32
  name : List Char
  timestamp : UInt32

/-- The conversion `%d`. -/
def decimal (value : UInt32) : List Char := (toString value.toBitVec.toInt).toList

/-- The conversion `%f`, with six decimals. -/
def fixedPoint (value : ℚ) : List Char :=
  let millionths := (roundTiesEven (|value| * 10 ^ 6)).toNat
  (if value < 0 then ['-'] else []) ++ (toString (millionths / 10 ^ 6)).toList ++ ['.'] ++
    [5, 4, 3, 2, 1, 0].map fun place ↦ Nat.digitChar (millionths / 10 ^ place % 10)

/-- `FLOAT_PRECISION_DIGITS`, the size of `floatStr`. -/
def floatPrecisionDigits : ℕ := 10

/-- The message of the logger for a temperature; `snprintf` cuts `floatStr` to its size. -/
def tempMessage (log : TempLog) : List Char :=
  "\n\n<".toList ++ decimal log.timestamp ++ " ms>\tTemperature: ".toList ++
    (fixedPoint log.temp).take (floatPrecisionDigits - 1) ++ " degrees\n".toList

/-- The message of the logger for a toggle. -/
def ledMessage (log : LedLog) : List Char :=
  "\n<".toList ++ decimal log.timestamp ++ " ms>\tToggle count: ".toList ++
    decimal log.toggleCount ++ "\tUser Name: ".toList ++ log.name ++ "\n".toList

/-- The message of the alert task. -/
def alertMessage : List Char := "\n\n!!!ALERT!!! Temperature is too high!\n".toList

/-! ### The state -/

/-- `QUEUE_MAX_SIZE`. -/
def queueMaxSize : ℕ := 10

/-- `xQueueSend` without a wait: the record is dropped when the queue is full. -/
def xQueueSend {α : Type} (queue : List α) (record : α) : List α :=
  if queue.length < queueMaxSize then queue ++ [record] else queue

/-- The device: the messages that have been begun, and the characters written. -/
structure Uart where
  begun : List (List Char)
  output : List Char

/-- Where the logger stands: before one of its queues, or inside `UARTprintf` for a record of
one. -/
inductive LoggerStage
  | receiveTemp
  | printTemp (rest : List Char)
  | receiveLed
  | printLed (rest : List Char)

/-- Where the alert task stands: before `ulTaskNotifyTake`, or inside `UARTprintf`. -/
inductive AlertStage
  | waiting
  | printing (rest : List Char)

/-- The UART, the two printing tasks, the notification value of the alert task, the record that the
temperature task is about to send, the number of toggles, and the queues. -/
structure State where
  uart : Uart
  logger : LoggerStage
  alert : AlertStage
  notification : ℕ
  sending : Option TempLog
  toggleCount : UInt32
  xQueueTemp : List TempLog
  xQueueLed : List LedLog

/-- A step of the logger or of the alert task, a pass of the temperature task up to its
notification, the `xQueueSend` that ends it, or a pass of the LED task. -/
inductive Event
  | logger
  | alert
  | sample (reading : Reading) (timestamp : UInt32)
  | sendTemp
  | toggle (timestamp : UInt32)

/-- What the logger has left to print, none outside `UARTprintf`. -/
def LoggerStage.pending : LoggerStage → Option (List Char)
  | .printTemp rest => some rest
  | .printLed rest => some rest
  | _ => none

/-- What the alert task has left to print, none outside `UARTprintf`. -/
def AlertStage.pending : AlertStage → Option (List Char)
  | .printing rest => some rest
  | .waiting => none

/-! ### The tasks -/

/-- The entry of `UARTprintf`. -/
def Uart.start (message : List Char) (uart : Uart) : Uart :=
  { uart with begun := uart.begun ++ [message] }

/-- A character is written. -/
def Uart.put (character : Char) (uart : Uart) : Uart :=
  { uart with output := uart.output ++ [character] }

/-- One step of `loggerTaskCode`. -/
def loggerTaskCode (state : State) : State :=
  match state.logger with
  | .receiveTemp =>
    match state.xQueueTemp with
    | [] => { state with logger := .receiveLed }
    | log :: rest =>
      { state with
        xQueueTemp := rest
        uart := state.uart.start (tempMessage log)
        logger := .printTemp (tempMessage log) }
  | .printTemp (character :: rest) =>
    { state with uart := state.uart.put character, logger := .printTemp rest }
  | .printTemp [] => { state with logger := .receiveLed }
  | .receiveLed =>
    match state.xQueueLed with
    | [] => { state with logger := .receiveTemp }
    | log :: rest =>
      { state with
        xQueueLed := rest
        uart := state.uart.start (ledMessage log)
        logger := .printLed (ledMessage log) }
  | .printLed (character :: rest) =>
    { state with uart := state.uart.put character, logger := .printLed rest }
  | .printLed [] => { state with logger := .receiveTemp }

/-- One step of `alertTaskCode`; the task is blocked while it has no notification. -/
def alertTaskCode (state : State) : Option State :=
  match state.alert with
  | .waiting =>
    if 0 < state.notification then
      some { state with
        notification := 0
        uart := state.uart.start alertMessage
        alert := .printing alertMessage }
    else none
  | .printing (character :: rest) =>
    some { state with uart := state.uart.put character, alert := .printing rest }
  | .printing [] => some { state with alert := .waiting }

/-- A pass of `tempTaskCode`, up to the notification of the alert task. -/
def tempTaskSample (reading : Reading) (timestamp : UInt32) (state : State) : Option State :=
  match state.sending with
  | none =>
    some { state with
      notification :=
        if (pass reading timestamp).notifies then state.notification + 1 else state.notification
      sending := some (pass reading timestamp).txLog }
  | some _ => none

/-- The `xQueueSend` of `tempTaskCode`. -/
def tempTaskSend (state : State) : Option State :=
  match state.sending with
  | none => none
  | some log =>
    some { state with xQueueTemp := xQueueSend state.xQueueTemp log, sending := none }

/-- A pass of `LEDTaskCode`. -/
def ledTaskCode (timestamp : UInt32) (state : State) : State :=
  { state with
    toggleCount := state.toggleCount + 1
    xQueueLed := xQueueSend state.xQueueLed
      ⟨state.toggleCount + 1, "Ashish Tak".toList, timestamp⟩ }

/-- The steps of the tasks of the lower priority. -/
def lowerStep (state : State) : Event → Option State
  | .logger => some (loggerTaskCode state)
  | .alert => none
  | .sample reading timestamp => tempTaskSample reading timestamp state
  | .sendTemp => tempTaskSend state
  | .toggle timestamp => some (ledTaskCode timestamp state)

/-- The tasks after the start of the scheduler. -/
def tasks : System State Event where
  initial := ⟨⟨[], []⟩, .receiveTemp, .waiting, 0, none, 0, [], []⟩
  step state event :=
    match event with
    | .alert => alertTaskCode state
    | _ => if state.alert.pending = none then lowerStep state event else none

/-! ### The output -/

/-- At most one task is inside `UARTprintf`, and the output consists of whole messages and the start
of at most one more. -/
def State.IntactOutput (state : State) : Prop :=
  (state.logger.pending = none ∨ state.alert.pending = none) ∧
    Intact state.uart.begun state.uart.output

/-- In every state of a schedule at most one task is inside `UARTprintf`, and the output is
intact. -/
def AlwaysIntact (events : List Event) : Prop :=
  ∀ before state, before <+: events → tasks.run tasks.initial before = some state →
    state.IntactOutput

/-- The alert task does not start to print while the logger is printing. -/
def StartsAlone (state : State) (event : Event) (_ : State) : Prop :=
  event = .alert → state.alert.pending = none → state.logger.pending = none

/-- One task at most is inside `UARTprintf`, and the output is complete up to what it has left to
print. -/
def Serial (state : State) : Prop :=
  (state.alert.pending = none ∧
      Emitted state.uart.begun state.uart.output state.logger.pending) ∨
    (state.logger.pending = none ∧
      Emitted state.uart.begun state.uart.output state.alert.pending)

variable {state next : State}

theorem Serial.intactOutput (hserial : Serial state) : state.IntactOutput := by
  rcases hserial with ⟨halert, hemitted⟩ | ⟨hlogger, hemitted⟩
  · exact ⟨.inr halert, hemitted.intact⟩
  · exact ⟨.inl hlogger, hemitted.intact⟩

/-- While the alert task is not printing, the output is complete up to what the logger has left. -/
theorem Serial.emitted (hserial : Serial state) (halert : state.alert.pending = none) :
    Emitted state.uart.begun state.uart.output state.logger.pending := by
  rcases hserial with ⟨-, hemitted⟩ | ⟨hlogger, hemitted⟩
  · exact hemitted
  · rw [hlogger, ← halert]
    exact hemitted

/-- A step of the logger leaves the output complete up to what it has left. -/
theorem Serial.loggerTaskCode (hserial : Serial state) (halert : state.alert.pending = none) :
    Serial (Firmware.loggerTaskCode state) := by
  have hemitted := hserial.emitted halert
  unfold Firmware.loggerTaskCode
  split
  case h_1 hlogger =>
    rw [hlogger] at hemitted
    split
    · exact .inl ⟨halert, hemitted⟩
    · exact .inl ⟨halert, hemitted.start _⟩
  case h_2 hlogger =>
    rw [hlogger] at hemitted
    exact .inl ⟨halert, hemitted.put⟩
  case h_3 hlogger =>
    rw [hlogger] at hemitted
    exact .inl ⟨halert, hemitted.finish⟩
  case h_4 hlogger =>
    rw [hlogger] at hemitted
    split
    · exact .inl ⟨halert, hemitted⟩
    · exact .inl ⟨halert, hemitted.start _⟩
  case h_5 hlogger =>
    rw [hlogger] at hemitted
    exact .inl ⟨halert, hemitted.put⟩
  case h_6 hlogger =>
    rw [hlogger] at hemitted
    exact .inl ⟨halert, hemitted.finish⟩

/-- A step of the alert task leaves the output complete up to what it has left. Assumes: it does not
start while the logger is printing. -/
theorem Serial.alertTaskCode (hserial : Serial state)
    (halone : state.alert.pending = none → state.logger.pending = none)
    (hstep : Firmware.alertTaskCode state = some next) : Serial next := by
  have hemitted : state.logger.pending = none ∧
      Emitted state.uart.begun state.uart.output state.alert.pending := by
    rcases hserial with ⟨halert, hemitted⟩ | hprinting
    · rw [halone halert] at hemitted
      rw [halert]
      exact ⟨halone halert, hemitted⟩
    · exact hprinting
  obtain ⟨hlogger, hemitted⟩ := hemitted
  unfold Firmware.alertTaskCode at hstep
  split at hstep
  case h_1 halert =>
    rw [halert] at hemitted
    split_ifs at hstep
    cases hstep
    exact .inr ⟨hlogger, hemitted.start _⟩
  case h_2 halert =>
    rw [halert] at hemitted
    cases hstep
    exact .inr ⟨hlogger, hemitted.put⟩
  case h_3 halert =>
    rw [halert] at hemitted
    cases hstep
    exact .inr ⟨hlogger, hemitted.finish⟩

/-- A pass of the temperature task notifies the alert task of a high reading and holds the record
that it will send. -/
theorem tempTaskSample_cases {reading : Reading} {timestamp : UInt32}
    (hstep : tempTaskSample reading timestamp state = some next) :
    next = { state with
      notification :=
        if (pass reading timestamp).notifies then state.notification + 1 else state.notification
      sending := some (pass reading timestamp).txLog } := by
  unfold tempTaskSample at hstep
  split at hstep
  · exact (Option.some.inj hstep).symm
  · simp at hstep

/-- The send of the temperature task puts the record into its queue and does nothing else. -/
theorem tempTaskSend_cases (hstep : tempTaskSend state = some next) :
    ∃ log, state.sending = some log ∧
      next = { state with xQueueTemp := xQueueSend state.xQueueTemp log, sending := none } := by
  unfold tempTaskSend at hstep
  split at hstep
  · simp at hstep
  · rename_i log hlog
    exact ⟨log, hlog, (Option.some.inj hstep).symm⟩

/-- A step of another task leaves the printing tasks and the UART alone. -/
theorem lowerStep_frame {event : Event} (hevent : event ≠ .logger)
    (hstep : lowerStep state event = some next) :
    next.uart = state.uart ∧ next.logger = state.logger ∧ next.alert = state.alert := by
  cases event with
  | logger => exact absurd rfl hevent
  | alert => cases hstep
  | sample reading timestamp =>
    rw [tempTaskSample_cases hstep]
    exact ⟨rfl, rfl, rfl⟩
  | sendTemp =>
    obtain ⟨log, -, rfl⟩ := tempTaskSend_cases hstep
    exact ⟨rfl, rfl, rfl⟩
  | toggle timestamp =>
    cases hstep
    exact ⟨rfl, rfl, rfl⟩

/-- A step of a task of the lower priority leaves the output complete up to what is left. -/
theorem Serial.lowerStep {event : Event} (hserial : Serial state)
    (halert : state.alert.pending = none)
    (hstep : Firmware.lowerStep state event = some next) : Serial next := by
  by_cases hlogger : event = .logger
  · rw [hlogger] at hstep
    cases hstep
    exact hserial.loggerTaskCode halert
  · obtain ⟨huart, hstage, halertStage⟩ := lowerStep_frame hlogger hstep
    unfold Serial
    rw [huart, hstage, halertStage]
    exact hserial

/-- A step of another task than the alert task is one of the lower priority, while the alert task is
not printing. -/
theorem lowerStep_of_step {event : Event} (hevent : event ≠ .alert)
    (hstep : tasks.step state event = some next) :
    state.alert.pending = none ∧ lowerStep state event = some next := by
  have hlower : (if state.alert.pending = none then lowerStep state event else none) =
      some next := by
    cases event with
    | alert => exact absurd rfl hevent
    | _ => exact hstep
  split_ifs at hlower with hwaiting
  exact ⟨hwaiting, hlower⟩

/-- Every step leaves the output complete up to what is left. Assumes: the alert task does not start
while the logger is printing. -/
theorem Serial.step {event : Event} (hserial : Serial state)
    (hstep : tasks.step state event = some next) (halone : StartsAlone state event next) :
    Serial next := by
  by_cases halert : event = .alert
  · rw [halert] at hstep
    exact hserial.alertTaskCode (halone halert) hstep
  · obtain ⟨hwaiting, hlower⟩ := lowerStep_of_step halert hstep
    exact hserial.lowerStep hwaiting hlower

/-- When the alert task starts while the logger is printing, both are inside `UARTprintf`. -/
theorem not_intactOutput_of_not_startsAlone {event : Event}
    (hstep : tasks.step state event = some next) (halone : ¬ StartsAlone state event next) :
    ¬ next.IntactOutput := by
  unfold StartsAlone at halone
  push Not at halone
  obtain ⟨rfl, halert, hlogger⟩ := halone
  change alertTaskCode state = some next at hstep
  unfold alertTaskCode at hstep
  split at hstep
  case h_1 =>
    split_ifs at hstep
    cases hstep
    rintro ⟨hnone | hnone, -⟩
    · exact hlogger hnone
    · cases hnone
  case h_2 hprinting =>
    rw [hprinting] at halert
    cases halert
  case h_3 hprinting =>
    rw [hprinting] at halert
    cases halert

theorem serial_initial : Serial tasks.initial := .inl ⟨rfl, rfl⟩

/-- **The messages are not interleaved exactly when the alert task starts alone.** For every
schedule of the tasks. -/
theorem alwaysIntact_iff_startsAlone (events : List Event) :
    AlwaysIntact events ↔ tasks.Along StartsAlone tasks.initial events := by
  have hagree : ∀ state event next, Serial state → tasks.step state event = some next →
      (StartsAlone state event next ↔ next.IntactOutput) := by
    intro state event next hserial hstep
    constructor
    · intro halone
      exact (hserial.step hstep halone).intactOutput
    · intro hintact
      by_contra halone
      exact not_intactOutput_of_not_startsAlone hstep halone hintact
  unfold AlwaysIntact
  rw [System.forall_prefix_iff, System.along_iff_of_invariant hagree
    (fun _ _ _ hserial hstep halone ↦ hserial.step hstep halone) serial_initial events]
  exact and_iff_right serial_initial.intactOutput

/-- A reading of 25 degrees is sent and the logger starts to print it; a reading of 28 degrees
notifies the alert task, which prints its first character after the first one of the logger. -/
theorem alert_interleaved : ¬ ∀ events, AlwaysIntact events := by
  intro hintact
  have hrun : (tasks.run tasks.initial [.sample ⟨25, 0⟩ 0, .sendTemp, .logger, .logger,
      .sample ⟨28, 0⟩ 1000, .alert, .alert]).any (fun state ↦
        state.uart.output.length < state.uart.begun.dropLast.flatten.length) = true := by
    decide +kernel
  obtain ⟨state, hstate, hlength⟩ := (Option.any_eq_true _ _).mp hrun
  have hwhole := (hintact _ _ state List.prefix_rfl hstate).2.length_le
  exact absurd hwhole (Nat.not_le_of_lt (of_decide_eq_true hlength))

/-! ### When the high readings come -/

/-- The next step of the logger begins a message. -/
def State.BeginsMessage (state : State) : Prop :=
  state.logger.pending = none ∧ (loggerTaskCode state).logger.pending ≠ none

/-- No high reading is taken while the logger is printing, and the logger begins no message while
the alert task is notified. -/
def Quiet (state : State) (event : Event) (_ : State) : Prop :=
  (∀ reading timestamp, event = .sample reading timestamp →
      (pass reading timestamp).notifies = true → state.logger.pending = none) ∧
    (event = .logger → state.BeginsMessage → state.notification = 0)

/-- The alert task runs as soon as it can: no other task steps while it is notified or printing. -/
def Prompt (state : State) (event : Event) (_ : State) : Prop :=
  event ≠ .alert → state.alert.pending = none ∧ state.notification = 0

/-- A step of the logger leaves the notification value alone. -/
theorem notification_loggerTaskCode (state : State) :
    (loggerTaskCode state).notification = state.notification := by
  unfold loggerTaskCode
  split
  case h_1 => split <;> rfl
  case h_4 => split <;> rfl
  all_goals rfl

/-- A task of the lower priority leaves the alert task notified exactly when it takes a high
reading. Assumes: the alert task was not notified before. -/
theorem notified_iff_high {event : Event} (hidle : state.notification = 0)
    (hstep : lowerStep state event = some next) :
    0 < next.notification ↔ ∃ reading timestamp, event = .sample reading timestamp ∧
      (pass reading timestamp).notifies = true := by
  have hother : next.notification = state.notification →
      (∀ reading timestamp, event ≠ .sample reading timestamp) →
      (0 < next.notification ↔ ∃ reading timestamp, event = .sample reading timestamp ∧
        (pass reading timestamp).notifies = true) := by
    intro hsame hevent
    refine iff_of_false (by omega) ?_
    rintro ⟨reading, timestamp, hsample, -⟩
    exact hevent reading timestamp hsample
  cases event with
  | logger =>
    cases hstep
    exact hother (notification_loggerTaskCode state) (by simp)
  | alert => cases hstep
  | sample reading timestamp =>
    rw [tempTaskSample_cases hstep]
    dsimp only
    by_cases hhigh : (pass reading timestamp).notifies = true
    · rw [if_pos hhigh]
      exact iff_of_true (Nat.succ_pos _) ⟨reading, timestamp, rfl, hhigh⟩
    · rw [if_neg hhigh]
      refine iff_of_false (by omega) ?_
      rintro ⟨_, _, ⟨⟩, hnotifies⟩
      exact hhigh hnotifies
  | sendTemp =>
    obtain ⟨log, -, rfl⟩ := tempTaskSend_cases hstep
    exact hother rfl (by simp)
  | toggle timestamp =>
    cases hstep
    exact hother rfl (by simp)

/-- A step of the alert task leaves the logger alone; it starts only when it has been notified, and
clears the notification value. -/
theorem alertTaskCode_frame (hstep : alertTaskCode state = some next) :
    next.logger = state.logger ∧
      (next.notification = 0 ∨ next.notification = state.notification) ∧
      (state.alert.pending = none → 0 < state.notification) := by
  unfold alertTaskCode at hstep
  split at hstep
  case h_1 =>
    split_ifs at hstep with hnotified
    cases hstep
    exact ⟨rfl, .inl rfl, fun _ ↦ hnotified⟩
  case h_2 halert =>
    cases hstep
    rw [halert]
    exact ⟨rfl, .inr rfl, fun hnone ↦ absurd hnone (Option.some_ne_none _)⟩
  case h_3 halert =>
    cases hstep
    rw [halert]
    exact ⟨rfl, .inr rfl, fun hnone ↦ absurd hnone (Option.some_ne_none _)⟩

/-- A quiet step leaves the logger outside `UARTprintf` while the alert task is notified. -/
theorem pending_of_quiet {event : Event} (hstep : tasks.step state event = some next)
    (hstate : 0 < state.notification → state.logger.pending = none)
    (hquiet : Quiet state event next) (hnotified : 0 < next.notification) :
    next.logger.pending = none := by
  by_cases halert : event = .alert
  · rw [halert] at hstep
    obtain ⟨hlogger, hvalue, -⟩ := alertTaskCode_frame hstep
    rw [hlogger]
    exact hstate (by omega)
  obtain ⟨-, hlower⟩ := lowerStep_of_step halert hstep
  by_cases hlogger : event = .logger
  · subst hlogger
    cases hlower
    rw [notification_loggerTaskCode] at hnotified
    by_contra hprinting
    have hserved := hquiet.2 rfl ⟨hstate hnotified, hprinting⟩
    omega
  · obtain ⟨-, hstage, -⟩ := lowerStep_frame hlogger hlower
    rw [hstage]
    by_cases hidle : state.notification = 0
    · obtain ⟨reading, timestamp, hsample, hhigh⟩ := (notified_iff_high hidle hlower).mp hnotified
      exact hquiet.1 reading timestamp hsample hhigh
    · exact hstate (Nat.pos_of_ne_zero hidle)

/-- In a quiet schedule the alert task starts alone: it has been notified, and the logger is outside
`UARTprintf` as long as it is. -/
theorem startsAlone_of_quiet {events : List Event}
    (hquiet : tasks.Along Quiet tasks.initial events) :
    tasks.Along StartsAlone tasks.initial events := by
  have hagree : ∀ (state : State) (event : Event) (next : State),
      (0 < state.notification → state.logger.pending = none) →
      tasks.step state event = some next →
      (Quiet state event next ↔ Quiet state event next ∧ StartsAlone state event next) := by
    intro state event next hstate hstep
    refine (and_iff_left_of_imp fun _ ↦ ?_).symm
    rintro rfl halert
    exact hstate ((alertTaskCode_frame hstep).2.2 halert)
  have hboth := (System.along_iff_of_invariant hagree
    (fun _ _ _ hstate hstep hquiet ↦ pending_of_quiet hstep hstate hquiet) (fun _ ↦ rfl)
    events).mp hquiet
  exact ((System.along_and events).mp hboth).2

/-- A run that is prompt and serves a notification made while the logger is printing does not start
the alert task alone. -/
theorem not_startsAlone_of_notified {events : List Event} {final : State}
    (hprompt : tasks.Along Prompt state events) (hrun : tasks.run state events = some final)
    (hserved : final.notification = 0) (hnotified : 0 < state.notification)
    (halert : state.alert.pending = none) (hlogger : state.logger.pending ≠ none) :
    ¬ tasks.Along StartsAlone state events := by
  intro halone
  cases events with
  | nil =>
    obtain rfl : state = final := Option.some.inj hrun
    omega
  | cons event rest =>
    rw [System.run_cons, Option.bind_eq_some_iff] at hrun
    obtain ⟨next, hstep, -⟩ := hrun
    have hfirst := ((System.along_cons hstep rest).mp hprompt).1
    by_cases hevent : event = .alert
    · exact hlogger (((System.along_cons hstep rest).mp halone).1 hevent halert)
    · have hidle := (hfirst hevent).2
      omega

/-- Along a prompt run that serves all notifications, the alert task starts alone exactly when the
run is quiet. Assumes: at the start the logger is not printing when the alert task is notified. -/
theorem startsAlone_iff_quiet {events : List Event} {final : State}
    (hprompt : tasks.Along Prompt state events) (hrun : tasks.run state events = some final)
    (hserved : final.notification = 0)
    (hnotified : 0 < state.notification → state.logger.pending = none) :
    tasks.Along StartsAlone state events ↔ tasks.Along Quiet state events := by
  induction events generalizing state with
  | nil => exact Iff.rfl
  | cons event rest ih =>
    rw [System.run_cons, Option.bind_eq_some_iff] at hrun
    obtain ⟨next, hstep, hrest⟩ := hrun
    rw [System.along_cons hstep] at hprompt ⊢
    rw [System.along_cons hstep]
    obtain ⟨hfirst, hlater⟩ := hprompt
    by_cases hevent : event = .alert
    · subst hevent
      obtain ⟨hlogger, hvalue, hstart⟩ := alertTaskCode_frame hstep
      have hnext : 0 < next.notification → next.logger.pending = none := by
        rw [hlogger]
        intro hpositive
        exact hnotified (by omega)
      have halone : StartsAlone state .alert next := fun _ halert ↦ hnotified (hstart halert)
      have hquiet : Quiet state .alert next :=
        ⟨fun _ _ hsample ↦ absurd hsample (by simp), fun hlogger ↦ absurd hlogger (by simp)⟩
      rw [and_iff_right halone, and_iff_right hquiet]
      exact ih hlater hrest hnext
    · obtain ⟨halert, hidle⟩ := hfirst hevent
      have hlower := (lowerStep_of_step hevent hstep).2
      have halone : StartsAlone state event next := fun hsame ↦ absurd hsame hevent
      rw [and_iff_right halone]
      have hnext := notified_iff_high hidle hlower
      by_cases hhigh : ∃ reading timestamp, event = .sample reading timestamp ∧
          (pass reading timestamp).notifies = true
      · have hpositive := hnext.mpr hhigh
        obtain ⟨reading, timestamp, rfl, hnotifies⟩ := hhigh
        obtain ⟨-, hlogger, halertNext⟩ := lowerStep_frame (by simp) hlower
        by_cases hprinting : state.logger.pending = none
        · have hquiet : Quiet state (.sample reading timestamp) next :=
            ⟨fun _ _ _ _ ↦ hprinting, fun _ _ ↦ hidle⟩
          rw [and_iff_right hquiet]
          exact ih hlater hrest fun _ ↦ hlogger ▸ hprinting
        · refine iff_of_false ?_ fun hboth ↦ hprinting (hboth.1.1 reading timestamp rfl hnotifies)
          exact not_startsAlone_of_notified hlater hrest hserved hpositive (halertNext ▸ halert)
            (hlogger ▸ hprinting)
      · have hquiet : Quiet state event next := by
          refine ⟨fun reading timestamp hsample hnotifies ↦ ?_, fun _ _ ↦ hidle⟩
          exact absurd ⟨reading, timestamp, hsample, hnotifies⟩ hhigh
        rw [and_iff_right hquiet]
        exact ih hlater hrest fun hpositive ↦ absurd (hnext.mp hpositive) hhigh

/-- **The messages are not interleaved when no high reading comes in the middle of one.** For every
schedule of the tasks, every sequence of readings and of toggles: at most one task is inside
`UARTprintf` and the output is intact in every state, when no high reading is taken while the logger
is printing and the logger begins no message while the alert task is notified. When the alert task
preempts at once and has served all notifications at the end, this is exactly when it is so. For
schedules in general it is exactly so when the alert task never starts while the logger is
printing. -/
theorem intactOutput_iff (events : List Event) :
    (tasks.Along Quiet tasks.initial events → AlwaysIntact events) ∧
    (∀ final, tasks.Along Prompt tasks.initial events →
      tasks.run tasks.initial events = some final → final.notification = 0 →
      (AlwaysIntact events ↔ tasks.Along Quiet tasks.initial events)) ∧
    (AlwaysIntact events ↔ tasks.Along StartsAlone tasks.initial events) := by
  have halone := alwaysIntact_iff_startsAlone events
  refine ⟨fun hquiet ↦ halone.mpr (startsAlone_of_quiet hquiet), ?_, halone⟩
  intro final hprompt hrun hserved
  exact halone.trans (startsAlone_iff_quiet hprompt hrun hserved fun _ ↦ rfl)

end Apes.Firmware
