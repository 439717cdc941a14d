import Apes.Firmware.Board
import Apes.Library.Response

/-!
# The alerts, `tempSensor.c`

The temperature task notifies the alert task of every sample above the threshold, and the alert task
prints a message when it returns from `ulTaskNotifyTake`. The notification value counts, but the
alert task clears it: notifications that come together, or while a message is printed, share the
next message. `alerts_answered` says that nothing worse happens, in any interleaving: there are no
more messages than samples above the threshold, and while the alert task is blocked every such
sample of which it has been notified is followed by a message.

The invariant is `Alerting.Sound`. A sample above the threshold is on its way to a message while the
temperature task is to compare it, while the notification value holds it, and while the alert task
has taken it; and as soon as none is pending or taken, every notification has been answered.
-/

set_option autoImplicit false
set_option relaxedAutoImplicit false

namespace Apes.Firmware

open Library

variable {driver : PinDriver} {board next : Board} {event : BoardEvent}

/-! ### The alerts -/

/-- The computed temperature is above `TEMPERATURE_THRESHOLD`. -/
def Reading.High (reading : Reading) : Prop := (temperatureThreshold : ℚ) < readTemp reading

instance (reading : Reading) : Decidable reading.High :=
  inferInstanceAs (Decidable ((temperatureThreshold : ℚ) < readTemp reading))

/-- The entry is a sample above the threshold. -/
def Mark.highSample : Mark → Bool
  | .sampled reading => decide reading.High
  | _ => false

/-- The alert task is blocked in `ulTaskNotifyTake`, with a notification value of zero. -/
def Board.Blocked (board : Board) : Prop :=
  board.alert = .waiting ∧ board.alertTaken = false ∧ board.notification = 0

instance (board : Board) : Decidable board.Blocked :=
  inferInstanceAs (Decidable (_ ∧ _ ∧ _))

/-- What the alerts depend on: the stage of the temperature task, whether the alert task has
returned from `ulTaskNotifyTake`, the notification value, the number of alert messages, and the
history. -/
structure Alerting where
  tempStage : TempStage
  taken : Bool
  notification : ℕ
  messages : ℕ
  history : List Mark

/-- The alerts of the board. -/
def Board.alerting (board : Board) : Alerting where
  tempStage := board.tempStage
  taken := board.alertTaken
  notification := board.notification
  messages := board.uart.begun.count alertMessage
  history := board.history

/-- The temperature task is about to notify the alert task. -/
def TempStage.due : TempStage → ℕ
  | .compare temp => if binary32.round temperatureThreshold < temp then 1 else 0
  | _ => 0

/-- The messages and what is on its way to one do not outnumber the samples above the threshold, and
when nothing is pending or taken every notification has been answered. -/
structure Alerting.Sound (alerting : Alerting) : Prop where
  bounded : alerting.messages + (if alerting.taken then 1 else 0) + alerting.notification +
    alerting.tempStage.due ≤ alerting.history.countP Mark.highSample
  answered : alerting.taken = false → alerting.notification = 0 →
    Responds (· = Mark.notified) (· = Mark.begun) alerting.history

/-! ### The messages of the logger -/

/-- A message that does not begin like the alert message is another one. -/
theorem ne_alertMessage {start message : List Char} (hstart : start <+: message)
    (hother : ¬ start <+: alertMessage) : message ≠ alertMessage := by
  intro hequal
  rw [hequal] at hstart
  exact hother hstart

/-- The messages of the logger do not begin like the alert message. -/
theorem tempMessage_ne_alertMessage (log : TempLog) : tempMessage log ≠ alertMessage := by
  have hstart : "\n\n<".toList <+: tempMessage log := by
    unfold tempMessage
    simp only [List.append_assoc]
    exact List.prefix_append _ _
  exact ne_alertMessage hstart (by decide)

theorem ledMessage_ne_alertMessage (log : LedLog) : ledMessage log ≠ alertMessage := by
  have hstart : "\n<".toList <+: ledMessage log := by
    unfold ledMessage
    simp only [List.append_assoc]
    exact List.prefix_append _ _
  exact ne_alertMessage hstart (by decide)

/-- A message that is not the alert message leaves their number alone. -/
theorem count_start {message : List Char} (hmessage : message ≠ alertMessage) (uart : Uart) :
    (uart.start message).begun.count alertMessage = uart.begun.count alertMessage := by
  have hother : alertMessage ∉ [message] := by
    rw [List.mem_singleton]
    exact hmessage.symm
  change (uart.begun ++ [message]).count alertMessage = _
  rw [List.count_append, List.count_eq_zero_of_not_mem hother, Nat.add_zero]

/-- A step of the logger begins no alert message. -/
theorem count_loggerTaskCode (state : State) :
    (loggerTaskCode state).uart.begun.count alertMessage =
      state.uart.begun.count alertMessage := by
  obtain ⟨uart, logger, alert, notification, sending, toggleCount, xQueueTemp, xQueueLed⟩ := state
  cases logger with
  | receiveTemp =>
    cases xQueueTemp with
    | nil => rfl
    | cons log rest => exact count_start (tempMessage_ne_alertMessage log) uart
  | printTemp rest => cases rest <;> rfl
  | receiveLed =>
    cases xQueueLed with
    | nil => rfl
    | cons log rest => exact count_start (ledMessage_ne_alertMessage log) uart
  | printLed rest => cases rest <;> rfl

/-! ### The steps -/

/-- The comparison of the code is the one with the threshold. -/
theorem due_compare (reading : Reading) :
    (TempStage.compare (readTemp reading)).due = if reading.High then 1 else 0 := by
  rw [TempStage.due, round_temperatureThreshold]
  rfl

namespace Alerting.Sound

variable {alerting : Alerting}

/-- A sample is taken. -/
theorem sample (hsound : alerting.Sound) (hstage : alerting.tempStage = .read)
    (reading : Reading) :
    Sound { alerting with
      tempStage := .compare (readTemp reading)
      history := alerting.history ++ [.sampled reading] } := by
  obtain ⟨hbounded, hanswered⟩ := hsound
  rw [hstage] at hbounded
  constructor
  · dsimp only
    rw [due_compare, List.countP_append, List.countP_singleton, Mark.highSample]
    simp only [decide_eq_true_eq]
    exact Nat.add_le_add_right hbounded _
  · exact fun htaken hnone ↦ (hanswered htaken hnone).append (by simp)

/-- The alert task is notified of a high sample. -/
theorem notify {temp : ℚ} (hsound : alerting.Sound) (hstage : alerting.tempStage = .compare temp)
    (hhigh : binary32.round temperatureThreshold < temp) :
    Sound { alerting with
      tempStage := .stamp temp
      notification := alerting.notification + 1
      history := alerting.history ++ [.notified] } := by
  have hbounded := hsound.bounded
  have hdue : (TempStage.compare temp).due = 1 := if_pos hhigh
  rw [hstage, hdue] at hbounded
  constructor
  · dsimp only
    rw [List.countP_append]
    exact hbounded
  · exact fun _ hnone ↦ absurd hnone (Nat.succ_ne_zero _)

/-- The temperature task goes on without a sample on its way. -/
theorem moveOn {stage : TempStage} (hsound : alerting.Sound) (hbefore : alerting.tempStage.due = 0)
    (hafter : stage.due = 0) : Sound { alerting with tempStage := stage } := by
  have hbounded := hsound.bounded
  rw [hbefore.trans hafter.symm] at hbounded
  exact ⟨hbounded, hsound.answered⟩

/-- The alert task returns with the notifications. -/
theorem take (hsound : alerting.Sound) (htaken : alerting.taken = false)
    (hnotified : 0 < alerting.notification) :
    Sound { alerting with
      taken := true
      notification := 0 } := by
  have hbounded := hsound.bounded
  rw [htaken, if_neg Bool.false_ne_true] at hbounded
  constructor
  · dsimp only
    rw [if_pos rfl]
    omega
  · exact fun hnot ↦ absurd hnot (Bool.noConfusion)

/-- The alert task begins a message. -/
theorem begin (hsound : alerting.Sound) (htaken : alerting.taken = true) :
    Sound { alerting with
      taken := false
      messages := alerting.messages + 1
      history := alerting.history ++ [.begun] } := by
  have hbounded := hsound.bounded
  rw [htaken, if_pos rfl] at hbounded
  constructor
  · dsimp only
    rw [List.countP_append]
    exact hbounded
  · exact fun _ _ ↦ responds_append_answer _ (by simp) rfl

/-- A step of the temperature task takes a sample, notifies the alert task, or leaves the alerts
alone. -/
theorem tempTaskCode {reading : Reading} {now : UInt32} (hsound : board.alerting.Sound)
    (hstep : board.tempTaskCode reading now = some next) : next.alerting.Sound := by
  unfold Board.tempTaskCode at hstep
  split at hstep
  case h_1 hstage =>
    obtain ⟨left, -, rfl⟩ := Option.map_eq_some_iff.mp hstep
    exact hsound.moveOn (congrArg TempStage.due hstage) rfl
  case h_2 hstage =>
    cases hstep
    exact hsound.sample hstage reading
  case h_3 temp hstage =>
    split_ifs at hstep with hhigh
    · cases hstep
      exact hsound.notify hstage hhigh
    · cases hstep
      exact hsound.moveOn ((congrArg TempStage.due hstage).trans (if_neg hhigh)) rfl
  case h_4 temp hstage =>
    cases hstep
    exact hsound.moveOn (congrArg TempStage.due hstage) rfl
  case h_5 hstage =>
    obtain ⟨final, hsend, rfl⟩ := Option.map_eq_some_iff.mp hstep
    obtain ⟨log, -, rfl⟩ := tempTaskSend_cases hsend
    exact hsound.moveOn (congrArg TempStage.due hstage) rfl

/-- A step of the alert task begins a message, takes the notifications, or leaves the alerts
alone. -/
theorem alertTaskCode (hsound : board.alerting.Sound) (hstep : board.alertTaskCode = some next) :
    next.alerting.Sound := by
  obtain ⟨htaken, rfl⟩ | ⟨htaken, -, hnotified, rfl⟩ | ⟨-, uart, alert, hbegun, rfl⟩ :=
    alertTaskCode_cases hstep
  · have hnext := hsound.begin htaken
    unfold Board.alerting at hnext ⊢
    dsimp only [Uart.start] at hnext ⊢
    rw [List.count_append, List.count_singleton_self]
    exact hnext
  · exact hsound.take htaken hnotified
  · unfold Board.alerting at hsound ⊢
    dsimp only at hsound ⊢
    rw [hbegun]
    exact hsound

end Alerting.Sound

/-- A step of the LED task leaves the alerts alone. -/
theorem alerting_ledTaskCode {now : UInt32} (hstep : board.ledTaskCode driver now = some next) :
    next.alerting = board.alerting := by
  unfold Board.ledTaskCode at hstep
  split at hstep
  case h_1 =>
    obtain ⟨left, -, rfl⟩ := Option.map_eq_some_iff.mp hstep
    rfl
  all_goals
    cases hstep
    rfl

/-- A step of the logger leaves the alerts alone. -/
theorem alerting_loggerTaskCode (board : Board) :
    board.loggerTaskCode.alerting = board.alerting := by
  obtain ⟨-, -, hnotification, -⟩ := loggerTaskCode_frame board.toState
  unfold Board.alerting Board.loggerTaskCode
  dsimp only
  rw [hnotification, count_loggerTaskCode]

/-- Every step keeps the invariant. -/
theorem Alerting.Sound.step (hsound : board.alerting.Sound)
    (hstep : (firmware driver).step board event = some next) : next.alerting.Sound := by
  cases event with
  | ledTimer =>
    cases hstep
    exact hsound
  | tempTimer =>
    cases hstep
    exact hsound
  | led now =>
    rw [alerting_ledTaskCode hstep]
    exact hsound
  | temp reading now => exact hsound.tempTaskCode hstep
  | logger =>
    cases hstep
    rw [alerting_loggerTaskCode]
    exact hsound
  | alert => exact hsound.alertTaskCode hstep

/-- **No alert is lost or invented.** For every sequence of samples and every interleaving of the
tasks and the timers: there are no more alert messages than samples above the threshold, and while
the alert task is blocked, every sample above the threshold of which it has been notified is
followed by the start of a message. -/
theorem alerts_answered (hreach : (firmware driver).Reachable board) :
    board.uart.begun.count alertMessage ≤ board.history.countP Mark.highSample ∧
      (board.Blocked → ∀ before reading after, board.history = before ++ .sampled reading :: after →
        reading.High → .notified ∈ after → .begun ∈ after) := by
  have hsound : board.alerting.Sound := by
    refine hreach.invariant ?_ ?_
    · exact ⟨Nat.le_refl 0, fun _ _ ↦ trivial⟩
    · exact fun _ _ _ hsound hstep ↦ hsound.step hstep
  constructor
  · have hbounded := hsound.bounded
    change board.uart.begun.count alertMessage + _ + _ + _ ≤ board.history.countP _ at hbounded
    omega
  · rintro ⟨-, htaken, hnone⟩ before reading after hhistory - hnotified
    have hanswered := hsound.answered htaken hnone
    change Responds _ _ board.history at hanswered
    obtain ⟨between, rest, rfl⟩ := List.append_of_mem hnotified
    rw [hhistory, ← List.cons_append, ← List.append_assoc] at hanswered
    obtain ⟨other, hmem, rfl⟩ := hanswered.exists_answer rfl
    exact List.mem_append_right _ (List.mem_cons_of_mem _ hmem)

/-- Two samples above the threshold, of 28 and 29 degrees, share one message. -/
theorem alerts_answered_shared : ∃ board : Board, (firmware maskedWrite).Reachable board ∧
    board.Blocked ∧ board.uart.begun.count alertMessage = 1 ∧
      1 ≤ board.history.countP Mark.highSample ∧
      .begun ∈ [Mark.notified, .sampled ⟨29, 0⟩, .notified, .begun] := by
  have hrun : ((firmware maskedWrite).run (firmware maskedWrite).initial
      (List.replicate 5 (BoardEvent.temp ⟨28, 0⟩ 0) ++ BoardEvent.tempTimer ::
        List.replicate 3 (BoardEvent.temp ⟨29, 0⟩ 1000) ++
          List.replicate (alertMessage.length + 3) BoardEvent.alert)).any (fun board ↦
      board.Blocked ∧ board.uart.begun.count alertMessage = 1 ∧ board.history =
        [.sampled ⟨28, 0⟩, .notified, .sampled ⟨29, 0⟩, .notified, .begun]) = true := by
    decide +kernel
  obtain ⟨board, hboard, hfinal⟩ := (Option.any_eq_true _ _).mp hrun
  obtain ⟨hblocked, hmessages, hhistory⟩ := of_decide_eq_true hfinal
  have hreach := System.reachable_of_run hboard
  have hhigh : Reading.High ⟨28, 0⟩ := by decide +kernel
  obtain ⟨hbounded, hanswered⟩ := alerts_answered hreach
  rw [hmessages] at hbounded
  exact ⟨board, hreach, hblocked, hmessages, hbounded,
    hanswered hblocked [] ⟨28, 0⟩ _ hhistory hhigh (by simp)⟩

end Apes.Firmware
