import Apes.Firmware.Board

/-!
# The LED pipeline, `LED.c` and `logger.c`

The callbacks of the LED timer give a semaphore, the LED task takes it, shows the next pattern,
counts the toggle and sends a record, and the logger receives the records. The callbacks coalesce in
the semaphore, the send does not wait and may drop its record, and the task may be preempted
anywhere. What is conserved all the same is `LedConserved`: the toggles do not outnumber the
callbacks and the first semaphore, every toggle has its record, the LEDs show the parity of the
count whenever the task waits, and the logger receives the records in order.

The invariant is indexed by the stage of the LED task. `Triggered` counts a semaphore that is taken
and whose toggle is not yet counted, `Accounted` a toggle that is counted and whose record is not
yet sent, and `Shown` how far each LED is with its variable and its pin. Each has one lemma for the
steps of the LED task, by its stages, and one for the other events. `ledConserved_of_reachable` is
the result for all interleavings.
-/

set_option autoImplicit false
set_option relaxedAutoImplicit false

namespace Apes.Firmware

open Library

variable {driver : PinDriver} {board next : Board} {event : BoardEvent}

/-! ### What is conserved -/

/-- LED1 is lit. -/
def Board.Led1Lit (board : Board) : Prop := board.gpioPortN &&& led1Pin ≠ 0

/-- LED2 is lit. -/
def Board.Led2Lit (board : Board) : Prop := board.gpioPortN &&& led2Pin ≠ 0

/-- There are fewer than `2 ^ 32` toggles: the count does not wrap. -/
def FewToggles (board : Board) (event : BoardEvent) : Prop :=
  ∀ now, event = .led now → board.ledStage = .count → board.toggleCount.toNat + 1 < 2 ^ 32

instance (board : Board) (event : BoardEvent) : Decidable (FewToggles board event) :=
  match event with
  | .led now =>
    decidable_of_iff (board.ledStage = .count → board.toggleCount.toNat + 1 < 2 ^ 32)
      ⟨fun hfew _ _ ↦ hfew, fun hfew ↦ hfew now rfl⟩
  | .ledTimer | .tempTimer | .temp _ _ | .logger | .alert => .isTrue (by rintro now ⟨⟩)

/-- The accounts of the pipeline: the toggles and the semaphore against the callbacks; while the LED
task waits for its semaphore, the records against the toggles and the LEDs against the parity of the
count; the order of the records at the logger; and the state of the queue when a record is
dropped. -/
structure LedConserved (driver : PinDriver) (board : Board) : Prop where
  callbacks : board.toggleCount.toNat + board.ledSempahore ≤ board.ledCallbacks + 1
  records : board.ledStage = .take →
    board.received.length + board.xQueueLed.length + board.dropped.length =
      board.toggleCount.toNat
  parity : board.ledStage = .take → 1 ≤ board.toggleCount.toNat →
    (board.Led1Lit ↔ board.toggleCount.toNat % 2 = 0) ∧ (board.Led2Lit ↔ ¬ board.Led1Lit)
  increasing : (board.received.map LedLog.toggleCount).Pairwise (· < ·)
  full : ∀ event next, (firmware driver).step board event = some next →
    next.dropped ≠ board.dropped → board.xQueueLed.length = queueMaxSize

/-! ### The pipeline -/

/-- What the LED pipeline consists of. -/
structure Pipeline where
  stage : LedStage
  led1val : UInt8
  led2val : UInt8
  port : UInt8
  semaphore : ℕ
  callbacks : ℕ
  toggleCount : UInt32
  traffic : Traffic LedLog

/-- The LED pipeline of the board. -/
def Board.pipeline (board : Board) : Pipeline where
  stage := board.ledStage
  led1val := board.led1val
  led2val := board.led2val
  port := board.gpioPortN
  semaphore := board.ledSempahore
  callbacks := board.ledCallbacks
  toggleCount := board.toggleCount
  traffic := ⟨board.received, board.xQueueLed, board.dropped⟩

/-- A step of the temperature task leaves the LED pipeline alone. -/
theorem pipeline_tempTaskCode {reading : Reading} {now : UInt32}
    (hstep : board.tempTaskCode reading now = some next) : next.pipeline = board.pipeline := by
  unfold Board.tempTaskCode at hstep
  split at hstep
  case h_1 =>
    obtain ⟨left, -, rfl⟩ := Option.map_eq_some_iff.mp hstep
    rfl
  case h_3 =>
    split_ifs at hstep
    · cases hstep
      rfl
    · cases hstep
      rfl
  case h_5 =>
    obtain ⟨state, hsend, rfl⟩ := Option.map_eq_some_iff.mp hstep
    obtain ⟨log, -, rfl⟩ := tempTaskSend_cases hsend
    rfl
  all_goals
    cases hstep
    rfl

/-- A step of the alert task leaves the LED pipeline alone. -/
theorem pipeline_alertTaskCode (hstep : board.alertTaskCode = some next) :
    next.pipeline = board.pipeline := by
  obtain ⟨-, rfl⟩ | ⟨-, -, -, rfl⟩ | ⟨-, uart, alert, -, rfl⟩ := alertTaskCode_cases hstep
  all_goals rfl

/-- A step of the logger moves the front of the queue to what has been received. -/
theorem pipeline_loggerTaskCode (board : Board) :
    board.loggerTaskCode.pipeline = board.pipeline ∨
      ∃ log rest, board.xQueueLed = log :: rest ∧ board.loggerTaskCode.pipeline =
        { board.pipeline with traffic := ⟨board.received ++ [log], rest, board.dropped⟩ } := by
  obtain ⟨hcount, -, -, hqueue⟩ := loggerTaskCode_frame board.toState
  have hpipeline : board.loggerTaskCode.pipeline = { board.pipeline with
      traffic := ⟨board.received ++ Board.nextReceived board.toState,
        (loggerTaskCode board.toState).xQueueLed, board.dropped⟩ } := by
    unfold Board.loggerTaskCode Board.pipeline
    dsimp only
    rw [hcount]
  rw [hpipeline]
  unfold Board.nextReceived at hqueue ⊢
  split at hqueue
  case h_1 log rest hlogger hfront =>
    right
    rw [hfront] at hqueue ⊢
    have hrest : (loggerTaskCode board.toState).xQueueLed = rest := (List.cons.inj hqueue).2
    exact ⟨log, rest, rfl, by rw [hrest]⟩
  case h_2 =>
    left
    rw [List.nil_append] at hqueue
    rw [hqueue, List.append_nil]
    rfl

/-! ### The semaphore -/

/-- The semaphore is taken and its toggle not yet counted. -/
def LedStage.taken : LedStage → ℕ
  | .writeLed1 | .writeLed2 | .flipLed1 | .flipLed2 | .count => 1
  | _ => 0

namespace Pipeline

/-- The semaphore is binary, and the toggles counted, the one under way and the semaphore do not
outnumber the callbacks and the first semaphore. -/
structure Triggered (pipeline : Pipeline) : Prop where
  binary : pipeline.semaphore ≤ 1
  callbacks : pipeline.toggleCount.toNat + pipeline.stage.taken + pipeline.semaphore ≤
    pipeline.callbacks + 1

end Pipeline

/-- A count that does not wrap. -/
theorem toNat_succ {count : UInt32} (hcount : count.toNat + 1 < 2 ^ 32) :
    (count + 1).toNat = count.toNat + 1 := by
  rw [UInt32.toNat_add]
  exact Nat.mod_eq_of_lt hcount

/-- A callback gives the semaphore. -/
theorem Pipeline.Triggered.vLEDTimerCallBack (htriggered : board.pipeline.Triggered) :
    board.vLEDTimerCallBack.pipeline.Triggered := by
  obtain ⟨hbinary, hcallbacks⟩ := htriggered
  change board.ledSempahore ≤ 1 at hbinary
  change board.toggleCount.toNat + board.ledStage.taken + board.ledSempahore ≤
    board.ledCallbacks + 1 at hcallbacks
  constructor
  · change xSemaphoreGive board.ledSempahore ≤ 1
    unfold xSemaphoreGive
    split_ifs <;> omega
  · change board.toggleCount.toNat + board.ledStage.taken + xSemaphoreGive board.ledSempahore ≤
      board.ledCallbacks + 1 + 1
    unfold xSemaphoreGive
    split_ifs <;> omega

/-- A step of the LED task takes the semaphore, counts the toggle, or leaves both alone. -/
theorem Pipeline.Triggered.ledTaskCode {now : UInt32} (htriggered : board.pipeline.Triggered)
    (hfew : FewToggles board (.led now)) (hstep : board.ledTaskCode driver now = some next) :
    next.pipeline.Triggered := by
  obtain ⟨hbinary, hcallbacks⟩ := htriggered
  obtain ⟨state, stage, led1val, led2val, timestamp, semaphore, port, tempStage, tempSemaphore,
    alertTaken, callbacks, received, dropped, history⟩ := board
  cases stage with
  | take =>
    change semaphore ≤ 1 at hbinary
    change state.toggleCount.toNat + 0 + semaphore ≤ callbacks + 1 at hcallbacks
    obtain ⟨left, htake, rfl⟩ := Option.map_eq_some_iff.mp hstep
    change xSemaphoreTake semaphore = some left at htake
    unfold xSemaphoreTake at htake
    split_ifs at htake with hgiven
    obtain rfl := Option.some.inj htake
    constructor
    · change semaphore - 1 ≤ 1
      omega
    · change state.toggleCount.toNat + 1 + (semaphore - 1) ≤ callbacks + 1
      omega
  | count =>
    cases hstep
    refine ⟨hbinary, ?_⟩
    change (state.toggleCount + 1).toNat + 0 + semaphore ≤ callbacks + 1
    rw [toNat_succ (hfew now rfl rfl)]
    exact hcallbacks
  | _ =>
    cases hstep
    exact ⟨hbinary, hcallbacks⟩

/-! ### The records -/

/-- The toggle is counted and its record not yet sent. -/
def LedStage.unsent : LedStage → ℕ
  | .stamp | .send => 1
  | _ => 0

namespace Pipeline

/-- The records sent are those of the toggles counted, but one that is under way, and the queue
accounts for them. -/
def Accounted (pipeline : Pipeline) : Prop :=
  ∃ sent : List LedLog, Accounts queueMaxSize sent pipeline.traffic ∧
    pipeline.toggleCount.toNat = sent.length + pipeline.stage.unsent ∧
    sent.map (fun log ↦ log.toggleCount.toNat) = List.range' 1 sent.length

end Pipeline

/-- The send of the LED task offers its record to the queue. -/
theorem traffic_send (received queue dropped : List LedLog) (log : LedLog) :
    (⟨received, xQueueSend queue log,
      if (xQueueSend queue log).length = queue.length then dropped ++ [log] else dropped⟩ :
        Traffic LedLog) = Traffic.offer queueMaxSize log ⟨received, queue, dropped⟩ := by
  unfold xQueueSend Traffic.offer
  by_cases hroom : queue.length < queueMaxSize
  · rw [if_pos hroom, if_pos hroom, if_neg (by simp)]
  · rw [if_neg hroom, if_neg hroom, if_pos rfl]

/-- A step of the logger receives a record or nothing. -/
theorem Pipeline.Accounted.loggerTaskCode (haccounted : board.pipeline.Accounted) :
    board.loggerTaskCode.pipeline.Accounted := by
  obtain hsame | ⟨log, rest, hqueue, hreceived⟩ := pipeline_loggerTaskCode board
  · rw [hsame]
    exact haccounted
  · rw [hreceived]
    obtain ⟨sent, haccounts, hcount, hnumbers⟩ := haccounted
    have htraffic : board.pipeline.traffic = ⟨board.received, log :: rest, board.dropped⟩ := by
      rw [← hqueue]
      rfl
    rw [htraffic] at haccounts
    exact ⟨sent, haccounts.receive, hcount, hnumbers⟩

/-- A step of the LED task counts a toggle, sends its record, or leaves the records alone. -/
theorem Pipeline.Accounted.ledTaskCode {now : UInt32} (haccounted : board.pipeline.Accounted)
    (hfew : FewToggles board (.led now)) (hstep : board.ledTaskCode driver now = some next) :
    next.pipeline.Accounted := by
  obtain ⟨sent, haccounts, hcount, hnumbers⟩ := haccounted
  obtain ⟨state, stage, led1val, led2val, timestamp, semaphore, port, tempStage, tempSemaphore,
    alertTaken, callbacks, received, dropped, history⟩ := board
  cases stage with
  | take =>
    obtain ⟨left, -, rfl⟩ := Option.map_eq_some_iff.mp hstep
    exact ⟨sent, haccounts, hcount, hnumbers⟩
  | count =>
    cases hstep
    refine ⟨sent, haccounts, ?_, hnumbers⟩
    change (state.toggleCount + 1).toNat = sent.length + 1
    rw [toNat_succ (hfew now rfl rfl)]
    exact congrArg (· + 1) hcount
  | send =>
    cases hstep
    change state.toggleCount.toNat = sent.length + 1 at hcount
    let log : LedLog := ⟨state.toggleCount, "Ashish Tak".toList, timestamp⟩
    refine ⟨sent ++ [log], ?_, ?_, ?_⟩
    · change Accounts queueMaxSize (sent ++ [log]) ⟨_, _, _⟩
      rw [traffic_send]
      exact haccounts.offer log
    · rw [List.length_append]
      exact hcount
    · rw [List.map_append, hnumbers, List.length_append, List.length_singleton,
        List.range'_1_concat, Nat.add_comm 1, ← hcount]
      rfl
  | _ =>
    cases hstep
    exact ⟨sent, haccounts, hcount, hnumbers⟩

/-! ### The LEDs -/

/-- How often the variable of LED1 has been flipped, beyond the toggles counted. -/
def LedStage.flipped1 : LedStage → ℕ
  | .flipLed2 | .count => 1
  | _ => 0

/-- How often the variable of LED2 has been flipped, beyond the toggles counted. -/
def LedStage.flipped2 : LedStage → ℕ
  | .count => 1
  | _ => 0

/-- How often the pin of LED1 has been written, beyond the toggles counted. -/
def LedStage.written1 : LedStage → ℕ
  | .writeLed2 | .flipLed1 | .flipLed2 | .count => 1
  | _ => 0

/-- How often the pin of LED2 has been written, beyond the toggles counted. -/
def LedStage.written2 : LedStage → ℕ
  | .flipLed1 | .flipLed2 | .count => 1
  | _ => 0

/-- The value of an LED's variable after its flips: the pin of the LED after an odd number, counted
from its phase. -/
def ledValue (pin : UInt8) (phase flips : ℕ) : UInt8 := if (phase + flips) % 2 = 1 then pin else 0

/-- The variable of an LED has its value after the flips, and the pin the one of the last
write. -/
structure Shows (pin : UInt8) (phase : ℕ) (val port : UInt8) (flips writes : ℕ) : Prop where
  variable_eq : val = ledValue pin phase flips
  pin_eq : ∀ last, writes = last + 1 → port &&& pin = ledValue pin phase last

section Shows

variable {pin other val port : UInt8} {phase flips writes : ℕ}

/-- A value of an LED lies on its pin. -/
theorem ledValue_and (pin : UInt8) (phase flips : ℕ) :
    ledValue pin phase flips &&& pin = ledValue pin phase flips := by
  unfold ledValue
  split_ifs
  · exact UInt8.and_self
  · exact UInt8.zero_and

/-- A flip leads to the next value. -/
theorem ledValue_xor (pin : UInt8) (phase flips : ℕ) :
    ledValue pin phase flips ^^^ pin = ledValue pin phase (flips + 1) := by
  unfold ledValue
  by_cases hodd : (phase + flips) % 2 = 1
  · rw [if_pos hodd, if_neg (by omega), UInt8.xor_self]
  · rw [if_neg hodd, if_pos (by omega), UInt8.zero_xor]

/-- The pin of the LED is written. -/
theorem Shows.write (driver : PinDriver) (hshows : Shows pin phase val port flips flips) :
    Shows pin phase val (driver.GPIOPinWrite port pin val) flips (flips + 1) := by
  refine ⟨hshows.variable_eq, fun last hlast ↦ ?_⟩
  obtain rfl := Nat.succ.inj hlast
  rw [driver.written, hshows.variable_eq, ledValue_and]

/-- Another pin is written. -/
theorem Shows.writeOther (driver : PinDriver) (hshows : Shows pin phase val port flips writes)
    (hother : pin &&& other = 0) (value : UInt8) :
    Shows pin phase val (driver.GPIOPinWrite port other value) flips writes := by
  refine ⟨hshows.variable_eq, fun last hlast ↦ ?_⟩
  rw [driver.kept _ _ _ _ hother]
  exact hshows.pin_eq last hlast

/-- The variable of the LED is flipped. -/
theorem Shows.flip (hshows : Shows pin phase val port flips writes) :
    Shows pin phase (val ^^^ pin) port (flips + 1) writes :=
  ⟨by rw [hshows.variable_eq, ledValue_xor], hshows.pin_eq⟩

end Shows

namespace Pipeline

/-- Both LEDs show the toggles counted, but for the one under way. -/
structure Shown (pipeline : Pipeline) : Prop where
  led1 : Shows led1Pin 0 pipeline.led1val pipeline.port
    (pipeline.toggleCount.toNat + pipeline.stage.flipped1)
    (pipeline.toggleCount.toNat + pipeline.stage.written1)
  led2 : Shows led2Pin 1 pipeline.led2val pipeline.port
    (pipeline.toggleCount.toNat + pipeline.stage.flipped2)
    (pipeline.toggleCount.toNat + pipeline.stage.written2)

end Pipeline

/-- A step of the LED task writes or flips an LED, or counts the toggle that both LEDs show. -/
theorem Pipeline.Shown.ledTaskCode {now : UInt32} (hshown : board.pipeline.Shown)
    (hfew : FewToggles board (.led now)) (hstep : board.ledTaskCode driver now = some next) :
    next.pipeline.Shown := by
  obtain ⟨hled1, hled2⟩ := hshown
  obtain ⟨state, stage, led1val, led2val, timestamp, semaphore, port, tempStage, tempSemaphore,
    alertTaken, callbacks, received, dropped, history⟩ := board
  cases stage with
  | take =>
    obtain ⟨left, -, rfl⟩ := Option.map_eq_some_iff.mp hstep
    exact ⟨hled1, hled2⟩
  | writeLed1 =>
    cases hstep
    exact ⟨hled1.write driver, hled2.writeOther driver (by decide) _⟩
  | writeLed2 =>
    cases hstep
    exact ⟨hled1.writeOther driver (by decide) _, hled2.write driver⟩
  | flipLed1 =>
    cases hstep
    exact ⟨hled1.flip, hled2⟩
  | flipLed2 =>
    cases hstep
    exact ⟨hled1, hled2.flip⟩
  | count =>
    cases hstep
    have hcount : (state.toggleCount + 1).toNat = state.toggleCount.toNat + 1 :=
      toNat_succ (hfew now rfl rfl)
    constructor
    · change Shows led1Pin 0 led1val port (state.toggleCount + 1).toNat
        (state.toggleCount + 1).toNat
      rw [hcount]
      exact hled1
    · change Shows led2Pin 1 led2val port (state.toggleCount + 1).toNat
        (state.toggleCount + 1).toNat
      rw [hcount]
      exact hled2
  | stamp =>
    cases hstep
    exact ⟨hled1, hled2⟩
  | send =>
    cases hstep
    exact ⟨hled1, hled2⟩

/-- A value of an LED lights it after an odd number of flips, counted from its phase. -/
theorem ledValue_ne_zero_iff {pin : UInt8} (hpin : pin ≠ 0) (phase flips : ℕ) :
    ledValue pin phase flips ≠ 0 ↔ (phase + flips) % 2 = 1 := by
  unfold ledValue
  split_ifs with hodd
  · exact iff_of_true hpin hodd
  · exact iff_of_false (not_not_intro rfl) hodd

/-- The pin of an LED is lit after an odd number of flips before its last write, counted from its
phase. -/
theorem Shows.lit_iff {pin val port : UInt8} {phase flips writes last : ℕ}
    (hshows : Shows pin phase val port flips writes) (hpin : pin ≠ 0)
    (hlast : writes = last + 1) : port &&& pin ≠ 0 ↔ (phase + last) % 2 = 1 := by
  rw [hshows.pin_eq last hlast]
  exact ledValue_ne_zero_iff hpin phase last

/-! ### All interleavings -/

/-- The invariant of the pipeline. -/
structure Pipeline.Sound (pipeline : Pipeline) : Prop where
  triggered : pipeline.Triggered
  accounted : pipeline.Accounted
  shown : pipeline.Shown

theorem sound_initial (driver : PinDriver) : (firmware driver).initial.pipeline.Sound := by
  refine ⟨⟨Nat.le_refl 1, Nat.le_refl 1⟩, ⟨[], accounts_nil _, rfl, rfl⟩, ⟨rfl, ?_⟩, ⟨rfl, ?_⟩⟩
  · exact fun last hlast ↦ absurd hlast (Nat.zero_ne_add_one last)
  · exact fun last hlast ↦ absurd hlast (Nat.zero_ne_add_one last)

/-- Every step keeps the invariant. Assumes: the count does not wrap. -/
theorem Pipeline.Sound.step (hsound : board.pipeline.Sound) (hfew : FewToggles board event)
    (hstep : (firmware driver).step board event = some next) : next.pipeline.Sound := by
  cases event with
  | ledTimer =>
    cases hstep
    exact ⟨hsound.triggered.vLEDTimerCallBack, hsound.accounted, hsound.shown.led1,
      hsound.shown.led2⟩
  | tempTimer =>
    cases hstep
    exact hsound
  | led now =>
    exact ⟨hsound.triggered.ledTaskCode hfew hstep, hsound.accounted.ledTaskCode hfew hstep,
      hsound.shown.ledTaskCode hfew hstep⟩
  | temp reading now =>
    rw [pipeline_tempTaskCode hstep]
    exact hsound
  | logger =>
    cases hstep
    have haccounted := hsound.accounted.loggerTaskCode
    obtain ⟨⟨hbinary, hcallbacks⟩, -, ⟨hled1, hled2⟩⟩ := hsound
    obtain hsame | ⟨log, rest, -, hreceived⟩ := pipeline_loggerTaskCode board
    · rw [hsame] at haccounted ⊢
      exact ⟨⟨hbinary, hcallbacks⟩, haccounted, ⟨hled1, hled2⟩⟩
    · rw [hreceived] at haccounted ⊢
      exact ⟨⟨hbinary, hcallbacks⟩, haccounted, ⟨hled1, hled2⟩⟩
  | alert =>
    rw [pipeline_alertTaskCode hstep]
    exact hsound

/-- The logger receives the records in order. -/
theorem Pipeline.Accounted.increasing {pipeline : Pipeline} (haccounted : pipeline.Accounted) :
    (pipeline.traffic.received.map LedLog.toggleCount).Pairwise (· < ·) := by
  obtain ⟨sent, haccounts, -, hnumbers⟩ := haccounted
  have hsent : (sent.map fun log ↦ log.toggleCount.toNat).Pairwise (· < ·) :=
    hnumbers ▸ List.pairwise_lt_range'
  rw [List.pairwise_map] at hsent ⊢
  exact (hsent.imp UInt32.lt_iff_toNat_lt.mpr).sublist haccounts.received_sublist

/-- While the LED task waits every toggle has its record. -/
theorem Pipeline.Accounted.length_eq (haccounted : board.pipeline.Accounted)
    (hstage : board.ledStage = .take) :
    board.received.length + board.xQueueLed.length + board.dropped.length =
      board.toggleCount.toNat := by
  obtain ⟨sent, haccounts, hcount, -⟩ := haccounted
  change board.toggleCount.toNat = sent.length + board.ledStage.unsent at hcount
  rw [hcount, hstage]
  exact haccounts.length_eq

/-- While the LED task waits the LEDs show the parity of the count. -/
theorem Pipeline.Shown.parity (hshown : board.pipeline.Shown) (hstage : board.ledStage = .take)
    (hpositive : 1 ≤ board.toggleCount.toNat) :
    (board.Led1Lit ↔ board.toggleCount.toNat % 2 = 0) ∧ (board.Led2Lit ↔ ¬ board.Led1Lit) := by
  obtain ⟨last, hlast⟩ := Nat.exists_eq_add_one_of_ne_zero (Nat.ne_of_gt hpositive)
  have hwrites1 : board.toggleCount.toNat + board.ledStage.written1 = last + 1 := by
    rw [hstage]
    exact hlast
  have hwrites2 : board.toggleCount.toNat + board.ledStage.written2 = last + 1 := by
    rw [hstage]
    exact hlast
  have hled1 : board.Led1Lit ↔ (0 + last) % 2 = 1 := hshown.led1.lit_iff (by decide) hwrites1
  have hled2 : board.Led2Lit ↔ (1 + last) % 2 = 1 := hshown.led2.lit_iff (by decide) hwrites2
  rw [hled1, hled2]
  constructor
  · omega
  · omega

/-- A step of the LED task drops a record only when the queue is full. -/
theorem Pipeline.Accounted.full {now : UInt32} (haccounted : board.pipeline.Accounted)
    (hstep : board.ledTaskCode driver now = some next) (hdropped : next.dropped ≠ board.dropped) :
    board.xQueueLed.length = queueMaxSize := by
  obtain ⟨sent, haccounts, -, -⟩ := haccounted
  obtain ⟨state, stage, led1val, led2val, timestamp, semaphore, port, tempStage, tempSemaphore,
    alertTaken, callbacks, received, dropped, history⟩ := board
  cases stage with
  | take =>
    obtain ⟨left, -, rfl⟩ := Option.map_eq_some_iff.mp hstep
    exact absurd rfl hdropped
  | send =>
    cases hstep
    let log : LedLog := ⟨state.toggleCount, "Ashish Tak".toList, timestamp⟩
    have hoffer : (Traffic.offer queueMaxSize log ⟨received, state.xQueueLed, dropped⟩).dropped ≠
        dropped := by
      rw [← traffic_send]
      exact hdropped
    exact haccounts.full_of_dropped hoffer
  | _ =>
    cases hstep
    exact absurd rfl hdropped

/-- Only the LED task drops records. -/
theorem dropped_of_ne_led (hled : ∀ now, event ≠ .led now)
    (hstep : (firmware driver).step board event = some next) : next.dropped = board.dropped := by
  cases event with
  | ledTimer =>
    cases hstep
    rfl
  | tempTimer =>
    cases hstep
    rfl
  | led now => exact absurd rfl (hled now)
  | temp reading now => exact congrArg (·.traffic.dropped) (pipeline_tempTaskCode hstep)
  | logger =>
    cases hstep
    rfl
  | alert => exact congrArg (·.traffic.dropped) (pipeline_alertTaskCode hstep)

/-- **The LED pipeline is conserved.** For every interleaving of the timers and the tasks with fewer
than `2 ^ 32` toggles. -/
theorem ledConserved_of_reachable
    (hreach : (firmware driver).ReachableUnder FewToggles board) : LedConserved driver board := by
  have hsound : board.pipeline.Sound := hreach.invariant (sound_initial driver)
    fun _ _ _ hsound hfew hstep ↦ hsound.step hfew hstep
  refine ⟨?_, hsound.accounted.length_eq, hsound.shown.parity, hsound.accounted.increasing, ?_⟩
  · have hcallbacks := hsound.triggered.callbacks
    exact Nat.le_trans (Nat.add_le_add_right (Nat.le_add_right _ _) _) hcallbacks
  · intro event next hstep hdropped
    by_cases hled : ∃ now, event = .led now
    · obtain ⟨now, rfl⟩ := hled
      exact hsound.accounted.full hstep hdropped
    · push Not at hled
      exact absurd (dropped_of_ne_led hled hstep) hdropped

/-- Two toggles, of which the first one's record has been received when the second one is sent. -/
theorem ledConserved_of_reachable_second : ∃ board : Board,
    (firmware maskedWrite).ReachableUnder FewToggles board ∧ LedConserved maskedWrite board ∧
      board.toggleCount = 2 ∧ board.received.length = 1 ∧ board.xQueueLed.length = 1 := by
  have hrun : (((firmware maskedWrite).restrict FewToggles).run (firmware maskedWrite).initial
      (BoardEvent.ledTimer :: List.replicate 8 (BoardEvent.led 100) ++
        [BoardEvent.ledTimer, BoardEvent.logger, BoardEvent.logger] ++
          List.replicate 8 (BoardEvent.led 200))).any (fun board ↦
      board.toggleCount = 2 ∧ board.received.length = 1 ∧ board.xQueueLed.length = 1) = true := by
    decide +kernel
  obtain ⟨board, hboard, hcounts⟩ := (Option.any_eq_true _ _).mp hrun
  have hreach := System.reachableUnder_of_run hboard
  exact ⟨board, hreach, ledConserved_of_reachable hreach, of_decide_eq_true hcounts⟩

end Apes.Firmware
