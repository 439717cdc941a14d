import Apes.Firmware.Main

/-!
# The temperature pipeline, `tempSensor.c` and `logger.c`

The callbacks of the temperature timer give a semaphore, the temperature task takes it, reads the
sensor, notifies the alert task of a high temperature and sends a record, and the logger receives
the records. As in the LED pipeline the callbacks coalesce in the semaphore and the send does not
wait. `Sampled` is the invariant, indexed by the stage of the task: the readings that have been
taken are the records sent and the one under way, and `Accounts` says where the records are.
`samples_of_reachable` is the result for every punctual run of the whole program: at most one
reading in 1000 ms, each of them logged in order, waiting in the queue, or dropped by a full queue.
-/

set_option autoImplicit false
set_option relaxedAutoImplicit false

namespace Apes.Firmware

open Library SoftwareTimers

/-- The reading of a mark. -/
def Mark.reading : Mark → Option Reading
  | .sampled reading => some reading
  | .notified | .begun => none

/-- The readings that the temperature task has taken. -/
def Board.samples (board : Board) : List Reading := board.history.filterMap Mark.reading

/-- The semaphore is taken and the sensor not yet read. -/
def TempStage.taken : TempStage → ℕ
  | .read => 1
  | .take | .compare _ | .stamp _ | .send => 0

/-- The temperature that is read and whose record is not yet sent. -/
def Board.underWay (board : Board) : List ℚ :=
  match board.tempStage with
  | .take | .read => []
  | .compare temp | .stamp temp => [temp]
  | .send => board.sending.toList.map TempLog.temp

/-- The traffic of the temperature queue. -/
def Program.tempTraffic (main : Program) : Traffic TempLog :=
  ⟨main.tempReceived, main.board.xQueueTemp, main.tempDropped⟩

/-- The readings taken, the one under way and the semaphore do not outnumber the callbacks and the
first semaphore; the readings taken are those of the records sent and the one under way, and the
queue accounts for the records. -/
structure Sampled (main : Program) : Prop where
  binary : main.board.tempSemaphore ≤ 1
  callbacks : main.board.samples.length + main.board.tempStage.taken + main.board.tempSemaphore ≤
    (main.service.callsOf xTempTimer).length + 1
  records : ∃ offered, Accounts queueMaxSize offered main.tempTraffic ∧
    main.board.samples.map readTemp = offered.map TempLog.temp ++ main.board.underWay

section Sampled

variable {pins : PinDriver} {lists : ListDriver} {pdTicksToMs : UInt32 → UInt32}
  {main next : Program} {event : ProgramEvent}

/-- The records that are sent are offered to the queue. -/
theorem tempTraffic_send {board : Board} {log : TempLog} (hstage : board.tempStage = .send)
    (hsending : board.sending = some log) (received dropped : List TempLog) :
    (⟨received, xQueueSend board.xQueueTemp log, dropped ++ nextTempDropped board⟩ :
      Traffic TempLog) = Traffic.offer queueMaxSize log ⟨received, board.xQueueTemp, dropped⟩ := by
  have hdropped : nextTempDropped board =
      if (xQueueSend board.xQueueTemp log).length = board.xQueueTemp.length then [log] else [] := by
    unfold nextTempDropped
    rw [hstage, hsending]
  rw [hdropped]
  unfold xQueueSend Traffic.offer
  by_cases hroom : board.xQueueTemp.length < queueMaxSize
  · rw [if_pos hroom, if_pos hroom, if_neg (by simp), List.append_nil]
  · rw [if_neg hroom, if_neg hroom, if_pos rfl]

/-- No record is dropped before the send. -/
theorem nextTempDropped_of_ne {board : Board} (hstage : board.tempStage ≠ .send) :
    nextTempDropped board = [] := by
  unfold nextTempDropped
  split
  · exact absurd ‹_› hstage
  · rfl

/-- The readings after another mark of the history. -/
theorem samples_append (board : Board) (mark : Mark) :
    (board.history ++ [mark]).filterMap Mark.reading =
      board.samples ++ (Mark.reading mark).toList := by
  unfold Board.samples
  rw [List.filterMap_append]
  cases mark <;> rfl

/-- A step that leaves the readings, the semaphore, the record under way and the queue. -/
theorem Sampled.of_kept {board : Board} {service : TimerService} (hsampled : Sampled main)
    (hsamples : board.samples = main.board.samples)
    (htaken : board.tempStage.taken = main.board.tempStage.taken)
    (hsemaphore : board.tempSemaphore = main.board.tempSemaphore)
    (hunderWay : board.underWay = main.board.underWay)
    (hqueue : board.xQueueTemp = main.board.xQueueTemp)
    (hcalls : service.callsOf xTempTimer = main.service.callsOf xTempTimer) :
    Sampled { main with board := board, service := service } := by
  obtain ⟨hbinary, hcallbacks, offered, haccounts, hrecords⟩ := hsampled
  refine ⟨?_, ?_, offered, ?_, ?_⟩
  · exact hsemaphore ▸ hbinary
  · dsimp only
    rw [hsamples, htaken, hsemaphore, hcalls]
    exact hcallbacks
  · unfold Program.tempTraffic
    dsimp only
    rw [hqueue]
    exact haccounts
  · dsimp only
    rw [hsamples, hunderWay]
    exact hrecords

/-- The temperature task takes the semaphore. -/
theorem Sampled.take (hsampled : Sampled main) (hstage : main.board.tempStage = .take)
    (hgiven : 0 < main.board.tempSemaphore) :
    Sampled { main with board := { main.board with
      tempSemaphore := main.board.tempSemaphore - 1, tempStage := .read } } := by
  obtain ⟨hbinary, hcallbacks, offered, haccounts, hrecords⟩ := hsampled
  unfold Board.underWay at hrecords
  rw [hstage] at hcallbacks hrecords
  refine ⟨?_, ?_, offered, haccounts, hrecords⟩
  · exact (Nat.sub_le _ _).trans hbinary
  · change main.board.samples.length + 0 + main.board.tempSemaphore ≤ _ at hcallbacks
    change main.board.samples.length + 1 + (main.board.tempSemaphore - 1) ≤ _
    dsimp only
    omega

/-- The temperature task reads the sensor. -/
theorem Sampled.read (hsampled : Sampled main) (hstage : main.board.tempStage = .read)
    (reading : Reading) :
    Sampled { main with board := { main.board with
      tempStage := .compare (readTemp reading)
      history := main.board.history ++ [.sampled reading] } } := by
  obtain ⟨hbinary, hcallbacks, offered, haccounts, hrecords⟩ := hsampled
  unfold Board.underWay at hrecords
  rw [hstage] at hcallbacks hrecords
  have hsamples := samples_append main.board (.sampled reading)
  refine ⟨hbinary, ?_, offered, haccounts, ?_⟩
  · unfold Board.samples at hsamples ⊢
    dsimp only
    rw [hsamples, List.length_append]
    exact hcallbacks
  · unfold Board.samples at hsamples ⊢
    dsimp only
    rw [hsamples, List.map_append]
    change main.board.samples.map readTemp ++ [readTemp reading] = _
    rw [hrecords, List.append_nil]
    rfl

/-- The temperature task sends its record. -/
theorem Sampled.send (hsampled : Sampled main) (hstage : main.board.tempStage = .send)
    {log : TempLog} (hsending : main.board.sending = some log) :
    Sampled { main with
      board := { main.board with
        xQueueTemp := xQueueSend main.board.xQueueTemp log
        sending := none
        tempStage := .take }
      tempDropped := main.tempDropped ++ nextTempDropped main.board } := by
  obtain ⟨hbinary, hcallbacks, offered, haccounts, hrecords⟩ := hsampled
  unfold Board.underWay at hrecords
  rw [hstage] at hcallbacks hrecords
  refine ⟨hbinary, hcallbacks, offered ++ [log], ?_, ?_⟩
  · have hoffered := haccounts.offer log
    unfold Program.tempTraffic at hoffered
    rw [← tempTraffic_send hstage hsending] at hoffered
    exact hoffered
  · rw [hsending] at hrecords
    rw [List.map_append]
    exact hrecords.trans (List.append_nil _).symm

/-- A step of the temperature task takes the semaphore, reads the sensor, sends the record, or
leaves all three alone. -/
theorem Sampled.tempTaskCode {reading : Reading} {now : UInt32} {board : Board}
    (hsampled : Sampled main) (hstep : main.board.tempTaskCode reading now = some board) :
    Sampled { main with
      board := board, tempDropped := main.tempDropped ++ nextTempDropped main.board } := by
  unfold Board.tempTaskCode at hstep
  cases hstage : main.board.tempStage with
  | take =>
    rw [hstage] at hstep
    obtain ⟨left, htake, rfl⟩ := Option.map_eq_some_iff.mp hstep
    unfold xSemaphoreTake at htake
    split_ifs at htake with hgiven
    obtain rfl := Option.some.inj htake
    rw [nextTempDropped_of_ne (by rw [hstage]; exact nofun), List.append_nil]
    exact hsampled.take hstage hgiven
  | read =>
    rw [hstage] at hstep
    cases hstep
    rw [nextTempDropped_of_ne (by rw [hstage]; exact nofun), List.append_nil]
    exact hsampled.read hstage reading
  | compare temp =>
    rw [hstage] at hstep
    rw [nextTempDropped_of_ne (by rw [hstage]; exact nofun), List.append_nil]
    have hunderWay : main.board.underWay = [temp] := by
      unfold Board.underWay
      rw [hstage]
    have hnotTaken : TempStage.taken (.stamp temp) = main.board.tempStage.taken := by
      rw [hstage]
      rfl
    dsimp only at hstep
    split_ifs at hstep
    · cases hstep
      exact hsampled.of_kept ((samples_append main.board .notified).trans (List.append_nil _))
        hnotTaken rfl hunderWay.symm rfl rfl
    · cases hstep
      exact hsampled.of_kept rfl hnotTaken rfl hunderWay.symm rfl rfl
  | stamp temp =>
    rw [hstage] at hstep
    cases hstep
    rw [nextTempDropped_of_ne (by rw [hstage]; exact nofun), List.append_nil]
    refine hsampled.of_kept rfl ?_ rfl ?_ rfl rfl
    · rw [hstage]
      rfl
    · unfold Board.underWay
      rw [hstage]
      rfl
  | send =>
    rw [hstage] at hstep
    obtain ⟨state, hsend, rfl⟩ := Option.map_eq_some_iff.mp hstep
    obtain ⟨log, hsending, rfl⟩ := tempTaskSend_cases hsend
    exact hsampled.send hstage hsending

/-- The logger receives the front of the temperature queue. -/
theorem loggerTaskCode_temp (state : State) :
    (loggerTaskCode state).sending = state.sending ∧
      nextTempReceived state ++ (loggerTaskCode state).xQueueTemp = state.xQueueTemp := by
  obtain ⟨uart, logger, alert, notification, sending, toggleCount, xQueueTemp, xQueueLed⟩ := state
  cases logger with
  | receiveTemp => cases xQueueTemp <;> exact ⟨rfl, rfl⟩
  | printTemp rest => cases rest <;> exact ⟨rfl, rfl⟩
  | receiveLed => cases xQueueLed <;> exact ⟨rfl, rfl⟩
  | printLed rest => cases rest <;> exact ⟨rfl, rfl⟩

/-- At most one record is received. -/
theorem nextTempReceived_cases (state : State) :
    nextTempReceived state = [] ∨ ∃ log, nextTempReceived state = [log] := by
  unfold nextTempReceived
  split
  · exact .inr ⟨_, rfl⟩
  · exact .inl rfl

/-- A step of the logger receives a record or nothing. -/
theorem Sampled.loggerTaskCode (hsampled : Sampled main) :
    Sampled { main with
      board := main.board.loggerTaskCode
      tempReceived := main.tempReceived ++ nextTempReceived main.board.toState } := by
  obtain ⟨hbinary, hcallbacks, offered, haccounts, hrecords⟩ := hsampled
  obtain ⟨hsending, hqueue⟩ := loggerTaskCode_temp main.board.toState
  refine ⟨hbinary, hcallbacks, offered, ?_, ?_⟩
  · change Accounts queueMaxSize offered ⟨main.tempReceived ++ nextTempReceived main.board.toState,
      (Firmware.loggerTaskCode main.board.toState).xQueueTemp, main.tempDropped⟩
    unfold Program.tempTraffic at haccounts
    rcases nextTempReceived_cases main.board.toState with hnone | ⟨log, hlog⟩
    · rw [hnone, List.nil_append] at hqueue
      rw [hnone, List.append_nil, hqueue]
      exact haccounts
    · rw [hlog, List.singleton_append] at hqueue
      rw [← hqueue] at haccounts
      rw [hlog]
      exact haccounts.receive
  · unfold Board.underWay at hrecords ⊢
    unfold Board.loggerTaskCode
    dsimp only
    rw [hsending]
    exact hrecords

/-- What the temperature pipeline consists of is the same. -/
structure SameSampling (board other : Board) : Prop where
  history : other.samples = board.samples
  tempStage : other.tempStage = board.tempStage
  tempSemaphore : other.tempSemaphore = board.tempSemaphore
  sending : other.sending = board.sending
  xQueueTemp : other.xQueueTemp = board.xQueueTemp

/-- A step of another task leaves the temperature pipeline alone. -/
theorem Sampled.of_same {board : Board} {service : TimerService} (hsampled : Sampled main)
    (hsame : SameSampling main.board board)
    (hcalls : service.callsOf xTempTimer = main.service.callsOf xTempTimer) :
    Sampled { main with board := board, service := service } := by
  refine hsampled.of_kept hsame.history ?_ hsame.tempSemaphore ?_ hsame.xQueueTemp hcalls
  · rw [hsame.tempStage]
  · unfold Board.underWay
    rw [hsame.tempStage, hsame.sending]

/-- A step of the LED task. -/
theorem sameSampling_ledTaskCode {now : UInt32} {board other : Board}
    (hstep : board.ledTaskCode pins now = some other) : SameSampling board other := by
  unfold Board.ledTaskCode at hstep
  split at hstep
  case h_1 =>
    obtain ⟨left, -, rfl⟩ := Option.map_eq_some_iff.mp hstep
    exact ⟨rfl, rfl, rfl, rfl, rfl⟩
  all_goals
    cases hstep
    exact ⟨rfl, rfl, rfl, rfl, rfl⟩

/-- A step of the alert task. -/
theorem sameSampling_alertTaskCode {board other : Board}
    (hstep : board.alertTaskCode = some other) : SameSampling board other := by
  obtain ⟨-, rfl⟩ | ⟨-, -, -, rfl⟩ | ⟨-, uart, alert, -, rfl⟩ := alertTaskCode_cases hstep
  · exact ⟨(samples_append board .begun).trans (List.append_nil _), rfl, rfl, rfl, rfl⟩
  · exact ⟨rfl, rfl, rfl, rfl, rfl⟩
  · exact ⟨rfl, rfl, rfl, rfl, rfl⟩

/-- A callback of the temperature timer gives the semaphore. -/
theorem Sampled.vTempTimerCallBack {service : TimerService} (hsampled : Sampled main)
    (hcalls : (service.callsOf xTempTimer).length =
      (main.service.callsOf xTempTimer).length + 1) :
    Sampled { main with board := main.board.vTempTimerCallBack, service := service } := by
  obtain ⟨hbinary, hcallbacks, offered, haccounts, hrecords⟩ := hsampled
  refine ⟨?_, ?_, offered, haccounts, hrecords⟩
  · change xSemaphoreGive main.board.tempSemaphore ≤ 1
    unfold xSemaphoreGive
    split_ifs <;> omega
  · change main.board.samples.length + main.board.tempStage.taken +
      xSemaphoreGive main.board.tempSemaphore ≤ (service.callsOf xTempTimer).length + 1
    unfold xSemaphoreGive
    split_ifs <;> omega

/-- A step of the program keeps the account of the readings. -/
theorem Sampled.step (hsampled : Sampled main) (hclocked : Clocked main)
    (hstep : (program pins lists pdTicksToMs).step main event = some next) : Sampled next := by
  cases event with
  | advance ticks =>
    cases hstep
    exact ⟨hsampled.binary, hsampled.callbacks, hsampled.records⟩
  | timers =>
    obtain ⟨board, service, received, dropped⟩ := next
    obtain ⟨-, rfl, rfl, ⟨hcalls, rfl⟩ | ⟨due, ⟨hcalls, rfl⟩ | ⟨hcalls, rfl⟩⟩⟩ :=
      timers_cases hclocked hstep
    · refine hsampled.of_same ⟨rfl, rfl, rfl, rfl, rfl⟩ ?_
      unfold TimerService.callsOf
      rw [hcalls]
    · exact hsampled.vTempTimerCallBack (callsOf_called _ hcalls)
    · exact hsampled.of_same ⟨rfl, rfl, rfl, rfl, rfl⟩ (callsOf_other _ hcalls (by decide))
  | led =>
    obtain ⟨board, hboard, rfl⟩ := Option.map_eq_some_iff.mp hstep
    exact hsampled.of_same (sameSampling_ledTaskCode hboard) rfl
  | temp reading =>
    obtain ⟨board, hboard, rfl⟩ := Option.map_eq_some_iff.mp hstep
    exact hsampled.tempTaskCode hboard
  | logger =>
    cases hstep
    exact hsampled.loggerTaskCode
  | alert =>
    obtain ⟨board, hboard, rfl⟩ := Option.map_eq_some_iff.mp hstep
    exact hsampled.of_same (sameSampling_alertTaskCode hboard) rfl

/-- **The temperature pipeline is conserved.** In every interleaving of the timer service and the
tasks: there has been at most one reading for each 1000 ticks that have passed, and the one of the
semaphore that is created given; the logger has received temperatures that were read, in their
order; and while the temperature task waits, each reading has been received, waits in the queue, or
was dropped. Assumes: the run is punctual. -/
theorem samples_of_reachable
    (hreach : (program pins lists pdTicksToMs).ReachableUnder ServedInTime main) :
    main.board.samples.length ≤ main.service.ticks / 1000 + 1 ∧
      (main.tempReceived.map TempLog.temp).Sublist (main.board.samples.map readTemp) ∧
      (main.board.tempStage = .take →
        main.tempReceived.length + main.board.xQueueTemp.length + main.tempDropped.length =
          main.board.samples.length) := by
  have hboth : Clocked main ∧ Sampled main := by
    refine hreach.invariant ⟨clocked_initial, Nat.le_refl 1, ?_, [], accounts_nil _, rfl⟩ ?_
    · exact Nat.le_add_left 1 _
    · rintro state event next ⟨hclocked, hsampled⟩ hserved hstep
      exact ⟨hclocked.step hserved hstep, hsampled.step hclocked hstep⟩
  obtain ⟨hclocked, -, hcallbacks, offered, haccounts, hrecords⟩ := hboth
  refine ⟨?_, ?_, fun hstage ↦ ?_⟩
  · have hcalls : (main.service.callsOf xTempTimer).length * 1000 ≤ main.service.ticks :=
      hclocked.periods.callsOf_le boardTimers_temp
    omega
  · rw [hrecords]
    exact (haccounts.received_sublist.map _).trans (List.sublist_append_left _ _)
  · have hlength := congrArg List.length hrecords
    unfold Board.underWay at hlength
    rw [hstage, List.append_nil, List.length_map, List.length_map] at hlength
    rw [hlength]
    exact haccounts.length_eq

/-- Two readings, of which the first one has been logged. -/
theorem samples_of_reachable_second : ∃ main : Program,
    main.service.ticks = 1000 ∧ main.board.samples.length = 2 ∧ main.tempReceived.length = 1 ∧
      main.board.samples.length ≤ 1000 / 1000 + 1 := by
  have hrun : (((program maskedWrite orderedLists id).restrict ServedInTime).run
      (program maskedWrite orderedLists id).initial
      [List.replicate 10 .timers, List.replicate 5 (.temp ⟨28, 0⟩), [.logger], [.advance 1000],
        List.replicate 32 .timers, List.replicate 5 (.temp ⟨27, 128⟩)].flatten).any (fun main ↦
        main.service.ticks = 1000 ∧ main.board.samples.length = 2 ∧
          main.tempReceived.length = 1) = true := by
    decide +kernel
  obtain ⟨main, hmain, hfinal⟩ := (Option.any_eq_true _ _).mp hrun
  obtain ⟨hticks, hsamples, hreceived⟩ := of_decide_eq_true hfinal
  have hbound := (samples_of_reachable (System.reachableUnder_of_run hmain)).1
  rw [hticks] at hbound
  exact ⟨main, hticks, hsamples, hreceived, hbound⟩

end Sampled

end Apes.Firmware
