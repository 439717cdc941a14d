import Apes.Library.SharedFile
import Apes.PthreadTest.KillSignal

/-!
# The log file of `pthreadtest.c`

Both threads open the log file in append mode and write to it through streams of their own.
`processCharacters` flushes its stream after the line about its termination and closes it after the
letters; `reportCPUUtil` writes a line with every report and flushes nothing before it ends, so its
stream is written out whenever its buffer happens to be full. The model takes the calls that each
thread makes on its stream, with the texts that `sprintf` makes, and the streams as the library has
them (`Library.SharedFile`).

`logging_wholeLines_iff` says when the log consists of whole lines of one thread each: exactly when
no block is appended while the file ends inside a line of the other thread. `log_torn` is a run with
a buffer of 1024 characters in which the character thread ends between two blocks of the other one.
-/

set_option autoImplicit false
set_option relaxedAutoImplicit false

namespace Apes.PthreadTest

open Library

/-! ### The texts -/

/-- The time that `clock_gettime` returns. -/
structure Timespec where
  sec : ℤ
  nanosec : ℤ

/-- The conversions `%d` and `%ld`. -/
def decimal (value : ℤ) : List Char := (toString value).toList

/-- The line with which a thread reports its start. -/
def startedText (thread : String) (pid tid : ℤ) : List Char :=
  thread.toList ++ " thread started, PID ".toList ++ decimal pid ++ " TID ".toList ++
    decimal tid ++ "\n".toList

/-- A line with the start time or the end time of a thread. -/
def timeText (which thread : String) (time : Timespec) : List Char :=
  which.toList ++ " Time for ".toList ++ thread.toList ++ " Thread: sec=".toList ++
    decimal time.sec ++ ", nanosec=".toList ++ decimal time.nanosec ++ "\n".toList

/-- The line about the signal that ended a thread, if it was one of the two. -/
def signalText (thread : String) : Option Signal → List StreamCall
  | some .sigusr1 => [.fputs (thread.toList ++ " thread teminating with SIGUSR1\n".toList)]
  | some .sigusr2 => [.fputs (thread.toList ++ " thread teminating with SIGUSR2\n".toList)]
  | none => []

/-- The process and thread ids that a thread logs, and its two times. -/
structure ThreadRun where
  pid : ℤ
  tid : ℤ
  startTime : Timespec
  endTime : Timespec

/-! ### The character thread -/

/-- `ALPHA_ASCII_OFFSET`. -/
def alphaAsciiOffset : ℕ := 65

/-- `ALPHA_COUNT`. -/
def alphaCount : ℕ := 26

/-- `isalpha` in the C locale. -/
def isalpha (ip : UInt8) : Bool := (65 ≤ ip && ip ≤ 90) || (97 ≤ ip && ip ≤ 122)

/-- `toupper` in the C locale. -/
def toupper (ip : UInt8) : UInt8 := if 97 ≤ ip && ip ≤ 122 then ip - 32 else ip

/-- The counters after a character has been read. -/
def countCharacter (charCounts : List UInt32) (ip : UInt8) : List UInt32 :=
  if isalpha ip then charCounts.modify ((toupper ip).toNat - alphaAsciiOffset) (· + 1)
  else charCounts

/-- The counters after the characters that have been read. -/
def charCounts (characters : List UInt8) : List UInt32 :=
  characters.foldl countCharacter (List.replicate alphaCount 0)

/-- The line for a letter, when its counter is between 1 and 99. -/
def letterText (count : UInt32) (i : ℕ) : List StreamCall :=
  if count < 100 ∧ count > 0 then
    [.fputs (Char.ofNat (i + alphaAsciiOffset) :: ':' :: decimal count.toNat ++ "\n".toList)]
  else []

/-- The calls of `flushAndClose`. -/
def flushAndClose (charCounts : List UInt32) (endTime : Timespec) : List StreamCall :=
  (charCounts.zipIdx.flatMap fun entry ↦ letterText entry.1 entry.2) ++
    [.fputs (timeText "End" "Character Processing" endTime), .fflush, .fclose]

/-- What `processCharacters` logs about its end. -/
def endingText : Ending → List StreamCall
  | .signalled line => signalText "Character Processing" line
  | .completion => [.fputs "Character Processing thread terminating by completion\n".toList]

/-- A run of `processCharacters`: the characters of `gdb.txt` that it reads before it ends, and how
it ends. -/
structure CharacterRun extends ThreadRun where
  characters : List UInt8
  ending : Ending

/-- The calls of `processCharacters`. -/
def processCharacters (run : CharacterRun) : List StreamCall :=
  [.fputs (startedText "Character Processing" run.pid run.tid),
      .fputs (timeText "Start" "Character Processing" run.startTime)] ++
    endingText run.ending ++ [.fflush] ++ flushAndClose (charCounts run.characters) run.endTime

/-! ### The reporting thread -/

/-- What `checkStatFile` logs for a first line of `/proc/stat`. -/
def checkStatFile (line : List Char) : StreamCall :=
  .fputs ("CPU Utilization: ".toList ++ line ++ "\n".toList)

/-- A run of `reportCPUUtil`: the lines that it has reported, and the signal whose line it logs at
its end. -/
structure ReportRun extends ThreadRun where
  reports : List (List Char)
  signal : Option Signal

/-- The calls of `reportCPUUtil`. -/
def reportCPUUtil (run : ReportRun) : List StreamCall :=
  [.fputs (startedText "CPU Utilization" run.pid run.tid),
      .fputs (timeText "Start" "CPU Utilization" run.startTime)] ++
    run.reports.map checkStatFile ++ signalText "CPU utilization" run.signal ++
    [.fputs (timeText "End" "CPU Utilization" run.endTime), .fflush, .fclose]

/-! ### The log -/

/-- The calls of the two threads. -/
def logging (characterRun : CharacterRun) (reportRun : ReportRun) : Thread → List StreamCall
  | .processCharacters => processCharacters characterRun
  | .reportCPUUtil => reportCPUUtil reportRun

section Texts

variable {call : StreamCall}

/-- A call that puts a line, or nothing. -/
def EndsLine (call : StreamCall) : Prop := ∀ last ∈ call.text.getLast?, last = '\n'

/-- A call that puts nothing. -/
theorem endsLine_of_text_eq_nil (htext : call.text = []) : EndsLine call := by
  intro last hlast
  rw [htext] at hlast
  cases hlast

/-- A text whose last part ends with a newline. -/
theorem endsLine_append (text : List Char) {line : List Char} (hline : line.getLast? = some '\n') :
    EndsLine (.fputs (text ++ line)) := by
  intro last hlast
  change last ∈ (text ++ line).getLast? at hlast
  rw [List.getLast?_append, hline] at hlast
  exact (Option.some.inj hlast).symm

/-- A text that is made with a newline at its end. -/
theorem endsLine_fputs (text : List Char) : EndsLine (.fputs (text ++ "\n".toList)) :=
  endsLine_append text rfl

theorem endsLine_signalText {thread : String} {signal : Option Signal}
    (hcall : call ∈ signalText thread signal) : EndsLine call := by
  match signal, hcall with
  | some .sigusr1, hcall =>
    rw [List.mem_singleton.mp hcall]
    exact endsLine_append _ (by decide)
  | some .sigusr2, hcall =>
    rw [List.mem_singleton.mp hcall]
    exact endsLine_append _ (by decide)

theorem endsLine_endingText {ending : Ending} (hcall : call ∈ endingText ending) :
    EndsLine call := by
  cases ending with
  | signalled line => exact endsLine_signalText hcall
  | completion =>
    rw [List.mem_singleton.mp hcall]
    exact endsLine_append [] (by decide)

theorem endsLine_letterText {count : UInt32} {i : ℕ} (hcall : call ∈ letterText count i) :
    EndsLine call := by
  unfold letterText at hcall
  split_ifs at hcall
  · rw [List.mem_singleton.mp hcall]
    exact endsLine_fputs (_ :: _ :: _)
  · cases hcall

theorem endsLine_flushAndClose {charCounts : List UInt32} {endTime : Timespec}
    (hcall : call ∈ flushAndClose charCounts endTime) : EndsLine call := by
  rcases List.mem_append.mp hcall with hletter | hend
  · obtain ⟨entry, -, hentry⟩ := List.mem_flatMap.mp hletter
    exact endsLine_letterText hentry
  · simp only [List.mem_cons, List.not_mem_nil, or_false] at hend
    rcases hend with rfl | rfl | rfl
    · exact endsLine_fputs _
    · exact endsLine_of_text_eq_nil rfl
    · exact endsLine_of_text_eq_nil rfl

/-- Each text that a thread puts into its stream ends with a newline. -/
theorem endsLine_logging (characterRun : CharacterRun) (reportRun : ReportRun) (thread : Thread)
    (hcall : call ∈ logging characterRun reportRun thread) : EndsLine call := by
  cases thread with
  | processCharacters =>
    change call ∈ processCharacters characterRun at hcall
    simp only [processCharacters, List.mem_append, List.mem_cons, List.not_mem_nil,
      or_false] at hcall
    rcases hcall with (((rfl | rfl) | hending) | rfl) | hclose
    · exact endsLine_fputs _
    · exact endsLine_fputs _
    · exact endsLine_endingText hending
    · exact endsLine_of_text_eq_nil rfl
    · exact endsLine_flushAndClose hclose
  | reportCPUUtil =>
    change call ∈ reportCPUUtil reportRun at hcall
    simp only [reportCPUUtil, List.mem_append, List.mem_cons, List.not_mem_nil, or_false,
      List.mem_map] at hcall
    rcases hcall with (((rfl | rfl) | ⟨line, -, rfl⟩) | hsignal) | rfl | rfl | rfl
    · exact endsLine_fputs _
    · exact endsLine_fputs _
    · exact endsLine_fputs _
    · exact endsLine_signalText hsignal
    · exact endsLine_fputs _
    · exact endsLine_of_text_eq_nil rfl
    · exact endsLine_of_text_eq_nil rfl

/-- Each thread closes its stream at the end. -/
theorem getLast?_logging (characterRun : CharacterRun) (reportRun : ReportRun) (thread : Thread) :
    (logging characterRun reportRun thread).getLast? = some .fclose := by
  cases thread with
  | processCharacters =>
    change (processCharacters characterRun).getLast? = _
    rw [processCharacters, flushAndClose, List.getLast?_append, List.getLast?_append]
    rfl
  | reportCPUUtil =>
    change (reportCPUUtil reportRun).getLast? = _
    rw [reportCPUUtil, List.getLast?_append]
    rfl

end Texts

/-- What a thread has put into its stream. -/
def logText (characterRun : CharacterRun) (reportRun : ReportRun) (thread : Thread) : List Char :=
  ((logging characterRun reportRun thread).map StreamCall.text).flatten

/-- **The log consists of whole lines exactly when the threads do not break into each other's
lines.** For every contents of `gdb.txt`, all reports, all endings of the threads, every capacity of
the buffers and every interleaving of the calls: the log at the end consists of complete lines, each
written by one thread and those of a thread in its order, exactly when no call has appended to a log
that ended inside a line of the other thread. -/
theorem logging_wholeLines_iff (capacity : ℕ) (characterRun : CharacterRun)
    (reportRun : ReportRun) {events : List Thread} {final : SharedFile Thread}
    (hrun : (writing capacity (logging characterRun reportRun)).run
      (writing capacity (logging characterRun reportRun)).initial events = some final)
    (hfinished : ∀ thread, (final.stream thread).calls = []) :
    WholeLines final.contents (logText characterRun reportRun) ↔
      (writing capacity (logging characterRun reportRun)).Along (Seamless capacity)
        (writing capacity (logging characterRun reportRun)).initial events :=
  wholeLines_iff (getLast?_logging characterRun reportRun)
    (fun thread _ hcall ↦ endsLine_logging characterRun reportRun thread hcall) hrun hfinished

/-- A report with the first line of a `/proc/stat`. -/
def statLine : List Char :=
  "cpu  10132153 290696 3084719 46828483 16683 0 25195 0 175628 0 0\n".toList

/-- A character thread that has read one letter, and a reporting thread with twelve reports. -/
def tornRuns : CharacterRun × ReportRun :=
  (⟨⟨4296, 4298, ⟨1551000000, 0⟩, ⟨1551000001, 0⟩⟩, [97, 10], .completion⟩,
    ⟨⟨4296, 4299, ⟨1551000000, 0⟩, ⟨1551000005, 0⟩⟩, List.replicate 12 statLine, some .sigusr1⟩)

/-- **A record can be torn.** With buffers of 1024 characters, the eleventh of twelve reports fills
the buffer before the end of its line; the character thread ends before the reporting thread does,
so its lines come in between. -/
theorem log_torn : ¬ ∀ capacity characterRun reportRun events (final : SharedFile Thread),
    (writing capacity (logging characterRun reportRun)).run
      (writing capacity (logging characterRun reportRun)).initial events = some final →
    (∀ thread, (final.stream thread).calls = []) →
    WholeLines final.contents (logText characterRun reportRun) := by
  intro hwhole
  have hrun : ((writing 1024 (logging tornRuns.1 tornRuns.2)).run
      (writing 1024 (logging tornRuns.1 tornRuns.2)).initial
      (List.replicate 14 Thread.reportCPUUtil ++ List.replicate 8 Thread.processCharacters ++
        List.replicate 4 Thread.reportCPUUtil)).any (fun final ↦
          decide ((final.stream .processCharacters).calls = []) &&
          decide ((final.stream .reportCPUUtil).calls = []) &&
          !decide (Unbroken final.contents)) = true := by
    decide +kernel
  obtain ⟨final, hfinal, hend⟩ := (Option.any_eq_true _ _).mp hrun
  simp only [Bool.and_eq_true, Bool.not_eq_true', decide_eq_true_eq, decide_eq_false_iff_not]
    at hend
  obtain ⟨⟨hcharacters, hreports⟩, hbroken⟩ := hend
  have hfinished : ∀ thread, (final.stream thread).calls = [] := by
    intro thread
    cases thread with
    | processCharacters => exact hcharacters
    | reportCPUUtil => exact hreports
  obtain ⟨lines, hcomplete, hcontents, -⟩ := hwhole _ _ _ _ final hfinal hfinished
  rw [hcontents] at hbroken
  exact hbroken (unbroken_concatenation hcomplete).1

/-- With buffers of 128 characters, a reporting thread that is ended before its first report and a
character thread that starts in between and ends after it. -/
theorem logging_wholeLines_without_reports : ∃ final : SharedFile Thread,
    (writing 128 (logging tornRuns.1 { tornRuns.2 with reports := [] })).run
      (writing 128 (logging tornRuns.1 { tornRuns.2 with reports := [] })).initial
      (.processCharacters :: List.replicate 6 .reportCPUUtil ++
        List.replicate 7 .processCharacters) = some final ∧
      WholeLines final.contents (logText tornRuns.1 { tornRuns.2 with reports := [] }) := by
  have hrun : ∃ final, (writing 128 (logging tornRuns.1 { tornRuns.2 with reports := [] })).run
      (writing 128 (logging tornRuns.1 { tornRuns.2 with reports := [] })).initial
      (.processCharacters :: List.replicate 6 .reportCPUUtil ++
        List.replicate 7 .processCharacters) = some final ∧
      (final.stream .processCharacters).calls = [] ∧ (final.stream .reportCPUUtil).calls = [] :=
    ⟨_, rfl, rfl, rfl⟩
  obtain ⟨final, hfinal, hcharacters, hreports⟩ := hrun
  have hfinished : ∀ thread, (final.stream thread).calls = [] := by
    intro thread
    cases thread with
    | processCharacters => exact hcharacters
    | reportCPUUtil => exact hreports
  refine ⟨final, hfinal, (logging_wholeLines_iff _ _ _ hfinal hfinished).mpr ?_⟩
  decide +kernel

end Apes.PthreadTest
