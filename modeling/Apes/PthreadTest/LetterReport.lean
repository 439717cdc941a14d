import Apes.Library.CheckedExecution
import Apes.PthreadTest.LogFile
import Mathlib.Algebra.Ring.Nat
import Mathlib.Data.List.GetD

/-!
# The letter report of `pthreadtest.c`

`processCharacters` reads `gdb.txt` with a loop on `feof`, so the value that `fgetc` returns at the
end of the file passes through the body like a byte. What `fgetc` returns is narrowed to a plain
`char`, which is signed on some targets and unsigned on others (`PlainChar`), before `isalpha` and
`toupper` see it. After each value the thread polls for its kill signal and may leave the loop. The
counters are an array, so every index is checked by `load` and `store`.

`Stops` lists the points at which the loop can stop. At each of them the counters are those of the
bytes read so far (`readLoop_spec`), the calls are those of the model that the log file uses
(`runProcessCharacters_eq`), and the lines of the letters are the report on these bytes
(`letterReport_exact`): the letters with 1 to 99 occurrences in either case, in alphabetical order,
each with its number.
-/

set_option autoImplicit false
set_option relaxedAutoImplicit false

namespace Apes.PthreadTest

open Library

/-! ### Characters -/

/-- Whether a plain `char` is signed on the target. -/
inductive PlainChar
  | signed
  | unsigned

/-- The value of a plain `char` to which an `int` is assigned, promoted back to `int`. -/
def PlainChar.narrow (value : ℤ) : PlainChar → ℤ
  | .signed => (value + 128) % 256 - 128
  | .unsigned => value % 256

/-- `isalpha` of an `int` in the C locale. -/
def isalphaInt (ip : ℤ) : Bool := decide (65 ≤ ip ∧ ip ≤ 90) || decide (97 ≤ ip ∧ ip ≤ 122)

/-- `toupper` of an `int` in the C locale. -/
def toupperInt (ip : ℤ) : ℤ := if 97 ≤ ip ∧ ip ≤ 122 then ip - 32 else ip

/-- What `fgetc` returns at the end of the file. -/
def eofValue : ℤ := -1

/-- A stream that is read: the bytes that are left, and its end-of-file indicator. -/
structure InputStream where
  rest : List UInt8
  feof : Bool

/-- `fgetc`: the next byte, or the end-of-file value, which sets the indicator. -/
def InputStream.fgetc (fread : InputStream) : ℤ × InputStream :=
  match fread.rest with
  | [] => (eofValue, { fread with feof := true })
  | byte :: rest => (byte.toNat, { fread with rest := rest })

/-! ### The loop -/

/-- The variables of the loop: the stream, the counters, the number of polls made, and how the
thread ends when a poll has noticed its signal. -/
structure Reading where
  fread : InputStream
  charCounts : List UInt32
  polls : ℕ
  noticed : Option Ending

/-- `if (isalpha(ip)) ++charCounts[toupper(ip)-ALPHA_ASCII_OFFSET];` -/
def countValue (charCounts : List UInt32) (ip : ℤ) : Except Fault (List UInt32) :=
  if isalphaInt ip then do
    let index := toupperInt ip - alphaAsciiOffset
    let count ← load charCounts index
    store charCounts index (count + 1)
  else pure charCounts

/-- The body of the loop. A poll that notices the signal gives the line for it. -/
def readStep (char : PlainChar) (poll : ℕ → Option (Option Signal)) (reading : Reading) :
    Except Fault Reading := do
  let (value, fread) := reading.fread.fgetc
  let charCounts ← countValue reading.charCounts (char.narrow value)
  pure ⟨fread, charCounts, reading.polls + 1, (poll reading.polls).map .signalled⟩

/-- `while (!feof(fread)) { … }`, with the return out of its body. -/
def readLoop (char : PlainChar) (poll : ℕ → Option (Option Signal)) (gdb : List UInt8) :
    Except Fault Reading :=
  whileLoop (fun reading ↦ !reading.fread.feof && reading.noticed.isNone) (readStep char poll)
    (gdb.length + 1) ⟨⟨gdb, false⟩, List.replicate alphaCount 0, 0, none⟩

/-- The variables of the loop of `flushAndClose`, and the calls made so far. -/
structure Flushing where
  i : ℕ
  calls : List StreamCall

/-- The body of the loop of `flushAndClose`. -/
def flushStep (charCounts : List UInt32) (flushing : Flushing) : Except Fault Flushing := do
  let count ← load charCounts flushing.i
  pure ⟨flushing.i + 1, flushing.calls ++ letterText count flushing.i⟩

/-- `for (i=0; i<ALPHA_COUNT; i++) { … }` -/
def flushLetters (charCounts : List UInt32) : Except Fault Flushing :=
  whileLoop (fun flushing ↦ decide (flushing.i < alphaCount)) (flushStep charCounts) alphaCount
    ⟨0, []⟩

/-- The calls that `processCharacters` makes on the log. -/
def runProcessCharacters (char : PlainChar) (poll : ℕ → Option (Option Signal)) (run : ThreadRun)
    (gdb : List UInt8) : Except Fault (List StreamCall) := do
  let reading ← readLoop char poll gdb
  let letters ← flushLetters reading.charCounts
  pure ([.fputs (startedText "Character Processing" run.pid run.tid),
      .fputs (timeText "Start" "Character Processing" run.startTime)] ++
    endingText (reading.noticed.getD .completion) ++ [.fflush] ++ letters.calls ++
    [.fputs (timeText "End" "Character Processing" run.endTime), .fflush, .fclose])

/-! ### The report -/

/-- The points at which the loop can stop, with the bytes read before them: the first poll that
notices the signal, after a byte or after the end-of-file value, or the end of the file when no poll
does. -/
inductive Stops (poll : ℕ → Option (Option Signal)) (gdb : List UInt8) :
    List UInt8 → Ending → Prop
  | signalled (round : ℕ) (line : Option Signal) (hround : round ≤ gdb.length)
      (hbefore : ∀ earlier < round, poll earlier = none) (hpoll : poll round = some line) :
      Stops poll gdb (gdb.take (round + 1)) (.signalled line)
  | completion (hnever : ∀ round ≤ gdb.length, poll round = none) :
      Stops poll gdb gdb .completion

/-- A byte is the `i`-th letter, in upper case or in lower case. -/
def IsLetter (i : ℕ) (byte : UInt8) : Prop := byte.toNat = 65 + i ∨ byte.toNat = 97 + i

instance (i : ℕ) (byte : UInt8) : Decidable (IsLetter i byte) :=
  inferInstanceAs (Decidable (_ ∨ _))

/-- The number of case-insensitive occurrences of the `i`-th letter. -/
def occurrences (read : List UInt8) (i : ℕ) : ℕ := read.countP fun byte ↦ IsLetter i byte

/-- The line of a letter with its number. -/
def letterLine (i count : ℕ) : List Char :=
  Char.ofNat (i + alphaAsciiOffset) :: ':' :: decimal count ++ "\n".toList

/-- The report on the bytes read: the letters with 1 to 99 occurrences in alphabetical order. -/
def letterReport (read : List UInt8) : List (List Char) :=
  ((List.range alphaCount).filter fun i ↦
    1 ≤ occurrences read i ∧ occurrences read i ≤ 99).map fun i ↦ letterLine i (occurrences read i)

/-! ### One value -/

/-- A byte below 128 has the same value in a signed `char` as in an unsigned one. -/
theorem PlainChar.narrow_of_lt (char : PlainChar) {byte : UInt8} (hbyte : byte.toNat < 128) :
    char.narrow byte.toNat = byte.toNat := by
  cases char with
  | signed =>
    show ((byte.toNat : ℤ) + 128) % 256 - 128 = byte.toNat
    omega
  | unsigned =>
    show (byte.toNat : ℤ) % 256 = byte.toNat
    omega

/-- The end-of-file value is no letter, whatever `char` it is narrowed to. -/
theorem isalphaInt_eofValue (char : PlainChar) : isalphaInt (char.narrow eofValue) = false := by
  cases char <;> decide

/-- A narrowed byte is a letter exactly when the byte is. -/
theorem isalphaInt_narrow (char : PlainChar) (byte : UInt8) :
    isalphaInt (char.narrow byte.toNat) = isalpha byte := by
  have hbound := byte.toNat_lt
  rw [Bool.eq_iff_iff]
  simp only [isalphaInt, isalpha, Bool.or_eq_true, Bool.and_eq_true, decide_eq_true_eq,
    UInt8.le_iff_toNat_le, UInt8.toNat_ofNat]
  cases char with
  | signed =>
    simp only [PlainChar.narrow]
    omega
  | unsigned =>
    simp only [PlainChar.narrow]
    omega

/-- A letter among the 26 in terms of the index that the program computes. -/
theorem isLetter_iff {i : ℕ} (hi : i < alphaCount) (byte : UInt8) :
    IsLetter i byte ↔ isalpha byte = true ∧ (toupper byte).toNat = i + alphaAsciiOffset := by
  change i < 26 at hi
  show _ ∨ _ ↔ _ ∧ _ = i + 65
  by_cases hlower : 97 ≤ byte ∧ byte ≤ 122
  · have hupper : toupper byte = byte - 32 := by simp only [toupper, hlower.1, hlower.2]; rfl
    have hsub : (byte - 32).toNat = byte.toNat - 32 :=
      UInt8.toNat_sub_of_le _ _ (UInt8.le_trans (by decide) hlower.1)
    simp only [isalpha, hupper, hsub, Bool.or_eq_true, Bool.and_eq_true, decide_eq_true_eq,
      UInt8.le_iff_toNat_le, UInt8.toNat_ofNat] at hlower ⊢
    omega
  · have hupper : toupper byte = byte := by
      rw [toupper, if_neg (by simpa using hlower)]
    simp only [isalpha, hupper, Bool.or_eq_true, Bool.and_eq_true, decide_eq_true_eq,
      UInt8.le_iff_toNat_le, UInt8.toNat_ofNat] at hlower ⊢
    omega

/-- A letter is one of the 26. -/
theorem exists_isLetter {byte : UInt8} (halpha : isalpha byte = true) :
    ∃ i < alphaCount, IsLetter i byte := by
  simp only [isalpha, Bool.or_eq_true, Bool.and_eq_true, decide_eq_true_eq,
    UInt8.le_iff_toNat_le, UInt8.toNat_ofNat] at halpha
  obtain hupper | hlower := halpha
  · exact ⟨byte.toNat - 65, by rw [alphaCount]; omega, Or.inl (by omega)⟩
  · exact ⟨byte.toNat - 97, by rw [alphaCount]; omega, Or.inr (by omega)⟩

/-- The index computed from a narrowed letter. -/
theorem toupperInt_narrow (char : PlainChar) {i : ℕ} {byte : UInt8} (hi : i < alphaCount)
    (hletter : IsLetter i byte) :
    toupperInt (char.narrow byte.toNat) - alphaAsciiOffset = i := by
  change i < 26 at hi
  have hbyte : byte.toNat < 128 := by
    obtain hupper | hlower := hletter
    · omega
    · omega
  rw [char.narrow_of_lt hbyte, toupperInt]
  show _ - ((65 : ℕ) : ℤ) = _
  obtain hupper | hlower := hletter
  · rw [if_neg (by omega)]
    omega
  · rw [if_pos (by omega)]
    omega

/-- A byte is counted as in the model of the log file, without a fault. -/
theorem countValue_byte (char : PlainChar) (byte : UInt8) {charCounts : List UInt32}
    (hlength : charCounts.length = alphaCount) :
    countValue charCounts (char.narrow byte.toNat) = .ok (countCharacter charCounts byte) := by
  rw [countValue, isalphaInt_narrow, countCharacter]
  by_cases halpha : isalpha byte = true
  · obtain ⟨i, hi, hletter⟩ := exists_isLetter halpha
    have hupper := ((isLetter_iff hi byte).mp hletter).2
    have hbound : i < charCounts.length := hlength ▸ hi
    have hload : load charCounts i = .ok charCounts[i] :=
      load_natCast (List.getElem?_eq_getElem hbound)
    simp only [if_pos halpha, toupperInt_narrow char hi hletter, hload, ok_bind, hupper,
      Nat.add_sub_cancel, store]
    rw [if_pos ⟨by omega, by omega⟩, List.modify_eq_set_getElem?, Int.toNat_natCast,
      List.getElem?_eq_getElem hbound]
    rfl
  · rw [if_neg halpha, if_neg halpha, pure_eq_ok]

/-- The end-of-file value is not counted. -/
theorem countValue_eofValue (char : PlainChar) (charCounts : List UInt32) :
    countValue charCounts (char.narrow eofValue) = .ok charCounts := by
  rw [countValue, isalphaInt_eofValue]
  rfl

/-! ### The counters -/

@[simp] theorem length_countCharacter (counts : List UInt32) (byte : UInt8) :
    (countCharacter counts byte).length = counts.length := by
  unfold countCharacter
  split_ifs
  · exact List.length_modify _ _ _
  · rfl

/-- The counters after one more byte. -/
theorem charCounts_append_singleton (read : List UInt8) (byte : UInt8) :
    charCounts (read ++ [byte]) = countCharacter (charCounts read) byte :=
  List.foldl_concat _ _ _ _

@[simp] theorem length_charCounts (read : List UInt8) :
    (charCounts read).length = alphaCount := by
  induction read using List.reverseRecOn with
  | nil => exact List.length_replicate
  | append_singleton read byte ih =>
    rw [charCounts_append_singleton, length_countCharacter, ih]

/-- What a byte does to one counter. -/
theorem getElem?_countCharacter (counts : List UInt32) (byte : UInt8) {i : ℕ}
    (hi : i < alphaCount) :
    (countCharacter counts byte)[i]? =
      counts[i]?.map fun count ↦ if IsLetter i byte then count + 1 else count := by
  rw [countCharacter]
  by_cases halpha : isalpha byte = true
  · obtain ⟨letter, hletter, hbyte⟩ := exists_isLetter halpha
    have hupper := ((isLetter_iff hletter byte).mp hbyte).2
    have hsame : letter = i ↔ IsLetter i byte := by
      rw [isLetter_iff hi byte, hupper]
      exact ⟨fun heq ↦ ⟨halpha, heq ▸ rfl⟩, fun hboth ↦ Nat.add_right_cancel hboth.2⟩
    rw [if_pos halpha, hupper, Nat.add_sub_cancel, List.getElem?_modify]
    simp only [hsame]
    rfl
  · have hother : ¬ IsLetter i byte := fun hbyte ↦ halpha ((isLetter_iff hi byte).mp hbyte).1
    simp only [if_neg halpha, if_neg hother]
    exact (congrFun Option.map_id _).symm

/-- A counter is the number of occurrences of its letter, in 32 bits. -/
theorem getElem?_charCounts (read : List UInt8) {i : ℕ} (hi : i < alphaCount) :
    (charCounts read)[i]? = some (UInt32.ofNat (occurrences read i)) := by
  induction read using List.reverseRecOn with
  | nil => exact List.getElem?_replicate_of_lt hi
  | append_singleton read byte ih =>
    rw [charCounts_append_singleton, getElem?_countCharacter _ _ hi, ih, Option.map_some,
      occurrences, occurrences, List.countP_append, List.countP_singleton]
    by_cases hletter : IsLetter i byte
    · rw [if_pos hletter, if_pos (decide_eq_true hletter), UInt32.ofNat_add]
      rfl
    · rw [if_neg hletter, if_neg (by simpa using hletter), Nat.add_zero]

/-- The counters with their indices, as a list over the letters. -/
theorem zipIdx_charCounts (read : List UInt8) :
    (charCounts read).zipIdx =
      (List.range alphaCount).map fun i ↦ (UInt32.ofNat (occurrences read i), i) := by
  refine List.ext_getElem? fun i ↦ ?_
  rw [List.getElem?_zipIdx, List.getElem?_map, Nat.zero_add]
  by_cases hi : i < alphaCount
  · rw [getElem?_charCounts read hi, List.getElem?_range hi]
    rfl
  · have hcounts : (charCounts read).length ≤ i := by
      rw [length_charCounts]
      omega
    have hletters : (List.range alphaCount).length ≤ i := by
      rw [List.length_range]
      omega
    rw [List.getElem?_eq_none hcounts, List.getElem?_eq_none hletters]
    rfl

/-! ### The loops -/

/-- Where a poll leaves a loop that has read some bytes. -/
theorem stops_of_poll {poll : ℕ → Option (Option Signal)} {read : List UInt8}
    {line : Option Signal} (rest : List UInt8)
    (hbefore : ∀ earlier < read.length, poll earlier = none)
    (hpoll : poll read.length = some line) :
    Stops poll (read ++ rest) (read ++ rest.head?.toList) (.signalled line) := by
  have htake : read ++ rest.head?.toList = (read ++ rest).take (read.length + 1) := by
    rw [List.take_length_add_append, List.take_one]
  rw [htake]
  exact .signalled _ _ (by rw [List.length_append]; omega) hbefore hpoll

section Rounds

variable (char : PlainChar) (poll : ℕ → Option (Option Signal)) (read : List UInt8)

/-- A round at the end of the file sets its indicator and counts nothing. -/
theorem readStep_endOfFile :
    readStep char poll ⟨⟨[], false⟩, charCounts read, read.length, none⟩ =
      .ok ⟨⟨[], true⟩, charCounts read, read.length + 1, (poll read.length).map .signalled⟩ := by
  simp only [readStep, InputStream.fgetc, countValue_eofValue, ok_bind, pure_eq_ok]

/-- A round with a byte counts it. -/
theorem readStep_byte (byte : UInt8) (rest : List UInt8) :
    readStep char poll ⟨⟨byte :: rest, false⟩, charCounts read, read.length, none⟩ =
      .ok ⟨⟨rest, false⟩, charCounts (read ++ [byte]), (read ++ [byte]).length,
        (poll read.length).map .signalled⟩ := by
  simp only [readStep, InputStream.fgetc, countValue_byte char byte (length_charCounts read),
    ok_bind, pure_eq_ok, charCounts_append_singleton, List.length_append, List.length_singleton]

end Rounds

/-- The loop from a point where it has read some bytes and no poll has noticed a signal: it ends,
at a point where it can stop, with the counters of the bytes read. -/
theorem readLoop_from (char : PlainChar) (poll : ℕ → Option (Option Signal))
    (read rest : List UInt8) (hbefore : ∀ earlier < read.length, poll earlier = none) :
    ∃ final all ending, whileLoop
        (fun reading ↦ !reading.fread.feof && reading.noticed.isNone) (readStep char poll)
        (rest.length + 1) ⟨⟨rest, false⟩, charCounts read, read.length, none⟩ = .ok final ∧
      Stops poll (read ++ rest) all ending ∧ final.charCounts = charCounts all ∧
      final.noticed.getD .completion = ending := by
  induction rest generalizing read with
  | nil =>
    refine ⟨_, read, _, (whileLoop_next rfl (readStep_endOfFile char poll read) 0).trans
      (whileLoop_exit rfl 0), ?_, rfl, rfl⟩
    cases hpoll : poll read.length with
    | none =>
      rw [List.append_nil]
      exact .completion fun round hround ↦
        Nat.forall_lt_succ_right.mpr ⟨hbefore, hpoll⟩ round (Nat.lt_succ_of_le hround)
    | some line => simpa using stops_of_poll [] hbefore hpoll
  | cons byte rest ih =>
    rw [List.length_cons, whileLoop_next rfl (readStep_byte char poll read byte rest)]
    cases hpoll : poll read.length with
    | none =>
      have hearlier : ∀ earlier < (read ++ [byte]).length, poll earlier = none := by
        rw [List.length_append, List.length_singleton]
        exact Nat.forall_lt_succ_right.mpr ⟨hbefore, hpoll⟩
      have hrest := ih (read ++ [byte]) hearlier
      rw [List.append_assoc, List.singleton_append] at hrest
      exact hrest
    | some line =>
      exact ⟨_, read ++ [byte], .signalled line, whileLoop_exit rfl _,
        stops_of_poll (byte :: rest) hbefore hpoll, rfl, rfl⟩

/-- The loop ends at a point where it can stop, with the counters of the bytes read. -/
theorem readLoop_spec (char : PlainChar) (poll : ℕ → Option (Option Signal))
    (gdb : List UInt8) :
    ∃ final read ending, readLoop char poll gdb = .ok final ∧ Stops poll gdb read ending ∧
      final.charCounts = charCounts read ∧ final.noticed.getD .completion = ending :=
  readLoop_from char poll [] gdb fun _ hless ↦ absurd hless (Nat.not_lt_zero _)

/-- The loop of `flushAndClose` from a counter on. -/
theorem flushLetters_from (done todo : List UInt32) (calls : List StreamCall)
    (hlength : (done ++ todo).length = alphaCount) :
    whileLoop (fun flushing ↦ decide (flushing.i < alphaCount)) (flushStep (done ++ todo))
        todo.length ⟨done.length, calls⟩ =
      .ok ⟨alphaCount, calls ++ (todo.zipIdx done.length).flatMap fun entry ↦
        letterText entry.1 entry.2⟩ := by
  induction todo generalizing done calls with
  | nil =>
    rw [List.append_nil] at hlength ⊢
    rw [hlength]
    refine (whileLoop_exit (by simp) 0).trans ?_
    rw [List.zipIdx_nil, List.flatMap_nil, List.append_nil]
  | cons count todo ih =>
    have hless : done.length < alphaCount := by
      rw [List.length_append, List.length_cons] at hlength
      omega
    have hround : flushStep (done ++ count :: todo) ⟨done.length, calls⟩ =
        .ok ⟨done.length + 1, calls ++ letterText count done.length⟩ := by
      simp only [flushStep, load_append_cons done todo count rfl, ok_bind, pure_eq_ok]
    have hshift : done ++ count :: todo = done ++ [count] ++ todo := by
      rw [List.append_assoc, List.singleton_append]
    rw [List.length_cons, whileLoop_next ?_ hround]
    · rw [hshift] at hlength ⊢
      have hrest := ih (done ++ [count]) (calls ++ letterText count done.length) hlength
      rw [List.length_append, List.length_singleton] at hrest
      rw [hrest, List.zipIdx_cons, List.flatMap_cons, List.append_assoc]
    · exact decide_eq_true hless

/-- The loop of `flushAndClose` makes the calls of the model of the log file. Assumes: the array of
26 counters. -/
theorem flushLetters_spec {charCounts : List UInt32} (hlength : charCounts.length = alphaCount) :
    flushLetters charCounts =
      .ok ⟨alphaCount, charCounts.zipIdx.flatMap fun entry ↦ letterText entry.1 entry.2⟩ := by
  have hloop := flushLetters_from [] charCounts [] hlength
  rw [hlength] at hloop
  exact hloop

/-- The run returns, and its calls are those of the model of the log file for the bytes read before
a point where the loop can stop. -/
theorem runProcessCharacters_eq (char : PlainChar) (poll : ℕ → Option (Option Signal))
    (run : ThreadRun) (gdb : List UInt8) :
    ∃ read ending, Stops poll gdb read ending ∧
      runProcessCharacters char poll run gdb = .ok (processCharacters ⟨run, read, ending⟩) := by
  obtain ⟨final, read, ending, hloop, hstops, hcounts, hending⟩ := readLoop_spec char poll gdb
  refine ⟨read, ending, hstops, ?_⟩
  have hlength : final.charCounts.length = alphaCount := by rw [hcounts, length_charCounts]
  have hletters := flushLetters_spec hlength
  rw [hcounts] at hletters
  simp only [runProcessCharacters, hloop, ok_bind, hcounts, hletters, pure_eq_ok, hending,
    processCharacters, flushAndClose, List.append_assoc]

/-! ### The lines of the letters -/

/-- The call for a counter that has not wrapped: the line of the letter when it has occurred 1 to 99
times. -/
theorem letterText_ofNat {count : ℕ} (hcount : count < 4294967296) (i : ℕ) :
    letterText (UInt32.ofNat count) i =
      if 1 ≤ count ∧ count ≤ 99 then [.fputs (letterLine i count)] else [] := by
  have hvalue : (UInt32.ofNat count).toNat = count := UInt32.toNat_ofNat_of_lt' hcount
  have hreported : UInt32.ofNat count < 100 ∧ UInt32.ofNat count > 0 ↔ 1 ≤ count ∧ count ≤ 99 := by
    rw [gt_iff_lt, UInt32.lt_iff_toNat_lt, UInt32.lt_iff_toNat_lt, hvalue]
    show count < 100 ∧ 0 < count ↔ _
    omega
  simp only [letterText, hreported, hvalue]
  rfl

/-- The calls for the counters of the bytes read are the lines of the report. Assumes: no letter has
occurred `2 ^ 32` times. -/
theorem letters_eq_report {read : List UInt8}
    (hcounts : ∀ i < alphaCount, occurrences read i < 4294967296) :
    ((charCounts read).zipIdx.flatMap fun entry ↦ letterText entry.1 entry.2) =
      (letterReport read).map .fputs := by
  have hletters : ∀ i ∈ List.range alphaCount, occurrences read i < 4294967296 :=
    fun i hi ↦ hcounts i (List.mem_range.mp hi)
  rw [zipIdx_charCounts, List.flatMap_map, letterReport]
  generalize List.range alphaCount = letters at hletters
  induction letters with
  | nil => rfl
  | cons i letters ih =>
    rw [List.forall_mem_cons] at hletters
    rw [List.flatMap_cons, ih hletters.2, letterText_ofNat hletters.1, List.filter_cons]
    simp only [decide_eq_true_eq]
    by_cases hreported : 1 ≤ occurrences read i ∧ occurrences read i ≤ 99
    · rw [if_pos hreported, if_pos hreported]
      rfl
    · rw [if_neg hreported, if_neg hreported]
      rfl

/-- **The letter report is exact.** For either signedness of `char`, every contents of `gdb.txt` and
every outcome of the polls, the loop stops at one of its points, and unless a letter has occurred
`2 ^ 32` times in the bytes read until then, the thread runs without a fault and the lines between
the one about its end and the one with its end time are the report on these bytes. -/
theorem letterReport_exact (char : PlainChar) (poll : ℕ → Option (Option Signal))
    (run : ThreadRun) (gdb : List UInt8) :
    ∃ read ending, Stops poll gdb read ending ∧
      ((∀ i < alphaCount, occurrences read i < 4294967296) →
        runProcessCharacters char poll run gdb =
          .ok ([.fputs (startedText "Character Processing" run.pid run.tid),
              .fputs (timeText "Start" "Character Processing" run.startTime)] ++
            endingText ending ++ [.fflush] ++ (letterReport read).map .fputs ++
            [.fputs (timeText "End" "Character Processing" run.endTime), .fflush, .fclose])) := by
  obtain ⟨read, ending, hstops, hrun⟩ := runProcessCharacters_eq char poll run gdb
  refine ⟨read, ending, hstops, fun hcounts ↦ ?_⟩
  rw [hrun, processCharacters, flushAndClose, letters_eq_report hcounts, ← List.append_assoc]

/-- The bytes `aB`, a newline and `A`, read to the end of the file where `char` is signed. -/
theorem letterReport_exact_short :
    runProcessCharacters .signed (fun _ ↦ none) ⟨4296, 4298, ⟨1551000000, 0⟩, ⟨1551000001, 0⟩⟩
        [97, 66, 10, 65] =
      .ok ([.fputs (startedText "Character Processing" 4296 4298),
          .fputs (timeText "Start" "Character Processing" ⟨1551000000, 0⟩)] ++
        endingText .completion ++ [.fflush] ++ [.fputs "A:2\n".toList, .fputs "B:1\n".toList] ++
        [.fputs (timeText "End" "Character Processing" ⟨1551000001, 0⟩), .fflush, .fclose]) := by
  obtain ⟨read, ending, hstops, hexact⟩ := letterReport_exact .signed (fun _ ↦ none)
    ⟨4296, 4298, ⟨1551000000, 0⟩, ⟨1551000001, 0⟩⟩ [97, 66, 10, 65]
  cases hstops with
  | signalled round line hround hbefore hpoll => cases hpoll
  | completion hnever => exact hexact (by decide)

end Apes.PthreadTest
