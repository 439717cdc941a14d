import Apes.Library.CheckedExecution
import Apes.PthreadTest.LogFile
import Mathlib.Algebra.Ring.Nat
import Mathlib.Data.Finset.Card
import Mathlib.Data.Finset.SDiff
import Mathlib.Data.Finset.Range

/-!
# The reports of `checkStatFile`

For each tick `reportCPUUtil` calls `checkStatFile`, which opens `/proc/stat`, reads its first line,
makes the record with `sprintf` in a buffer of 100 bytes and puts it into the log.

The stream is never closed. `Files` are the descriptors that a process has open under its limit, and
`fopen` takes the least free one, or returns `NULL`, which `getline` then dereferences. Each call
keeps one more descriptor (`fopen_free`), so no call leaves the set of open streams as it was, and
exactly as many calls obtain a stream as there were free descriptors (`keepsStreams_iff`).

The record is made without looking at its length. `length_record` gives the length from the decimal
digits of the counters in the line, and `recordFits_iff` the condition under which it stays within
the buffer.
-/

set_option autoImplicit false
set_option relaxedAutoImplicit false

namespace Apes.PthreadTest

open Library

/-! ### The streams -/

/-- The descriptors that a process has open, and its limit: the descriptors below it may be used. -/
structure Files where
  limit : ℕ
  opened : Finset ℕ

/-- The free descriptors. -/
def Files.free (files : Files) : Finset ℕ := Finset.range files.limit \ files.opened

/-- `fopen`: the least free descriptor is opened; `NULL` when there is none. -/
def fopen (files : Files) : Option (ℕ × Files) :=
  ((List.range files.limit).find? fun descriptor ↦ descriptor ∉ files.opened).map fun descriptor ↦
    (descriptor, { files with opened := insert descriptor files.opened })

/-- `checkStatFile` on the open files, for the first line that `/proc/stat` has at that time: the
call on the log, and the files open after it. -/
def runCheckStatFile (line : List Char) (files : Files) : Except Fault (StreamCall × Files) :=
  match fopen files with
  | none => .error .nullPointer
  | some (_, after) => .ok (checkStatFile line, after)

/-- The ticks that `reportCPUUtil` handles, each with the first line of `/proc/stat` at its time. -/
def reporting (files : Files) : System Files (List Char) where
  initial := files
  step files line :=
    match runCheckStatFile line files with
    | .ok (_, after) => some after
    | .error _ => none

/-- The files are open after a call exactly as before it. -/
def SameStreams (before : Files) (_ : List Char) (after : Files) : Prop :=
  after.opened = before.opened

/-- Every call of `checkStatFile` obtains a stream and leaves the set of open streams as it was. -/
def KeepsStreams (files : Files) (lines : List (List Char)) : Prop :=
  ((reporting files).run files lines).isSome = true ∧
    (reporting files).Along SameStreams files lines

/-- `fopen` returns `NULL` when no descriptor is free. -/
theorem fopen_eq_none_iff (files : Files) : fopen files = none ↔ files.free = ∅ := by
  rw [fopen, Option.map_eq_none_iff, List.find?_eq_none, Finset.eq_empty_iff_forall_notMem]
  simp only [List.mem_range, decide_not, Bool.not_eq_true', decide_eq_false_iff_not, not_not,
    Files.free, Finset.mem_sdiff, Finset.mem_range, not_and]

/-- A stream takes one of the free descriptors. -/
theorem fopen_free {files after : Files} {descriptor : ℕ}
    (hopen : fopen files = some (descriptor, after)) :
    descriptor ∈ files.free ∧ after.opened = insert descriptor files.opened ∧
      after.free = files.free.erase descriptor := by
  obtain ⟨found, hfound, hafter⟩ := Option.map_eq_some_iff.mp hopen
  obtain ⟨rfl, rfl⟩ := Prod.mk.inj hafter
  have hrange := List.mem_range.mp (List.mem_of_find?_eq_some hfound)
  have hnew : found ∉ files.opened := by simpa using List.find?_some hfound
  refine ⟨Finset.mem_sdiff.mpr ⟨Finset.mem_range.mpr hrange, hnew⟩, rfl, ?_⟩
  rw [Files.free, Files.free, Finset.sdiff_insert]

/-- A call that returns has taken one of the free descriptors. -/
theorem step_cases {files start after : Files} {line : List Char}
    (hstep : (reporting start).step files line = some after) :
    ∃ descriptor, fopen files = some (descriptor, after) := by
  cases hopen : fopen files with
  | none => simp [reporting, runCheckStatFile, hopen] at hstep
  | some opened =>
    obtain ⟨descriptor, next⟩ := opened
    simp only [reporting, runCheckStatFile, hopen, Option.some.injEq] at hstep
    exact ⟨descriptor, by rw [hstep]⟩

/-- As many calls obtain a stream as there are free descriptors. -/
theorem run_isSome_iff (start files : Files) (lines : List (List Char)) :
    ((reporting start).run files lines).isSome = true ↔ lines.length ≤ files.free.card := by
  induction lines generalizing files with
  | nil => exact iff_of_true rfl (Nat.zero_le _)
  | cons line rest ih =>
    rw [System.run_cons, List.length_cons]
    cases hstep : (reporting start).step files line with
    | none =>
      have hnone : files.free = ∅ := by
        rw [← fopen_eq_none_iff]
        cases hopen : fopen files with
        | none => rfl
        | some opened =>
          obtain ⟨descriptor, next⟩ := opened
          simp [reporting, runCheckStatFile, hopen] at hstep
      rw [hnone, Finset.card_empty]
      exact iff_of_false (by simp) (Nat.not_succ_le_zero _)
    | some after =>
      obtain ⟨descriptor, hopen⟩ := step_cases hstep
      obtain ⟨hfree, -, hafter⟩ := fopen_free hopen
      have hcard := Finset.card_erase_add_one hfree
      rw [Option.bind_some, ih after, hafter, ← hcard]
      exact Nat.succ_le_succ_iff.symm

/-- A run with a tick does not keep the set of open streams. -/
theorem not_keepsStreams_cons (files : Files) (line : List Char) (rest : List (List Char)) :
    ¬ KeepsStreams files (line :: rest) := by
  intro hkeeps
  obtain ⟨hrun, halong⟩ := hkeeps
  rw [System.run_cons] at hrun
  cases hstep : (reporting files).step files line with
  | none =>
    rw [hstep] at hrun
    cases hrun
  | some after =>
    obtain ⟨descriptor, hopen⟩ := step_cases hstep
    obtain ⟨hfree, hopened, -⟩ := fopen_free hopen
    have hsame : after.opened = files.opened := ((System.along_cons hstep rest).mp halong).1
    rw [hopened, Finset.insert_eq_self] at hsame
    exact (Finset.mem_sdiff.mp hfree).2 hsame

/-- **The reports keep the set of open streams only when there is none, and obtain a stream as long
as descriptors are free.** For every limit, every set of open streams and every number of ticks. -/
theorem keepsStreams_iff (files : Files) (lines : List (List Char)) :
    (KeepsStreams files lines ↔ lines = []) ∧
      (((reporting files).run files lines).isSome = true ↔ lines.length ≤ files.free.card) := by
  refine ⟨⟨fun hkeeps ↦ ?_, ?_⟩, run_isSome_iff files files lines⟩
  · cases lines with
    | nil => rfl
    | cons line rest => exact absurd hkeeps (not_keepsStreams_cons files line rest)
  · rintro rfl
    exact ⟨rfl, trivial⟩

/-- **A report leaks its stream.** With three streams open besides the log under a limit of 1024,
one tick leaves one more open, and of 1021 ticks not every one obtains a stream. -/
theorem report_leaks_stream :
    ¬ KeepsStreams ⟨1024, {0, 1, 2, 3}⟩ [statLine] ∧
      ((reporting ⟨1024, {0, 1, 2, 3}⟩).run ⟨1024, {0, 1, 2, 3}⟩
        (List.replicate 1021 statLine)).isSome ≠ true := by
  refine ⟨not_keepsStreams_cons _ _ _, ?_⟩
  rw [ne_eq, run_isSome_iff, List.length_replicate, Files.free,
    Finset.card_sdiff_of_subset (by simp [Finset.subset_iff]), Finset.card_range]
  decide

/-! ### The record -/

/-- The first line of `/proc/stat`: the label, two spaces, ten counters with a space in between, and
a newline. -/
def cpuLine (counters : Vector UInt64 10) : List Char :=
  "cpu  ".toList ++
    ([' '] : List Char).intercalate (counters.toList.map fun counter ↦ decimal counter.toNat) ++
    "\n".toList

/-- The size of `buf`. -/
def bufSize : ℕ := 100

/-- The record that `sprintf` makes of a line fits into `buf` with its terminator. -/
def RecordFits (line : List Char) : Prop := (checkStatFile line).text.length + 1 ≤ bufSize

/-- The number of decimal digits of a counter. -/
def digits (counter : UInt64) : ℕ := (Nat.toDigits 10 counter.toNat).length

theorem length_decimal (counter : UInt64) :
    (decimal counter.toNat).length = digits counter := by
  show counter.toNat.repr.toList.length = digits counter
  rw [Nat.toList_repr]
  rfl

/-- The length of parts with a space in between. -/
theorem length_intercalate_space {parts : List (List Char)} (hparts : parts ≠ []) :
    (([' '] : List Char).intercalate parts).length + 1 =
      (parts.map List.length).sum + parts.length := by
  induction parts with
  | nil => exact absurd rfl hparts
  | cons part rest ih =>
    cases rest with
    | nil => simp
    | cons second rest =>
      have hrest := ih (List.cons_ne_nil second rest)
      rw [List.intercalate_cons_cons, List.length_append, List.length_append,
        List.length_singleton, List.map_cons, List.sum_cons, List.length_cons]
      omega

/-- The length of a first line. -/
theorem length_cpuLine (counters : Vector UInt64 10) :
    (cpuLine counters).length = 15 + (counters.toList.map digits).sum := by
  have hdigits : (counters.toList.map fun counter ↦ decimal counter.toNat).map List.length =
      counters.toList.map digits := by
    rw [List.map_map]
    exact List.map_congr_left fun counter _ ↦ length_decimal counter
  have hnumber : (counters.toList.map fun counter ↦ decimal counter.toNat).length = 10 := by
    rw [List.length_map]
    exact Vector.length_toList
  have hcounters : (counters.toList.map fun counter ↦ decimal counter.toNat) ≠ [] :=
    List.ne_nil_of_length_pos (by omega)
  have hspaced := length_intercalate_space hcounters
  rw [hdigits, hnumber] at hspaced
  show ("cpu  ".toList ++ ([' '] : List Char).intercalate
    (counters.toList.map fun counter ↦ decimal counter.toNat) ++ "\n".toList).length = _
  rw [List.length_append, List.length_append]
  show 5 + _ + 1 = _
  omega

/-- The length of the record of a line. -/
theorem length_record (line : List Char) :
    (checkStatFile line).text.length = 17 + line.length + 1 := by
  rw [checkStatFile, StreamCall.text, List.length_append, List.length_append]
  rfl

/-- **The record fits exactly when the counters have at most 66 digits together.** For every first
line of `/proc/stat`. -/
theorem recordFits_iff (counters : Vector UInt64 10) :
    RecordFits (cpuLine counters) ↔ (counters.toList.map digits).sum ≤ 66 := by
  rw [RecordFits, length_record, length_cpuLine, bufSize]
  omega

/-- **The record of ten counters with seven digits does not fit.** It takes 104 bytes. -/
theorem record_overflows :
    ¬ ∀ counters : Vector UInt64 10, RecordFits (cpuLine counters) := by
  intro hfits
  have hrecord := hfits (Vector.replicate 10 1000000)
  rw [RecordFits, length_record, length_cpuLine] at hrecord
  exact absurd hrecord (by decide)

end Apes.PthreadTest
