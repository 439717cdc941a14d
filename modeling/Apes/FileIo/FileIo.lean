import Apes.Library.CString
import Apes.Library.CheckedExecution

/-!
# The round trip of `file_io.c`

The program opens `output.txt` four times: to set its permissions, to write the character `A`, to
append a word that it has read with `scanf`, and to read both back. The word goes into a buffer of
50 bytes; what is read back goes into an array of `sizeof(str)` bytes with `fgets`, and `str` is a
pointer, so the array has the size of a pointer of the target.

`fileIo` runs the program on the contents of the file and on the input of the user.
`fileIo_word` says what it reads back for every word that fits into the buffer: the `A`, and as much
of the word as leaves room for a terminator in the array. `readsBack_iff` concludes for which words
this is the whole word.
-/

set_option autoImplicit false
set_option relaxedAutoImplicit false

namespace Apes.FileIo

open Library

/-! ### Streams on a file -/

/-- The modes of `fopen` that the program uses. -/
inductive Mode
  | read
  | write
  | append
  deriving DecidableEq

/-- A stream on the file: what has been written to it and not yet to the file, and the place at
which it reads. -/
structure Stream where
  buffer : List UInt8
  position : ℕ

/-- `fopen` of an existing file: the stream, and the contents of the file, which `"w"` discards. -/
def fopen (mode : Mode) (file : List UInt8) : Stream × List UInt8 :=
  (⟨[], 0⟩, if mode = .write then [] else file)

/-- `fputc`. -/
def fputc (byte : UInt8) (stream : Stream) : Stream :=
  { stream with buffer := stream.buffer ++ [byte] }

/-- `fputs`. -/
def fputs (string : CString) (stream : Stream) : Stream :=
  { stream with buffer := stream.buffer ++ string.bytes }

/-- `fflush` of a stream that writes at the end of the file. -/
def fflush (stream : Stream) (file : List UInt8) : Stream × List UInt8 :=
  ({ stream with buffer := [] }, file ++ stream.buffer)

/-- `fclose`. -/
def fclose (stream : Stream) (file : List UInt8) : List UInt8 := (fflush stream file).2

/-- `fgetc`: the next byte, none at the end of the file. -/
def fgetc (stream : Stream) (file : List UInt8) : Option UInt8 × Stream :=
  (file[stream.position]?, { stream with position := stream.position + 1 })

/-- The bytes that `fgets` takes: at most a number of them, up to a newline, which it keeps. -/
def lineBytes : ℕ → List UInt8 → List UInt8
  | 0, _ => []
  | _ + 1, [] => []
  | room + 1, byte :: rest => if byte = 10 then [byte] else byte :: lineBytes room rest

/-- `fgets` into an array of `size` bytes, the last one for the terminator: the string that the
array holds after it. -/
def fgets (size : ℕ) (stream : Stream) (file : List UInt8) : CString :=
  .ofBuffer (lineBytes (size - 1) (file.drop stream.position) ++ [0])

/-- `isspace` in the C locale. -/
def isspace (byte : UInt8) : Bool := byte = 32 || (9 ≤ byte && byte ≤ 13)

/-- The bytes that `scanf("%s", …)` stores: those up to the next white space, after the white space
in front of them. -/
def scanWord (input : List UInt8) : List UInt8 :=
  (input.dropWhile isspace).takeWhile fun byte ↦ !isspace byte

/-- `scanf("%s", str)` into a buffer, a fault when the bytes and a terminator do not fit. -/
def scanf (size : ℕ) (input : List UInt8) : Except Fault CString :=
  if (scanWord input).length < size then .ok (.ofBuffer (scanWord input ++ [0]))
  else .error (.outOfBounds size size)

/-! ### The program -/

/-- The size of the buffer of `str`. -/
def strSize : ℕ := 50

/-- What the program prints as received, and what it leaves in the file. -/
structure Received where
  character : Option UInt8
  string : CString
  file : List UInt8

/-- `main`, with `sizeof(str)`, on the contents of `output.txt` and the input of the user. -/
def fileIo (sizeofStr : ℕ) (file input : List UInt8) : Except Fault Received := do
  let (_, file) := fopen .read file
  let (fp, file) := fopen .write file
  let file := fclose (fputc 65 fp) file
  let (fp, file) := fopen .append file
  let str ← scanf strSize input
  let (fp, file) := fflush (fputs str fp) file
  let file := fclose fp file
  let (fp, file) := fopen .read file
  let (c, fp) := fgetc fp file
  pure ⟨c, fgets sizeofStr fp file, file⟩

/-- A word that the user may enter: at least one character and at most 49, none of them white
space. -/
structure Word where
  string : CString
  nonempty : string.bytes ≠ []
  short : string.bytes.length ≤ 49
  no_space : ∀ byte ∈ string.bytes, isspace byte = false

/-- The program reads back the `A` and exactly the word. -/
def ReadsBack (sizeofStr : ℕ) (file input : List UInt8) (word : Word) : Prop :=
  ∃ received, fileIo sizeofStr file input = .ok received ∧
    received.character = some 65 ∧ received.string = word.string

/-- Without a newline `fgets` takes as many bytes as there is room for. -/
theorem lineBytes_eq_take {bytes : List UInt8} (hline : 10 ∉ bytes) (room : ℕ) :
    lineBytes room bytes = bytes.take room := by
  induction bytes generalizing room with
  | nil =>
    cases room with
    | zero => rfl
    | succ room => rfl
  | cons byte rest ih =>
    cases room with
    | zero => rfl
    | succ room =>
      rw [List.mem_cons, not_or] at hline
      rw [lineBytes, if_neg (Ne.symm hline.1), List.take_succ_cons, ih hline.2]

/-- The beginning of a string, with a terminator behind it. -/
theorem bytes_ofBuffer_take (string : CString) (room : ℕ) :
    (CString.ofBuffer (string.bytes.take room ++ [0])).bytes = string.bytes.take room := by
  let beginning : CString :=
    ⟨string.bytes.take room, fun hzero ↦ string.nul_free (List.mem_of_mem_take hzero)⟩
  exact congrArg CString.bytes (CString.ofBuffer_append_nul beginning [])

/-- A word has no newline. -/
theorem Word.newline_notMem (word : Word) : 10 ∉ word.string.bytes := by
  intro hmem
  have hspace := word.no_space 10 hmem
  exact absurd hspace (by decide)

/-- What the program does with a word that fits into its buffer: it reads back the `A` and the
beginning of the word that leaves room for a terminator. Assumes: the user enters the word. -/
theorem fileIo_word (sizeofStr : ℕ) (file : List UInt8) {input : List UInt8} {word : Word}
    (hentered : scanWord input = word.string.bytes) :
    ∃ received, fileIo sizeofStr file input = .ok received ∧ received.character = some 65 ∧
      received.string.bytes = word.string.bytes.take (sizeofStr - 1) ∧
      received.file = 65 :: word.string.bytes := by
  have hscan : scanf strSize input = .ok word.string := by
    have hfits : word.string.bytes.length < strSize := Nat.lt_succ_of_le word.short
    rw [scanf, hentered, if_pos hfits]
    exact congrArg _ (CString.ofBuffer_append_nul word.string [])
  have hline := lineBytes_eq_take word.newline_notMem (sizeofStr - 1)
  refine ⟨⟨some 65, .ofBuffer (word.string.bytes.take (sizeofStr - 1) ++ [0]),
    65 :: word.string.bytes⟩, ?_, rfl, bytes_ofBuffer_take _ _, rfl⟩
  simp only [fileIo, hscan, ok_bind, pure_eq_ok, fopen, fclose, fflush, fputc, fputs, fgetc, fgets]
  simp only [if_true, List.nil_append, List.singleton_append, List.append_nil,
    List.getElem?_cons_zero, List.drop_succ_cons, List.drop_zero, hline, reduceCtorEq, if_false]

/-- **The program reads back the word exactly when it is shorter than a pointer.** For every
contents of `output.txt` before and every word that fits into the buffer. Assumes: the user enters
the word. -/
theorem readsBack_iff {input : List UInt8} {word : Word}
    (hentered : scanWord input = word.string.bytes) (sizeofStr : ℕ) (file : List UInt8) :
    ReadsBack sizeofStr file input word ↔ word.string.bytes.length < sizeofStr := by
  obtain ⟨received, hreceived, hcharacter, hstring, -⟩ := fileIo_word sizeofStr file hentered
  have hpositive := List.length_pos_iff.mpr word.nonempty
  have hwhole : received.string = word.string ↔ word.string.bytes.length < sizeofStr := by
    constructor
    · intro hsame
      rw [hsame] at hstring
      have hlength := congrArg List.length hstring
      rw [List.length_take] at hlength
      omega
    · intro hshort
      rw [List.take_of_length_le (by omega)] at hstring
      exact CString.ext hstring
  rw [← hwhole]
  constructor
  · intro hreads
    obtain ⟨other, hother, -, hsame⟩ := hreads
    rw [hreceived, Except.ok.injEq] at hother
    rw [hother, hsame]
  · exact fun hsame ↦ ⟨received, hreceived, hcharacter, hsame⟩

/-- The word `Salah`. -/
def salah : Word where
  string := .ofBuffer [83, 97, 108, 97, 104, 0]
  nonempty := by decide
  short := by decide
  no_space := by simp [isspace]

/-- The word `Liverpool`. -/
def liverpool : Word where
  string := .ofBuffer [76, 105, 118, 101, 114, 112, 111, 111, 108, 0]
  nonempty := by decide
  short := by decide
  no_space := by simp [isspace]

/-- A word of five characters after a blank, with pointers of eight bytes. -/
theorem readsBack_iff_salah :
    ReadsBack 8 [65, 84, 97, 107] (32 :: salah.string.bytes ++ [10]) salah :=
  (readsBack_iff (by decide) 8 [65, 84, 97, 107]).mpr (by decide)

/-- **A word of nine characters is not read back.** With pointers of eight bytes it is cut after
seven. -/
theorem liverpool_not_readsBack :
    ¬ ReadsBack 8 [65, 84, 97, 107] (liverpool.string.bytes ++ [10]) liverpool := by
  intro hreads
  obtain ⟨received, hreceived, -, hsame⟩ := hreads
  have hentered : scanWord (liverpool.string.bytes ++ [10]) = liverpool.string.bytes := by decide
  obtain ⟨other, hother, -, hstring, -⟩ := fileIo_word 8 [65, 84, 97, 107] hentered
  rw [hreceived, Except.ok.injEq] at hother
  rw [← hother, hsame] at hstring
  exact absurd hstring (by decide)

end Apes.FileIo
