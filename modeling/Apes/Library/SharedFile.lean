import Apes.Library.TransitionSystem
import Mathlib.Data.List.Chain
import Mathlib.Logic.Function.Basic

/-!
# Buffered streams that append to one file

Several writers append to the same file, each through a stream with a buffer of its own. `fputs`
puts its text into the buffer, and whenever the buffer is full it is appended to the file as one
block; `fflush` and `fclose` append what is in the buffer. `writing` is the system of the writers
with the calls that each of them makes; a call is one step. The file records who has written each of
its characters.

`WholeLines` says that a file consists of complete lines, each written by one writer, and that the
lines of a writer are, in order, what it has put. A call is `Seamless` when it does not append to a
file that ends inside a line of another writer, and `wholeLines_iff` says that a finished file
consists of whole lines exactly when all calls were seamless. In between stands `Unbroken`, a
property of the characters: one that does not end a line is followed by one of the same writer. An
unbroken file can be cut into lines (`exists_lines`), and every call keeps the file unbroken or
breaks it for the rest of the run (`unbroken_iff_seamless`).
-/

set_option autoImplicit false
set_option relaxedAutoImplicit false

namespace Apes.Library

/-! ### The streams -/

/-- A call on a stream. -/
inductive StreamCall
  | fputs (text : List Char)
  | fflush
  | fclose
  deriving DecidableEq

/-- What a call puts into the buffer. -/
def StreamCall.text : StreamCall → List Char
  | .fputs text => text
  | .fflush => []
  | .fclose => []

/-- The number of characters of a text that fill the buffer a whole number of times. -/
def fullLength (capacity : ℕ) (text : List Char) : ℕ := text.length / capacity * capacity

/-- What a call appends to the file. -/
def StreamCall.block (capacity : ℕ) (buffer : List Char) : StreamCall → List Char
  | .fputs text => (buffer ++ text).take (fullLength capacity (buffer ++ text))
  | .fflush => buffer
  | .fclose => buffer

/-- What a call leaves in the buffer. -/
def StreamCall.rest (capacity : ℕ) (buffer : List Char) : StreamCall → List Char
  | .fputs text => (buffer ++ text).drop (fullLength capacity (buffer ++ text))
  | .fflush => []
  | .fclose => []

/-- A stream: the contents of its buffer, and the calls that its writer has still to make. -/
structure Stream where
  buffer : List Char
  calls : List StreamCall

/-- The file, each character with the one who has written it, and the streams on it. -/
structure SharedFile (Writer : Type*) where
  contents : List (Writer × Char)
  stream : Writer → Stream

variable {Writer : Type*}

/-- The characters of a block with their writer. -/
def tag (writer : Writer) (block : List Char) : List (Writer × Char) := block.map (Prod.mk writer)

variable [DecidableEq Writer]

/-- Writers that make their calls on streams with buffers of a capacity; the next event is the one
who makes its next call. -/
def writing (capacity : ℕ) (calls : Writer → List StreamCall) :
    System (SharedFile Writer) Writer where
  initial := ⟨[], fun writer ↦ ⟨[], calls writer⟩⟩
  step file writer :=
    match (file.stream writer).calls with
    | [] => none
    | call :: others =>
      some ⟨file.contents ++ tag writer (call.block capacity (file.stream writer).buffer),
        Function.update file.stream writer
          ⟨call.rest capacity (file.stream writer).buffer, others⟩⟩

/-! ### Lines -/

/-- A line with its newline at the end and no other. -/
def CompleteLine (line : List Char) : Prop := ∃ body, '\n' ∉ body ∧ line = body ++ ['\n']

/-- The lines one after another, each character with its writer. -/
def concatenation (lines : List (Writer × List Char)) : List (Writer × Char) :=
  lines.flatMap fun line ↦ tag line.1 line.2

/-- The file consists of complete lines, each written by one writer, and the lines of a writer are
in order what it has written. -/
def WholeLines (contents : List (Writer × Char)) (written : Writer → List Char) : Prop :=
  ∃ lines, (∀ line ∈ lines, CompleteLine line.2) ∧ contents = concatenation lines ∧
    ∀ writer, ((lines.filter fun line ↦ line.1 = writer).map Prod.snd).flatten = written writer

/-- A call appends nothing, or the file does not end inside a line of another writer. -/
def Seamless (capacity : ℕ) (file : SharedFile Writer) (writer : Writer) (_ : SharedFile Writer) :
    Prop :=
  ∀ call ∈ (file.stream writer).calls.head?, call.block capacity (file.stream writer).buffer ≠ [] →
    ∀ last ∈ file.contents.getLast?, last.2 = '\n' ∨ last.1 = writer

instance (capacity : ℕ) (file : SharedFile Writer) (writer : Writer) (next : SharedFile Writer) :
    Decidable (Seamless capacity file writer next) :=
  inferInstanceAs (Decidable (∀ call ∈ (file.stream writer).calls.head?, _ → _))

/-- A character that does not end a line is followed by one of the same writer. -/
def Unbroken (contents : List (Writer × Char)) : Prop :=
  contents.IsChain fun first second ↦ first.2 = '\n' ∨ first.1 = second.1

instance (contents : List (Writer × Char)) : Decidable (Unbroken contents) :=
  inferInstanceAs (Decidable (contents.IsChain _))

omit [DecidableEq Writer] in
/-- A block of one writer is unbroken. -/
theorem unbroken_tag (writer : Writer) (block : List Char) : Unbroken (tag writer block) := by
  unfold Unbroken tag
  rw [List.isChain_map]
  exact (List.pairwise_of_forall fun _ _ ↦ .inr rfl).isChain

omit [DecidableEq Writer] in
/-- A block that is appended leaves the file unbroken when it is empty or the file does not end
inside a line of another writer. -/
theorem unbroken_append_tag (contents : List (Writer × Char)) (writer : Writer)
    (block : List Char) :
    Unbroken (contents ++ tag writer block) ↔ Unbroken contents ∧
      (block ≠ [] → ∀ last ∈ contents.getLast?, last.2 = '\n' ∨ last.1 = writer) := by
  have hblock := unbroken_tag writer block
  unfold Unbroken at hblock ⊢
  rw [List.isChain_append, and_iff_right hblock]
  refine and_congr_right fun _ ↦ ?_
  cases block with
  | nil => simp [tag]
  | cons first others => simp [tag]

omit [DecidableEq Writer] in
@[simp] theorem concatenation_cons (line : Writer × List Char) (lines : List (Writer × List Char)) :
    concatenation (line :: lines) = tag line.1 line.2 ++ concatenation lines := List.flatMap_cons

omit [DecidableEq Writer] in
/-- A complete line ends with a newline. -/
theorem getLast?_tag {line : List Char} (hline : CompleteLine line) (writer : Writer) :
    (tag writer line).getLast? = some (writer, '\n') := by
  obtain ⟨body, -, rfl⟩ := hline
  unfold tag
  rw [List.map_append]
  exact List.getLast?_concat

omit [DecidableEq Writer] in
/-- Complete lines of one writer each are unbroken, and the last one ends with a newline. -/
theorem unbroken_concatenation {lines : List (Writer × List Char)}
    (hlines : ∀ line ∈ lines, CompleteLine line.2) :
    Unbroken (concatenation lines) ∧ ∀ last ∈ (concatenation lines).getLast?, last.2 = '\n' := by
  induction lines with
  | nil =>
    constructor
    · exact List.isChain_nil
    · intro last hlast
      cases hlast
  | cons line lines ih =>
    obtain ⟨hunbroken, hend⟩ := ih fun other hother ↦ hlines other (List.mem_cons_of_mem _ hother)
    have hline := getLast?_tag (hlines line List.mem_cons_self) line.1
    rw [concatenation_cons]
    constructor
    · refine List.IsChain.append (unbroken_tag _ _) hunbroken ?_
      intro last hlast _ _
      rw [hline, Option.mem_some_iff] at hlast
      exact .inl (hlast ▸ rfl)
    · intro last hlast
      rw [List.getLast?_append, Option.mem_def, Option.or_eq_some_iff] at hlast
      rcases hlast with hlast | ⟨-, hlast⟩
      · exact hend last hlast
      · rw [hline, Option.some.injEq] at hlast
        exact hlast ▸ rfl

omit [DecidableEq Writer] in
/-- A character that does not end a line is put before a line of its writer. -/
theorem exists_lines_cons {first second : Writer × Char} {others : List (Writer × Char)}
    {lines : List (Writer × List Char)} (hlines : ∀ line ∈ lines, CompleteLine line.2)
    (hcontents : second :: others = concatenation lines) (hfirst : first.2 ≠ '\n')
    (hsame : first.1 = second.1) :
    ∃ extended, (∀ line ∈ extended, CompleteLine line.2) ∧
      first :: second :: others = concatenation extended := by
  rcases lines with _ | ⟨line, lines⟩
  · cases hcontents
  · obtain ⟨⟨body, hbody, htext⟩, hlines⟩ := List.forall_mem_cons.mp hlines
    have hwriter : second.1 = line.1 := by
      rw [concatenation_cons, htext] at hcontents
      cases body with
      | nil => exact congrArg Prod.fst (List.cons.inj hcontents).1
      | cons character body => exact congrArg Prod.fst (List.cons.inj hcontents).1
    have hline : CompleteLine (first.2 :: line.2) := by
      refine ⟨first.2 :: body, ?_, ?_⟩
      · rw [List.mem_cons, not_or]
        exact ⟨fun hsymm ↦ hfirst hsymm.symm, hbody⟩
      · rw [htext]
        rfl
    refine ⟨(line.1, first.2 :: line.2) :: lines, List.forall_mem_cons.mpr ⟨hline, hlines⟩, ?_⟩
    rw [hcontents, concatenation_cons, concatenation_cons, ← hwriter, ← hsame]
    rfl

omit [DecidableEq Writer] in
/-- An unbroken file that ends with a newline can be cut into complete lines of one writer each. -/
theorem exists_lines {contents : List (Writer × Char)} (hunbroken : Unbroken contents)
    (hend : ∀ last ∈ contents.getLast?, last.2 = '\n') :
    ∃ lines, (∀ line ∈ lines, CompleteLine line.2) ∧ contents = concatenation lines := by
  induction contents with
  | nil => exact ⟨[], by simp, rfl⟩
  | cons first others ih =>
    have hnewline : CompleteLine ['\n'] := ⟨[], List.not_mem_nil, rfl⟩
    obtain ⟨hnext, hothers⟩ := List.isChain_cons.mp hunbroken
    rcases others with _ | ⟨second, others⟩
    · have hfirst : first.2 = '\n' := hend first rfl
      refine ⟨[(first.1, ['\n'])], ?_, ?_⟩
      · simpa using hnewline
      · rw [← hfirst]
        rfl
    · rw [List.getLast?_cons_cons] at hend
      obtain ⟨lines, hlines, hcontents⟩ := ih hothers hend
      by_cases hfirst : first.2 = '\n'
      · refine ⟨(first.1, ['\n']) :: lines, ?_, ?_⟩
        · exact List.forall_mem_cons.mpr ⟨hnewline, hlines⟩
        · rw [concatenation_cons, ← hcontents, ← hfirst]
          rfl
      · exact exists_lines_cons hlines hcontents hfirst ((hnext second rfl).resolve_left hfirst)

/-! ### What each writer has written -/

/-- The characters of a writer in a file. -/
def ownText (contents : List (Writer × Char)) (writer : Writer) : List Char :=
  (contents.filter fun character ↦ character.1 = writer).map Prod.snd

@[simp] theorem ownText_append (first second : List (Writer × Char)) (writer : Writer) :
    ownText (first ++ second) writer = ownText first writer ++ ownText second writer := by
  unfold ownText
  rw [List.filter_append, List.map_append]

/-- A block is the text of its writer. -/
theorem ownText_tag (writer other : Writer) (block : List Char) :
    ownText (tag other block) writer = if other = writer then block else [] := by
  unfold ownText tag
  rw [List.filter_map, List.map_map]
  by_cases hsame : other = writer
  · subst hsame
    simp [Function.comp_def]
  · simp [Function.comp_def, hsame]

/-- The text of a writer in a sequence of lines consists of its lines. -/
theorem ownText_concatenation (lines : List (Writer × List Char)) (writer : Writer) :
    ownText (concatenation lines) writer =
      ((lines.filter fun line ↦ line.1 = writer).map Prod.snd).flatten := by
  induction lines with
  | nil => rfl
  | cons line lines ih =>
    rw [concatenation_cons, ownText_append, ownText_tag, ih]
    by_cases hsame : line.1 = writer
    · rw [if_pos hsame, List.filter_cons_of_pos (by simpa using hsame), List.map_cons,
        List.flatten_cons]
    · rw [if_neg hsame, List.filter_cons_of_neg (by simpa using hsame), List.nil_append]

/-- The last character of a file is the last one of its writer. -/
theorem getLast?_ownText {contents : List (Writer × Char)} {last : Writer × Char}
    (hlast : contents.getLast? = some last) :
    (ownText contents last.1).getLast? = some last.2 := by
  obtain ⟨before, rfl⟩ := List.getLast?_eq_some_iff.mp hlast
  rw [ownText_append]
  unfold ownText
  simp

omit [DecidableEq Writer] in
/-- Texts that end with a newline make up one that does. -/
theorem forall_getLast?_flatten {texts : List (List Char)} {newline : Char}
    (htexts : ∀ text ∈ texts, ∀ last ∈ text.getLast?, last = newline) :
    ∀ last ∈ texts.flatten.getLast?, last = newline := by
  induction texts with
  | nil =>
    intro last hlast
    cases hlast
  | cons text texts ih =>
    obtain ⟨htext, htexts⟩ := List.forall_mem_cons.mp htexts
    intro last hlast
    rw [List.flatten_cons, List.getLast?_append, Option.mem_def, Option.or_eq_some_iff] at hlast
    rcases hlast with hlast | ⟨-, hlast⟩
    · exact ih htexts last hlast
    · exact htext last hlast

/-! ### The calls -/

variable {capacity : ℕ} {calls : Writer → List StreamCall} {file next final : SharedFile Writer}
  {writer : Writer}

/-- A call appends a part of what was and is put into the buffer and keeps the rest. -/
theorem block_append_rest (capacity : ℕ) (buffer : List Char) (call : StreamCall) :
    call.block capacity buffer ++ call.rest capacity buffer = buffer ++ call.text := by
  cases call with
  | fputs text => exact List.take_append_drop _ _
  | fflush => rfl
  | fclose => rfl

/-- What a step does: the first call of the writer that is next. -/
theorem writing_cases (hstep : (writing capacity calls).step file writer = some next) :
    ∃ call others, (file.stream writer).calls = call :: others ∧
      next = ⟨file.contents ++ tag writer (call.block capacity (file.stream writer).buffer),
        Function.update file.stream writer
          ⟨call.rest capacity (file.stream writer).buffer, others⟩⟩ := by
  change (match (file.stream writer).calls with | [] => none | call :: others => _) = _ at hstep
  split at hstep
  · simp at hstep
  case h_2 call others hcalls => exact ⟨call, others, hcalls, (Option.some.inj hstep).symm⟩

/-- Along a schedule the file stays unbroken exactly as long as the calls are seamless. -/
theorem unbroken_iff_seamless {events : List Writer}
    (hrun : (writing capacity calls).run file events = some final) :
    Unbroken final.contents ↔
      Unbroken file.contents ∧ (writing capacity calls).Along (Seamless capacity) file events := by
  induction events generalizing file with
  | nil =>
    rw [System.run_nil, Option.some.injEq] at hrun
    subst hrun
    exact (and_iff_left trivial).symm
  | cons writer events ih =>
    rw [System.run_cons, Option.bind_eq_some_iff] at hrun
    obtain ⟨next, hstep, hrest⟩ := hrun
    rw [ih hrest, System.along_cons hstep, ← and_assoc]
    refine and_congr_left fun _ ↦ ?_
    obtain ⟨call, others, hcalls, rfl⟩ := writing_cases hstep
    rw [unbroken_append_tag]
    refine and_congr_right fun _ ↦ ?_
    unfold Seamless
    rw [hcalls]
    simp

/-- Every character that a writer puts is in the file, in its buffer or still to be put; and its
last call empties the buffer. -/
structure Conserved (calls : Writer → List StreamCall) (file : SharedFile Writer) : Prop where
  text : ∀ writer, ownText file.contents writer ++ (file.stream writer).buffer ++
    ((file.stream writer).calls.map StreamCall.text).flatten =
      ((calls writer).map StreamCall.text).flatten
  closed : ∀ writer, (file.stream writer).calls.getLast? = some .fclose ∨
    (file.stream writer).calls = [] ∧ (file.stream writer).buffer = []

/-- After a call of a writer that ends with `fclose`, the writer still does, or has finished with an
empty buffer. -/
theorem closed_of_call {call : StreamCall} {others : List StreamCall}
    (hends : (call :: others).getLast? = some .fclose) (buffer : List Char) :
    others.getLast? = some .fclose ∨ others = [] ∧ call.rest capacity buffer = [] := by
  rcases others with _ | ⟨second, others⟩
  · obtain rfl : call = .fclose := Option.some.inj hends
    exact .inr ⟨rfl, rfl⟩
  · exact .inl hends

/-- Every call keeps the characters. -/
theorem Conserved.step (hfile : Conserved calls file)
    (hstep : (writing capacity calls).step file writer = some next) : Conserved calls next := by
  obtain ⟨call, others, hcalls, rfl⟩ := writing_cases hstep
  constructor
  · intro other
    have htext := hfile.text other
    dsimp only
    rw [ownText_append, ownText_tag]
    by_cases hsame : writer = other
    · subst hsame
      rw [hcalls, List.map_cons, List.flatten_cons] at htext
      rw [if_pos rfl, Function.update_self]
      dsimp only
      rw [← htext]
      simp only [List.append_assoc]
      rw [← List.append_assoc (call.block _ _), block_append_rest, List.append_assoc]
    · rw [if_neg hsame, Function.update_of_ne fun hother ↦ hsame hother.symm, List.append_nil]
      exact htext
  · intro other
    have hclosed := hfile.closed other
    dsimp only
    by_cases hsame : other = writer
    · subst hsame
      rw [hcalls] at hclosed
      rw [Function.update_self]
      rcases hclosed with hends | ⟨hnone, -⟩
      · exact closed_of_call hends _
      · cases hnone
    · rw [Function.update_of_ne hsame]
      exact hclosed

/-- A finished run has written everything. -/
theorem ownText_of_finished (hlast : ∀ writer, (calls writer).getLast? = some .fclose)
    {events : List Writer}
    (hrun : (writing capacity calls).run (writing capacity calls).initial events = some final)
    (hfinished : ∀ writer, (final.stream writer).calls = []) (writer : Writer) :
    ownText final.contents writer = ((calls writer).map StreamCall.text).flatten := by
  have hconserved : Conserved calls final := by
    refine (System.reachable_of_run hrun).invariant ?_ ?_
    · exact ⟨fun _ ↦ rfl, fun writer ↦ .inl (hlast writer)⟩
    · intro file writer next hfile hstep
      exact hfile.step hstep
  have htext := hconserved.text writer
  rcases hconserved.closed writer with hopen | ⟨-, hbuffer⟩
  · rw [hfinished writer] at hopen
    cases hopen
  · rw [hfinished writer, hbuffer] at htext
    simpa using htext

/-- **A finished file consists of whole lines exactly when the calls were seamless.** Assumes: each
writer ends with `fclose`, and each text that it puts ends with a newline. -/
theorem wholeLines_iff (hlast : ∀ writer, (calls writer).getLast? = some .fclose)
    (hlines : ∀ writer, ∀ call ∈ calls writer, ∀ last ∈ call.text.getLast?, last = '\n')
    {events : List Writer}
    (hrun : (writing capacity calls).run (writing capacity calls).initial events = some final)
    (hfinished : ∀ writer, (final.stream writer).calls = []) :
    WholeLines final.contents (fun writer ↦ ((calls writer).map StreamCall.text).flatten) ↔
      (writing capacity calls).Along (Seamless capacity) (writing capacity calls).initial
        events := by
  have hempty : Unbroken (writing capacity calls).initial.contents := List.isChain_nil
  have hunbroken := unbroken_iff_seamless hrun
  rw [and_iff_right hempty] at hunbroken
  have hown := ownText_of_finished hlast hrun hfinished
  have hend : ∀ last ∈ final.contents.getLast?, last.2 = '\n' := by
    intro last hlast
    have hcharacter := getLast?_ownText hlast
    rw [hown] at hcharacter
    refine forall_getLast?_flatten ?_ last.2 hcharacter
    intro text htext
    obtain ⟨call, hcall, rfl⟩ := List.mem_map.mp htext
    exact hlines last.1 call hcall
  rw [← hunbroken]
  constructor
  · rintro ⟨lines, hcomplete, hcontents, -⟩
    rw [hcontents]
    exact (unbroken_concatenation hcomplete).1
  · intro hwhole
    obtain ⟨lines, hcomplete, hcontents⟩ := exists_lines hwhole hend
    refine ⟨lines, hcomplete, hcontents, ?_⟩
    intro writer
    rw [← ownText_concatenation, ← hcontents]
    exact hown writer

end Apes.Library
