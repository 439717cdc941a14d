import Apes.SharedMemory.SharedMem

/-!
# The semaphore discipline of the shared-memory exchange

`move_cases` says once what a step of a process can do. `Disciplined` is the invariant of the two
semaphores that every step keeps, whatever the processes have to transfer: the two semaphores and
the processes between a `sem_wait` and its `sem_post` share one token, and the token is where the
slot says. The slot of a log is the message that was stored last, until it is read; the token lets a
process write when the slot is empty and read when it is full, and a full slot is what the segment
holds.
-/

set_option autoImplicit false
set_option relaxedAutoImplicit false

namespace Apes.SharedMemory

open Library Ipc

variable {state next : State} {party : Party}

/-! ### What a step does -/

/-- What a step of a process can do: the call of `sem_wait`, its return, a write, a read and
`sem_post`, or leaving the last loop. -/
theorem move_cases (hmove : move party state = some next) :
    ((state.process party).stage = .outside ∧ next = callSemWait party state) ∨
    (∃ transfer rest, (state.process party).stage = .waiting ∧
      (state.process party).pending = transfer :: rest ∧
      state.semaphore (waitsOn transfer) ≠ 0 ∧ next = semWait party (waitsOn transfer) state) ∨
    (∃ message rest, (state.process party).stage = .entered ∧
      (state.process party).pending = .write message :: rest ∧
      next = writeSegment party message state) ∨
    (∃ kind rest, (state.process party).stage = .entered ∧
      (state.process party).pending = .read kind :: rest ∧ next = readSegment party kind state) ∨
    (∃ transfer rest, (state.process party).stage = .accessed ∧
      (state.process party).pending = transfer :: rest ∧
      next = semPost party (posts transfer) state) ∨
    ((state.process party).stage = .outside ∧ next = exit party state) := by
  unfold move at hmove
  split at hmove
  case h_1 hstage _ =>
    split_ifs at hmove
    exact .inr (.inr (.inr (.inr (.inr ⟨hstage, (Option.some.inj hmove).symm⟩))))
  case h_2 hstage _ => exact .inl ⟨hstage, (Option.some.inj hmove).symm⟩
  case h_3 transfer rest hstage hpending =>
    split_ifs at hmove with hzero
    exact .inr (.inl ⟨transfer, rest, hstage, hpending, hzero, (Option.some.inj hmove).symm⟩)
  case h_4 message rest hstage hpending =>
    exact .inr (.inr (.inl ⟨message, rest, hstage, hpending, (Option.some.inj hmove).symm⟩))
  case h_5 kind rest hstage hpending =>
    exact .inr (.inr (.inr (.inl ⟨kind, rest, hstage, hpending, (Option.some.inj hmove).symm⟩)))
  case h_6 transfer rest hstage hpending =>
    exact .inr (.inr (.inr (.inr (.inl ⟨transfer, rest, hstage, hpending,
      (Option.some.inj hmove).symm⟩))))
  case h_7 => simp at hmove

/-! ### The slot -/

/-- The message stored last and its writer, when no process has read since. -/
def slot (log : List Access) : Option (Party × Message) :=
  match log.getLast? with
  | some (.write writer message) => some (writer, message)
  | _ => none

@[simp] theorem slot_append_write (log : List Access) (writer : Party) (message : Message) :
    slot (log ++ [.write writer message]) = some (writer, message) := by
  simp [slot]

@[simp] theorem slot_append_read (log : List Access) (reader : Party) (message : Message) :
    slot (log ++ [.read reader message]) = none := by
  simp [slot]

/-- What a semaphore stands for: a write needs an empty slot, a read a full one. -/
def Semaphore.Fits : Semaphore → Option (Party × Message) → Prop
  | .shmWrite, content => content = none
  | .shmRead, content => content ≠ none

/-! ### The token -/

/-- Whether a process is between a `sem_wait` and its `sem_post`. -/
def Process.inside (process : Process) : ℕ :=
  if process.stage = .entered ∨ process.stage = .accessed then 1 else 0

/-- The number of tokens: the values of the semaphores and the processes inside. -/
def tokens (state : State) : ℕ :=
  state.semaphore .shmRead + state.semaphore .shmWrite +
    ((state.process .parent).inside + (state.process .child).inside)

/-- A process is inside on the semaphore that stands for the slot: the one it waits on until its
access, the one it posts from then on. -/
def Process.Agrees (content : Option (Party × Message)) (process : Process) : Prop :=
  ∀ transfer rest, process.pending = transfer :: rest →
    (process.stage = .entered → (waitsOn transfer).Fits content) ∧
      (process.stage = .accessed → (posts transfer).Fits content)

/-- The discipline of the semaphores. -/
structure Disciplined (state : State) : Prop where
  token : tokens state = 1
  ready : ∀ semaphore, state.semaphore semaphore ≠ 0 → semaphore.Fits (slot state.log)
  agrees : ∀ party, (state.process party).Agrees (slot state.log)
  segment : ∀ writer message, slot state.log = some (writer, message) →
    loaded message.kind state.segment = message

theorem inside_of_outside {process : Process} (hstage : process.stage = .outside) :
    process.inside = 0 := if_neg (by simp [hstage])

theorem inside_of_waiting {process : Process} (hstage : process.stage = .waiting) :
    process.inside = 0 := if_neg (by simp [hstage])

theorem inside_of_entered {process : Process} (hstage : process.stage = .entered) :
    process.inside = 1 := if_pos (.inl hstage)

theorem inside_of_accessed {process : Process} (hstage : process.stage = .accessed) :
    process.inside = 1 := if_pos (.inr hstage)

/-- A process that is not inside agrees with every slot. -/
theorem agrees_of_inside_eq_zero {process : Process} (hinside : process.inside = 0)
    (content : Option (Party × Message)) : process.Agrees content := by
  intro transfer rest _
  constructor
  · intro hstage
    exact absurd (inside_of_entered hstage) (by omega)
  · intro hstage
    exact absurd (inside_of_accessed hstage) (by omega)

/-- All processes agree with the slot when the one replaced does and the others do. -/
theorem agrees_update {content : Option (Party × Message)} {process : Process}
    (hprocess : process.Agrees content)
    (hothers : ∀ other, other ≠ party → (state.process other).Agrees content) (other : Party) :
    (Function.update state.process party process other).Agrees content := by
  rcases eq_or_ne other party with rfl | hne
  · rwa [Function.update_self]
  · rw [Function.update_of_ne hne]
    exact hothers other hne

/-- Replacing a process and the semaphores changes the tokens by what they hold. -/
theorem tokens_update (state : State) (party : Party) (semaphore : Semaphore → ℕ)
    (segment : List UInt8) (log : List Access) (process : Process) :
    tokens ⟨semaphore, segment, Function.update state.process party process, log⟩ +
        (state.process party).inside + (state.semaphore .shmRead + state.semaphore .shmWrite) =
      tokens state + process.inside + (semaphore .shmRead + semaphore .shmWrite) := by
  cases party with
  | parent =>
    have hchild : Function.update state.process .parent process .child = state.process .child :=
      Function.update_of_ne (by simp) _ _
    simp only [tokens, Function.update_self, hchild]
    omega
  | child =>
    have hparent : Function.update state.process .child process .parent = state.process .parent :=
      Function.update_of_ne (by simp) _ _
    simp only [tokens, Function.update_self, hparent]
    omega

/-- The sum of the semaphores after one of them has been set. -/
theorem sum_update (semaphore : Semaphore → ℕ) (changed : Semaphore) (value : ℕ) :
    Function.update semaphore changed value .shmRead +
        Function.update semaphore changed value .shmWrite + semaphore changed =
      semaphore .shmRead + semaphore .shmWrite + value := by
  cases changed with
  | shmRead =>
    have hother : Function.update semaphore .shmRead value .shmWrite = semaphore .shmWrite :=
      Function.update_of_ne (by simp) _ _
    rw [Function.update_self, hother]
    omega
  | shmWrite =>
    have hother : Function.update semaphore .shmWrite value .shmRead = semaphore .shmRead :=
      Function.update_of_ne (by simp) _ _
    rw [Function.update_self, hother]
    omega

/-- While a process is inside, the semaphores are zero and the other process is not. -/
theorem Disciplined.alone (hstate : Disciplined state)
    (hinside : (state.process party).inside = 1) :
    (∀ semaphore, state.semaphore semaphore = 0) ∧
      ∀ other, other ≠ party → (state.process other).inside = 0 := by
  have htoken := hstate.token
  unfold tokens at htoken
  constructor
  · intro semaphore
    cases party <;> cases semaphore <;> omega
  · intro other hother
    cases party <;> cases other <;> first | contradiction | omega

/-! ### The steps keep the discipline -/

/-- `sem_wait` takes the token from a semaphore. -/
theorem Disciplined.semWait (hstate : Disciplined state) {transfer : Transfer}
    {rest : List Transfer} (hstage : (state.process party).stage = .waiting)
    (hpending : (state.process party).pending = transfer :: rest)
    (hready : state.semaphore (waitsOn transfer) ≠ 0) :
    Disciplined (semWait party (waitsOn transfer) state) := by
  constructor
  · have hsum := sum_update state.semaphore (waitsOn transfer)
      (state.semaphore (waitsOn transfer) - 1)
    have htokens := tokens_update state party
      (Function.update state.semaphore (waitsOn transfer) (state.semaphore (waitsOn transfer) - 1))
      state.segment state.log { state.process party with stage := .entered }
    rw [inside_of_waiting hstage, hstate.token, inside_of_entered rfl] at htokens
    change tokens ⟨_, _, _, _⟩ = 1
    omega
  · intro semaphore hsemaphore
    apply hstate.ready
    intro hzero
    change Function.update _ _ _ _ ≠ 0 at hsemaphore
    rcases eq_or_ne semaphore (waitsOn transfer) with rfl | hne
    · exact hready hzero
    · rw [Function.update_of_ne hne] at hsemaphore
      exact hsemaphore hzero
  · refine agrees_update ?_ fun other _ ↦ hstate.agrees other
    intro first tail hfirst
    rw [← (List.cons.inj (hpending.symm.trans hfirst)).1]
    exact ⟨fun _ ↦ hstate.ready _ hready, nofun⟩
  · exact hstate.segment

/-- `sem_post` gives the token to a semaphore. -/
theorem Disciplined.semPost (hstate : Disciplined state) {transfer : Transfer}
    {rest : List Transfer} (hstage : (state.process party).stage = .accessed)
    (hpending : (state.process party).pending = transfer :: rest) :
    Disciplined (semPost party (posts transfer) state) := by
  have hinside := inside_of_accessed hstage
  obtain ⟨hzero, -⟩ := hstate.alone hinside
  constructor
  · have hsum := sum_update state.semaphore (posts transfer) (state.semaphore (posts transfer) + 1)
    have htokens := tokens_update state party
      (Function.update state.semaphore (posts transfer) (state.semaphore (posts transfer) + 1))
      state.segment state.log
      { state.process party with
        pending := (state.process party).pending.tail
        stage := .outside }
    rw [hinside, hstate.token, inside_of_outside rfl] at htokens
    change tokens ⟨_, _, _, _⟩ = 1
    omega
  · intro semaphore hsemaphore
    change Function.update _ _ _ _ ≠ 0 at hsemaphore
    rcases eq_or_ne semaphore (posts transfer) with rfl | hne
    · exact (hstate.agrees party transfer rest hpending).2 hstage
    · rw [Function.update_of_ne hne] at hsemaphore
      exact absurd (hzero semaphore) hsemaphore
  · exact agrees_update (agrees_of_inside_eq_zero (inside_of_outside rfl) _)
      fun other _ ↦ hstate.agrees other
  · exact hstate.segment

/-- An access made by a process inside keeps the discipline when the process then agrees with the
slot and a full slot is what the segment holds. -/
theorem Disciplined.access (hstate : Disciplined state)
    (hstage : (state.process party).stage = .entered) {segment : List UInt8} {log : List Access}
    (hagrees : { state.process party with stage := .accessed }.Agrees (slot log))
    (hsegment : ∀ writer message, slot log = some (writer, message) →
      loaded message.kind segment = message) :
    Disciplined ⟨state.semaphore, segment,
      Function.update state.process party { state.process party with stage := .accessed },
      log⟩ := by
  have hinside := inside_of_entered hstage
  obtain ⟨hzero, hothers⟩ := hstate.alone hinside
  constructor
  · have htokens := tokens_update state party state.semaphore segment log
      { state.process party with stage := .accessed }
    rw [hinside, hstate.token, inside_of_accessed rfl] at htokens
    omega
  · intro semaphore hsemaphore
    exact absurd (hzero semaphore) hsemaphore
  · exact agrees_update hagrees fun other hne ↦ agrees_of_inside_eq_zero (hothers other hne) _
  · exact hsegment

/-- A write fills the slot. -/
theorem Disciplined.writeSegment (hstate : Disciplined state) {message : Message}
    {rest : List Transfer} (hstage : (state.process party).stage = .entered)
    (hpending : (state.process party).pending = .write message :: rest) :
    Disciplined (writeSegment party message state) := by
  refine hstate.access hstage ?_ ?_
  · intro first tail hfirst
    rw [← (List.cons.inj (hpending.symm.trans hfirst)).1, slot_append_write]
    exact ⟨nofun, fun _ ↦ Option.some_ne_none _⟩
  · intro writer content hcontent
    rw [slot_append_write, Option.some.injEq, Prod.mk.injEq] at hcontent
    rw [← hcontent.2, loaded_stored]

/-- A read empties the slot. -/
theorem Disciplined.readSegment (hstate : Disciplined state) {kind : Kind}
    {rest : List Transfer} (hstage : (state.process party).stage = .entered)
    (hpending : (state.process party).pending = .read kind :: rest) :
    Disciplined (readSegment party kind state) := by
  refine hstate.access hstage ?_ ?_
  · intro first tail hfirst
    rw [← (List.cons.inj (hpending.symm.trans hfirst)).1, slot_append_read]
    exact ⟨nofun, fun _ ↦ rfl⟩
  · intro writer content hcontent
    rw [slot_append_read] at hcontent
    simp at hcontent

/-- A process that is not inside before and after keeps the discipline when it touches neither the
semaphores nor the segment. -/
theorem Disciplined.process (hstate : Disciplined state) {process : Process}
    (hbefore : (state.process party).inside = 0) (hafter : process.inside = 0) :
    Disciplined { state with process := Function.update state.process party process } := by
  constructor
  · have htokens := tokens_update state party state.semaphore state.segment state.log process
    rw [hbefore, hstate.token, hafter] at htokens
    change tokens ⟨_, _, _, _⟩ = 1
    omega
  · exact hstate.ready
  · exact agrees_update (agrees_of_inside_eq_zero hafter _) fun other _ ↦ hstate.agrees other
  · exact hstate.segment

/-- The call of `sem_wait` takes no token yet. -/
theorem Disciplined.callSemWait (hstate : Disciplined state)
    (hstage : (state.process party).stage = .outside) : Disciplined (callSemWait party state) :=
  hstate.process (inside_of_outside hstage) (inside_of_waiting rfl)

/-- Leaving the last loop touches neither the semaphores nor the segment. -/
theorem Disciplined.exit (hstate : Disciplined state)
    (hstage : (state.process party).stage = .outside) : Disciplined (exit party state) :=
  hstate.process (inside_of_outside hstage) (if_neg (by simp))

/-- Every step of a process keeps the discipline. -/
theorem Disciplined.move (hstate : Disciplined state) (hmove : move party state = some next) :
    Disciplined next := by
  rcases move_cases hmove with ⟨hstage, rfl⟩ | ⟨transfer, rest, hstage, hpending, hready, rfl⟩ |
    ⟨message, rest, hstage, hpending, rfl⟩ | ⟨kind, rest, hstage, hpending, rfl⟩ |
    ⟨transfer, rest, hstage, hpending, rfl⟩ | ⟨hstage, rfl⟩
  · exact hstate.callSemWait hstage
  · exact hstate.semWait hstage hpending hready
  · exact hstate.writeSegment hstage hpending
  · exact hstate.readSegment hstage hpending
  · exact hstate.semPost hstage hpending
  · exact hstate.exit hstage

/-- The discipline holds at the start. -/
theorem disciplined_initial (parent child : List Transfer) (contents : List UInt8) :
    Disciplined (transferring parent child contents).initial := by
  constructor
  · rfl
  · intro semaphore hsemaphore
    cases semaphore with
    | shmRead => exact absurd rfl hsemaphore
    | shmWrite => rfl
  · intro party
    cases party <;> exact agrees_of_inside_eq_zero rfl _
  · intro writer message hslot
    cases hslot

end Apes.SharedMemory
