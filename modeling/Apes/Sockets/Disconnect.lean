import Apes.Sockets.SocketServer

/-!
# A peer that goes away

The receive loops of the server and of the client end at a string `END` in `buffer`, and at nothing
else: what `read` returns is not looked at. When the peer closes the connection, every later `read`
returns zero and leaves the buffer as it was, so the loop goes on comparing the same bytes.
`receiveLoop` runs the rounds of `Receiver.round` over a finite sequence of packets and the closed
connection behind it; its index is an `int`, which does not wrap. A packet of 20 bytes without a
zero leaves a buffer that cannot be printed, and the loop ends in a fault.

What a comparison sees is the strings read so far, laid over the buffer with which the loop starts,
the later ones over the earlier ones (`bufferAt`). `ends_iff` says that the loop ends exactly when
one of these buffers holds `END` and all those before it have a terminator; packets without an `END`
among them can do so only through bytes that were there before.
-/

set_option autoImplicit false
set_option relaxedAutoImplicit false

namespace Apes.Sockets

open Library Ipc

/-- What the read of a round leaves to be taken: the packet of that index, and nothing on the closed
connection. -/
def packetAt (packets : List Packet) (i : ℕ) : Packet := packets.getD i []

/-- `for (i=0;;i++) { … }` from an index on, with a bound on the number of rounds. -/
def receiveLoop (packets : List Packet) : ℕ → ℕ → Receiver → Except Fault Receiver
  | 0, _, _ => .error .outOfFuel
  | fuel + 1, i, receiver => do
    let round ← receiver.round i (packetAt packets i)
    match round with
    | (receiver, none) => .ok receiver
    | (receiver, some _) => do
      let _ ← checkedInt (i + 1)
      receiveLoop packets fuel (i + 1) receiver

/-- The receive loop ends after a number of rounds, without a fault. -/
def Ends (packets : List Packet) (receiver : Receiver) : Prop :=
  ∃ rounds final, receiveLoop packets rounds 0 receiver = .ok final

/-- Packets read one after another into the start of a buffer. -/
def overlayAll (packets : List Packet) (buffer : Buffer) : Buffer :=
  packets.foldl Buffer.overlay buffer

/-- The buffer that the comparison at an index sees: the strings up to that index laid over the
buffer with which the loop starts. -/
def bufferAt (packets : List Packet) (buffer : Buffer) (i : ℕ) : Buffer :=
  overlayAll ((packets.drop commandCount).take (i + 1 - commandCount)) buffer

/-- The buffer holds `END` and its terminator at its start. -/
def Buffer.HoldsEnd (buffer : Buffer) : Prop := CString.ofBuffer buffer.bytes = endString

instance (buffer : Buffer) : Decidable buffer.HoldsEnd :=
  inferInstanceAs (Decidable (CString.ofBuffer buffer.bytes = endString))

/-! ### The rounds -/

section Rounds

variable {packets : List Packet} {buffer : Buffer} {receiver : Receiver} {i : ℕ}

/-- While the commands are read the buffer stays as it was. -/
theorem bufferAt_of_command (hcommand : i < commandCount)
    (hbuffer : receiver.buffer =
      overlayAll ((packets.drop commandCount).take (i - commandCount)) buffer) :
    receiver.buffer = bufferAt packets buffer i := by
  have hnow : i - commandCount = 0 := by omega
  have hnext : i + 1 - commandCount = 0 := by omega
  rw [bufferAt, hnext, ← hnow]
  exact hbuffer

/-- The read of a string makes the buffer the one that the comparison sees. -/
theorem overlay_packetAt (htext : commandCount ≤ i)
    (hbuffer : receiver.buffer =
      overlayAll ((packets.drop commandCount).take (i - commandCount)) buffer) :
    receiver.buffer.overlay (packetAt packets i) = bufferAt packets buffer i := by
  obtain ⟨text, rfl⟩ := Nat.exists_eq_add_of_le htext
  rw [Nat.add_sub_cancel_left] at hbuffer
  have hpacket : packetAt packets (commandCount + text) =
      ((packets.drop commandCount)[text]?).getD [] := by
    rw [packetAt, List.getD_eq_getElem?_getD, List.getElem?_drop]
  rw [bufferAt, Nat.add_assoc, Nat.add_sub_cancel_left, List.take_add_one, overlayAll,
    List.foldl_append, hpacket, hbuffer]
  cases (packets.drop commandCount)[text]? with
  | none => rfl
  | some packet => rfl

/-- What a round does: it takes a command, it leaves the loop with `END` in the buffer, it logs the
string in the buffer, or it fails because there is no terminator. -/
theorem round_cases (hbuffer : receiver.buffer =
      overlayAll ((packets.drop commandCount).take (i - commandCount)) buffer) :
    (i < commandCount ∧ ∃ after message,
      receiver.round i (packetAt packets i) = .ok (after, some message) ∧
        after.buffer = bufferAt packets buffer i) ∨
    (commandCount ≤ i ∧ (bufferAt packets buffer i).HoldsEnd ∧ ∃ after,
      receiver.round i (packetAt packets i) = .ok (after, none)) ∨
    (commandCount ≤ i ∧ ¬ (bufferAt packets buffer i).HoldsEnd ∧
      0 ∈ (bufferAt packets buffer i).bytes ∧ ∃ after message,
        receiver.round i (packetAt packets i) = .ok (after, some message) ∧
          after.buffer = bufferAt packets buffer i) ∨
    (commandCount ≤ i ∧ ¬ (bufferAt packets buffer i).HoldsEnd ∧
      0 ∉ (bufferAt packets buffer i).bytes ∧ ∃ fault,
        receiver.round i (packetAt packets i) = .error fault) := by
  unfold Receiver.round
  by_cases hcommand : i < commandCount
  · left
    rw [if_pos hcommand]
    exact ⟨hcommand, _, _, rfl, bufferAt_of_command hcommand hbuffer⟩
  · right
    have htext := Nat.not_lt.mp hcommand
    rw [if_neg hcommand]
    dsimp only
    rw [overlay_packetAt htext hbuffer]
    have hcompare := strncmp_eq_zero_iff (bufferAt packets buffer i).bytes
      (by decide : endString.bytes.length < strMaxLen)
    by_cases hend : (bufferAt packets buffer i).HoldsEnd
    · left
      rw [if_pos (hcompare.mpr hend)]
      exact ⟨htext, hend, _, rfl⟩
    · right
      rw [if_neg (mt hcompare.mp hend)]
      unfold Buffer.print
      by_cases hzero : 0 ∈ (bufferAt packets buffer i).bytes
      · left
        rw [if_pos hzero]
        exact ⟨htext, hend, hzero, _, _, rfl, rfl⟩
      · right
        rw [if_neg hzero]
        exact ⟨htext, hend, hzero, _, rfl⟩

end Rounds

section Loop

variable {packets : List Packet} {buffer : Buffer}

/-- A loop from an index on leaves at another: the last index is that of a string, an `int`, the
buffer holds `END` there, and the buffers of the strings before it have a terminator. -/
structure Leaves (packets : List Packet) (buffer : Buffer) (first last : ℕ) : Prop where
  text : commandCount ≤ last
  int : last ≤ 2147483647
  holds : (bufferAt packets buffer last).HoldsEnd
  terminated : ∀ i, first ≤ i → i < last → commandCount ≤ i →
    0 ∈ (bufferAt packets buffer i).bytes

/-- A loop that leaves from the next index on leaves from this one on, when the buffer at this one
has a terminator. -/
theorem Leaves.of_succ {first last : ℕ} (hleaves : Leaves packets buffer (first + 1) last)
    (hfirst : commandCount ≤ first → 0 ∈ (bufferAt packets buffer first).bytes) :
    Leaves packets buffer first last := by
  refine ⟨hleaves.text, hleaves.int, hleaves.holds, fun i hle hlt htext ↦ ?_⟩
  rcases Nat.eq_or_lt_of_le hle with rfl | hless
  · exact hfirst htext
  · exact hleaves.terminated i hless hlt htext

/-- A loop that ends has left at an index from where it was on. -/
theorem exists_leaves {rounds i : ℕ} {receiver final : Receiver} (hint : i ≤ 2147483647)
    (hbuffer : receiver.buffer =
      overlayAll ((packets.drop commandCount).take (i - commandCount)) buffer)
    (hends : receiveLoop packets rounds i receiver = .ok final) :
    ∃ last, Leaves packets buffer i last := by
  induction rounds generalizing i receiver with
  | zero => cases hends
  | succ rounds ih =>
    have hgoes : ∀ after message,
        receiver.round i (packetAt packets i) = .ok (after, some message) →
        after.buffer = bufferAt packets buffer i →
        (commandCount ≤ i → 0 ∈ (bufferAt packets buffer i).bytes) →
        ∃ last, Leaves packets buffer i last := by
      intro after message hround hafter hterminated
      rw [receiveLoop, hround, ok_bind] at hends
      obtain ⟨index, hindex, hends⟩ := bind_eq_ok hends
      have hless : i + 1 ≤ 2147483647 := by
        unfold checkedInt at hindex
        split_ifs at hindex with hrange
        omega
      obtain ⟨last, hleaves⟩ := ih hless hafter hends
      exact ⟨last, hleaves.of_succ hterminated⟩
    rcases round_cases hbuffer with ⟨hcommand, after, message, hround, hafter⟩ |
      ⟨htext, hend, -⟩ | ⟨-, -, hzero, after, message, hround, hafter⟩ | ⟨-, -, -, fault, hround⟩
    · exact hgoes after message hround hafter fun htext ↦ absurd hcommand (Nat.not_lt.mpr htext)
    · exact ⟨i, htext, hint, hend, fun j hle hlt ↦ absurd hlt (Nat.not_lt.mpr hle)⟩
    · exact hgoes after message hround hafter fun _ ↦ hzero
    · rw [receiveLoop, hround] at hends
      cases hends

/-- A loop that is to leave some rounds ahead ends. -/
theorem ends_of_leaves {i distance : ℕ} {receiver : Receiver}
    (hbuffer : receiver.buffer =
      overlayAll ((packets.drop commandCount).take (i - commandCount)) buffer)
    (hleaves : Leaves packets buffer i (i + distance)) :
    ∃ rounds final, receiveLoop packets rounds i receiver = .ok final := by
  induction distance generalizing i receiver with
  | zero =>
    rcases round_cases hbuffer with ⟨hcommand, -⟩ | ⟨-, -, after, hround⟩ | ⟨-, hend, -⟩ |
      ⟨-, hend, -⟩
    · exact absurd hleaves.text (Nat.not_le.mpr hcommand)
    · exact ⟨1, after, by rw [receiveLoop, hround, ok_bind]⟩
    · exact absurd hleaves.holds hend
    · exact absurd hleaves.holds hend
  | succ distance ih =>
    have hgoes : ∀ after message,
        receiver.round i (packetAt packets i) = .ok (after, some message) →
        after.buffer = bufferAt packets buffer i →
        ∃ rounds final, receiveLoop packets rounds i receiver = .ok final := by
      intro after message hround hafter
      have hnext : Leaves packets buffer (i + 1) (i + 1 + distance) := by
        have hshift : i + (distance + 1) = i + 1 + distance := by omega
        rw [hshift] at hleaves
        exact ⟨hleaves.text, hleaves.int, hleaves.holds, fun j hle hlt htext ↦
          hleaves.terminated j (Nat.le_of_succ_le hle) hlt htext⟩
      obtain ⟨rounds, final, hends⟩ := ih hafter hnext
      have hindex : checkedInt ((i : ℤ) + 1) = .ok ((i : ℤ) + 1) :=
        checkedInt_ok (by omega) (by have hint := hleaves.int; omega)
      refine ⟨rounds + 1, final, ?_⟩
      rw [receiveLoop, hround, ok_bind]
      dsimp only
      rw [hindex, ok_bind, hends]
    rcases round_cases hbuffer with ⟨-, after, message, hround, hafter⟩ | ⟨-, -, after, hround⟩ |
      ⟨-, -, -, after, message, hround, hafter⟩ | ⟨htext, -, hzero, -⟩
    · exact hgoes after message hround hafter
    · exact ⟨1, after, by rw [receiveLoop, hround, ok_bind]⟩
    · exact hgoes after message hround hafter
    · exact absurd (hleaves.terminated i (Nat.le_refl i) (by omega) htext) hzero

end Loop

/-- Before the first round the buffer is the one with which the loop starts. -/
theorem buffer_eq_overlayAll (packets : List Packet) (receiver : Receiver) :
    receiver.buffer =
      overlayAll ((packets.drop commandCount).take (0 - commandCount)) receiver.buffer := by
  rw [Nat.zero_sub, List.take_zero]
  rfl

/-- **A receive loop ends exactly when one of its buffers holds `END` and those before it can be
printed.** For every finite sequence of packets of any lengths and contents before the connection is
closed, and every buffer with which the loop starts: the string packets up to some index, laid one
after another over that buffer, leave `END` and its terminator at its start, and at no string before
that they leave 20 bytes without a zero. -/
theorem ends_iff (packets : List Packet) (receiver : Receiver) :
    Ends packets receiver ↔
      ∃ last, commandCount ≤ last ∧ last ≤ 2147483647 ∧
        (bufferAt packets receiver.buffer last).HoldsEnd ∧
        ∀ i, commandCount ≤ i → i < last → 0 ∈ (bufferAt packets receiver.buffer i).bytes := by
  have hbuffer := buffer_eq_overlayAll packets receiver
  constructor
  · rintro ⟨rounds, final, hends⟩
    obtain ⟨last, hleaves⟩ := exists_leaves (Nat.zero_le _) hbuffer hends
    exact ⟨last, hleaves.text, hleaves.int, hleaves.holds, fun i htext hlt ↦
      hleaves.terminated i (Nat.zero_le i) hlt htext⟩
  · rintro ⟨last, htext, hint, hholds, hterminated⟩
    have hleaves : Leaves packets receiver.buffer 0 (0 + last) := by
      rw [Nat.zero_add]
      exact ⟨htext, hint, hholds, fun i _ hlt htext ↦ hterminated i htext hlt⟩
    exact ends_of_leaves hbuffer hleaves

/-- A client whose server goes away before it has sent a string leaves its loop: its own `END` is
still in its buffer. -/
theorem ends_of_copyEnd {packets : List Packet} (hshort : packets.length ≤ commandCount)
    (receiver : Receiver) : Ends packets receiver.copyEnd := by
  have hnone : packets.drop commandCount = [] := List.drop_eq_nil_of_le hshort
  have hleaves : Leaves packets receiver.copyEnd.buffer 0 (0 + commandCount) := by
    refine ⟨Nat.le_refl _, by decide, ?_, fun i _ hlt htext ↦ absurd hlt (by omega)⟩
    rw [bufferAt, hnone, List.take_nil]
    exact CString.ofBuffer_append_nul endString _
  exact ends_of_leaves (buffer_eq_overlayAll packets receiver.copyEnd) hleaves

/-- **A peer that goes away after a string keeps the loop going.** Five commands and the string
`Firmino`, in a buffer that held nothing before; none of the packets is an `END`. -/
theorem disconnect_not_ended :
    ¬ ∀ (packets : List Packet) (receiver : Receiver),
      (∀ packet ∈ packets, CString.ofBuffer packet ≠ endString) → Ends packets receiver := by
  intro hends
  let packets : List Packet := [[1], [0], [1], [1], [0], [70, 105, 114, 109, 105, 110, 111, 0]]
  let receiver : Receiver := ⟨0, ⟨List.replicate 20 0, rfl⟩⟩
  obtain ⟨rounds, final, hloop⟩ := hends packets receiver (by decide)
  obtain ⟨last, hleaves⟩ :=
    exists_leaves (Nat.zero_le _) (buffer_eq_overlayAll packets receiver) hloop
  have hstring := hleaves.text
  have hholds := hleaves.holds
  obtain ⟨extra, hextra⟩ : ∃ extra, last + 1 - commandCount = extra + 1 :=
    ⟨last - commandCount, by omega⟩
  have htexts : packets.drop commandCount = [[70, 105, 114, 109, 105, 110, 111, 0]] := rfl
  rw [bufferAt, hextra, htexts, List.take_succ_cons, List.take_nil] at hholds
  exact absurd hholds (by decide)

end Apes.Sockets
