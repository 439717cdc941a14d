import Mathlib.Data.List.Lex
import Mathlib.Data.List.TakeWhile
import Mathlib.Order.Lattice
import Mathlib.Tactic.Common

/-!
# C strings

A C string is the bytes before its terminating NUL, so a list of bytes without a zero
(`CString`). `CString.ofBuffer` reads the string at the start of a buffer, as `%s` does, and
`CString.padded` is a string in an array of `char` whose remaining bytes are zero.

`strcmp` compares two strings byte by byte as `unsigned char`, the terminator counting as zero. It
is the comparison of the lexicographic order (`strcmp_eq_zero_iff`, `strcmp_pos_iff`,
`strcmp_neg_iff`), which is the linear order put on `CString`. `strncmp` compares at most a number
of bytes of two buffers and stops after a common NUL; against a string shorter than the bound it
tests whether the buffer holds that string (`strncmp_eq_zero_iff`).
-/

set_option autoImplicit false
set_option relaxedAutoImplicit false

namespace Apes.Library

/-- The bytes of a C string before its terminator. -/
structure CString where
  bytes : List UInt8
  nul_free : (0 : UInt8) ∉ bytes

namespace CString

@[ext] theorem ext {first second : CString} (hbytes : first.bytes = second.bytes) :
    first = second := by
  cases first
  cases second
  cases hbytes
  rfl

/-- The string at the start of a buffer: the bytes before the first NUL. -/
def ofBuffer (buffer : List UInt8) : CString where
  bytes := buffer.takeWhile (· ≠ 0)
  nul_free := fun hzero ↦ by simpa using List.mem_takeWhile_imp hzero

@[simp] theorem bytes_ofBuffer (buffer : List UInt8) :
    (ofBuffer buffer).bytes = buffer.takeWhile (· ≠ 0) := rfl

/-- An array of `size` bytes that holds the string and zeros after it. -/
def padded (size : ℕ) (string : CString) : List UInt8 :=
  string.bytes ++ List.replicate (size - string.bytes.length) 0

/-- The string at the start of a buffer that holds a string and its terminator. -/
theorem ofBuffer_append_nul (string : CString) (rest : List UInt8) :
    ofBuffer (string.bytes ++ 0 :: rest) = string := by
  refine ext ?_
  have hall : ∀ byte ∈ string.bytes, (decide (byte ≠ 0)) = true := by
    intro byte hbyte
    exact decide_eq_true fun hzero ↦ string.nul_free (hzero ▸ hbyte)
  rw [bytes_ofBuffer, List.takeWhile_append_of_pos hall, List.takeWhile_cons_of_neg (by simp),
    List.append_nil]

/-- The length of a padded string that fits. -/
theorem length_padded {size : ℕ} {string : CString} (hfits : string.bytes.length ≤ size) :
    (string.padded size).length = size := by
  rw [padded, List.length_append, List.length_replicate]
  omega

/-- Reading a padded string that is shorter than its array gives the string, whatever follows the
array. -/
theorem ofBuffer_padded_append {size : ℕ} {string : CString} (hfits : string.bytes.length < size)
    (rest : List UInt8) : ofBuffer (string.padded size ++ rest) = string := by
  obtain ⟨extra, hextra⟩ : ∃ extra, size - string.bytes.length = extra + 1 :=
    ⟨size - string.bytes.length - 1, by omega⟩
  rw [padded, hextra, List.replicate_succ, List.append_assoc, List.cons_append]
  exact ofBuffer_append_nul string _

/-- The value of a string in the lexicographic order. -/
private def key (string : CString) : List ℕ := string.bytes.map UInt8.toNat

private theorem key_injective : Function.Injective key := by
  intro first second hkey
  exact ext (List.map_injective_iff.mpr (fun _ _ hbyte ↦ UInt8.toNat_inj.mp hbyte) hkey)

/-- The lexicographic order on strings, bytes compared as `unsigned char`. -/
instance : LinearOrder CString := LinearOrder.lift' key key_injective

end CString

/-! ### Comparing strings -/

/-- The comparison of two byte strings, the end of a string counting as a byte smaller than every
other. -/
def compareBytes : List UInt8 → List UInt8 → ℤ
  | [], [] => 0
  | [], _ :: _ => -1
  | _ :: _, [] => 1
  | first :: firstRest, second :: secondRest =>
    if first = second then compareBytes firstRest secondRest
    else if first < second then -1 else 1

/-- `strcmp`. -/
def strcmp (first second : CString) : ℤ := compareBytes first.bytes second.bytes

theorem compareBytes_eq_zero_iff (first second : List UInt8) :
    compareBytes first second = 0 ↔ first = second := by
  induction first, second using compareBytes.induct with
  | case1 => simp [compareBytes]
  | case2 => simp [compareBytes]
  | case3 => simp [compareBytes]
  | case4 first firstRest secondRest ih => simp [compareBytes, ih]
  | case5 first firstRest second secondRest hne hlt => simp [compareBytes, hne, hlt]
  | case6 first firstRest second secondRest hne hlt => simp [compareBytes, hne, hlt]

theorem compareBytes_neg_iff (first second : List UInt8) :
    compareBytes first second < 0 ↔ first.map UInt8.toNat < second.map UInt8.toNat := by
  induction first, second using compareBytes.induct with
  | case1 => simp [compareBytes]
  | case2 => simp [compareBytes]
  | case3 => simp [compareBytes]
  | case4 first firstRest secondRest ih =>
    simp [compareBytes, ih]
  | case5 first firstRest second secondRest hne hlt =>
    have hvalue : first.toNat < second.toNat := UInt8.lt_iff_toNat_lt.mp hlt
    simp [compareBytes, hne, hlt, List.cons_lt_cons_iff, hvalue]
  | case6 first firstRest second secondRest hne hlt =>
    have hvalue : ¬ first.toNat < second.toNat := fun h ↦ hlt (UInt8.lt_iff_toNat_lt.mpr h)
    have hdistinct : first.toNat ≠ second.toNat := fun h ↦ hne (UInt8.toNat_inj.mp h)
    simp [compareBytes, hne, hlt, List.cons_lt_cons_iff, hvalue, hdistinct]

/-- `strcmp` returns zero on equal strings only. -/
theorem strcmp_eq_zero_iff (first second : CString) : strcmp first second = 0 ↔ first = second :=
  (compareBytes_eq_zero_iff _ _).trans ⟨CString.ext, congrArg _⟩

/-- `strcmp` is negative when the first string comes first in the lexicographic order. -/
theorem strcmp_neg_iff (first second : CString) : strcmp first second < 0 ↔ first < second :=
  compareBytes_neg_iff _ _

/-- `strcmp` is positive when the first string comes last in the lexicographic order. -/
theorem strcmp_pos_iff (first second : CString) : 0 < strcmp first second ↔ second < first := by
  have hzero := strcmp_eq_zero_iff first second
  have hneg := strcmp_neg_iff first second
  rcases lt_trichotomy first second with hlt | heq | hgt
  · have := hneg.mpr hlt
    exact ⟨fun h ↦ by omega, fun h ↦ absurd hlt (lt_asymm h)⟩
  · have := hzero.mpr heq
    exact ⟨fun h ↦ by omega, fun h ↦ absurd (heq ▸ h) (lt_irrefl _)⟩
  · refine ⟨fun _ ↦ hgt, fun _ ↦ ?_⟩
    have hne : strcmp first second ≠ 0 := fun h ↦ hgt.ne' (hzero.mp h)
    have hnot : ¬ strcmp first second < 0 := fun h ↦ lt_asymm hgt (hneg.mp h)
    omega

/-- `strncmp(first, second, count)` on two buffers: at most `count` bytes are compared, and the
comparison stops after a common NUL. A read past the end of a buffer is taken to see a NUL. -/
def strncmp : ℕ → List UInt8 → List UInt8 → ℤ
  | 0, _, _ => 0
  | count + 1, first, second =>
    if first.headD 0 = second.headD 0 then
      if first.headD 0 = 0 then 0 else strncmp count first.tail second.tail
    else if first.headD 0 < second.headD 0 then -1 else 1

private theorem strncmp_eq_zero_iff_takeWhile (count : ℕ) (buffer bytes : List UInt8)
    (hfree : (0 : UInt8) ∉ bytes) (hshort : bytes.length < count) :
    strncmp count buffer bytes = 0 ↔ buffer.takeWhile (· ≠ 0) = bytes := by
  induction count generalizing buffer bytes with
  | zero => omega
  | succ count ih =>
    obtain _ | ⟨byte, rest⟩ := bytes
    · obtain _ | ⟨first, buffer⟩ := buffer
      · simp [strncmp]
      · by_cases hzero : first = 0
        · simp [strncmp, hzero]
        · by_cases hlt : first < 0 <;> simp [strncmp, hzero, hlt]
    · have hbyte : byte ≠ 0 := fun h ↦ hfree (by simp [h])
      have hrest : (0 : UInt8) ∉ rest := fun h ↦ hfree (by simp [h])
      rw [List.length_cons] at hshort
      obtain _ | ⟨first, buffer⟩ := buffer
      · by_cases hlt : (0 : UInt8) < byte <;> simp [strncmp, hbyte.symm, hlt]
      · by_cases heq : first = byte
        · subst heq
          simpa [strncmp, hbyte] using ih buffer rest hrest (by omega)
        · by_cases hzero : first = 0
          · subst hzero
            by_cases hlt : (0 : UInt8) < byte <;> simp [strncmp, hbyte.symm, hlt]
          · by_cases hlt : first < byte <;> simp [strncmp, heq, hzero, hlt]

/-- Against a string shorter than the bound, `strncmp` tests whether the buffer starts with that
string and its terminator. -/
theorem strncmp_eq_zero_iff {count : ℕ} (buffer : List UInt8) {string : CString}
    (hshort : string.bytes.length < count) :
    strncmp count buffer string.bytes = 0 ↔ CString.ofBuffer buffer = string :=
  (strncmp_eq_zero_iff_takeWhile count buffer string.bytes string.nul_free hshort).trans
    ⟨fun hbytes ↦ CString.ext hbytes, fun heq ↦ congrArg CString.bytes heq⟩

end Apes.Library
