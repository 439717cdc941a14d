import Apes.Library.BinaryFloat

/-!
# The temperature pipeline, `tempSensor.c` and `i2cHelper.c`

`I2CGet2Bytes` puts the two bytes of the sensor together, `readTemp` turns them into a temperature
and `tempTaskCode` sends the temperatures to the logger and notifies the alert task of the high
ones. The arithmetic is that of the code: unsigned 16-bit shifts and masks, a conversion to single
precision, a product in double precision, and a rounding back to single precision.

`Reading.encoded` is the data sheet: the temperature in units of a sixteenth of a degree, two's
complement, left-justified in 12 bits, or in 13 bits when the lowest bit is set. `readTemp_eq` says
that the code reads the same bits as an unsigned number, and that all its floating-point operations
are exact; so `pipelineFaithful_iff` has it faithful exactly on the readings without a sign.
-/

set_option autoImplicit false
set_option relaxedAutoImplicit false

namespace Apes.Firmware

open Library

/-! ### The code -/

/-- A reading: the two bytes that the I2C master receives, the high one first. -/
structure Reading where
  dataOne : UInt8
  dataTwo : UInt8

/-- `I2CGet2Bytes`, on the two bytes that it receives. -/
def I2CGet2Bytes (reading : Reading) : UInt16 :=
  ((reading.dataOne.toUInt32 <<< 8) ||| reading.dataTwo.toUInt32).toUInt16

/-- `TEMPERATURE_THRESHOLD`. -/
def temperatureThreshold : ℤ := 27

/-- The shifts and masks of `readTemp`: the 13-bit mode when bit 0 is set, the 12-bit mode else. -/
def tempReg (register : UInt16) : UInt16 :=
  if register &&& 0x01 ≠ 0 then (register &&& 0xFFF8) >>> 3
  else (register &&& 0xFFF0) >>> 4

/-- `readTemp`. -/
def readTemp (reading : Reading) : ℚ :=
  binary32.round (binary64.round
    (binary32.round (tempReg (I2CGet2Bytes reading)).toNat * binary64.round 0.0625))

/-- The record that is sent to the logger. -/
structure TempLog where
  temp : ℚ
  timestamp : UInt32

/-- What a pass through the loop of `tempTaskCode` does: the record that it sends, and whether it
notifies the alert task. -/
structure Pass where
  txLog : TempLog
  notifies : Bool

/-- A pass through the loop of `tempTaskCode` on a reading, at a time. -/
def pass (reading : Reading) (timestamp : UInt32) : Pass where
  txLog := ⟨readTemp reading, timestamp⟩
  notifies := decide (binary32.round temperatureThreshold < readTemp reading)

/-- The loop of `tempTaskCode` over the readings, each with its time. -/
def tempTaskCode : List (Reading × UInt32) → List Pass
  | [] => []
  | (reading, timestamp) :: rest => pass reading timestamp :: tempTaskCode rest

/-! ### The sensor -/

namespace Reading

variable (reading : Reading)

/-- The temperature register. -/
def register : BitVec 16 := reading.dataOne.toBitVec ++ reading.dataTwo.toBitVec

/-- The bits of the temperature: 13 when the lowest bit of the register is set, 12 when it is
not. -/
def width : ℕ := if reading.register.getLsbD 0 then 13 else 12

/-- The bits of the temperature, left-justified in the register. -/
def field : BitVec reading.width := reading.register.extractLsb' (16 - reading.width) reading.width

/-- The temperature that the reading encodes, in degrees. -/
def encoded : ℚ := reading.field.toInt / 16

end Reading

/-- The pipeline is faithful to the sensor: the temperature of every pass is the one that its
reading encodes, and it notifies the alert task exactly when that is above the threshold. -/
def PipelineFaithful (readings : List (Reading × UInt32)) : Prop :=
  (tempTaskCode readings).length = readings.length ∧
    ∀ (k : ℕ) (reading : Reading) (timestamp : UInt32), readings[k]? = some (reading, timestamp) →
      ∃ done : Pass, (tempTaskCode readings)[k]? = some done ∧ done.txLog.temp = reading.encoded ∧
        (done.notifies = true ↔ (temperatureThreshold : ℚ) < reading.encoded)

/-! ### The bits -/

/-- The two bytes are put together as the register. -/
theorem toNat_I2CGet2Bytes (reading : Reading) :
    (I2CGet2Bytes reading).toNat = reading.register.toNat := by
  have hone : reading.dataOne.toNat <<< 8 < 2 ^ 32 := by
    rw [Nat.shiftLeft_eq]
    have hlt := reading.dataOne.toNat_lt
    omega
  unfold I2CGet2Bytes Reading.register
  rw [BitVec.toNat_append, UInt32.toNat_toUInt16, UInt32.toNat_or, UInt32.toNat_shiftLeft,
    UInt8.toNat_toUInt32, UInt8.toNat_toUInt32]
  change (reading.dataOne.toNat <<< 8 % 2 ^ 32 ||| reading.dataTwo.toNat) % 2 ^ 16 =
    reading.dataOne.toNat <<< 8 ||| reading.dataTwo.toNat
  rw [Nat.mod_eq_of_lt hone]
  apply Nat.mod_eq_of_lt
  apply Nat.or_lt_two_pow
  · rw [Nat.shiftLeft_eq]
    have hlt := reading.dataOne.toNat_lt
    omega
  · exact reading.dataTwo.toNat_lt.trans (by norm_num)

/-- A mask of the high bits and a shift by the others leave the high bits. -/
theorem and_shiftRight (register mask shift width : ℕ) (hmask : mask >>> shift = 2 ^ width - 1) :
    (register &&& mask) >>> shift = (register >>> shift) % 2 ^ width := by
  rw [Nat.shiftRight_and_distrib, hmask, Nat.and_two_pow_sub_one_eq_mod]

/-- The test of bit 0. -/
theorem and_one_ne_zero_iff (reading : Reading) :
    I2CGet2Bytes reading &&& 0x01 ≠ 0 ↔ reading.register.getLsbD 0 = true := by
  rw [BitVec.getLsbD, ← toNat_I2CGet2Bytes]
  simp [UInt16.toNat_inj.symm]

/-- The code takes the bits of the field for an unsigned number. -/
theorem toNat_tempReg (reading : Reading) :
    (tempReg (I2CGet2Bytes reading)).toNat = reading.field.toNat := by
  unfold tempReg Reading.field
  rw [BitVec.extractLsb'_toNat, ← toNat_I2CGet2Bytes]
  unfold Reading.width
  by_cases hextended : reading.register.getLsbD 0 = true
  · rw [if_pos ((and_one_ne_zero_iff reading).mpr hextended), if_pos hextended,
      UInt16.toNat_shiftRight, UInt16.toNat_and]
    exact and_shiftRight _ 0xFFF8 3 13 (by decide)
  · rw [if_neg (mt (and_one_ne_zero_iff reading).mp hextended), if_neg hextended,
      UInt16.toNat_shiftRight, UInt16.toNat_and]
    exact and_shiftRight _ 0xFFF0 4 12 (by decide)

namespace Reading

variable (reading : Reading)

theorem width_pos : 0 < reading.width := by
  unfold width
  split_ifs <;> norm_num

theorem width_le : reading.width ≤ 16 := by
  unfold width
  split_ifs <;> norm_num

/-- The highest bit of the field is that of the first byte. -/
theorem msb_field : reading.field.msb = false ↔ reading.dataOne < 128 := by
  have hjustified : 16 - reading.width + reading.width = 16 := Nat.sub_add_cancel reading.width_le
  have hfield : reading.field.msb = reading.dataOne.toBitVec.msb := by
    unfold field
    rw [BitVec.msb_extractLsb', hjustified, Nat.sub_self, decide_eq_true reading.width_pos,
      decide_eq_true (le_refl 16), Bool.true_and, Bool.true_and]
    exact BitVec.msb_append
  rw [hfield, BitVec.msb_eq_decide, decide_eq_false_iff_not, not_le, UInt8.lt_iff_toNat_lt]
  exact Iff.rfl

end Reading

/-! ### The temperature -/

/-- Every floating-point operation of `readTemp` is exact. -/
theorem readTemp_eq (reading : Reading) : readTemp reading = (reading.field.toNat : ℚ) / 16 := by
  have hfield : reading.field.toNat < 2 ^ 16 :=
    reading.field.isLt.trans_le (Nat.pow_le_pow_right two_pos reading.width_le)
  have hsingle : reading.field.toNat < 2 ^ binary32.precision := hfield.trans (by decide)
  have hdouble : reading.field.toNat < 2 ^ binary64.precision := hfield.trans (by decide)
  have hfactor : binary64.round 0.0625 = 2 ^ (-4 : ℤ) := by
    have hround := BinaryFormat.round_natCast_mul binary64 (show 1 < 2 ^ 53 by norm_num) (-4)
      (by decide)
    rw [Nat.cast_one, one_mul] at hround
    rw [← hround]
    norm_num
  unfold readTemp
  rw [toNat_tempReg, BinaryFormat.round_natCast binary32 hsingle (by decide), hfactor,
    BinaryFormat.round_natCast_mul binary64 hdouble (-4) (by decide),
    BinaryFormat.round_natCast_mul binary32 hsingle (-4) (by decide)]
  norm_num [div_eq_mul_inv]

/-- The temperature is the one that the reading encodes exactly when the reading has no sign. -/
theorem readTemp_eq_encoded_iff (reading : Reading) :
    readTemp reading = reading.encoded ↔ reading.dataOne < 128 := by
  rw [readTemp_eq, Reading.encoded, ← reading.msb_field, div_left_inj' (by norm_num),
    BitVec.toInt_eq_msb_cond]
  cases reading.field.msb with
  | false => simp
  | true =>
    have hpower : ((2 ^ reading.width : ℕ) : ℚ) ≠ 0 := by positivity
    simp only [if_true, Bool.true_eq_false, iff_false]
    push_cast at hpower ⊢
    intro hequal
    exact hpower (by linarith)

/-- The threshold of the comparison is exact. -/
theorem round_temperatureThreshold :
    binary32.round temperatureThreshold = temperatureThreshold := by
  have hround := BinaryFormat.round_natCast binary32 (show 27 < 2 ^ 24 by norm_num) (by decide)
  exact_mod_cast hround

/-! ### The pipeline -/

/-- The loop makes one pass for each reading. -/
theorem tempTaskCode_eq_map (readings : List (Reading × UInt32)) :
    tempTaskCode readings = readings.map fun sample ↦ pass sample.1 sample.2 := by
  induction readings with
  | nil => rfl
  | cons sample rest ih => exact congrArg _ ih

/-- **The pipeline is faithful exactly on readings without a sign.** For every list of readings,
each in either mode. -/
theorem pipelineFaithful_iff (readings : List (Reading × UInt32)) :
    PipelineFaithful readings ↔ ∀ sample ∈ readings, sample.1.dataOne < 128 := by
  unfold PipelineFaithful
  rw [tempTaskCode_eq_map]
  constructor
  · rintro ⟨-, hfaithful⟩ ⟨reading, timestamp⟩ hmem
    obtain ⟨k, hk⟩ := List.getElem?_of_mem hmem
    obtain ⟨done, hdone, htemp, -⟩ := hfaithful k reading timestamp hk
    rw [List.getElem?_map, hk, Option.map_some, Option.some.injEq] at hdone
    rw [← hdone] at htemp
    exact (readTemp_eq_encoded_iff reading).mp htemp
  · intro hpositive
    refine ⟨List.length_map _, fun k reading timestamp hk ↦ ⟨pass reading timestamp, ?_, ?_⟩⟩
    · rw [List.getElem?_map, hk]
      rfl
    · have htemp := (readTemp_eq_encoded_iff reading).mpr
        (hpositive _ (List.mem_of_getElem? hk))
      refine ⟨htemp, ?_⟩
      unfold pass
      rw [decide_eq_true_iff, round_temperatureThreshold, htemp]

/-- A reading of -1 degree in the 12-bit mode, bytes 255 and 0: the temperature is 255 degrees and
the alert task is notified. -/
theorem negative_not_faithful : ¬ PipelineFaithful [(⟨255, 0⟩, 0)] := by
  rintro ⟨-, hfaithful⟩
  obtain ⟨done, hdone, htemp, -⟩ := hfaithful 0 ⟨255, 0⟩ 0 rfl
  obtain rfl : pass ⟨255, 0⟩ 0 = done := Option.some.inj hdone
  have hcode : readTemp ⟨255, 0⟩ = 255 := by
    rw [readTemp_eq, show (Reading.field ⟨255, 0⟩).toNat = 4080 by rfl]
    norm_num
  have hsensor : Reading.encoded ⟨255, 0⟩ = -1 := by
    rw [Reading.encoded, show (Reading.field ⟨255, 0⟩).toInt = -16 by rfl]
    norm_num
  have hequal : (255 : ℚ) = -1 := hcode.symm.trans (htemp.trans hsensor)
  norm_num at hequal

end Apes.Firmware
