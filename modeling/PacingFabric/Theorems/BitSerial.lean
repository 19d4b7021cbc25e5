import PacingFabric.Storage.ShiftRegister
import PacingFabric.Theorems.Damage

/-!
# The checksum bit by bit

The table looks up eight turns of a shift register at once. Without it, the register reads
the string one bit at a time, the least significant bit of each byte first.

## Main definitions

* `crc32cSerial`: the checksum as a shift register computes it.

## Main results

* `crc32c_serial`: the table computes the same, in parts as well as at once, and a flipped
  bit shows.
-/

namespace Pacing

open ShiftRegister

namespace Crc32c

theorem and_one_ne_zero_iff (c : UInt32) : c &&& 1 ≠ 0 ↔ c.toBitVec.getLsbD 0 = true := by
  rw [ne_eq, ← UInt32.toBitVec_inj, UInt32.toBitVec_and]
  change ¬c.toBitVec &&& 1#32 = 0#32 ↔ _
  rw [BitVec.and_one_eq_setWidth_ofBool_getLsbD]
  cases c.toBitVec.getLsbD 0 <;> decide

theorem toBitVec_bit (c : UInt32) : (bit c).toBitVec = turn poly.toBitVec c.toBitVec := by
  unfold bit turn
  simp only [and_one_ne_zero_iff]
  split <;> rfl

theorem toBitVec_bit_iterate (n : ℕ) (c : UInt32) :
    (bit^[n] c).toBitVec = (turn poly.toBitVec)^[n] c.toBitVec := by
  induction n generalizing c with
  | zero => rfl
  | succ n ih => rw [Function.iterate_succ_apply, ih, toBitVec_bit, Function.iterate_succ_apply]

/-- The bits of a byte in the order the register reads them. -/
def bits (b : UInt8) : List Bool := lowBits 8 b.toBitVec

theorem lowBits_toUInt32 (b : UInt8) : lowBits 8 b.toUInt32.toBitVec = bits b := by
  apply List.map_congr_left
  intro i hi
  have hi := List.mem_range.1 hi
  rw [UInt8.toBitVec_toUInt32, BitVec.getLsbD_setWidth, decide_eq_true (by omega),
    Bool.true_and]

theorem lowBits_toUInt8 (c : UInt32) : bits c.toUInt8 = lowBits 8 c.toBitVec := by
  apply List.map_congr_left
  intro i hi
  have hi := List.mem_range.1 hi
  rw [UInt32.toBitVec_toUInt8, BitVec.getLsbD_setWidth, decide_eq_true hi, Bool.true_and]

theorem toUInt32_shiftRight (b : UInt8) : b.toUInt32 >>> 8 = 0 := by
  apply UInt32.toNat_inj.1
  have hb := b.toNat_lt
  rw [UInt32.toNat_shiftRight, UInt8.toNat_toUInt32, Nat.shiftRight_eq_div_pow]
  change b.toNat / 2 ^ 8 = 0
  omega

/-- The table holds eight turns of the low byte, and the shift moves the rest down. -/
theorem toBitVec_byte (c : UInt32) (b : UInt8) :
    (byte c b).toBitVec = (bits b).foldl (feed poly.toBitVec) c.toBitVec := by
  have hindex : lowBits 8 (c ^^^ b.toUInt32).toBitVec =
      lowBits 8 (c ^^^ b.toUInt32).toUInt8.toUInt32.toBitVec := by
    rw [lowBits_toUInt32, lowBits_toUInt8]
  have hread : b.toUInt32.toBitVec >>> 8 = 0#32 :=
    congrArg UInt32.toBitVec (toUInt32_shiftRight b)
  have hlooked : (c ^^^ b.toUInt32).toUInt8.toUInt32.toBitVec >>> 8 = 0#32 :=
    congrArg UInt32.toBitVec (toUInt32_shiftRight _)
  calc (byte c b).toBitVec
      = (turn poly.toBitVec)^[8] (c ^^^ b.toUInt32).toUInt8.toUInt32.toBitVec ^^^
          (c.toBitVec >>> 8) := by
        rw [byte, table, UInt32.toBitVec_xor, toBitVec_bit_iterate]
        rfl
    _ = (turn poly.toBitVec)^[8] (c ^^^ b.toUInt32).toBitVec := by
        rw [turn_iterate_eq _ hindex, hlooked, UInt32.toBitVec_xor,
          BitVec.ushiftRight_xor_distrib, hread, BitVec.xor_zero, BitVec.xor_zero]
    _ = (bits b).foldl (feed poly.toBitVec) c.toBitVec := by
        rw [← lowBits_toUInt32, foldl_feed_lowBits, hread, BitVec.xor_zero,
          UInt32.toBitVec_xor]

theorem toBitVec_foldl_byte (data : Bytes) (c : UInt32) :
    (data.foldl byte c).toBitVec =
      (data.flatMap bits).foldl (feed poly.toBitVec) c.toBitVec := by
  induction data generalizing c with
  | nil => rfl
  | cons b data ih =>
    rw [List.foldl_cons, ih, toBitVec_byte, List.flatMap_cons, List.foldl_append]

end Crc32c

/-- The checksum as a shift register reads the string: complemented before and after, the
least significant bit of each byte first. -/
def crc32cSerial (seed : UInt32) (data : Bytes) : UInt32 :=
  ⟨~~~((data.flatMap Crc32c.bits).foldl (feed 0x82F63B78#32) (~~~seed.toBitVec))⟩

theorem crc32cExtend_eq_serial (seed : UInt32) (data : Bytes) :
    crc32cExtend seed data = crc32cSerial seed data := by
  rw [← UInt32.toBitVec_inj, crc32cExtend, UInt32.toBitVec_not, Crc32c.toBitVec_foldl_byte,
    UInt32.toBitVec_not]
  rfl

/-- What was computed of one part is the seed of the next. -/
theorem crc32cExtend_append (seed : UInt32) (a b : Bytes) :
    crc32cExtend (crc32cExtend seed a) b = crc32cExtend seed (a ++ b) := by
  simp only [crc32cExtend, UInt32.not_not, List.foldl_append]

theorem crc32c_flipBit_ne {data : Bytes} {i : ℕ} (hi : i < data.length) (j : Fin 8) :
    crc32c (flipBit data i j) ≠ crc32c data :=
  crc32c_modify_ne hi (flipByte_ne j)

/-- The table-driven checksum is that of the shift register, it is computed in parts as well
as at once, and no flip of one bit leaves it as it was. -/
theorem crc32c_serial (seed : UInt32) (a b : Bytes) :
    crc32cExtend seed a = crc32cSerial seed a ∧
      crc32cExtend (crc32c a) b = crc32c (a ++ b) ∧
      ∀ (i : Fin a.length) (j : Fin 8), crc32c (flipBit a i j) ≠ crc32c a :=
  ⟨crc32cExtend_eq_serial seed a, crc32cExtend_append 0 a b,
    fun i j => crc32c_flipBit_ne i.isLt j⟩

end Pacing
