import Mathlib

namespace KernelStudy
namespace MachineWord

/-!
# Conversions between the fixed-width integers of C

The modelled programs mix `int`, `unsigned`, `size_t` and `loff_t` in one
expression.  Lean's fixed-width types carry the same wrapping arithmetic, and
a C conversion is one of the coercions below.  Each lemma moves a converted
value to `Int` or `Nat`, where linear arithmetic closes the remaining goals.

The unconditional form of a conversion is a residue.  The conditional form
says that a value already in range is unchanged, which is what a proof about
an in-range execution uses.
-/

/-! ## Conversions of 64-bit words -/

theorem toNat_toUInt64 (value : Int64) :
    (value.toUInt64.toNat : Int) = value.toInt % 2 ^ 64 := by
  have signed : value.toInt = (value.toUInt64.toNat : Int).bmod (2 ^ 64) :=
    BitVec.toInt_eq_toNat_bmod value.toBitVec
  have bound := value.toUInt64.toNat_lt
  have residue := Int.bmod_emod (x := (value.toUInt64.toNat : Int)) (m := 2 ^ 64)
  rw [signed]
  omega

theorem toNat_toUInt64_of_nonneg {value : Int64} (nonneg : 0 ≤ value.toInt) :
    (value.toUInt64.toNat : Int) = value.toInt := by
  have upper := value.toInt_lt
  rw [toNat_toUInt64]
  omega

theorem toInt_toInt64 (value : UInt64) :
    value.toInt64.toInt = (value.toNat : Int).bmod (2 ^ 64) :=
  BitVec.toInt_eq_toNat_bmod value.toBitVec

theorem toInt_toInt64_of_lt {value : UInt64} (bound : value.toNat < 2 ^ 63) :
    value.toInt64.toInt = value.toNat := by
  rw [toInt_toInt64]
  exact Int.bmod_eq_of_le (by omega) (by omega)

theorem toInt_add_of_range {left right : Int64}
    (lower : -2 ^ 63 ≤ left.toInt + right.toInt)
    (upper : left.toInt + right.toInt < 2 ^ 63) :
    (left + right).toInt = left.toInt + right.toInt := by
  rw [Int64.toInt_add]
  exact Int.bmod_eq_of_le (by omega) (by omega)

theorem toInt_sub_of_range {left right : Int64}
    (lower : -2 ^ 63 ≤ left.toInt - right.toInt)
    (upper : left.toInt - right.toInt < 2 ^ 63) :
    (left - right).toInt = left.toInt - right.toInt := by
  rw [Int64.toInt_sub]
  exact Int.bmod_eq_of_le (by omega) (by omega)

/-! ## Conversions through 32-bit words -/

theorem toInt_toInt32 (value : UInt32) :
    value.toInt32.toInt = (value.toNat : Int).bmod (2 ^ 32) :=
  BitVec.toInt_eq_toNat_bmod value.toBitVec

theorem toInt_toInt32_of_lt {value : UInt32} (bound : value.toNat < 2 ^ 31) :
    value.toInt32.toInt = value.toNat := by
  rw [toInt_toInt32]
  exact Int.bmod_eq_of_le (by omega) (by omega)

/-- Storing an `unsigned long` in an `int` keeps a value below `2 ^ 31`. -/
theorem toInt_narrow_of_lt {value : UInt64} (bound : value.toNat < 2 ^ 31) :
    value.toUInt32.toInt32.toInt = value.toNat := by
  have kept : value.toUInt32.toNat = value.toNat := by
    rw [UInt64.toNat_toUInt32]
    omega
  rw [toInt_toInt32_of_lt (by omega), kept]

/-- Widening a nonnegative `int` to `unsigned long` keeps its value. -/
theorem toNat_widen_of_nonneg {value : Int32} (nonneg : 0 ≤ value.toInt) :
    (value.toInt64.toUInt64.toNat : Int) = value.toInt := by
  rw [toNat_toUInt64_of_nonneg (by rw [Int32.toInt_toInt64]; exact nonneg), Int32.toInt_toInt64]

/-- The two conversions together: an `unsigned long` that fits an `int`
survives being stored there and used as an `unsigned long` again. -/
theorem toNat_widen_narrow_of_lt {value : UInt64} (bound : value.toNat < 2 ^ 31) :
    value.toUInt32.toInt32.toInt64.toUInt64.toNat = value.toNat := by
  have narrow := toInt_narrow_of_lt bound
  have nonneg : 0 ≤ value.toUInt32.toInt32.toInt := by omega
  have widen := toNat_widen_of_nonneg nonneg
  omega

/-! ## Clearing the low bits of a word -/

/-- A mask that keeps the bits from `low` upwards rounds a word down to a
multiple of `2 ^ low`. -/
theorem toNat_and_highMask {width : Nat} (word : BitVec width) (low : Nat) :
    (word &&& (BitVec.allOnes width <<< low)).toNat = 2 ^ low * (word.toNat / 2 ^ low) := by
  have shifted : word &&& (BitVec.allOnes width <<< low) = (word >>> low) <<< low := by
    apply BitVec.eq_of_getLsbD_eq
    intro index bound
    simp only [BitVec.getLsbD_and, BitVec.getLsbD_shiftLeft, BitVec.getLsbD_ushiftRight,
      BitVec.getLsbD_allOnes]
    by_cases below : index < low
    · simp [below]
    · have shorter : index - low < width := by omega
      have same : low + (index - low) = index := by omega
      simp [bound, below, shorter, same]
  have small : word.toNat / 2 ^ low * 2 ^ low < 2 ^ width :=
    Nat.lt_of_le_of_lt (Nat.div_mul_le_self _ _) word.isLt
  rw [shifted, BitVec.toNat_shiftLeft, BitVec.toNat_ushiftRight, Nat.shiftLeft_eq,
    Nat.shiftRight_eq_div_pow, Nat.mod_eq_of_lt small, Nat.mul_comm]

/-- A word is determined by its residue. -/
theorem toInt_eq_of_residue {word : Int64} {value : Int} (lower : -2 ^ 63 ≤ value)
    (upper : value < 2 ^ 63) (residue : (word.toUInt64.toNat : Int) = value % 2 ^ 64) :
    word.toInt = value := by
  have wordLower := word.le_toInt
  have wordUpper := word.toInt_lt
  rw [toNat_toUInt64] at residue
  omega

/-- On signed words the rounding is towards minus infinity. -/
theorem toInt_and_highMask {value rounded : Int64} {low : Nat} (bound : low ≤ 63)
    (masked : rounded.toBitVec = value.toBitVec &&& (BitVec.allOnes 64 <<< low)) :
    rounded.toInt = 2 ^ low * (value.toInt / 2 ^ low) := by
  have unit : (0 : Int) < 2 ^ low := by positivity
  have half : (2 : Int) ^ 63 = 2 ^ (63 - low) * 2 ^ low := by
    rw [← pow_add, Nat.sub_add_cancel bound]
  have unsigned : (rounded.toUInt64.toNat : Int) = 2 ^ low * ((value.toInt % 2 ^ 64) / 2 ^ low) := by
    rw [← toNat_toUInt64]
    exact_mod_cast (congrArg BitVec.toNat masked).trans (toNat_and_highMask value.toBitVec low)
  apply toInt_eq_of_residue
  · have above : -2 ^ (63 - low) ≤ value.toInt / 2 ^ low := by
      rw [Int.le_ediv_iff_mul_le unit, Int.neg_mul, ← half]
      exact value.le_toInt
    calc -2 ^ 63 = 2 ^ low * -2 ^ (63 - low) := by rw [half]; ring
      _ ≤ 2 ^ low * (value.toInt / 2 ^ low) := mul_le_mul_of_nonneg_left above unit.le
  · exact Int.lt_of_le_of_lt (Int.mul_ediv_self_le unit.ne') value.toInt_lt
  · -- the unit divides the period of the words, so a residue is rounded alike
    have period : (2 : Int) ^ 64 = 2 ^ low * (2 ^ (63 - low) * 2) := by
      rw [← mul_assoc, mul_comm _ ((2 : Int) ^ (63 - low)), ← half]
      rfl
    rw [unsigned, period, Int.mul_emod_mul_of_pos _ _ unit, Int.emod_def, Int.emod_def, mul_assoc,
      Int.sub_mul_ediv_left _ _ unit.ne', Int.ediv_ediv_of_nonneg unit.le]

theorem toInt_and_not_fifteen (value : Int64) :
    (value &&& ~~~(0xF : Int64)).toInt = 16 * (value.toInt / 16) :=
  toInt_and_highMask (show 4 ≤ 63 by decide) rfl

/-- Shifting a signed word to the right divides it, rounding down. -/
theorem toInt_shiftRight (value count : Int64) (places : Nat)
    (counted : (count.toBitVec.smod 64).toNat = places) :
    (value >>> count).toInt = value.toInt / 2 ^ places := by
  have shifted : (value >>> count).toBitVec = value.toBitVec.sshiftRight places := by
    rw [Int64.toBitVec_shiftRight, BitVec.sshiftRight_eq', counted]
  have divided := BitVec.toInt_sshiftRight (x := value.toBitVec) (n := places)
  rw [← shifted, Int.shiftRight_eq_div_pow] at divided
  exact divided

/-! ## Words joined from masked parts -/

theorem or_and_distrib (first second mask : UInt64) :
    (first ||| second) &&& mask = (first &&& mask) ||| (second &&& mask) := by
  rw [← UInt64.toBitVec_inj]
  exact BitVec.and_or_distrib_right

/-- Masking a word joined from two parts masks both parts. -/
theorem and_join (first second firstMask secondMask mask : UInt64) :
    ((first &&& firstMask) ||| (second &&& secondMask)) &&& mask =
      (first &&& (firstMask &&& mask)) ||| (second &&& (secondMask &&& mask)) := by
  rw [or_and_distrib, UInt64.and_assoc, UInt64.and_assoc]

/-- A word joined under a mask and its complement is another word exactly
when the two agree under each of them. -/
theorem join_eq_iff (mask first second joined : UInt64) :
    (first &&& mask) ||| (second &&& ~~~mask) = joined <->
      first &&& mask = joined &&& mask /\ second &&& ~~~mask = joined &&& ~~~mask := by
  simp only [← UInt64.toBitVec_inj, UInt64.toBitVec_and, UInt64.toBitVec_or, UInt64.toBitVec_not,
    BitVec.eq_of_getLsbD_eq_iff, BitVec.getLsbD_and, BitVec.getLsbD_or, BitVec.getLsbD_not]
  rw [← forall_and]
  apply forall_congr'
  intro index
  by_cases inside : index < 64
  · -- one bit of each of the four words decides the equivalence
    simp only [inside, forall_true_left, decide_true, Bool.true_and]
    cases first.toBitVec.getLsbD index <;> cases second.toBitVec.getLsbD index <;>
      cases joined.toBitVec.getLsbD index <;> cases mask.toBitVec.getLsbD index <;> simp
  · simp [inside]

end MachineWord
end KernelStudy
