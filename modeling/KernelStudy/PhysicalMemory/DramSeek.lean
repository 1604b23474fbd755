import KernelStudy.PhysicalMemory.DramDevice

namespace KernelStudy
namespace PhysicalMemory

open MachineWord

/-!
# Seeking in the `dram` device is exact

`my_llseek` forms its target in three ways.  A relative seek adds two signed
offsets, a seek from the end adds a signed offset to the unsigned
`dram_size`, and the range test compares the result once as a signed and once
as an unsigned number.  The exact target is an integer and does not wrap.

The two are connected by one fact: a sum that leaves the signed range wraps
to a negative number, which the range test rejects.  It cannot leave the range
at its lower end, since neither the position nor the size is negative.
-/

/-- The target of a seek as an exact integer; another `whence` has none. -/
def exactTarget (fPos offset : Int64) (whence : Int32) : Option Int :=
  if whence = 0 then some offset.toInt
  else if whence = 1 then some (fPos.toInt + offset.toInt)
  else if whence = 2 then some (dramSize.toNat + offset.toInt)
  else none

/-- The seek has an exact target, which lies on the device or at its end. -/
def SeeksOnDevice (fPos offset : Int64) (whence : Int32) (target : Int) : Prop :=
  exactTarget fPos offset whence = some target /\ 0 ≤ target /\ target ≤ dramSize.toNat

instance (fPos offset : Int64) (whence : Int32) (target : Int) :
    Decidable (SeeksOnDevice fPos offset whence target) :=
  inferInstanceAs (Decidable (_ /\ _))

/-! ## Wrapped sums are negative -/

theorem toInt_add_wrapped {left right : Int64} (nonneg : 0 ≤ left.toInt) :
    (left + right).toInt = left.toInt + right.toInt \/
      (2 ^ 63 ≤ left.toInt + right.toInt /\ (left + right).toInt < 0) := by
  have leftUpper := left.toInt_lt
  have rightLower := right.le_toInt
  have rightUpper := right.toInt_lt
  by_cases fits : left.toInt + right.toInt < 2 ^ 63
  · exact Or.inl (toInt_add_of_range (by omega) fits)
  · refine Or.inr ⟨by omega, ?_⟩
    rw [Int64.toInt_add, Int.bmod_def]
    split <;> omega

/-- The unsigned sum of `dram_size` and an offset, converted back. -/
theorem toInt_dramSize_add (offset : Int64) :
    (dramSize + offset.toUInt64).toInt64.toInt = dramSize.toNat + offset.toInt \/
      (2 ^ 63 ≤ dramSize.toNat + offset.toInt /\
        (dramSize + offset.toUInt64).toInt64.toInt < 0) := by
  have size : dramSize.toNat = 10190061560 := rfl
  have lower := offset.le_toInt
  have upper := offset.toInt_lt
  have unsigned := toNat_toUInt64 offset
  have sum : ((dramSize + offset.toUInt64).toNat : Int) =
      (dramSize.toNat + offset.toInt) % 2 ^ 64 := by
    rw [UInt64.toNat_add]
    omega
  rw [toInt_toInt64, sum, Int.bmod_def]
  split <;> omega

/-- The computed target is the exact one, or negative when that one is too
large for a file offset. -/
theorem toInt_seekTarget {fPos offset : Int64} {whence : Int32} {target : Int}
    (nonneg : 0 ≤ fPos.toInt) (wanted : exactTarget fPos offset whence = some target) :
    (seekTarget fPos offset whence).toInt = target \/
      (2 ^ 63 ≤ target /\ (seekTarget fPos offset whence).toInt < 0) := by
  unfold exactTarget at wanted
  unfold seekTarget
  by_cases set : whence = 0
  · rw [if_pos set] at wanted ⊢
    exact Or.inl (Option.some.inj wanted)
  rw [if_neg set] at wanted ⊢
  by_cases current : whence = 1
  · rw [if_pos current] at wanted ⊢
    rw [← Option.some.inj wanted]
    exact toInt_add_wrapped nonneg
  rw [if_neg current] at wanted ⊢
  by_cases atEnd : whence = 2
  · rw [if_pos atEnd] at wanted ⊢
    rw [← Option.some.inj wanted]
    exact toInt_dramSize_add offset
  · rw [if_neg atEnd] at wanted
    cases wanted

theorem seekTarget_without_target {fPos offset : Int64} {whence : Int32}
    (unknown : exactTarget fPos offset whence = none) : seekTarget fPos offset whence = -1 := by
  unfold exactTarget at unknown
  unfold seekTarget
  split_ifs at unknown ⊢
  rfl

/-! ## The range test -/

/-- The range test accepts exactly the computed targets on the device. -/
theorem myLlseek_accepts_iff (fPos offset : Int64) (whence : Int32) :
    (0 ≤ (seekTarget fPos offset whence).toInt /\
        (seekTarget fPos offset whence).toInt ≤ dramSize.toNat ->
      myLlseek fPos offset whence =
        ⟨seekTarget fPos offset whence, seekTarget fPos offset whence⟩) /\
    (¬ (0 ≤ (seekTarget fPos offset whence).toInt /\
        (seekTarget fPos offset whence).toInt ≤ dramSize.toNat) ->
      myLlseek fPos offset whence = ⟨-einval, fPos⟩) := by
  unfold myLlseek
  simp only
  generalize seekTarget fPos offset whence = newpos
  constructor
  · rintro ⟨nonneg, onDevice⟩
    have unsigned := toNat_toUInt64_of_nonneg nonneg
    apply if_neg
    rintro (negative | beyond)
    · rw [Int64.lt_iff_toInt_lt, Int64.toInt_zero] at negative
      omega
    · rw [gt_iff_lt, UInt64.lt_iff_toNat_lt] at beyond
      omega
  · intro outside
    apply if_pos
    by_cases negative : newpos.toInt < 0
    · left
      rw [Int64.lt_iff_toInt_lt, Int64.toInt_zero]
      exact negative
    · right
      have unsigned := toNat_toUInt64_of_nonneg (Int.not_lt.mp negative)
      rw [gt_iff_lt, UInt64.lt_iff_toNat_lt]
      omega

section Seek

variable {fPos offset : Int64} {whence : Int32} (nonneg : 0 ≤ fPos.toInt)

include nonneg

/-- A seek to a place on the device goes there. -/
theorem llseek_accepted {target : Int} (onDevice : SeeksOnDevice fPos offset whence target) :
    (myLlseek fPos offset whence).ret.toInt = target /\
      (myLlseek fPos offset whence).fPos.toInt = target := by
  have size : dramSize.toNat = 10190061560 := rfl
  rcases onDevice with ⟨wanted, lower, upper⟩
  have computed : (seekTarget fPos offset whence).toInt = target := by
    rcases toInt_seekTarget nonneg wanted with same | ⟨tooLarge, _⟩
    · exact same
    · omega
  rw [(myLlseek_accepts_iff fPos offset whence).1 (by omega)]
  exact ⟨computed, computed⟩

/-- Every other seek fails and leaves the position alone. -/
theorem llseek_rejected (nowhere : ¬ Exists fun target => SeeksOnDevice fPos offset whence target) :
    myLlseek fPos offset whence = ⟨-einval, fPos⟩ := by
  apply (myLlseek_accepts_iff fPos offset whence).2
  rintro ⟨lower, upper⟩
  cases wanted : exactTarget fPos offset whence with
  | none =>
      rw [seekTarget_without_target wanted] at lower
      exact absurd lower (by decide)
  | some target =>
      rcases toInt_seekTarget nonneg wanted with same | ⟨_, negative⟩
      · exact nowhere ⟨target, wanted, by omega, by omega⟩
      · omega

end Seek

/-- From every position that is not negative, a seek succeeds exactly when its
exact target lies on the device.  It then sets and returns that target;
otherwise it fails with `-EINVAL` and leaves the position alone. -/
theorem llseek_exact (fPos offset : Int64) (whence : Int32) (nonneg : 0 ≤ fPos.toInt) :
    ((myLlseek fPos offset whence).ret ≠ -einval <->
      Exists fun target => SeeksOnDevice fPos offset whence target) /\
    (forall target, SeeksOnDevice fPos offset whence target ->
      (myLlseek fPos offset whence).ret.toInt = target /\
        (myLlseek fPos offset whence).fPos.toInt = target) /\
    ((¬ Exists fun target => SeeksOnDevice fPos offset whence target) ->
      myLlseek fPos offset whence = ⟨-einval, fPos⟩) := by
  refine ⟨⟨?_, ?_⟩, fun target => llseek_accepted nonneg, llseek_rejected nonneg⟩
  · intro succeeds
    by_contra nowhere
    exact succeeds (congrArg SeekOutcome.ret (llseek_rejected nonneg nowhere))
  · rintro ⟨target, onDevice⟩ failed
    have returned := (llseek_accepted nonneg onDevice).1
    rw [failed] at returned
    have negative : (-einval).toInt = -22 := rfl
    have lower := onDevice.2.1
    omega

/-- A seek to the end of the device, and one past it by the largest offset. -/
theorem llseek_exact_at_end :
    (myLlseek 0 0 2).ret.toInt = dramSize.toNat /\
      myLlseek 0 0x7FFFFFFFFFFFFFFF 2 = ⟨-einval, 0⟩ := by
  refine ⟨((llseek_exact 0 0 2 (by decide)).2.1 dramSize.toNat (by decide)).1, ?_⟩
  apply (llseek_exact 0 0x7FFFFFFFFFFFFFFF 2 (by decide)).2.2
  rintro ⟨target, wanted, _, upper⟩
  have same : (dramSize.toNat + (0x7FFFFFFFFFFFFFFF : Int64).toInt : Int) = target :=
    Option.some.inj wanted
  rw [← same] at upper
  exact absurd upper (by decide)

end PhysicalMemory
end KernelStudy
