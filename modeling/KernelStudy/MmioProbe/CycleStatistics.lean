import Mathlib

namespace KernelStudy
namespace MmioProbe

/-!
# The latency statistics of the write loop

`ana_mem_init` times a fixed number of register writes with the cycle counter
and keeps the largest and the smallest difference and the sum of all of them.
The three accumulators are 64-bit words.  The maximum starts from zero, which
no difference is below, but the minimum starts from a fixed bound, and the sum
wraps.

A sample is the pair of readings around one write.
-/

def tryTimes : UInt64 := 10000

/-- The accumulators of the measuring loop. -/
structure Statistics where
  cycleMax : UInt64
  cycleMin : UInt64
  aveCycle : UInt64

def Statistics.initial : Statistics := ⟨0, 8000000, 0⟩

/-- `tsc2 - tsc1`, for the reading before and the one after a write. -/
def curCycle (sample : UInt64 × UInt64) : UInt64 :=
  sample.2 - sample.1

/-- One pass of the loop. -/
def measure (statistics : Statistics) (sample : UInt64 × UInt64) : Statistics :=
  let cur := curCycle sample
  { cycleMax := if statistics.cycleMax > cur then statistics.cycleMax else cur
    cycleMin := if statistics.cycleMin < cur then statistics.cycleMin else cur
    aveCycle := statistics.aveCycle + cur }

def measureAll (samples : List (UInt64 × UInt64)) : Statistics :=
  samples.foldl measure .initial

/-- The average that is printed. -/
def Statistics.average (statistics : Statistics) : UInt64 :=
  statistics.aveCycle / tryTimes

/-! ## What the statistics should say -/

/-- The differences as natural numbers. -/
def cycles (samples : List (UInt64 × UInt64)) : List Nat :=
  samples.map fun sample => (curCycle sample).toNat

/-- The printed numbers are those of the samples. -/
structure Sound (samples : List (UInt64 × UInt64)) (statistics : Statistics) : Prop where
  largest : statistics.cycleMax.toNat ∈ cycles samples /\
    forall cycle, cycle ∈ cycles samples -> cycle ≤ statistics.cycleMax.toNat
  smallest : statistics.cycleMin.toNat ∈ cycles samples /\
    forall cycle, cycle ∈ cycles samples -> statistics.cycleMin.toNat ≤ cycle
  between : statistics.cycleMin ≤ statistics.average /\ statistics.average ≤ statistics.cycleMax
  mean : statistics.average.toNat = (cycles samples).sum / samples.length

/-! ## The loop -/

/-- What the accumulators say about the samples so far. -/
structure Measured (samples : List (UInt64 × UInt64)) (statistics : Statistics) : Prop where
  above : forall cycle, cycle ∈ cycles samples -> cycle ≤ statistics.cycleMax.toNat
  reached : statistics.cycleMax.toNat = 0 \/ statistics.cycleMax.toNat ∈ cycles samples
  below : forall cycle, cycle ∈ cycles samples -> statistics.cycleMin.toNat ≤ cycle
  attained : statistics.cycleMin.toNat = 8000000 \/ statistics.cycleMin.toNat ∈ cycles samples
  bounded : statistics.cycleMin.toNat ≤ 8000000
  total : statistics.aveCycle.toNat = (cycles samples).sum % 2 ^ 64

theorem measured_initial : Measured [] .initial :=
  ⟨List.forall_mem_nil _, Or.inl rfl, List.forall_mem_nil _, Or.inl rfl, Nat.le_refl _, rfl⟩

theorem cycles_concat (samples : List (UInt64 × UInt64)) (sample : UInt64 × UInt64) :
    cycles (samples ++ [sample]) = cycles samples ++ [(curCycle sample).toNat] := by
  rw [cycles, List.map_append, List.map_singleton, cycles]

theorem toNat_larger (left right : UInt64) :
    (if left > right then left else right).toNat = max left.toNat right.toNat := by
  split
  · rename_i greater
    have order := UInt64.lt_iff_toNat_lt.mp greater
    omega
  · rename_i notGreater
    have order := mt UInt64.lt_iff_toNat_lt.mpr notGreater
    omega

theorem toNat_smaller (left right : UInt64) :
    (if left < right then left else right).toNat = min left.toNat right.toNat := by
  split
  · rename_i less
    have order := UInt64.lt_iff_toNat_lt.mp less
    omega
  · rename_i notLess
    have order := mt UInt64.lt_iff_toNat_lt.mpr notLess
    omega

/-- One more sample. -/
theorem Measured.step {samples : List (UInt64 × UInt64)} {statistics : Statistics}
    (measured : Measured samples statistics) (sample : UInt64 × UInt64) :
    Measured (samples ++ [sample]) (measure statistics sample) := by
  have larger : (measure statistics sample).cycleMax.toNat =
      max statistics.cycleMax.toNat (curCycle sample).toNat := toNat_larger _ _
  have smaller : (measure statistics sample).cycleMin.toNat =
      min statistics.cycleMin.toNat (curCycle sample).toNat := toNat_smaller _ _
  have earlierOrLast : forall cycle, cycle ∈ cycles (samples ++ [sample]) <->
      cycle ∈ cycles samples \/ cycle = (curCycle sample).toNat := by
    intro cycle
    rw [cycles_concat, List.mem_append, List.mem_singleton]
  refine ⟨?_, ?_, ?_, ?_, ?_, ?_⟩
  · intro cycle member
    rw [larger]
    rcases (earlierOrLast cycle).mp member with earlier | last
    · have old := measured.above cycle earlier
      omega
    · omega
  · rw [larger, earlierOrLast]
    rcases Nat.le_total statistics.cycleMax.toNat (curCycle sample).toNat with newer | older
    · rw [Nat.max_eq_right newer]
      exact Or.inr (Or.inr rfl)
    · rw [Nat.max_eq_left older]
      rcases measured.reached with zero | earlier
      · exact Or.inl zero
      · exact Or.inr (Or.inl earlier)
  · intro cycle member
    rw [smaller]
    rcases (earlierOrLast cycle).mp member with earlier | last
    · have old := measured.below cycle earlier
      omega
    · omega
  · rw [smaller, earlierOrLast]
    rcases Nat.le_total statistics.cycleMin.toNat (curCycle sample).toNat with older | newer
    · rw [Nat.min_eq_left older]
      rcases measured.attained with bound | earlier
      · exact Or.inl bound
      · exact Or.inr (Or.inl earlier)
    · rw [Nat.min_eq_right newer]
      exact Or.inr (Or.inr rfl)
  · have old := measured.bounded
    omega
  · have sum : (measure statistics sample).aveCycle.toNat =
        (statistics.aveCycle.toNat + (curCycle sample).toNat) % 2 ^ 64 := UInt64.toNat_add _ _
    rw [sum, measured.total, cycles_concat, List.sum_append, List.sum_singleton, Nat.mod_add_mod]

theorem measureAll_measured (samples : List (UInt64 × UInt64)) : Measured samples (measureAll samples) := by
  induction samples using List.reverseRecOn with
  | nil => exact measured_initial
  | append_singleton samples sample inductionHypothesis =>
      have last : measureAll (samples ++ [sample]) = measure (measureAll samples) sample := by
        rw [measureAll, List.foldl_append]
        rfl
      rw [last]
      exact inductionHypothesis.step sample

/-! ## When the statistics are sound -/

/-- The minimum is below its starting value, and the sum does not wrap. -/
structure Regular (samples : List (UInt64 × UInt64)) : Prop where
  some_short : Exists fun cycle => cycle ∈ cycles samples /\ cycle ≤ 8000000
  total_fits : (cycles samples).sum < 2 ^ 64

theorem toNat_average (statistics : Statistics) :
    statistics.average.toNat = statistics.aveCycle.toNat / 10000 :=
  UInt64.toNat_div _ _

/-- The statistics of every measurement are sound exactly when one of its
differences is at most the starting value of the minimum, and the exact sum of
all differences fits the accumulator. -/
theorem statistics_sound_iff (samples : List (UInt64 × UInt64)) (length : samples.length = 10000) :
    Sound samples (measureAll samples) <-> Regular samples := by
  have measured := measureAll_measured samples
  have average := toNat_average (measureAll samples)
  have total := measured.total
  constructor
  · intro sound
    refine ⟨⟨_, sound.smallest.1, measured.bounded⟩, ?_⟩
    have mean := sound.mean
    rw [length] at mean
    by_contra wraps
    -- a wrapped sum is smaller by more than a whole unit of the average
    omega
  · intro regular
    rcases regular.some_short with ⟨cycle, member, short⟩
    have fits := regular.total_fits
    have count : (cycles samples).length = 10000 := by rw [cycles, List.length_map, length]
    have least : 10000 * (measureAll samples).cycleMin.toNat ≤ (cycles samples).sum := by
      rw [← count]
      exact List.card_nsmul_le_sum _ _ measured.below
    have most : (cycles samples).sum ≤ 10000 * (measureAll samples).cycleMax.toNat := by
      rw [← count]
      exact List.sum_le_card_nsmul _ _ measured.above
    refine ⟨⟨?_, measured.above⟩, ⟨?_, measured.below⟩, ?_, ?_⟩
    · rcases measured.reached with zero | reached
      · have above := measured.above cycle member
        rw [zero, ← Nat.le_zero.mp (zero ▸ above)]
        exact member
      · exact reached
    · rcases measured.attained with bound | attained
      · have below := measured.below cycle member
        rw [bound, show 8000000 = cycle by omega]
        exact member
      · exact attained
    · rw [UInt64.le_iff_toNat_le, UInt64.le_iff_toNat_le]
      omega
    · rw [length]
      omega

theorem cycles_replicate (count : Nat) (sample : UInt64 × UInt64) :
    cycles (List.replicate count sample) = List.replicate count (curCycle sample).toNat :=
  List.map_replicate

/-- One fast write, one slow one, and a steady stream between them. -/
def unevenSamples : List (UInt64 × UInt64) :=
  (0, 100) :: List.replicate 9998 (50, 250) ++ [(7, 307)]

theorem cycles_unevenSamples : cycles unevenSamples = 100 :: List.replicate 9998 200 ++ [300] := by
  have fast : (curCycle (0, 100)).toNat = 100 := by decide
  have steady : (curCycle (50, 250)).toNat = 200 := by decide
  have slow : (curCycle (7, 307)).toNat = 300 := by decide
  rw [unevenSamples, cycles_concat, slow, cycles, List.map_cons, List.map_replicate, fast, steady]

/-- The printed numbers of these samples. -/
theorem statistics_sound_uneven :
    unevenSamples.length = 10000 /\ Sound unevenSamples (measureAll unevenSamples) /\
      (measureAll unevenSamples).cycleMin.toNat = 100 /\
      (measureAll unevenSamples).cycleMax.toNat = 300 /\
      (measureAll unevenSamples).average.toNat = 200 := by
  have length : unevenSamples.length = 10000 := by
    rw [unevenSamples, List.length_append, List.length_cons, List.length_replicate]
    rfl
  have member : forall cycle, cycle ∈ cycles unevenSamples <-> cycle = 100 \/ cycle = 200 \/ cycle = 300 := by
    intro cycle
    rw [cycles_unevenSamples, List.mem_append, List.mem_cons, List.mem_replicate, List.mem_singleton]
    omega
  have total : (cycles unevenSamples).sum = 2000000 := by
    rw [cycles_unevenSamples, List.sum_append, List.sum_cons, List.sum_replicate, List.sum_singleton]
    rfl
  have sound := (statistics_sound_iff unevenSamples length).mpr
    ⟨⟨100, (member 100).mpr (Or.inl rfl), by decide⟩, by rw [total]; decide⟩
  have least := sound.smallest.2 100 ((member 100).mpr (Or.inl rfl))
  have most := sound.largest.2 300 ((member 300).mpr (Or.inr (Or.inr rfl)))
  have mean := sound.mean
  rw [total, length] at mean
  refine ⟨length, sound, ?_, ?_, mean⟩
  · have known := (member _).mp sound.smallest.1
    omega
  · have known := (member _).mp sound.largest.1
    omega

/-- When every write takes 8000001 cycles, the printed minimum is the value that
it started from. -/
theorem minimum_is_sentinel :
    (List.replicate 10000 ((0, 8000001) : UInt64 × UInt64)).length = 10000 /\
      ¬ Sound (List.replicate 10000 (0, 8000001)) (measureAll (List.replicate 10000 (0, 8000001))) := by
  have value : (curCycle (0, 8000001)).toNat = 8000001 := by decide
  refine ⟨List.length_replicate, fun sound => ?_⟩
  have bounded := (measureAll_measured (List.replicate 10000 (0, 8000001))).bounded
  have smallest := sound.smallest.1
  rw [cycles_replicate, value, List.mem_replicate] at smallest
  omega

end MmioProbe
end KernelStudy
