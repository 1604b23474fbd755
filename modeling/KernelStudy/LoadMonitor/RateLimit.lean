import KernelStudy.Foundations.MachineWord

namespace KernelStudy
namespace LoadMonitor

open MachineWord

/-!
# The rate limit of the load monitor

A timer calls `check_load` every ten milliseconds.  When the load is high it
dumps the stacks of all tasks, unless the previous dump was less than three
seconds ago.  The time of that dump is a static variable that starts as zero.
It is set from a second reading of the clock, after the test has used a first
one.

A tick carries the load average and the two readings.  A call that returns
before it reads the clock has no use for them.  The run keeps the ticks at
which a dump was made, so that what the static variable stands for can be
stated.
-/

/-! ## One tick -/

structure Tick where
  avenrun : UInt64
  first : Int64
  second : Int64

/-- `LOAD_INT`, with eleven bits of precision. -/
def loadInt (load : UInt64) : UInt64 :=
  load >>> 11

theorem toNat_loadInt (load : UInt64) : (loadInt load).toNat = load.toNat / 2048 := by
  rw [loadInt, UInt64.toNat_shiftRight]
  exact Nat.shiftRight_eq_div_pow _ 11

/-- The load `1.00` in fixed point. -/
theorem one_le_loadInt (load : UInt64) : 1 ≤ (loadInt load).toNat <-> 2048 ≤ load.toNat := by
  rw [toNat_loadInt]
  omega

/-- `ktime_to_ms`: nanoseconds to milliseconds, truncated. -/
def ktimeToMs (time : Int64) : Int64 :=
  time / 1000000

/-- Whether `check_load` dumps the tasks, and the value of `last` afterwards. -/
def checkLoad (last : Int64) (tick : Tick) : Bool × Int64 :=
  let load : Int32 := (loadInt tick.avenrun).toUInt32.toInt32
  if load < 1 then (false, last)
  else
    let ms : UInt64 := (ktimeToMs (tick.first - last)).toUInt64
    if ms < 3 * 1000 then (false, last) else (true, tick.second)

/-! ## Runs -/

/-- The static variable, and the ticks at which the tasks were dumped. -/
structure Monitor where
  last : Int64
  dumped : List Tick

def Monitor.initial : Monitor := ⟨0, []⟩

def Monitor.Dumps (monitor : Monitor) (tick : Tick) : Prop :=
  (checkLoad monitor.last tick).1 = true

instance (monitor : Monitor) (tick : Tick) : Decidable (monitor.Dumps tick) :=
  inferInstanceAs (Decidable (_ = _))

/-- `monitor_handler`; the timer is always restarted. -/
def monitorHandler (monitor : Monitor) (tick : Tick) : Monitor :=
  { last := (checkLoad monitor.last tick).2
    dumped := if (checkLoad monitor.last tick).1 then monitor.dumped ++ [tick] else monitor.dumped }

def after (ticks : List Tick) : Monitor :=
  ticks.foldl monitorHandler .initial

/-- The clock at the previous dump, zero before the first one. -/
def recorded (dumped : List Tick) : Int :=
  (dumped.getLast?.map fun tick => tick.second.toInt).getD 0

/-- The readings in the order in which the clock is read. -/
def readings (ticks : List Tick) : List Int :=
  ticks.flatMap fun tick => [tick.first.toInt, tick.second.toInt]

/-- The clock is not negative and does not go back. -/
structure Ordered (ticks : List Tick) : Prop where
  nonneg : forall reading, reading ∈ readings ticks -> 0 ≤ reading
  monotone : (readings ticks).Pairwise (fun earlier later => earlier ≤ later)

/-- The integer part of the load fits an `int`. -/
def LoadsFit (ticks : List Tick) : Prop :=
  forall tick, tick ∈ ticks -> (loadInt tick.avenrun).toNat < 2 ^ 31

/-! ## The test -/

/-- The test compares exact times, as long as the clock has not gone back. -/
theorem checkLoad_cases {last : Int64} {tick : Tick} (start : 0 ≤ last.toInt)
    (later : last.toInt ≤ tick.first.toInt) (fits : (loadInt tick.avenrun).toNat < 2 ^ 31) :
    (1 ≤ (loadInt tick.avenrun).toNat /\ 3000 ≤ (tick.first.toInt - last.toInt) / 1000000 /\
        checkLoad last tick = (true, tick.second)) \/
      (¬ (1 ≤ (loadInt tick.avenrun).toNat /\ 3000 ≤ (tick.first.toInt - last.toInt) / 1000000) /\
        checkLoad last tick = (false, last)) := by
  have upper := tick.first.toInt_lt
  have literal : (1 : Int32).toInt = 1 := rfl
  have load := toInt_narrow_of_lt fits
  have unit : (1000000 : Int64).toInt = 1000000 := rfl
  have difference : (tick.first - last).toInt = tick.first.toInt - last.toInt :=
    toInt_sub_of_range (by omega) (by omega)
  have milliseconds : (ktimeToMs (tick.first - last)).toInt =
      (tick.first.toInt - last.toInt) / 1000000 := by
    rw [ktimeToMs, Int64.toInt_div_of_ne_right _ _ (by decide), unit, difference,
      Int.tdiv_eq_ediv_of_nonneg (by omega)]
  have unsigned := toNat_toUInt64_of_nonneg
    (show 0 ≤ (ktimeToMs (tick.first - last)).toInt by omega)
  have bound : (3 * 1000 : UInt64).toNat = 3000 := rfl
  by_cases low : (loadInt tick.avenrun).toUInt32.toInt32 < 1
  · right
    have lowInt := Int32.lt_iff_toInt_lt.mp low
    refine ⟨by omega, ?_⟩
    rw [checkLoad, if_pos low]
  · have highInt := mt Int32.lt_iff_toInt_lt.mpr low
    by_cases soon : (ktimeToMs (tick.first - last)).toUInt64 < 3 * 1000
    · right
      have soonNat := UInt64.lt_iff_toNat_lt.mp soon
      refine ⟨by omega, ?_⟩
      simp only [checkLoad, if_neg low, if_pos soon]
    · left
      have dueNat := mt UInt64.lt_iff_toNat_lt.mpr soon
      refine ⟨by omega, by omega, ?_⟩
      simp only [checkLoad, if_neg low, if_neg soon]

/-! ## Readings of a run -/

theorem readings_append (earlier later : List Tick) :
    readings (earlier ++ later) = readings earlier ++ readings later :=
  List.flatMap_append

theorem readings_cons (tick : Tick) (later : List Tick) :
    readings (tick :: later) = tick.first.toInt :: tick.second.toInt :: readings later :=
  List.flatMap_cons

theorem Ordered.earlier {earlier later : List Tick} (ordered : Ordered (earlier ++ later)) :
    Ordered earlier := by
  have nonneg := ordered.nonneg
  have monotone := ordered.monotone
  rw [readings_append] at nonneg monotone
  exact ⟨fun reading member => nonneg reading (List.mem_append_left _ member),
    (List.pairwise_append.mp monotone).1⟩

/-- A tick reads the clock twice, and not before any earlier reading. -/
theorem Ordered.tick {earlier later : List Tick} {tick : Tick}
    (ordered : Ordered (earlier ++ tick :: later)) :
    0 ≤ tick.first.toInt /\ tick.first.toInt ≤ tick.second.toInt /\
      forall reading, reading ∈ readings earlier -> reading ≤ tick.first.toInt := by
  have nonneg := ordered.nonneg
  have monotone := ordered.monotone
  rw [readings_append, readings_cons] at nonneg monotone
  rcases List.pairwise_append.mp monotone with ⟨_before, here, across⟩
  refine ⟨nonneg _ (List.mem_append_right _ List.mem_cons_self), ?_, ?_⟩
  · exact (List.pairwise_cons.mp here).1 _ List.mem_cons_self
  · intro reading member
    exact across reading member _ List.mem_cons_self

/-! ## The invariant -/

/-- Two dumps are three seconds apart. -/
def Spaced (earlier later : Tick) : Prop :=
  earlier.second.toInt + 3000000000 ≤ later.first.toInt

/-- What the monitor knows after some ticks.  Its variable is a reading that
has been made, the last one of a dump. -/
structure Limited (ticks : List Tick) (monitor : Monitor) : Prop where
  last_eq : monitor.last.toInt = recorded monitor.dumped
  nonneg : 0 ≤ monitor.last.toInt
  read : monitor.last.toInt = 0 \/ monitor.last.toInt ∈ readings ticks
  latest : forall tick, tick ∈ monitor.dumped -> tick.second.toInt ≤ monitor.last.toInt
  spaced : monitor.dumped.Pairwise Spaced

theorem limited_initial : Limited [] .initial :=
  ⟨rfl, Int.le_refl 0, Or.inl rfl, List.forall_mem_nil _, List.Pairwise.nil⟩

/-- The recorded time is not after the readings that follow. -/
theorem Limited.last_le {earlier later : List Tick} {tick : Tick} {monitor : Monitor}
    (limited : Limited earlier monitor) (ordered : Ordered (earlier ++ tick :: later)) :
    monitor.last.toInt ≤ tick.first.toInt := by
  rcases ordered.tick with ⟨nonneg, _ordered, before⟩
  rcases limited.read with zero | reading
  · omega
  · exact before _ reading

/-- The decision at a tick, and what it does to the monitor. -/
theorem Limited.decision {earlier later : List Tick} {tick : Tick} {monitor : Monitor}
    (limited : Limited earlier monitor) (ordered : Ordered (earlier ++ tick :: later))
    (fits : (loadInt tick.avenrun).toNat < 2 ^ 31) :
    (1 ≤ (loadInt tick.avenrun).toNat /\ 3000 ≤ (tick.first.toInt - recorded monitor.dumped) / 1000000 /\
        monitor.Dumps tick /\ monitorHandler monitor tick = ⟨tick.second, monitor.dumped ++ [tick]⟩) \/
      (¬ (1 ≤ (loadInt tick.avenrun).toNat /\
          3000 ≤ (tick.first.toInt - recorded monitor.dumped) / 1000000) /\
        ¬ monitor.Dumps tick /\ monitorHandler monitor tick = monitor) := by
  rw [← limited.last_eq]
  rcases checkLoad_cases limited.nonneg (limited.last_le ordered) fits with
    ⟨high, due, result⟩ | ⟨notDue, result⟩
  · left
    refine ⟨high, due, ?_, ?_⟩
    · rw [Monitor.Dumps, result]
    · rw [monitorHandler, result]
      rfl
  · right
    refine ⟨notDue, ?_, ?_⟩
    · rw [Monitor.Dumps, result]
      exact Bool.false_ne_true
    · rw [monitorHandler, result]
      rfl

theorem recorded_concat (dumped : List Tick) (tick : Tick) :
    recorded (dumped ++ [tick]) = tick.second.toInt := by
  rw [recorded, List.getLast?_concat]
  rfl

/-- One tick. -/
theorem Limited.step {earlier : List Tick} {tick : Tick} {monitor : Monitor}
    (limited : Limited earlier monitor) (ordered : Ordered (earlier ++ [tick]))
    (fits : (loadInt tick.avenrun).toNat < 2 ^ 31) :
    Limited (earlier ++ [tick]) (monitorHandler monitor tick) := by
  have before := limited.last_le ordered
  rcases ordered.tick with ⟨nonneg, twice, _before⟩
  have mine : tick.second.toInt ∈ readings (earlier ++ [tick]) := by
    rw [readings_append, readings_cons]
    exact List.mem_append_right _ (List.mem_cons_of_mem _ List.mem_cons_self)
  rcases limited.decision ordered fits with ⟨_high, due, _dumps, next⟩ | ⟨_notDue, _keeps, next⟩
  · rw [next]
    rw [← limited.last_eq] at due
    refine ⟨(recorded_concat _ _).symm, Int.le_trans nonneg twice, Or.inr mine, ?_, ?_⟩
    · intro other member
      rcases List.mem_append.mp member with older | newest
      · have old := limited.latest other older
        exact Int.le_trans old (Int.le_trans before twice)
      · rw [List.mem_singleton.mp newest]
    · apply List.pairwise_append.mpr
      refine ⟨limited.spaced, List.pairwise_singleton _ _, ?_⟩
      intro other older newest isTick
      have old := limited.latest other older
      rw [List.mem_singleton.mp isTick, Spaced]
      omega
  · rw [next]
    refine ⟨limited.last_eq, limited.nonneg, ?_, limited.latest, limited.spaced⟩
    rcases limited.read with zero | reading
    · exact Or.inl zero
    · rw [readings_append]
      exact Or.inr (List.mem_append_left _ reading)

theorem after_concat (ticks : List Tick) (tick : Tick) :
    after (ticks ++ [tick]) = monitorHandler (after ticks) tick := by
  rw [after, List.foldl_append]
  rfl

/-- The whole run. -/
theorem after_limited {ticks : List Tick} (ordered : Ordered ticks) (fits : LoadsFit ticks) :
    Limited ticks (after ticks) := by
  induction ticks using List.reverseRecOn with
  | nil => exact limited_initial
  | append_singleton ticks tick inductionHypothesis =>
      have earlier := inductionHypothesis ordered.earlier
        (fun other member => fits other (List.mem_append_left _ member))
      rw [after_concat]
      exact earlier.step ordered (fits tick (List.mem_append_right _ List.mem_cons_self))

/-- The rate limit over every run.  A tick dumps exactly when the load is at
least one, which is 2048 in fixed point, and three seconds have passed since the
recorded dump; a tick that does not dump changes no later decision; a tick that
is due dumps; and two dumps are three seconds apart. -/
theorem rate_limited (ticks : List Tick) (ordered : Ordered ticks) (fits : LoadsFit ticks) :
    (forall earlier tick later, ticks = earlier ++ tick :: later ->
      ((after earlier).Dumps tick <-> 1 ≤ (loadInt tick.avenrun).toNat /\
        3000 ≤ (tick.first.toInt - recorded (after earlier).dumped) / 1000000) /\
      (1 ≤ (loadInt tick.avenrun).toNat <-> 2048 ≤ tick.avenrun.toNat) /\
      ((after earlier).Dumps tick -> (after (earlier ++ [tick])).dumped = (after earlier).dumped ++ [tick]) /\
      (¬ (after earlier).Dumps tick ->
        forall others, after (earlier ++ tick :: others) = after (earlier ++ others)) /\
      (1 ≤ (loadInt tick.avenrun).toNat ->
        recorded (after earlier).dumped + 3000000000 ≤ tick.first.toInt -> (after earlier).Dumps tick)) /\
    (after ticks).last.toInt = recorded (after ticks).dumped /\
    (after ticks).dumped.Pairwise Spaced := by
  have limited := after_limited ordered fits
  refine ⟨?_, limited.last_eq, limited.spaced⟩
  intro earlier tick later split
  subst ticks
  have before := after_limited ordered.earlier
    (fun other member => fits other (List.mem_append_left _ member))
  have fitsHere := fits tick (List.mem_append_right _ List.mem_cons_self)
  rcases before.decision ordered fitsHere with ⟨high, due, dumps, next⟩ | ⟨notDue, keeps, next⟩
  · refine ⟨iff_of_true dumps ⟨high, due⟩, one_le_loadInt _, ?_, fun keeps => absurd dumps keeps, fun _ _ => dumps⟩
    intro _dumps
    rw [after_concat, next]
  · refine ⟨iff_of_false keeps notDue, one_le_loadInt _, fun dumps => absurd dumps keeps, ?_, ?_⟩
    · intro _keeps others
      have same : after (earlier ++ [tick]) = after earlier := by rw [after_concat, next]
      have regrouped : after (earlier ++ tick :: others) =
          others.foldl monitorHandler (after (earlier ++ [tick])) := by
        rw [after, after, ← List.foldl_append, List.append_assoc, List.singleton_append]
      rw [regrouped, same, after, after, ← List.foldl_append]
    · intro high passed
      exact absurd ⟨high, by omega⟩ notDue

/-- Three ticks with a load of one.  The second one comes two seconds after the
first dump, the third one four seconds after it. -/
def threeTicks : List Tick :=
  [⟨2048, 3000000000, 3000000005⟩, ⟨2048, 5000000000, 5000000005⟩, ⟨2048, 7000000000, 7000000005⟩]

/-- The first and the third of them dump, and a tick four seconds later does so for
a load of one but not for one just below. -/
theorem rate_limited_threeTicks :
    (after threeTicks).dumped.length = 2 /\ (after threeTicks).dumped.Pairwise Spaced /\
      (after threeTicks).Dumps ⟨2048, 11000000000, 11000000005⟩ /\
      ¬ (after threeTicks).Dumps ⟨2047, 11000000000, 11000000005⟩ := by
  have due := rate_limited (threeTicks ++ [⟨2048, 11000000000, 11000000005⟩])
    ⟨by decide +kernel, by decide +kernel⟩ (by unfold LoadsFit; decide +kernel)
  have low := rate_limited (threeTicks ++ [⟨2047, 11000000000, 11000000005⟩])
    ⟨by decide +kernel, by decide +kernel⟩ (by unfold LoadsFit; decide +kernel)
  have limited := rate_limited threeTicks ⟨by decide +kernel, by decide +kernel⟩
    (by unfold LoadsFit; decide +kernel)
  refine ⟨by decide +kernel, limited.2.2, ?_, ?_⟩
  · have here := due.1 threeTicks _ [] rfl
    exact here.2.2.2.2 (here.2.1.mpr (by decide)) (by decide +kernel)
  · have here := low.1 threeTicks _ [] rfl
    intro dumps
    exact absurd (here.2.1.mp (here.1.mp dumps).1) (by decide)

end LoadMonitor
end KernelStudy
