import KernelStudy.Foundations.Numeral
import KernelStudy.LoadMonitor.RateLimit

namespace KernelStudy
namespace LoadMonitor

open Numeral

/-!
# The loads in the log

A dump begins with the three load averages.  They are fixed-point numbers with
eleven binary places, and the line prints each of them with two decimal places,
from its integer part and its scaled and shifted remainder.  The line is read back
here, and from there the whole log of the monitor: it has one such line for each
tick that dumps, whatever else is printed between them.
-/

/-! ## The line -/

/-- `LOAD_FRAC`. -/
def loadFrac (load : UInt64) : UInt64 :=
  loadInt ((load &&& 2047) * 100)

def bytes (text : String) : List UInt8 :=
  text.toList.map charByte

/-- `%lu.%02lu`. -/
def loadText (load : UInt64) : List UInt8 :=
  decimal (loadInt load).toNat ++ bytes "." ++ paddedDecimal 2 (loadFrac load).toNat

/-- The averages over one, five and fifteen minutes. -/
structure Loads where
  one : UInt64
  five : UInt64
  fifteen : UInt64

def loadLine (loads : Loads) : List UInt8 :=
  bytes "\tLoad: " ++ loadText loads.one ++ bytes ", " ++ loadText loads.five ++ bytes ", " ++
    loadText loads.fifteen ++ bytes "\n"

/-! ## Reading it -/

/-- A fixed text, and what follows it. -/
def expect (mark text : List UInt8) : Option (List UInt8) :=
  if text.take mark.length = mark then some (text.drop mark.length) else none

/-- A number with two decimal places, in hundredths. -/
def readLoad (text : List UInt8) : Option (Nat × List UInt8) :=
  let whole := scanDecimal text
  (expect (bytes ".") whole.2).map fun rest =>
    let places := scanDecimal rest
    (100 * whole.1 + places.1, places.2)

def readLoadLine (text : List UInt8) : Option (List Nat) := do
  let text ← expect (bytes "\tLoad: ") text
  let (one, text) ← readLoad text
  let text ← expect (bytes ", ") text
  let (five, text) ← readLoad text
  let text ← expect (bytes ", ") text
  let (fifteen, text) ← readLoad text
  let _ ← expect (bytes "\n") text
  return [one, five, fifteen]

/-- The value of a load in hundredths, rounded down. -/
def hundredths (load : UInt64) : Nat :=
  load.toNat * 100 / 2048

def Loads.hundredths (loads : Loads) : List Nat :=
  [LoadMonitor.hundredths loads.one, LoadMonitor.hundredths loads.five, LoadMonitor.hundredths loads.fifteen]

theorem expect_append (mark rest : List UInt8) : expect mark (mark ++ rest) = some rest := by
  rw [expect, List.take_left, if_pos rfl, List.drop_left]

/-- The product does not overflow. -/
theorem toNat_loadFrac (load : UInt64) : (loadFrac load).toNat = load.toNat % 2048 * 100 / 2048 := by
  have remainder : (load &&& 2047).toNat = load.toNat % 2048 := by
    rw [UInt64.toNat_and]
    exact Nat.and_two_pow_sub_one_eq_mod load.toNat 11
  have product : ((load &&& 2047) * 100).toNat = load.toNat % 2048 * 100 := by
    have factor : (100 : UInt64).toNat = 100 := rfl
    rw [UInt64.toNat_mul, remainder, factor]
    omega
  rw [loadFrac, toNat_loadInt, product]

/-- The two printed parts make up the value. -/
theorem parts_hundredths (load : UInt64) :
    100 * (loadInt load).toNat + (loadFrac load).toNat = hundredths load := by
  rw [toNat_loadInt, toNat_loadFrac, hundredths]
  omega

/-- A printed load is read up to the mark behind it. -/
theorem readLoad_loadText (load : UInt64) {rest : List UInt8}
    (stops : forall ch, rest.head? = some ch -> isDigit ch = false) :
    readLoad (loadText load ++ rest) = some (hundredths load, rest) := by
  have point : forall ch, (bytes "." ++ (paddedDecimal 2 (loadFrac load).toNat ++ rest)).head? = some ch ->
      isDigit ch = false := by
    intro ch first
    cases first
    decide
  rw [readLoad, loadText, List.append_assoc, List.append_assoc, scanDecimal_append _ point]
  simp only [expect_append, Option.map_some, scanDecimal_padded 2 _ stops, parts_hundredths]

/-- The line gives back the three values to the hundredth. -/
theorem readLoadLine_loadLine (loads : Loads) : readLoadLine (loadLine loads) = some loads.hundredths := by
  have comma : forall rest : List UInt8, forall ch, (bytes ", " ++ rest).head? = some ch -> isDigit ch = false := by
    intro rest ch first
    cases first
    decide
  have newline : forall ch, (bytes "\n").head? = some ch -> isDigit ch = false := by
    intro ch first
    cases first
    decide
  have closes : expect (bytes "\n") (bytes "\n") = some [] := expect_append _ []
  rw [readLoadLine, loadLine]
  simp only [List.append_assoc, expect_append, Option.bind_eq_bind, Option.bind_some,
    readLoad_loadText loads.one (comma _), readLoad_loadText loads.five (comma _),
    readLoad_loadText loads.fifteen newline, closes, Loads.hundredths, Option.pure_def]

/-! ## The lines of a dump -/

/-- A line of a stack trace.  The kernel prints the symbols behind a blank. -/
def StackLine : Type :=
  { line : List UInt8 // line.head? = some (charByte ' ') }

/-- A task in the dump: what is printed of it, and its stack. -/
structure DumpedTask where
  comm : List UInt8
  pid : Nat
  stack : List StackLine

def taskLines (title : List UInt8) (task : DumpedTask) : List (List UInt8) :=
  (title ++ task.comm ++ bytes ", pid " ++ decimal task.pid ++ bytes "\n") :: task.stack.map Subtype.val

/-- A tick with what is printed if it dumps: the loads at that moment, and the tasks
of the two walks. -/
structure LoggedTick where
  tick : Tick
  loads : Loads
  running : List DumpedTask
  uninterrupted : List DumpedTask

/-- The lines of the two walks, with their titles. -/
def walkLines (logged : LoggedTick) : List (List UInt8) :=
  bytes "dump running task.\n" :: logged.running.flatMap (taskLines (bytes "running task, comm: ")) ++
    bytes "dump uninterrupted task.\n" ::
      logged.uninterrupted.flatMap (taskLines (bytes "uninterrupted task, comm: "))

/-- The lines of `print_all_task_stack`. -/
def dumpLines (logged : LoggedTick) : List (List UInt8) :=
  [bytes "!!!!!!!!!!!!!!!!!!!!!!!!!!!!!!!\n", loadLine logged.loads, bytes "dump all task: balabala\n"] ++
    walkLines logged

/-- Only the line of loads begins with a tab. -/
theorem readLoadLine_none {line : List UInt8} (other : line.head? ≠ some (charByte '\t')) :
    readLoadLine line = none := by
  have missing : expect (bytes "\tLoad: ") line = none := by
    apply if_neg
    intro same
    have first := congrArg List.head? same
    rw [List.head?_take, if_neg (by decide)] at first
    exact other first
  rw [readLoadLine, missing]
  rfl

theorem taskLines_plain {title : List UInt8} (plain : forall rest, (title ++ rest).head? ≠ some (charByte '\t'))
    {task : DumpedTask} {line : List UInt8} (member : line ∈ taskLines title task) :
    readLoadLine line = none := by
  apply readLoadLine_none
  rcases List.mem_cons.mp member with same | inside
  · rw [same, List.append_assoc, List.append_assoc, List.append_assoc]
    exact plain _
  · rcases List.mem_map.mp inside with ⟨traced, _, same⟩
    rw [← same, traced.property]
    decide

/-- Whatever the tasks are called, none of the lines of the walks reads as loads. -/
theorem walkLines_plain (logged : LoggedTick) {line : List UInt8} (member : line ∈ walkLines logged) :
    readLoadLine line = none := by
  have running : forall rest, (bytes "running task, comm: " ++ rest).head? ≠ some (charByte '\t') := by
    intro rest first
    cases first
  have uninterrupted : forall rest,
      (bytes "uninterrupted task, comm: " ++ rest).head? ≠ some (charByte '\t') := by
    intro rest first
    cases first
  rcases List.mem_append.mp member with first | second
  · rcases List.mem_cons.mp first with title | inside
    · rw [title]
      decide
    · rcases List.mem_flatMap.mp inside with ⟨task, _, printed⟩
      exact taskLines_plain running printed
  · rcases List.mem_cons.mp second with title | inside
    · rw [title]
      decide
    · rcases List.mem_flatMap.mp inside with ⟨task, _, printed⟩
      exact taskLines_plain uninterrupted printed

theorem dumpLines_reads (logged : LoggedTick) :
    (dumpLines logged).filterMap readLoadLine = [logged.loads.hundredths] := by
  have heading : readLoadLine (bytes "!!!!!!!!!!!!!!!!!!!!!!!!!!!!!!!\n") = none := by decide
  have closing : readLoadLine (bytes "dump all task: balabala\n") = none := by decide
  have nothing : (walkLines logged).filterMap readLoadLine = [] :=
    List.filterMap_eq_nil_iff.mpr fun _ member => walkLines_plain logged member
  rw [dumpLines, List.filterMap_append, nothing, List.append_nil, List.filterMap_cons_none heading,
    List.filterMap_cons_some (readLoadLine_loadLine logged.loads), List.filterMap_cons_none closing,
    List.filterMap_nil]

/-! ## The log of a run -/

/-- The monitor, its log, and the ticks at which it has dumped. -/
structure LoggedMonitor where
  monitor : Monitor
  log : List (List UInt8)
  dumped : List LoggedTick

def LoggedMonitor.initial : LoggedMonitor := ⟨.initial, [], []⟩

/-- `monitor_handler` with the lines that it prints. -/
def logHandler (state : LoggedMonitor) (logged : LoggedTick) : LoggedMonitor :=
  let dumps := (checkLoad state.monitor.last logged.tick).1
  { monitor := monitorHandler state.monitor logged.tick
    log := if dumps then state.log ++ dumpLines logged else state.log
    dumped := if dumps then state.dumped ++ [logged] else state.dumped }

def monitorLog (ticks : List LoggedTick) : LoggedMonitor :=
  ticks.foldl logHandler .initial

/-- What the log so far tells, for the ticks handled so far. -/
structure Readable (ticks : List LoggedTick) (state : LoggedMonitor) : Prop where
  monitor : state.monitor = after (ticks.map LoggedTick.tick)
  ticks : state.dumped.map LoggedTick.tick = state.monitor.dumped
  loads : state.log.filterMap readLoadLine = state.dumped.map fun logged => logged.loads.hundredths
  high : forall logged, logged ∈ state.dumped -> 100 ≤ hundredths logged.tick.avenrun

/-- The test is made on the low half of the integer part, so that it does not pass
for a load below one. -/
theorem high_of_checkLoad {last : Int64} {tick : Tick} (dumps : (checkLoad last tick).1 = true) :
    100 ≤ hundredths tick.avenrun := by
  have tested : ¬ (loadInt tick.avenrun).toUInt32.toInt32 < 1 := by
    intro low
    rw [checkLoad, if_pos low] at dumps
    cases dumps
  have positive : (loadInt tick.avenrun).toNat ≠ 0 := by
    intro zero
    have none : loadInt tick.avenrun = 0 := UInt64.toNat_inj.mp zero
    rw [none] at tested
    exact tested (by decide)
  rw [toNat_loadInt] at positive
  rw [hundredths]
  omega

theorem Readable.handler {ticks : List LoggedTick} {state : LoggedMonitor} (readable : Readable ticks state)
    (logged : LoggedTick) : Readable (ticks ++ [logged]) (logHandler state logged) := by
  have monitor : (logHandler state logged).monitor = after ((ticks ++ [logged]).map LoggedTick.tick) := by
    rw [List.map_append, List.map_singleton, after_concat, ← readable.monitor]
    rfl
  cases dumps : (checkLoad state.monitor.last logged.tick).1 with
  | false =>
      refine ⟨monitor, ?_, ?_, ?_⟩
      · simp only [logHandler, monitorHandler, dumps, Bool.false_eq_true, if_false]
        exact readable.ticks
      · simp only [logHandler, dumps, Bool.false_eq_true, if_false]
        exact readable.loads
      · simp only [logHandler, dumps, Bool.false_eq_true, if_false]
        exact readable.high
  | true =>
      refine ⟨monitor, ?_, ?_, ?_⟩
      · simp only [logHandler, monitorHandler, dumps, if_true]
        rw [List.map_append, readable.ticks, List.map_singleton]
      · simp only [logHandler, dumps, if_true]
        rw [List.filterMap_append, readable.loads, dumpLines_reads, List.map_append, List.map_singleton]
      · simp only [logHandler, dumps, if_true]
        intro other member
        rcases List.mem_append.mp member with earlier | new
        · exact readable.high other earlier
        · rw [List.mem_singleton.mp new]
          exact high_of_checkLoad dumps

theorem monitorLog_readable (ticks : List LoggedTick) : Readable ticks (monitorLog ticks) := by
  induction ticks using List.reverseRecOn with
  | nil => exact ⟨rfl, rfl, rfl, List.forall_mem_nil _⟩
  | append_singleton ticks logged inductionHypothesis =>
      rw [monitorLog, List.foldl_append]
      exact inductionHypothesis.handler logged

/-- The log of every run.  Its lines of loads are those of the ticks that dump, in
their order and whatever the tasks between them are called, and each of them gives
back the three load averages to the hundredth, rounded down.  A line whose first
average is still the one that `check_load` has tested shows at least `1.00`. -/
theorem log_gives_loads (ticks : List LoggedTick) :
    (monitorLog ticks).log.filterMap readLoadLine =
        (monitorLog ticks).dumped.map (fun logged => logged.loads.hundredths) /\
      (monitorLog ticks).dumped.map LoggedTick.tick = (after (ticks.map LoggedTick.tick)).dumped /\
      forall logged, logged ∈ (monitorLog ticks).dumped -> logged.loads.one = logged.tick.avenrun ->
        Exists fun first => logged.loads.hundredths.head? = some first /\ 100 ≤ first := by
  have readable := monitorLog_readable ticks
  refine ⟨readable.loads, readable.monitor ▸ readable.ticks, ?_⟩
  intro logged member unchanged
  exact ⟨hundredths logged.loads.one, rfl, unchanged ▸ readable.high logged member⟩

/-- Two ticks with a load above one, a second apart: only the first of them is in the
log, as `1.02, 1.46, 0.48`. -/
example : (monitorLog
    [⟨⟨2100, 3000000000, 3000000005⟩, ⟨2100, 3000, 1000⟩, [⟨bytes "make", 7, []⟩], []⟩,
      ⟨⟨2100, 4000000000, 4000000005⟩, ⟨2100, 3000, 1000⟩, [], []⟩]).log.filterMap readLoadLine =
    [[102, 146, 48]] := by
  decide +kernel

end LoadMonitor
end KernelStudy
