import KernelStudy.Foundations.LabelledRun
import KernelStudy.MmioProbe.VmapPfn
import KernelStudy.MmioProbe.CycleStatistics

namespace KernelStudy
namespace MmioProbe

open LabelledRun

/-!
# The probe as a whole

`ana_mem_init` maps the registers of the device, times ten thousand writes to one
of them, prints the slow ones and the statistics, times one more write with the
interrupts off to tell whether a hypervisor intercepts it, and unmaps the
registers.  Two further loops stand under `while (0)` and never run.

The kernel supplies the mapping, the readings of the cycle counter in their
order, and whether an address belongs to the area of `vmap`.  What the module
does is a list of events.  On the bus a write is translated by the mapping that
is in place at that moment, and a write through no mapping is a fault.
-/

def gpuBar0Pa : UInt64 := 0xFC000000

def gpuMapLen : UInt64 := 0x1000000

def gpuOffset : UInt64 := 0xbb0080

def maxMmioCycles : UInt64 := 1000

structure Machine where
  kernel : Kernel
  getCycles : Nat -> UInt64
  isVmallocAddr : UInt64 -> Bool

/-- What the module does to the device, to the interrupts and to the mapping, and
the lines that it prints, with the numbers in them. -/
inductive Event where
  | mapFailed
  | mapped (bar0Pa bar0Va : UInt64)
  | writel (value : UInt32) (address : UInt64)
  | unnormal (time : Int32) (cycle : UInt64)
  | heading
  | summary (time : Int32) (cycleMax cycleMin ave : UInt64)
  | irqSave
  | irqRestore
  | verdict (tracing : Bool)
  | vunmap (address : UInt64)
deriving DecidableEq, Repr

/-- `os_writel`. -/
def osWritel (value : UInt32) (address offset : UInt64) : Event :=
  .writel value (address + offset)

/-- The variables of the measuring loop, and how often the counter was read. -/
structure ProbeState where
  i : Int32
  readings : Nat
  statistics : Statistics
  events : List Event

def ProbeState.initial : ProbeState := ⟨0, 0, .initial, []⟩

def probeGuard (state : ProbeState) : Bool :=
  state.i < 10000

/-- One timed write. -/
def probeBody (machine : Machine) (bar0Va : UInt64) (state : ProbeState) : ProbeState :=
  let sample := (machine.getCycles state.readings, machine.getCycles (state.readings + 1))
  { i := state.i + 1
    readings := state.readings + 2
    statistics := measure state.statistics sample
    events := state.events ++ osWritel 0x1000 bar0Va gpuOffset ::
      if curCycle sample > 400 then [.unnormal state.i (curCycle sample)] else [] }

/-- `is_mmio_tracing_by_hypervisor`. -/
def isMmioTracingByHypervisor (machine : Machine) (readings : Nat) (address : UInt64)
    (disableIrq : Bool) : Bool × List Event :=
  let sample := (machine.getCycles readings, machine.getCycles (readings + 1))
  (curCycle sample > maxMmioCycles,
    (if disableIrq then [.irqSave] else []) ++ [osWritel 0x1000 address gpuOffset] ++
      if disableIrq then [.irqRestore] else [])

/-- `qgpu_vunmap`. -/
def qgpuVunmap (machine : Machine) (address : UInt64) : List Event :=
  if machine.isVmallocAddr address then [.vunmap address] else []

/-- The events from the end of the measuring loop on. -/
def finish (machine : Machine) (bar0Va : UInt64) (state : ProbeState) : List Event :=
  let tracing := isMmioTracingByHypervisor machine state.readings bar0Va true
  [.heading, .summary state.i state.statistics.cycleMax state.statistics.cycleMin state.statistics.average] ++
    tracing.2 ++ [.verdict tracing.1] ++ qgpuVunmap machine bar0Va

/-- The value that is returned, and the events in their order. -/
def anaMemInit (machine : Machine) (fuel : Nat) : Option (Int32 × List Event) :=
  (qgpuVmapPfn machine.kernel fuel gpuBar0Pa gpuMapLen).bind fun mapped =>
    match mapped with
    | none => some (-1, [.mapFailed])
    | some area =>
        (BoundedLoop.loop probeGuard (probeBody machine area.vaddr) fuel ProbeState.initial).map fun state =>
          (0, .mapped gpuBar0Pa area.vaddr :: state.events ++ finish machine area.vaddr state)

/-! ## The bus -/

/-- The mapping in place, whether interrupts are off, and the physical addresses
that were written, with the values. -/
structure Bus where
  mapping : Option Area
  irqsOff : Bool
  written : List (Nat × UInt32)

/-- A write needs a mapped address, and only the area in place can be unmapped. -/
def busStep (bus : Bus) : Event -> Option Bus
  | .writel value address =>
      (bus.mapping.bind fun area => area.translate address.toNat).map fun physical =>
        { bus with written := bus.written ++ [(physical, value)] }
  | .vunmap address =>
      if bus.mapping.map Area.vaddr = some address then some { bus with mapping := none } else none
  | .irqSave => some { bus with irqsOff := true }
  | .irqRestore => some { bus with irqsOff := false }
  | .mapFailed | .mapped _ _ | .unnormal _ _ | .heading | .summary _ _ _ _ | .verdict _ => some bus

/-- The events that are lines of the log. -/
def Event.isLine : Event -> Bool
  | .mapFailed | .mapped _ _ | .unnormal _ _ | .heading | .summary _ _ _ _ | .verdict _ => true
  | .writel _ _ | .irqSave | .irqRestore | .vunmap _ => false

/-- What is relied on beyond the mapping: areas of `vmap` do not wrap around, and
`is_vmalloc_addr` recognises them. -/
structure Machine.Lawful (machine : Machine) (limit : Nat) : Prop where
  kernel : machine.kernel.Lawful limit
  inside : forall pages area, machine.kernel.vmap pages = some area ->
    area.vaddr.toNat + pages.length * 4096 ≤ 2 ^ 64
  recognised : forall pages area, machine.kernel.vmap pages = some area ->
    machine.isVmallocAddr area.vaddr = true

/-! ## The measuring loop -/

section Loop

variable (machine : Machine) (bar0Va : UInt64)

/-- The readings around the write number `k`. -/
def Machine.sample (k : Nat) : UInt64 × UInt64 :=
  (machine.getCycles (2 * k), machine.getCycles (2 * k + 1))

def Machine.samples (count : Nat) : List (UInt64 × UInt64) :=
  (List.range count).map machine.sample

/-- The line for the write number `k`, if it was slow. -/
def slowLine (k : Nat) : List Event :=
  if curCycle (machine.sample k) > 400 then [.unnormal (Int32.ofNat k) (curCycle (machine.sample k))] else []

/-- What the write number `k` leads to. -/
def tryEvents (k : Nat) : List Event :=
  osWritel 0x1000 bar0Va gpuOffset :: slowLine machine k

/-- The loop after `k` writes. -/
structure Tried (k : Nat) (state : ProbeState) : Prop where
  i : state.i = Int32.ofNat k
  readings : state.readings = 2 * k
  statistics : state.statistics = measureAll (machine.samples k)
  events : state.events = (List.range k).flatMap (tryEvents machine bar0Va)

theorem tried_initial : Tried machine bar0Va 0 .initial :=
  ⟨rfl, rfl, rfl, rfl⟩

variable {machine bar0Va}

theorem Tried.body {k : Nat} {state : ProbeState} (tried : Tried machine bar0Va k state) :
    Tried machine bar0Va (k + 1) (probeBody machine bar0Va state) := by
  have sample : (machine.getCycles state.readings, machine.getCycles (state.readings + 1)) =
      machine.sample k := by rw [tried.readings, Machine.sample]
  refine ⟨?_, ?_, ?_, ?_⟩
  · rw [probeBody, tried.i]
    exact (Int32.ofNat_add k 1).symm
  · rw [probeBody, tried.readings]
    exact (Nat.mul_succ 2 k).symm
  · simp only [probeBody, sample, tried.statistics]
    rw [measureAll, measureAll, Machine.samples, Machine.samples, List.range_succ, List.map_append,
      List.foldl_append]
    rfl
  · simp only [probeBody, sample, tried.events, tried.i]
    rw [List.range_succ, List.flatMap_append, List.flatMap_singleton]
    rfl

theorem Tried.guard {k : Nat} {state : ProbeState} (tried : Tried machine bar0Va k state)
    (bound : k ≤ 10000) : probeGuard state = decide (k < 10000) := by
  have index : (Int32.ofNat k).toInt = k := Int32.toInt_ofNat_of_lt (by omega)
  have literal : (10000 : Int32).toInt = 10000 := rfl
  rw [probeGuard, tried.i]
  apply decide_eq_decide.mpr
  rw [Int32.lt_iff_toInt_lt, index, literal]
  omega

variable (machine bar0Va)

/-- The loop makes all its writes. -/
theorem probeLoop_tries {fuel : Nat} (enough : 10000 ≤ fuel) :
    Exists fun final => BoundedLoop.loop probeGuard (probeBody machine bar0Va) fuel .initial = some final /\
      Tried machine bar0Va 10000 final := by
  have preserved : forall state, (Exists fun k => k ≤ 10000 /\ Tried machine bar0Va k state) ->
      probeGuard state = true ->
      Exists fun k => k ≤ 10000 /\ Tried machine bar0Va k (probeBody machine bar0Va state) := by
    rintro state ⟨k, bound, tried⟩ unfinished
    rw [tried.guard bound, decide_eq_true_eq] at unfinished
    exact ⟨k + 1, unfinished, tried.body⟩
  have decreases : forall state, (Exists fun k => k ≤ 10000 /\ Tried machine bar0Va k state) ->
      probeGuard state = true ->
      10000 - (probeBody machine bar0Va state).i.toInt.toNat < 10000 - state.i.toInt.toNat := by
    rintro state ⟨k, bound, tried⟩ unfinished
    rw [tried.guard bound, decide_eq_true_eq] at unfinished
    have now : (Int32.ofNat k).toInt = k := Int32.toInt_ofNat_of_lt (by omega)
    have next : (Int32.ofNat (k + 1)).toInt = (k + 1 : Nat) := Int32.toInt_ofNat_of_lt (by omega)
    rw [tried.i, tried.body.i, now, next]
    omega
  rcases BoundedLoop.loop_total probeGuard (probeBody machine bar0Va)
    (fun state => Exists fun k => k ≤ 10000 /\ Tried machine bar0Va k state)
    (fun state => 10000 - state.i.toInt.toNat) preserved decreases
    ⟨0, Nat.zero_le _, tried_initial machine bar0Va⟩ (Nat.le_trans (Nat.sub_le _ _) enough) with
    ⟨final, returned, ⟨k, bound, tried⟩, ended⟩
  rw [tried.guard bound, decide_eq_false_iff_not] at ended
  have all : k = 10000 := by omega
  exact ⟨final, returned, all ▸ tried⟩

end Loop

/-! ## The registers -/

section Registers

variable {machine : Machine} {limit : Nat}

/-- Within its budget the mapping is refused, or the register of the probe lies
behind the address that the module writes to. -/
theorem register_mapped (lawful : machine.Lawful limit) {fuel : Nat} (enough : 10000 ≤ fuel) :
    Exists fun result => qgpuVmapPfn machine.kernel fuel gpuBar0Pa gpuMapLen = some result /\
      forall area, result = some area -> machine.isVmallocAddr area.vaddr = true /\
        area.translate (area.vaddr + gpuOffset).toNat = some 0xFCBB0080 := by
  cases granted : machine.kernel.kmallocArray (pageCount gpuMapLen) with
  | false =>
      refine ⟨none, if_pos granted, fun area impossible => ?_⟩
      cases impossible
  | true =>
      have count : (pageCount gpuMapLen).toNat = 4096 := rfl
      rcases qgpuVmapPfn_pages granted (show gpuBar0Pa.toNat + gpuMapLen.toNat ≤ 2 ^ 63 by decide)
        (show (pageCount gpuMapLen).toNat < 2 ^ 32 by decide) with ⟨pages, length, frames, returned, _unique⟩
      have notRefused := ne_false_of_eq_true granted
      refine ⟨machine.kernel.vmap pages, ?_, fun area mapped => ⟨lawful.recognised pages area mapped, ?_⟩⟩
      · simp only [qgpuVmapPfn, if_neg notRefused, Option.map_eq_some_iff] at returned ⊢
        rcases returned with ⟨state, ended, same⟩
        exact ⟨state, BoundedLoop.loop_mono _ _ (count ▸ by omega) ended, same⟩
      · have aligned := lawful.kernel.aligned pages area mapped
        have inside := lawful.inside pages area mapped
        rw [length, count] at inside
        have offset : gpuOffset.toNat = 0xbb0080 := rfl
        have address : (area.vaddr + gpuOffset).toNat = area.vaddr.toNat + 0xbb0080 := by
          rw [UInt64.toNat_add, offset]
          omega
        have page : (area.vaddr.toNat + 0xbb0080) / 4096 = area.vaddr.toNat / 4096 + 0xbb0 := by omega
        rcases frames 0xbb0 (count ▸ by decide) with ⟨frame, listed, value⟩
        have start : gpuBar0Pa.toNat / 4096 = 0xFC000 := by decide
        rw [address, Area.translate, page, lawful.kernel.mapped pages area mapped 0xbb0
          (by rw [length, count]; decide), listed, Option.map_some, value, start]
        apply congrArg some
        omega

end Registers

/-! ## The events on the bus -/

section Bus

variable (machine : Machine) {area : Area} {physical : Nat}

theorem busStep_write (leads : area.translate (area.vaddr + gpuOffset).toNat = some physical) (irqsOff : Bool)
    (written : List (Nat × UInt32)) :
    busStep ⟨some area, irqsOff, written⟩ (osWritel 0x1000 area.vaddr gpuOffset) =
      some ⟨some area, irqsOff, written ++ [(physical, 0x1000)]⟩ := by
  rw [osWritel, busStep, Option.bind_some, leads, Option.map_some]

/-- One timed write, with the line that follows it. -/
theorem run_tryEvents (leads : area.translate (area.vaddr + gpuOffset).toNat = some physical) (k : Nat)
    (written : List (Nat × UInt32)) :
    run busStep ⟨some area, false, written⟩ (tryEvents machine area.vaddr k) =
      some ⟨some area, false, written ++ [(physical, 0x1000)]⟩ := by
  rw [tryEvents, run, busStep_write leads, Option.bind_some, slowLine]
  split
  · rfl
  · rfl

theorem run_tries (leads : area.translate (area.vaddr + gpuOffset).toNat = some physical) (count : Nat) :
    run busStep ⟨some area, false, []⟩ ((List.range count).flatMap (tryEvents machine area.vaddr)) =
      some ⟨some area, false, List.replicate count (physical, 0x1000)⟩ := by
  induction count with
  | zero => rfl
  | succ count inductionHypothesis =>
      rw [List.range_succ, List.flatMap_append, run_append, inductionHypothesis, Option.bind_some,
        List.flatMap_singleton, run_tryEvents machine leads, List.replicate_succ']

/-- The last write is made with the interrupts off, and through the mapping that
is then removed. -/
theorem run_finish (leads : area.translate (area.vaddr + gpuOffset).toNat = some physical)
    (recognised : machine.isVmallocAddr area.vaddr = true) (state : ProbeState)
    (written : List (Nat × UInt32)) :
    run busStep ⟨some area, false, written⟩ (finish machine area.vaddr state) =
      some ⟨none, false, written ++ [(physical, 0x1000)]⟩ := by
  have unmapping : qgpuVunmap machine area.vaddr = [.vunmap area.vaddr] := if_pos recognised
  have unmapped : busStep ⟨some area, false, written ++ [(physical, 0x1000)]⟩ (.vunmap area.vaddr) =
      some ⟨none, false, written ++ [(physical, 0x1000)]⟩ := if_pos rfl
  rw [finish, unmapping]
  -- the lines of the statistics leave the bus as it is, and the interrupts go off
  show (busStep ⟨some area, true, written⟩ (osWritel 0x1000 area.vaddr gpuOffset)).bind
    (fun next => run busStep next [.irqRestore, .verdict _, .vunmap area.vaddr]) = _
  rw [busStep_write leads, Option.bind_some]
  show (busStep ⟨some area, false, written ++ [(physical, 0x1000)]⟩ (.vunmap area.vaddr)).bind
    (fun next => run busStep next []) = _
  rw [unmapped, Option.bind_some, run]

theorem filter_tryEvents (bar0Va : UInt64) (k : Nat) :
    (tryEvents machine bar0Va k).filter Event.isLine = slowLine machine k := by
  rw [tryEvents, slowLine]
  split
  · rfl
  · rfl

theorem filter_tries (bar0Va : UInt64) (count : Nat) :
    ((List.range count).flatMap (tryEvents machine bar0Va)).filter Event.isLine =
      (List.range count).flatMap (slowLine machine) := by
  rw [List.filter_flatMap]
  exact List.flatMap_congr fun k _ => filter_tryEvents machine bar0Va k

theorem filter_finish (bar0Va : UInt64) (state : ProbeState) :
    (finish machine bar0Va state).filter Event.isLine =
      [.heading, .summary state.i state.statistics.cycleMax state.statistics.cycleMin state.statistics.average,
        .verdict (isMmioTracingByHypervisor machine state.readings bar0Va true).1] := by
  rw [finish, qgpuVunmap]
  split
  · rfl
  · rfl

end Bus

/-- Loading the module either fails in the mapping, and then prints that and does
nothing else, or makes its ten thousand and one writes.  None of them faults, all
of them reach one register of the device, the registers are unmapped and the
interrupts on at the end.  The lines are those of the slow writes in their order,
the statistics of the ten thousand readings, and the verdict of the last one. -/
theorem probe_reaches_register (machine : Machine) (limit : Nat) (lawful : machine.Lawful limit)
    (fuel : Nat) (enough : 10000 ≤ fuel) :
    (qgpuVmapPfn machine.kernel fuel gpuBar0Pa gpuMapLen = some none /\
        anaMemInit machine fuel = some (-1, [.mapFailed])) \/
      Exists fun area => Exists fun events =>
        qgpuVmapPfn machine.kernel fuel gpuBar0Pa gpuMapLen = some (some area) /\
        anaMemInit machine fuel = some (0, events) /\
        run busStep ⟨some area, false, []⟩ events =
          some ⟨none, false, List.replicate 10001 (0xFCBB0080, 0x1000)⟩ /\
        events.filter Event.isLine =
          .mapped gpuBar0Pa area.vaddr :: (List.range 10000).flatMap (slowLine machine) ++
            [.heading, .summary 10000 (measureAll (machine.samples 10000)).cycleMax
                (measureAll (machine.samples 10000)).cycleMin (measureAll (machine.samples 10000)).average,
              .verdict (curCycle (machine.sample 10000) > maxMmioCycles)] := by
  rcases register_mapped lawful enough with ⟨result, mapped, register⟩
  cases result with
  | none =>
      refine Or.inl ⟨mapped, ?_⟩
      rw [anaMemInit, mapped, Option.bind_some]
  | some area =>
      rcases register area rfl with ⟨recognised, leads⟩
      rcases probeLoop_tries machine area.vaddr enough with ⟨final, returned, tried⟩
      refine Or.inr ⟨area, .mapped gpuBar0Pa area.vaddr :: final.events ++ finish machine area.vaddr final,
        mapped, ?_, ?_, ?_⟩
      · simp only [anaMemInit, mapped, Option.bind_some, returned, Option.map_some]
      · rw [List.cons_append, run, busStep, Option.bind_some, run_append, tried.events,
          run_tries machine leads, Option.bind_some, run_finish machine leads recognised,
          ← List.replicate_succ']
      · rw [List.filter_append, List.filter_cons_of_pos rfl, tried.events, filter_tries, filter_finish,
          tried.i, tried.statistics, isMmioTracingByHypervisor, tried.readings]
        rfl

/-- Arrays up to a limit are mapped at a fixed address, and the counter advances by
one between two readings. -/
def steadyMachine : Machine where
  kernel := { fixedKernel 524288 with
    vmap := fun pages => if pages.length ≤ 524288 then some (fixedArea pages) else none }
  getCycles := UInt64.ofNat
  isVmallocAddr := fun address => vmallocStart ≤ address

theorem steadyMachine_maps {pages : List UInt64} (short : pages.length ≤ 524288) :
    steadyMachine.kernel.vmap pages = some (fixedArea pages) :=
  if_pos short

theorem steadyMachine_lawful : steadyMachine.Lawful 524288 := by
  have fixed := fixedKernel_lawful 524288
  have listed : forall pages area, steadyMachine.kernel.vmap pages = some area ->
      pages.length ≤ 524288 /\ fixedArea pages = area := by
    intro pages area mapped
    rw [steadyMachine, Option.ite_none_right_eq_some, Option.some.injEq] at mapped
    exact mapped
  have start : vmallocStart.toNat = 0xFFFFC90000000000 := rfl
  refine ⟨⟨fixed.allocates, ?_, ?_⟩, ?_, ?_⟩
  · intro pages area mapped
    exact fixed.aligned pages area (congrArg some (listed pages area mapped).2)
  · intro pages area mapped
    exact fixed.mapped pages area (congrArg some (listed pages area mapped).2)
  · intro pages area mapped
    rcases listed pages area mapped with ⟨short, rfl⟩
    have address : (fixedArea pages).vaddr.toNat = 0xFFFFC90000000000 := start
    omega
  · intro pages area mapped
    rcases listed pages area mapped with ⟨_, rfl⟩
    exact decide_eq_true (UInt64.le_refl vmallocStart)

/-- On that machine the probe is carried out. -/
theorem probe_reaches_register_steady : steadyMachine.Lawful 524288 /\
    Exists fun area => Exists fun events => anaMemInit steadyMachine 10000 = some (0, events) /\
      run busStep ⟨some area, false, []⟩ events =
        some ⟨none, false, List.replicate 10001 (0xFCBB0080, 0x1000)⟩ := by
  refine ⟨steadyMachine_lawful, ?_⟩
  rcases probe_reaches_register steadyMachine 524288 steadyMachine_lawful 10000 (Nat.le_refl _) with
    ⟨refused, _⟩ | ⟨area, events, _, probed, onBus, _⟩
  · have granted : steadyMachine.kernel.kmallocArray (pageCount gpuMapLen) = true := by decide
    have count : (pageCount gpuMapLen).toNat = 4096 := rfl
    simp only [qgpuVmapPfn, if_neg (ne_false_of_eq_true granted), Option.map_eq_some_iff] at refused
    rcases refused with ⟨state, _, unmapped⟩
    have short : (CellMemory.load state.pages 0 (pageCount gpuMapLen).toNat).length ≤ 524288 := by
      rw [CellMemory.length_load, count]
      decide
    rw [steadyMachine_maps short] at unmapped
    cases unmapped
  · exact ⟨area, events, probed, onBus⟩

end MmioProbe
end KernelStudy
