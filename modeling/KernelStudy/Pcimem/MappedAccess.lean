import KernelStudy.Pcimem.Program

namespace KernelStudy
namespace Pcimem

/-!
# Accesses and the mapped bytes

Three expressions have to agree for the accesses to stay inside the mapping:
its length, the address of an item, and the number of items.  They do when the
end of the last item fits an `int`.  Otherwise the length wraps or is cut off
while the loop still visits every item.  With a count that is not positive the
loop visits nothing, and the store of a data argument goes through a pointer
that no item has set.
-/

/-! ## What a command should touch -/

/-- `target - target_base` as an integer. -/
def Command.distance (command : Command) : Int :=
  command.target.toInt - command.targetBase.toInt

/-- The count and the width as integers. -/
def Command.count (command : Command) : Int :=
  command.itemsCount.toInt

def Command.width (command : Command) : Int :=
  command.accessType.typeWidth.toInt

/-- The access goes to an item that the loop visits, at its exact offset, and
all its bytes lie inside the mapping. -/
def AtVisitedItem (command : Command) (trace : Trace) (access : Access) : Prop :=
  Exists fun (call : Int32 × Int64) => Exists fun mapBase => Exists fun virtAddr =>
    trace.mapCall = some call /\ trace.mapBase = some mapBase /\
    access.virtAddr = some virtAddr /\
    Exists fun i : Int => 0 ≤ i /\ i < command.count /\
      (virtAddr - mapBase).toNat = command.distance + i * command.width /\
      command.distance + i * command.width + command.width ≤ call.1.toInt

/-- The length given to `mmap` is the exact one, and every access stays inside
the mapping. -/
structure TouchesMapped (command : Command) (trace : Trace) : Prop where
  map_size : forall call, trace.mapCall = some call ->
    call.1.toInt = max 4096 (command.distance + command.count * command.width)
  inside : forall access, access ∈ trace.accesses -> AtVisitedItem command trace access

/-- The end of the last item fits an `int`.  Without items, the wrapped product
asks for no more than a page, and nothing is written. -/
def Fits (env : Environment) (command : Command) : Prop :=
  (1 ≤ command.count -> command.target.toInt % 4096 + command.count * command.width < 2 ^ 31) /\
  (command.count ≤ 0 ->
    command.target.toInt % 4096 + Int.bmod (command.count * command.width) (2 ^ 32) ≤ 4096 /\
    (command.writeval = none \/ env.mmap command.mapSize command.targetBase = none))

/-! ## Values of the expressions -/

section Values

variable (command : Command)

theorem toInt_targetBase : command.targetBase.toInt = 4096 * (command.target.toInt / 4096) :=
  MachineWord.toInt_and_highMask (show 12 ≤ 63 by decide) rfl

theorem distance_eq : command.distance = command.target.toInt % 4096 := by
  have base := toInt_targetBase command
  rw [Command.distance]
  omega

theorem width_cases :
    command.width = 1 \/ command.width = 2 \/ command.width = 4 \/ command.width = 8 := by
  rw [Command.width]
  cases command.accessType with
  | b => exact Or.inl rfl
  | h => exact Or.inr (Or.inl rfl)
  | w => exact Or.inr (Or.inr (Or.inl rfl))
  | d => exact Or.inr (Or.inr (Or.inr rfl))

/-- The sum in `off_t` is exact, whatever the product has become. -/
theorem toInt_mapEnd : command.mapEnd.toInt =
    command.distance + Int.bmod (command.count * command.width) (2 ^ 32) := by
  have base := toInt_targetBase command
  have distance := distance_eq command
  have lower := Int.le_bmod (x := command.count * command.width) (m := 2 ^ 32) (by decide)
  have upper := Int.bmod_lt (x := command.count * command.width) (m := 2 ^ 32) (by decide)
  have product : (command.itemsCount * command.accessType.typeWidth).toInt64.toInt =
      Int.bmod (command.count * command.width) (2 ^ 32) := by
    rw [Int32.toInt_toInt64, Int32.toInt_mul]
    rfl
  rw [Command.mapEnd, Int64.toInt_sub, Int64.toInt_add, product, Int.bmod_sub_bmod, base]
  rw [Int.bmod_eq_of_le (by omega) (by omega)]
  omega

/-- Cut off to an `int`, when it is longer than a page. -/
theorem toInt_mapSize : command.mapSize.toInt =
    if command.mapEnd.toInt > 4096 then Int.bmod command.mapEnd.toInt (2 ^ 32) else 4096 := by
  have literal : (4096 : Int32).toInt = 4096 := rfl
  have test : command.mapEnd > (4096 : Int32).toInt64 <-> command.mapEnd.toInt > 4096 := by
    rw [gt_iff_lt, Int64.lt_iff_toInt_lt, Int32.toInt_toInt64, literal]
  simp only [Command.mapSize]
  by_cases longer : command.mapEnd.toInt > 4096
  · rw [if_pos longer, if_pos (test.mpr longer), Int64.toInt_toInt32]
  · rw [if_neg longer, if_neg (fun other => longer (test.mp other)), literal]

/-- The pointer arithmetic, relative to the mapping. -/
theorem toNat_itemOffset (mapBase : UInt64) (i : Int32) :
    ((command.itemAddress mapBase i - mapBase).toNat : Int) =
      (command.distance + (i * command.accessType.typeWidth).toInt) % 2 ^ 64 := by
  have word : command.itemAddress mapBase i - mapBase =
      (command.target + (i * command.accessType.typeWidth).toInt64 - command.targetBase).toUInt64 := by
    rw [Command.itemAddress, Int64.toUInt64_sub, Int64.toUInt64_add]
    grind
  have sum : command.target.toInt + (i * command.accessType.typeWidth).toInt - command.targetBase.toInt =
      command.distance + (i * command.accessType.typeWidth).toInt := by
    rw [Command.distance]
    ring
  rw [word, MachineWord.toNat_toUInt64, Int64.toInt_sub, Int64.toInt_add, Int32.toInt_toInt64,
    Int.bmod_sub_bmod, sum]
  exact Int.bmod_emod

end Values

/-! ## The item loop -/

/-- The loads of the first `number` items. -/
def itemLoads (command : Command) (mapBase : UInt64) (number : Nat) : List Access :=
  (List.range number).map fun index =>
    ⟨.load, some (command.itemAddress mapBase (Int32.ofNat index))⟩

/-- The pointer that the loop leaves after its accesses. -/
def lastAddress (accesses : List Access) : Option UInt64 :=
  accesses.getLast?.bind Access.virtAddr

/-- The state of the loop after `i` items. -/
structure Visited (command : Command) (mapBase : UInt64) (state : LoopState) : Prop where
  nonneg : 0 ≤ state.i.toInt
  bounded : state.i.toInt ≤ max 0 command.count
  accesses : state.accesses = itemLoads command mapBase state.i.toInt.toNat
  virtAddr : state.virtAddr = lastAddress state.accesses

section Loop

variable {env : Environment} {command : Command} {mapBase : UInt64}

theorem visited_initial : Visited command mapBase LoopState.initial :=
  ⟨Int.le_refl 0, Int.le_max_left 0 _, rfl, rfl⟩

/-- The counter does not overflow below the count. -/
theorem toInt_next {state : LoopState} (unfinished : itemGuard command state = true) :
    (state.i + 1).toInt = state.i.toInt + 1 /\ state.i.toInt < command.count := by
  have below : state.i.toInt < command.itemsCount.toInt :=
    Int32.lt_iff_toInt_lt.mp (of_decide_eq_true unfinished)
  have lower := state.i.le_toInt
  have upper := command.itemsCount.toInt_lt
  refine ⟨?_, below⟩
  rw [Int32.toInt_add, Int32.toInt_one]
  exact Int.bmod_eq_of_le (by omega) (by omega)

/-- The counter as the number of visited items. -/
theorem Visited.counter {state : LoopState} (visited : Visited command mapBase state) :
    Int32.ofNat state.i.toInt.toNat = state.i := by
  have nonneg := visited.nonneg
  have limit := state.i.toInt_lt
  apply Int32.toInt_inj.mp
  rw [Int32.toInt_ofNat_of_lt (by omega)]
  omega

/-- One pass visits the next item. -/
theorem Visited.body {state : LoopState} (visited : Visited command mapBase state)
    (unfinished : itemGuard command state = true) :
    Visited command mapBase (itemBody env command mapBase state) := by
  rcases toInt_next unfinished with ⟨next, below⟩
  have nonneg := visited.nonneg
  have next_i : (itemBody env command mapBase state).i = state.i + 1 := rfl
  have same := visited.counter
  have visitedNow : (itemBody env command mapBase state).accesses =
      itemLoads command mapBase (state.i.toInt.toNat + 1) := by
    rw [itemLoads, List.range_succ, List.map_append, List.map_singleton, same]
    exact congrArg (fun earlier => earlier ++ _) visited.accesses
  refine ⟨?_, ?_, ?_, ?_⟩
  · rw [next_i, next]
    omega
  · rw [next_i, next]
    omega
  · rw [next_i, next, visitedNow]
    congr 1
    omega
  · rw [itemBody, lastAddress]
    simp only
    rw [List.getLast?_concat]
    rfl

variable (env command mapBase)

/-- The loop ends after the last item, and keeps what every pass keeps. -/
theorem itemLoop_total (Invariant : LoopState -> Prop) (start : Invariant LoopState.initial)
    (kept : forall state, Visited command mapBase state -> Invariant state ->
      itemGuard command state = true -> Invariant (itemBody env command mapBase state)) :
    Exists fun final =>
      (forall fuel, command.count.toNat ≤ fuel ->
        BoundedLoop.loop (itemGuard command) (itemBody env command mapBase) fuel
          LoopState.initial = some final) /\
      Visited command mapBase final /\ final.i.toInt = max 0 command.count /\ Invariant final := by
  rcases BoundedLoop.loop_total (itemGuard command) (itemBody env command mapBase)
    (fun state => Visited command mapBase state /\ Invariant state)
    (fun state => (command.count - state.i.toInt).toNat)
    (fun state holds unfinished => ⟨holds.1.body unfinished, kept state holds.1 holds.2 unfinished⟩)
    (fun state _holds unfinished => by
      rcases toInt_next unfinished with ⟨next, below⟩
      have next_i : (itemBody env command mapBase state).i = state.i + 1 := rfl
      rw [next_i, next]
      omega)
    ⟨visited_initial, start⟩ (Nat.le_refl _) with ⟨final, returned, ⟨visited, holds⟩, finished⟩
  have nonneg := visited.nonneg
  have bounded := visited.bounded
  have ended : command.count ≤ final.i.toInt :=
    Int.not_lt.mp fun below => of_decide_eq_false finished (Int32.lt_iff_toInt_lt.mpr below)
  refine ⟨final, fun fuel enough => BoundedLoop.loop_mono _ _ ?_ returned, visited, by omega, holds⟩
  simpa only [LoopState.initial, Int32.toInt_zero, Int.sub_zero] using enough

/-- The loop ends, having loaded every item in order. -/
theorem itemLoop_visits :
    Exists fun final =>
      (forall fuel, command.count.toNat ≤ fuel ->
        BoundedLoop.loop (itemGuard command) (itemBody env command mapBase) fuel
          LoopState.initial = some final) /\
      final.accesses = itemLoads command mapBase command.count.toNat /\
      final.virtAddr = lastAddress final.accesses := by
  rcases itemLoop_total env command mapBase (fun _ => True) trivial (fun _ _ _ _ => trivial) with ⟨final, returned, visited, ended, _⟩
  refine ⟨final, returned, ?_, visited.virtAddr⟩
  rw [visited.accesses]
  congr 1
  omega

end Loop

/-! ## Exact lengths and offsets -/

section Exact

variable {command : Command}

/-- The length of the mapping is exact iff the end of the last item fits an
`int`, or the wrapped product of a count that is not positive is small. -/
theorem mapSize_exact_iff (command : Command) :
    command.mapSize.toInt = max 4096 (command.distance + command.count * command.width) <->
      (1 ≤ command.count -> command.target.toInt % 4096 + command.count * command.width < 2 ^ 31) /\
      (command.count ≤ 0 ->
        command.target.toInt % 4096 + Int.bmod (command.count * command.width) (2 ^ 32) ≤ 4096) := by
  have size := toInt_mapSize command
  have limit := command.mapSize.toInt_lt
  have distance := distance_eq command
  have width := width_cases command
  have lower := Int.le_bmod (x := command.count * command.width) (m := 2 ^ 32) (by decide)
  have upper := Int.bmod_lt (x := command.count * command.width) (m := 2 ^ 32) (by decide)
  rw [toInt_mapEnd] at size
  by_cases positive : 1 ≤ command.count
  · have bytes : 0 < command.count * command.width := Int.mul_pos (by omega) (by omega)
    refine ⟨fun exact_ => ⟨fun _ => by omega, fun none_ => by omega⟩, fun fits => ?_⟩
    have short := fits.1 positive
    rw [Int.bmod_eq_of_le (by omega) (by omega)] at size
    rw [size]
    split
    · rw [Int.bmod_eq_of_le (by omega) (by omega)]
      omega
    · omega
  · have bytes : command.count * command.width ≤ 0 :=
      Int.mul_nonpos_of_nonpos_of_nonneg (by omega) (by omega)
    constructor
    · intro exact_
      refine ⟨fun some_ => absurd some_ positive, fun _ => ?_⟩
      by_contra longer
      rw [if_pos (by omega)] at size
      -- only 4096 itself is cut off to 4096
      have residue := Int.bmod_emod (m := 2 ^ 32)
        (x := command.distance + Int.bmod (command.count * command.width) (2 ^ 32))
      omega
    · intro fits
      have short := fits.2 (by omega)
      rw [if_neg (by omega)] at size
      omega

/-- The items lie one after the other, below the end. -/
theorem item_bytes {index : Nat} (visited : index < command.count) :
    0 ≤ index * command.width /\
      index * command.width + command.width ≤ command.count * command.width := by
  have width := width_cases command
  have next : (index + 1) * command.width ≤ command.count * command.width :=
    Int.mul_le_mul_of_nonneg_right (by omega) (by omega)
  rw [Int.add_mul, Int.one_mul] at next
  exact ⟨Int.mul_nonneg (by omega) (by omega), next⟩

/-- The product in `int` is exact for the items below the limit. -/
theorem toInt_itemProduct {index : Nat} (visited : index < command.count)
    (fits : command.count * command.width < 2 ^ 31) :
    (Int32.ofNat index * command.accessType.typeWidth).toInt = index * command.width := by
  have upper := command.itemsCount.toInt_lt
  have count : command.count = command.itemsCount.toInt := rfl
  have item : (Int32.ofNat index).toInt = index := Int32.toInt_ofNat_of_lt (by omega)
  have width := width_cases command
  rcases item_bytes visited with ⟨nonneg, below⟩
  rw [Int32.toInt_mul, item]
  exact Int.bmod_eq_of_le (by rw [Command.width] at *; omega) (by rw [Command.width] at *; omega)

/-- The offset of an item is exact when the end of the last one fits an `int`. -/
theorem itemOffset_exact (mapBase : UInt64) {index : Nat} (visited : index < command.count)
    (fits : command.target.toInt % 4096 + command.count * command.width < 2 ^ 31) :
    ((command.itemAddress mapBase (Int32.ofNat index) - mapBase).toNat : Int) =
      command.distance + index * command.width := by
  have distance := distance_eq command
  rcases item_bytes visited with ⟨nonneg, below⟩
  rw [toNat_itemOffset, toInt_itemProduct visited (by omega)]
  have width := width_cases command
  omega

/-- A load of an item stays inside a mapping of the exact length. -/
theorem load_atVisitedItem {trace : Trace} {mapBase : UInt64} {index : Nat} {kind : AccessKind}
    (call : trace.mapCall = some (command.mapSize, command.targetBase))
    (mapped : trace.mapBase = some mapBase) (visited : index < command.count)
    (fits : command.target.toInt % 4096 + command.count * command.width < 2 ^ 31)
    (exact_ : command.mapSize.toInt = max 4096 (command.distance + command.count * command.width)) :
    AtVisitedItem command trace
      ⟨kind, some (command.itemAddress mapBase (Int32.ofNat index))⟩ := by
  rcases item_bytes visited with ⟨_, below⟩
  refine ⟨_, mapBase, _, call, mapped, rfl, index, by omega, visited,
    itemOffset_exact mapBase visited fits, ?_⟩
  rw [exact_]
  omega

end Exact

/-! ## The whole program -/

section Program

variable {env : Environment} {command : Command}

/-- The two parts of the property, for a run that has come to `mmap`. -/
theorem touchesMapped_iff {trace : Trace}
    (called : trace.mapCall = some (command.mapSize, command.targetBase)) :
    TouchesMapped command trace <->
      command.mapSize.toInt = max 4096 (command.distance + command.count * command.width) /\
      forall access, access ∈ trace.accesses -> AtVisitedItem command trace access := by
  constructor
  · intro touches
    exact ⟨touches.map_size (command.mapSize, command.targetBase) called, touches.inside⟩
  · rintro ⟨exact_, inside⟩
    refine ⟨fun call other => ?_, inside⟩
    have same : (command.mapSize, command.targetBase) = call := Option.some.inj (called.symm.trans other)
    subst call
    exact exact_

/-- The accesses of a run whose loop has loaded all items. -/
def finalAccesses (command : Command) (mapBase : UInt64) : List Access :=
  let loads := itemLoads command mapBase command.count.toNat
  match command.writeval with
  | none => loads
  | some _ => loads ++ [⟨.store, lastAddress loads⟩, ⟨.readback, lastAddress loads⟩]

/-- With at least one item, the store goes to the last one. -/
theorem lastAddress_itemLoads (mapBase : UInt64) {number : Nat} :
    lastAddress (itemLoads command mapBase (number + 1)) =
      some (command.itemAddress mapBase (Int32.ofNat number)) := by
  rw [lastAddress, itemLoads, List.range_succ, List.map_append, List.map_singleton,
    List.getLast?_concat]
  rfl

/-- When all items fit, every access of the run goes to one of them. -/
theorem finalAccesses_inside {trace : Trace} {mapBase : UInt64}
    (call : trace.mapCall = some (command.mapSize, command.targetBase))
    (mapped : trace.mapBase = some mapBase) (positive : 1 ≤ command.count)
    (fits : command.target.toInt % 4096 + command.count * command.width < 2 ^ 31)
    (exact_ : command.mapSize.toInt = max 4096 (command.distance + command.count * command.width)) :
    forall access, access ∈ finalAccesses command mapBase -> AtVisitedItem command trace access := by
  have loads : forall access, access ∈ itemLoads command mapBase command.count.toNat ->
      AtVisitedItem command trace access := by
    intro access member
    rcases List.mem_map.mp member with ⟨index, inRange, same⟩
    subst access
    have below := List.mem_range.mp inRange
    exact load_atVisitedItem call mapped (by omega) fits exact_
  rcases Nat.exists_eq_add_one_of_ne_zero (show command.count.toNat ≠ 0 by omega) with ⟨last, number⟩
  have stored : lastAddress (itemLoads command mapBase command.count.toNat) =
      some (command.itemAddress mapBase (Int32.ofNat last)) := by
    rw [number]
    exact lastAddress_itemLoads mapBase
  intro access member
  cases data : command.writeval with
  | none =>
      simp only [finalAccesses, data] at member
      exact loads access member
  | some writeval =>
      simp only [finalAccesses, data, stored, List.mem_append, List.mem_cons, List.not_mem_nil,
        or_false] at member
      rcases member with load | store | readback
      · exact loads access load
      · subst access
        exact load_atVisitedItem call mapped (by omega) fits exact_
      · subst access
        exact load_atVisitedItem call mapped (by omega) fits exact_

/-- Without items, the store of a data argument has no address. -/
theorem finalAccesses_outside {trace : Trace} {mapBase : UInt64} (none_ : command.count ≤ 0)
    (inside : forall access, access ∈ finalAccesses command mapBase ->
      AtVisitedItem command trace access) : command.writeval = none := by
  have number : command.count.toNat = 0 := Int.toNat_eq_zero.mpr none_
  cases data : command.writeval with
  | none => rfl
  | some writeval =>
      rcases inside ⟨.store, none⟩ (by
        simp only [finalAccesses, data, number]
        exact List.mem_cons_self) with ⟨_, _, _, _, _, address, _⟩
      cases address

/-- Without items and without a data argument nothing is accessed. -/
theorem finalAccesses_nil (mapBase : UInt64) (noItems : command.count ≤ 0)
    (unwritten : command.writeval = none) : finalAccesses command mapBase = [] := by
  have number : command.count.toNat = 0 := Int.toNat_eq_zero.mpr noItems
  simp only [finalAccesses, unwritten, number]
  rfl

/-- The rest of a run whose loop has ended. -/
theorem main_of_loop {argv : List (List UInt8)} (parsed : parse argv = .ok command)
    (opened : env.opened = true) {mapBase : UInt64}
    (mapped : env.mmap command.mapSize command.targetBase = some mapBase) {fuel : Nat}
    {final : LoopState} (returned : BoundedLoop.loop (itemGuard command) (itemBody env command mapBase)
      fuel LoopState.initial = some final) :
    main fuel env argv = some ⟨if env.munmap then 0 else 1, some (command.mapSize, command.targetBase),
      some mapBase, (writeData env command final).accesses, (writeData env command final).output⟩ := by
  simp only [main, parsed, opened, Bool.true_eq_false, if_false, mapped, returned, Option.map_some]

/-- A run that has mapped the resource. -/
theorem main_mapped {argv : List (List UInt8)} (parsed : parse argv = .ok command)
    (opened : env.opened = true) {mapBase : UInt64}
    (mapped : env.mmap command.mapSize command.targetBase = some mapBase) :
    Exists fun trace =>
      (forall fuel, command.count.toNat ≤ fuel -> main fuel env argv = some trace) /\
      trace.mapCall = some (command.mapSize, command.targetBase) /\
      trace.mapBase = some mapBase /\ trace.accesses = finalAccesses command mapBase := by
  rcases itemLoop_visits env command mapBase with ⟨final, returned, accesses, virtAddr⟩
  refine ⟨_, fun fuel enough => main_of_loop parsed opened mapped (returned fuel enough), rfl, rfl, ?_⟩
  · cases data : command.writeval with
    | none => simp only [writeData, finalAccesses, data, accesses]
    | some writeval => simp only [writeData, finalAccesses, data, accesses, virtAddr]

end Program

/-- For every command line that passes argument checking, the program ends, and
it touches only what it has mapped, with exact lengths and offsets, iff the
command fits or the resource cannot be opened. -/
theorem accesses_mapped_iff (env : Environment) (argv : List (List UInt8)) (command : Command)
    (parsed : parse argv = .ok command) :
    Exists fun trace =>
      (forall fuel, command.count.toNat ≤ fuel -> main fuel env argv = some trace) /\
      (TouchesMapped command trace <-> (env.opened = true -> Fits env command)) := by
  cases opened : env.opened with
  | false =>
      refine ⟨Trace.stopped 1 none, fun fuel _ => ?_, fun _ => nofun, fun _ => ⟨nofun, nofun⟩⟩
      simp only [main, parsed, opened, if_true]
  | true =>
      cases mapped : env.mmap command.mapSize command.targetBase with
      | none =>
          refine ⟨Trace.stopped 1 (some (command.mapSize, command.targetBase)), fun fuel _ => ?_, ?_⟩
          · simp only [main, parsed, opened, Bool.true_eq_false, if_false, mapped]
          · rw [touchesMapped_iff rfl, mapSize_exact_iff, Fits]
            simp only [mapped, or_true, and_true, forall_const]
            exact and_iff_left nofun
      | some mapBase =>
          rcases main_mapped parsed opened mapped with ⟨trace, returned, call, base, accesses⟩
          refine ⟨trace, returned, ?_⟩
          rw [touchesMapped_iff call, accesses]
          constructor
          · rintro ⟨exact_, inside⟩ _
            rcases (mapSize_exact_iff command).mp exact_ with ⟨some_, none_⟩
            exact ⟨some_, fun noItems => ⟨none_ noItems, Or.inl (finalAccesses_outside noItems inside)⟩⟩
          · intro fits
            rcases fits rfl with ⟨some_, none_⟩
            have exact_ := (mapSize_exact_iff command).mpr
              ⟨some_, fun noItems => (none_ noItems).1⟩
            refine ⟨exact_, ?_⟩
            by_cases positive : 1 ≤ command.count
            · exact finalAccesses_inside call base positive (some_ positive) exact_
            · have noItems : command.count ≤ 0 := by omega
              have unwritten := (none_ noItems).2.resolve_right (by rw [mapped]; nofun)
              rw [finalAccesses_nil mapBase noItems unwritten]
              exact List.forall_mem_nil _

/-- A resource of zeros that can be opened, mapped and unmapped. -/
def zeroResource : Environment :=
  ⟨true, fun _ _ => some 0x7F0000000000, fun _ => 0, true⟩

/-- `pcimem r 0x100 w*4`. -/
def fourWords : List (List UInt8) :=
  [[0x70], [0x72], [0x30, 0x78, 0x31, 0x30, 0x30], [0x77, 0x2A, 0x34]]

/-- Four words at offset 256 are read inside one page. -/
theorem accesses_mapped_fourWords :
    parse fourWords = .ok ⟨0x100, .w, 4, none⟩ /\
    Exists fun trace => main 4 zeroResource fourWords = some trace /\
      TouchesMapped ⟨0x100, .w, 4, none⟩ trace := by
  have parsed : parse fourWords = .ok ⟨0x100, .w, 4, none⟩ := by rfl
  rcases accesses_mapped_iff zeroResource fourWords ⟨0x100, .w, 4, none⟩ parsed with
    ⟨trace, returned, touches⟩
  refine ⟨parsed, trace, returned 4 (by decide), touches.mpr fun _ => ⟨fun _ => by decide, ?_⟩⟩
  intro noItems
  exact absurd noItems (by decide)

/-- `pcimem r 0x100 w*0 1`. -/
def noWordWritten : List (List UInt8) :=
  [[0x70], [0x72], [0x30, 0x78, 0x31, 0x30, 0x30], [0x77, 0x2A, 0x30], [0x31]]

/-- With a count of zero and a data argument, the value is stored through a
pointer that was never set. -/
theorem store_without_item :
    Not (forall (env : Environment) (argv : List (List UInt8)) (command : Command),
      parse argv = .ok command -> forall fuel trace, main fuel env argv = some trace ->
        TouchesMapped command trace) := by
  intro always
  have touches := always zeroResource noWordWritten ⟨0x100, .w, 0, some 1⟩ rfl 0 _ rfl
  rcases touches.inside ⟨.store, none⟩ List.mem_cons_self with ⟨_, _, _, _, _, address, _⟩
  cases address

end Pcimem
end KernelStudy
