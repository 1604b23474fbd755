import KernelStudy.Foundations.BoundedLoop
import KernelStudy.Foundations.ModuleLifecycle
import KernelStudy.AddressSpace.Memmap

namespace KernelStudy
namespace DriverLifecycle

open LabelledRun ModuleLifecycle

/-!
# Loading and unloading the other modules

The smaller modules of the repository acquire one or two resources each, and
most of them do not test their last allocation.  A null pointer that is used
at once kills the init function with everything acquired before it in place;
one that is tested too late, or answered by returning 0, leaves a loaded module
without its device.  The `memmap` driver also reserves every page of its area in a
loop that counts the pages, and its exit function clears them in a loop that runs
until a pointer has reached the end of the area.  Both ask `vmalloc_to_page` which
page is meant.

Only the interrupt module releases less than it has acquired: `testirq_exit`
gives the line back and keeps the memory.
-/

/-! ## The misc driver -/

inductive MiscResource where
  | device | buffer
deriving DecidableEq, Repr

structure MiscCalls where
  miscRegister : Int32
  vmalloc : Bool

/-- `memset` goes through the pointer that `vmalloc` has returned. -/
def mymdevInit (calls : MiscCalls) (held : List MiscResource) : Attempt MiscResource Unit :=
  if calls.miscRegister ≠ 0 then ⟨some calls.miscRegister, (), held⟩
  else if calls.vmalloc = false then ⟨none, (), .device :: held⟩
  else ⟨some 0, (), .buffer :: .device :: held⟩

/-- `misc_deregister` and `vfree`. -/
def mymdevExit (_vars : Unit) : List MiscResource :=
  [.device, .buffer]

def miscModule : LoadableModule MiscResource Unit MiscCalls where
  resources := [.buffer, .device]
  nodup := by decide
  init := mymdevInit
  exit := mymdevExit

theorem misc_load_iff (calls : MiscCalls) (held : List MiscResource) :
    LoadContract miscModule calls held <-> (calls.miscRegister = 0 -> calls.vmalloc = true) := by
  apply loadContract_iff_of_unchecked (List.cons_ne_nil _ _)
  · intro refused
    simp only [miscModule, mymdevInit, if_pos refused, and_self]
  · intro registered absent
    rw [Bool.not_eq_true] at absent
    apply not_loadContract_of_death
    simp only [miscModule, mymdevInit, registered, absent, ne_eq, not_true_eq_false, if_false, if_true]
  · intro registered there
    simp only [miscModule, mymdevInit, registered, there, ne_eq, not_true_eq_false, if_false,
      Bool.true_eq_false, true_and]
    rfl

/-! ## The mapping driver -/

inductive MemmapResource where
  | chrdev | area
  | reserved (page : Nat)
deriving DecidableEq, Repr

/-- The area ends below the end of the address space. -/
structure MemmapCalls where
  registerChrdev : Int32
  vmalloc : UInt64
  fits : vmalloc.toNat + AddressSpace.mapLen.toNat < 2 ^ 64

/-- The variables `kern_virt_addr` of the two loops, with what is held in the first
one and what has been released in the second. -/
structure PageLoop where
  kernVirtAddr : UInt64
  resources : List MemmapResource

/-- `SetPageReserved`; a page that is not there is a fault. -/
def reservePage (area : UInt64) (state : PageLoop) (_i : Nat) : Option PageLoop :=
  (AddressSpace.vmallocToPage area state.kernVirtAddr).map fun page =>
    ⟨state.kernVirtAddr + 4096, .reserved page :: state.resources⟩

/-- Without an area the first turn of the loop asks for the page of address 0. -/
def myMemmapDrvInit (calls : MemmapCalls) (held : List MemmapResource) : Attempt MemmapResource UInt64 :=
  if calls.registerChrdev ≠ 0 then ⟨some calls.registerChrdev, 0, held⟩
  else if calls.vmalloc = 0 then ⟨none, 0, .chrdev :: held⟩
  else
    let held := .area :: .chrdev :: held
    ((List.range AddressSpace.pageCnt).foldlM (reservePage calls.vmalloc) ⟨calls.vmalloc, held⟩).elim
      ⟨none, calls.vmalloc, held⟩ fun state => ⟨some 0, calls.vmalloc, state.resources⟩

def clearGuard (area : UInt64) (state : PageLoop) : Bool :=
  state.kernVirtAddr < area + AddressSpace.mapLen

/-- `ClearPageReserved` -/
def clearBody (area : UInt64) (state : PageLoop) : PageLoop :=
  ⟨state.kernVirtAddr + 4096,
    state.resources ++ (AddressSpace.vmallocToPage area state.kernVirtAddr).toList.map .reserved⟩

/-- The second loop has at most one turn for each byte. -/
@[irreducible]
def turnLimit : Nat :=
  AddressSpace.mapLen.toNat

/-- The pages that the second loop clears. -/
def clearedPages (area : UInt64) : Option (List MemmapResource) :=
  (BoundedLoop.loop (clearGuard area) (clearBody area) turnLimit ⟨area, []⟩).map PageLoop.resources

/-- The pages, then `vfree` and `unregister_chrdev`.  A loop that does not end gives
nothing back. -/
def myMemmapDrvExit (area : UInt64) : List MemmapResource :=
  ((clearedPages area).map fun pages => pages ++ (if area = 0 then [] else [.area]) ++ [.chrdev]).getD []

/-- The pages of the area. -/
def areaPages (count : Nat) : List MemmapResource :=
  (List.range count).map .reserved

theorem areaPages_nodup (count : Nat) : (areaPages count).Nodup := by
  apply List.Nodup.map _ List.nodup_range
  intro first second same
  exact MemmapResource.reserved.inj same

theorem areaPages_succ (count : Nat) : areaPages (count + 1) = areaPages count ++ [.reserved count] := by
  rw [areaPages, List.range_succ, List.map_append, List.map_singleton, areaPages]

def memmapModule : LoadableModule MemmapResource UInt64 MemmapCalls where
  resources := (areaPages AddressSpace.pageCnt).reverse ++ [.area, .chrdev]
  nodup := by
    rw [List.nodup_append]
    refine ⟨List.nodup_reverse.mpr (areaPages_nodup _), by decide, ?_⟩
    intro page listed other isOther same
    rcases List.mem_map.mp (List.mem_reverse.mp listed) with ⟨number, _, isPage⟩
    subst same isPage
    simp only [List.mem_cons, List.not_mem_nil, or_false, reduceCtorEq] at isOther
  init := myMemmapDrvInit
  exit := myMemmapDrvExit

theorem memmapModule_resources :
    memmapModule.resources = (areaPages AddressSpace.pageCnt).reverse ++ [.area, .chrdev] :=
  rfl

theorem memmapModule_init (calls : MemmapCalls) (held : List MemmapResource) :
    memmapModule.init calls held = myMemmapDrvInit calls held :=
  rfl

theorem memmapModule_exit (area : UInt64) : memmapModule.exit area = myMemmapDrvExit area :=
  rfl

section Pages

variable (area : UInt64)

theorem toNat_pages {count : Nat} (inside : count ≤ AddressSpace.pageCnt) :
    (UInt64.ofNat (4096 * count)).toNat = 4096 * count := by
  have length : AddressSpace.pageCnt = 1000 := rfl
  exact UInt64.toNat_ofNat_of_lt' (by simp only [UInt64.size]; omega)

/-- The page that a loop meets after `count` turns. -/
theorem vmallocToPage_turn {count : Nat} (inside : count < AddressSpace.pageCnt) :
    AddressSpace.vmallocToPage area (area + UInt64.ofNat (4096 * count)) = some count := by
  have number : AddressSpace.pageCnt = 1000 := rfl
  have length : AddressSpace.mapLen.toNat = 4096000 := rfl
  have distance := toNat_pages (Nat.le_of_lt inside)
  rw [AddressSpace.vmallocToPage_add area (by omega), distance, Nat.mul_div_cancel_left count (by decide)]

theorem next_turn (count : Nat) :
    area + UInt64.ofNat (4096 * count) + 4096 = area + UInt64.ofNat (4096 * (count + 1)) := by
  rw [Nat.mul_add, UInt64.ofNat_add, ← UInt64.add_assoc]
  rfl

/-- The first loop reserves one page in each turn, and never meets one that is not there. -/
theorem reserve_turns (held : List MemmapResource) {count : Nat} (inside : count ≤ AddressSpace.pageCnt) :
    (List.range count).foldlM (reservePage area) ⟨area, held⟩ =
      some ⟨area + UInt64.ofNat (4096 * count), (areaPages count).reverse ++ held⟩ := by
  induction count with
  | zero =>
      have none_ : area + UInt64.ofNat (4096 * 0) = area := UInt64.add_zero area
      rw [none_]
      rfl
  | succ count inductionHypothesis =>
      rw [List.range_succ, List.foldlM_append, inductionHypothesis (Nat.le_of_succ_le inside),
        areaPages_succ, List.reverse_append]
      simp only [List.foldlM_cons, List.foldlM_nil, Option.bind_eq_bind, Option.bind_some, reservePage,
        vmallocToPage_turn area (Nat.lt_of_succ_le inside), Option.map_some, next_turn]
      rfl

/-- What the second loop keeps: it has cleared the pages behind its pointer. -/
def Cleared (state : PageLoop) : Prop :=
  Exists fun count => count ≤ AddressSpace.pageCnt /\
    state = ⟨area + UInt64.ofNat (4096 * count), areaPages count⟩

variable {area} (fits : area.toNat + AddressSpace.mapLen.toNat < 2 ^ 64)

include fits

theorem toNat_pointer {count : Nat} (inside : count ≤ AddressSpace.pageCnt) :
    (area + UInt64.ofNat (4096 * count)).toNat = area.toNat + 4096 * count := by
  have number : AddressSpace.pageCnt = 1000 := rfl
  have length : AddressSpace.mapLen.toNat = 4096000 := rfl
  rw [UInt64.toNat_add, toNat_pages inside]
  omega

theorem clearGuard_iff {count : Nat} (inside : count ≤ AddressSpace.pageCnt) (pages : List MemmapResource) :
    clearGuard area ⟨area + UInt64.ofNat (4096 * count), pages⟩ = true <-> count < AddressSpace.pageCnt := by
  have number : AddressSpace.pageCnt = 1000 := rfl
  have length : AddressSpace.mapLen.toNat = 4096000 := rfl
  have last : (area + AddressSpace.mapLen).toNat = area.toNat + AddressSpace.mapLen.toNat := by
    rw [UInt64.toNat_add]
    omega
  rw [clearGuard, decide_eq_true_eq, UInt64.lt_iff_toNat_lt, toNat_pointer fits inside, last]
  omega

theorem Cleared.body {state : PageLoop} (cleared : Cleared area state)
    (unfinished : clearGuard area state = true) :
    Cleared area (clearBody area state) /\
      (clearBody area state).kernVirtAddr.toNat = state.kernVirtAddr.toNat + 4096 /\
      state.kernVirtAddr.toNat < area.toNat + AddressSpace.mapLen.toNat := by
  have number : AddressSpace.pageCnt = 1000 := rfl
  have length : AddressSpace.mapLen.toNat = 4096000 := rfl
  rcases cleared with ⟨count, inside, same⟩
  subst state
  have more := (clearGuard_iff fits inside _).mp unfinished
  have next := toNat_pointer fits more
  have here := toNat_pointer fits inside
  refine ⟨⟨count + 1, more, ?_⟩, ?_, ?_⟩
  · rw [clearBody, vmallocToPage_turn area more, next_turn, areaPages_succ]
    rfl
  · rw [clearBody, next_turn, next, here]
    omega
  · rw [here, length]
    omega

/-- The second loop ends, and clears exactly the pages of the area. -/
theorem clear_turns {fuel : Nat} (enough : AddressSpace.mapLen.toNat ≤ fuel) :
    Exists fun final => BoundedLoop.loop (clearGuard area) (clearBody area) fuel ⟨area, []⟩ = some final /\
      final.resources = areaPages AddressSpace.pageCnt := by
  have begins : Cleared area ⟨area, []⟩ := by
    have none_ : area + UInt64.ofNat (4096 * 0) = area := UInt64.add_zero area
    refine ⟨0, Nat.zero_le _, ?_⟩
    rw [none_]
    rfl
  have decreases : forall state, Cleared area state -> clearGuard area state = true ->
      area.toNat + AddressSpace.mapLen.toNat - (clearBody area state).kernVirtAddr.toNat <
        area.toNat + AddressSpace.mapLen.toNat - state.kernVirtAddr.toNat := by
    intro state cleared unfinished
    have turn := (cleared.body fits unfinished).2
    omega
  rcases BoundedLoop.loop_total (clearGuard area) (clearBody area) (Cleared area)
    (fun state => area.toNat + AddressSpace.mapLen.toNat - state.kernVirtAddr.toNat)
    (fun state cleared unfinished => (cleared.body fits unfinished).1) decreases begins
    (show area.toNat + AddressSpace.mapLen.toNat - area.toNat ≤ fuel by omega) with
    ⟨final, ended, ⟨count, inside, same⟩, finished⟩
  subst final
  have all : ¬ count < AddressSpace.pageCnt :=
    fun more => Bool.false_ne_true (finished.symm.trans ((clearGuard_iff fits inside _).mpr more))
  exact ⟨_, ended, congrArg areaPages (Nat.le_antisymm inside (Nat.le_of_not_lt all))⟩

theorem clearedPages_eq : clearedPages area = some (areaPages AddressSpace.pageCnt) := by
  have enough : AddressSpace.mapLen.toNat ≤ turnLimit := by
    rw [turnLimit]
  rcases clear_turns fits enough with ⟨final, ended, cleared⟩
  rw [clearedPages, ended, Option.map_some, cleared]

end Pages

theorem myMemmapDrvExit_of_cleared {area : UInt64} {pages : List MemmapResource}
    (cleared : clearedPages area = some pages) (there : area ≠ 0) :
    (myMemmapDrvExit area).Perm (pages.reverse ++ [.area, .chrdev]) := by
  rw [myMemmapDrvExit, cleared, Option.map_some, Option.getD_some, if_neg there, List.append_assoc]
  exact (List.reverse_perm pages).symm.append_right _

/-- The exit function gives back what the init function has acquired. -/
theorem myMemmapDrvExit_perm {area : UInt64} (fits : area.toNat + AddressSpace.mapLen.toNat < 2 ^ 64)
    (there : area ≠ 0) : (myMemmapDrvExit area).Perm memmapModule.resources := by
  rw [memmapModule_resources]
  exact myMemmapDrvExit_of_cleared (clearedPages_eq fits) there

theorem myMemmapDrvInit_of_reserved {calls : MemmapCalls} {held : List MemmapResource} {state : PageLoop}
    (registered : calls.registerChrdev = 0) (there : calls.vmalloc ≠ 0)
    (reserved : (List.range AddressSpace.pageCnt).foldlM (reservePage calls.vmalloc)
      ⟨calls.vmalloc, .area :: .chrdev :: held⟩ = some state) :
    myMemmapDrvInit calls held = ⟨some 0, calls.vmalloc, state.resources⟩ := by
  rw [myMemmapDrvInit, if_neg (not_not.mpr registered), if_neg there]
  simp only [reserved, Option.elim_some]

theorem memmap_init_complete {calls : MemmapCalls} (registered : calls.registerChrdev = 0)
    (there : calls.vmalloc ≠ 0) (held : List MemmapResource) :
    myMemmapDrvInit calls held = ⟨some 0, calls.vmalloc, memmapModule.resources ++ held⟩ := by
  have reserved := reserve_turns calls.vmalloc (.area :: .chrdev :: held) (Nat.le_refl AddressSpace.pageCnt)
  rw [myMemmapDrvInit_of_reserved registered there reserved, memmapModule_resources, List.append_assoc,
    List.cons_append, List.cons_append, List.nil_append]

theorem memmap_load_iff (calls : MemmapCalls) (held : List MemmapResource) :
    LoadContract memmapModule calls held <-> (calls.registerChrdev = 0 -> calls.vmalloc ≠ 0) := by
  apply loadContract_iff_of_unchecked (List.append_ne_nil_of_right_ne_nil _ (List.cons_ne_nil _ _))
  · intro refused
    simp only [memmapModule, myMemmapDrvInit, if_pos refused, and_self]
  · intro registered absent
    apply not_loadContract_of_death
    simp only [memmapModule, myMemmapDrvInit, registered, not_not.mp absent, ne_eq, not_true_eq_false, if_false,
      if_true]
  · intro registered there
    rw [memmapModule_init, memmap_init_complete registered there held]
    exact ⟨rfl, rfl⟩

/-! ## The physical memory device -/

inductive DramResource where
  | chrdev
deriving DecidableEq, Repr

/-- `return register_chrdev( my_major, modname, &my_fops );` -/
def dramInit (registerChrdev : Int32) (held : List DramResource) : Attempt DramResource Unit :=
  ⟨some registerChrdev, (), if registerChrdev = 0 then .chrdev :: held else held⟩

def dramModule : LoadableModule DramResource Unit Int32 where
  resources := [.chrdev]
  nodup := by decide
  init := dramInit
  exit := fun _ => [.chrdev]

theorem dram_load (registerChrdev : Int32) (held : List DramResource) :
    LoadContract dramModule registerChrdev held := by
  by_cases registered : registerChrdev = 0
  · apply loadContract_of_success
    · simp only [dramModule, dramInit, registered]
    · simp only [dramModule, dramInit, registered, if_true]
      rfl
  · apply loadContract_of_error (List.cons_ne_nil _ _) rfl registered
    simp only [dramModule, dramInit, if_neg registered]

/-! ## The page walk -/

inductive PageResource where
  | page
deriving DecidableEq, Repr

/-- The variable is `vaddr`, and a failed allocation is answered by 0. -/
def v2pInit (getFreePage : UInt64) (held : List PageResource) : Attempt PageResource UInt64 :=
  if getFreePage = 0 then ⟨some 0, getFreePage, held⟩ else ⟨some 0, getFreePage, .page :: held⟩

/-- `free_page(0)` does nothing. -/
def v2pExit (vaddr : UInt64) : List PageResource :=
  if vaddr = 0 then [] else [.page]

def pageModule : LoadableModule PageResource UInt64 UInt64 where
  resources := [.page]
  nodup := by decide
  init := v2pInit
  exit := v2pExit

theorem page_load_iff (getFreePage : UInt64) (held : List PageResource) :
    LoadContract pageModule getFreePage held <-> getFreePage ≠ 0 := by
  by_cases absent : getFreePage = 0
  · refine ⟨fun contract => absurd contract ?_, fun there => absurd absent there⟩
    apply not_loadContract_of_absent (List.cons_ne_nil _ _)
    · simp only [pageModule, v2pInit, if_pos absent]
    · simp only [pageModule, v2pInit, if_pos absent]
  · refine ⟨fun _ => absent, fun _ => loadContract_of_success ?_ ?_⟩
    · simp only [pageModule, v2pInit, if_neg absent]
    · simp only [pageModule, v2pInit, if_neg absent]
      rfl

/-! ## The two timers -/

inductive TimerResource where
  | timer
deriving DecidableEq, Repr

def monitorEinval : Int32 := 22

/-- The symbol `avenrun` is looked up, and the timer is started. -/
def monitorInit (kallsymsLookupName : Bool) (held : List TimerResource) : Attempt TimerResource Unit :=
  if kallsymsLookupName = false then ⟨some (-monitorEinval), (), held⟩ else ⟨some 0, (), .timer :: held⟩

/-- `hrtimer_cancel` -/
def monitorModule : LoadableModule TimerResource Unit Bool where
  resources := [.timer]
  nodup := by decide
  init := monitorInit
  exit := fun _ => [.timer]

theorem monitor_load (kallsymsLookupName : Bool) (held : List TimerResource) :
    LoadContract monitorModule kallsymsLookupName held := by
  cases kallsymsLookupName with
  | false => exact loadContract_of_error (List.cons_ne_nil _ _) rfl (by decide) rfl
  | true => exact loadContract_of_success rfl rfl

/-- The timer is allocated and set up; `timer_setup` uses the pointer at once. -/
def mytimerInit (kmalloc : Bool) (held : List TimerResource) : Attempt TimerResource Unit :=
  if kmalloc = false then ⟨none, (), held⟩ else ⟨some 0, (), .timer :: held⟩

/-- `del_timer` and `kfree` -/
def heartbeatModule : LoadableModule TimerResource Unit Bool where
  resources := [.timer]
  nodup := by decide
  init := mytimerInit
  exit := fun _ => [.timer]

theorem heartbeat_load_iff (kmalloc : Bool) (held : List TimerResource) :
    LoadContract heartbeatModule kmalloc held <-> kmalloc = true := by
  cases kmalloc with
  | false => exact ⟨fun contract => absurd contract (not_loadContract_of_death rfl),
      fun impossible => absurd impossible Bool.false_ne_true⟩
  | true => exact ⟨fun _ => rfl, fun _ => loadContract_of_success rfl rfl⟩

/-! ## Runs of all of them -/

/-- Whatever is held before, and whichever calls fail at whichever attempts, the
operations of a run of loads and unloads keep their contracts exactly when each
attempt meets the condition of its module: the misc and the mapping driver need
memory whenever they have been registered, the page walk needs its page, the
heartbeat timer its memory; the memory device and the load monitor need
nothing.  In particular the loop in the exit function of the mapping driver ends and
clears every page that the loop in its init function has reserved. -/
theorem modules_keep_contract_iff :
    (forall held operations,
      RunMeets (step miscModule) (Keeps miscModule) (start held) operations <->
        RunMeets (step miscModule)
          (CallsMeet fun calls => calls.miscRegister = 0 -> calls.vmalloc = true) (start held) operations) /\
    (forall held operations,
      RunMeets (step memmapModule) (Keeps memmapModule) (start held) operations <->
        RunMeets (step memmapModule)
          (CallsMeet fun calls => calls.registerChrdev = 0 -> calls.vmalloc ≠ 0) (start held)
          operations) /\
    (forall held operations,
      RunMeets (step pageModule) (Keeps pageModule) (start held) operations <->
        RunMeets (step pageModule) (CallsMeet fun getFreePage => getFreePage ≠ 0) (start held)
          operations) /\
    (forall held operations,
      RunMeets (step heartbeatModule) (Keeps heartbeatModule) (start held) operations <->
        RunMeets (step heartbeatModule) (CallsMeet fun kmalloc => kmalloc = true) (start held)
          operations) /\
    (forall held operations,
      RunMeets (step dramModule) (Keeps dramModule) (start held) operations) /\
    forall held operations,
      RunMeets (step monitorModule) (Keeps monitorModule) (start held) operations := by
  refine ⟨?_, ?_, ?_, ?_, ?_, ?_⟩
  · exact keeps_iff_callsMeet (fun _ => True) misc_load_iff (fun _ _ _ _ => trivial)
      (fun _ _ => List.Perm.swap _ _ _)
  · apply keeps_iff_callsMeet
      (fun area => area ≠ 0 /\ area.toNat + AddressSpace.mapLen.toNat < 2 ^ 64) memmap_load_iff
    · intro calls held returned condition
      by_cases registered : calls.registerChrdev = 0
      · rw [memmapModule_init, memmap_init_complete registered (condition registered) held]
        exact ⟨condition registered, calls.fits⟩
      · simp only [memmapModule, myMemmapDrvInit, if_pos registered] at returned
        exact absurd (Option.some.inj returned) registered
    · intro area ready
      rw [memmapModule_exit]
      exact myMemmapDrvExit_perm ready.2 ready.1
  · apply keeps_iff_callsMeet (fun vaddr => vaddr ≠ 0) page_load_iff
    · intro getFreePage held _returned there
      simp only [pageModule, v2pInit, if_neg there]
      exact there
    · intro vaddr there
      simp only [pageModule, v2pExit, if_neg there]
      exact List.Perm.refl _
  · exact keeps_iff_callsMeet (fun _ => True) heartbeat_load_iff (fun _ _ _ _ => trivial)
      (fun _ _ => List.Perm.refl _)
  · exact keeps_always dram_load fun _ => List.Perm.refl _
  · exact keeps_always monitor_load fun _ => List.Perm.refl _

/-! ## The interrupt module -/

inductive IrqResource where
  | line | devData
deriving DecidableEq, Repr

structure IrqCalls where
  kzalloc : Bool
  requestIrq : Int32

def testirqInit (calls : IrqCalls) (held : List IrqResource) : Attempt IrqResource Unit :=
  if calls.kzalloc = false then ⟨some (-1), (), held⟩
  else
    let held := .devData :: held
    if calls.requestIrq ≠ 0 then ⟨some (-1), (), held.erase .devData⟩
    else ⟨some 0, (), .line :: held⟩

/-- `free_irq` and `tasklet_kill`; the memory behind `dev_data` is not freed. -/
def testirqExit (_vars : Unit) : List IrqResource :=
  [.line]

def irqModule : LoadableModule IrqResource Unit IrqCalls where
  resources := [.line, .devData]
  nodup := by decide
  init := testirqInit
  exit := testirqExit

/-- The two ways in which an attempt ends. -/
theorem irq_init_cases (calls : IrqCalls) (held : List IrqResource) :
    irqModule.init calls held = ⟨some (-1), (), held⟩ \/
      irqModule.init calls held = ⟨some 0, (), .line :: .devData :: held⟩ := by
  cases memory : calls.kzalloc with
  | false =>
      left
      simp only [irqModule, testirqInit, memory, if_true]
  | true =>
      by_cases requested : calls.requestIrq = 0
      · right
        simp only [irqModule, testirqInit, memory, requested, Bool.true_eq_false, ne_eq,
          not_true_eq_false, if_false]
      · left
        simp only [irqModule, testirqInit, memory, Bool.true_eq_false, ne_eq, requested,
          not_false_eq_true, if_true, if_false, List.erase_cons_head]

theorem irq_load (calls : IrqCalls) (held : List IrqResource) : LoadContract irqModule calls held := by
  rcases irq_init_cases calls held with failed | loaded
  · exact loadContract_of_error (List.cons_ne_nil _ _) (by rw [failed]) (by decide) (by rw [failed])
  · exact loadContract_of_success (by rw [loaded]) (by rw [loaded]; rfl)

/-- The number of unloads in a run. -/
def unloads (operations : List (Operation IrqCalls)) : Nat :=
  operations.countP fun operation => match operation with
    | .load _ => false
    | .unload => true

/-- What is held after some operations on top of `before`. -/
structure Leaked (before : List IrqResource) (operations : List (Operation IrqCalls))
    (state : State IrqResource Unit) : Prop where
  memory : state.held.count .devData =
    before.count .devData + unloads operations + state.loaded.toList.length
  lines : state.held.count .line = before.count .line + state.loaded.toList.length
  alive : state.dead = false

theorem leaked_step (before : List IrqResource) (operations : List (Operation IrqCalls))
    (state : State IrqResource Unit) (operation : Operation IrqCalls) (next : State IrqResource Unit)
    (leaked : Leaked before operations state) (taken : step irqModule state operation = some next) :
    Leaked before (operations ++ [operation]) next := by
  have memory := leaked.memory
  have lines := leaked.lines
  cases operation with
  | load calls =>
      have same : unloads (operations ++ [.load calls]) = unloads operations := by
        rw [unloads, List.countP_append]
        rfl
      simp only [step, Option.ite_none_right_eq_some, Option.some.injEq] at taken
      rcases taken with ⟨⟨unloaded, _alive⟩, result⟩
      rw [Option.isNone_iff_eq_none.mp unloaded] at memory lines
      rcases irq_init_cases calls state.held with failed | loaded
      · rw [failed] at result
        subst next
        exact ⟨by rw [same]; exact memory, lines, rfl⟩
      · rw [loaded] at result
        subst next
        refine ⟨?_, ?_, rfl⟩
        · rw [same]
          simp only [List.count_cons, memory, if_true]
          rfl
        · simp only [List.count_cons, lines, if_true]
          rfl
  | unload =>
      have more : unloads (operations ++ [.unload]) = unloads operations + 1 := by
        rw [unloads, List.countP_append]
        rfl
      simp only [step, Option.map_eq_some_iff] at taken
      rcases taken with ⟨vars, wasLoaded, result⟩
      rw [wasLoaded] at memory lines
      subst next
      simp only [Option.toList_some, List.length_singleton] at memory lines
      refine ⟨?_, ?_, rfl⟩
      · rw [more]
        simp only [releaseAll, irqModule, testirqExit, List.foldl_cons, List.foldl_nil,
          Option.toList_none, List.length_nil]
        rw [List.count_erase_of_ne (by decide), memory]
        omega
      · simp only [releaseAll, irqModule, testirqExit, List.foldl_cons, List.foldl_nil,
          Option.toList_none, List.length_nil]
        rw [List.count_erase_self, lines]
        omega

/-- The exit function does not release what the init function has acquired. -/
theorem irq_leaks (vars : Unit) : Not ((irqModule.exit vars).Perm irqModule.resources) := by
  intro once
  have count := once.length_eq
  simp only [irqModule, testirqExit, List.length_cons, List.length_nil] at count
  omega

theorem keeps_iff_no_unload {before : List IrqResource} {operations : List (Operation IrqCalls)}
    {final : State IrqResource Unit} (reached : run (step irqModule) (start before) operations = some final) :
    RunMeets (step irqModule) (Keeps irqModule) (start before) operations <-> unloads operations = 0 := by
  rw [keeps_iff_loadsMeet (fun calls held => iff_of_true (irq_load calls held) trivial)
    (fun calls held _ => irq_leaks (irqModule.init calls held).vars), unloads, List.countP_eq_zero]
  refine runMeets_iff_forall (step irqModule) ?_ reached
  intro state operation
  cases operation with
  | load calls => exact iff_of_true trivial Bool.false_ne_true
  | unload => exact ⟨False.elim, fun loaded => loaded rfl⟩

/-- Every unload of the interrupt module leaks the memory of its device.  After
every run of loads and unloads, with any failures, exactly one more piece of
memory is held for each unload, and one for a module that is still loaded; the
interrupt line is held only while the module is loaded.  So the operations keep
their contracts exactly when nothing is unloaded. -/
theorem interrupt_memory_leaks (before : List IrqResource) (operations : List (Operation IrqCalls))
    (final : State IrqResource Unit)
    (reached : run (step irqModule) (start before) operations = some final) :
    final.held.count .devData =
        before.count .devData + unloads operations + final.loaded.toList.length /\
      final.held.count .line = before.count .line + final.loaded.toList.length /\
      (RunMeets (step irqModule) (Keeps irqModule) (start before) operations <-> unloads operations = 0) := by
  have leaked := history_of_run (step irqModule) (Leaked before) ⟨rfl, rfl, rfl⟩ (leaked_step before) reached
  exact ⟨leaked.memory, leaked.lines, keeps_iff_no_unload reached⟩

/-- Two cycles with a failed attempt between them leave two pieces of memory. -/
theorem interrupt_memory_leaks_twice :
    Exists fun final => run (step irqModule) (start [])
        [.load ⟨true, 0⟩, .unload, .load ⟨true, -16⟩, .load ⟨true, 0⟩, .unload] = some final /\
      final.held.count .devData = 2 := by
  refine ⟨⟨[.devData, .devData], none, false⟩, by rfl, ?_⟩
  exact (interrupt_memory_leaks []
    [.load ⟨true, 0⟩, .unload, .load ⟨true, -16⟩, .load ⟨true, 0⟩, .unload] _ (by rfl)).1

end DriverLifecycle
end KernelStudy
