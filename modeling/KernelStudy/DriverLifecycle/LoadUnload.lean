import KernelStudy.Foundations.ModuleLifecycle
import KernelStudy.BlockDevice.RamDisk

namespace KernelStudy
namespace DriverLifecycle

open LabelledRun ModuleLifecycle

/-!
# Loading and unloading the block and the character driver

Every kernel call of an init function may fail at any attempt.  `my_init`
undoes its acquisitions before each of its returns, and `mycdev_init` jumps to
labels at its end.  Both miss some: the request queue of the block driver is
not cleaned up when a later call fails, and the character driver returns the 0
of its first call when `cdev_alloc` fails, and does not test its last call.

The character driver also loses the structure of its device.  `cdev_alloc` gives
it a kobject type that frees it with its last reference, and `cdev_init`, which is
for structures of the driver's own, replaces that type by one that does not.

The life cycle of both is the one of `ModuleLifecycle`.  A module is loaded
with fresh static variables.
-/

/-! ## The block driver -/

/-- The resources that `my_exit` releases: `del_gendisk` with `put_disk`,
`unregister_blkdev`, `blk_cleanup_queue` and `vfree`. -/
def myExit (_driver : BlockDevice.Driver) : List BlockDevice.Resource :=
  [.disk, .major, .requestQueue, .ramdisk]

/-- An attempt depends on the outcomes of the calls and on the parameter
`size`. -/
def blockModule :
    LoadableModule BlockDevice.Resource BlockDevice.Driver (BlockDevice.InitCalls × Int32) where
  resources := [.disk, .major, .requestQueue, .ramdisk]
  nodup := by decide
  init := fun args held =>
    let result := BlockDevice.myInit args.1 args.2 ⟨0, 0, 0, held⟩
    ⟨some result.1, result.2, result.2.held⟩
  exit := myExit

/-- Once the disk memory and the request queue are there, the remaining calls
succeed. -/
def BlockCallsSucceed (args : BlockDevice.InitCalls × Int32) : Prop :=
  args.1.vmalloc (BlockDevice.diskSizeOf args.2).toInt64.toUInt64 = true ->
    args.1.blkInitQueue = true -> 0 ≤ args.1.registerBlkdev /\ args.1.allocDisk = true

instance (args : BlockDevice.InitCalls × Int32) : Decidable (BlockCallsSucceed args) :=
  inferInstanceAs (Decidable (_ -> _ -> _ /\ _))

section BlockAttempt

variable {calls : BlockDevice.InitCalls} {diskmb : Int32} (held : List BlockDevice.Resource)

/-- Without memory for the disk nothing is acquired. -/
theorem block_init_no_memory
    (memory : calls.vmalloc (BlockDevice.diskSizeOf diskmb).toInt64.toUInt64 = false) :
    (blockModule.init (calls, diskmb) held).ret = some (-BlockDevice.enomem) /\
      (blockModule.init (calls, diskmb) held).held = held := by
  simp only [blockModule, BlockDevice.myInit, if_pos memory, and_self]

variable (memory : calls.vmalloc (BlockDevice.diskSizeOf diskmb).toInt64.toUInt64 = true)

include memory

theorem block_init_no_queue (queue : calls.blkInitQueue = false) :
    (blockModule.init (calls, diskmb) held).ret = some (-BlockDevice.enomem) /\
      (blockModule.init (calls, diskmb) held).held = held := by
  simp only [blockModule, BlockDevice.myInit, memory, queue, Bool.true_eq_false, if_true, if_false,
    BlockDevice.Driver.acquire, BlockDevice.Driver.release, List.erase_cons_head, and_self]

variable (queue : calls.blkInitQueue = true)

include queue

/-- The queue stays although the registration has failed. -/
theorem block_init_unregistered (refused : calls.registerBlkdev < 0) :
    (blockModule.init (calls, diskmb) held).ret = some calls.registerBlkdev /\
      (blockModule.init (calls, diskmb) held).held = .requestQueue :: held := by
  simp only [blockModule, BlockDevice.myInit, memory, queue, Bool.true_eq_false, if_false,
    BlockDevice.Driver.acquire, BlockDevice.Driver.release, if_pos refused, true_and]
  rfl

variable (registered : Not (calls.registerBlkdev < 0))

include registered

/-- The queue stays although there is no disk. -/
theorem block_init_no_disk (disk : calls.allocDisk = false) :
    (blockModule.init (calls, diskmb) held).ret = some (-BlockDevice.enomem) /\
      (blockModule.init (calls, diskmb) held).held = .requestQueue :: held := by
  simp only [blockModule, BlockDevice.myInit, memory, queue, disk, Bool.true_eq_false, if_true,
    if_false, BlockDevice.Driver.acquire, BlockDevice.Driver.release, if_neg registered, true_and]
  rfl

theorem block_init_complete (disk : calls.allocDisk = true) :
    (blockModule.init (calls, diskmb) held).ret = some 0 /\
      (blockModule.init (calls, diskmb) held).held = blockModule.resources ++ held := by
  simp only [blockModule, BlockDevice.myInit, memory, queue, disk, Bool.true_eq_false, if_false,
    BlockDevice.Driver.acquire, if_neg registered, true_and]
  rfl

end BlockAttempt

/-- The contract of one attempt of the block driver. -/
theorem block_load_iff (args : BlockDevice.InitCalls × Int32) (held : List BlockDevice.Resource) :
    LoadContract blockModule args held <-> BlockCallsSucceed args := by
  rcases args with ⟨calls, diskmb⟩
  have nonempty : blockModule.resources ≠ [] := nofun
  have outOfMemory : -BlockDevice.enomem ≠ 0 := by decide
  cases memory : calls.vmalloc (BlockDevice.diskSizeOf diskmb).toInt64.toUInt64 with
  | false =>
      rcases block_init_no_memory held memory with ⟨returned, kept⟩
      exact ⟨fun _ there => absurd (memory.symm.trans there) nofun,
        fun _ => loadContract_of_error nonempty returned outOfMemory kept⟩
  | true =>
      cases queue : calls.blkInitQueue with
      | false =>
          rcases block_init_no_queue held memory queue with ⟨returned, kept⟩
          exact ⟨fun _ _ there => absurd (queue.symm.trans there) nofun,
            fun _ => loadContract_of_error nonempty returned outOfMemory kept⟩
      | true =>
          by_cases refused : calls.registerBlkdev < 0
          · rcases block_init_unregistered held memory queue refused with ⟨returned, grown⟩
            exact ⟨fun contract => absurd contract
                (not_loadContract_of_leak returned (Int32.ne_of_lt refused) grown),
              fun succeed => absurd (succeed memory queue).1 (Int32.not_le.mpr refused)⟩
          · cases disk : calls.allocDisk with
            | false =>
                rcases block_init_no_disk held memory queue refused disk with ⟨returned, grown⟩
                exact ⟨fun contract => absurd contract
                    (not_loadContract_of_leak returned outOfMemory grown),
                  fun succeed => absurd (disk.symm.trans (succeed memory queue).2) nofun⟩
            | true =>
                rcases block_init_complete held memory queue refused disk with ⟨returned, complete⟩
                exact ⟨fun _ _ _ => ⟨Int32.not_lt.mp refused, disk⟩,
                  fun _ => loadContract_of_success returned complete⟩

/-! ## The character driver -/

/-- The structure that `cdev_alloc` allocates and the range that `cdev_add` enters
into the map of devices are held apart. -/
inductive CdevResource where
  | region | cdev | added | buffer
deriving DecidableEq, Repr

/-- The kobject type of a `cdev`: with the last reference the first one frees the
structure, the second one leaves it alone. -/
inductive CdevType where
  | dynamic | default
deriving DecidableEq, Repr

/-- The outcomes of the kernel calls of one `mycdev_init`; the two codes are
the return values of the calls. -/
structure CdevCalls where
  allocChrdevRegion : Int32
  cdevAlloc : Bool
  cdevAdd : Int32
  vmalloc : Bool
deriving DecidableEq, Repr

/-- `my_cdev` with the type of its structure, and whether `pbuf` is set. -/
structure CdevVars where
  myCdev : Option CdevType
  pbuf : Bool
deriving DecidableEq, Repr

/-- `cdev_init` sets the type whatever it was. -/
def cdevInit (_type : CdevType) : CdevType :=
  .default

/-- What `cdev_del` releases: the range, and with the only reference the structure if
its type says so. -/
def cdevDel : CdevType -> List CdevResource
  | .dynamic => [.added, .cdev]
  | .default => [.added]

def mycdevInit (calls : CdevCalls) (held : List CdevResource) : Attempt CdevResource CdevVars :=
  let ret := calls.allocChrdevRegion
  if ret ≠ 0 then ⟨some ret, ⟨none, false⟩, held⟩
  else
    let held := .region :: held
    if calls.cdevAlloc = false then
      -- `goto unregister_chrdev`, with the `ret` of the call above
      ⟨some ret, ⟨none, false⟩, held.erase .region⟩
    else
      let held := .cdev :: held
      let type := cdevInit .dynamic
      let ret := calls.cdevAdd
      if ret ≠ 0 then
        -- `goto cdev_fail`; there is no range to remove yet
        ⟨some ret, ⟨some type, false⟩, (releaseAll held ((cdevDel type).erase .added)).erase .region⟩
      else
        let held := .added :: held
        if calls.vmalloc = false then
          -- `memset` through a null pointer
          ⟨none, ⟨some type, false⟩, held⟩
        else ⟨some 0, ⟨some type, true⟩, .buffer :: held⟩

/-- The resources that `mycdev_exit` releases; `vfree(NULL)` does nothing. -/
def mycdevExit (vars : CdevVars) : List CdevResource :=
  (match vars.myCdev with
    | some type => cdevDel type
    | none => []) ++ .region :: (if vars.pbuf then [.buffer] else [])

def cdevModule : LoadableModule CdevResource CdevVars CdevCalls where
  resources := [.buffer, .added, .cdev, .region]
  nodup := by decide
  init := mycdevInit
  exit := mycdevExit

/-- Once the region is there, all other calls succeed. -/
def CdevCallsSucceed (calls : CdevCalls) : Prop :=
  calls.allocChrdevRegion = 0 -> calls.cdevAlloc = true /\ calls.cdevAdd = 0 /\ calls.vmalloc = true

instance (calls : CdevCalls) : Decidable (CdevCallsSucceed calls) :=
  inferInstanceAs (Decidable (_ -> _ /\ _ /\ _))

section CdevAttempt

variable {calls : CdevCalls} (held : List CdevResource)

theorem cdev_init_no_region (refused : calls.allocChrdevRegion ≠ 0) :
    mycdevInit calls held = ⟨some calls.allocChrdevRegion, ⟨none, false⟩, held⟩ := by
  rw [mycdevInit, if_pos refused]

variable (region : calls.allocChrdevRegion = 0)

include region

/-- The function gives the region back and returns 0. -/
theorem cdev_init_no_cdev (cdev : calls.cdevAlloc = false) :
    mycdevInit calls held = ⟨some 0, ⟨none, false⟩, held⟩ := by
  simp only [mycdevInit, region, ne_eq, not_true_eq_false, if_false, if_pos cdev,
    List.erase_cons_head]

variable (cdev : calls.cdevAlloc = true)

include cdev

/-- The function gives the region back, and the structure stays. -/
theorem cdev_init_not_added (refused : calls.cdevAdd ≠ 0) :
    mycdevInit calls held = ⟨some calls.cdevAdd, ⟨some .default, false⟩, .cdev :: held⟩ := by
  simp only [mycdevInit, region, cdev, ne_eq, not_true_eq_false, Bool.true_eq_false, if_false,
    if_pos refused, cdevInit, cdevDel, List.erase_cons_head, releaseAll, List.foldl_nil]
  rfl

variable (added : calls.cdevAdd = 0)

include added

/-- The function dies with the region and the device in place. -/
theorem cdev_init_no_buffer (buffer : calls.vmalloc = false) :
    mycdevInit calls held = ⟨none, ⟨some .default, false⟩, .added :: .cdev :: .region :: held⟩ := by
  simp only [mycdevInit, region, cdev, added, ne_eq, not_true_eq_false, Bool.true_eq_false, if_false,
    if_pos buffer, cdevInit]

theorem cdev_init_complete (buffer : calls.vmalloc = true) :
    mycdevInit calls held =
      ⟨some 0, ⟨some .default, true⟩, .buffer :: .added :: .cdev :: .region :: held⟩ := by
  simp only [mycdevInit, region, cdev, added, buffer, ne_eq, not_true_eq_false, Bool.true_eq_false,
    if_false, cdevInit]

end CdevAttempt

/-- The contract of one attempt of the character driver. -/
theorem cdev_load_iff (calls : CdevCalls) (held : List CdevResource) :
    LoadContract cdevModule calls held <-> CdevCallsSucceed calls := by
  have nonempty : cdevModule.resources ≠ [] := List.cons_ne_nil _ _
  by_cases region : calls.allocChrdevRegion = 0
  · cases cdev : calls.cdevAlloc with
    | false =>
        have attempt : cdevModule.init calls held = _ := cdev_init_no_cdev held region cdev
        refine ⟨fun contract => absurd contract ?_,
          fun succeed => absurd (cdev.symm.trans (succeed region).1) Bool.false_ne_true⟩
        exact not_loadContract_of_absent nonempty (by rw [attempt]) (by rw [attempt])
    | true =>
        by_cases added : calls.cdevAdd = 0
        · cases buffer : calls.vmalloc with
          | false =>
              have attempt : cdevModule.init calls held = _ :=
                cdev_init_no_buffer held region cdev added buffer
              refine ⟨fun contract => absurd contract (not_loadContract_of_death (by rw [attempt])),
                fun succeed => absurd (buffer.symm.trans (succeed region).2.2) Bool.false_ne_true⟩
          | true =>
              have attempt : cdevModule.init calls held = _ :=
                cdev_init_complete held region cdev added buffer
              refine ⟨fun _ _ => ⟨cdev, added, buffer⟩, fun _ => ?_⟩
              exact loadContract_of_success (by rw [attempt]) (by rw [attempt]; rfl)
        · have attempt : cdevModule.init calls held = _ := cdev_init_not_added held region cdev added
          refine ⟨fun contract => absurd contract ?_, fun succeed => absurd (succeed region).2.1 added⟩
          exact not_loadContract_of_leak (by rw [attempt]) added (by rw [attempt])
  · have attempt : cdevModule.init calls held = _ := cdev_init_no_region held region
    refine ⟨fun _ zero => absurd zero region, fun _ => ?_⟩
    exact loadContract_of_error nonempty (by rw [attempt]) region (by rw [attempt])

/-- A loaded character driver does not give back its structure. -/
theorem cdev_leaks (calls : CdevCalls) (held : List CdevResource)
    (returned : (cdevModule.init calls held).ret = some 0) :
    Not ((cdevModule.exit (cdevModule.init calls held).vars).Perm cdevModule.resources) := by
  have kept : CdevResource.cdev ∉ cdevModule.exit (cdevModule.init calls held).vars := by
    by_cases region : calls.allocChrdevRegion = 0
    · cases cdev : calls.cdevAlloc with
      | false =>
          have attempt : cdevModule.init calls held = _ := cdev_init_no_cdev held region cdev
          rw [attempt]
          show CdevResource.cdev ∉ mycdevExit ⟨none, false⟩
          decide
      | true =>
          by_cases added : calls.cdevAdd = 0
          · cases buffer : calls.vmalloc with
            | false =>
                have attempt : cdevModule.init calls held = _ :=
                  cdev_init_no_buffer held region cdev added buffer
                rw [attempt] at returned
                cases returned
            | true =>
                have attempt : cdevModule.init calls held = _ :=
                  cdev_init_complete held region cdev added buffer
                rw [attempt]
                show CdevResource.cdev ∉ mycdevExit ⟨some .default, true⟩
                decide
          · have attempt : cdevModule.init calls held = _ := cdev_init_not_added held region cdev added
            rw [attempt] at returned
            exact absurd (Option.some.inj returned) added
    · have attempt : cdevModule.init calls held = _ := cdev_init_no_region held region
      rw [attempt] at returned
      exact absurd (Option.some.inj returned) region
  intro once
  exact kept (once.mem_iff.mpr (by decide))

/-! ## Both drivers -/

/-- In every run of loads and unloads of either driver, on top of whatever is
held, all operations keep their contracts iff every attempt to load meets the
condition on its calls and, for the character driver, nothing is unloaded. -/
theorem lifecycles_keep_contract_iff (blockHeld : List BlockDevice.Resource)
    (blockOperations : List (Operation (BlockDevice.InitCalls × Int32)))
    (cdevHeld : List CdevResource) (cdevOperations : List (Operation CdevCalls)) :
    (RunMeets (step blockModule) (Keeps blockModule) (start blockHeld) blockOperations <->
      RunMeets (step blockModule) (CallsMeet BlockCallsSucceed) (start blockHeld) blockOperations) /\
    (RunMeets (step cdevModule) (Keeps cdevModule) (start cdevHeld) cdevOperations <->
      RunMeets (step cdevModule) (LoadsMeet CdevCallsSucceed) (start cdevHeld) cdevOperations) := by
  constructor
  · exact keeps_iff_callsMeet (fun _ => True) block_load_iff (fun _ _ _ _ => trivial)
      (fun _ _ => List.Perm.refl _) blockHeld blockOperations
  · exact keeps_iff_loadsMeet cdev_load_iff cdev_leaks cdevHeld cdevOperations

/-- The registration of the block driver fails, and its request queue stays.
The character driver gets no `cdev`, and is loaded without a device; and it is
loaded and unloaded without any failure, and the structure of its `cdev` stays. -/
theorem lifecycles_break_contract :
    Not (forall operations,
      RunMeets (step blockModule) (Keeps blockModule) (start []) operations) /\
    Not (RunMeets (step cdevModule) (Keeps cdevModule) (start []) [.load ⟨0, false, 0, true⟩]) /\
    Not (RunMeets (step cdevModule) (Keeps cdevModule) (start []) [.load ⟨0, true, 0, true⟩, .unload]) := by
  refine ⟨?_, ?_, ?_⟩
  · intro always
    have kept := (always [.load (⟨fun _ => true, true, -16, true⟩, 1)] _ rfl).1
    have same := kept.error_keeps (-16) rfl (by decide)
    exact absurd same (by decide)
  · intro keeps
    have kept := (keeps _ rfl).1
    exact absurd (kept.success_iff.mp rfl) (by decide)
  · intro keeps
    have kept := ((keeps _ rfl).2 _ rfl).1
    exact absurd (kept _ rfl).once (by decide)

end DriverLifecycle
end KernelStudy
