import KernelStudy.Foundations.MachineWord
import KernelStudy.BlockDevice.RamDisk

namespace KernelStudy
namespace BlockDevice

/-!
# The announced size and the reported geometry

`my_init` does not check its parameter.  The product that gives the size in
bytes wraps in `int`, and every later number is computed from the wrapped
size: the length for `vmalloc`, the capacity, and the geometry that
`HDIO_GETGEO` reports.  Only the log prints the parameter itself.

A size that is negative or zero makes the allocation fail.  The sizes that are
left are the multiples of a megabyte below `2 ^ 31`, and each of them belongs
to one parameter out of every 4096.
-/

/-! ## The size of the disk -/

/-- `vmalloc` returns `NULL` for no bytes, and for more than the kernel's half
of the addresses. -/
structure Refuses (calls : InitCalls) : Prop where
  nothing : calls.vmalloc 0 = false
  huge : forall length, 2 ^ 63 ≤ length.toNat -> calls.vmalloc length = false

/-- The argument of `vmalloc`. -/
def allocatedBytes (driver : Driver) : Nat :=
  driver.diskSize.toInt64.toUInt64.toNat

/-- The number in the message about the capacity. -/
def loggedMegabytes (diskmb : Int32) : Int32 :=
  diskmb

/-- The disk is as large as it is announced to be. -/
structure SizeAnnounced (diskmb : Int32) (driver : Driver) : Prop where
  exact_ : driver.diskSize.toInt = diskmb.toInt * 2 ^ 20
  positive : 0 < driver.diskSize.toInt
  capacity : driver.capacity.toNat * 512 = allocatedBytes driver
  logged : (allocatedBytes driver : Int) = (loggedMegabytes diskmb).toInt * 2 ^ 20

/-- What a load has done that returns 0. -/
theorem myInit_loaded {calls : InitCalls} {diskmb : Int32} {driver : Driver}
    (loaded : (myInit calls diskmb driver).1 = 0) :
    calls.vmalloc (diskSizeOf diskmb).toInt64.toUInt64 = true /\
      (myInit calls diskmb driver).2.capacity =
        (diskSizeOf diskmb / sectorSize.toInt32).toInt64.toUInt64 := by
  have nonzero : -enomem ≠ 0 := by decide
  simp only [myInit] at loaded ⊢
  split at loaded
  · exact absurd loaded nonzero
  rename_i allocated
  split at loaded
  · exact absurd loaded nonzero
  rename_i queue
  split at loaded
  · rename_i negative
    rw [show calls.registerBlkdev = 0 from loaded] at negative
    exact absurd negative (by decide)
  rename_i registered
  split at loaded
  · exact absurd loaded nonzero
  rename_i disk
  rw [if_neg allocated, if_neg queue, if_neg registered, if_neg disk]
  exact ⟨Bool.of_not_eq_false allocated, rfl⟩

/-- A load succeeds only with a wrapped size from one to 2047 megabytes. -/
theorem bmod_of_loaded {calls : InitCalls} (refuses : Refuses calls) {diskmb : Int32} {driver : Driver}
    (loaded : (myInit calls diskmb driver).1 = 0) : 0 < Int.bmod diskmb.toInt 4096 := by
  have allocated := (myInit_loaded loaded).1
  have size := toInt_diskSizeOf diskmb
  by_contra notPositive
  have word := MachineWord.toNat_toUInt64 (diskSizeOf diskmb).toInt64
  have lower := (diskSizeOf diskmb).le_toInt
  rw [Int32.toInt_toInt64] at word
  by_cases zero : Int.bmod diskmb.toInt 4096 = 0
  · have none_ : (diskSizeOf diskmb).toInt64.toUInt64 = 0 := by
      apply UInt64.toNat_inj.mp
      rw [UInt64.toNat_zero]
      omega
    rw [none_, refuses.nothing] at allocated
    cases allocated
  · rw [refuses.huge _ (by omega)] at allocated
    cases allocated

/-- What a successful load computes from the wrapped size. -/
theorem loaded_sizes {calls : InitCalls} {diskmb : Int32} {driver : Driver}
    (loaded : (myInit calls diskmb driver).1 = 0) (positive : 0 < Int.bmod diskmb.toInt 4096) :
    (myInit calls diskmb driver).2.diskSize.toInt = 2 ^ 20 * Int.bmod diskmb.toInt 4096 /\
      (allocatedBytes (myInit calls diskmb driver).2 : Int) = 2 ^ 20 * Int.bmod diskmb.toInt 4096 /\
      ((myInit calls diskmb driver).2.capacity.toNat : Int) = 2 ^ 11 * Int.bmod diskmb.toInt 4096 := by
  have size := toInt_diskSizeOf diskmb
  have literal : sectorSize.toInt32.toInt = 512 := rfl
  have quotient : (diskSizeOf diskmb / sectorSize.toInt32).toInt = 2 ^ 11 * Int.bmod diskmb.toInt 4096 := by
    rw [Int32.toInt_div_of_ne_right _ _ (by decide), literal, size, Int.tdiv_eq_ediv_of_nonneg (by omega)]
    omega
  rw [(myInit_loaded loaded).2, myInit_diskSize, allocatedBytes, myInit_diskSize,
    MachineWord.toNat_widen_of_nonneg (by omega), MachineWord.toNat_widen_of_nonneg (by omega), size,
    quotient]
  exact ⟨rfl, rfl, rfl⟩

/-- Calls that all succeed, except for lengths that `vmalloc` refuses. -/
def grantingCalls : InitCalls :=
  ⟨fun length => decide (0 < length.toNat /\ length.toNat < 2 ^ 63), true, 253, true⟩

theorem grantingCalls_refuses : Refuses grantingCalls := by
  refine ⟨rfl, fun length large => ?_⟩
  exact decide_eq_false (fun both => Nat.not_le_of_lt both.2 large)

theorem grantingCalls_loads {diskmb : Int32} (positive : 0 < Int.bmod diskmb.toInt 4096)
    (driver : Driver) : (myInit grantingCalls diskmb driver).1 = 0 := by
  have size := toInt_diskSizeOf diskmb
  have upper := (diskSizeOf diskmb).toInt_lt
  have bytes := MachineWord.toNat_widen_of_nonneg (show 0 ≤ (diskSizeOf diskmb).toInt by omega)
  have granted : grantingCalls.vmalloc (diskSizeOf diskmb).toInt64.toUInt64 = true :=
    decide_eq_true (by omega)
  simp only [myInit, granted]
  rfl

/-- Every load that succeeds gives a disk of the announced size, exactly for
the parameters from 1 to 2047 and for those that no load succeeds with. -/
theorem size_announced_iff (diskmb : Int32) :
    (forall calls driver, Refuses calls -> (myInit calls diskmb driver).1 = 0 ->
      SizeAnnounced diskmb (myInit calls diskmb driver).2) <->
    (1 ≤ diskmb.toInt /\ diskmb.toInt ≤ 2047) \/ diskmb.toInt % 4096 = 0 \/ 2048 ≤ diskmb.toInt % 4096 := by
  have megabytes : Int.bmod diskmb.toInt 4096 = diskmb.toInt % 4096 \/
      Int.bmod diskmb.toInt 4096 = diskmb.toInt % 4096 - 4096 := by
    rw [Int.bmod_def]
    omega
  have lower := Int.le_bmod (x := diskmb.toInt) (m := 4096) (by decide)
  have upper := Int.bmod_lt (x := diskmb.toInt) (m := 4096) (by decide)
  constructor
  · intro every
    by_cases positive : 0 < Int.bmod diskmb.toInt 4096
    · have loaded := grantingCalls_loads positive ⟨0, 0, 0, []⟩
      have announced := every grantingCalls ⟨0, 0, 0, []⟩ grantingCalls_refuses loaded
      have exact_ := announced.exact_
      rw [(loaded_sizes loaded positive).1] at exact_
      omega
    · omega
  · intro small calls driver refuses loaded
    have positive := bmod_of_loaded refuses loaded
    rcases loaded_sizes loaded positive with ⟨size, allocated, capacity⟩
    have same : Int.bmod diskmb.toInt 4096 = diskmb.toInt := by omega
    rw [same] at size allocated capacity positive
    refine ⟨by omega, by omega, by omega, ?_⟩
    rw [loggedMegabytes]
    omega

/-- With the parameter 4097, a disk of one megabyte is announced as one of
4097. -/
theorem size_wraps :
    Refuses grantingCalls /\ (myInit grantingCalls 4097 ⟨0, 0, 0, []⟩).1 = 0 /\
      ¬ SizeAnnounced 4097 (myInit grantingCalls 4097 ⟨0, 0, 0, []⟩).2 := by
  refine ⟨grantingCalls_refuses, grantingCalls_loads (by decide) _, fun announced => ?_⟩
  have exact_ := announced.exact_
  rw [myInit_diskSize, toInt_diskSizeOf] at exact_
  revert exact_
  decide

/-! ## The reported geometry -/

/-- `struct hd_geometry`, with the widths of its fields. -/
structure HdGeometry where
  heads : UInt8
  sectors : UInt8
  cylinders : UInt16
  start : UInt64
deriving DecidableEq

def hdioGetgeo : UInt32 := 0x0301

def efault : Int32 := 14

def enotty : Int32 := 25

/-- The geometry is faked from the size in bytes. -/
def geometryOf (diskSize : Int32) : HdGeometry :=
  let size : Int64 := diskSize.toInt64
  let size := size &&& ~~~(0x3F : Int64)
  { cylinders := (size >>> 6).toUInt64.toUInt16
    heads := 2
    sectors := 16
    start := 4 }

/-- `my_ioctl`, with the geometry that has reached user space.  `copyToUser`
says whether a copy to the address succeeds. -/
def myIoctl (copyToUser : UInt64 -> Bool) (diskSize : Int32) (cmd : UInt32) (arg : UInt64) :
    Int32 × Option HdGeometry :=
  if cmd = hdioGetgeo then
    if copyToUser arg = false then (-efault, none) else (0, some (geometryOf diskSize))
  else (-enotty, none)

/-- Number of sectors in one cylinder. -/
def HdGeometry.cylinderSectors (geometry : HdGeometry) : Nat :=
  geometry.heads.toNat * geometry.sectors.toNat

/-- The cylinders cover the capacity up to less than one cylinder. -/
def HdGeometry.Covers (geometry : HdGeometry) (capacity : Nat) : Prop :=
  geometry.cylinders.toNat * geometry.cylinderSectors ≤ capacity /\
    capacity < geometry.cylinders.toNat * geometry.cylinderSectors + geometry.cylinderSectors

/-- The cylinder count holds bytes divided by 64, cut to sixteen bits. -/
theorem toNat_cylinders {diskSize : Int32} (nonneg : 0 ≤ diskSize.toInt) :
    ((geometryOf diskSize).cylinders.toNat : Int) = diskSize.toInt / 64 % 2 ^ 16 := by
  have masked : (diskSize.toInt64 &&& ~~~(0x3F : Int64)).toInt = 2 ^ 6 * (diskSize.toInt / 2 ^ 6) := by
    rw [← Int32.toInt_toInt64]
    exact MachineWord.toInt_and_highMask (show 6 ≤ 63 by decide) rfl
  have shifted := MachineWord.toInt_shiftRight (diskSize.toInt64 &&& ~~~(0x3F : Int64)) 6 6
    (by decide)
  have unsigned := MachineWord.toNat_toUInt64_of_nonneg
    (show 0 ≤ ((diskSize.toInt64 &&& ~~~(0x3F : Int64)) >>> 6).toInt by omega)
  have narrowed : (geometryOf diskSize).cylinders.toNat =
      ((diskSize.toInt64 &&& ~~~(0x3F : Int64)) >>> 6).toUInt64.toNat % 2 ^ 16 :=
    UInt64.toNat_toUInt16 _
  omega

/-- For every disk that is set up and whose cylinders could be counted in
sixteen bits, the reported geometry misses the capacity: the count is taken
from bytes where sectors are meant, and then cut off. -/
theorem geometry_never_covers (calls : InitCalls) (refuses : Refuses calls) (diskmb : Int32)
    (driver : Driver) (loaded : (myInit calls diskmb driver).1 = 0)
    (representable : (myInit calls diskmb driver).2.capacity.toNat / (2 * 16) < 2 ^ 16) :
    Exists fun geometry : HdGeometry =>
      (forall copyToUser arg, copyToUser arg = true ->
        myIoctl copyToUser (myInit calls diskmb driver).2.diskSize hdioGetgeo arg =
          (0, some geometry)) /\
      geometry.cylinderSectors = 2 * 16 /\
      ¬ geometry.Covers (myInit calls diskmb driver).2.capacity.toNat := by
  have wrapped := bmod_of_loaded refuses loaded
  rcases loaded_sizes loaded wrapped with ⟨size, _allocated, capacity⟩
  have cylinders := toNat_cylinders (show 0 ≤ (myInit calls diskmb driver).2.diskSize.toInt by omega)
  have sectors : (geometryOf (myInit calls diskmb driver).2.diskSize).cylinderSectors = 2 * 16 := rfl
  refine ⟨geometryOf (myInit calls diskmb driver).2.diskSize, ?_, sectors, ?_⟩
  · intro copyToUser arg copied
    rw [myIoctl, if_pos rfl, copied]
    rfl
  · rintro ⟨least, most⟩
    rw [sectors] at least most
    omega

/-- A disk of one megabyte has 64 cylinders and is reported with 16384. -/
theorem geometry_never_covers_one :
    (myInit grantingCalls 1 ⟨0, 0, 0, []⟩).1 = 0 /\
      Exists fun geometry : HdGeometry => geometry.cylinderSectors = 2 * 16 /\
        ¬ geometry.Covers (myInit grantingCalls 1 ⟨0, 0, 0, []⟩).2.capacity.toNat := by
  have loaded : (myInit grantingCalls 1 ⟨0, 0, 0, []⟩).1 = 0 := by decide +kernel
  rcases geometry_never_covers grantingCalls grantingCalls_refuses 1 ⟨0, 0, 0, []⟩ loaded
    (by decide +kernel) with ⟨geometry, _reported, sectors, missed⟩
  exact ⟨loaded, geometry, sectors, missed⟩

/-- The disk of the default parameter, 256 megabytes, is reported without
cylinders. -/
theorem default_geometry_empty :
    (myInit grantingCalls 256 ⟨0, 0, 0, []⟩).1 = 0 /\
      (myInit grantingCalls 256 ⟨0, 0, 0, []⟩).2.capacity.toNat = 524288 /\
      524288 / (2 * 16) < 2 ^ 16 /\
      myIoctl (fun _ => true) (myInit grantingCalls 256 ⟨0, 0, 0, []⟩).2.diskSize hdioGetgeo 0 =
        (0, some ⟨2, 16, 0, 4⟩) /\
      ¬ HdGeometry.Covers ⟨2, 16, 0, 4⟩ 524288 := by
  refine ⟨by decide +kernel, by decide +kernel, by decide, by decide +kernel, ?_⟩
  rintro ⟨_least, most⟩
  revert most
  decide

end BlockDevice
end KernelStudy
