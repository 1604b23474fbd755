import KernelStudy.Foundations.MachineWord
import KernelStudy.Foundations.CellMemory
import KernelStudy.Foundations.BoundedLoop

namespace KernelStudy
namespace BlockDevice

open CellMemory

/-!
# The ramdisk block driver

`my_init` allocates the disk from the module parameter and `my_request`
serves the request queue.  Sector numbers and counts pass through `unsigned`
and `int` variables before they become byte offsets, and the end-of-device
test compares pointers formed from both; the definitions keep each of these
conversions.

The block layer is not part of the repository.  A queue is the list of the
pending requests in the order in which they are handed out, a request is the
list of its segments, and ending the current segment moves on to the next
one.  Every call that ends a segment is recorded with its status, so that a
statement about a whole queue is a statement about the recorded list.
-/

/-! ## Loading the module -/

def enomem : Int32 := 12

/-- What the driver can hold. -/
inductive Resource where
  | ramdisk | requestQueue | major | disk
deriving DecidableEq, Repr

/-- The outcomes of the kernel calls of one `my_init`.  A successful
registration returns a major number, which is not negative. -/
structure InitCalls where
  vmalloc : UInt64 -> Bool
  blkInitQueue : Bool
  registerBlkdev : Int32
  allocDisk : Bool

/-- The module variables that `my_init` sets, and the resources held. -/
structure Driver where
  diskSize : Int32
  mybdrvMaNo : Int32
  capacity : UInt64
  held : List Resource
deriving DecidableEq

def Driver.acquire (driver : Driver) (resource : Resource) : Driver :=
  { driver with held := resource :: driver.held }

def Driver.release (driver : Driver) (resource : Resource) : Driver :=
  { driver with held := driver.held.erase resource }

/-- `disk_size = diskmb * 1024 * 1024`, in `int`. -/
def diskSizeOf (diskmb : Int32) : Int32 :=
  diskmb * 1024 * 1024

/-- The product wraps, in whole megabytes. -/
theorem toInt_diskSizeOf (diskmb : Int32) :
    (diskSizeOf diskmb).toInt = 2 ^ 20 * Int.bmod diskmb.toInt 4096 := by
  have literal : (1024 : Int32).toInt = 1024 := rfl
  have bytes : diskmb.toInt * 1024 * 1024 = 2 ^ 20 * diskmb.toInt := by ring
  rw [diskSizeOf, Int32.toInt_mul, Int32.toInt_mul, literal, Int.bmod_mul_bmod, bytes]
  rw [Int.bmod_def, Int.bmod_def]
  omega

def sectorSize : UInt32 := 512

def myInit (calls : InitCalls) (diskmb : Int32) (driver : Driver) : Int32 × Driver :=
  let driver := { driver with diskSize := diskSizeOf diskmb }
  if calls.vmalloc driver.diskSize.toInt64.toUInt64 = false then (-enomem, driver)
  else
    let driver := driver.acquire .ramdisk
    if calls.blkInitQueue = false then (-enomem, driver.release .ramdisk)
    else
      let driver := driver.acquire .requestQueue
      let driver := { driver with mybdrvMaNo := calls.registerBlkdev }
      if driver.mybdrvMaNo < 0 then (driver.mybdrvMaNo, driver.release .ramdisk)
      else
        let driver := driver.acquire .major
        if calls.allocDisk = false then
          (-enomem, (driver.release .major).release .ramdisk)
        else
          let driver := driver.acquire .disk
          -- the quotient is an `int`, converted to `sector_t`
          (0, { driver with
            capacity := (driver.diskSize / sectorSize.toInt32).toInt64.toUInt64 })

/-- A successful load leaves the size that the parameter asks for, in `int`. -/
theorem myInit_diskSize (calls : InitCalls) (diskmb : Int32) (driver : Driver) :
    (myInit calls diskmb driver).2.diskSize = diskSizeOf diskmb := by
  simp only [myInit]
  split_ifs <;> rfl

/-! ## Requests -/

/-- One segment of a request: its start sector, its number of sectors, and
the memory that `bio_data` points to. -/
structure Segment where
  sector : UInt64
  sectors : UInt32
  data : Nat -> UInt8

/-- A request with the segments that are still to be served.  `blk_rq_pos`
and `blk_rq_cur_sectors` are the sector and the length of the first of them. -/
structure Request where
  write : Bool
  segments : List Segment

/-- What is recorded when a segment ends: the status passed to the block
layer, whether a `memcpy` ran, the segment's memory afterwards, and the
ramdisk before and after. -/
structure Completion where
  write : Bool
  segment : Segment
  status : Int32
  copied : Bool
  data : Nat -> UInt8
  before : Nat -> UInt8
  after : Nat -> UInt8

/-- The variables of `my_request`: the current request, the queue behind it,
the bytes from `ramdisk` on, and the record of ended segments. -/
structure QueueState where
  rq : Option Request
  pending : List Request
  memory : Nat -> UInt8
  completed : List Completion

/-- `blk_get_request`: the next pending request, or `NULL`. -/
def fetchRequest (state : QueueState) : QueueState :=
  { state with rq := state.pending.head?, pending := state.pending.tail }

/-! ## Serving the queue -/

/-- `sector * sector_size`, in `unsigned`. -/
def byteOffset (sector : UInt64) : UInt32 :=
  sector.toUInt32 * sectorSize

/-- `nr_sectors * sector_size`, stored in an `int`. -/
def byteSize (sectors : UInt32) : Int32 :=
  (sectors * sectorSize).toInt32

/-- `(ptr + size) > (ramdisk + disk_size)`, relative to `ramdisk`. -/
def endOfDevice (diskSize : Int32) (sector : UInt64) (sectors : UInt32) : Bool :=
  decide ((byteOffset sector).toNat + (byteSize sectors).toInt > diskSize.toInt)

/-- The length that `memcpy` receives: the `int` converted to `size_t`. -/
def copyLength (sectors : UInt32) : Nat :=
  (byteSize sectors).toInt64.toUInt64.toNat

/-- The variable `res` is set once, before the loop. -/
def res : Int32 := 0

/-- The accept, read, write and reject paths for the current segment, up to
the call that ends it. -/
def serveSegment (diskSize : Int32) (memory : Nat -> UInt8) (write : Bool) (segment : Segment) :
    Completion :=
  let start := (byteOffset segment.sector).toNat
  let length := copyLength segment.sectors
  if endOfDevice diskSize segment.sector segment.sectors then
    ⟨write, segment, res, false, segment.data, memory, memory⟩
  else if write then
    ⟨write, segment, res, true, segment.data, memory,
      store memory start (load segment.data 0 length)⟩
  else
    ⟨write, segment, res, true, store segment.data 0 (load memory start length), memory, memory⟩

/-- One pass of the loop.  `__blk_end_request_cur` moves to the next segment
and is true iff one is left; otherwise the next request is fetched.  Without
a segment there are no sectors to copy and nothing to record. -/
def requestBody (diskSize : Int32) (state : QueueState) : QueueState :=
  match state.rq with
  | none => state
  | some rq =>
      match rq.segments with
      | [] => fetchRequest state
      | segment :: rest =>
          let completion := serveSegment diskSize state.memory rq.write segment
          let state := { state with
            memory := completion.after
            completed := state.completed ++ [completion] }
          if rest = [] then fetchRequest state
          else { state with rq := some { rq with segments := rest } }

def requestGuard (state : QueueState) : Bool :=
  state.rq.isSome

def myRequest (diskSize : Int32) (fuel : Nat) (queue : List Request) (memory : Nat -> UInt8) :
    Option QueueState :=
  BoundedLoop.loop requestGuard (requestBody diskSize) fuel
    (fetchRequest ⟨none, queue, memory, []⟩)

end BlockDevice
end KernelStudy
