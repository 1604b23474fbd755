import KernelStudy.BlockDevice.RequestLoop

namespace KernelStudy
namespace BlockDevice

open CellMemory

/-!
# The ramdisk as an array of sectors

What the driver is for is an array of 512-byte sectors: a read segment
returns the sectors it names, and a write segment replaces them.  The content
of a sector at some moment is what the latest earlier write covering it
stored, or the initial content.

The byte offsets of the driver are connected to this picture by `sectorsOf`,
which groups a byte memory into sectors.  Inside the device, the wrapped
32-bit products are exact, and copying bytes is copying sectors.
-/

/-- The content of one sector. -/
abbrev Sector := Fin 512 -> UInt8

/-- A byte memory, read sector by sector. -/
def sectorsOf (memory : Nat -> UInt8) : Nat -> Sector :=
  fun sector byte => memory (512 * sector + byte)

/-- The array after the recorded segments, the most recent one first. -/
def latestWrite (initial : Nat -> Sector) : List Completion -> Nat -> Sector
  | [], sector => initial sector
  | completion :: earlier, sector =>
      if completion.write = true /\ completion.segment.sector.toNat ≤ sector /\
          sector < completion.segment.sector.toNat + completion.segment.sectors.toNat then
        sectorsOf completion.segment.data (sector - completion.segment.sector.toNat)
      else latestWrite initial earlier sector

/-- The segment lies inside a disk of the given size. -/
def Segment.Inside (diskSize : Int32) (segment : Segment) : Prop :=
  (segment.sector.toNat + segment.sectors.toNat : Nat) ≤ diskSize.toInt / 512

/-! ## Copying bytes is copying sectors -/

/-- Grouping commutes with storing a whole number of sectors. -/
theorem sectorsOf_store (memory data : Nat -> UInt8) (start count : Nat) :
    sectorsOf (store memory (512 * start) (load data 0 (512 * count))) =
      store (sectorsOf memory) start (load (sectorsOf data) 0 count) := by
  funext sector byte
  have inByte := byte.isLt
  by_cases inside : start ≤ sector /\ sector < start + count
  · have byteAt : 512 * sector + byte = 512 * start + (512 * (sector - start) + byte) := by omega
    have sectorAt : sector = start + (sector - start) := by omega
    conv_rhs => rw [sectorAt, store_load_inside _ _ (by omega)]
    rw [sectorsOf, byteAt, store_load_inside _ _ (by omega), sectorsOf, Nat.zero_add, Nat.zero_add]
  · rw [sectorsOf, store_outside _ (by rw [length_load]; omega),
      store_outside _ (by rw [length_load]; omega), sectorsOf]

/-! ## Exact arithmetic inside the device -/

section Inside

variable {diskSize : Int32} {segment : Segment}

theorem byteOffset_inside (inside : segment.Inside diskSize) :
    (byteOffset segment.sector).toNat = 512 * segment.sector.toNat := by
  have limit := diskSize.toInt_lt
  have bound : (segment.sector.toNat + segment.sectors.toNat : Nat) ≤ diskSize.toInt / 512 := inside
  have unit : sectorSize.toNat = 512 := rfl
  rw [byteOffset, UInt32.toNat_mul, UInt64.toNat_toUInt32, unit]
  omega

theorem byteSize_inside (inside : segment.Inside diskSize) :
    (byteSize segment.sectors).toInt = 512 * segment.sectors.toNat := by
  have limit := diskSize.toInt_lt
  have bound : (segment.sector.toNat + segment.sectors.toNat : Nat) ≤ diskSize.toInt / 512 := inside
  have unit : sectorSize.toNat = 512 := rfl
  have product : (segment.sectors * sectorSize).toNat = 512 * segment.sectors.toNat := by
    rw [UInt32.toNat_mul, unit]
    omega
  rw [byteSize, MachineWord.toInt_toInt32_of_lt (by omega), product]
  omega

theorem copyLength_inside (inside : segment.Inside diskSize) :
    copyLength segment.sectors = 512 * segment.sectors.toNat := by
  have size := byteSize_inside inside
  have widened := MachineWord.toNat_widen_of_nonneg
    (show 0 ≤ (byteSize segment.sectors).toInt by omega)
  rw [copyLength]
  omega

theorem endOfDevice_inside (inside : segment.Inside diskSize) :
    endOfDevice diskSize segment.sector segment.sectors = false := by
  have bound : (segment.sector.toNat + segment.sectors.toNat : Nat) ≤ diskSize.toInt / 512 := inside
  rw [endOfDevice, byteOffset_inside inside, byteSize_inside inside]
  apply decide_eq_false
  omega

end Inside

/-! ## One segment -/

/-- What the record of a segment says when the segment was served in the
array `stored`: success, the sectors of a read delivered, exactly the sectors
of a write replaced. -/
structure Served (stored : Nat -> Sector) (completion : Completion) : Prop where
  status : completion.status = 0
  copied : completion.copied = true
  before : sectorsOf completion.before = stored
  read_data : completion.write = false -> forall j, j < completion.segment.sectors.toNat ->
    sectorsOf completion.data j = stored (completion.segment.sector.toNat + j)
  read_rest : completion.write = false -> forall address,
    512 * completion.segment.sectors.toNat ≤ address ->
    completion.data address = completion.segment.data address
  read_keeps : completion.write = false -> completion.after = completion.before
  write_inside : completion.write = true -> forall offset,
    offset < 512 * completion.segment.sectors.toNat ->
    completion.after (512 * completion.segment.sector.toNat + offset) = completion.segment.data offset
  write_outside : completion.write = true -> forall address,
    address < 512 * completion.segment.sector.toNat \/
      512 * (completion.segment.sector.toNat + completion.segment.sectors.toNat) ≤ address ->
    completion.after address = completion.before address

theorem serveSegment_served {diskSize : Int32} (memory : Nat -> UInt8) (write : Bool)
    {segment : Segment} (inside : segment.Inside diskSize) :
    Served (sectorsOf memory) (serveSegment diskSize memory write segment) := by
  have accepted := endOfDevice_inside inside
  have start := byteOffset_inside inside
  have length := copyLength_inside inside
  cases write with
  | true =>
      simp only [serveSegment, accepted, start, length, Bool.false_eq_true, if_false, if_true]
      refine ⟨rfl, rfl, rfl, nofun, nofun, nofun, ?_, ?_⟩
      · intro _ offset bound
        simp only
        rw [store_load_inside _ _ bound, Nat.zero_add]
      · intro _ address outside
        simp only at outside ⊢
        exact store_outside _ (by rw [length_load]; omega)
  | false =>
      simp only [serveSegment, accepted, start, length, Bool.false_eq_true, if_false]
      refine ⟨rfl, rfl, rfl, ?_, ?_, fun _ => rfl, nofun, nofun⟩
      · intro _ j bound
        funext byte
        have inByte := byte.isLt
        simp only at bound ⊢
        have offset : 512 * j + (byte : Nat) = 0 + (512 * j + byte) := by omega
        rw [sectorsOf, offset, store_load_inside _ _ (by omega), sectorsOf]
        congr 1
        omega
      · intro _ address beyond
        simp only at beyond ⊢
        exact store_above _ (by rw [length_load]; omega)

/-- The array after a segment is the array of the extended record. -/
theorem serveSegment_after {diskSize : Int32} (memory : Nat -> UInt8) (write : Bool)
    {segment : Segment} (inside : segment.Inside diskSize) {initial : Nat -> Sector}
    {record : List Completion} (stored : sectorsOf memory = latestWrite initial record) :
    sectorsOf (serveSegment diskSize memory write segment).after =
      latestWrite initial (serveSegment diskSize memory write segment :: record) := by
  have accepted := endOfDevice_inside inside
  have start := byteOffset_inside inside
  have length := copyLength_inside inside
  funext sector
  cases write with
  | true =>
      simp only [serveSegment, accepted, start, length, Bool.false_eq_true, if_false, if_true,
        latestWrite, true_and]
      rw [sectorsOf_store]
      split
      · rename_i covered
        have sectorAt : sector = segment.sector.toNat + (sector - segment.sector.toNat) := by omega
        conv_lhs => rw [sectorAt]
        rw [store_load_inside _ _ (by omega), Nat.zero_add]
      · rename_i uncovered
        rw [store_outside _ (by rw [length_load]; omega), stored]
  | false =>
      simp only [serveSegment, accepted, Bool.false_eq_true, if_false, latestWrite, false_and]
      rw [stored]

/-! ## The whole queue -/

/-- Every recorded segment was served in the array left by the ones before
it.  The record is listed with the most recent segment first. -/
def AllServed (initial : Nat -> Sector) : List Completion -> Prop
  | [] => True
  | completion :: earlier => Served (latestWrite initial earlier) completion /\
      AllServed initial earlier

theorem AllServed.at {initial : Nat -> Sector} {later : List Completion} {completion : Completion}
    {earlier : List Completion} (all : AllServed initial (later ++ completion :: earlier)) :
    Served (latestWrite initial earlier) completion := by
  induction later with
  | nil => exact all.1
  | cons _ _ inductionHypothesis => exact inductionHypothesis all.2

/-- A state of the loop: what is recorded and what is left make up the queue,
and the memory is the array of the record. -/
structure Serving (diskSize : Int32) (initial : Nat -> Sector) (total : List (Bool × Segment))
    (state : QueueState) : Prop where
  exhausted : state.rq = none -> state.pending = []
  order : state.completed.map (fun completion => (completion.write, completion.segment)) ++
    queueSegments state.requests = total
  inside : forall entry, entry ∈ queueSegments state.requests -> entry.2.Inside diskSize
  served : AllServed initial state.completed.reverse
  stored : sectorsOf state.memory = latestWrite initial state.completed.reverse

/-- Serving segments inside the disk one after the other extends the record
by served segments, and the memory stays the array of the record. -/
theorem serveAll_served {diskSize : Int32} {initial : Nat -> Sector}
    (segments : List (Bool × Segment)) {memory : Nat -> UInt8} {record : List Completion}
    (inside : forall entry, entry ∈ segments -> entry.2.Inside diskSize)
    (served : AllServed initial record) (stored : sectorsOf memory = latestWrite initial record) :
    AllServed initial ((serveAll diskSize memory segments).1.reverse ++ record) /\
      sectorsOf (serveAll diskSize memory segments).2 =
        latestWrite initial ((serveAll diskSize memory segments).1.reverse ++ record) := by
  induction segments generalizing memory record with
  | nil => exact ⟨served, stored⟩
  | cons entry rest inductionHypothesis =>
      have fits := inside entry List.mem_cons_self
      have extended : AllServed initial (serveSegment diskSize memory entry.1 entry.2 :: record) :=
        ⟨stored ▸ serveSegment_served memory entry.1 fits, served⟩
      have later := inductionHypothesis (fun other member => inside other (List.mem_cons_of_mem _ member))
        extended (serveSegment_after memory entry.1 fits stored)
      rw [serveAll, List.reverse_cons, List.append_assoc, List.singleton_append]
      exact later

/-- The loop of `my_request` ends after `workload queue` passes, having
served every segment once and in order. -/
theorem myRequest_serves {diskSize : Int32} {queue : List Request} (memory : Nat -> UInt8)
    (inside : forall entry, entry ∈ queueSegments queue -> entry.2.Inside diskSize) :
    Exists fun final =>
      (forall fuel, workload queue ≤ fuel -> myRequest diskSize fuel queue memory = some final) /\
      Serving diskSize (sectorsOf memory) (queueSegments queue) final /\ final.rq = none := by
  rcases myRequest_serves_all diskSize queue memory with
    ⟨final, returned, ended, exhausted, record, memoryLeft⟩
  have noRequests : final.requests = [] := by
    rw [QueueState.requests, ended, exhausted, Option.toList_none, List.nil_append]
  have array : AllServed (sectorsOf memory)
        ((serveAll diskSize memory (queueSegments queue)).1.reverse ++ []) /\
      sectorsOf (serveAll diskSize memory (queueSegments queue)).2 = latestWrite (sectorsOf memory)
        ((serveAll diskSize memory (queueSegments queue)).1.reverse ++ []) :=
    serveAll_served (queueSegments queue) inside trivial rfl
  rw [List.append_nil, ← record, ← memoryLeft] at array
  refine ⟨final, returned, ⟨fun _ => exhausted, ?_, ?_, array.1, array.2⟩, ended⟩
  · rw [noRequests, record, serveAll_order]
    exact List.append_nil _
  · rw [noRequests]
    exact List.forall_mem_nil _

/-- The ramdisk refines an array of sectors.  For every size up to 2047 MB and
every queue whose segments lie inside the disk, the loop ends with every
segment recorded once and in order.  Each was served in the array left by the
segments before it, and the final memory is the array of all of them. -/
theorem ramdisk_refines_sectors (calls : InitCalls) (diskmb : Int32) (driver : Driver)
    (lower : 1 ≤ diskmb.toInt) (upper : diskmb.toInt ≤ 2047)
    (queue : List Request) (memory : Nat -> UInt8)
    (inside : forall entry, entry ∈ queueSegments queue ->
      entry.2.Inside (myInit calls diskmb driver).2.diskSize) :
    (myInit calls diskmb driver).2.diskSize.toInt = 1048576 * diskmb.toInt /\
    Exists fun final =>
      (forall fuel, workload queue ≤ fuel ->
        myRequest (myInit calls diskmb driver).2.diskSize fuel queue memory = some final) /\
      final.completed.map (fun completion => (completion.write, completion.segment)) =
        queueSegments queue /\
      (forall earlier completion later, final.completed = earlier ++ completion :: later ->
        Served (latestWrite (sectorsOf memory) earlier.reverse) completion) /\
      sectorsOf final.memory = latestWrite (sectorsOf memory) final.completed.reverse := by
  refine ⟨?_, ?_⟩
  · rw [myInit_diskSize, toInt_diskSizeOf, Int.bmod_eq_of_le (by omega) (by omega)]
    rfl
  · rcases myRequest_serves memory inside with ⟨final, returned, serving, ended⟩
    have noRequests : final.requests = [] := by
      simp only [QueueState.requests, ended, serving.exhausted ended, Option.toList_none,
        List.nil_append]
    have order := serving.order
    rw [noRequests] at order
    refine ⟨final, returned, ?_, ?_, serving.stored⟩
    · simpa only [queueSegments, List.flatMap_nil, List.append_nil] using order
    · intro earlier completion later split
      have served := serving.served
      rw [split, List.reverse_append, List.reverse_cons, List.append_assoc] at served
      exact AllServed.at served

/-- Two sectors are written on a disk of one megabyte and the second of them
is read back. -/
theorem ramdisk_refines_sectors_readback :
    Exists fun final =>
      myRequest (diskSizeOf 1) 2 [⟨true, [⟨3, 2, fun _ => 7⟩]⟩, ⟨false, [⟨4, 1, fun _ => 0⟩]⟩]
        (fun _ => 0) = some final /\ final.completed.length = 2 := by
  rcases (ramdisk_refines_sectors ⟨fun _ => true, true, 250, true⟩ 1 ⟨0, 0, 0, []⟩ (by decide) (by decide)
    [⟨true, [⟨3, 2, fun _ => 7⟩]⟩, ⟨false, [⟨4, 1, fun _ => 0⟩]⟩] (fun _ => 0) (by
      intro entry member
      simp only [queueSegments, List.flatMap_cons, List.flatMap_nil, List.map_cons, List.map_nil,
        List.append_nil, List.singleton_append, List.mem_cons, List.not_mem_nil, or_false] at member
      rcases member with same | same <;> subst entry <;> simp only [Segment.Inside] <;> decide)).2 with
    ⟨final, returned, order, _⟩
  refine ⟨final, returned 2 (by decide), ?_⟩
  have count := congrArg List.length order
  rw [List.length_map] at count
  exact count

end BlockDevice
end KernelStudy
