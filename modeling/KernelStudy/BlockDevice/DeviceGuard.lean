import KernelStudy.BlockDevice.SectorArray

namespace KernelStudy
namespace BlockDevice

open CellMemory

/-!
# The end-of-device test

The test of `my_request` compares pointers formed from 32-bit products, and
512 is `2 ^ 9`.  The test therefore sees the position and the count only
modulo `2 ^ 23`, the count as a signed number.  A segment inside the device is
not affected.  A segment past the end is turned away when its residues are
also past the end; otherwise it is copied at the lower position that the
residues name.
-/

/-! ## What the test sees -/

theorem byteOffset_residue (sector : UInt64) :
    (byteOffset sector).toNat = 512 * (sector.toNat % 2 ^ 23) := by
  have unit : sectorSize.toNat = 512 := rfl
  rw [byteOffset, UInt32.toNat_mul, UInt64.toNat_toUInt32, unit]
  omega

theorem byteSize_residue (sectors : UInt32) :
    (byteSize sectors).toInt = 512 * Int.bmod sectors.toNat (2 ^ 23) := by
  have unit : sectorSize.toNat = 512 := rfl
  have product : (sectors * sectorSize).toNat = 512 * (sectors.toNat % 2 ^ 23) := by
    rw [UInt32.toNat_mul, unit]
    omega
  rw [byteSize, MachineWord.toInt_toInt32, product, Int.bmod_def, Int.bmod_def]
  split_ifs <;> omega

/-- The end of the segment is past the end of the device even when it is formed
from the position and the count modulo `2 ^ 23`. -/
def Segment.ReducedPastEnd (diskSize : Int32) (segment : Segment) : Prop :=
  diskSize.toInt <
    512 * ((segment.sector.toNat % 2 ^ 23 : Nat) + Int.bmod segment.sectors.toNat (2 ^ 23))

theorem endOfDevice_iff (diskSize : Int32) (segment : Segment) :
    endOfDevice diskSize segment.sector segment.sectors = true <->
      segment.ReducedPastEnd diskSize := by
  rw [endOfDevice, decide_eq_true_eq, byteOffset_residue, byteSize_residue, Segment.ReducedPastEnd]
  omega

/-! ## The bytes that a segment touches -/

/-- The first ramdisk byte and the number of bytes that `memcpy` runs over,
or nothing when the segment is turned away. -/
def copyRange (diskSize : Int32) (segment : Segment) : Option (Nat × Nat) :=
  if endOfDevice diskSize segment.sector segment.sectors then none
  else some ((byteOffset segment.sector).toNat, copyLength segment.sectors)

/-- What is recorded of a segment, given the range that its copy runs over. -/
def recordOf (memory : Nat -> UInt8) (write : Bool) (segment : Segment) :
    Option (Nat × Nat) -> Completion
  | none => ⟨write, segment, res, false, segment.data, memory, memory⟩
  | some (start, length) =>
      ⟨write, segment, res, true,
        if write then segment.data else store segment.data 0 (load memory start length), memory,
        if write then store memory start (load segment.data 0 length) else memory⟩

/-- Serving a segment reads or writes the range of its copy and nothing else. -/
theorem serveSegment_eq_recordOf (diskSize : Int32) (memory : Nat -> UInt8) (write : Bool)
    (segment : Segment) :
    serveSegment diskSize memory write segment =
      recordOf memory write segment (copyRange diskSize segment) := by
  cases turnedAway : endOfDevice diskSize segment.sector segment.sectors with
  | true => simp only [serveSegment, copyRange, turnedAway, if_true, recordOf]
  | false =>
      simp only [serveSegment, copyRange, turnedAway, Bool.false_eq_true, if_false, recordOf]
      cases write with
      | true => rfl
      | false => rfl

theorem copyRange_inside {diskSize : Int32} {segment : Segment}
    (inside : segment.Inside diskSize) :
    copyRange diskSize segment =
      some (512 * segment.sector.toNat, 512 * segment.sectors.toNat) := by
  rw [copyRange, endOfDevice_inside inside, byteOffset_inside inside, copyLength_inside inside]
  rfl

theorem copyRange_eq_none_iff (diskSize : Int32) (segment : Segment) :
    copyRange diskSize segment = none <-> segment.ReducedPastEnd diskSize := by
  rw [← endOfDevice_iff, copyRange]
  split <;> simp [*]

/-! ## An exact test -/

/-- What an exact test does with a segment: exactly the segments that end
inside the device are copied, at the bytes that they name, and the others
leave the ramdisk and the caller's memory alone. -/
structure CopiesExactly (diskSize : Int32) (completion : Completion) : Prop where
  copied_iff : completion.copied = true <->
    512 * completion.segment.sector.toNat + 512 * completion.segment.sectors.toNat ≤ diskSize.toInt
  range : completion.copied = true -> copyRange diskSize completion.segment =
    some (512 * completion.segment.sector.toNat, 512 * completion.segment.sectors.toNat)
  written : completion.copied = true -> completion.write = true ->
    completion.data = completion.segment.data /\
    completion.after = store completion.before (512 * completion.segment.sector.toNat)
      (load completion.segment.data 0 (512 * completion.segment.sectors.toNat))
  delivered : completion.copied = true -> completion.write = false ->
    completion.after = completion.before /\
    completion.data = store completion.segment.data 0
      (load completion.before (512 * completion.segment.sector.toNat)
        (512 * completion.segment.sectors.toNat))
  untouched : completion.copied = false -> copyRange diskSize completion.segment = none /\
    completion.after = completion.before /\ completion.data = completion.segment.data

theorem Segment.inside_iff (diskSize : Int32) (segment : Segment) :
    segment.Inside diskSize <->
      512 * segment.sector.toNat + 512 * segment.sectors.toNat ≤ diskSize.toInt := by
  rw [Segment.Inside]
  omega

/-- A segment inside the device is copied exactly. -/
theorem copiesExactly_of_inside {diskSize : Int32} (memory : Nat -> UInt8) (write : Bool)
    {segment : Segment} (inside : segment.Inside diskSize) :
    CopiesExactly diskSize (serveSegment diskSize memory write segment) := by
  have range := copyRange_inside inside
  have fits := (segment.inside_iff diskSize).mp inside
  rw [serveSegment_eq_recordOf, range]
  refine ⟨⟨fun _ => fits, fun _ => rfl⟩, fun _ => range, ?_, ?_, nofun⟩
  · intro _ writes
    have writes : write = true := writes
    subst write
    exact ⟨rfl, rfl⟩
  · intro _ reads
    have reads : write = false := reads
    subst write
    exact ⟨rfl, rfl⟩

/-- Outside the device, the test is right iff it sees the segment past the
end.  Otherwise the copy runs although the segment does not fit. -/
theorem copiesExactly_outside_iff {diskSize : Int32} (memory : Nat -> UInt8) (write : Bool)
    {segment : Segment} (outside : Not (segment.Inside diskSize)) :
    CopiesExactly diskSize (serveSegment diskSize memory write segment) <->
      segment.ReducedPastEnd diskSize := by
  have beyond : Not (512 * segment.sector.toNat + 512 * segment.sectors.toNat ≤ diskSize.toInt) :=
    fun fits => outside ((segment.inside_iff diskSize).mpr fits)
  rw [← copyRange_eq_none_iff, serveSegment_eq_recordOf]
  cases range : copyRange diskSize segment with
  | none => exact ⟨fun _ => rfl, fun _ => ⟨⟨nofun, fun fits => (beyond fits).elim⟩, nofun, nofun, nofun,
      fun _ => ⟨range, rfl, rfl⟩⟩⟩
  | some bytes => exact ⟨fun exact => (beyond (exact.copied_iff.mp rfl)).elim, nofun⟩

theorem copiesExactly_iff {diskSize : Int32} (memory : Nat -> UInt8) (write : Bool)
    (segment : Segment) :
    CopiesExactly diskSize (serveSegment diskSize memory write segment) <->
      512 * segment.sector.toNat + 512 * segment.sectors.toNat ≤ diskSize.toInt \/
        segment.ReducedPastEnd diskSize := by
  rw [← Segment.inside_iff]
  by_cases inside : segment.Inside diskSize
  · exact ⟨fun _ => Or.inl inside, fun _ => copiesExactly_of_inside memory write inside⟩
  · rw [copiesExactly_outside_iff memory write inside]
    exact (or_iff_right inside).symm

/-- The test of `my_request` is exact on a queue iff each of its segments lies
inside the device or is still past its end after the reduction modulo
`2 ^ 23`.  The loop serves every queue. -/
theorem guard_exact_iff (diskSize : Int32) (queue : List Request) (memory : Nat -> UInt8) :
    Exists fun final =>
      (forall fuel, workload queue ≤ fuel -> myRequest diskSize fuel queue memory = some final) /\
      final.completed.map (fun completion => (completion.write, completion.segment)) =
        queueSegments queue /\
      ((forall completion, completion ∈ final.completed -> CopiesExactly diskSize completion) <->
        forall entry, entry ∈ queueSegments queue ->
          512 * entry.2.sector.toNat + 512 * entry.2.sectors.toNat ≤ diskSize.toInt \/
          diskSize.toInt < 512 * ((entry.2.sector.toNat % 2 ^ 23 : Nat) +
            Int.bmod entry.2.sectors.toNat (2 ^ 23))) := by
  rcases myRequest_serves_all diskSize queue memory with ⟨final, returned, _, _, record, _⟩
  refine ⟨final, returned, ?_, ?_⟩
  · rw [record]
    exact serveAll_order diskSize memory (queueSegments queue)
  · rw [record]
    exact serveAll_forall_iff copiesExactly_iff memory (queueSegments queue)

/-- On a disk of one megabyte, a write to sector `2 ^ 23` is not past the end
for the test, and replaces sector 0. -/
theorem guard_aliases_sector_zero :
    Exists fun final =>
      myRequest (diskSizeOf 1) 1 [⟨true, [⟨8388608, 1, fun _ => 7⟩]⟩] (fun _ => 0) = some final /\
      final.memory 0 = 7 /\
      Not (forall completion, completion ∈ final.completed ->
        CopiesExactly (diskSizeOf 1) completion) := by
  let aliased : Segment := ⟨8388608, 1, fun _ => 7⟩
  have range : copyRange (diskSizeOf 1) aliased = some (0, 512) := by decide
  have served := serveSegment_eq_recordOf (diskSizeOf 1) (fun _ => 0) true aliased
  rw [range] at served
  rcases myRequest_serves_all (diskSizeOf 1) [⟨true, [aliased]⟩] (fun _ => 0) with
    ⟨final, returned, _, _, record, memory⟩
  have segments : queueSegments [⟨true, [aliased]⟩] = [(true, aliased)] := rfl
  rw [segments, serveAll, serveAll, served] at record memory
  refine ⟨final, returned 1 (Nat.le_refl 1), ?_, ?_⟩
  · have first : store (fun _ => (0 : UInt8)) 0 (load aliased.data 0 512) (0 + 0) = 7 :=
      store_load_inside _ _ (show 0 < 512 by decide)
    rw [memory]
    simp only [recordOf, if_true]
    exact first
  · intro exact
    rw [record] at exact
    have fits := (exact _ List.mem_cons_self).copied_iff.mp rfl
    exact absurd fits (by decide)

end BlockDevice
end KernelStudy
