import KernelStudy.BlockDevice.DeviceGuard

namespace KernelStudy
namespace BlockDevice

/-!
# Statuses of ended segments

All paths of `my_request` meet at the one call that ends a segment, and the
status passed there is `res`, which nothing sets after its initialisation.  A
segment that is turned away is therefore reported as a success, and so is one
whose wrapped position or length made the copy run over other bytes.  What
does hold for every queue is that a segment which is turned away leaves no
trace in the other segments.
-/

/-- The data of the segment was transferred: the copy ran, over as many bytes
as the segment has, and at its position.  A segment without sectors has no
byte to place. -/
structure Transferred (diskSize : Int32) (completion : Completion) : Prop where
  copied : completion.copied = true
  length : (copyRange diskSize completion.segment).map Prod.snd =
    some (512 * completion.segment.sectors.toNat)
  start : 0 < completion.segment.sectors.toNat ->
    (copyRange diskSize completion.segment).map Prod.fst =
      some (512 * completion.segment.sector.toNat)

/-- The segment lies inside the device, or has no sectors and a position that
lies inside it modulo `2 ^ 23`. -/
def Segment.Transferable (diskSize : Int32) (segment : Segment) : Prop :=
  segment.Inside diskSize \/
    segment.sectors.toNat = 0 /\ 512 * (segment.sector.toNat % 2 ^ 23 : Nat) ≤ diskSize.toInt

/-- No loss goes unreported: success means that the data was transferred, a
segment that is turned away ends with an error, and it does not change what
is recorded for the other segments.  The last part compares with a queue that
has the same segments except for the one that is turned away. -/
structure NoSilentLoss (diskSize : Int32) (queue : List Request) (memory : Nat -> UInt8)
    (final : QueueState) : Prop where
  transferred : forall completion, completion ∈ final.completed ->
    completion.status = 0 -> Transferred diskSize completion
  reported : forall completion, completion ∈ final.completed ->
    endOfDevice diskSize completion.segment.sector completion.segment.sectors = true ->
    completion.status ≠ 0
  isolated : forall earlier write (rejected : Segment) later other,
    queueSegments queue = earlier ++ (write, rejected) :: later ->
    endOfDevice diskSize rejected.sector rejected.sectors = true ->
    queueSegments other = earlier ++ later ->
    Exists fun without =>
      (forall fuel, workload other ≤ fuel -> myRequest diskSize fuel other memory = some without) /\
      without.completed = final.completed.eraseIdx earlier.length /\
      without.memory = final.memory

/-! ## One segment -/

theorem serveSegment_status (diskSize : Int32) (memory : Nat -> UInt8) (write : Bool)
    (segment : Segment) : (serveSegment diskSize memory write segment).status = 0 := by
  rw [serveSegment_eq_recordOf]
  cases copyRange diskSize segment with
  | none => rfl
  | some bytes => rfl

theorem serveSegment_copied (diskSize : Int32) (memory : Nat -> UInt8) (write : Bool)
    (segment : Segment) :
    (serveSegment diskSize memory write segment).copied = (copyRange diskSize segment).isSome := by
  rw [serveSegment_eq_recordOf]
  cases copyRange diskSize segment with
  | none => rfl
  | some bytes => rfl

/-- A negative `int` becomes a length just below `2 ^ 64`. -/
theorem copyLength_eq (sectors : UInt32) :
    (copyLength sectors : Int) = (512 * Int.bmod sectors.toNat (2 ^ 23)) % 2 ^ 64 := by
  rw [copyLength, MachineWord.toNat_toUInt64, Int32.toInt_toInt64, byteSize_residue]

/-- The conversions keep the length of a segment only below `2 ^ 31` bytes. -/
theorem bmod_of_copyLength {sectors : UInt32} (kept : copyLength sectors = 512 * sectors.toNat) :
    Int.bmod sectors.toNat (2 ^ 23) = sectors.toNat := by
  have length := copyLength_eq sectors
  have word := sectors.toNat_lt
  have lower := Int.le_bmod (x := sectors.toNat) (m := 2 ^ 23) (by decide)
  have upper := Int.bmod_lt (x := sectors.toNat) (m := 2 ^ 23) (by decide)
  omega

theorem copyRange_eq_some {diskSize : Int32} {segment : Segment} {bytes : Nat × Nat}
    (range : copyRange diskSize segment = some bytes) :
    Not (segment.ReducedPastEnd diskSize) /\
      bytes = (512 * (segment.sector.toNat % 2 ^ 23), copyLength segment.sectors) := by
  constructor
  · rw [← copyRange_eq_none_iff, range]
    exact Option.some_ne_none bytes
  · rw [copyRange, byteOffset_residue] at range
    split at range
    · exact absurd range.symm (Option.some_ne_none bytes)
    · exact (Option.some.inj range).symm

theorem copyRange_empty {diskSize : Int32} {segment : Segment}
    (empty : segment.sectors.toNat = 0)
    (accepted : 512 * (segment.sector.toNat % 2 ^ 23 : Nat) ≤ diskSize.toInt) :
    copyRange diskSize segment =
      some (512 * (segment.sector.toNat % 2 ^ 23), 512 * segment.sectors.toNat) := by
  have notPast : Not (segment.ReducedPastEnd diskSize) := by
    rw [Segment.ReducedPastEnd, empty]
    intro past
    exact absurd accepted (Int.not_le.mpr (by simpa using past))
  have length := copyLength_eq segment.sectors
  rw [empty] at length
  rw [← copyRange_eq_none_iff, ← Ne, Option.ne_none_iff_exists'] at notPast
  rcases notPast with ⟨bytes, range⟩
  rw [range, (copyRange_eq_some range).2, empty]
  have none : copyLength segment.sectors = 512 * 0 := by
    simpa using length
  rw [none]

/-- Exactly the transferable segments are transferred. -/
theorem transferred_iff {diskSize : Int32} (memory : Nat -> UInt8) (write : Bool)
    (segment : Segment) :
    Transferred diskSize (serveSegment diskSize memory write segment) <->
      segment.Transferable diskSize := by
  have names := (serveSegment_names diskSize memory write segment).2
  have copied := serveSegment_copied diskSize memory write segment
  constructor
  · intro transferred
    have length := transferred.length
    have start := transferred.start
    rw [names] at length start
    rw [transferred.copied] at copied
    rcases Option.isSome_iff_exists.mp copied.symm with ⟨bytes, range⟩
    rcases copyRange_eq_some range with ⟨accepted, same⟩
    rw [range, same] at length start
    have signed := bmod_of_copyLength (Option.some.inj length)
    rw [Segment.ReducedPastEnd, signed] at accepted
    by_cases empty : segment.sectors.toNat = 0
    · exact Or.inr ⟨empty, by omega⟩
    · have placed := Option.some.inj (start (Nat.pos_of_ne_zero empty))
      simp only at placed
      exact Or.inl ((segment.inside_iff diskSize).mpr (by omega))
  · intro fits
    have range : Exists fun start =>
        copyRange diskSize segment = some (start, 512 * segment.sectors.toNat) /\
        (0 < segment.sectors.toNat -> start = 512 * segment.sector.toNat) := by
      rcases fits with inside | ⟨empty, accepted⟩
      · exact ⟨_, copyRange_inside inside, fun _ => rfl⟩
      · exact ⟨_, copyRange_empty empty accepted, fun some => absurd empty (by omega)⟩
    rcases range with ⟨start, range, placed⟩
    refine ⟨by rw [copied, range]; rfl, ?_, ?_⟩
    · rw [names, range]
      rfl
    · intro some
      rw [names] at some ⊢
      rw [range, ← placed some]
      rfl

/-! ## The whole queue -/

/-- Leaving out a segment that is turned away leaves out its record and
changes nothing else. -/
theorem serveAll_without {diskSize : Int32} (memory : Nat -> UInt8)
    (earlier later : List (Bool × Segment)) (write : Bool) {rejected : Segment}
    (turnedAway : endOfDevice diskSize rejected.sector rejected.sectors = true) :
    serveAll diskSize memory (earlier ++ later) =
      ((serveAll diskSize memory (earlier ++ (write, rejected) :: later)).1.eraseIdx earlier.length,
        (serveAll diskSize memory (earlier ++ (write, rejected) :: later)).2) := by
  have count : (serveAll diskSize memory earlier).1.length = earlier.length := by
    conv_rhs => rw [← serveAll_order diskSize memory earlier]
    rw [List.length_map]
  have kept : forall memory, (serveSegment diskSize memory write rejected).after = memory := by
    intro memory
    simp only [serveSegment, turnedAway, if_true]
  rw [serveAll_append, serveAll_append, serveAll, kept]
  simp only
  rw [← count, List.eraseIdx_append_of_length_le (Nat.le_refl _), Nat.sub_self]
  rfl

/-- A transferable segment is not turned away. -/
theorem Segment.Transferable.accepted {diskSize : Int32} {segment : Segment}
    (fits : segment.Transferable diskSize) :
    endOfDevice diskSize segment.sector segment.sectors = false := by
  cases turnedAway : endOfDevice diskSize segment.sector segment.sectors with
  | false => rfl
  | true =>
      have transferred := (transferred_iff (fun _ => 0) true segment).mpr fits
      have copied := transferred.copied
      simp only [serveSegment, turnedAway, if_true, Bool.false_eq_true] at copied

/-- Every status is a success, so all successes are transferred iff all
segments can be. -/
theorem serveAll_transferred_iff (diskSize : Int32) (memory : Nat -> UInt8)
    (segments : List (Bool × Segment)) :
    (forall completion, completion ∈ (serveAll diskSize memory segments).1 ->
        completion.status = 0 -> Transferred diskSize completion) <->
      forall entry, entry ∈ segments -> entry.2.Transferable diskSize := by
  apply @serveAll_forall_iff diskSize
    (fun completion => completion.status = 0 -> Transferred diskSize completion)
  intro memory write segment
  rw [← transferred_iff memory write segment]
  exact ⟨fun success => success (serveSegment_status diskSize memory write segment),
    fun moved _ => moved⟩

/-- A segment that is turned away leaves no trace in the others, on every
queue. -/
theorem myRequest_without {diskSize : Int32} {queue other : List Request} {memory : Nat -> UInt8}
    {final : QueueState} (record : final.completed = (serveAll diskSize memory (queueSegments queue)).1)
    (left : final.memory = (serveAll diskSize memory (queueSegments queue)).2)
    {earlier later : List (Bool × Segment)} {write : Bool} {rejected : Segment}
    (segments : queueSegments queue = earlier ++ (write, rejected) :: later)
    (turnedAway : endOfDevice diskSize rejected.sector rejected.sectors = true)
    (same : queueSegments other = earlier ++ later) :
    Exists fun without =>
      (forall fuel, workload other ≤ fuel -> myRequest diskSize fuel other memory = some without) /\
      without.completed = final.completed.eraseIdx earlier.length /\
      without.memory = final.memory := by
  rcases myRequest_serves_all diskSize other memory with ⟨without, ended, _, _, recorded, after⟩
  have dropped := serveAll_without memory earlier later write turnedAway
  rw [← same, ← segments] at dropped
  refine ⟨without, ended, ?_, ?_⟩
  · rw [recorded, dropped, record]
  · rw [after, dropped, left]

/-- On every queue, no loss goes unreported iff every segment is transferable. -/
theorem no_silent_loss_iff (diskSize : Int32) (queue : List Request) (memory : Nat -> UInt8) :
    Exists fun final =>
      (forall fuel, workload queue ≤ fuel -> myRequest diskSize fuel queue memory = some final) /\
      (NoSilentLoss diskSize queue memory final <->
        forall entry, entry ∈ queueSegments queue -> entry.2.Transferable diskSize) := by
  rcases myRequest_serves_all diskSize queue memory with ⟨final, returned, _, _, record, left⟩
  refine ⟨final, returned, ?_⟩
  have transferred := serveAll_transferred_iff diskSize memory (queueSegments queue)
  rw [← record] at transferred
  constructor
  · intro noLoss
    exact transferred.mp noLoss.transferred
  · intro fits
    refine ⟨transferred.mpr fits, ?_, ?_⟩
    · intro completion member turnedAway
      have named : (completion.write, completion.segment) ∈ queueSegments queue := by
        rw [← serveAll_order diskSize memory (queueSegments queue), ← record]
        exact List.mem_map_of_mem member
      rw [(fits _ named).accepted] at turnedAway
      exact absurd turnedAway Bool.false_ne_true
    · intro earlier write rejected later other segments turnedAway same
      exact myRequest_without record left segments turnedAway same

/-- A read just past the end of a disk of one megabyte is turned away, and
ends with status 0. -/
theorem rejected_read_succeeds :
    Exists fun final =>
      myRequest (diskSizeOf 1) 1 [⟨false, [⟨2048, 1, fun _ => 0⟩]⟩] (fun _ => 7) = some final /\
      (final.completed.map fun completion => (completion.status, completion.copied)) = [(0, false)] /\
      Not (NoSilentLoss (diskSizeOf 1) [⟨false, [⟨2048, 1, fun _ => 0⟩]⟩] (fun _ => 7) final) := by
  refine ⟨_, rfl, rfl, ?_⟩
  intro noLoss
  exact noLoss.reported _ List.mem_cons_self (by decide) rfl

end BlockDevice
end KernelStudy
