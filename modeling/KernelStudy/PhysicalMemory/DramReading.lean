import KernelStudy.PhysicalMemory.DramDevice
import KernelStudy.Fileview.BufferFill

namespace KernelStudy
namespace PhysicalMemory

open CellMemory

/-!
# Sequential reading of the `dram` device

A client that calls `my_read` repeatedly sees short reads: every call stops
at a page boundary, so the split of the data depends on the position and on
the requested counts.  Here the calls are put in sequence.  The bytes
received so far are always one contiguous range of physical memory, from the
start position to the current one.

The device also satisfies the contract of `SequentialReader`.  The fill loop
of `fileview` is therefore covered by the general fill theorem, with no
separate argument about page boundaries.
-/

/-! ## One call -/

/-- The bytes that the addresses of an outcome name. -/
def ReadOutcome.bytes (memory : Nat -> UInt8) (outcome : ReadOutcome) : List UInt8 :=
  outcome.source.map memory

/-- One read request of a client, with the number of bytes that its buffer
can take before a fault. -/
structure ReadRequest where
  count : UInt64
  positive : 1 ≤ count
  bounded : count ≤ maxRwCount
  writable : Nat

/-- The call failed and moved nothing. -/
def Faulted (pos : Int64) (outcome : ReadOutcome) : Prop :=
  outcome.ret = -efault /\ outcome.pos = pos

/-- The call delivered a nonempty part of the request, from the position on,
and advanced the position by as much. -/
def Delivered (memory : Nat -> UInt8) (pos : Int64) (request : ReadRequest)
    (outcome : ReadOutcome) : Prop :=
  Exists fun length : Nat => 1 ≤ length /\ length ≤ request.count.toNat /\
    outcome.ret.toInt = length /\
    outcome.bytes memory = load memory pos.toInt.toNat length /\
    outcome.pos.toInt = pos.toInt + length

theorem pageTransfer_pos (position : Nat) {count : Nat} (positive : 1 ≤ count) :
    1 ≤ pageTransfer position count := by
  have room := Nat.mod_lt position (by decide : 0 < 4096)
  rw [pageTransfer]
  omega

theorem pageTransfer_le (position count : Nat) : pageTransfer position count ≤ count :=
  Nat.min_le_left _ _

/-- Before the end of the device a call either faults or makes progress. -/
theorem myRead_faulted_or_delivered (memory : Nat -> UInt8) {pos : Int64}
    (nonneg : 0 ≤ pos.toInt) (inside : pos.toInt < dramSize.toNat) (request : ReadRequest) :
    Faulted pos (myRead request.count request.writable pos) \/
      Delivered memory pos request (myRead request.count request.writable pos) := by
  have exactPos : pos.toInt = (pos.toInt.toNat : Nat) := by omega
  rcases myRead_inside exactPos (by omega) request.bounded request.writable with
    ⟨source, faulted, complete⟩
  by_cases short : request.writable < pageTransfer pos.toInt.toNat request.count.toNat
  · exact Or.inl (faulted short)
  · have enough := Nat.le_of_not_lt short
    have result := complete enough
    refine Or.inr ⟨pageTransfer pos.toInt.toNat request.count.toNat, ?_, ?_, result.1, ?_, ?_⟩
    · exact pageTransfer_pos _ (UInt64.le_iff_toNat_le.mp request.positive)
    · exact pageTransfer_le _ _
    · rw [ReadOutcome.bytes, source, Nat.min_eq_left enough, List.map_map]
      rfl
    · omega

/-! ## Calls in sequence -/

/-- The position and all successfully received bytes. -/
structure Reading where
  pos : Int64
  received : List UInt8

/-- A negative return value tells the client that nothing was received. -/
def readNext (memory : Nat -> UInt8) (reading : Reading) (request : ReadRequest) : Reading :=
  let outcome := myRead request.count request.writable reading.pos
  ⟨outcome.pos, if outcome.ret < 0 then reading.received
    else reading.received ++ outcome.bytes memory⟩

def readSequence (memory : Nat -> UInt8) (start : Int64) (requests : List ReadRequest) : Reading :=
  requests.foldl (readNext memory) ⟨start, []⟩

/-- The received bytes are the memory between the start and the position. -/
def Contiguous (memory : Nat -> UInt8) (start : Int64) (reading : Reading) : Prop :=
  start.toInt ≤ reading.pos.toInt /\
    reading.received =
      load memory start.toInt.toNat (reading.pos.toInt - start.toInt).toNat

theorem readNext_contiguous {memory : Nat -> UInt8} {start : Int64} {reading : Reading}
    (nonneg : 0 ≤ start.toInt) (contiguous : Contiguous memory start reading)
    (request : ReadRequest) : Contiguous memory start (readNext memory reading request) := by
  rcases contiguous with ⟨later, received⟩
  by_cases inside : reading.pos.toInt < dramSize.toNat
  · rcases myRead_faulted_or_delivered memory (Int.le_trans nonneg later) inside request with
      ⟨failed, kept⟩ | ⟨length, positive, fits, returned, bytes, moved⟩
    · have negative : -efault < 0 := by decide
      simp only [readNext, failed, kept, if_pos negative]
      exact ⟨later, received⟩
    · have success : ¬ (myRead request.count request.writable reading.pos).ret < 0 := by
        rw [Int64.lt_iff_toInt_lt, returned, Int64.toInt_zero]
        omega
      simp only [readNext, if_neg success, Contiguous, moved]
      refine ⟨by omega, ?_⟩
      have previousEnd : reading.pos.toInt.toNat =
          start.toInt.toNat + (reading.pos.toInt - start.toInt).toNat := by omega
      rw [received, bytes, previousEnd, load_append]
      congr 1
      omega
  · have atEnd : dramSize ≤ reading.pos.toUInt64 := by
      apply UInt64.le_iff_toNat_le.mpr
      have widened := MachineWord.toNat_toUInt64_of_nonneg (Int.le_trans nonneg later)
      omega
    have notNegative : ¬ (0 : Int64) < 0 := by decide
    simp only [readNext, myRead_at_end atEnd, if_neg notNegative, ReadOutcome.bytes,
      List.map_nil, List.append_nil]
    exact ⟨later, received⟩

theorem readSequence_contiguous (memory : Nat -> UInt8) {start : Int64} (nonneg : 0 ≤ start.toInt)
    (requests : List ReadRequest) :
    Contiguous memory start (readSequence memory start requests) := by
  have begun : Contiguous memory start ⟨start, []⟩ := by
    refine ⟨Int.le_refl _, ?_⟩
    simp only [Int.sub_self, Int.toNat_zero, load_zero]
  rw [readSequence]
  generalize (⟨start, []⟩ : Reading) = reading at begun
  induction requests generalizing reading with
  | nil => exact begun
  | cons request rest inductionHypothesis =>
      exact inductionHypothesis _ (readNext_contiguous nonneg begun request)

/-! ## The device as a sequential reader -/

/-- `read()` on the device with a buffer that does not fault. -/
def dramRead (memory : Nat -> UInt8) (pos : Int64) (count : UInt64) : Fileview.ReadResult Int64 :=
  let outcome := myRead count count.toNat pos
  ⟨outcome.pos, outcome.ret, outcome.bytes memory⟩

/-- The contract of the fill loop, on every nonnegative position.  The device
ends exactly when its position reaches `dram_size`. -/
def dramReader (memory : Nat -> UInt8) : Fileview.SequentialReader Int64 where
  read := dramRead memory
  content := memory
  offset := fun pos => pos.toInt.toNat
  Ready := fun pos => 0 ≤ pos.toInt
  Ended := fun pos => dramSize.toNat ≤ pos.toInt
  read_spec := by
    intro pos count ready positive bounded
    have whole : Fileview.bufsize = 256 := rfl
    by_cases inside : pos.toInt < dramSize.toNat
    · right
      have limit : maxRwCount.toNat = 2147479552 := rfl
      have limited : count ≤ maxRwCount := UInt64.le_iff_toNat_le.mpr (by omega)
      have exactPos : pos.toInt = (pos.toInt.toNat : Nat) := by omega
      rcases myRead_inside exactPos (by omega) limited count.toNat with
        ⟨source, _faulted, complete⟩
      have result := complete (pageTransfer_le _ _)
      refine ⟨pageTransfer pos.toInt.toNat count.toNat, pageTransfer_pos _ positive,
        pageTransfer_le _ _, result.1, ?_, ?_, ?_⟩
      · simp only [dramRead, ReadOutcome.bytes]
        rw [source, Nat.min_eq_left (pageTransfer_le _ _), List.map_map]
        rfl
      · have moved := result.2
        simp only [dramRead]
        omega
      · have moved := result.2
        simp only [dramRead]
        omega
    · left
      have atEnd : dramSize ≤ pos.toUInt64 := by
        apply UInt64.le_iff_toNat_le.mpr
        have widened := MachineWord.toNat_toUInt64_of_nonneg ready
        omega
      simp only [dramRead, myRead_at_end atEnd]
      exact ⟨by decide, rfl, trivial, by omega⟩

/-- With 256 bytes left in the device the fill loop fills the whole buffer. -/
theorem fillLoop_dram (memory : Nat -> UInt8) {start : Int64} (nonneg : 0 ≤ start.toInt)
    (room : start.toInt + 256 ≤ dramSize.toNat) (buffer : Nat -> UInt8) :
    Exists fun final => Fileview.fillLoop (dramRead memory) 256 start buffer = some final /\
      final.datalen = 256 /\ load final.buffer 0 256 = load memory start.toInt.toNat 256 := by
  have ready : (dramReader memory).Ready start := nonneg
  rcases Fileview.SequentialReader.fillLoop_spec ready buffer (Nat.le_refl Fileview.bufsize) with
    ⟨final, returned, filled, whyStopped⟩
  have whole : Fileview.bufsize = 256 := rfl
  have offset : final.device.toInt.toNat = start.toInt.toNat + final.place := filled.offset_eq
  have full : final.place = Fileview.bufsize := by
    rcases whyStopped with full | ended
    · exact full
    · -- the device can only end at `dram_size`, which is not before the last byte
      have atEnd : (dramSize.toNat : Int) ≤ final.device.toInt := ended
      have fits := filled.place_le
      omega
  refine ⟨final, returned, ?_, ?_⟩
  · apply Int32.toInt_inj.mp
    rw [filled.datalen_eq, full]
    rfl
  · simp only [load, Nat.zero_add]
    apply List.map_congr_left
    intro index member
    exact filled.read_part index (by have bound := List.mem_range.mp member; omega)

/-- Sequential reads lose and duplicate nothing, and the fill loop of
`fileview` shows exactly the memory at its position. -/
theorem sequentialReads_exact (memory : Nat -> UInt8) (start : Int64) (nonneg : 0 ≤ start.toInt)
    (requests : List ReadRequest) :
    (forall before request after, requests = before ++ request :: after ->
      (readSequence memory start before).pos.toInt < dramSize.toNat ->
      Faulted (readSequence memory start before).pos
          (myRead request.count request.writable (readSequence memory start before).pos) \/
        Delivered memory (readSequence memory start before).pos request
          (myRead request.count request.writable (readSequence memory start before).pos)) /\
    Contiguous memory start (readSequence memory start requests) /\
    (start.toInt + 256 ≤ dramSize.toNat -> forall buffer, Exists fun final =>
      Fileview.fillLoop (dramRead memory) 256 start buffer = some final /\
        final.datalen = 256 /\ load final.buffer 0 256 = load memory start.toInt.toNat 256) := by
  refine ⟨?_, readSequence_contiguous memory nonneg requests, fun room buffer =>
    fillLoop_dram memory nonneg room buffer⟩
  intro before request after _split early
  have reached := (readSequence_contiguous memory nonneg before).1
  exact myRead_faulted_or_delivered memory (Int.le_trans nonneg reached) early request

/-- Four bytes before a page boundary a request for ten bytes is split: four
arrive first, and the next call delivers the remaining six. -/
theorem sequentialReads_exact_across_page :
    Contiguous (fun address => UInt8.ofNat address) 4092 (readSequence (fun address => UInt8.ofNat address) 4092
      [⟨10, by decide, by decide, 10⟩, ⟨6, by decide, by decide, 6⟩]) /\
    (readSequence (fun address => UInt8.ofNat address) 4092
      [⟨10, by decide, by decide, 10⟩, ⟨6, by decide, by decide, 6⟩]).pos = 4102 :=
  ⟨(sequentialReads_exact _ 4092 (by decide) _).2.1, by decide⟩

end PhysicalMemory
end KernelStudy
