import KernelStudy.Foundations.MachineWord
import KernelStudy.Foundations.CellMemory
import KernelStudy.Foundations.BoundedLoop

namespace KernelStudy
namespace Fileview

open CellMemory

/-!
# Filling the display buffer from a device

The fill loop of `fileview` repeats `read()` into a moving pointer until 256
bytes have arrived or a call returns nothing.  The file descriptor may name
any device, so the loop is modelled over an arbitrary read function with an
explicit device state.

`SequentialReader` states what the loop relies on: a call that returns a
positive number stores exactly that many bytes from the device's current
offset and advances it.  The fill theorem is proved once for every such
reader.  How the device splits the data into short reads is immaterial.
-/

/-! ## The loop of the source -/

/-- One `read()` call: the device after it, the returned value, and the
bytes stored at the supplied pointer. -/
structure ReadResult (Device : Type) where
  device : Device
  nbytes : Int64
  bytes : List UInt8

/-- The local variables of the fill loop.  `place` is the distance of the
pointer `where` from the start of `buffer`, and `stopped` records the `break`. -/
structure FillState (Device : Type) where
  device : Device
  buffer : Nat -> UInt8
  place : Nat
  toRead : Int32
  stopped : Bool

def bufsize : Nat := 256

variable {Device : Type}

def fillGuard (state : FillState Device) : Bool :=
  decide (0 < state.toRead) && !state.stopped

def fillBody (read : Device -> UInt64 -> ReadResult Device) (state : FillState Device) :
    FillState Device :=
  let result := read state.device state.toRead.toInt64.toUInt64
  let buffer := store state.buffer state.place result.bytes
  let nbytes := result.nbytes.toInt32
  if nbytes ≤ 0 then { state with device := result.device, buffer := buffer, stopped := true }
  else
    { device := result.device, buffer := buffer, place := state.place + nbytes.toInt.toNat,
      toRead := state.toRead - nbytes, stopped := false }

/-- `where = buffer; to_read = BUFSIZE; while (to_read > 0) ...` -/
def fillLoop (read : Device -> UInt64 -> ReadResult Device) (fuel : Nat) (device : Device)
    (buffer : Nat -> UInt8) : Option (FillState Device) :=
  BoundedLoop.loop fillGuard (fillBody read) fuel ⟨device, buffer, 0, 256, false⟩

/-- `datalen = BUFSIZE - to_read` -/
def FillState.datalen (state : FillState Device) : Int32 :=
  256 - state.toRead

/-! ## Devices that are read in sequence -/

/-- A device whose successful reads deliver consecutive bytes of `content`.
The contract is promised for devices that are `Ready`; a call that returns
zero or an error stores nothing and leaves an `Ended` device. -/
structure SequentialReader (Device : Type) where
  read : Device -> UInt64 -> ReadResult Device
  content : Nat -> UInt8
  offset : Device -> Nat
  Ready : Device -> Prop
  Ended : Device -> Prop
  read_spec : forall device count, Ready device -> 1 ≤ count.toNat -> count.toNat ≤ bufsize ->
    ((read device count).nbytes.toInt32 ≤ 0 /\ (read device count).bytes = [] /\
      offset (read device count).device = offset device /\ Ended (read device count).device) \/
    (Exists fun advance => 1 ≤ advance /\ advance ≤ count.toNat /\
      (read device count).nbytes.toInt = (advance : Nat) /\
      (read device count).bytes = load content (offset device) advance /\
      offset (read device count).device = offset device + advance /\
      Ready (read device count).device)

namespace SequentialReader

variable (reader : SequentialReader Device)

/-- What is known between two iterations: the bytes below `place` have been
read in order, the rest of the buffer is still the initial one, and
`to_read` counts exactly the missing bytes. -/
structure Filled (start : Nat) (initial : Nat -> UInt8) (state : FillState Device) : Prop where
  place_le : state.place ≤ bufsize
  toRead_eq : state.toRead.toInt = bufsize - state.place
  offset_eq : reader.offset state.device = start + state.place
  read_part : forall index, index < state.place -> state.buffer index = reader.content (start + index)
  rest_part : forall index, state.place ≤ index -> state.buffer index = initial index
  ready : state.stopped = false -> reader.Ready state.device
  ended : state.stopped = true -> reader.Ended state.device

variable {reader} {start : Nat} {initial : Nat -> UInt8} {state : FillState Device}

theorem fillGuard_iff : fillGuard state = true <-> 0 < state.toRead.toInt /\ state.stopped = false := by
  rw [fillGuard, Bool.and_eq_true, decide_eq_true_eq, Int32.lt_iff_toInt_lt, Int32.toInt_zero]
  simp only [Bool.not_eq_true']

/-- The value of `to_read` reaches the device unchanged. -/
theorem Filled.toNat_toRead (filled : reader.Filled start initial state) :
    state.toRead.toInt64.toUInt64.toNat = bufsize - state.place := by
  have value := filled.toRead_eq
  have fits := filled.place_le
  have nonneg : 0 ≤ state.toRead.toInt := by omega
  have widened := MachineWord.toNat_widen_of_nonneg nonneg
  omega

/-- One iteration either stops the loop with the buffer untouched, or extends
the filled part by at least one byte. -/
theorem Filled.body (filled : reader.Filled start initial state) (guard : fillGuard state = true) :
    reader.Filled start initial (fillBody reader.read state) /\
      ((fillBody reader.read state).stopped = true \/
        state.place < (fillBody reader.read state).place) := by
  have active := fillGuard_iff.mp guard
  have value := filled.toRead_eq
  have count := filled.toNat_toRead
  have fits := filled.place_le
  have whole : bufsize = 256 := rfl
  rcases reader.read_spec state.device state.toRead.toInt64.toUInt64 (filled.ready active.2)
      (by omega) (by omega) with
    ⟨nothing, stored, kept, ended⟩ | ⟨advance, positive, bounded, returned, stored, moved, ready⟩
  · have body : fillBody reader.read state = { state with
        device := (reader.read state.device state.toRead.toInt64.toUInt64).device
        stopped := true } := by
      simp only [fillBody, if_pos nothing, stored, store_nil]
    rw [body]
    exact ⟨{ filled with
      offset_eq := kept.trans filled.offset_eq
      ready := by intro impossible; cases impossible
      ended := fun _ => ended }, Or.inl rfl⟩
  · have nbytes : (reader.read state.device state.toRead.toInt64.toUInt64).nbytes.toInt32.toInt =
        (advance : Nat) := by
      rw [Int64.toInt_toInt32, returned]
      exact Int.bmod_eq_of_le (by omega) (by omega)
    have some_ : ¬ (reader.read state.device state.toRead.toInt64.toUInt64).nbytes.toInt32 ≤ 0 := by
      rw [Int32.le_iff_toInt_le, nbytes, Int32.toInt_zero]
      omega
    have body : fillBody reader.read state = {
        device := (reader.read state.device state.toRead.toInt64.toUInt64).device
        buffer := store state.buffer state.place (load reader.content (start + state.place) advance)
        place := state.place + advance
        toRead := state.toRead - (reader.read state.device
          state.toRead.toInt64.toUInt64).nbytes.toInt32
        stopped := false } := by
      simp only [fillBody, if_neg some_, nbytes, Int.toNat_natCast, stored, filled.offset_eq]
    rw [body]
    refine ⟨⟨?_, ?_, ?_, ?_, ?_, fun _ => ready, by intro impossible; cases impossible⟩,
      Or.inr (by simp only; omega)⟩
    · simp only
      omega
    · simp only [Int32.toInt_sub, nbytes]
      rw [Int.bmod_eq_of_le (by omega) (by omega)]
      omega
    · simp only [moved, filled.offset_eq, Nat.add_assoc]
    · intro index inside
      simp only at inside ⊢
      by_cases earlier : index < state.place
      · rw [store_below _ _ earlier]
        exact filled.read_part index earlier
      · have offset : index = state.place + (index - state.place) := by omega
        rw [offset, store_load_inside _ _ (by omega)]
        congr 1
        omega
    · intro index beyond
      simp only at beyond ⊢
      rw [store_above _ (by rw [length_load]; exact beyond)]
      exact filled.rest_part index (by omega)

/-- The fill loop always returns, after at most 256 calls.  The buffer holds
`datalen` consecutive bytes followed by its initial content, and fewer than
256 bytes arrived only if the device ended. -/
theorem fillLoop_spec {device : Device} (ready : reader.Ready device) (buffer : Nat -> UInt8)
    {fuel : Nat} (enough : bufsize ≤ fuel) :
    Exists fun final => fillLoop reader.read fuel device buffer = some final /\
      reader.Filled (reader.offset device) buffer final /\
      (final.place = bufsize \/ reader.Ended final.device) := by
  have begun : reader.Filled (reader.offset device) buffer ⟨device, buffer, 0, 256, false⟩ :=
    ⟨Nat.zero_le _, rfl, rfl, fun index impossible => absurd impossible (Nat.not_lt_zero index),
      fun _ _ => rfl, fun _ => ready, by intro impossible; cases impossible⟩
  -- the measure counts the missing bytes, and drops to zero when the loop stops
  rcases BoundedLoop.loop_total fillGuard (fillBody reader.read)
    (reader.Filled (reader.offset device) buffer)
    (fun state => if state.stopped then 0 else bufsize - state.place)
    (fun state filled guard => (filled.body guard).1)
    (by
      intro state filled guard
      have active := fillGuard_iff.mp guard
      have value := filled.toRead_eq
      have fits := (filled.body guard).1.place_le
      simp only [active.2, Bool.false_eq_true, if_false]
      split
      · omega
      · rename_i continues
        rcases (filled.body guard).2 with stops | grows
        · exact absurd stops continues
        · omega)
    begun (Nat.le_trans (Nat.sub_le _ _) enough) with ⟨final, returned, filled, finished⟩
  refine ⟨final, returned, filled, ?_⟩
  cases stopped : final.stopped with
  | true => exact Or.inr (filled.ended stopped)
  | false =>
      left
      have nothingLeft : ¬ 0 < final.toRead.toInt := by
        intro some_
        rw [fillGuard_iff.mpr ⟨some_, stopped⟩] at finished
        cases finished
      have value := filled.toRead_eq
      have fits := filled.place_le
      omega

theorem Filled.datalen_eq (filled : reader.Filled start initial state) :
    state.datalen.toInt = (state.place : Nat) := by
  have value := filled.toRead_eq
  have fits := filled.place_le
  have whole : bufsize = 256 := rfl
  have literal : (256 : Int32).toInt = 256 := rfl
  rw [FillState.datalen, Int32.toInt_sub, literal, Int.bmod_eq_of_le (by omega) (by omega)]
  omega

end SequentialReader
end Fileview
end KernelStudy
