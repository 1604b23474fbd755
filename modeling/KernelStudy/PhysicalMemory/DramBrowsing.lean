import KernelStudy.Fileview.Session
import KernelStudy.PhysicalMemory.DramReading
import KernelStudy.PhysicalMemory.DramSeek

namespace KernelStudy
namespace PhysicalMemory

open CellMemory

/-!
# `fileview` on the `dram` device

The device was written to be viewed with `fileview`.  Here the two are put
together: the program's `lseek64` and `read` are the driver's `my_llseek` and
`my_read`, and the driver's file position is the only state between them.

The last window needs its own argument.  The size of the device is not a
multiple of sixteen, so the window that holds the last byte also holds eight
addresses behind it.  `my_read` clips to the page and not to the size, and the
page ends where the window ends: the last window is full as well.
-/

/-! ## The driver behind a descriptor -/

/-- The C library turns a negative result into `-1`. -/
def dramLseek64 (fPos offset : Int64) (whence : Int32) : Int64 × Int64 :=
  let outcome := myLlseek fPos offset whence
  (outcome.fPos, if outcome.ret < 0 then -1 else outcome.ret)

def dramDescriptor (memory : Nat -> UInt8) : Fileview.Descriptor Int64 :=
  ⟨dramLseek64, dramRead memory⟩

/-- A seek to a place on the device reports that place. -/
theorem dramLseek64_eq {fPos offset : Int64} {whence : Int32} {target : Int64}
    (nonneg : 0 ≤ fPos.toInt) (onDevice : SeeksOnDevice fPos offset whence target.toInt) :
    dramLseek64 fPos offset whence = (target, target) := by
  rcases llseek_accepted nonneg onDevice with ⟨returned, stored⟩
  have ret := Int64.toInt_inj.mp returned
  have position := Int64.toInt_inj.mp stored
  have success : ¬ target < 0 := by
    rw [Int64.lt_iff_toInt_lt, Int64.toInt_zero]
    exact Int.not_lt.mpr onDevice.2.1
  simp only [dramLseek64, ret, position, if_neg success]

/-! ## The windows -/

/-- The size that the program sees, and the start of its last window. -/
def dramFilesize : Int64 := 0x25f5ffff8

def lastWindow : Int64 := 0x25f5fff00

theorem posmaxOf_dramFilesize : Fileview.posmaxOf dramFilesize = lastWindow := by decide +kernel

/-- One read fills the last window, past the size of the device. -/
theorem dramRead_last (memory : Nat -> UInt8) :
    (dramRead memory lastWindow 256).device.toInt = 10190061568 := by
  have moved : (myRead 256 256 lastWindow).pos.toInt = 10190061568 := by decide +kernel
  exact moved

/-- The fill loop at the last window stops after that read. -/
theorem place_last {memory : Nat -> UInt8} {buffer : Nat -> UInt8} {filled : Fileview.FillState Int64}
    (returned : Fileview.fillLoop (dramRead memory) Fileview.bufsize lastWindow buffer = some filled) :
    filled.place = Fileview.bufsize := by
  have ready : (dramReader memory).Ready lastWindow := by
    change 0 ≤ lastWindow.toInt
    decide
  have begun : (dramReader memory).Filled ((dramReader memory).offset lastWindow) buffer
      ⟨lastWindow, buffer, 0, 256, false⟩ :=
    ⟨Nat.zero_le _, rfl, rfl, fun index impossible => absurd impossible (Nat.not_lt_zero index),
      fun _ _ => rfl, fun _ => ready, by intro impossible; cases impossible⟩
  have guard : Fileview.fillGuard (⟨lastWindow, buffer, 0, 256, false⟩ : Fileview.FillState Int64) =
      true := Fileview.SequentialReader.fillGuard_iff.mpr ⟨by change 0 < (256 : Int32).toInt; decide, rfl⟩
  have step := (begun.body guard).1
  generalize after : Fileview.fillBody (dramReader memory).read
    ⟨lastWindow, buffer, 0, 256, false⟩ = next at step
  have device : next.device = (dramRead memory lastWindow 256).device := by
    have count : (256 : Int32).toInt64.toUInt64 = 256 := by decide
    have reader : (dramReader memory).read = dramRead memory := rfl
    rw [← after]
    simp only [Fileview.fillBody, count, reader]
    split <;> simp only
  have moved := step.offset_eq
  change next.device.toInt.toNat = lastWindow.toInt.toNat + next.place at moved
  rw [device, dramRead_last] at moved
  have start : lastWindow.toInt = 10190061312 := rfl
  have whole : Fileview.bufsize = 256 := rfl
  have full : next.place = Fileview.bufsize := by omega
  have finished : Fileview.fillGuard next = false := by
    have nothingLeft := step.toRead_eq
    rw [Bool.eq_false_iff]
    intro continues
    have active := Fileview.SequentialReader.fillGuard_iff.mp continues
    omega
  have result : Fileview.fillLoop (dramRead memory) Fileview.bufsize lastWindow buffer = some next := by
    change BoundedLoop.loop Fileview.fillGuard (Fileview.fillBody (dramReader memory).read) (255 + 1) _ = _
    rw [BoundedLoop.loop_unfinished _ _ _ guard, after, BoundedLoop.loop_finished _ _ _ finished]
  have same : next = filled := Option.some.inj (result.symm.trans returned)
  rw [← same]
  exact full

/-- Every window of the navigation is filled from memory. -/
theorem fillLoop_window (memory : Nat -> UInt8) {position : Int64} (aligned : 16 ∣ position.toInt)
    (nonneg : 0 ≤ position.toInt) (within : position.toInt ≤ lastWindow.toInt) (buffer : Nat -> UInt8) :
    Exists fun filled => Fileview.fillLoop (dramRead memory) Fileview.bufsize position buffer = some filled /\
      0 ≤ filled.device.toInt /\
      forall k, k < Fileview.bufsize -> filled.buffer k = memory (position.toInt.toNat + k) := by
  have ready : (dramReader memory).Ready position := nonneg
  have whole : Fileview.bufsize = 256 := rfl
  have size : dramSize.toNat = 10190061560 := rfl
  have last : lastWindow.toInt = 10190061312 := rfl
  rcases Fileview.SequentialReader.fillLoop_spec ready buffer (Nat.le_refl Fileview.bufsize) with
    ⟨filled, returned, holds, whyStopped⟩
  have offset : filled.device.toInt.toNat = position.toInt.toNat + filled.place := holds.offset_eq
  have usable : 0 ≤ filled.device.toInt := by
    cases stopped : filled.stopped with
    | false => exact holds.ready stopped
    | true =>
        have ended : (dramSize.toNat : Int) ≤ filled.device.toInt := holds.ended stopped
        omega
  refine ⟨filled, returned, usable, ?_⟩
  suffices full : filled.place = Fileview.bufsize by
    intro k inside
    exact holds.read_part k (by omega)
  by_cases room : position.toInt + 256 ≤ dramSize.toNat
  · rcases whyStopped with full | ended
    · exact full
    · have atEnd : (dramSize.toNat : Int) ≤ filled.device.toInt := ended
      have fits := holds.place_le
      omega
  · -- only one aligned window reaches past the size, and a single read fills it
    have same : position = lastWindow := Int64.toInt_inj.mp (by omega)
    subst position
    exact place_last returned

/-- The device can be browsed.  Its windows show memory and nothing else. -/
def browsableDram (memory : Nat -> UInt8) : Fileview.Browsable Int64 where
  toDescriptor := dramDescriptor memory
  Usable := fun fPos => 0 ≤ fPos.toInt
  filesize := dramFilesize
  shown := fun position distance => memory (position + distance)
  filesize_nonneg := by decide
  seek_end := by
    intro fPos usable
    have onDevice : SeeksOnDevice fPos 0 2 dramFilesize.toInt := ⟨rfl, by decide, by decide⟩
    simp only [dramDescriptor, dramLseek64_eq usable onDevice, true_and]
    decide
  window := by
    intro fPos position usable aligned nonneg within buffer
    rw [posmaxOf_dramFilesize] at within
    have size : dramSize.toNat = 10190061560 := rfl
    have last : lastWindow.toInt = 10190061312 := rfl
    have onDevice : SeeksOnDevice fPos position 0 position.toInt := ⟨rfl, nonneg, by omega⟩
    simp only [dramDescriptor, dramLseek64_eq usable onDevice, true_and]
    rcases fillLoop_window memory aligned nonneg within buffer with ⟨filled, returned, kept, bytes⟩
    exact ⟨filled, returned, kept, fun _ => bytes⟩

/-- A session of `fileview` on the device, from any file position.  It shows
physical memory: after every sequence of keys the view is that of the
navigation in a file of `dram_size` bytes, and every line of every screen gives
back its address and the sixteen bytes of memory at that address.  The last
window also shows the eight bytes behind the size, and no byte of any screen
is padding. -/
theorem session_shows_memory (memory : Nat -> UInt8) (fPos : Int64) (nonneg : 0 ≤ fPos.toInt)
    (keys : List Fileview.Keypress) :
    Exists fun first =>
      Fileview.openSession (dramDescriptor memory) fPos = some (lastWindow, first) /\
      (LabelledRun.run (Fileview.pressKey (dramDescriptor memory) lastWindow) first keys).map
          Fileview.Session.view =
        LabelledRun.run (Fileview.iteration lastWindow) Fileview.View.start.loopTop keys /\
      forall session,
        LabelledRun.run (Fileview.pressKey (dramDescriptor memory) lastWindow) first keys = some session ->
        Fileview.ShowsAlong memory lastWindow keys session := by
  have bound : (browsableDram memory).posmax = lastWindow := posmaxOf_dramFilesize
  have agree : forall position k, k < 256 ->
      (browsableDram memory).shown position k = memory (position + k) := fun _ _ _ => rfl
  have spec := (browsableDram memory).session_spec nonneg (by rw [bound]; decide) agree keys
  rw [bound] at spec
  exact spec

/-- The end key leads to the last window.  Its last line gives back the bytes from
`0x25F5FFFF0` on, the second half of them behind the size. -/
theorem session_shows_memory_end :
    Exists fun first =>
      Fileview.openSession (dramDescriptor fun address => UInt8.ofNat address) 0 =
          some (lastWindow, first) /\
        Exists fun session => Exists fun screen => Exists fun line =>
          LabelledRun.run (Fileview.pressKey (dramDescriptor fun address => UInt8.ofNat address) lastWindow)
            first [⟨Fileview.kbEnd, []⟩] = some session /\
          session.screens.getLast? = some screen /\ screen[15]? = some line /\
          Fileview.lineAddress line = 0x25F5FFFF0 /\ dramSize.toNat = 0x25F5FFFF8 /\
          Fileview.lineBytes 1 line = [0xF0, 0xF1, 0xF2, 0xF3, 0xF4, 0xF5, 0xF6, 0xF7,
            0xF8, 0xF9, 0xFA, 0xFB, 0xFC, 0xFD, 0xFE, 0xFF] := by
  rcases session_shows_memory (fun address => UInt8.ofNat address) 0 (by decide)
    [⟨Fileview.kbEnd, []⟩] with ⟨first, opened, views, shows⟩
  have moved : LabelledRun.run (Fileview.iteration lastWindow) Fileview.View.start.loopTop
      [⟨Fileview.kbEnd, []⟩] = some ⟨lastWindow, 0x100, 1, false⟩ := by decide +kernel
  rw [moved, Option.map_eq_some_iff] at views
  rcases views with ⟨session, reached, view⟩
  rcases (shows session reached).current (by rw [view]) with ⟨screen, last, _lines, rows⟩
  rcases rows 15 (by decide) with ⟨line, found, address, bytes⟩
  rw [view] at address bytes
  exact ⟨first, opened, session, screen, line, reached, last, found, address.trans (by decide +kernel), rfl,
    bytes.trans (by decide +kernel)⟩

end PhysicalMemory
end KernelStudy
