import KernelStudy.Fileview.BufferFill
import KernelStudy.Fileview.Navigation
import KernelStudy.Fileview.Rendering

namespace KernelStudy
namespace Fileview

open CellMemory

/-!
# The window on a file

One iteration of the main loop erases the buffer, seeks to the position,
fills the buffer from the file and renders it.  The file is a fixed list of
bytes.  How `read()` splits the data is left to a schedule: an entry either
makes the call fail, or proposes a length that is brought into the range a
regular file allows, from one to what is wanted and left.

The result of the module is that the screen is a function of the file, the
position and the number of bytes obtained, whatever the buffer held before.
-/

/-! ## Reading a regular file -/

/-- The file offset, the outcomes of the calls still to come, and whether a
call has failed. -/
structure FileDevice where
  offset : Nat
  schedule : Nat -> Option Nat
  failed : Bool

/-- `read()` on a file that does not change.  At the end of the file it
returns zero. -/
def fileRead (content : List UInt8) (device : FileDevice) (count : UInt64) :
    ReadResult FileDevice :=
  let later := fun call => device.schedule (call + 1)
  match device.schedule 0 with
  | none => ⟨{ device with schedule := later, failed := true }, -1, []⟩
  | some proposed =>
      let left := content.length - device.offset
      let length := if left = 0 then 0 else max 1 (min proposed (min count.toNat left))
      ⟨{ device with schedule := later, offset := device.offset + length }, Int64.ofNat length,
        (content.drop device.offset).take length⟩

/-- The byte at an offset; it is only consulted inside the file. -/
def fileByte (content : List UInt8) (offset : Nat) : UInt8 :=
  content.getD offset 0

theorem take_drop_eq_load (content : List UInt8) {offset length : Nat}
    (inside : offset + length ≤ content.length) :
    (content.drop offset).take length = load (fileByte content) offset length := by
  apply List.ext_getElem
  · simp only [List.length_take, List.length_drop, length_load]
    omega
  · intro index first second
    have bound : offset + index < content.length := by
      rw [length_load] at second
      omega
    simp only [List.getElem_take, List.getElem_drop, load, List.getElem_map, List.getElem_range,
      fileByte, List.getD_eq_getElem?_getD, List.getElem?_eq_getElem bound, Option.getD_some]

/-- Every schedule satisfies the contract of the fill loop.  The reads end at
the end of the file or at a failed call, and never pass the end. -/
def fileReader (content : List UInt8) : SequentialReader FileDevice where
  read := fileRead content
  content := fileByte content
  offset := FileDevice.offset
  Ready := fun device => device.offset ≤ content.length
  Ended := fun device => device.offset ≤ content.length /\
    (device.failed = true \/ device.offset = content.length)
  read_spec := by
    intro device count ready positive bounded
    have whole : bufsize = 256 := rfl
    cases proposal : device.schedule 0 with
    | none =>
        left
        simp only [fileRead, proposal]
        exact ⟨by decide, trivial, trivial, ready, Or.inl trivial⟩
    | some proposed =>
        simp only [fileRead, proposal]
        by_cases atEnd : content.length - device.offset = 0
        · left
          simp only [if_pos atEnd]
          exact ⟨by decide, List.take_zero, Nat.add_zero _, by omega, Or.inr (by omega)⟩
        · right
          simp only [if_neg atEnd]
          refine ⟨max 1 (min proposed (min count.toNat (content.length - device.offset))),
            by omega, by omega, ?_, take_drop_eq_load content (by omega), rfl, by omega⟩
          exact Int64.toInt_ofNat_of_lt (by omega)

/-! ## One iteration up to the key press -/

/-- `for (j = 0; j < BUFSIZE; j++) buffer[ j ] = ~0;` -/
def eraseBuffer (buffer : Nat -> UInt8) : Nat -> UInt8 :=
  (List.range bufsize).foldl (fun buffer j => store buffer j [0xFF]) buffer

theorem eraseBuffer_prefix (buffer : Nat -> UInt8) (count : Nat) {index : Nat} (inside : index < count) :
    (List.range count).foldl (fun buffer j => store buffer j [0xFF]) buffer index = 0xFF := by
  induction count with
  | zero => exact absurd inside (Nat.not_lt_zero index)
  | succ count inductionHypothesis =>
      rw [List.range_succ, List.foldl_append]
      simp only [List.foldl_cons, List.foldl_nil]
      by_cases last : index = count
      · subst index
        simp [store]
      · rw [store_below _ _ (by omega)]
        exact inductionHypothesis (by omega)

/-- The state after the fill loop, and the lines sent to the screen.  The
seek is assumed to succeed, so `location` is the position itself. -/
def showWindow (content : List UInt8) (view : View) (schedule : Nat -> Option Nat)
    (buffer : Nat -> UInt8) : Option (FillState FileDevice × List ScreenLine) :=
  let location := view.position
  let device : FileDevice := ⟨view.position.toInt.toNat, schedule, false⟩
  (fillLoop (fileRead content) bufsize device (eraseBuffer buffer)).map fun filled =>
    (filled, (renderLoop view.format location filled.buffer).lines)

/-- The byte that the window shows at a distance from its start. -/
def shownByte (content : List UInt8) (position obtained distance : Nat) : UInt8 :=
  if distance < obtained then fileByte content (position + distance) else 0xFF

/-- A row of a buffer that holds the bytes obtained and `0xFF` after them. -/
theorem bufferRow_shown {content : List UInt8} {position obtained : Nat} {buffer : Nat -> UInt8}
    (readPart : forall k, k < obtained -> buffer k = fileByte content (position + k))
    (erased : forall k, obtained ≤ k -> k < bufsize -> buffer k = 0xFF) {i : Nat} (row : i < 16)
    (j : Nat) (column : j < 16) :
    bufferRow buffer i j = shownByte content position obtained (16 * i + j) := by
  have whole : bufsize = 256 := rfl
  have index : i * bufwide + j = 16 * i + j := by
    rw [show bufwide = 16 from rfl]
    omega
  rw [bufferRow, index, shownByte]
  by_cases inside : 16 * i + j < obtained
  · rw [if_pos inside]
    exact readPart _ inside
  · rw [if_neg inside]
    exact erased _ (Nat.le_of_not_lt inside) (by omega)

/-- The size that `lseek64` reports. -/
def filesizeOf (content : List UInt8) : Int64 :=
  Int64.ofNat content.length

/-- A reachable window starts inside the file and ends below the limit of
64-bit labels. -/
theorem reachable_position {content : List UInt8} (representable : content.length < 2 ^ 63)
    {keys : List Keypress} {view : View}
    (reached : LabelledRun.run (iteration (posmaxOf (filesizeOf content))) View.start.loopTop keys =
      some view) :
    0 ≤ view.position.toInt /\ view.position.toInt ≤ content.length /\
      view.position.toInt + 240 < 2 ^ 63 := by
  have size : (filesizeOf content).toInt = content.length := Int64.toInt_ofNat_of_lt representable
  have nonneg : 0 ≤ (filesizeOf content).toInt := by omega
  have onPage := run_onPage (posmaxOf_bound nonneg) reached
  have limit := toInt_posmaxOf nonneg
  have lower := onPage.nonneg
  have upper := onPage.le_posmax
  omega

/-- The window shows the file.  For every file, every reachable state of the
navigation, every schedule of reads and every earlier buffer, the fill loop
returns; the buffer holds the bytes obtained and `0xFF` after them; all bytes
up to the end of the file are obtained unless a read fails; and line `i` is
labelled `position + 16 * i` and computed from exactly the shown bytes of its
sixteen offsets. -/
theorem window_shows_file (content : List UInt8) (representable : content.length < 2 ^ 63)
    (keys : List Keypress) (view : View)
    (reached : LabelledRun.run (iteration (posmaxOf (filesizeOf content))) View.start.loopTop keys =
      some view)
    (schedule : Nat -> Option Nat) (buffer : Nat -> UInt8) :
    Exists fun filled => Exists fun lines =>
      showWindow content view schedule buffer = some (filled, lines) /\
      Exists fun obtained : Nat =>
        filled.datalen.toInt = obtained /\ obtained ≤ bufsize /\
        filled.device.offset = view.position.toInt.toNat + obtained /\
        view.position.toInt.toNat + obtained ≤ content.length /\
        (forall k, k < obtained ->
          filled.buffer k = fileByte content (view.position.toInt.toNat + k)) /\
        (forall k, obtained ≤ k -> k < bufsize -> filled.buffer k = 0xFF) /\
        (filled.device.failed = false ->
          obtained = min bufsize (content.length - view.position.toInt.toNat)) /\
        lines = (List.range 16).map fun i =>
          ⟨6 + i, 2, outline view.format (view.position.toInt.toNat + 16 * i) (fun j =>
            shownByte content view.position.toInt.toNat obtained (16 * i + j))⟩ := by
  rcases reachable_position representable reached with ⟨nonneg, inside, room⟩
  have ready : (fileReader content).Ready ⟨view.position.toInt.toNat, schedule, false⟩ := by
    show view.position.toInt.toNat ≤ content.length
    omega
  rcases SequentialReader.fillLoop_spec ready (eraseBuffer buffer) (Nat.le_refl bufsize) with
    ⟨filled, returned, holds, whyStopped⟩
  have whole : bufsize = 256 := rfl
  have offset : filled.device.offset = view.position.toInt.toNat + filled.place := holds.offset_eq
  have before : filled.device.offset ≤ content.length := by
    cases stopped : filled.stopped with
    | false => exact holds.ready stopped
    | true => exact (holds.ended stopped).1
  have erased : forall k, filled.place ≤ k -> k < bufsize -> filled.buffer k = 0xFF := by
    intro k beyond bound
    rw [holds.rest_part k beyond]
    exact eraseBuffer_prefix buffer bufsize bound
  refine ⟨filled, (renderLoop view.format view.position filled.buffer).lines, ?_, filled.place,
    holds.datalen_eq, holds.place_le, offset, by omega, holds.read_part, erased, ?_, ?_⟩
  · simp only [showWindow]
    rw [show fillLoop (fileRead content) bufsize _ (eraseBuffer buffer) = some filled from returned]
    rfl
  · intro noFailure
    rcases whyStopped with full | ⟨_, failed | atEnd⟩
    · omega
    · rw [noFailure] at failed
      cases failed
    · have fits := holds.place_le
      omega
  · rw [renderLoop_lines view.format nonneg room filled.buffer]
    apply List.map_congr_left
    intro i member
    have agree : forall j, j < 16 -> bufferRow filled.buffer i j =
        shownByte content view.position.toInt.toNat filled.place (16 * i + j) :=
      bufferRow_shown holds.read_part erased (List.mem_range.mp member)
    rw [outline_congr view.format _ agree]

/-- A three-byte file, read two bytes at a time into a buffer of zeros: its first line,
and the label of its second one. -/
theorem window_shows_file_short :
    Exists fun filled => Exists fun lines =>
      showWindow [0x41, 0x42, 0x43] View.start.loopTop (fun _ => some 2) (fun _ => 0) =
        some (filled, lines) /\ lines.length = 16 /\
      lines[0]? = some ⟨6, 2,
        "0000000000000 41 42 43 FF FF FF FF FF FF FF FF FF FF FF FF FF ABC.............".toList⟩ /\
      lines[1]?.map (fun line => line.text.take 14) = some "0000000000010 ".toList := by
  rcases window_shows_file [0x41, 0x42, 0x43] (by decide) [] View.start.loopTop rfl
    (fun _ => some 2) (fun _ => 0) with ⟨filled, lines, shown, obtained, length, _, _, _, _, _, _, same⟩
  have three : (showWindow [0x41, 0x42, 0x43] View.start.loopTop (fun _ => some 2) (fun _ => 0)).map
      (fun result => result.1.datalen.toInt) = some 3 := by decide +kernel
  rw [shown, Option.map_some, length, Option.some.injEq] at three
  have whole : obtained = 3 := by omega
  rw [whole] at same
  refine ⟨filled, lines, shown, ?_, ?_, ?_⟩
  · rw [same, List.length_map, List.length_range]
  · have text : outline View.start.loopTop.format (0 + 16 * 0)
        (fun j => shownByte [0x41, 0x42, 0x43] 0 3 (16 * 0 + j)) =
        "0000000000000 41 42 43 FF FF FF FF FF FF FF FF FF FF FF FF FF ABC.............".toList := by
      decide +kernel
    rw [same, List.getElem?_map, List.getElem?_range (by decide), Option.map_some]
    exact congrArg (fun text => some (ScreenLine.mk 6 2 text)) text
  · rw [same]
    decide +kernel

end Fileview
end KernelStudy
