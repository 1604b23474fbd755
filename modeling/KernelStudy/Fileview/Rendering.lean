import KernelStudy.Foundations.MachineWord
import KernelStudy.Foundations.CellMemory

namespace KernelStudy
namespace Fileview

open CellMemory

/-!
# Rendering the display buffer

Every output line is built by successive `sprintf` calls at `outline+linelen`
and is therefore the concatenation of what they write: the line's location,
sixteen bytes in the selected hexadecimal format, and the same bytes as
characters.  A line reads the buffer only through the sixteen bytes of its
row, and the loop advances `location` on its own.

The five formats differ in the width of their elements and in the blanks
around them.  Elements are read as the little-endian host reads them.
-/

/-! ## Formatting of one number -/

def hexDigit (digit : Nat) : Char :=
  ['0', '1', '2', '3', '4', '5', '6', '7', '8', '9', 'A', 'B', 'C', 'D', 'E', 'F'].getD digit '0'

/-- `%X`: the upper-case digits without leading zeros. -/
def upperHex (value : Nat) : List Char :=
  if value = 0 then ['0'] else (Nat.digits 16 value).reverse.map hexDigit

/-- `%0wX`: the width is a minimum, and longer numbers are not cut. -/
def formatHex (width value : Nat) : List Char :=
  List.replicate (width - (upperHex value).length) '0' ++ upperHex value

def blanks (count : Nat) : List Char :=
  List.replicate count ' '

/-! ## One output line -/

/-- The element of `width` bytes at `start`, on a little-endian host. -/
def element (row : Nat -> UInt8) (start width : Nat) : Nat :=
  Nat.ofDigits 256 ((load row start width).map UInt8.toNat)

/-- The elements of one row, each with the same blanks around it. -/
def hexFields (width before after : Nat) (row : Nat -> UInt8) : List Char :=
  (List.range (16 / width)).flatMap fun j =>
    blanks before ++ formatHex (2 * width) (element row (j * width) width) ++ blanks after

def byteFormat (row : Nat -> UInt8) : List Char := hexFields 1 0 1 row

def wordFormat (row : Nat -> UInt8) : List Char := hexFields 2 1 1 row

def dwordFormat (row : Nat -> UInt8) : List Char := hexFields 4 2 2 row

def qwordFormat (row : Nat -> UInt8) : List Char := hexFields 8 4 4 row

/-- The two quadwords are written without a gap, the second one first. -/
def octawordFormat (row : Nat -> UInt8) : List Char :=
  blanks 5 ++ (blanks 3 ++ formatHex 16 (element row 8 8) ++ formatHex 16 (element row 0 8) ++
    blanks 3) ++ blanks 5

/-- The `switch` on the format; it has no default case. -/
def hexPart (format : Int32) (row : Nat -> UInt8) : List Char :=
  if format = 1 then byteFormat row
  else if format = 2 then wordFormat row
  else if format = 4 then dwordFormat row
  else if format = 8 then qwordFormat row
  else if format = 16 then octawordFormat row
  else []

/-- A byte outside the printable range, negative `char` values included, is a dot. -/
def asciiChar (byte : UInt8) : Char :=
  let ch := byte.toInt8
  if ch < 0x20 \/ ch > 0x7E then '.' else Char.ofNat byte.toNat

def asciiPart (row : Nat -> UInt8) : List Char :=
  (List.range 16).map (fun j => asciiChar (row j))

/-- The text of a line whose location prints as the number `address`. -/
def outline (format : Int32) (address : Nat) (row : Nat -> UInt8) : List Char :=
  formatHex 13 address ++ [' '] ++ hexPart format row ++ asciiPart row

/-! ## The rendering loop -/

/-- A line and the place of the screen to which it is sent. -/
structure ScreenLine where
  row : Nat
  col : Nat
  text : List Char

structure RenderState where
  location : Int64
  lines : List ScreenLine

def bufwide : Nat := 16

/-- The sixteen bytes that line `i` reads. -/
def bufferRow (buffer : Nat -> UInt8) (i : Nat) : Nat -> UInt8 :=
  fun j => buffer (i * bufwide + j)

def renderBody (format : Int32) (buffer : Nat -> UInt8) (state : RenderState) (i : Nat) :
    RenderState :=
  { lines := state.lines ++
      [⟨6 + i, 2, outline format state.location.toUInt64.toNat (bufferRow buffer i)⟩]
    location := state.location + 16 }

def renderLoop (format : Int32) (location : Int64) (buffer : Nat -> UInt8) : RenderState :=
  (List.range 16).foldl (renderBody format buffer) ⟨location, []⟩

/-! ## A line depends only on its location and its row -/

theorem element_congr {first second : Nat -> UInt8} {start width : Nat}
    (agree : forall j, j < 16 -> first j = second j) (inside : start + width ≤ 16) :
    element first start width = element second start width := by
  rw [element, element, load_congr (fun offset bound => agree (start + offset) (by omega))]

theorem hexFields_congr {first second : Nat -> UInt8} (width before after : Nat)
    (agree : forall j, j < 16 -> first j = second j) :
    hexFields width before after first = hexFields width before after second := by
  simp only [hexFields, List.flatMap]
  congr 1
  apply List.map_congr_left
  intro j member
  -- the quotient bounds the end of the last element by the sixteen bytes
  have inside : (j + 1) * width ≤ 16 :=
    Nat.le_trans (Nat.mul_le_mul_right width (List.mem_range.mp member)) (Nat.div_mul_le_self 16 width)
  rw [element_congr agree (by rw [Nat.add_mul] at inside; omega)]

theorem outline_congr {first second : Nat -> UInt8} (format : Int32) (address : Nat)
    (agree : forall j, j < 16 -> first j = second j) :
    outline format address first = outline format address second := by
  have hexadecimal : hexPart format first = hexPart format second := by
    simp only [hexPart, byteFormat, wordFormat, dwordFormat, qwordFormat, octawordFormat,
      hexFields_congr _ _ _ agree, element_congr agree (by decide : 8 + 8 ≤ 16),
      element_congr agree (by decide : 0 + 8 ≤ 16)]
  have characters : asciiPart first = asciiPart second := by
    apply List.map_congr_left
    intro j member
    rw [agree j (List.mem_range.mp member)]
  rw [outline, outline, hexadecimal, characters]

/-- After `count` lines the location has advanced sixteen per line, and each
line printed the location at its own turn. -/
theorem renderLoop_prefix (format : Int32) (location : Int64) (buffer : Nat -> UInt8) (count : Nat) :
    (List.range count).foldl (renderBody format buffer) ⟨location, []⟩ =
      ⟨location + 16 * Int64.ofNat count, (List.range count).map fun i =>
        ⟨6 + i, 2, outline format (location + 16 * Int64.ofNat i).toUInt64.toNat (bufferRow buffer i)⟩⟩ := by
  induction count with
  | zero => simp
  | succ count inductionHypothesis =>
      rw [List.range_succ, List.foldl_append, inductionHypothesis, List.map_append]
      simp only [List.foldl_cons, List.foldl_nil, renderBody, List.map_cons, List.map_nil,
        RenderState.mk.injEq, and_true]
      rw [Int64.add_assoc, Int64.ofNat_add, Int64.mul_add]
      rfl

/-- As long as the labels do not leave the 64-bit range, line `i` is labelled
with the exact sum of the position and `16 * i`. -/
theorem renderLoop_lines (format : Int32) {location : Int64} (nonneg : 0 ≤ location.toInt)
    (room : location.toInt + 240 < 2 ^ 63) (buffer : Nat -> UInt8) :
    (renderLoop format location buffer).lines = (List.range 16).map fun i =>
      ⟨6 + i, 2, outline format (location.toInt.toNat + 16 * i) (bufferRow buffer i)⟩ := by
  rw [renderLoop, renderLoop_prefix]
  apply List.map_congr_left
  intro i member
  have bound := List.mem_range.mp member
  have literal : (16 : Int64).toInt = 16 := rfl
  have distance : (16 * Int64.ofNat i).toInt = 16 * i := by
    rw [Int64.toInt_mul, Int64.toInt_ofNat_of_lt (by omega), literal]
    exact Int.bmod_eq_of_le (by omega) (by omega)
  have label : (location + 16 * Int64.ofNat i).toInt = location.toInt + 16 * i := by
    rw [MachineWord.toInt_add_of_range (by omega) (by omega), distance]
  have printed := MachineWord.toNat_toUInt64_of_nonneg
    (show 0 ≤ (location + 16 * Int64.ofNat i).toInt by omega)
  have same : (location + 16 * Int64.ofNat i).toUInt64.toNat = location.toInt.toNat + 16 * i := by
    omega
  rw [same]

end Fileview
end KernelStudy
