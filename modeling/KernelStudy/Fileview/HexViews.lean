import KernelStudy.Foundations.CellMemory
import KernelStudy.Foundations.Numeral
import KernelStudy.Fileview.SeekPrompt
import KernelStudy.Fileview.Navigation
import KernelStudy.Fileview.Rendering

namespace KernelStudy
namespace Fileview

open CellMemory

/-!
# The five hexadecimal views

A view is read back by cutting it into fields, taking the digits of each
field as one number, and laying the numbers out in memory order.  One decoder
serves all views: an element of `width` bytes always has a field of
`3 * width` characters, and only the element width differs.

The octaword view is written by its own code, as two quadwords without a gap.
It is the one-field case of the same layout.
-/

/-! ## Reading a view -/

def readHexDigit (ch : Char) : Nat :=
  (hexValue (UInt8.ofNat ch.toNat)).getD 0

def readHex (text : List Char) : Nat :=
  Numeral.read 16 readHexDigit text

/-- The number in a field, without the blanks around it. -/
def readField (field : List Char) : Nat :=
  readHex (field.filter fun ch => ch != ' ')

/-- The bytes that a hexadecimal part shows for elements of `width` bytes. -/
def decodeView (width : Nat) (text : List Char) : List UInt8 :=
  (Numeral.fields (16 / width) (3 * width) text).flatMap fun field =>
    Numeral.bytesOf width (readField field)

/-! ## Formatted numbers -/

theorem hexValue_hexDigit (digit : Nat) (small : digit < 16) :
    hexValue (UInt8.ofNat (hexDigit digit).toNat) = some digit := by
  revert digit
  decide

theorem readHexDigit_hexDigit (digit : Nat) (small : digit < 16) :
    readHexDigit (hexDigit digit) = digit := by
  rw [readHexDigit, hexValue_hexDigit digit small, Option.getD_some]

theorem upperHex_digits (value : Nat) :
    forall ch, ch ∈ upperHex value -> Exists fun digit => digit < 16 /\ ch = hexDigit digit := by
  intro ch member
  rw [upperHex] at member
  split at member
  · exact ⟨0, by decide, List.mem_singleton.mp member⟩
  · rcases List.mem_map.mp member with ⟨digit, listed, same⟩
    exact ⟨digit, Nat.digits_lt_base (by decide) (List.mem_reverse.mp listed), same.symm⟩

theorem readHex_upperHex (value : Nat) : readHex (upperHex value) = value := by
  rw [upperHex]
  split
  · rename_i zero
    subst value
    decide
  · exact Numeral.read_digits 16 readHexDigit (by decide) readHexDigit_hexDigit value

theorem length_upperHex_le_iff {value width : Nat} (positive : 1 ≤ width) :
    (upperHex value).length ≤ width <-> value < 16 ^ width := by
  rw [upperHex]
  split
  · rename_i zero
    subst value
    exact ⟨fun _ => Nat.pow_pos (by decide), fun _ => positive⟩
  · rw [List.length_map, List.length_reverse]
    exact Nat.digits_length_le_iff (by decide) value

/-- The width of a formatted number is kept by the numbers that fit it. -/
theorem length_formatHex {value width : Nat} (positive : 1 ≤ width) (fits : value < 16 ^ width) :
    (formatHex width value).length = width := by
  have short := (length_upperHex_le_iff positive).mpr fits
  rw [formatHex, List.length_append, List.length_replicate]
  omega

theorem readHex_formatHex (width value : Nat) : readHex (formatHex width value) = value := by
  have padded := Numeral.read_padded 16 readHexDigit (by decide : readHexDigit '0' = 0)
    (width - (upperHex value).length) (upperHex value)
  exact padded.trans (readHex_upperHex value)

theorem formatHex_digits (width value : Nat) :
    forall ch, ch ∈ formatHex width value -> Exists fun digit => digit < 16 /\ ch = hexDigit digit := by
  intro ch member
  rcases List.mem_append.mp member with padding | digit
  · exact ⟨0, by decide, List.eq_of_mem_replicate padding⟩
  · exact upperHex_digits value ch digit

theorem hexDigit_ne_blank (digit : Nat) (small : digit < 16) : hexDigit digit ≠ ' ' := by
  revert digit
  decide

/-! ## Fields -/

/-- The blanks around digits do not matter. -/
theorem filter_field {digits : List Char} (before after : Nat)
    (nonblank : forall ch, ch ∈ digits -> ch ≠ ' ') :
    (blanks before ++ digits ++ blanks after).filter (fun ch => ch != ' ') = digits := by
  have empty : forall count, (blanks count).filter (fun ch => ch != ' ') = [] := by
    intro count
    rw [List.filter_eq_nil_iff]
    intro ch member
    rw [List.eq_of_mem_replicate member]
    decide
  have kept : digits.filter (fun ch => ch != ' ') = digits := by
    rw [List.filter_eq_self]
    intro ch member
    exact bne_iff_ne.mpr (nonblank ch member)
  rw [List.filter_append, List.filter_append, empty, empty, kept, List.nil_append, List.append_nil]

theorem formatHex_nonblank (width value : Nat) :
    forall ch, ch ∈ formatHex width value -> ch ≠ ' ' := by
  intro ch member
  rcases formatHex_digits width value ch member with ⟨digit, small, same⟩
  exact same ▸ hexDigit_ne_blank digit small

theorem element_lt (row : Nat -> UInt8) (start width : Nat) :
    element row start width < 16 ^ (2 * width) := by
  have bound := Numeral.ofDigits_bytes_lt (load row start width)
  rw [length_load] at bound
  rw [Nat.pow_mul]
  exact bound

theorem bytesOf_element (row : Nat -> UInt8) (start width : Nat) :
    Numeral.bytesOf width (element row start width) = load row start width := by
  have bytes := Numeral.bytesOf_ofDigits (load row start width)
  rw [length_load] at bytes
  exact bytes

/-- The elements of a row, one after the other, are the row. -/
theorem flatMap_load (row : Nat -> UInt8) (width count : Nat) :
    (List.range count).flatMap (fun j => load row (j * width) width) = load row 0 (count * width) := by
  induction count with
  | zero => rw [List.range_zero, List.flatMap_nil, Nat.zero_mul, load_zero]
  | succ count inductionHypothesis =>
      rw [List.range_succ, List.flatMap_append, List.flatMap_singleton, inductionHypothesis,
        Nat.succ_mul, ← load_append, Nat.zero_add]

/-- A hexadecimal part laid out in fields of `3 * width` characters, one for
each element. -/
structure LaidOut (width : Nat) (row : Nat -> UInt8) (text : List Char) (field : Nat -> List Char) :
    Prop where
  whole : text = (List.range (16 / width)).flatMap field
  length : forall j, j < 16 / width -> (field j).length = 3 * width
  value : forall j, j < 16 / width -> readField (field j) = element row (j * width) width

theorem LaidOut.length_eq {width : Nat} (divides : width ∣ 16) {row : Nat -> UInt8} {text : List Char}
    {field : Nat -> List Char} (laidOut : LaidOut width row text field) : text.length = 48 := by
  have total := Nat.div_mul_cancel divides
  rw [laidOut.whole, Numeral.length_flatMap_range laidOut.length]
  calc 16 / width * (3 * width) = 3 * (16 / width * width) := by ring
    _ = 48 := by rw [total]

theorem LaidOut.decode {width : Nat} (divides : width ∣ 16) {row : Nat -> UInt8} {text : List Char}
    {field : Nat -> List Char} (laidOut : LaidOut width row text field) :
    decodeView width text = load row 0 16 := by
  have total := Nat.div_mul_cancel divides
  rw [decodeView, laidOut.whole, Numeral.fields_flatMap laidOut.length, List.flatMap_map]
  have elements : (List.range (16 / width)).flatMap (fun j => Numeral.bytesOf width (readField (field j))) =
      (List.range (16 / width)).flatMap (fun j => load row (j * width) width) := by
    rw [List.flatMap_def, List.flatMap_def]
    congr 1
    apply List.map_congr_left
    intro j member
    rw [laidOut.value j (List.mem_range.mp member), bytesOf_element]
  rw [elements, flatMap_load, total]

theorem hexFields_laidOut (width before after : Nat) (positive : 1 ≤ width)
    (around : before + after = width) (row : Nat -> UInt8) :
    LaidOut width row (hexFields width before after row) (fun j =>
      blanks before ++ formatHex (2 * width) (element row (j * width) width) ++ blanks after) := by
  refine ⟨rfl, ?_, ?_⟩
  · intro j _bound
    have digits := length_formatHex (by omega : 1 ≤ 2 * width) (element_lt row (j * width) width)
    rw [List.length_append, List.length_append, digits, blanks, blanks, List.length_replicate,
      List.length_replicate]
    omega
  · intro j _bound
    rw [readField, filter_field before after (formatHex_nonblank _ _), readHex_formatHex]

/-- The two quadwords of an octaword, the second one first, are one number of
thirty-two digits. -/
theorem octaword_value (row : Nat -> UInt8) :
    readHex (formatHex 16 (element row 8 8) ++ formatHex 16 (element row 0 8)) = element row 0 16 := by
  have low := length_formatHex (by decide : 1 ≤ 16) (element_lt row 0 8)
  have joined := load_append row 0 8 8
  have scale : (256 : Nat) ^ 8 = 16 ^ 16 := by norm_num
  rw [readHex, Numeral.read_append, low]
  change 16 ^ 16 * readHex (formatHex 16 _) + readHex (formatHex 16 _) = _
  rw [readHex_formatHex, readHex_formatHex, element, element, element, ← joined, List.map_append,
    Nat.ofDigits_append, List.length_map, length_load, scale, Nat.add_comm]

theorem octaword_laidOut (row : Nat -> UInt8) :
    LaidOut 16 row (octawordFormat row) (fun _ => octawordFormat row) := by
  have high := length_formatHex (by decide : 1 ≤ 16) (element_lt row 8 8)
  have low := length_formatHex (by decide : 1 ≤ 16) (element_lt row 0 8)
  have single : List.range (16 / 16) = [0] := rfl
  refine ⟨?_, ?_, ?_⟩
  · rw [single, List.flatMap_singleton]
  · intro j _bound
    simp only [octawordFormat, blanks, List.length_append, List.length_replicate, high, low]
  · intro j bound
    have first : j = 0 := by omega
    have regrouped : octawordFormat row = blanks 8 ++
        (formatHex 16 (element row 8 8) ++ formatHex 16 (element row 0 8)) ++ blanks 8 := by
      simp only [octawordFormat, blanks, List.append_assoc, List.replicate_append_replicate]
      rw [← List.append_assoc, List.replicate_append_replicate]
    have nonblank : forall ch, ch ∈ formatHex 16 (element row 8 8) ++ formatHex 16 (element row 0 8) ->
        ch ≠ ' ' := by
      intro ch member
      rcases List.mem_append.mp member with second | first
      · exact formatHex_nonblank _ _ ch second
      · exact formatHex_nonblank _ _ ch first
    rw [readField, regrouped, filter_field 8 8 nonblank, octaword_value, first, Nat.zero_mul]

/-! ## All views -/

/-- The number of bytes of an element; the formats are named after it. -/
def elementWidth (format : Int32) : Nat :=
  format.toInt.toNat

theorem elementWidth_divides {format : Int32} (listed : format ∈ formats) : elementWidth format ∣ 16 := by
  have tested : formats.all (fun format => decide (elementWidth format ∣ 16)) = true := by decide +kernel
  exact of_decide_eq_true (List.all_eq_true.mp tested format listed)

theorem hexPart_laidOut {format : Int32} (listed : format ∈ formats) (row : Nat -> UInt8) :
    Exists fun field => LaidOut (elementWidth format) row (hexPart format row) field := by
  simp only [formats, List.mem_cons, List.not_mem_nil, or_false] at listed
  rcases listed with byte | word | dword | qword | octaword
  · subst format
    exact ⟨_, hexFields_laidOut 1 0 1 (by decide) rfl row⟩
  · subst format
    exact ⟨_, hexFields_laidOut 2 1 1 (by decide) rfl row⟩
  · subst format
    exact ⟨_, hexFields_laidOut 4 2 2 (by decide) rfl row⟩
  · subst format
    exact ⟨_, hexFields_laidOut 8 4 4 (by decide) rfl row⟩
  · subst format
    exact ⟨_, octaword_laidOut row⟩

theorem length_hexPart {format : Int32} (listed : format ∈ formats) (row : Nat -> UInt8) :
    (hexPart format row).length = 48 := by
  rcases hexPart_laidOut listed row with ⟨field, laidOut⟩
  exact laidOut.length_eq (elementWidth_divides listed)

theorem decodeView_hexPart {format : Int32} (listed : format ∈ formats) (row : Nat -> UInt8) :
    decodeView (elementWidth format) (hexPart format row) = load row 0 16 := by
  rcases hexPart_laidOut listed row with ⟨field, laidOut⟩
  exact laidOut.decode (elementWidth_divides listed)

/-- Every view of a row has forty-eight characters and gives back the sixteen
bytes.  So every two views of a row show the same data, and two rows that
look alike in one view are the same. -/
theorem views_faithful (format : Int32) (listed : format ∈ formats) (row : Nat -> UInt8) :
    (hexPart format row).length = 48 /\
    decodeView (elementWidth format) (hexPart format row) = (List.range 16).map row /\
    (forall other, other ∈ formats ->
      decodeView (elementWidth other) (hexPart other row) =
        decodeView (elementWidth format) (hexPart format row)) /\
    forall second, hexPart format second = hexPart format row -> forall j, j < 16 -> second j = row j := by
  have bytes : load row 0 16 = (List.range 16).map row := by
    apply List.map_congr_left
    intro j _member
    rw [Nat.zero_add]
  refine ⟨length_hexPart listed row, (decodeView_hexPart listed row).trans bytes, ?_, ?_⟩
  · intro other otherListed
    rw [decodeView_hexPart otherListed, decodeView_hexPart listed]
  · intro second same j inside
    have shown : load second 0 16 = load row 0 16 := by
      rw [← decodeView_hexPart listed second, same, decodeView_hexPart listed]
    have left : (load second 0 16)[j]? = some (second (0 + j)) := getElem?_load second inside
    have right : (load row 0 16)[j]? = some (row (0 + j)) := getElem?_load row inside
    rw [shown, right, Nat.zero_add] at left
    exact (Option.some.inj left).symm

/-- A row that counts up, as one octaword. -/
theorem views_faithful_octaword :
    (16 : Int32) ∈ formats /\
      decodeView 16 (hexPart 16 (fun j => UInt8.ofNat j)) = (List.range 16).map UInt8.ofNat :=
  ⟨by decide, (views_faithful 16 (by decide) (fun j => UInt8.ofNat j)).2.1⟩

end Fileview
end KernelStudy
