import KernelStudy.Foundations.MachineWord
import KernelStudy.Foundations.LabelledRun
import KernelStudy.Foundations.Numeral
import KernelStudy.Fileview.LineEditor
import KernelStudy.Fileview.Navigation
import KernelStudy.Fileview.HexViews

namespace KernelStudy
namespace Fileview

open MachineWord

/-!
# Every byte can be brought on screen

Typing the digits of an address goes through the line editor, `strtoull`, the
conversion to a signed number, the alignment and the clamp.  For digits that
fit the prompt each of these is exact, and the window that starts there, or at
the last start if the address lies beyond it, contains the address.

The digits may be written in either case and with leading zeros.
-/

/-! ## Typed addresses -/

/-- Hexadecimal digits that fit the prompt, and the number they denote. -/
structure Spells (address : Nat) (digits : List UInt8) : Prop where
  short : digits.length ≤ 15
  hexadecimal : forall ch, ch ∈ digits -> (hexValue ch).isSome
  value : Numeral.read 16 (fun ch => (hexValue ch).getD 0) digits = address

/-- The code of a character that the keyboard delivers in one byte. -/
def charCode (ch : UInt8) : Int64 :=
  ch.toUInt64.toInt64

/-- The characters of a text, and ENTER unless they fill the prompt. -/
def keystrokes (digits : List UInt8) : List Int64 :=
  digits.map charCode ++ if digits.length < 15 then [0x0A] else []

/-- The usual digits of an address. -/
def addressDigits (address : Nat) : List UInt8 :=
  (upperHex address).map fun ch => UInt8.ofNat ch.toNat

theorem addressDigits_spells {address : Nat} (bound : address < 2 ^ 60) :
    Spells address (addressDigits address) := by
  have limit : (2 : Nat) ^ 60 = 16 ^ 15 := by norm_num
  refine ⟨?_, ?_, ?_⟩
  · rw [addressDigits, List.length_map]
    exact (length_upperHex_le_iff (by decide)).mpr (limit ▸ bound)
  · intro ch member
    rcases List.mem_map.mp member with ⟨symbol, listed, same⟩
    rcases upperHex_digits address symbol listed with ⟨digit, small, symbolEq⟩
    rw [← same, symbolEq, hexValue_hexDigit digit small]
    rfl
  · rw [addressDigits, Numeral.read_map]
    exact readHex_upperHex address

theorem hexValue_range {ch : UInt8} (hexadecimal : (hexValue ch).isSome) :
    0x30 ≤ ch.toNat /\ ch.toNat ≤ 0x66 := by
  rw [hexValue] at hexadecimal
  split at hexadecimal
  · rename_i decimal
    have lower := UInt8.le_iff_toNat_le.mp decimal.1
    have upper := UInt8.le_iff_toNat_le.mp decimal.2
    exact ⟨lower, Nat.le_trans upper (by decide)⟩
  split at hexadecimal
  · rename_i capital
    have lower := UInt8.le_iff_toNat_le.mp capital.1
    have upper := UInt8.le_iff_toNat_le.mp capital.2
    exact ⟨Nat.le_trans (by decide) lower, Nat.le_trans upper (by decide)⟩
  split at hexadecimal
  · rename_i small
    have lower := UInt8.le_iff_toNat_le.mp small.1
    have upper := UInt8.le_iff_toNat_le.mp small.2
    exact ⟨Nat.le_trans (by decide) lower, upper⟩
  · cases hexadecimal

/-- A digit is none of the characters that `strtoull` treats specially. -/
theorem hexValue_ne {ch other : UInt8} (hexadecimal : (hexValue ch).isSome)
    (notDigit : hexValue other = none) : ch ≠ other := by
  intro same
  rw [same, notDigit] at hexadecimal
  cases hexadecimal

theorem not_isSpace {ch : UInt8} (hexadecimal : (hexValue ch).isSome) : isSpace ch = false := by
  have range := hexValue_range hexadecimal
  have notBlank : (ch == 0x20) = false := beq_eq_false_iff_ne.mpr (hexValue_ne hexadecimal (by decide))
  have above : ¬ ch ≤ 0x0D := by
    rw [UInt8.le_iff_toNat_le]
    exact Nat.not_le_of_lt (Nat.lt_of_lt_of_le (by decide) range.1)
  rw [isSpace, notBlank, decide_eq_false above, Bool.and_false, Bool.false_or]

/-! ## Typing -/

theorem toInt_charCode (ch : UInt8) : (charCode ch).toInt = ch.toNat := by
  have small := ch.toNat_lt
  rw [charCode, toInt_toInt64_of_lt (by rw [UInt8.toNat_toUInt64]; omega), UInt8.toNat_toUInt64]

/-- A digit is appended to the line. -/
theorem editLine_digit (line : List UInt8) {ch : UInt8} (hexadecimal : (hexValue ch).isSome) :
    charCode ch ≠ 0x0A /\ charCode ch ≠ kbQuit /\ editLine line (charCode ch) = line ++ [ch] := by
  have range := hexValue_range hexadecimal
  have code := toInt_charCode ch
  have enter : (0x0A : Int64).toInt = 0x0A := rfl
  have quit : kbQuit.toInt = 0x1B := rfl
  have least : (0x20 : Int64).toInt = 0x20 := rfl
  have greatest : (0x7E : Int64).toInt = 0x7E := rfl
  refine ⟨?_, ?_, ?_⟩
  · intro same
    rw [same, enter] at code
    omega
  · intro same
    rw [same, quit] at code
    omega
  · have printable : 0x20 ≤ charCode ch /\ charCode ch ≤ 0x7E := by
      rw [Int64.le_iff_toInt_le, Int64.le_iff_toInt_le]
      omega
    rw [editLine, if_pos printable, charCode, UInt64.toUInt64_toInt64, UInt8.toUInt8_toUInt64]

/-- The editor ends with the typed digits behind its line, and has read every
key of them. -/
theorem referenceEditor_digits {line digits : List UInt8} {typed : List Int64}
    (hexadecimal : forall ch, ch ∈ digits -> (hexValue ch).isSome)
    (short : line.length + digits.length ≤ 15)
    (codes : typed.map keyCode =
      digits.map charCode ++ if line.length + digits.length < 15 then [0x0A] else []) :
    referenceEditor line typed = some (line ++ digits, []) := by
  induction digits generalizing line typed with
  | nil =>
      rw [List.map_nil, List.nil_append, List.length_nil, Nat.add_zero] at codes
      rw [List.append_nil]
      by_cases full : line.length = 15
      · rw [if_neg (by omega), List.map_eq_nil_iff] at codes
        rw [codes, referenceEditor, if_pos full]
      · rw [List.length_nil] at short
        rw [if_pos (by omega), List.map_eq_cons_iff] at codes
        rcases codes with ⟨inch, rest, split, enter, ended⟩
        rw [List.map_eq_nil_iff] at ended
        rw [split, ended, referenceEditor, if_neg full, if_pos enter]
  | cons ch digits inductionHypothesis =>
      rw [List.map_cons, List.cons_append, List.map_eq_cons_iff] at codes
      rcases codes with ⟨inch, rest, split, code, others⟩
      rw [List.length_cons] at short others
      rcases editLine_digit line (hexadecimal ch List.mem_cons_self) with ⟨notEnter, notQuit, appended⟩
      rw [split, referenceEditor, code, if_neg (by omega), if_neg notEnter, if_neg notQuit, appended,
        inductionHypothesis (fun other member => hexadecimal other (List.mem_cons_of_mem ch member)),
        List.append_assoc, List.singleton_append]
      · rw [List.length_append, List.length_singleton]
        omega
      · rw [others, List.length_append, List.length_singleton, Nat.add_assoc, Nat.add_comm 1]

theorem seekPrompt_of_editor {typed : List Int64} {line : List UInt8}
    (editor : referenceEditor [] typed = some (line, [])) : seekPrompt typed = some line := by
  have refines := promptLoop_refines empty_holdsLine typed
  cases ended : promptLoop .empty typed with
  | none =>
      rw [ended, editor] at refines
      cases refines
  | some pair =>
      rcases pair with ⟨final, rest⟩
      rw [ended] at refines
      rcases refines with ⟨contents, same, handed⟩
      rw [editor] at same
      cases same
      rw [seekPrompt, ended]
      exact congrArg some handed.text

/-! ## Parsing -/

theorem leadingHex_digits {digits : List UInt8}
    (hexadecimal : forall ch, ch ∈ digits -> (hexValue ch).isSome) (value : Nat) :
    leadingHex value digits =
      16 ^ digits.length * value + Numeral.read 16 (fun ch => (hexValue ch).getD 0) digits := by
  induction digits generalizing value with
  | nil =>
      have nothing : Numeral.read 16 (fun ch => (hexValue ch).getD 0) [] = 0 := rfl
      rw [leadingHex, nothing, List.length_nil, Nat.pow_zero, Nat.one_mul, Nat.add_zero]
  | cons ch digits inductionHypothesis =>
      rcases Option.isSome_iff_exists.mp (hexadecimal ch List.mem_cons_self) with ⟨digit, found⟩
      rw [leadingHex, found, Numeral.read_cons, found, Option.getD_some, List.length_cons]
      simp only
      rw [inductionHypothesis (fun other member => hexadecimal other (List.mem_cons_of_mem ch member))]
      ring

/-- Digits have no blanks, sign or radix mark in front. -/
theorem strtoull_digits {address : Nat} {digits : List UInt8} (spells : Spells address digits)
    (bound : address < 2 ^ 64) : strtoull digits = UInt64.ofNat address := by
  have hexadecimal := spells.hexadecimal
  have noBlank : digits.dropWhile isSpace = digits := by
    cases digits with
    | nil => rfl
    | cons ch rest =>
        have first := not_isSpace (hexadecimal ch List.mem_cons_self)
        exact List.dropWhile_cons_of_neg (Bool.not_eq_true _ ▸ first)
  have noSign : splitSign digits = (false, digits) := by
    cases digits with
    | nil => rfl
    | cons ch rest =>
        have first := hexadecimal ch List.mem_cons_self
        rw [splitSign, if_neg (hexValue_ne first (by decide)), if_neg (hexValue_ne first (by decide))]
  have noMark : dropRadixMark digits = digits := by
    match digits, hexadecimal with
    | [], _ => rfl
    | [_], _ => rfl
    | [_, _], _ => rfl
    | zero :: mark :: digit :: rest, hexadecimal =>
        have second := hexadecimal mark (by simp)
        rw [dropRadixMark, if_neg]
        intro radix
        rcases radix.2.1 with lower | upper
        · exact hexValue_ne second (by decide) lower
        · exact hexValue_ne second (by decide) upper
  have value : leadingHex 0 digits = address := by
    rw [leadingHex_digits hexadecimal, spells.value, Nat.mul_zero, Nat.zero_add]
  rw [strtoull, noBlank, noSign]
  simp only [noMark, value, if_neg (Nat.not_le_of_lt bound), Bool.false_eq_true, if_false]

/-! ## Reaching a byte -/

/-- Seeking to typed digits starts the window at the address, rounded down
and clamped. -/
theorem iteration_seek {posmax : Int64} (bound : Bound posmax) {view : View}
    (running : view.done = false) {address : Nat} {digits : List UInt8} (spells : Spells address digits)
    (small : address < 2 ^ 60) {key : Keypress} (seek : key.command = .seek)
    (typed : key.typed.map keyCode = keystrokes digits) :
    Exists fun next => iteration posmax view key = some next /\
      next.position.toInt = min (16 * ((address : Int) / 16)) posmax.toInt := by
  have line : seekPrompt key.typed = some digits := by
    have short : ([] : List UInt8).length + digits.length ≤ 15 := by
      rw [List.length_nil, Nat.zero_add]
      exact spells.short
    apply seekPrompt_of_editor
    apply referenceEditor_digits spells.hexadecimal short
    rw [List.length_nil, Nat.zero_add]
    exact typed
  have parsed := strtoull_digits spells (Nat.lt_trans small (by decide))
  have read : key.address = some (UInt64.ofNat address) := by
    rw [Keypress.address, if_pos seek, line, Option.map_some, parsed]
  have unsigned : (UInt64.ofNat address).toNat = address :=
    UInt64.toNat_ofNat_of_lt' (Nat.lt_trans small (by decide))
  have signed : (UInt64.ofNat address).toInt64.toInt = address := by
    rw [toInt_toInt64_of_lt (by omega), unsigned]
  have nonneg := bound.nonneg
  refine ⟨_, by simp only [iteration, loopBody, running, read, seek, Bool.false_eq_true, if_false,
    Option.map_some]; rfl, ?_⟩
  simp only [View.loopTop, perform]
  rw [toInt_clampPosition bound, toInt_and_not_fifteen, signed]
  omega

theorem command_of_enter {key : Keypress} (enter : keyCode key.inch = 0x0A) : key.command = .seek := by
  rw [Keypress.command, enter]
  decide +kernel

/-- Every byte of every nonempty file, from every state of the navigation.
No window lies wholly past the end; typing the digits of an offset leads to
the window that contains it; and the END command shows the last byte, in the
last row as soon as the file is longer than fifteen rows. -/
theorem every_byte_shown (filesize : Int64) (nonempty : 1 ≤ filesize.toInt) (keys : List Keypress)
    (view : View)
    (reached : LabelledRun.run (iteration (posmaxOf filesize)) View.start.loopTop keys = some view) :
    view.position.toInt ≤ filesize.toInt - 1 /\
    (view.done = false -> forall (address : Nat) digits (key : Keypress), (address : Int) < filesize.toInt -> address < 2 ^ 60 ->
      Spells address digits -> keyCode key.inch = 0x0A -> key.typed.map keyCode = keystrokes digits ->
      Exists fun next => iteration (posmaxOf filesize) view key = some next /\
        next.position.toInt = min (16 * ((address : Int) / 16)) (posmaxOf filesize).toInt /\
        next.position.toInt ≤ address /\ address ≤ next.position.toInt + 255) /\
    (forall address, address < 2 ^ 60 -> Spells address (addressDigits address)) /\
    (view.done = false -> forall key : Keypress, keyCode key.inch ∈ ([0x45, 0x65, 0x345B1B] : List Int64) ->
      Exists fun next => iteration (posmaxOf filesize) view key = some next /\
        next.position.toInt ≤ filesize.toInt - 1 /\ filesize.toInt - 1 ≤ next.position.toInt + 255 /\
        (241 ≤ filesize.toInt -> next.position.toInt + 240 ≤ filesize.toInt - 1)) := by
  have nonneg : 0 ≤ filesize.toInt := by omega
  have bound := posmaxOf_bound nonneg
  have limit := toInt_posmaxOf nonneg
  have upper := filesize.toInt_lt
  have onPage := run_onPage bound reached
  have inside := onPage.le_posmax
  refine ⟨by omega, ?_, fun address small => addressDigits_spells small, ?_⟩
  · intro running address digits key below small spells enter typed
    rcases iteration_seek bound running spells small (command_of_enter enter) typed with ⟨next, taken, position⟩
    exact ⟨next, taken, position, by omega, by omega⟩
  · intro running key pressed
    have moves : moveTarget (posmaxOf filesize) view key.command = some (posmaxOf filesize).toInt :=
      moveTarget_of_code (posmaxOf filesize) view (show keyCode key.inch ∈ Move.last.codes from pressed)
    rcases iteration_move bound onPage running moves (by omega) (by omega) with
      ⟨next, taken, position, _increment, _format⟩
    exact ⟨next, taken, by omega, by omega, by omega⟩

/-- The byte at `0x3E7`, the last one of a thousand, by its address after a page
down, and with the END key. -/
theorem every_byte_shown_last :
    LabelledRun.run (iteration (posmaxOf 1000)) View.start.loopTop [⟨0x365B1B, []⟩] =
        some ⟨256, 0x100, 1, false⟩ /\
      (Exists fun next : View =>
        iteration (posmaxOf 1000) ⟨256, 0x100, 1, false⟩ ⟨0x0A, [0x33, 0x45, 0x37, 0x0A]⟩ = some next /\
          next.position.toInt = 752 /\ next.position.toInt ≤ 999 /\ 999 ≤ next.position.toInt + 255) /\
      Exists fun next : View =>
        iteration (posmaxOf 1000) ⟨256, 0x100, 1, false⟩ ⟨0x7E345B1B, []⟩ = some next /\
          next.position.toInt ≤ 999 /\ next.position.toInt + 240 ≤ 999 := by
  have reached : LabelledRun.run (iteration (posmaxOf 1000)) View.start.loopTop [⟨0x365B1B, []⟩] =
      some ⟨256, 0x100, 1, false⟩ := by decide +kernel
  rcases every_byte_shown 1000 (by decide) [⟨0x365B1B, []⟩] ⟨256, 0x100, 1, false⟩ reached with
    ⟨_inside, seeks, _spells, ends⟩
  refine ⟨reached, ?_, ?_⟩
  · rcases seeks rfl 999 [0x33, 0x45, 0x37] ⟨0x0A, [0x33, 0x45, 0x37, 0x0A]⟩ (by decide) (by decide)
      ⟨by decide, by decide +kernel, by decide +kernel⟩ (by decide +kernel) (by decide) with
      ⟨next, taken, position, first, last⟩
    exact ⟨next, taken, position.trans (by decide +kernel), first, last⟩
  · rcases ends rfl ⟨0x7E345B1B, []⟩ (by decide +kernel) with ⟨next, taken, first, _within, lastRow⟩
    exact ⟨next, taken, first, lastRow (by decide)⟩

end Fileview
end KernelStudy
