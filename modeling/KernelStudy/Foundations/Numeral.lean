import Mathlib

namespace KernelStudy
namespace Numeral

/-!
# Numbers written as text

A numeral is a list of symbols that stand for digits, the most significant
one first.  Padding on the left does not change its value, and two numerals
written without a gap denote the joint number.  A number whose digits fit a
width is recovered from its padded numeral.

Decimal numerals are texts of bytes as `printf` writes them, and a scan finds
the number that a text begins with.

The last part is about layout.  Fields of equal length are cut out of a
text again, and the bytes of a little-endian number are the fixed-length
digits of Mathlib.
-/

universe u

/-! ## Reading numerals -/

section Reading

variable {Symbol : Type u} (base : Nat) (digitOf : Symbol -> Nat)

/-- The number that a text denotes. -/
def read (text : List Symbol) : Nat :=
  Nat.ofDigits base (text.map digitOf).reverse

theorem read_append (front back : List Symbol) :
    read base digitOf (front ++ back) =
      base ^ back.length * read base digitOf front + read base digitOf back := by
  rw [read, read, read, List.map_append, List.reverse_append, Nat.ofDigits_append,
    List.length_reverse, List.length_map, Nat.add_comm]

theorem read_cons (symbol : Symbol) (text : List Symbol) :
    read base digitOf (symbol :: text) =
      base ^ text.length * digitOf symbol + read base digitOf text := by
  have single : read base digitOf [symbol] = digitOf symbol := Nat.ofDigits_singleton
  rw [← List.singleton_append, read_append, single]

theorem read_map {Other : Type u} (translate : Other -> Symbol) (text : List Other) :
    read base digitOf (text.map translate) = read base (fun symbol => digitOf (translate symbol)) text := by
  rw [read, read, List.map_map]
  rfl

/-- Leading zeros do not count. -/
theorem read_padded {zero : Symbol} (isZero : digitOf zero = 0) (count : Nat) (text : List Symbol) :
    read base digitOf (List.replicate count zero ++ text) = read base digitOf text := by
  have nothing : read base digitOf (List.replicate count zero) = 0 := by
    rw [read, List.map_replicate, List.reverse_replicate, isZero, Nat.ofDigits_replicate_zero]
  rw [read_append, nothing, Nat.mul_zero, Nat.zero_add]

/-- The digits of a number, written by symbols that can be told apart. -/
theorem read_digits {symbolOf : Nat -> Symbol} (proper : 1 < base)
    (inverse : forall digit, digit < base -> digitOf (symbolOf digit) = digit) (value : Nat) :
    read base digitOf ((Nat.digits base value).reverse.map symbolOf) = value := by
  have recovered : (Nat.digits base value).map (fun digit => digitOf (symbolOf digit)) =
      Nat.digits base value := by
    apply (List.map_congr_left ?_).trans (List.map_id _)
    intro digit member
    exact inverse digit (Nat.digits_lt_base proper member)
  rw [read, List.map_reverse, List.map_reverse, List.reverse_reverse, List.map_map]
  exact (congrArg (Nat.ofDigits base) recovered).trans (Nat.ofDigits_digits base value)

end Reading

/-! ## Decimal texts -/

def charByte (ch : Char) : UInt8 :=
  UInt8.ofNat ch.toNat

/-- `%d`, for a number that is not negative. -/
def decimal (value : Nat) : List UInt8 :=
  if value = 0 then [charByte '0']
  else (Nat.digits 10 value).reverse.map fun digit => UInt8.ofNat (48 + digit)

def isDigit (ch : UInt8) : Bool :=
  48 ≤ ch.toNat && ch.toNat ≤ 57

/-- The value of the longest initial run of digits, and what follows it. -/
def scanDecimal (text : List UInt8) : Nat × List UInt8 :=
  (read 10 (fun ch => ch.toNat - 48) (text.takeWhile isDigit), text.dropWhile isDigit)

theorem toNat_digit {digit : Nat} (small : digit < 10) : (UInt8.ofNat (48 + digit)).toNat = 48 + digit :=
  UInt8.toNat_ofNat_of_lt' (show 48 + digit < 256 by omega)

theorem decimal_isDigit (value : Nat) {ch : UInt8} (member : ch ∈ decimal value) : isDigit ch = true := by
  rw [decimal] at member
  split at member
  · rw [List.mem_singleton.mp member]
    rfl
  · rcases List.mem_map.mp member with ⟨digit, written, same⟩
    have small : digit < 10 := Nat.digits_lt_base (by decide) (List.mem_reverse.mp written)
    rw [← same, isDigit, toNat_digit small, Bool.and_eq_true, decide_eq_true_eq, decide_eq_true_eq]
    omega

theorem read_decimal (value : Nat) : read 10 (fun ch : UInt8 => ch.toNat - 48) (decimal value) = value := by
  rw [decimal]
  split
  case isTrue zero =>
      rw [zero]
      rfl
  case isFalse _ =>
      apply read_digits 10 (fun ch : UInt8 => ch.toNat - 48) (by decide)
      intro digit small
      rw [toNat_digit small, Nat.add_sub_cancel_left]

/-- Digits are scanned up to the first character that is none. -/
theorem scanDecimal_digits {digits rest : List UInt8} (all : forall ch, ch ∈ digits -> isDigit ch = true)
    (stops : forall ch, rest.head? = some ch -> isDigit ch = false) :
    scanDecimal (digits ++ rest) = (read 10 (fun ch => ch.toNat - 48) digits, rest) := by
  have ends : rest.takeWhile isDigit = [] /\ rest.dropWhile isDigit = rest := by
    cases rest with
    | nil => exact ⟨rfl, rfl⟩
    | cons ch rest =>
        have other := stops ch rfl
        rw [List.takeWhile_cons, List.dropWhile_cons, other]
        exact ⟨rfl, rfl⟩
  rw [scanDecimal, List.takeWhile_append_of_pos all, List.dropWhile_append_of_pos all, ends.1, ends.2,
    List.append_nil]

/-- A number is scanned up to the first character that is no digit. -/
theorem scanDecimal_append (value : Nat) {rest : List UInt8}
    (stops : forall ch, rest.head? = some ch -> isDigit ch = false) :
    scanDecimal (decimal value ++ rest) = (value, rest) := by
  rw [scanDecimal_digits (fun ch member => decimal_isDigit value member) stops, read_decimal]

/-- `%0wd`: the width is a minimum. -/
def paddedDecimal (width value : Nat) : List UInt8 :=
  List.replicate (width - (decimal value).length) (charByte '0') ++ decimal value

/-- The zeros in front of a number do not change it. -/
theorem scanDecimal_padded (width value : Nat) {rest : List UInt8}
    (stops : forall ch, rest.head? = some ch -> isDigit ch = false) :
    scanDecimal (paddedDecimal width value ++ rest) = (value, rest) := by
  have all : forall ch, ch ∈ paddedDecimal width value -> isDigit ch = true := by
    intro ch member
    rcases List.mem_append.mp member with zero | digit
    · rw [List.eq_of_mem_replicate zero]
      rfl
    · exact decimal_isDigit value digit
  have zero : (fun ch : UInt8 => ch.toNat - 48) (charByte '0') = 0 := rfl
  rw [scanDecimal_digits all stops, paddedDecimal, read_padded 10 (fun ch : UInt8 => ch.toNat - 48) zero,
    read_decimal]

/-! ## Fields of equal length -/

section Fields

variable {Symbol : Type u}

/-- The first `count` fields of a text. -/
def fields (count length : Nat) (text : List Symbol) : List (List Symbol) :=
  (List.range count).map fun j => (text.drop (j * length)).take length

theorem length_flatMap_range {field : Nat -> List Symbol} {count length : Nat}
    (equal : forall j, j < count -> (field j).length = length) :
    ((List.range count).flatMap field).length = count * length := by
  induction count with
  | zero => rw [List.range_zero, List.flatMap_nil, List.length_nil, Nat.zero_mul]
  | succ count inductionHypothesis =>
      rw [List.range_succ, List.flatMap_append, List.length_append, List.flatMap_singleton,
        inductionHypothesis (fun j bound => equal j (by omega)), equal count (by omega), Nat.succ_mul]

/-- Fields that were written one after the other are cut out again. -/
theorem fields_flatMap {field : Nat -> List Symbol} {count length : Nat}
    (equal : forall j, j < count -> (field j).length = length) :
    fields count length ((List.range count).flatMap field) = (List.range count).map field := by
  apply List.map_congr_left
  intro j member
  have bound := List.mem_range.mp member
  have split : List.range count = List.range j ++ j :: (List.range (count - (j + 1))).map (j + 1 + ·) := by
    rw [← List.singleton_append, ← List.append_assoc, ← List.range_succ, ← List.range_add]
    congr 1
    omega
  have before := length_flatMap_range (fun k below => equal k (Nat.lt_trans below bound))
  rw [split, List.flatMap_append, List.flatMap_cons, List.drop_left' before,
    List.take_left' (equal j bound)]

end Fields

/-! ## Little-endian bytes -/

/-- The bytes of a number, the least significant one first. -/
def bytesOf (width value : Nat) : List UInt8 :=
  (Nat.digitsAppend 256 width value).map UInt8.ofNat

theorem toNat_lt_base {bytes : List UInt8} {digit : Nat} (member : digit ∈ bytes.map UInt8.toNat) :
    digit < 256 := by
  rcases List.mem_map.mp member with ⟨byte, _member, same⟩
  exact same ▸ byte.toNat_lt

theorem ofDigits_bytes_lt (bytes : List UInt8) :
    Nat.ofDigits 256 (bytes.map UInt8.toNat) < 256 ^ bytes.length := by
  have bound := Nat.ofDigits_lt_base_pow_length (by decide : 1 < 256)
    (fun digit member => toNat_lt_base member : forall digit, digit ∈ bytes.map UInt8.toNat -> digit < 256)
  rwa [List.length_map] at bound

/-- The bytes of the number that some bytes denote. -/
theorem bytesOf_ofDigits (bytes : List UInt8) :
    bytesOf bytes.length (Nat.ofDigits 256 (bytes.map UInt8.toNat)) = bytes := by
  have digits : Nat.digitsAppend 256 bytes.length (Nat.ofDigits 256 (bytes.map UInt8.toNat)) =
      bytes.map UInt8.toNat :=
    (Nat.setInvOn_digitsAppend_ofDigits (by decide : 1 < 256) bytes.length).1
      ⟨List.length_map _, fun digit member => toNat_lt_base member⟩
  rw [bytesOf, digits, List.map_map]
  apply List.map_id''
  intro byte
  exact UInt8.ofNat_toNat

end Numeral
end KernelStudy
