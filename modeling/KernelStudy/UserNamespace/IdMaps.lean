import KernelStudy.Foundations.MachineWord
import KernelStudy.Foundations.Numeral
import KernelStudy.UserNamespace.Handshake

namespace KernelStudy
namespace UserNamespace

open LabelledRun Numeral

/-!
# The ids that the container sees

`set_map` writes one line into a map file of the child: an id inside, an id
outside and a length.  The ids are `int` variables and are written with `%d`,
while the ids of the system are unsigned, so an id from `2^31` on is written with
a minus sign.

The kernel decides at the `fclose` whether it takes the line.  It takes none but
the line of three unsigned numbers, and it may refuse that one too: the group map
of a user without privileges, since `setgroups` is not denied before.  Of the
kernel nothing is assumed but what is documented.  An id without a mapping is
shown as the overflow id, as a comment of `main` says, and a line that was taken
maps the ids that it names.
-/

/-! ## The line -/

/-- `%d`. -/
def formatInt (value : Int32) : List UInt8 :=
  if value.toInt < 0 then charByte '-' :: decimal value.toInt.natAbs else decimal value.toInt.natAbs

def blank : UInt8 := charByte ' '

/-- `fprintf(mapfd, "%d %d %d", inside_id, outside_id, len)`. -/
def IdMap.line (map : IdMap) : List UInt8 :=
  formatInt map.insideId ++ blank :: formatInt map.outsideId ++ blank :: formatInt map.len

/-- Three numbers without signs. -/
def numbersLine (inside outside len : Nat) : List UInt8 :=
  decimal inside ++ blank :: decimal outside ++ blank :: decimal len

theorem toInt_id_negative {id : UInt32} (large : 2 ^ 31 ≤ id.toNat) : id.toInt32.toInt < 0 := by
  have upper := id.toNat_lt
  rw [MachineWord.toInt_toInt32, Int.bmod_neg_iff (by omega) (by omega)]
  right
  omega

/-- The line for a large id has a minus sign. -/
theorem minus_mem_line {id : UInt32} (large : 2 ^ 31 ≤ id.toNat) :
    charByte '-' ∈ (IdMap.mk 0 id.toInt32 1).line := by
  have signed : charByte '-' ∈ formatInt id.toInt32 := by
    rw [formatInt, if_pos (toInt_id_negative large)]
    exact List.mem_cons_self
  exact List.mem_append_left _ (List.mem_append_right _ (List.mem_cons_of_mem _ signed))

theorem line_eq_numbersLine {id : UInt32} (small : id.toNat < 2 ^ 31) :
    (IdMap.mk 0 id.toInt32 1).line = numbersLine 0 id.toNat 1 := by
  have value := MachineWord.toInt_toInt32_of_lt small
  have written : formatInt id.toInt32 = decimal id.toNat := by
    rw [formatInt, if_neg (by omega), value, Int.natAbs_natCast]
  rw [IdMap.line, written]
  rfl

/-! ## The kernel -/

/-- The kernel's side of the map files of one kind: the lines that it may take, and
the id inside for an id of the system, given the line of the file if it has one. -/
structure MapFiles where
  wellFormed : List UInt8 -> Bool
  shown : Option (List UInt8) -> Nat -> Nat
  overflowId : Nat

structure MapFiles.Documented (kernel : MapFiles) : Prop where
  unsigned : forall text, kernel.wellFormed text = true -> charByte '-' ∉ text
  unmapped : forall id, kernel.shown none id = kernel.overflowId
  mapped : forall inside outside len id, 0 < len -> inside + len < 2 ^ 32 -> outside + len < 2 ^ 32 ->
    kernel.shown (some (numbersLine inside outside len)) id =
      if outside ≤ id /\ id < outside + len then inside + (id - outside) else kernel.overflowId

/-- A line is accepted only if it is well formed. -/
structure Permitted (users groups : MapFiles) (ids : Ids) (actions : List Action) : Prop where
  uid : .setUidMap .accepted ∈ actions -> users.wellFormed (IdMap.mk 0 ids.uid 1).line = true
  gid : .setGidMap .accepted ∈ actions -> groups.wellFormed (IdMap.mk 0 ids.gid 1).line = true

/-! ### Files that read the line -/

/-- The numbers of a line, with one character between them. -/
def readNumbers (text : List UInt8) : Nat × Nat × Nat :=
  let inside := scanDecimal text
  let outside := scanDecimal (inside.2.drop 1)
  let len := scanDecimal (outside.2.drop 1)
  (inside.1, outside.1, len.1)

def shownByNumbers (numbers : Nat × Nat × Nat) (id overflowId : Nat) : Nat :=
  if numbers.2.1 ≤ id /\ id < numbers.2.1 + numbers.2.2 then numbers.1 + (id - numbers.2.1) else overflowId

/-- Files that take a line if it is the line of the numbers in it. -/
def readingFiles : MapFiles where
  wellFormed := fun text =>
    let numbers := readNumbers text
    text == numbersLine numbers.1 numbers.2.1 numbers.2.2
  shown := fun text id => text.elim 65534 fun line => shownByNumbers (readNumbers line) id 65534
  overflowId := 65534

theorem readNumbers_numbersLine (inside outside len : Nat) :
    readNumbers (numbersLine inside outside len) = (inside, outside, len) := by
  have blankStops : forall rest : List UInt8, forall ch, (blank :: rest).head? = some ch -> isDigit ch = false := by
    intro rest ch first
    rw [← Option.some.inj first]
    decide
  have nothingStops : forall ch, ([] : List UInt8).head? = some ch -> isDigit ch = false := nofun
  have line : numbersLine inside outside len =
      decimal inside ++ (blank :: (decimal outside ++ (blank :: (decimal len ++ [])))) := by
    simp only [numbersLine, List.append_nil, List.append_assoc, List.cons_append]
  simp only [line, readNumbers, scanDecimal_append _ (blankStops _), scanDecimal_append _ nothingStops,
    List.drop_succ_cons, List.drop_zero]

theorem minus_not_mem_decimal (value : Nat) : charByte '-' ∉ decimal value := by
  intro member
  exact absurd (decimal_isDigit value member) (by decide)

theorem readingFiles_documented : readingFiles.Documented where
  unsigned := by
    intro text wellFormed member
    have line : text = numbersLine _ _ _ := eq_of_beq wellFormed
    rw [line, numbersLine] at member
    rcases List.mem_append.mp member with inFront | inLen
    · rcases List.mem_append.mp inFront with inInside | inOutside
      · exact minus_not_mem_decimal _ inInside
      · exact minus_not_mem_decimal _ (List.mem_of_ne_of_mem (by decide) inOutside)
    · exact minus_not_mem_decimal _ (List.mem_of_ne_of_mem (by decide) inLen)
  unmapped := fun _ => rfl
  mapped := by
    intro inside outside len id _ _ _
    have read := readNumbers_numbersLine inside outside len
    simp only [readingFiles, Option.elim_some, read, shownByNumbers]

/-! ## The ids inside -/

/-- What a map file shows after the one call of `set_map` for it. -/
theorem shown_after {kernel : MapFiles} (documented : kernel.Documented) {id : UInt32} {write : MapWrite}
    (wellFormed : write = .accepted -> kernel.wellFormed (IdMap.mk 0 id.toInt32 1).line = true) :
    (write = .accepted -> id.toNat < 2 ^ 31) /\
    forall other, kernel.shown ((setMap write none 0 id.toInt32 1).map IdMap.line) other =
      if write = .accepted /\ other = id.toNat then 0 else kernel.overflowId := by
  cases write with
  | notOpened | refused =>
      refine ⟨nofun, fun other => ?_⟩
      rw [if_neg (fun both => MapWrite.noConfusion both.1)]
      exact documented.unmapped other
  | accepted =>
      have small : id.toNat < 2 ^ 31 := by
        by_contra large
        exact documented.unsigned _ (wellFormed rfl) (minus_mem_line (Nat.not_lt.mp large))
      refine ⟨fun _ => small, fun other => ?_⟩
      have mapped := documented.mapped 0 id.toNat 1 other (by decide) (by decide) (by omega)
      rw [setMap, Option.map_some, line_eq_numbersLine small, mapped]
      by_cases same : other = id.toNat
      · rw [if_pos (by omega), if_pos ⟨rfl, same⟩, same, Nat.sub_self]
      · rw [if_neg (by omega), if_neg (fun both => same both.2)]

end UserNamespace
end KernelStudy
