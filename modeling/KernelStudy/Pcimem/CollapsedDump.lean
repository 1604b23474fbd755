import KernelStudy.Foundations.RunCollapse
import KernelStudy.Fileview.HexViews
import KernelStudy.Pcimem.MappedAccess

namespace KernelStudy
namespace Pcimem

open RunCollapse

/-!
# The collapsed dump

The dump leaves out items that repeat the item before them.  The item loop
writes a listing of this kind, although its previous value starts as zero and
the first item is recognised by its index instead.  A reader that only has the
printed lines and the arguments recovers every value: an address tells where a
run of repetitions has ended.

An address is printed as an `int`, so the offsets of the items have to stay
below `2 ^ 31`.  They are not negative, since no resource can be mapped there.
-/

/-! ## The printed lines -/

/-- The text that `printf` produces for a line, without its newline. -/
def Line.text (typeWidth : Nat) : Line -> List Char
  | .item address value =>
      ['0', 'x'] ++ (Fileview.formatHex 4 address.toUInt32.toNat ++ ([':', ' ', '0', 'x'] ++
        Fileview.formatHex (typeWidth * 2) value.toNat))
  | .dots => ['.', '.', '.']
  | .written value readback =>
      "Written 0x".toList ++ Fileview.formatHex typeWidth value.toNat ++ "; readback 0x".toList ++
        Fileview.blanks (typeWidth - (Fileview.upperHex readback.toNat).length) ++
        Fileview.upperHex readback.toNat

/-- The part of a line that belongs to the dump. -/
def Line.entry : Line -> Option (Entry Int32 UInt64)
  | .item address value => some (.shown address value)
  | .dots => some .repeated
  | .written _ _ => none

/-- A line of the dump, from its text. -/
def readLine (text : List Char) : Option (Entry Int32 UInt64) :=
  if text = ['.', '.', '.'] then some .repeated
  else if text.take 2 = ['0', 'x'] then
    let digits := (text.drop 2).takeWhile (fun ch => ch != ':')
    some (.shown (UInt32.ofNat (Fileview.readHex digits)).toInt32
      (UInt64.ofNat (Fileview.readHex (text.drop (2 + (digits.length + 4))))))
  else none

/-- The two values of the line about written data, from its text. -/
def readWritten (text : List Char) : Option (UInt64 × UInt64) :=
  if text.take 10 = "Written 0x".toList then
    let digits := (text.drop 10).takeWhile (fun ch => ch != ';')
    some (UInt64.ofNat (Fileview.readHex digits),
      UInt64.ofNat (Fileview.readField (text.drop (10 + (digits.length + 13)))))
  else none

/-- The number of the item at a printed address. -/
def itemIndex (target : Int64) (typeWidth : Nat) (address : Int32) : Nat :=
  ((address.toInt - target.toInt) / typeWidth).toNat

/-- The values that a printed dump stands for, given the arguments. -/
def recover (target : Int64) (typeWidth count : Nat) (output : List (List Char)) : List UInt64 :=
  expand (itemIndex target typeWidth) count (output.filterMap readLine) []

theorem hexDigit_no_mark (digit : Nat) (small : digit < 16) :
    Fileview.hexDigit digit ≠ ':' /\ Fileview.hexDigit digit ≠ ';' := by
  revert digit
  decide

theorem formatHex_no_colon (width value : Nat) :
    forall ch, ch ∈ Fileview.formatHex width value -> (ch != ':') = true := by
  intro ch member
  rcases Fileview.formatHex_digits width value ch member with ⟨digit, small, same⟩
  rw [same]
  exact bne_iff_ne.mpr (hexDigit_no_mark digit small).1

theorem formatHex_no_semicolon (width value : Nat) :
    forall ch, ch ∈ Fileview.formatHex width value -> (ch != ';') = true := by
  intro ch member
  rcases Fileview.formatHex_digits width value ch member with ⟨digit, small, same⟩
  rw [same]
  exact bne_iff_ne.mpr (hexDigit_no_mark digit small).2

/-- The colon ends the address. -/
theorem readLine_item {front : List Char} (noColon : forall ch, ch ∈ front -> (ch != ':') = true)
    (back : List Char) :
    readLine (['0', 'x'] ++ (front ++ ([':', ' ', '0', 'x'] ++ back))) =
      some (.shown (UInt32.ofNat (Fileview.readHex front)).toInt32
        (UInt64.ofNat (Fileview.readHex back))) := by
  have mark : ['0', 'x'].length = 2 := rfl
  have separator : [':', ' ', '0', 'x'].length = 4 := rfl
  have stops : ([':', ' ', '0', 'x'] ++ back).takeWhile (fun ch => ch != ':') = [] :=
    List.takeWhile_cons_of_neg (by decide)
  have digits : ((['0', 'x'] ++ (front ++ ([':', ' ', '0', 'x'] ++ back))).drop 2).takeWhile
      (fun ch => ch != ':') = front := by
    rw [List.drop_left' mark, List.takeWhile_append_of_pos noColon, stops, List.append_nil]
  have behind : (['0', 'x'] ++ (front ++ ([':', ' ', '0', 'x'] ++ back))).drop
      (2 + (front.length + 4)) = back := by
    rw [← List.drop_drop, List.drop_left' mark, ← List.drop_drop, List.drop_left,
      List.drop_left' separator]
  have notDots : ['0', 'x'] ++ (front ++ ([':', ' ', '0', 'x'] ++ back)) ≠ ['.', '.', '.'] := by
    intro same
    cases same
  rw [readLine, if_neg notDots, List.take_left' mark, if_pos rfl]
  simp only
  rw [digits, behind]

/-- Every line is read as what it was printed from. -/
theorem readLine_text (typeWidth : Nat) (line : Line) : readLine (line.text typeWidth) = line.entry := by
  cases line with
  | dots => rfl
  | written value readback =>
      have first : (Line.text typeWidth (.written value readback)).take 2 = ['W', 'r'] := rfl
      have notDots : Line.text typeWidth (.written value readback) ≠ ['.', '.', '.'] := by
        intro same
        rw [same] at first
        revert first
        decide
      rw [readLine, if_neg notDots, first]
      rfl
  | item address value =>
      have parts := readLine_item (formatHex_no_colon 4 address.toUInt32.toNat)
        (Fileview.formatHex (typeWidth * 2) value.toNat)
      rw [Fileview.readHex_formatHex, Fileview.readHex_formatHex, UInt32.ofNat_toNat,
        UInt64.ofNat_toNat] at parts
      exact parts

/-- The part of a line that is about written data. -/
def Line.written? : Line -> Option (UInt64 × UInt64)
  | .written value readback => some (value, readback)
  | .item _ _ | .dots => none

/-- The semicolon ends the written value. -/
theorem readWritten_line {front : List Char} (noSemicolon : forall ch, ch ∈ front -> (ch != ';') = true)
    (back : List Char) :
    readWritten ("Written 0x".toList ++ (front ++ ("; readback 0x".toList ++ back))) =
      some (UInt64.ofNat (Fileview.readHex front), UInt64.ofNat (Fileview.readField back)) := by
  have mark : "Written 0x".toList.length = 10 := rfl
  have separator : "; readback 0x".toList.length = 13 := rfl
  have stops : ("; readback 0x".toList ++ back).takeWhile (fun ch => ch != ';') = [] :=
    List.takeWhile_cons_of_neg (by decide)
  have digits : (("Written 0x".toList ++ (front ++ ("; readback 0x".toList ++ back))).drop 10).takeWhile
      (fun ch => ch != ';') = front := by
    rw [List.drop_left' mark, List.takeWhile_append_of_pos noSemicolon, stops, List.append_nil]
  have behind : ("Written 0x".toList ++ (front ++ ("; readback 0x".toList ++ back))).drop
      (10 + (front.length + 13)) = back := by
    rw [← List.drop_drop, List.drop_left' mark, ← List.drop_drop, List.drop_left,
      List.drop_left' separator]
  rw [readWritten, if_pos (List.take_left' mark)]
  simp only
  rw [digits, behind]

/-- The blanks before the value that was read back do not matter. -/
theorem readField_readback (before value : Nat) :
    Fileview.readField (Fileview.blanks before ++ Fileview.upperHex value) = value := by
  have nonblank : forall ch, ch ∈ Fileview.upperHex value -> ch ≠ ' ' := by
    intro ch member
    rcases Fileview.upperHex_digits value ch member with ⟨digit, small, same⟩
    exact same ▸ Fileview.hexDigit_ne_blank digit small
  have kept := Fileview.filter_field before 0 nonblank
  rw [Fileview.blanks, Fileview.blanks, List.replicate_zero, List.append_nil] at kept
  rw [Fileview.readField, Fileview.blanks, kept, Fileview.readHex_upperHex]

theorem append_regroup (first second third fourth fifth : List Char) :
    first ++ second ++ third ++ fourth ++ fifth = first ++ (second ++ (third ++ (fourth ++ fifth))) := by
  simp only [List.append_assoc]

/-- The line about written data, and no other, is read as such. -/
theorem readWritten_text (typeWidth : Nat) (line : Line) :
    readWritten (line.text typeWidth) = line.written? := by
  cases line with
  | dots => rfl
  | item address value =>
      have other : (Line.text typeWidth (.item address value)).take 10 ≠ "Written 0x".toList := by
        intro same
        have first := congrArg List.head? same
        rw [List.head?_take] at first
        cases first
      rw [readWritten, if_neg other]
      rfl
  | written value readback =>
      have parts := readWritten_line (formatHex_no_semicolon typeWidth value.toNat)
        (Fileview.blanks (typeWidth - (Fileview.upperHex readback.toNat).length) ++
          Fileview.upperHex readback.toNat)
      rw [Fileview.readHex_formatHex, readField_readback, UInt64.ofNat_toNat, UInt64.ofNat_toNat] at parts
      exact (congrArg readWritten (append_regroup _ _ _ _ _)).trans parts

/-! ## The item loop writes a listing -/

/-- The address that is printed for an item. -/
def Command.itemLabel (command : Command) (k : Nat) : Int32 :=
  (command.target + (Int32.ofNat k * command.accessType.typeWidth).toInt64).toInt32

/-- The values that the items are found to have. -/
def Command.valuesRead (command : Command) (env : Environment) : List UInt64 :=
  (List.range command.count.toNat).map fun k => command.accessType.truncate (env.device k)

/-- The previous value, if there is one. -/
def LoopState.previous (state : LoopState) : Option UInt64 :=
  if state.i = 0 then none else some state.prevReadResult

/-- What has been printed and what is still to be printed make up the listing
of all values. -/
def Listed (env : Environment) (command : Command) (state : LoopState) : Prop :=
  state.output.filterMap Line.entry ++
      collapse command.itemLabel state.i.toInt.toNat state.previous state.readResultDupped
        ((command.valuesRead env).drop state.i.toInt.toNat) =
    collapse command.itemLabel 0 none false (command.valuesRead env)

section Loop

variable {env : Environment} {command : Command} {mapBase : UInt64}

theorem listed_initial : Listed env command LoopState.initial := rfl

/-- The values that are left begin with the one that a pass reads. -/
theorem drop_valuesRead {state : LoopState} (visited : Visited command mapBase state)
    (below : state.i.toInt < command.count) :
    (command.valuesRead env).drop state.i.toInt.toNat =
      command.accessType.truncate (env.device state.accesses.length) ::
        (command.valuesRead env).drop (state.i.toInt.toNat + 1) := by
  have nonneg := visited.nonneg
  have loads : state.accesses.length = state.i.toInt.toNat := by
    rw [visited.accesses, itemLoads, List.length_map, List.length_range]
  have inside : state.i.toInt.toNat < (command.valuesRead env).length := by
    rw [Command.valuesRead, List.length_map, List.length_range]
    omega
  rw [List.drop_eq_getElem_cons inside, loads]
  simp only [Command.valuesRead, List.getElem_map, List.getElem_range]

/-- One pass prints the next entry of the listing, if there is one. -/
theorem Listed.body {state : LoopState} (listed : Listed env command state)
    (visited : Visited command mapBase state) (unfinished : itemGuard command state = true) :
    Listed env command (itemBody env command mapBase state) := by
  rcases toInt_next unfinished with ⟨next, below⟩
  have nonneg := visited.nonneg
  have index : (itemBody env command mapBase state).i.toInt.toNat = state.i.toInt.toNat + 1 := by
    rw [show (itemBody env command mapBase state).i = state.i + 1 from rfl, next]
    omega
  have later : (itemBody env command mapBase state).previous =
      some (command.accessType.truncate (env.device state.accesses.length)) := by
    have notFirst : state.i + 1 ≠ 0 := by
      intro zero
      rw [zero, Int32.toInt_zero] at next
      omega
    exact if_neg notFirst
  rw [Listed] at listed ⊢
  rw [← listed, drop_valuesRead visited below, index, later, collapse]
  by_cases fresh : command.accessType.truncate (env.device state.accesses.length) ≠ state.prevReadResult \/
      state.i = 0
  · have differs : state.previous ≠
        some (command.accessType.truncate (env.device state.accesses.length)) := by
      intro same
      rw [LoopState.previous] at same
      split at same
      · cases same
      · rename_i notFirst
        rcases fresh with different | first
        · exact different (Option.some.inj same).symm
        · exact notFirst first
    have label : command.itemLabel state.i.toInt.toNat =
        (command.target + (state.i * command.accessType.typeWidth).toInt64).toInt32 := by
      rw [Command.itemLabel, visited.counter]
    simp only [itemBody, if_pos fresh]
    rw [if_neg differs, label, List.filterMap_append, List.append_assoc]
    rfl
  · have equal := not_not.mp (not_or.mp fresh).1
    have repeats : state.previous =
        some (command.accessType.truncate (env.device state.accesses.length)) := by
      rw [LoopState.previous, if_neg (not_or.mp fresh).2, equal]
    simp only [itemBody, if_neg fresh]
    rw [if_pos repeats]
    cases dupped : state.readResultDupped with
    | true => simp only [if_true]
    | false =>
        simp only [Bool.false_eq_true, if_false]
        rw [List.filterMap_append, List.append_assoc]
        rfl

/-- The lines printed by the loop are the listing of the values. -/
theorem itemLoop_lists (env : Environment) (command : Command) (mapBase : UInt64) :
    Exists fun final =>
      (forall fuel, command.count.toNat ≤ fuel ->
        BoundedLoop.loop (itemGuard command) (itemBody env command mapBase) fuel
          LoopState.initial = some final) /\
      final.output.filterMap Line.entry =
        collapse command.itemLabel 0 none false (command.valuesRead env) := by
  rcases itemLoop_total env command mapBase (Listed env command) listed_initial
    (fun state visited listed unfinished => listed.body visited unfinished) with
    ⟨final, returned, _visited, ended, listed⟩
  have nothing : (command.valuesRead env).drop final.i.toInt.toNat = [] := by
    apply List.drop_eq_nil_of_le
    rw [Command.valuesRead, List.length_map, List.length_range]
    omega
  rw [Listed, nothing, collapse, List.append_nil] at listed
  exact ⟨final, returned, listed⟩

end Loop

/-! ## Addresses -/

/-- An address determines the item, as long as all addresses fit an `int`. -/
theorem itemIndex_itemLabel {command : Command} (nonneg : 0 ≤ command.target.toInt)
    (fits : command.target.toInt + command.count * command.width < 2 ^ 31) (k : Nat)
    (inside : k < command.count.toNat) :
    itemIndex command.target command.width.toNat (command.itemLabel k) = k := by
  have width := width_cases command
  have visited : (k : Int) < command.count := by omega
  rcases item_bytes visited with ⟨start, below⟩
  have distance : (Int32.ofNat k * command.accessType.typeWidth).toInt64.toInt = k * command.width := by
    rw [Int32.toInt_toInt64, toInt_itemProduct visited (by omega)]
  have label : (command.itemLabel k).toInt = command.target.toInt + k * command.width := by
    rw [Command.itemLabel, Int64.toInt_toInt32, MachineWord.toInt_add_of_range (by omega) (by omega),
      distance]
    exact Int.bmod_eq_of_le (by omega) (by omega)
  have difference : (command.itemLabel k).toInt - command.target.toInt = k * command.width := by omega
  rw [itemIndex, difference, Int.toNat_of_nonneg (by omega), Int.mul_ediv_cancel _ (by omega)]
  exact Int.toNat_natCast k

/-! ## The dump is lossless -/

section Program

variable {env : Environment} {command : Command}

/-- The line about written data is not part of the dump. -/
theorem filterMap_writeData (env : Environment) (command : Command) (state : LoopState) :
    (writeData env command state).output.filterMap Line.entry = state.output.filterMap Line.entry := by
  rw [writeData]
  split
  · rfl
  · rw [List.filterMap_append]
    exact List.append_nil _

theorem target_nonneg {mapBase : UInt64}
    (refuses : forall length offset, offset < 0 -> env.mmap length offset = none)
    (mapped : env.mmap command.mapSize command.targetBase = some mapBase) : 0 ≤ command.target.toInt := by
  have base := toInt_targetBase command
  by_contra negative
  have refused := refuses command.mapSize command.targetBase (by
    rw [Int64.lt_iff_toInt_lt, Int64.toInt_zero, base]
    omega)
  rw [refused] at mapped
  cases mapped

end Program

/-- From the printed lines, the offset, the width and the count, the dump gives
back every value that was read, for every device whose resource is mapped.
Marks stand between printed items exactly when these are not adjacent. -/
theorem dump_lossless (env : Environment) (argv : List (List UInt8)) (command : Command)
    (parsed : parse argv = .ok command) (opened : env.opened = true) (mapBase : UInt64)
    (refuses : forall length offset, offset < 0 -> env.mmap length offset = none)
    (mapped : env.mmap command.mapSize command.targetBase = some mapBase)
    (positive : 1 ≤ command.count)
    (fits : command.target.toInt + command.count * command.width < 2 ^ 31) :
    Exists fun trace =>
      (forall fuel, command.count.toNat ≤ fuel -> main fuel env argv = some trace) /\
      recover command.target command.width.toNat command.count.toNat
        (trace.output.map (Line.text command.width.toNat)) = command.valuesRead env /\
      Exists fun value => Exists fun rest =>
        (trace.output.map (Line.text command.width.toNat)).filterMap readLine =
          .shown (command.itemLabel 0) value :: rest /\
        Spaced (itemIndex command.target command.width.toNat) command.count.toNat 0 false rest := by
  have nonneg := target_nonneg refuses mapped
  have distinct := itemIndex_itemLabel nonneg fits
  rcases itemLoop_lists env command mapBase with ⟨final, returned, listed⟩
  have texts : ((writeData env command final).output.map (Line.text command.width.toNat)).filterMap
      readLine = collapse command.itemLabel 0 none false (command.valuesRead env) := by
    rw [List.filterMap_map, ← listed, ← filterMap_writeData env command final]
    apply List.filterMap_congr
    intro line _member
    exact readLine_text command.width.toNat line
  have total : (command.valuesRead env).length = command.count.toNat := by
    rw [Command.valuesRead, List.length_map, List.length_range]
  refine ⟨_, fun fuel enough => main_of_loop parsed opened mapped (returned fuel enough), ?_, ?_⟩
  · rw [recover, texts]
    exact expand_collapse distinct total
  · rw [texts]
    cases values : command.valuesRead env with
    | nil =>
        rw [values, List.length_nil] at total
        omega
    | cons value others =>
        rw [values] at total
        exact ⟨value, spaced_collapse distinct total⟩

/-- A resource that refuses negative offsets.  Of each value the lower half is a
word. -/
def wordRegion : Environment :=
  ⟨true, fun _ offset => if offset < 0 then none else some 0x7F0000000000,
    fun k => ([0xA00000007, 0xB00000007, 0xC00000009, 0xD00000007] : List UInt64)[k]?.getD 0, true⟩

/-- Four words, of which the second one repeats the first. -/
theorem dump_lossless_repeats :
    parse fourWords = .ok ⟨0x100, .w, 4, none⟩ /\
    Exists fun trace => main 4 wordRegion fourWords = some trace /\
      trace.output.map (Line.text 4) = ["0x0100: 0x00000007".toList, "...".toList,
        "0x0108: 0x00000009".toList, "0x010C: 0x00000007".toList] /\
      recover 0x100 4 4 (trace.output.map (Line.text 4)) = [7, 7, 9, 7] := by
  have parsed : parse fourWords = .ok ⟨0x100, .w, 4, none⟩ := by rfl
  have printed : (main 4 wordRegion fourWords).map (fun trace => trace.output.map (Line.text 4)) =
      some ["0x0100: 0x00000007".toList, "...".toList, "0x0108: 0x00000009".toList,
        "0x010C: 0x00000007".toList] := by decide +kernel
  rcases dump_lossless wordRegion fourWords ⟨0x100, .w, 4, none⟩ parsed rfl 0x7F0000000000
    (fun _ offset negative => if_pos negative) (by decide +kernel) (by decide) (by decide) with
    ⟨trace, returned, recovered, _⟩
  have finishes := returned 4 (by decide)
  rw [finishes] at printed
  exact ⟨parsed, trace, finishes, Option.some.inj printed, recovered⟩

end Pcimem
end KernelStudy
