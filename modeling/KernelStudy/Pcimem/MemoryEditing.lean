import KernelStudy.Foundations.CellMemory
import KernelStudy.Foundations.LabelledRun
import KernelStudy.Pcimem.CollapsedDump

namespace KernelStudy
namespace Pcimem

open CellMemory LabelledRun Numeral RunCollapse

/-!
# Editing a memory with `pcimem`

The program is called again and again on one resource.  Here the resource
behaves as memory: a load finds the bytes that were stored last, whoever stored
them.  Each call maps a part of it, prints a dump of the items, and may store one
value at the last of them.

What the calls do to each other is described on an array of bytes.  A call shows
the values of some consecutive items, and replaces one of them.  The program
reaches them through the addresses that it computes from its mapping, the
accesses are of the width of the item, and what is shown has to be recovered from
the printed lines.
-/

/-! ## The resource -/

/-- The offset in the resource of an address in the mapping. -/
def Command.place (command : Command) (mapBase virtAddr : UInt64) : Nat :=
  (command.targetBase.toInt + (virtAddr - mapBase).toNat).toNat

/-- The number that some bytes of the memory make up, the lowest one first. -/
def valueAt (memory : Nat -> UInt8) (place width : Nat) : UInt64 :=
  UInt64.ofNat (Nat.ofDigits 256 ((load memory place width).map UInt8.toNat))

/-- The bytes of a stored value. -/
def Command.storedBytes (command : Command) (writeval : UInt64) : List UInt8 :=
  bytesOf command.width.toNat (command.accessType.truncate writeval).toNat

/-- What an access finds in the memory, eight bytes of which are offered, and the
memory after it. -/
def Command.accessMemory (command : Command) (mapBase : UInt64) (memory : Nat -> UInt8) (access : Access) :
    UInt64 × (Nat -> UInt8) :=
  match access.virtAddr with
  | none => (0, memory)
  | some virtAddr =>
      match access.kind with
      | .load | .readback => (valueAt memory (command.place mapBase virtAddr) 8, memory)
      | .store => (0, store memory (command.place mapBase virtAddr)
          (command.storedBytes (command.writeval.getD 0)))

/-- All accesses, one after the other. -/
def Command.accessAll (command : Command) (mapBase : UInt64) :
    (Nat -> UInt8) -> List Access -> List UInt64 × (Nat -> UInt8)
  | memory, [] => ([], memory)
  | memory, access :: rest =>
      let first := command.accessMemory mapBase memory access
      let later := command.accessAll mapBase first.2 rest
      (first.1 :: later.1, later.2)

/-- The environment of a call: the resource can be opened and mapped, and it
answers the accesses of the program in their order. -/
def resource (mapBase : UInt64) (command : Command) (memory : Nat -> UInt8) : Environment where
  opened := true
  mmap := fun _ offset => if offset < 0 then none else some mapBase
  device := fun k => ((command.accessAll mapBase memory (finalAccesses command mapBase)).1[k]?).getD 0
  munmap := true

/-! ## Sessions -/

/-- A command line that is accepted and whose items have offsets below `2^31`. -/
structure Call where
  argv : List (List UInt8)
  command : Command
  parsed : parse argv = .ok command
  nonneg : 0 ≤ command.target.toInt
  positive : 1 ≤ command.count
  fits : command.target.toInt + command.count * command.width < 2 ^ 31

/-- The memory, and the lines that each call has printed. -/
structure Session where
  memory : Nat -> UInt8
  printed : List (Command × List Line)

/-- One call of the program.  The memory afterwards is what the accesses of its
trace leave. -/
def sessionStep (mapBase : UInt64) (session : Session) (call : Call) : Option Session :=
  (main call.command.count.toNat (resource mapBase call.command session.memory) call.argv).map fun trace =>
    ⟨(call.command.accessAll mapBase session.memory trace.accesses).2,
      session.printed ++ [(call.command, trace.output)]⟩

/-! ## The array -/

/-- The values of the items. -/
def Command.items (command : Command) (memory : Nat -> UInt8) : List UInt64 :=
  (List.range command.count.toNat).map fun k =>
    valueAt memory (command.target.toInt.toNat + k * command.width.toNat) command.width.toNat

/-- The last item is replaced. -/
def Command.edit (command : Command) (memory : Nat -> UInt8) : Nat -> UInt8 :=
  match command.writeval with
  | none => memory
  | some writeval =>
      store memory (command.target.toInt.toNat + (command.count.toNat - 1) * command.width.toNat)
        (command.storedBytes writeval)

/-- An array of bytes, and for each call the values that it has shown, with the
value that it has written and the one that it has found afterwards. -/
structure Editor where
  memory : Nat -> UInt8
  shown : List (List UInt64 × Option (UInt64 × UInt64))

def editorStep (editor : Editor) (call : Call) : Option Editor :=
  some ⟨call.command.edit editor.memory, editor.shown ++ [(call.command.items editor.memory,
    call.command.writeval.map fun writeval => (writeval, call.command.accessType.truncate writeval))]⟩

/-- What the texts of the printed lines are read back as: the values that the dump
stands for, and those of the line behind it. -/
def readPrinted (printed : Command × List Line) : List UInt64 × Option (UInt64 × UInt64) :=
  let output := printed.2.map (Line.text printed.1.width.toNat)
  (recover printed.1.target printed.1.width.toNat printed.1.count.toNat output,
    output.findSome? readWritten)

def Session.read (session : Session) : Editor :=
  ⟨session.memory, session.printed.map readPrinted⟩

/-! ## Values and bytes -/

section Values

variable {command : Command}

theorem mod_ofDigits (first second : List UInt8) :
    Nat.ofDigits 256 ((first ++ second).map UInt8.toNat) % 256 ^ first.length =
      Nat.ofDigits 256 (first.map UInt8.toNat) := by
  rw [List.map_append, Nat.ofDigits_append, List.length_map, Nat.add_mul_mod_self_left,
    Nat.mod_eq_of_lt (ofDigits_bytes_lt first)]

theorem toNat_truncate (accessType : AccessType) (value : UInt64) :
    (accessType.truncate value).toNat = value.toNat % 256 ^ accessType.typeWidth.toInt.toNat := by
  cases accessType with
  | b => exact (UInt64.toNat_and _ _).trans (Nat.and_two_pow_sub_one_eq_mod _ 8)
  | h => exact (UInt64.toNat_and _ _).trans (Nat.and_two_pow_sub_one_eq_mod _ 16)
  | w => exact (UInt64.toNat_and _ _).trans (Nat.and_two_pow_sub_one_eq_mod _ 32)
  | d => exact (Nat.mod_eq_of_lt value.toNat_lt).symm

theorem width_le (command : Command) : command.width.toNat ≤ 8 := by
  have width := width_cases command
  omega

theorem toNat_valueAt (memory : Nat -> UInt8) (place : Nat) {width : Nat} (small : width ≤ 8) :
    (valueAt memory place width).toNat = Nat.ofDigits 256 ((load memory place width).map UInt8.toNat) := by
  have bound := ofDigits_bytes_lt (load memory place width)
  rw [length_load] at bound
  have limit : 256 ^ width ≤ 256 ^ 8 := Nat.pow_le_pow_right (by decide) small
  exact UInt64.toNat_ofNat_of_lt' (Nat.lt_of_lt_of_le bound limit)

/-- A narrow read keeps the first of the eight bytes. -/
theorem truncate_valueAt (memory : Nat -> UInt8) (place : Nat) :
    command.accessType.truncate (valueAt memory place 8) = valueAt memory place command.width.toNat := by
  have small := width_le command
  have split : load memory place 8 = load memory place command.width.toNat ++
      load memory (place + command.width.toNat) (8 - command.width.toNat) := by
    rw [load_append, Nat.add_sub_cancel' small]
  have first := mod_ofDigits (load memory place command.width.toNat)
    (load memory (place + command.width.toNat) (8 - command.width.toNat))
  rw [length_load] at first
  apply UInt64.toNat_inj.mp
  rw [toNat_truncate, toNat_valueAt memory place (Nat.le_refl 8), toNat_valueAt memory place small, split]
  exact first

theorem length_storedBytes (writeval : UInt64) :
    (command.storedBytes writeval).length = command.width.toNat := by
  rw [Command.storedBytes, bytesOf, List.length_map]
  apply Nat.length_digitsAppend (by decide)
  rw [toNat_truncate]
  exact Nat.mod_lt _ (Nat.pow_pos (by decide))

theorem ofDigits_bytesOf {width value : Nat} (small : value < 256 ^ width) :
    Nat.ofDigits 256 ((bytesOf width value).map UInt8.toNat) = value := by
  have same : ((Nat.digitsAppend 256 width value).map UInt8.ofNat).map UInt8.toNat =
      Nat.digitsAppend 256 width value := by
    rw [List.map_map]
    apply (List.map_congr_left ?_).trans (List.map_id _)
    intro digit member
    exact UInt8.toNat_ofNat_of_lt' (Nat.lt_of_mem_digitsAppend (by decide) width digit member)
  rw [bytesOf, same]
  exact (Nat.setInvOn_digitsAppend_ofDigits (by decide : 1 < 256) width).2 small

/-- The value that was stored is found again, as far as it fits. -/
theorem valueAt_stored (memory : Nat -> UInt8) (place : Nat) (writeval : UInt64) :
    valueAt (store memory place (command.storedBytes writeval)) place command.width.toNat =
      command.accessType.truncate writeval := by
  have loaded := load_store memory place (command.storedBytes writeval)
  rw [length_storedBytes] at loaded
  have small : (command.accessType.truncate writeval).toNat < 256 ^ command.width.toNat := by
    rw [toNat_truncate]
    exact Nat.mod_lt _ (Nat.pow_pos (by decide))
  rw [valueAt, loaded, Command.storedBytes, ofDigits_bytesOf small, UInt64.ofNat_toNat]

end Values

/-! ## The accesses of a call -/

section Accesses

variable {command : Command} {mapBase : UInt64} {memory : Nat -> UInt8}

theorem accessAll_append (first second : List Access) :
    command.accessAll mapBase memory (first ++ second) =
      ((command.accessAll mapBase memory first).1 ++
          (command.accessAll mapBase (command.accessAll mapBase memory first).2 second).1,
        (command.accessAll mapBase (command.accessAll mapBase memory first).2 second).2) := by
  induction first generalizing memory with
  | nil => rfl
  | cons access rest inductionHypothesis =>
      simp only [List.cons_append, Command.accessAll, inductionHypothesis]

/-- Loads change nothing, and find what the memory holds. -/
theorem accessAll_loads (addresses : List UInt64) :
    command.accessAll mapBase memory (addresses.map fun virtAddr => ⟨.load, some virtAddr⟩) =
      (addresses.map fun virtAddr => valueAt memory (command.place mapBase virtAddr) 8, memory) := by
  induction addresses with
  | nil => rfl
  | cons virtAddr rest inductionHypothesis =>
      rw [List.map_cons, Command.accessAll]
      simp only [Command.accessMemory, inductionHypothesis, List.map_cons]

/-- The place of an item. -/
theorem place_item (call : Call) (mapBase : UInt64) {k : Nat} (inside : k < call.command.count.toNat) :
    call.command.place mapBase (call.command.itemAddress mapBase (Int32.ofNat k)) =
      call.command.target.toInt.toNat + k * call.command.width.toNat := by
  have nonneg := call.nonneg
  have fits := call.fits
  have base := toInt_targetBase call.command
  have distance := distance_eq call.command
  have width := width_cases call.command
  have visited : (k : Int) < call.command.count := by omega
  have offset := itemOffset_exact mapBase visited (by omega)
  rw [Command.place, offset]
  have product : ((k * call.command.width.toNat : Nat) : Int) = k * call.command.width := by
    rw [Nat.cast_mul, Int.toNat_of_nonneg (by omega)]
  have sum : call.command.targetBase.toInt + (call.command.distance + k * call.command.width) =
      call.command.target.toInt + k * call.command.width := by
    rw [Command.distance]
    ring
  rw [sum, ← product]
  omega

/-- The offset of the last item. -/
def Command.lastPlace (command : Command) : Nat :=
  command.target.toInt.toNat + (command.count.toNat - 1) * command.width.toNat

/-- What the accesses behind the loop find. -/
def Command.laterValues (command : Command) (memory : Nat -> UInt8) : List UInt64 :=
  match command.writeval with
  | none => []
  | some _ => [0, valueAt (command.edit memory) command.lastPlace 8]

theorem accessAll_items (mapBase : UInt64) (memory : Nat -> UInt8) (call : Call) :
    call.command.accessAll mapBase memory (itemLoads call.command mapBase call.command.count.toNat) =
      ((List.range call.command.count.toNat).map fun k => valueAt memory
        (call.command.target.toInt.toNat + k * call.command.width.toNat) 8, memory) := by
  have loads : itemLoads call.command mapBase call.command.count.toNat =
      ((List.range call.command.count.toNat).map fun k =>
        call.command.itemAddress mapBase (Int32.ofNat k)).map fun virtAddr => ⟨.load, some virtAddr⟩ := by
    rw [itemLoads, List.map_map]
    rfl
  rw [loads, accessAll_loads, List.map_map]
  refine Prod.ext (List.map_congr_left fun k member => ?_) rfl
  exact congrArg (fun place => valueAt memory place 8) (place_item call mapBase (List.mem_range.mp member))

/-- All accesses of a call find the items, and leave the edited memory. -/
theorem accessAll_final (call : Call) :
    call.command.accessAll mapBase memory (finalAccesses call.command mapBase) =
      (((List.range call.command.count.toNat).map fun k => valueAt memory
        (call.command.target.toInt.toNat + k * call.command.width.toNat) 8) ++
          call.command.laterValues memory, call.command.edit memory) := by
  have positive := call.positive
  have succ : call.command.count.toNat = call.command.count.toNat - 1 + 1 := by omega
  have last : lastAddress (itemLoads call.command mapBase call.command.count.toNat) =
      some (call.command.itemAddress mapBase (Int32.ofNat (call.command.count.toNat - 1))) := by
    rw [succ, lastAddress_itemLoads]
    rfl
  have place := place_item call mapBase (show call.command.count.toNat - 1 < call.command.count.toNat by omega)
  have items := accessAll_items mapBase memory call
  cases data : call.command.writeval with
  | none =>
      simp only [finalAccesses, Command.laterValues, Command.edit, data, List.append_nil]
      exact items
  | some writeval =>
      simp only [finalAccesses, data, accessAll_append, items, last, Command.accessAll,
        Command.accessMemory, place, Command.laterValues, Command.edit, Command.lastPlace, Option.getD_some]

/-- What the resource answers to the loads of the items. -/
theorem valuesRead_resource (call : Call) :
    call.command.valuesRead (resource mapBase call.command memory) = call.command.items memory := by
  apply List.map_congr_left
  intro k member
  have inside := List.mem_range.mp member
  have found : (resource mapBase call.command memory).device k =
      valueAt memory (call.command.target.toInt.toNat + k * call.command.width.toNat) 8 := by
    simp only [resource, accessAll_final]
    rw [List.getElem?_append_left (by rwa [List.length_map, List.length_range]), List.getElem?_map,
      List.getElem?_range inside]
    rfl
  rw [found, truncate_valueAt]

/-- What it answers to the read-back of a value. -/
theorem readback_resource (mapBase : UInt64) (memory : Nat -> UInt8) (call : Call) {writeval : UInt64}
    (data : call.command.writeval = some writeval) :
    call.command.accessType.truncate
        ((resource mapBase call.command memory).device (call.command.count.toNat + 1)) =
      call.command.accessType.truncate writeval := by
  have found : (resource mapBase call.command memory).device (call.command.count.toNat + 1) =
      valueAt (call.command.edit memory) call.command.lastPlace 8 := by
    simp only [resource, accessAll_final, Command.laterValues, data]
    rw [List.getElem?_append_right (by rw [List.length_map, List.length_range]; omega), List.length_map,
      List.length_range, Nat.add_sub_cancel_left]
    rfl
  have edited : call.command.edit memory = store memory call.command.lastPlace
      (call.command.storedBytes writeval) := by
    simp only [Command.edit, data]
    rfl
  rw [found, truncate_valueAt, edited, valueAt_stored]

end Accesses

/-! ## One call -/

/-- The loop prints no line about a written value. -/
def Plain (state : LoopState) : Prop :=
  forall line, line ∈ state.output -> line.written? = none

theorem Plain.body {env : Environment} {command : Command} {mapBase : UInt64} {state : LoopState}
    (plain : Plain state) : Plain (itemBody env command mapBase state) := by
  intro line member
  simp only [itemBody] at member
  split at member
  · rcases List.mem_append.mp member with before | last
    · exact plain line before
    · rw [List.mem_singleton.mp last]
      rfl
  · split at member
    · exact plain line member
    · rcases List.mem_append.mp member with before | last
      · exact plain line before
      · rw [List.mem_singleton.mp last]
        rfl

/-- A call runs to its end: the loop lists the items of the memory, and the
accesses are those that the resource has answered. -/
theorem main_resource (mapBase : UInt64) (memory : Nat -> UInt8) (call : Call) :
    Exists fun final : LoopState => Exists fun trace =>
      main call.command.count.toNat (resource mapBase call.command memory) call.argv = some trace /\
      trace.accesses = finalAccesses call.command mapBase /\
      trace.output = (writeData (resource mapBase call.command memory) call.command final).output /\
      final.accesses.length = call.command.count.toNat /\ Plain final /\
      final.output.filterMap Line.entry =
        collapse call.command.itemLabel 0 none false (call.command.items memory) := by
  have mapped : (resource mapBase call.command memory).mmap call.command.mapSize
      call.command.targetBase = some mapBase := by
    have base := toInt_targetBase call.command
    have nonneg := call.nonneg
    apply if_neg
    rw [Int64.lt_iff_toInt_lt, Int64.toInt_zero, base]
    omega
  rcases main_mapped call.parsed rfl mapped with ⟨trace, finishes, _called, _based, accesses⟩
  rcases itemLoop_total (resource mapBase call.command memory) call.command mapBase
    (fun state => Listed (resource mapBase call.command memory) call.command state /\ Plain state)
    ⟨listed_initial, fun _ member => absurd member List.not_mem_nil⟩
    (fun state visited both unfinished => ⟨both.1.body visited unfinished, both.2.body⟩) with
    ⟨final, returned, visited, ended, listed, plain⟩
  have enough := Nat.le_refl call.command.count.toNat
  have same := Option.some.inj
    ((finishes _ enough).symm.trans (main_of_loop call.parsed rfl mapped (returned _ enough)))
  have positive := call.positive
  have number : final.i.toInt.toNat = call.command.count.toNat := by omega
  have nothing : (call.command.valuesRead (resource mapBase call.command memory)).drop
      final.i.toInt.toNat = [] := by
    apply List.drop_eq_nil_of_le
    rw [number, Command.valuesRead, List.length_map, List.length_range]
  rw [Listed, nothing, collapse, List.append_nil, valuesRead_resource] at listed
  refine ⟨final, trace, finishes _ enough, accesses, congrArg Trace.output same, ?_, plain, listed⟩
  rw [visited.accesses, itemLoads, List.length_map, List.length_range, number]

/-- The printed lines of a call, read back. -/
theorem readPrinted_call (mapBase : UInt64) {memory : Nat -> UInt8} {call : Call} {final : LoopState}
    (number : final.accesses.length = call.command.count.toNat) (plain : Plain final)
    (listed : final.output.filterMap Line.entry =
      collapse call.command.itemLabel 0 none false (call.command.items memory)) :
    readPrinted (call.command,
        (writeData (resource mapBase call.command memory) call.command final).output) =
      (call.command.items memory, call.command.writeval.map fun writeval =>
        (writeval, call.command.accessType.truncate writeval)) := by
  have total : (call.command.items memory).length = call.command.count.toNat := by
    rw [Command.items, List.length_map, List.length_range]
  have texts : ((writeData (resource mapBase call.command memory) call.command final).output.map
      (Line.text call.command.width.toNat)).filterMap readLine =
        collapse call.command.itemLabel 0 none false (call.command.items memory) := by
    rw [List.filterMap_map, ← listed,
      ← filterMap_writeData (resource mapBase call.command memory) call.command final]
    apply List.filterMap_congr
    intro line _member
    exact readLine_text call.command.width.toNat line
  have unwritten : final.output.findSome? Line.written? = none := List.findSome?_eq_none_iff.mpr plain
  have behind : forall lines : List Line,
      (lines.map (Line.text call.command.width.toNat)).findSome? readWritten = lines.findSome? Line.written? := by
    intro lines
    rw [List.findSome?_map]
    exact congrArg (fun reader => lines.findSome? reader) (funext (readWritten_text call.command.width.toNat))
  apply Prod.ext
  · rw [readPrinted, recover, texts]
    exact expand_collapse (itemIndex_itemLabel call.nonneg call.fits) total
  · cases data : call.command.writeval with
    | none =>
        simp only [readPrinted, writeData, data, Option.map_none, behind]
        exact unwritten
    | some writeval =>
        have found := readback_resource mapBase memory call data
        simp only [readPrinted, writeData, data, Option.map_some, behind, List.findSome?_append, unwritten,
          number, found]
        rfl

/-- One call shows and edits what the array says. -/
theorem sessionStep_read (mapBase : UInt64) (session : Session) (call : Call) :
    (sessionStep mapBase session call).map Session.read = editorStep session.read call := by
  rcases main_resource mapBase session.memory call with
    ⟨final, trace, finishes, accesses, output, number, plain, listed⟩
  have printed := readPrinted_call mapBase number plain listed
  rw [sessionStep, finishes, Option.map_some, Option.map_some, editorStep, Session.read, accesses, output,
    accessAll_final]
  simp only [List.map_append, List.map_cons, List.map_nil, printed, Session.read]

/-! ## Whole sessions -/

/-- The command stores a byte at this offset. -/
def Command.Covers (command : Command) (place : Nat) : Prop :=
  command.writeval.isSome = true /\ command.lastPlace ≤ place /\
    place < command.lastPlace + command.width.toNat

theorem edit_outside {command : Command} {place : Nat} (outside : ¬ command.Covers place)
    (memory : Nat -> UInt8) : command.edit memory place = memory place := by
  cases data : command.writeval with
  | none => simp only [Command.edit, data]
  | some writeval =>
      simp only [Command.edit, data]
      apply store_outside
      rw [length_storedBytes]
      have apart : ¬ (command.lastPlace ≤ place /\ place < command.lastPlace + command.width.toNat) :=
        fun both => outside ⟨data ▸ rfl, both⟩
      rw [Command.lastPlace] at apart
      omega

/-- Calls that store elsewhere keep a byte. -/
theorem foldl_edit_outside (calls : List Call) (memory : Nat -> UInt8) {place : Nat}
    (outside : forall call, call ∈ calls -> ¬ call.command.Covers place) :
    calls.foldl (fun contents call => call.command.edit contents) memory place = memory place := by
  induction calls generalizing memory with
  | nil => rfl
  | cons call rest inductionHypothesis =>
      rw [List.foldl_cons,
        inductionHypothesis _ (fun other member => outside other (List.mem_cons_of_mem _ member)),
        edit_outside (outside call List.mem_cons_self)]

theorem edit_inside {command : Command} {writeval : UInt64} (data : command.writeval = some writeval)
    (memory : Nat -> UInt8) {offset : Nat} {byte : UInt8}
    (stored : (command.storedBytes writeval)[offset]? = some byte) :
    command.edit memory (command.lastPlace + offset) = byte := by
  simp only [Command.edit, data, Command.lastPlace]
  rw [store, if_pos (Nat.le_add_right _ offset), Nat.add_sub_cancel_left, stored, Option.getD_some]

/-- The array after some calls. -/
theorem run_editor (calls : List Call) (editor : Editor) :
    Exists fun final => run editorStep editor calls = some final /\
      final.memory = calls.foldl (fun contents call => call.command.edit contents) editor.memory := by
  induction calls generalizing editor with
  | nil => exact ⟨editor, rfl, rfl⟩
  | cons call rest inductionHypothesis =>
      rcases inductionHypothesis ⟨call.command.edit editor.memory, editor.shown ++
        [(call.command.items editor.memory, call.command.writeval.map fun writeval =>
          (writeval, call.command.accessType.truncate writeval))]⟩ with ⟨final, reached, contents⟩
      exact ⟨final, (run_cons editorStep).mpr ⟨_, rfl, reached⟩, contents⟩

/-- Every sequence of calls on one resource.  Each of them returns.  What the
lines of a call are read back as are the values that its items have at that time,
and the written value with what fits of it, exactly as if the calls were made on
an array of bytes.  In the end every byte is the one that was stored last at its
place, and a byte where nothing was stored is as before. -/
theorem session_edits_memory (mapBase : UInt64) (memory : Nat -> UInt8) (calls : List Call) :
    Exists fun session => run (sessionStep mapBase) ⟨memory, []⟩ calls = some session /\
      run editorStep ⟨memory, []⟩ calls = some session.read /\
      (forall earlier call later writeval offset byte, calls = earlier ++ call :: later ->
        call.command.writeval = some writeval ->
        (call.command.storedBytes writeval)[offset]? = some byte ->
        (forall other, other ∈ later -> ¬ other.command.Covers (call.command.lastPlace + offset)) ->
        session.memory (call.command.lastPlace + offset) = byte) /\
      forall place, (forall call, call ∈ calls -> ¬ call.command.Covers place) ->
        session.memory place = memory place := by
  have simulated : (run (sessionStep mapBase) ⟨memory, []⟩ calls).map Session.read =
      run editorStep (Session.read ⟨memory, []⟩) calls :=
    run_map (sessionStep mapBase) editorStep Session.read (fun _ => True)
      (fun session call _ => sessionStep_read mapBase session call) (fun _ _ _ _ _ => trivial) trivial calls
  rcases run_editor calls (Session.read ⟨memory, []⟩) with ⟨editor, reached, contents⟩
  rw [reached] at simulated
  rcases Option.map_eq_some_iff.mp simulated with ⟨session, completed, same⟩
  have final : session.memory = calls.foldl (fun contents call => call.command.edit contents) memory := by
    rw [← same] at contents
    exact contents
  refine ⟨session, completed, reached.trans (congrArg some same.symm), ?_, ?_⟩
  · intro earlier call later writeval offset byte split data stored unchanged
    rw [final, split, List.foldl_append, List.foldl_cons, foldl_edit_outside later _ unchanged]
    exact edit_inside data _ stored
  · intro place outside
    rw [final]
    exact foldl_edit_outside calls memory outside

/-- `pcimem file 0x100 h*2 0x12345`. -/
def storeHalfword : Call where
  argv := [[0x70], [0x66], [0x30, 0x78, 0x31, 0x30, 0x30], [0x68, 0x2A, 0x32],
    [0x30, 0x78, 0x31, 0x32, 0x33, 0x34, 0x35]]
  command := ⟨0x100, .h, 2, some 0x12345⟩
  parsed := by rfl
  nonneg := by decide
  positive := by decide
  fits := by decide

/-- Two bytes of the value are stored at the second item, and the printed lines say
so. -/
theorem session_edits_memory_halfword :
    Exists fun session => run (sessionStep 0x7F0000000000) ⟨fun _ => 0, []⟩ [storeHalfword] = some session /\
      session.read.shown = [([0, 0], some (0x12345, 0x2345))] /\
      session.memory 0x102 = 0x45 /\ session.memory 0x103 = 0x23 /\ session.memory 0x104 = 0 := by
  rcases session_edits_memory 0x7F0000000000 (fun _ => 0) [storeHalfword] with
    ⟨session, reached, read, stored, kept⟩
  have shown : (run editorStep ⟨fun _ => 0, []⟩ [storeHalfword]).map Editor.shown =
      some [([0, 0], some (0x12345, 0x2345))] := by decide +kernel
  rw [read, Option.map_some] at shown
  have bytes : storeHalfword.command.storedBytes 0x12345 = [0x45, 0x23] := by decide +kernel
  refine ⟨session, reached, Option.some.inj shown, ?_, ?_, ?_⟩
  · exact stored [] storeHalfword [] 0x12345 0 0x45 rfl rfl (by rw [bytes]; rfl) (List.forall_mem_nil _)
  · exact stored [] storeHalfword [] 0x12345 1 0x23 rfl rfl (by rw [bytes]; rfl) (List.forall_mem_nil _)
  · apply kept
    intro call member covers
    rw [List.mem_singleton.mp member] at covers
    exact absurd covers.2.2 (by decide)

end Pcimem
end KernelStudy
