import KernelStudy.Foundations.CellMemory
import KernelStudy.Foundations.LabelledRun
import KernelStudy.CharacterDevice.Publication

namespace KernelStudy
namespace CharacterDevice
namespace UserPrograms

open CellMemory LabelledRun

/-!
# The user programs of the character drivers

`mycdev_user` and its twin for the misc device read 64 bytes from the driver,
print them as a string, put a text of their own into the same array and write
it back.  Nothing locks `pbuf`.  Any number of programs may run at once, and
the copies of two calls may be interleaved byte by byte, in any order of the
bytes.

The string is printed with `%s`, so it must contain a NUL, and the array is
written back with whatever the program has read behind its own text.  That
both go well depends on the two texts: behind the longer one there are only
zeros, whoever has written them.
-/

/-! ## The programs -/

/-- What `sprintf(buf, "write from user......")` stores. -/
def userText : List UInt8 :=
  "write from user......".toList.map (fun char => UInt8.ofNat char.toNat) ++ [0]

/-- Where a program is.  A copy in progress has moved some of its bytes. -/
inductive Stage where
  | opens
  | reads (moved : List Nat)
  | writes (moved : List Nat)
  | closed

/-- What a program has printed.  Without a NUL in the array, `printf` reads on
behind it. -/
inductive Output where
  | nothing
  | text (string : List UInt8)
  | overrun
deriving DecidableEq

structure Program where
  stage : Stage
  buf : Nat -> UInt8
  output : Output

/-- `printf("read from kernel : %s\n", buf)`, as far as the array goes. -/
def printString (buf : Nat -> UInt8) : Output :=
  if (0 : UInt8) ∈ load buf 0 64 then .text ((load buf 0 64).takeWhile fun byte => byte != 0)
  else .overrun

/-- The buffer of the driver, and all the programs that are ever started. -/
structure Device where
  pbuf : Nat -> UInt8
  programs : Nat -> Program

/-- A step of one program: it gets its descriptor, the copy of its current
call moves one byte, or that call returns. -/
inductive Step where
  | opened (program : Nat)
  | moves (program byte : Nat)
  | returns (program : Nat)

def Device.with (device : Device) (i : Nat) (program : Program) : Device :=
  { device with programs := Function.update device.programs i program }

/-- All 64 bytes of a call have been moved. -/
def Complete (moved : List Nat) : Prop :=
  forall j, j < 64 -> j ∈ moved

instance (moved : List Nat) : Decidable (Complete moved) :=
  inferInstanceAs (Decidable (forall j, j < 64 -> j ∈ moved))

def deviceStep (device : Device) : Step -> Option Device
  | .opened i =>
      let program := device.programs i
      match program.stage with
      | .opens => some (device.with i { program with stage := .reads [] })
      | .reads _ | .writes _ | .closed => none
  | .moves i j =>
      let program := device.programs i
      match program.stage with
      | .reads moved =>
          if j < 64 /\ j ∉ moved then
            some (device.with i { program with
              stage := .reads (j :: moved)
              buf := Function.update program.buf j (device.pbuf j) })
          else none
      | .writes moved =>
          if j < 64 /\ j ∉ moved then
            some { device.with i { program with stage := .writes (j :: moved) } with
              pbuf := Function.update device.pbuf j (program.buf j) }
          else none
      | .opens | .closed => none
  | .returns i =>
      let program := device.programs i
      match program.stage with
      | .reads moved =>
          if Complete moved then
            some (device.with i
              { stage := .writes []
                buf := store program.buf 0 userText
                output := printString program.buf })
          else none
      | .writes moved =>
          if Complete moved then some (device.with i { program with stage := .closed }) else none
      | .opens | .closed => none

/-- The driver as its init function leaves it, and programs that have done
nothing.  Their arrays are not initialised. -/
def Device.loaded (garbage : Nat -> Nat -> UInt8) : Device :=
  ⟨fun j => (Buffer.image greeting greeting_fits).bytes.getD j 0,
    fun i => ⟨.opens, garbage i, .nothing⟩⟩

/-! ## What a step can do -/

/-- What one program becomes in a step, and the buffer after it. -/
inductive Transition (pbuf : Nat -> UInt8) (program : Program) : Program -> (Nat -> UInt8) -> Prop where
  | opened (stage : program.stage = .opens) :
      Transition pbuf program { program with stage := .reads [] } pbuf
  | byteRead {moved : List Nat} {j : Nat} (stage : program.stage = .reads moved) (inside : j < 64) :
      Transition pbuf program { program with
        stage := .reads (j :: moved)
        buf := Function.update program.buf j (pbuf j) } pbuf
  | byteWritten {moved : List Nat} {j : Nat} (stage : program.stage = .writes moved) (inside : j < 64) :
      Transition pbuf program { program with stage := .writes (j :: moved) }
        (Function.update pbuf j (program.buf j))
  | readReturned {moved : List Nat} (stage : program.stage = .reads moved) (complete : Complete moved) :
      Transition pbuf program
        ⟨.writes [], store program.buf 0 userText, printString program.buf⟩ pbuf
  | writeReturned {moved : List Nat} (stage : program.stage = .writes moved)
      (complete : Complete moved) : Transition pbuf program { program with stage := .closed } pbuf

theorem deviceStep_cases {device next : Device} {step : Step} (taken : deviceStep device step = some next) :
    Exists fun i => Exists fun program => Exists fun pbuf =>
      Transition device.pbuf (device.programs i) program pbuf /\
        next = { device.with i program with pbuf := pbuf } := by
  cases step with
  | opened i =>
      cases stage : (device.programs i).stage with
      | opens =>
          simp only [deviceStep, stage, Option.some.injEq] at taken
          exact ⟨i, _, _, .opened stage, taken.symm⟩
      | reads moved | writes moved | closed => simp only [deviceStep, stage, reduceCtorEq] at taken
  | moves i j =>
      cases stage : (device.programs i).stage with
      | reads moved =>
          simp only [deviceStep, stage, Option.ite_none_right_eq_some, Option.some.injEq] at taken
          exact ⟨i, _, _, .byteRead stage taken.1.1, taken.2.symm⟩
      | writes moved =>
          simp only [deviceStep, stage, Option.ite_none_right_eq_some, Option.some.injEq] at taken
          exact ⟨i, _, _, .byteWritten stage taken.1.1, taken.2.symm⟩
      | opens | closed => simp only [deviceStep, stage, reduceCtorEq] at taken
  | returns i =>
      cases stage : (device.programs i).stage with
      | reads moved =>
          simp only [deviceStep, stage, Option.ite_none_right_eq_some, Option.some.injEq] at taken
          exact ⟨i, _, _, .readReturned stage taken.1, taken.2.symm⟩
      | writes moved =>
          simp only [deviceStep, stage, Option.ite_none_right_eq_some, Option.some.injEq] at taken
          exact ⟨i, _, _, .writeReturned stage taken.1, taken.2.symm⟩
      | opens | closed => simp only [deviceStep, stage, reduceCtorEq] at taken

/-- Reading one more byte into a set of bytes that all satisfy something. -/
theorem update_listed (good : Nat -> UInt8 -> Prop) {buf : Nat -> UInt8} {moved : List Nat} {j : Nat}
    {byte : UInt8} (before : forall k, k ∈ moved -> good k (buf k)) (now : good j byte) :
    forall k, k ∈ j :: moved -> good k (Function.update buf j byte k) := by
  intro k listed
  by_cases here : k = j
  · subst k
    rw [Function.update_self]
    exact now
  · rw [Function.update_of_ne here]
    rcases List.mem_cons.mp listed with impossible | earlier
    · exact absurd impossible here
    · exact before k earlier

/-! ## The bytes that can occur -/

/-- A byte of a text that is followed by zeros. -/
def byteAt (text : List UInt8) (j : Nat) : UInt8 :=
  text.getD j 0

/-- A byte of the driver's text or of a program's. -/
def Mixed (j : Nat) (byte : UInt8) : Prop :=
  byte = byteAt greeting j \/ byte = byteAt userText j

/-- Behind the program's text, its NUL included, both texts have zeros. -/
theorem byteAt_greeting_eq {j : Nat} (behind : 22 ≤ j) : byteAt greeting j = byteAt userText j := by
  have length : userText.length = 22 := by decide
  have greetingLength : greeting.length = 23 := by decide
  by_cases last : j = 22
  · subst j
    decide
  · rw [byteAt, byteAt, List.getD_eq_default _ _ (by omega), List.getD_eq_default _ _ (by omega)]

theorem Mixed.eq_userText {j : Nat} {byte : UInt8} (mixed : Mixed j byte) (behind : 22 ≤ j) :
    byte = byteAt userText j := by
  rcases mixed with driver | program
  · exact driver.trans (byteAt_greeting_eq behind)
  · exact program

/-- A program's own text, and behind it what it has read. -/
theorem store_userText {buf : Nat -> UInt8} (read : forall j, j < 64 -> Mixed j (buf j)) {j : Nat}
    (inside : j < 64) : store buf 0 userText j = byteAt userText j := by
  have length : userText.length = 22 := by decide
  by_cases behind : 22 ≤ j
  · rw [store_above buf (by omega)]
    exact (read j inside).eq_userText behind
  · rw [store, if_pos (Nat.zero_le j), Nat.sub_zero, byteAt, List.getD_eq_getElem?_getD,
      List.getElem?_eq_getElem (by omega), Option.getD_some, Option.getD_some]

/-- A string of at most 22 characters, each from one of the two texts. -/
def GoodOutput (output : Output) : Prop :=
  Exists fun string => output = .text string /\ string.length ≤ 22 /\
    forall j byte, string[j]? = some byte -> Mixed j byte

/-- The bytes before the first zero. -/
theorem takeWhile_load (buf : Nat -> UInt8) {string : List UInt8}
    (same : (load buf 0 64).takeWhile (fun byte => byte != 0) = string) {j : Nat} {byte : UInt8}
    (found : string[j]? = some byte) : buf j = byte /\ byte ≠ 0 /\ j < 64 := by
  subst string
  have listed := List.mem_of_getElem? found
  have nonzero := List.mem_takeWhile_imp listed
  have front := List.takeWhile_prefix (l := load buf 0 64) (fun byte => byte != 0)
  have short := front.length_le
  rw [length_load] at short
  rcases front with ⟨rest, whole⟩
  have inside : j < ((load buf 0 64).takeWhile fun byte => byte != 0).length :=
    (List.getElem?_eq_some_iff.mp found).1
  have loaded : (load buf 0 64)[j]? = some byte := by
    rw [← whole, List.getElem?_append_left inside]
    exact found
  rw [getElem?_load buf (by omega), Nat.zero_add] at loaded
  exact ⟨Option.some.inj loaded, bne_iff_ne.mp nonzero, by omega⟩

theorem printString_good {buf : Nat -> UInt8} (read : forall j, j < 64 -> Mixed j (buf j)) :
    GoodOutput (printString buf) := by
  have terminated : buf 22 = 0 := by
    rw [(read 22 (by decide)).eq_userText (by decide)]
    decide
  have zero : (0 : UInt8) ∈ load buf 0 64 := by
    apply List.mem_map.mpr
    exact ⟨22, List.mem_range.mpr (by decide), terminated⟩
  refine ⟨_, by rw [printString, if_pos zero], ?_, ?_⟩
  · by_contra long
    have inside : 22 < ((load buf 0 64).takeWhile fun byte => byte != 0).length := by omega
    have found := takeWhile_load buf rfl (List.getElem?_eq_getElem inside)
    exact found.2.1 (found.1.symm.trans terminated)
  · intro j byte found
    have facts := takeWhile_load buf rfl found
    rw [← facts.1]
    exact read j facts.2.2

/-! ## What every interleaving keeps -/

/-- What holds of a program beside a buffer.  Whatever it is going to write,
and whatever it has written, is the program's text with zeros behind it. -/
def Settled (pbuf : Nat -> UInt8) (program : Program) : Prop :=
  match program.stage with
  | .opens => program.output = .nothing
  | .reads moved => program.output = .nothing /\ forall j, j ∈ moved -> Mixed j (program.buf j)
  | .writes moved => GoodOutput program.output /\
      (forall j, j < 64 -> program.buf j = byteAt userText j) /\
      forall j, j ∈ moved -> pbuf j = byteAt userText j
  | .closed => GoodOutput program.output /\ forall j, j < 64 -> pbuf j = byteAt userText j

structure Orderly (device : Device) : Prop where
  buffer : forall j, Mixed j (device.pbuf j)
  program : forall i, Settled device.pbuf (device.programs i)

/-- A byte that has become the programs' stays so. -/
def Advances (before after : Nat -> UInt8) : Prop :=
  forall j, before j = byteAt userText j -> after j = byteAt userText j

theorem Settled.advance {before after : Nat -> UInt8} {program : Program}
    (settled : Settled before program) (advances : Advances before after) : Settled after program := by
  cases stage : program.stage with
  | opens | reads moved =>
      simp only [Settled, stage] at settled ⊢
      exact settled
  | writes moved =>
      simp only [Settled, stage] at settled ⊢
      exact ⟨settled.1, settled.2.1, fun j listed => advances j (settled.2.2 j listed)⟩
  | closed =>
      simp only [Settled, stage] at settled ⊢
      exact ⟨settled.1, fun j inside => advances j (settled.2 j inside)⟩

/-- A step that changes one program, and the buffer only forwards. -/
theorem Orderly.with {device : Device} (orderly : Orderly device) {i : Nat} {program : Program}
    {pbuf : Nat -> UInt8} (mixed : forall j, Mixed j (pbuf j)) (advances : Advances device.pbuf pbuf)
    (settled : Settled pbuf program) : Orderly { device.with i program with pbuf := pbuf } := by
  refine ⟨mixed, fun k => ?_⟩
  by_cases same : k = i
  · subst k
    simp only [Device.with, Function.update_self]
    exact settled
  · simp only [Device.with, Function.update_of_ne same]
    exact (orderly.program k).advance advances

theorem advances_refl (pbuf : Nat -> UInt8) : Advances pbuf pbuf :=
  fun _ same => same

/-- A byte only moves into the buffer from a program that has all of its text. -/
theorem transition_settled {pbuf after : Nat -> UInt8} {program changed : Program}
    (mixed : forall j, Mixed j (pbuf j)) (settled : Settled pbuf program)
    (transition : Transition pbuf program changed after) :
    Settled after changed /\ Advances pbuf after /\ forall j, Mixed j (after j) := by
  cases transition with
  | opened stage =>
      simp only [Settled, stage] at settled ⊢
      exact ⟨⟨settled, List.forall_mem_nil _⟩, advances_refl pbuf, mixed⟩
  | byteRead stage inside =>
      simp only [Settled, stage] at settled ⊢
      exact ⟨⟨settled.1, update_listed Mixed settled.2 (mixed _)⟩, advances_refl pbuf, mixed⟩
  | @byteWritten moved j stage inside =>
      simp only [Settled, stage] at settled ⊢
      have text := settled.2.1 j inside
      have advances : Advances pbuf (Function.update pbuf j (program.buf j)) := by
        intro k before
        by_cases here : k = j
        · subst k
          rw [Function.update_self]
          exact text
        · rw [Function.update_of_ne here]
          exact before
      refine ⟨⟨settled.1, settled.2.1,
        update_listed (fun k byte => byte = byteAt userText k) settled.2.2 text⟩, advances, ?_⟩
      intro k
      by_cases here : k = j
      · subst k
        rw [Function.update_self]
        exact Or.inr text
      · rw [Function.update_of_ne here]
        exact mixed k
  | readReturned stage complete =>
      simp only [Settled, stage] at settled ⊢
      have read : forall j, j < 64 -> Mixed j (program.buf j) :=
        fun j inside => settled.2 j (complete j inside)
      exact ⟨⟨printString_good read, fun j inside => store_userText read inside,
        List.forall_mem_nil _⟩, advances_refl pbuf, mixed⟩
  | writeReturned stage complete =>
      simp only [Settled, stage] at settled ⊢
      exact ⟨⟨settled.1, fun j inside => settled.2.2 j (complete j inside)⟩, advances_refl pbuf, mixed⟩

theorem deviceStep_orderly {device next : Device} {step : Step} (orderly : Orderly device)
    (taken : deviceStep device step = some next) :
    Orderly next /\ Advances device.pbuf next.pbuf := by
  rcases deviceStep_cases taken with ⟨i, program, pbuf, transition, same⟩
  rcases transition_settled orderly.buffer (orderly.program i) transition with
    ⟨settled, advances, mixed⟩
  subst next
  exact ⟨orderly.with mixed advances settled, advances⟩

theorem loaded_orderly (garbage : Nat -> Nat -> UInt8) : Orderly (Device.loaded garbage) := by
  refine ⟨fun j => Or.inl ?_, fun i => by simp only [Settled, Device.loaded]⟩
  simp only [Device.loaded, Buffer.image, byteAt, List.getD_eq_getElem?_getD]
  by_cases inside : j < greeting.length
  · rw [List.getElem?_append_left inside]
  · have beyond := Nat.le_of_not_lt inside
    rw [List.getElem?_append_right beyond, List.getElem?_eq_none beyond, List.getElem?_replicate]
    split <;> rfl

/-! ## Programs that start after another has ended -/

/-- What a program has read is the programs' text, and so is what it printed. -/
def ReadsText (program : Program) : Prop :=
  match program.stage with
  | .opens => True
  | .reads moved => forall j, j ∈ moved -> program.buf j = byteAt userText j
  | .writes _ | .closed => program.output = .text userText.dropLast

/-- The buffer holds the programs' text, and program `i` has read nothing else. -/
structure Late (i : Nat) (device : Device) : Prop where
  orderly : Orderly device
  buffer : forall j, j < 64 -> device.pbuf j = byteAt userText j
  program : ReadsText (device.programs i)

/-- An array with the programs' text prints as that text. -/
theorem printString_userText {buf : Nat -> UInt8}
    (read : forall j, j < 64 -> buf j = byteAt userText j) :
    printString buf = .text userText.dropLast := by
  have loaded : load buf 0 64 = load (byteAt userText) 0 64 := by
    apply load_congr
    intro offset inside
    rw [Nat.zero_add]
    exact read offset inside
  rw [printString, loaded]
  decide +kernel

theorem transition_readsText {pbuf after : Nat -> UInt8} {program changed : Program}
    (buffer : forall j, j < 64 -> pbuf j = byteAt userText j) (reads : ReadsText program)
    (transition : Transition pbuf program changed after) : ReadsText changed := by
  cases transition with
  | opened stage => exact List.forall_mem_nil _
  | @byteRead moved j stage inside =>
      simp only [ReadsText, stage] at reads ⊢
      exact update_listed (fun k byte => byte = byteAt userText k) reads (buffer j inside)
  | readReturned stage complete =>
      simp only [ReadsText, stage] at reads ⊢
      exact printString_userText fun j inside => reads j (complete j inside)
  | byteWritten stage | writeReturned stage =>
      simp only [ReadsText, stage] at reads ⊢
      exact reads

theorem deviceStep_late (i : Nat) (device : Device) (step : Step) (next : Device) (late : Late i device)
    (taken : deviceStep device step = some next) : Late i next := by
  rcases deviceStep_orderly late.orderly taken with ⟨orderly, advances⟩
  refine ⟨orderly, fun j inside => advances j (late.buffer j inside), ?_⟩
  rcases deviceStep_cases taken with ⟨k, program, pbuf, transition, same⟩
  subst next
  by_cases own : i = k
  · subst k
    simp only [Device.with, Function.update_self]
    exact transition_readsText late.buffer late.program transition
  · simp only [Device.with, Function.update_of_ne own]
    exact late.program

/-- Every interleaving of any number of the programs, byte by byte.  Whatever a
program prints is a string of at most 22 characters, each of them from the
driver's text or from the programs' text at its place; `printf` never runs over
the array.  Every byte of the buffer is one of the two, and one that has become
the programs' stays so.  A program that is started after another one has ended
prints the programs' text. -/
theorem programs_print_texts (garbage : Nat -> Nat -> UInt8) (steps : List Step) (device : Device)
    (reached : run deviceStep (Device.loaded garbage) steps = some device) :
    (forall i, (device.programs i).output = .nothing \/ GoodOutput (device.programs i).output) /\
    (forall j, Mixed j (device.pbuf j)) /\
    forall later final, run deviceStep device later = some final ->
      Advances device.pbuf final.pbuf /\
      forall ended started, (device.programs ended).stage = .closed ->
        (device.programs started).stage = .opens ->
        (final.programs started).output = .nothing \/
          (final.programs started).output = .text userText.dropLast := by
  have orderly := invariant_of_run deviceStep Orderly
    (fun _ _ _ orderly taken => (deviceStep_orderly orderly taken).1) (loaded_orderly garbage) reached
  refine ⟨fun i => ?_, orderly.buffer, fun later final continued => ⟨?_, ?_⟩⟩
  · have settled := orderly.program i
    cases stage : (device.programs i).stage with
    | opens =>
        simp only [Settled, stage] at settled
        exact Or.inl settled
    | reads moved =>
        simp only [Settled, stage] at settled
        exact Or.inl settled.1
    | writes moved | closed =>
        simp only [Settled, stage] at settled
        exact Or.inr settled.1
  · have forward := invariant_of_run deviceStep
      (fun state => Orderly state /\ Advances device.pbuf state.pbuf)
      (by
        rintro state step next ⟨stillOrderly, advanced⟩ taken
        rcases deviceStep_orderly stillOrderly taken with ⟨orderlyNext, advances⟩
        exact ⟨orderlyNext, fun j before => advances j (advanced j before)⟩)
      ⟨orderly, advances_refl _⟩ continued
    exact forward.2
  · intro ended started isEnded isStarted
    have settled := orderly.program ended
    simp only [Settled, isEnded] at settled
    have begun : Late started device := by
      refine ⟨orderly, settled.2, ?_⟩
      rw [ReadsText, isStarted]
      trivial
    have late := invariant_of_run deviceStep (Late started) (deviceStep_late started) begun continued
    have text := late.program
    have output := late.orderly.program started
    cases stage : (final.programs started).stage with
    | opens =>
        simp only [Settled, stage] at output
        exact Or.inl output
    | reads moved =>
        simp only [Settled, stage] at output
        exact Or.inl output.1
    | writes moved | closed =>
        simp only [ReadsText, stage] at text
        exact Or.inr text

def Stage.isOpens : Stage -> Bool
  | .opens => true
  | .reads _ | .writes _ | .closed => false

def Stage.isClosed : Stage -> Bool
  | .closed => true
  | .opens | .reads _ | .writes _ => false

/-- Two programs overlap: the second one reads while the first one has written ten
bytes. -/
def overlapping : List Step :=
  [.opened 0] ++ (List.range 64).map (.moves 0) ++ [.returns 0, .opened 1] ++
    (List.range 10).map (.moves 0) ++ (List.range 64).map (.moves 1) ++ [.returns 1] ++
    (List.range' 10 54).map (.moves 0) ++ [.returns 0]

/-- A third program starts when the first one has ended, and reads while the second
one writes. -/
def afterwards : List Step :=
  [.opened 2] ++ (List.range 64).flatMap (fun j => [.moves 1 j, .moves 2 (63 - j)]) ++ [.returns 2]

/-- The second program prints a mixture of the two texts, and the third one the
programs' text. -/
theorem programs_print_texts_overlapping :
    Exists fun device => Exists fun final =>
      run deviceStep (Device.loaded fun _ _ => 7) overlapping = some device /\
      run deviceStep device afterwards = some final /\
      (device.programs 0).output = .text greeting.dropLast /\
      (device.programs 1).output = .text (userText.take 10 ++ greeting.dropLast.drop 10) /\
      GoodOutput (device.programs 1).output /\ (final.programs 2).output = .text userText.dropLast := by
  have before : (run deviceStep (Device.loaded fun _ _ => 7) overlapping).map
      (fun device => ((device.programs 0).output, (device.programs 1).output,
        (device.programs 0).stage.isClosed, (device.programs 2).stage.isOpens)) =
      some (.text greeting.dropLast, .text (userText.take 10 ++ greeting.dropLast.drop 10), true, true) := by
    decide +kernel
  have printed : (run deviceStep (Device.loaded fun _ _ => 7) (overlapping ++ afterwards)).map
      (fun device => decide ((device.programs 2).output = .nothing)) = some false := by decide +kernel
  rcases Option.map_eq_some_iff.mp before with ⟨device, reached, facts⟩
  rw [run_append, reached, Option.bind_some] at printed
  rcases Option.map_eq_some_iff.mp printed with ⟨final, continued, something⟩
  have outputs := Prod.mk.inj facts
  have second := Prod.mk.inj outputs.2
  have stages := Prod.mk.inj second.2
  have closed : (device.programs 0).stage = .closed := by
    cases stage : (device.programs 0).stage with
    | closed => rfl
    | opens | reads | writes =>
        rw [stage] at stages
        cases stages.1
  have opens : (device.programs 2).stage = .opens := by
    cases stage : (device.programs 2).stage with
    | opens => rfl
    | closed | reads | writes =>
        rw [stage] at stages
        cases stages.2
  have texts := programs_print_texts (fun _ _ => 7) overlapping device reached
  refine ⟨device, final, reached, continued, outputs.1, second.1, ?_, ?_⟩
  · rcases texts.1 1 with nothing | good
    · rw [second.1] at nothing
      cases nothing
    · exact good
  · rcases (texts.2.2 afterwards final continued).2 0 2 closed opens with nothing | text
    · exact absurd nothing (of_decide_eq_false something)
    · exact text

end UserPrograms
end CharacterDevice
end KernelStudy
