import KernelStudy.Foundations.MachineWord
import KernelStudy.Foundations.LabelledRun
import KernelStudy.Fileview.SeekPrompt

namespace KernelStudy
namespace Fileview

open MachineWord

/-!
# Navigation in `fileview`

The main loop keeps a file position, a page increment and a display format.
A key is decoded into a command, the command changes one of the three, and
the bounds are restored at two different places: the position at the bottom
of the loop and the page increment at its top.  All arithmetic is on
`long long`, modelled by wrapping 64-bit words.

A state of the run below is the state at the top of an iteration, after the
page increment has been adjusted.  A label is one key together with the codes
that are typed if it opens the seek prompt.
-/

/-! ## The variables of the main loop -/

structure View where
  position : Int64
  pageincr : Int64
  format : Int32
  done : Bool
deriving DecidableEq

def incmin : Int64 := 0x100

def incmax : Int64 := 0x1000000000

/-- The start of the last window, from the size that `lseek64` returned. -/
def posmaxOf (filesize : Int64) : Int64 :=
  let posmax := (filesize - 241) &&& ~~~(0xF : Int64)
  if posmax < 0 then 0 else posmax

/-- The values before the first iteration. -/
def View.start : View := ⟨0, incmin, 1, false⟩

/-- Restore `pageincr` to the prescribed bounds. -/
def restorePageincr (pageincr : Int64) : Int64 :=
  if pageincr = 0 then incmax
  else if pageincr < incmin then incmin
  else if pageincr > incmax then incmax
  else pageincr

def View.loopTop (view : View) : View :=
  { view with pageincr := restorePageincr view.pageincr }

/-! ## Commands -/

inductive Command where
  | home | last
  | lineDown | lineUp
  | pageDown | pageUp
  | smallerPage | largerPage
  | display (format : Int32)
  | seek
  | quit
  | unknown
deriving DecidableEq

/-- The labels of the `switch` with the command of their case, in its order. -/
def keyTable : List (List Int64 × Command) :=
  [([0x48, 0x68, kbHome], .home),
    ([0x45, 0x65, kbEnd], .last),
    ([kbLndn], .lineDown),
    ([kbLnup], .lineUp),
    ([kbPgdn], .pageDown),
    ([kbPgup], .pageUp),
    ([kbRght], .smallerPage),
    ([kbLeft], .largerPage),
    ([0x42, 0x62], .display 1),
    ([0x57, 0x77], .display 2),
    ([0x44, 0x64], .display 4),
    ([0x51, 0x71], .display 8),
    ([0x4F, 0x6F], .display 16),
    ([kbSeek], .seek),
    ([kbQuit], .quit)]

/-- The `switch`; a code without a label takes the `default` case. -/
def decodeKey (inch : Int64) : Command :=
  match keyTable.find? (fun row => row.1.contains inch) with
  | some row => row.2
  | none => .unknown

/-- The effect of a case of the `switch`.  The address parsed by the seek
prompt is passed in; the other commands do not read it. -/
def perform (posmax : Int64) (address : UInt64) (view : View) : Command -> View
  | .home => { view with position := 0 }
  | .last => { view with position := posmax }
  | .lineDown => { view with position := view.position + 16 }
  | .lineUp => { view with position := view.position - 16 }
  | .pageDown => { view with position := view.position + view.pageincr }
  | .pageUp => { view with position := view.position - view.pageincr }
  | .smallerPage => { view with pageincr := view.pageincr >>> 4 }
  | .largerPage => { view with pageincr := view.pageincr <<< 4 }
  | .display format => { view with format := format }
  | .seek => { view with position := address.toInt64 &&& ~~~(0xF : Int64) }
  | .quit => { view with done := true }
  | .unknown => view

/-- Insure that `position` remains within bounds. -/
def clampPosition (posmax position : Int64) : Int64 :=
  let position := if position < 0 then 0 else position
  if position > posmax then posmax else position

/-- One key, with the codes typed at the prompt when it is the seek key. -/
structure Keypress where
  inch : Int64
  typed : List Int64

def Keypress.command (key : Keypress) : Command :=
  decodeKey (keyCode key.inch)

/-- The address that the command reads.  Without a complete line the seek
prompt is still waiting and the iteration does not end. -/
def Keypress.address (key : Keypress) : Option UInt64 :=
  if key.command = .seek then (seekPrompt key.typed).map strtoull else some 0

/-- From the top of an iteration to its bottom. -/
def loopBody (posmax : Int64) (view : View) (key : Keypress) : Option View :=
  if view.done then none
  else key.address.map fun address =>
    let after := perform posmax address view key.command
    { after with position := clampPosition posmax after.position }

/-- From the top of an iteration to the top of the next. -/
def iteration (posmax : Int64) (view : View) (key : Keypress) : Option View :=
  (loopBody posmax view key).map View.loopTop

/-! ## What is kept -/

/-- The powers of two from `2 ^ 8` to `2 ^ 36` that the increment takes. -/
def pageIncrements : List Int64 :=
  [0x100, 0x1000, 0x10000, 0x100000, 0x1000000, 0x10000000, 0x100000000, 0x1000000000]

def formats : List Int32 := [1, 2, 4, 8, 16]

structure OnPage (posmax : Int64) (view : View) : Prop where
  aligned : 16 ∣ view.position.toInt
  nonneg : 0 ≤ view.position.toInt
  le_posmax : view.position.toInt ≤ posmax.toInt
  increment : view.pageincr ∈ pageIncrements
  format : view.format ∈ formats

/-- A usable bound for the position. -/
structure Bound (posmax : Int64) : Prop where
  aligned : 16 ∣ posmax.toInt
  nonneg : 0 ≤ posmax.toInt

theorem toInt_posmaxOf {filesize : Int64} (nonneg : 0 ≤ filesize.toInt) :
    (posmaxOf filesize).toInt = max 0 (16 * ((filesize.toInt - 241) / 16)) := by
  have upper := filesize.toInt_lt
  have literal : (241 : Int64).toInt = 241 := rfl
  have difference : (filesize - 241).toInt = filesize.toInt - 241 := by
    rw [toInt_sub_of_range (by omega) (by omega), literal]
  have masked := toInt_and_not_fifteen (filesize - 241)
  rw [difference] at masked
  rw [posmaxOf]
  split
  · rename_i negative
    rw [Int64.lt_iff_toInt_lt, masked, Int64.toInt_zero] at negative
    rw [Int64.toInt_zero]
    omega
  · rename_i positive
    rw [Int64.lt_iff_toInt_lt, masked, Int64.toInt_zero] at positive
    rw [masked]
    omega

theorem posmaxOf_bound {filesize : Int64} (nonneg : 0 ≤ filesize.toInt) :
    Bound (posmaxOf filesize) := by
  have value := toInt_posmaxOf nonneg
  constructor <;> omega

/-! ## Alignment survives wrapping -/

theorem aligned_add {left right : Int64} (first : 16 ∣ left.toInt) (second : 16 ∣ right.toInt) :
    16 ∣ (left + right).toInt := by
  rw [Int64.toInt_add, Int.bmod_def]
  split <;> omega

theorem aligned_sub {left right : Int64} (first : 16 ∣ left.toInt) (second : 16 ∣ right.toInt) :
    16 ∣ (left - right).toInt := by
  rw [Int64.toInt_sub, Int.bmod_def]
  split <;> omega

theorem aligned_increment {pageincr : Int64} (member : pageincr ∈ pageIncrements) :
    16 ∣ pageincr.toInt := by
  have tested : pageIncrements.all (fun value => decide (16 ∣ value.toInt)) = true := by decide +kernel
  exact of_decide_eq_true (List.all_eq_true.mp tested pageincr member)

/-! ## The two places where bounds are restored -/

/-- The clamp is the integer clamp to the range from zero to `posmax`. -/
theorem toInt_clampPosition {posmax : Int64} (bound : Bound posmax) (position : Int64) :
    (clampPosition posmax position).toInt = max 0 (min position.toInt posmax.toInt) := by
  have nonneg := bound.nonneg
  by_cases negative : position < 0
  · have value := Int64.lt_iff_toInt_lt.mp negative
    have notAbove : ¬ (0 : Int64) > posmax := by
      rw [gt_iff_lt, Int64.lt_iff_toInt_lt, Int64.toInt_zero]
      omega
    rw [Int64.toInt_zero] at value
    simp only [clampPosition, if_pos negative, if_neg notAbove, Int64.toInt_zero]
    omega
  · have value := mt Int64.lt_iff_toInt_lt.mpr negative
    rw [Int64.toInt_zero] at value
    simp only [clampPosition, if_neg negative]
    split
    · rename_i above
      have aboveInt := Int64.lt_iff_toInt_lt.mp above
      omega
    · rename_i within
      have withinInt := mt Int64.lt_iff_toInt_lt.mpr within
      omega

theorem restorePageincr_eq {pageincr : Int64} (member : pageincr ∈ pageIncrements) :
    restorePageincr pageincr = pageincr := by
  have tested : pageIncrements.all (fun value => decide (restorePageincr value = value)) = true := by
    decide +kernel
  exact of_decide_eq_true (List.all_eq_true.mp tested pageincr member)

/-- Shifting by one hexadecimal digit never gives zero, and the adjustment
leads back into the prescribed values. -/
theorem shifted_increment {pageincr : Int64} (member : pageincr ∈ pageIncrements) :
    (pageincr >>> 4 ≠ 0 /\ restorePageincr (pageincr >>> 4) ∈ pageIncrements) /\
      (pageincr <<< 4 ≠ 0 /\ restorePageincr (pageincr <<< 4) ∈ pageIncrements) := by
  have tested : pageIncrements.all (fun value => decide (
      (value >>> 4 ≠ 0 /\ restorePageincr (value >>> 4) ∈ pageIncrements) /\
        (value <<< 4 ≠ 0 /\ restorePageincr (value <<< 4) ∈ pageIncrements))) = true := by
    decide +kernel
  exact of_decide_eq_true (List.all_eq_true.mp tested pageincr member)

theorem decodeKey_format {inch : Int64} {format : Int32} (decoded : decodeKey inch = .display format) :
    format ∈ formats := by
  have tested : keyTable.all (fun row => match row.2 with
      | .display format => decide (format ∈ formats)
      | _ => true) = true := by decide +kernel
  rw [decodeKey] at decoded
  split at decoded
  · rename_i row found
    have listed := List.all_eq_true.mp tested row (List.mem_of_find?_eq_some found)
    rw [decoded] at listed
    exact of_decide_eq_true listed
  · cases decoded

/-! ## One iteration -/

/-- The position before the clamp keeps its alignment under every command. -/
theorem perform_aligned {posmax : Int64} (bound : Bound posmax) {view : View}
    (onPage : OnPage posmax view) (address : UInt64) (command : Command) :
    16 ∣ (perform posmax address view command).position.toInt := by
  have line : 16 ∣ (16 : Int64).toInt := by decide
  have page := aligned_increment onPage.increment
  cases command with
  | home => exact ⟨0, rfl⟩
  | last => exact bound.aligned
  | lineDown => exact aligned_add onPage.aligned line
  | lineUp => exact aligned_sub onPage.aligned line
  | pageDown => exact aligned_add onPage.aligned page
  | pageUp => exact aligned_sub onPage.aligned page
  | seek =>
      simp only [perform, toInt_and_not_fifteen]
      exact Int.dvd_mul_right 16 _
  | smallerPage | largerPage | display | quit | unknown => exact onPage.aligned

/-- The increment after a command is not zero, and the top of the next
iteration restores it to a prescribed value. -/
theorem perform_increment {posmax : Int64} {view : View} (onPage : OnPage posmax view)
    (address : UInt64) (command : Command) :
    (perform posmax address view command).pageincr ≠ 0 /\
      restorePageincr (perform posmax address view command).pageincr ∈ pageIncrements := by
  have shifted := shifted_increment onPage.increment
  have kept : view.pageincr ≠ 0 /\ restorePageincr view.pageincr ∈ pageIncrements := by
    constructor
    · intro zero
      have member := onPage.increment
      rw [zero] at member
      exact absurd member (by decide +kernel)
    · rw [restorePageincr_eq onPage.increment]
      exact onPage.increment
  cases command with
  | smallerPage => exact shifted.1
  | largerPage => exact shifted.2
  | home | last | lineDown | lineUp | pageDown | pageUp | display | seek | quit | unknown => exact kept

theorem perform_format {posmax : Int64} {view : View} (onPage : OnPage posmax view)
    (address : UInt64) (key : Keypress) :
    (perform posmax address view key.command).format ∈ formats := by
  cases decoded : key.command with
  | display format => exact decodeKey_format decoded
  | home | last | lineDown | lineUp | pageDown | pageUp | smallerPage | largerPage | seek | quit
  | unknown => exact onPage.format

/-- An enabled iteration performs its command, clamps the position and
restores the increment. -/
theorem loopBody_cases {posmax : Int64} {view bottom : View} {key : Keypress}
    (taken : loopBody posmax view key = some bottom) :
    view.done = false /\ Exists fun address =>
      bottom = { perform posmax address view key.command with
        position := clampPosition posmax (perform posmax address view key.command).position } := by
  rw [loopBody] at taken
  cases finished : view.done with
  | true => simp only [finished, if_true, reduceCtorEq] at taken
  | false =>
      simp only [finished, Bool.false_eq_true, if_false, Option.map_eq_some_iff] at taken
      rcases taken with ⟨address, _read, same⟩
      exact ⟨rfl, address, same.symm⟩

theorem iteration_cases {posmax : Int64} {view next : View} {key : Keypress}
    (taken : iteration posmax view key = some next) :
    Exists fun bottom => loopBody posmax view key = some bottom /\ next = bottom.loopTop := by
  rw [iteration, Option.map_eq_some_iff] at taken
  rcases taken with ⟨bottom, body, same⟩
  exact ⟨bottom, body, same.symm⟩

theorem iteration_onPage {posmax : Int64} (bound : Bound posmax) (view : View) (key : Keypress)
    (next : View) (onPage : OnPage posmax view) (taken : iteration posmax view key = some next) :
    OnPage posmax next := by
  rcases iteration_cases taken with ⟨bottom, body, top⟩
  rcases loopBody_cases body with ⟨_running, address, same⟩
  subst next bottom
  have aligned := perform_aligned bound onPage address key.command
  have clamped := toInt_clampPosition bound (perform posmax address view key.command).position
  have limit := bound.aligned
  have nonneg := bound.nonneg
  refine ⟨?_, ?_, ?_, (perform_increment onPage address key.command).2,
    perform_format onPage address key⟩
  all_goals
    simp only [View.loopTop, clamped]
    omega

theorem start_onPage {posmax : Int64} (bound : Bound posmax) : OnPage posmax View.start.loopTop :=
  ⟨⟨0, rfl⟩, by decide, bound.nonneg, by decide +kernel, by decide⟩

/-- The state at the top of every iteration. -/
theorem run_onPage {posmax : Int64} (bound : Bound posmax) {keys : List Keypress} {view : View}
    (reached : LabelledRun.run (iteration posmax) View.start.loopTop keys = some view) :
    OnPage posmax view :=
  LabelledRun.invariant_of_run (iteration posmax) (OnPage posmax)
    (iteration_onPage bound) (start_onPage bound) reached

/-! ## Exact effect of the commands -/

/-- The exact integer target of a command that moves the position. -/
def moveTarget (posmax : Int64) (view : View) : Command -> Option Int
  | .home => some 0
  | .last => some posmax.toInt
  | .lineDown => some (view.position.toInt + 16)
  | .lineUp => some (view.position.toInt - 16)
  | .pageDown => some (view.position.toInt + view.pageincr.toInt)
  | .pageUp => some (view.position.toInt - view.pageincr.toInt)
  | .smallerPage | .largerPage | .display _ | .seek | .quit | .unknown => none

theorem perform_move {posmax : Int64} {view : View} (address : UInt64) {command : Command}
    {target : Int} (moves : moveTarget posmax view command = some target)
    (lower : -2 ^ 63 ≤ target) (upper : target < 2 ^ 63) :
    (perform posmax address view command).position.toInt = target /\
      (perform posmax address view command).pageincr = view.pageincr /\
      (perform posmax address view command).format = view.format := by
  have line : (16 : Int64).toInt = 16 := rfl
  cases command with
  | home | last =>
      cases moves
      exact ⟨rfl, rfl, rfl⟩
  | lineDown =>
      cases moves
      exact ⟨toInt_add_of_range lower upper, rfl, rfl⟩
  | lineUp =>
      cases moves
      exact ⟨toInt_sub_of_range lower upper, rfl, rfl⟩
  | pageDown =>
      cases moves
      exact ⟨toInt_add_of_range lower upper, rfl, rfl⟩
  | pageUp =>
      cases moves
      exact ⟨toInt_sub_of_range lower upper, rfl, rfl⟩
  | smallerPage | largerPage | display | seek | quit | unknown => cases moves

/-- Only an unfinished seek prompt keeps an iteration from ending. -/
theorem iteration_enabled {posmax : Int64} {view : View} (running : view.done = false)
    {key : Keypress} (notSeek : key.command ≠ .seek) :
    iteration posmax view key = some (View.loopTop
      { perform posmax 0 view key.command with
        position := clampPosition posmax (perform posmax 0 view key.command).position }) := by
  simp only [iteration, loopBody, running, Keypress.address, if_neg notSeek,
    Bool.false_eq_true, if_false, Option.map_some]

/-- A command that moves the position reaches its exact target, clamped to
the file, and leaves the other two variables alone. -/
theorem iteration_move {posmax : Int64} (bound : Bound posmax) {view : View}
    (onPage : OnPage posmax view) (running : view.done = false) {key : Keypress} {target : Int}
    (moves : moveTarget posmax view key.command = some target)
    (lower : -2 ^ 63 ≤ target) (upper : target < 2 ^ 63) :
    Exists fun next => iteration posmax view key = some next /\
      next.position.toInt = max 0 (min target posmax.toInt) /\
      next.pageincr = view.pageincr /\ next.format = view.format := by
  have notSeek : key.command ≠ .seek := by
    intro isSeek
    rw [isSeek] at moves
    cases moves
  rcases perform_move 0 moves lower upper with ⟨position, increment, format⟩
  refine ⟨_, iteration_enabled running notSeek, ?_, ?_, format⟩
  · simp only [View.loopTop]
    rw [toInt_clampPosition bound, position]
  · simp only [View.loopTop, increment]
    exact restorePageincr_eq onPage.increment

/-- A command that leaves the position alone keeps the window. -/
theorem iteration_stays {posmax : Int64} (bound : Bound posmax) {view : View}
    (onPage : OnPage posmax view) (running : view.done = false) {key : Keypress}
    (notSeek : key.command ≠ .seek)
    (untouched : (perform posmax 0 view key.command).position = view.position) :
    iteration posmax view key = some (perform posmax 0 view key.command).loopTop := by
  have kept : clampPosition posmax view.position = view.position := by
    have nonneg := onPage.nonneg
    have upper := onPage.le_posmax
    apply Int64.toInt_inj.mp
    rw [toInt_clampPosition bound]
    omega
  rw [iteration_enabled running notSeek, untouched, kept, ← untouched]

/-- One hexadecimal digit less or more, inside the prescribed range. -/
theorem shifted_value {pageincr : Int64} (member : pageincr ∈ pageIncrements) :
    (restorePageincr (pageincr >>> 4)).toInt = max (2 ^ 8) (pageincr.toInt / 16) /\
      (restorePageincr (pageincr <<< 4)).toInt = min (2 ^ 36) (16 * pageincr.toInt) := by
  have tested : pageIncrements.all (fun value => decide (
      (restorePageincr (value >>> 4)).toInt = max (2 ^ 8) (value.toInt / 16) /\
        (restorePageincr (value <<< 4)).toInt = min (2 ^ 36) (16 * value.toInt))) = true := by
    decide +kernel
  exact of_decide_eq_true (List.all_eq_true.mp tested pageincr member)

/-! ## The keyboard

What the keys are for, by the codes that a terminal sends: a letter, or an
escape sequence with its first byte lowest.
-/

inductive Move where
  | home | last
  | lineDown | lineUp
  | pageDown | pageUp
deriving DecidableEq

def Move.codes : Move -> List Int64
  | .home => [0x48, 0x68, 0x315B1B]
  | .last => [0x45, 0x65, 0x345B1B]
  | .lineDown => [0x425B1B]
  | .lineUp => [0x415B1B]
  | .pageDown => [0x365B1B]
  | .pageUp => [0x355B1B]

/-- The exact integer target of a move. -/
def Move.target (posmax : Int64) (view : View) : Move -> Int
  | .home => 0
  | .last => posmax.toInt
  | .lineDown => view.position.toInt + 16
  | .lineUp => view.position.toInt - 16
  | .pageDown => view.position.toInt + view.pageincr.toInt
  | .pageUp => view.position.toInt - view.pageincr.toInt

/-- The formats with the letters that select them. -/
def formatKeys : List (Int32 × List Int64) :=
  [(1, [0x42, 0x62]), (2, [0x57, 0x77]), (4, [0x44, 0x64]), (8, [0x51, 0x71]), (16, [0x4F, 0x6F])]

def Move.command : Move -> Command
  | .home => .home
  | .last => .last
  | .lineDown => .lineDown
  | .lineUp => .lineUp
  | .pageDown => .pageDown
  | .pageUp => .pageUp

/-- The `switch` has the case of every moving key. -/
theorem Move.decodeKey_eq {move : Move} {code : Int64} (pressed : code ∈ move.codes) :
    decodeKey code = move.command := by
  have tested : move.codes.all (fun code => decide (decodeKey code = move.command)) = true := by
    cases move <;> decide +kernel
  exact of_decide_eq_true (List.all_eq_true.mp tested code pressed)

theorem Move.moveTarget_eq (posmax : Int64) (view : View) (move : Move) :
    moveTarget posmax view move.command = some (move.target posmax view) := by
  cases move <;> rfl

theorem moveTarget_of_code (posmax : Int64) (view : View) {move : Move} {key : Keypress}
    (pressed : keyCode key.inch ∈ move.codes) :
    moveTarget posmax view key.command = some (move.target posmax view) := by
  rw [Keypress.command, move.decodeKey_eq pressed, move.moveTarget_eq]

theorem decodeKey_arrows : decodeKey 0x435B1B = .smallerPage /\ decodeKey 0x445B1B = .largerPage := by
  decide +kernel

theorem command_of_formatKey {row : Int32 × List Int64} (listed : row ∈ formatKeys) {key : Keypress}
    (pressed : keyCode key.inch ∈ row.2) : key.command = .display row.1 := by
  have tested : formatKeys.all (fun row =>
      row.2.all fun code => decide (decodeKey code = .display row.1)) = true := by decide +kernel
  exact of_decide_eq_true (List.all_eq_true.mp (List.all_eq_true.mp tested row listed) _ pressed)

/-- A moving key reaches its exact target, clamped to the file, and leaves the
increment and the format alone. -/
theorem press_move {posmax : Int64} (bound : Bound posmax) {view : View} (onPage : OnPage posmax view)
    (running : view.done = false) {move : Move} {key : Keypress} (pressed : keyCode key.inch ∈ move.codes)
    (lower : -2 ^ 63 ≤ move.target posmax view) (upper : move.target posmax view < 2 ^ 63) :
    Exists fun next => iteration posmax view key = some next /\
      next.position.toInt = max 0 (min (move.target posmax view) posmax.toInt) /\
      next.pageincr = view.pageincr /\ next.format = view.format :=
  iteration_move bound onPage running (moveTarget_of_code posmax view pressed) lower upper

/-- The right and left arrow keys. -/
theorem press_increment {posmax : Int64} (bound : Bound posmax) {view : View} (onPage : OnPage posmax view)
    (running : view.done = false) {key : Keypress} :
    (keyCode key.inch = 0x435B1B -> Exists fun next => iteration posmax view key = some next /\
      next.position = view.position /\ next.format = view.format /\
      next.pageincr.toInt = max (2 ^ 8) (view.pageincr.toInt / 16)) /\
    (keyCode key.inch = 0x445B1B -> Exists fun next => iteration posmax view key = some next /\
      next.position = view.position /\ next.format = view.format /\
      next.pageincr.toInt = min (2 ^ 36) (16 * view.pageincr.toInt)) := by
  have shifted := shifted_value onPage.increment
  constructor
  · intro right
    have command : key.command = .smallerPage := by
      rw [Keypress.command, right, decodeKey_arrows.1]
    have taken := iteration_stays bound onPage running (by rw [command]; decide) (by rw [command]; rfl)
    rw [command] at taken
    exact ⟨_, taken, rfl, rfl, shifted.1⟩
  · intro left
    have command : key.command = .largerPage := by
      rw [Keypress.command, left, decodeKey_arrows.2]
    have taken := iteration_stays bound onPage running (by rw [command]; decide) (by rw [command]; rfl)
    rw [command] at taken
    exact ⟨_, taken, rfl, rfl, shifted.2⟩

/-- The letters of the formats. -/
theorem press_format {posmax : Int64} (bound : Bound posmax) {view : View} (onPage : OnPage posmax view)
    (running : view.done = false) {row : Int32 × List Int64} (listed : row ∈ formatKeys) {key : Keypress}
    (pressed : keyCode key.inch ∈ row.2) :
    Exists fun next => iteration posmax view key = some next /\
      next.position = view.position /\ next.pageincr = view.pageincr /\ next.format = row.1 := by
  have command := command_of_formatKey listed pressed
  have taken := iteration_stays bound onPage running (by rw [command]; exact Command.noConfusion)
    (by rw [command]; rfl)
  rw [command] at taken
  exact ⟨_, taken, rfl, restorePageincr_eq onPage.increment, rfl⟩

theorem increment_power {pageincr : Int64} (member : pageincr ∈ pageIncrements) :
    Exists fun k => k < 8 /\ pageincr.toInt = 2 ^ (8 + 4 * k) := by
  have tested : pageIncrements.all (fun value =>
      (List.range 8).any (fun k => decide (value.toInt = 2 ^ (8 + 4 * k)))) = true := by decide +kernel
  rcases List.any_eq_true.mp (List.all_eq_true.mp tested pageincr member) with ⟨k, listed, value⟩
  exact ⟨k, List.mem_range.mp listed, of_decide_eq_true value⟩

/-- Navigation over whole sessions.  For every file size and every sequence
of keys and typed addresses, the top of each iteration sees an aligned
position inside the file, one of the eight page increments and one of the
five formats; the zero test of the increment never succeeds; and from there
every moving key is exact, while the arrows to the sides and the letters of
the formats keep the position. -/
theorem navigation_exact (filesize : Int64) (nonneg : 0 ≤ filesize.toInt) (keys : List Keypress)
    (view : View)
    (reached : LabelledRun.run (iteration (posmaxOf filesize)) View.start.loopTop keys = some view) :
    (16 ∣ view.position.toInt /\ 0 ≤ view.position.toInt /\
      view.position.toInt ≤ (posmaxOf filesize).toInt) /\
    (Exists fun k => k < 8 /\ view.pageincr.toInt = 2 ^ (8 + 4 * k)) /\
    view.format ∈ formats /\
    (View.start.pageincr ≠ 0 /\ forall key bottom,
      loopBody (posmaxOf filesize) view key = some bottom -> bottom.pageincr ≠ 0) /\
    (view.done = false -> forall (move : Move) (key : Keypress), keyCode key.inch ∈ move.codes ->
      -2 ^ 63 ≤ move.target (posmaxOf filesize) view -> move.target (posmaxOf filesize) view < 2 ^ 63 ->
      Exists fun next => iteration (posmaxOf filesize) view key = some next /\
        next.position.toInt = max 0 (min (move.target (posmaxOf filesize) view) (posmaxOf filesize).toInt) /\
        next.pageincr = view.pageincr /\ next.format = view.format) /\
    (view.done = false -> forall key : Keypress,
      (keyCode key.inch = 0x435B1B -> Exists fun next => iteration (posmaxOf filesize) view key = some next /\
        next.position = view.position /\ next.format = view.format /\
        next.pageincr.toInt = max (2 ^ 8) (view.pageincr.toInt / 16)) /\
      (keyCode key.inch = 0x445B1B -> Exists fun next => iteration (posmaxOf filesize) view key = some next /\
        next.position = view.position /\ next.format = view.format /\
        next.pageincr.toInt = min (2 ^ 36) (16 * view.pageincr.toInt))) /\
    (view.done = false -> forall row, row ∈ formatKeys -> forall key : Keypress, keyCode key.inch ∈ row.2 ->
      Exists fun next => iteration (posmaxOf filesize) view key = some next /\
        next.position = view.position /\ next.pageincr = view.pageincr /\ next.format = row.1) := by
  have bound := posmaxOf_bound nonneg
  have onPage := run_onPage bound reached
  refine ⟨⟨onPage.aligned, onPage.nonneg, onPage.le_posmax⟩, increment_power onPage.increment,
    onPage.format, ⟨by decide, ?_⟩, ?_, ?_, ?_⟩
  · intro key bottom body
    rcases loopBody_cases body with ⟨_running, address, same⟩
    subst bottom
    exact (perform_increment onPage address key.command).1
  · intro running move key pressed lower upper
    exact press_move bound onPage running pressed lower upper
  · intro running key
    exact press_increment bound onPage running
  · intro running row listed key pressed
    exact press_format bound onPage running listed pressed

/-- A thousand-byte file after one page down.  From there `ESC [ 4 ~` leads to the
last window, `ESC [ A` one line up, and the letter `w` selects words. -/
theorem navigation_exact_pageDown :
    (Exists fun next => iteration (posmaxOf 1000) ⟨256, 0x100, 1, false⟩ ⟨0x7E345B1B, []⟩ = some next /\
      next.position.toInt = 752 /\ next.pageincr = 0x100 /\ next.format = 1) /\
    (Exists fun next => iteration (posmaxOf 1000) ⟨256, 0x100, 1, false⟩ ⟨0x415B1B, []⟩ = some next /\
      next.position.toInt = 240 /\ next.pageincr = 0x100 /\ next.format = 1) /\
    (Exists fun next => iteration (posmaxOf 1000) ⟨256, 0x100, 1, false⟩ ⟨0x445B1B, []⟩ = some next /\
      next.position = 256 /\ next.format = 1 /\ next.pageincr.toInt = 0x1000) /\
    (Exists fun next => iteration (posmaxOf 1000) ⟨256, 0x100, 1, false⟩ ⟨0x77, []⟩ = some next /\
      next.position = 256 /\ next.pageincr = 0x100 /\ next.format = 2) := by
  have exact := navigation_exact 1000 (by decide) [⟨0x365B1B, []⟩] ⟨256, 0x100, 1, false⟩ (by decide +kernel)
  rcases exact with ⟨_aligned, _increment, _format, _nonzero, moves, arrows, letters⟩
  refine ⟨?_, ?_, ?_, ?_⟩
  · rcases moves rfl .last ⟨0x7E345B1B, []⟩ (by decide +kernel) (by decide +kernel) (by decide +kernel) with
      ⟨next, taken, position, kept⟩
    exact ⟨next, taken, position.trans (by decide +kernel), kept⟩
  · rcases moves rfl .lineUp ⟨0x415B1B, []⟩ (by decide +kernel) (by decide +kernel) (by decide +kernel) with
      ⟨next, taken, position, kept⟩
    exact ⟨next, taken, position.trans (by decide +kernel), kept⟩
  · rcases (arrows rfl ⟨0x445B1B, []⟩).2 (by decide +kernel) with ⟨next, taken, position, format, pageincr⟩
    exact ⟨next, taken, position, format, pageincr.trans (by decide +kernel)⟩
  · exact letters rfl (2, [0x57, 0x77]) (by decide) ⟨0x77, []⟩ (by decide +kernel)

end Fileview
end KernelStudy
