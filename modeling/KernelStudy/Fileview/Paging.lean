import KernelStudy.Fileview.Navigation

namespace KernelStudy
namespace Fileview

open LabelledRun MachineWord

/-!
# Paging through a file

The page keys add or subtract the page increment and rely on the clamp at the
bottom of the loop.  Pressed again and again they should walk through the
whole file, stop at its ends, and undo each other.  The sum of position and
increment is a `long long`, so all of this depends on its not overflowing:
from the last window of a very large file, page down would lead back to the
beginning.
-/

/-- A key that is not the quit key leaves the loop running. -/
theorem iteration_running {posmax : Int64} {view next : View} {key : Keypress}
    (stays : key.command ≠ .quit) (taken : iteration posmax view key = some next) :
    next.done = false := by
  rcases iteration_cases taken with ⟨bottom, body, top⟩
  rcases loopBody_cases body with ⟨running, address, same⟩
  subst next bottom
  cases command : key.command with
  | quit => exact absurd command stays
  | home | last | lineDown | lineUp | pageDown | pageUp | smallerPage | largerPage | display | seek
  | unknown => exact running

/-- What paging needs of the view that it starts from. -/
structure Pageable (posmax : Int64) (view : View) : Prop where
  onPage : OnPage posmax view
  running : view.done = false

/-- The view that `count` presses of a key lead to. -/
def Presses (posmax : Int64) (view : View) (key : Keypress) (count : Nat) (next : View) : Prop :=
  run (iteration posmax) view (List.replicate count key) = some next

theorem increment_pos {pageincr : Int64} (member : pageincr ∈ pageIncrements) :
    256 ≤ pageincr.toInt /\ pageincr.toInt ≤ 2 ^ 36 := by
  have tested : pageIncrements.all (fun value =>
      decide (256 ≤ value.toInt /\ value.toInt ≤ 2 ^ 36)) = true := by decide +kernel
  exact of_decide_eq_true (List.all_eq_true.mp tested pageincr member)

theorem succ_mul_increment (count : Nat) (pageincr : Int64) :
    ((count + 1 : Nat) : Int) * pageincr.toInt = pageincr.toInt + count * pageincr.toInt := by
  push_cast
  ring

section Presses

variable {posmax : Int64} (bound : Bound posmax)

include bound

/-- One press that does not overflow keeps the view pageable. -/
theorem Pageable.move {view : View} (pageable : Pageable posmax view) {key : Keypress} {target : Int}
    (moves : moveTarget posmax view key.command = some target)
    (lower : -2 ^ 63 ≤ target) (upper : target < 2 ^ 63) :
    Exists fun next => iteration posmax view key = some next /\ Pageable posmax next /\
      next.position.toInt = max 0 (min target posmax.toInt) /\ next.pageincr = view.pageincr := by
  rcases iteration_move bound pageable.onPage pageable.running moves lower upper with
    ⟨next, taken, position, increment, _format⟩
  have stays : key.command ≠ .quit := by
    intro quits
    rw [quits] at moves
    cases moves
  exact ⟨next, taken, ⟨iteration_onPage bound view key next pageable.onPage taken,
    iteration_running stays taken⟩, position, increment⟩

/-- Page down stops at the last window.  The sums do not overflow when there is
room behind that window, or when the walk stays below the limit anyway. -/
theorem pageDown_presses {down : Keypress} (isDown : down.command = .pageDown) (count : Nat)
    {view : View} (pageable : Pageable posmax view)
    (room : posmax.toInt + view.pageincr.toInt < 2 ^ 63 \/
      view.position.toInt + count * view.pageincr.toInt < 2 ^ 63) :
    Exists fun next => Presses posmax view down count next /\ Pageable posmax next /\
      next.position.toInt = min (view.position.toInt + count * view.pageincr.toInt) posmax.toInt /\
      next.pageincr = view.pageincr := by
  induction count generalizing view with
  | zero =>
      refine ⟨view, rfl, pageable, ?_, rfl⟩
      have upper := pageable.onPage.le_posmax
      omega
  | succ count inductionHypothesis =>
      have nonneg := pageable.onPage.nonneg
      have upper := pageable.onPage.le_posmax
      have positive := (increment_pos pageable.onPage.increment).1
      have distance := succ_mul_increment count view.pageincr
      have product : 0 ≤ (count : Int) * view.pageincr.toInt :=
        Int.mul_nonneg (Int.natCast_nonneg count) (by omega)
      rw [distance] at room
      have moves : moveTarget posmax view down.command =
          some (view.position.toInt + view.pageincr.toInt) := by
        rw [isDown]
        rfl
      rcases pageable.move bound moves (by omega) (by omega) with
        ⟨middle, taken, stillPageable, moved, same⟩
      rcases inductionHypothesis stillPageable (by rw [same, moved]; omega) with
        ⟨next, reached, finallyPageable, position, increment⟩
      refine ⟨next, (run_cons _).mpr ⟨middle, taken, reached⟩, finallyPageable, ?_,
        increment.trans same⟩
      rw [position, moved, same, distance]
      omega

/-- Page up stops at the first window. -/
theorem pageUp_presses {up : Keypress} (isUp : up.command = .pageUp) (count : Nat)
    {view : View} (pageable : Pageable posmax view) :
    Exists fun next => Presses posmax view up count next /\ Pageable posmax next /\
      next.position.toInt = max 0 (view.position.toInt - count * view.pageincr.toInt) /\
      next.pageincr = view.pageincr := by
  induction count generalizing view with
  | zero =>
      refine ⟨view, rfl, pageable, ?_, rfl⟩
      have nonneg := pageable.onPage.nonneg
      omega
  | succ count inductionHypothesis =>
      have nonneg := pageable.onPage.nonneg
      have upper := pageable.onPage.le_posmax
      have limits := increment_pos pageable.onPage.increment
      have range := view.position.toInt_lt
      have moves : moveTarget posmax view up.command =
          some (view.position.toInt - view.pageincr.toInt) := by
        rw [isUp]
        rfl
      rcases pageable.move bound moves (by omega) (by omega) with
        ⟨middle, taken, stillPageable, moved, same⟩
      rcases inductionHypothesis stillPageable with ⟨next, reached, finallyPageable, position, increment⟩
      refine ⟨next, (run_cons _).mpr ⟨middle, taken, reached⟩, finallyPageable, ?_,
        increment.trans same⟩
      have distance := succ_mul_increment count view.pageincr
      have product : 0 ≤ (count : Int) * view.pageincr.toInt :=
        Int.mul_nonneg (Int.natCast_nonneg count) (by omega)
      rw [position, moved, same, distance]
      omega

/-- One page down.  A sum that does not fit wraps to a negative position, which the
clamp takes to the beginning. -/
theorem pageDown_step {down : Keypress} (isDown : down.command = .pageDown) {view : View}
    (pageable : Pageable posmax view) :
    Exists fun next => iteration posmax view down = some next /\ Pageable posmax next /\
      next.position.toInt = (if view.position.toInt + view.pageincr.toInt < 2 ^ 63
        then min (view.position.toInt + view.pageincr.toInt) posmax.toInt else 0) /\
      next.pageincr = view.pageincr := by
  have limits := increment_pos pageable.onPage.increment
  have start := pageable.onPage.nonneg
  have range := view.position.toInt_lt
  have stays : down.command ≠ .quit := by
    rw [isDown]
    decide
  have taken := @iteration_enabled posmax view pageable.running down (by rw [isDown]; decide)
  refine ⟨_, taken, ⟨iteration_onPage bound view down _ pageable.onPage taken, iteration_running stays taken⟩,
    ?_, ?_⟩
  · rw [isDown]
    simp only [View.loopTop, perform]
    rw [toInt_clampPosition bound]
    have nonneg := bound.nonneg
    split
    case isTrue fits =>
        rw [toInt_add_of_range (by omega) fits]
        omega
    case isFalse wraps =>
        have wrapped : (view.position + view.pageincr).toInt < 0 := by
          rw [Int64.toInt_add, Int.bmod_def]
          split <;> omega
        omega
  · rw [isDown]
    exact restorePageincr_eq pageable.onPage.increment

/-- Page down always goes through and never overtakes the exact sum, also where it
wraps. -/
theorem pageDown_presses_le {down : Keypress} (isDown : down.command = .pageDown) (count : Nat)
    {view : View} (pageable : Pageable posmax view) :
    Exists fun next => Presses posmax view down count next /\ Pageable posmax next /\
      next.position.toInt ≤ view.position.toInt + count * view.pageincr.toInt /\
      next.pageincr = view.pageincr := by
  induction count generalizing view with
  | zero => exact ⟨view, rfl, pageable, by omega, rfl⟩
  | succ count inductionHypothesis =>
      rcases pageDown_step bound isDown pageable with ⟨middle, taken, stillPageable, position, same⟩
      rcases inductionHypothesis stillPageable with ⟨next, rest, finallyPageable, below, increment⟩
      refine ⟨next, (run_cons _).mpr ⟨middle, taken, rest⟩, finallyPageable, ?_, increment.trans same⟩
      have start := pageable.onPage.nonneg
      have positive := (increment_pos pageable.onPage.increment).1
      have distance := succ_mul_increment count view.pageincr
      have one : middle.position.toInt ≤ view.position.toInt + view.pageincr.toInt := by
        rw [position]
        split <;> omega
      rw [same] at below
      omega

end Presses

theorem command_of_pageDown {down : Keypress} (pressed : keyCode down.inch = 0x365B1B) :
    down.command = .pageDown :=
  Move.decodeKey_eq (show keyCode down.inch ∈ Move.pageDown.codes from List.mem_singleton.mpr pressed)

theorem command_of_pageUp {up : Keypress} (pressed : keyCode up.inch = 0x355B1B) : up.command = .pageUp :=
  Move.decodeKey_eq (show keyCode up.inch ∈ Move.pageUp.codes from List.mem_singleton.mpr pressed)

/-- Paging, from every state that a session can reach.  One page down leads to the
exact sum, clamped to the last window, if that sum fits, and otherwise to the
beginning.  So `count` page downs lead exactly that many increments on, or to the last
window, for every `count`, if and only if an increment can be added to the start of
the last window.  Page up always stops at the beginning.  And as many page ups as page
downs lead back exactly when the end was not hit or the walk began at the first
window, whether or not it has wrapped. -/
theorem paging_exact (filesize : Int64) (nonneg : 0 ≤ filesize.toInt) (keys : List Keypress)
    (view : View)
    (reached : run (iteration (posmaxOf filesize)) View.start.loopTop keys = some view)
    (running : view.done = false) (down up : Keypress) (isDown : keyCode down.inch = 0x365B1B)
    (isUp : keyCode up.inch = 0x355B1B) :
    (Exists fun next => iteration (posmaxOf filesize) view down = some next /\
      next.position.toInt = if view.position.toInt + view.pageincr.toInt < 2 ^ 63
        then min (view.position.toInt + view.pageincr.toInt) (posmaxOf filesize).toInt else 0) /\
    ((forall count, Exists fun next => Presses (posmaxOf filesize) view down count next /\
        next.position.toInt =
          min (view.position.toInt + count * view.pageincr.toInt) (posmaxOf filesize).toInt) <->
      (posmaxOf filesize).toInt + view.pageincr.toInt < 2 ^ 63) /\
    (forall count, Exists fun next => Presses (posmaxOf filesize) view up count next /\
      next.position.toInt = max 0 (view.position.toInt - count * view.pageincr.toInt)) /\
    (forall count : Nat, Exists fun next =>
      run (iteration (posmaxOf filesize)) view
        (List.replicate count down ++ List.replicate count up) = some next /\
      (next.position = view.position <->
        view.position.toInt + count * view.pageincr.toInt ≤ (posmaxOf filesize).toInt \/
          view.position.toInt = 0)) := by
  have bound := posmaxOf_bound nonneg
  have downs := command_of_pageDown isDown
  have ups := command_of_pageUp isUp
  have pageable : Pageable (posmaxOf filesize) view := ⟨run_onPage bound reached, running⟩
  have limits := increment_pos pageable.onPage.increment
  have start := pageable.onPage.nonneg
  have limit := (posmaxOf filesize).toInt_lt
  refine ⟨?_, ⟨?_, ?_⟩, ?_, ?_⟩
  · rcases pageDown_step bound downs pageable with ⟨next, taken, _, position, _⟩
    exact ⟨next, taken, position⟩
  · intro exact_
    by_contra noRoom
    -- so many presses reach the last window, and one more leaves it
    have enough : Exists fun count : Nat => (posmaxOf filesize).toInt ≤ count * view.pageincr.toInt :=
      ⟨(posmaxOf filesize).toInt.toNat, by
        rw [Int.toNat_of_nonneg bound.nonneg]
        exact le_mul_of_one_le_right bound.nonneg (by omega)⟩
    rcases enough with ⟨count, far⟩
    rcases exact_ count with ⟨last, presses, position⟩
    rcases exact_ (count + 1) with ⟨beyond, pressesBeyond, positionBeyond⟩
    rcases pageDown_presses_le bound downs count pageable with ⟨sameLast, samePresses, stillPageable, _, same⟩
    have unique : last = sameLast := Option.some.inj (presses.symm.trans samePresses)
    rcases pageDown_step bound downs stillPageable with ⟨first, taken, _, backAtStart, _⟩
    rw [← unique, if_neg (by rw [unique, same, ← unique]; omega)] at backAtStart
    rw [Presses, List.replicate_succ', run_append, samePresses, Option.bind_some, run, taken] at pressesBeyond
    have sameView : first = beyond := Option.some.inj pressesBeyond
    have more := succ_mul_increment count view.pageincr
    rw [← sameView, backAtStart, more] at positionBeyond
    omega
  · intro room count
    rcases pageDown_presses bound downs count pageable (Or.inl room) with ⟨next, presses, _, position, _⟩
    exact ⟨next, presses, position⟩
  · intro count
    rcases pageUp_presses bound ups count pageable with ⟨next, presses, _, position, _⟩
    exact ⟨next, presses, position⟩
  · intro count
    rcases pageDown_presses_le bound downs count pageable with ⟨middle, presses, stillPageable, below, increment⟩
    rcases pageUp_presses bound ups count stillPageable with ⟨next, back, _, positionBack, _⟩
    refine ⟨next, by rw [run_append, presses]; exact back, ?_⟩
    have product : 0 ≤ (count : Int) * view.pageincr.toInt :=
      Int.mul_nonneg (Int.natCast_nonneg count) (by omega)
    have inside := stillPageable.onPage.le_posmax
    rw [← Int64.toInt_inj, positionBack, increment]
    by_cases short : view.position.toInt + count * view.pageincr.toInt ≤ (posmaxOf filesize).toInt
    · rcases pageDown_presses bound downs count pageable (Or.inr (by omega)) with
        ⟨sameMiddle, samePresses, _, position, _⟩
      have unique : middle = sameMiddle := Option.some.inj (presses.symm.trans samePresses)
      rw [unique, position]
      omega
    · omega

/-- A file of ten thousand bytes, from its third page: two pages on, two pages back,
and both.  At the end of the largest file, page down leads to the beginning. -/
theorem paging_exact_small :
    (Exists fun next => Presses (posmaxOf 10000) ⟨512, 0x100, 1, false⟩ ⟨kbPgdn, []⟩ 2 next /\
      next.position.toInt = 1024) /\
    (Exists fun next => Presses (posmaxOf 10000) ⟨512, 0x100, 1, false⟩ ⟨kbPgup, []⟩ 2 next /\
      next.position.toInt = 0) /\
    (Exists fun next => run (iteration (posmaxOf 10000)) ⟨512, 0x100, 1, false⟩
      (List.replicate 2 ⟨kbPgdn, []⟩ ++ List.replicate 2 ⟨kbPgup, []⟩) = some next /\ next.position = 512) /\
    Exists fun next => iteration (posmaxOf 9223372036854775807) ⟨9223372036854775552, 0x100, 1, false⟩
      ⟨kbPgdn, []⟩ = some next /\ next.position.toInt = 0 := by
  rcases paging_exact 10000 (by decide) (List.replicate 2 ⟨kbPgdn, []⟩) ⟨512, 0x100, 1, false⟩
    (by decide +kernel) rfl ⟨kbPgdn, []⟩ ⟨kbPgup, []⟩ (by decide +kernel) (by decide +kernel) with
    ⟨_step, downs, ups, returns⟩
  refine ⟨?_, ?_, ?_, ?_⟩
  · rcases downs.mpr (by decide +kernel) 2 with ⟨next, presses, position⟩
    exact ⟨next, presses, position.trans (by decide +kernel)⟩
  · rcases ups 2 with ⟨next, presses, position⟩
    exact ⟨next, presses, position.trans (by decide +kernel)⟩
  · rcases returns 2 with ⟨next, presses, same⟩
    exact ⟨next, presses, same.mpr (by decide +kernel)⟩
  · rcases (paging_exact 9223372036854775807 (by decide) [⟨kbEnd, []⟩] ⟨9223372036854775552, 0x100, 1, false⟩
      (by decide +kernel) rfl ⟨kbPgdn, []⟩ ⟨kbPgup, []⟩ (by decide +kernel) (by decide +kernel)).1 with
      ⟨next, taken, position⟩
    exact ⟨next, taken, position.trans (by decide +kernel)⟩

/-- Page down from the first window shows every byte of every file: the byte
at an offset is in the window after as many presses as there are whole pages
before it. -/
theorem paging_covers_file (filesize : Int64) (nonneg : 0 ≤ filesize.toInt) (down : Keypress)
    (isDown : keyCode down.inch = 0x365B1B) (offset : Nat) (inside : (offset : Int) < filesize.toInt) :
    Exists fun next => Presses (posmaxOf filesize) View.start.loopTop down (offset / 256) next /\
      next.position.toInt ≤ offset /\ offset < next.position.toInt + 256 := by
  have bound := posmaxOf_bound nonneg
  have limit := toInt_posmaxOf nonneg
  have largest := filesize.toInt_lt
  have start : View.start.loopTop.position.toInt = 0 := rfl
  have increment : View.start.loopTop.pageincr.toInt = 256 := by decide +kernel
  have below : View.start.loopTop.position.toInt +
      (offset / 256 : Nat) * View.start.loopTop.pageincr.toInt < 2 ^ 63 := by
    rw [start, increment]
    omega
  rcases pageDown_presses bound (command_of_pageDown isDown) (offset / 256) ⟨start_onPage bound, rfl⟩ (Or.inr below) with
    ⟨next, presses, _, position, _⟩
  refine ⟨next, presses, ?_⟩
  rw [start, increment] at position
  omega

/-- The page of byte five thousand. -/
theorem paging_covers_file_middle :
    Exists fun next => Presses (posmaxOf 10000) View.start.loopTop ⟨kbPgdn, []⟩ (5000 / 256) next /\
      next.position.toInt ≤ (5000 : Nat) /\ ((5000 : Nat) : Int) < next.position.toInt + 256 :=
  paging_covers_file 10000 (by decide) ⟨kbPgdn, []⟩ (by decide +kernel) 5000 (by decide)

end Fileview
end KernelStudy
