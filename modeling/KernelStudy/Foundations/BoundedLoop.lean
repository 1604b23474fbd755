import Mathlib

namespace KernelStudy
namespace BoundedLoop

/-!
# Loops with an explicit iteration budget

A `while` loop is a guard and a body on an explicit state.  `loop` runs it
with a budget of iterations and answers `none` when the budget is exhausted
while the guard still holds.  A returned state is therefore evidence that the
loop terminated, and a result about a loop never follows from its failing to
return.

The rule for a loop that ends is `loop_total`: an invariant and a decreasing
measure give a returned state in which the invariant holds and the guard
fails.  The rule for a loop that does not end is `loop_diverges`: an invariant
that keeps the guard true exhausts every budget.
-/

universe u

variable {State : Type u}

/-- Iterate `body` while `guard` holds.  The result `none` says that the
budget was too small, not that the loop has no result. -/
def loop (guard : State -> Bool) (body : State -> State) : Nat -> State -> Option State
  | 0, state => if guard state then none else some state
  | fuel + 1, state => if guard state then loop guard body fuel (body state) else some state

theorem loop_finished (guard : State -> Bool) (body : State -> State) (fuel : Nat) {state : State}
    (finished : guard state = false) : loop guard body fuel state = some state := by
  cases fuel <;> simp only [loop, finished, Bool.false_eq_true, if_false]

theorem loop_unfinished (guard : State -> Bool) (body : State -> State) (fuel : Nat) {state : State}
    (unfinished : guard state = true) :
    loop guard body (fuel + 1) state = loop guard body fuel (body state) := by
  simp only [loop, unfinished, if_true]

/-- A larger budget does not change a returned state. -/
theorem loop_mono (guard : State -> Bool) (body : State -> State) {fuel larger : Nat}
    {state result : State} (enough : fuel ≤ larger)
    (returned : loop guard body fuel state = some result) :
    loop guard body larger state = some result := by
  induction larger generalizing fuel state with
  | zero =>
      have fuelZero : fuel = 0 := Nat.eq_zero_of_le_zero enough
      subst fuel
      exact returned
  | succ larger inductionHypothesis =>
      cases unfinished : guard state with
      | false =>
          rw [loop_finished guard body _ unfinished] at returned ⊢
          exact returned
      | true =>
          cases fuel with
          | zero => simp only [loop, unfinished, if_true, reduceCtorEq] at returned
          | succ fuel =>
              rw [loop_unfinished guard body _ unfinished] at returned ⊢
              exact inductionHypothesis (Nat.le_of_succ_le_succ enough) returned

/-- The result does not depend on the budget. -/
theorem loop_unique (guard : State -> Bool) (body : State -> State) {fuel other : Nat}
    {state first second : State} (returned : loop guard body fuel state = some first)
    (returnedOther : loop guard body other state = some second) : first = second := by
  rcases Nat.le_total fuel other with le | le
  · exact Option.some.inj ((loop_mono guard body le returned).symm.trans returnedOther)
  · exact Option.some.inj (returned.symm.trans (loop_mono guard body le returnedOther))

/-- Total correctness.  The measure bounds the number of iterations, and the
invariant is only required to survive an iteration whose guard holds. -/
theorem loop_total (guard : State -> Bool) (body : State -> State)
    (Invariant : State -> Prop) (measure : State -> Nat)
    (preserved : forall state, Invariant state -> guard state = true -> Invariant (body state))
    (decreases : forall state, Invariant state -> guard state = true ->
      measure (body state) < measure state)
    {fuel : Nat} {state : State} (holds : Invariant state) (budget : measure state ≤ fuel) :
    Exists fun result => loop guard body fuel state = some result /\
      Invariant result /\ guard result = false := by
  induction fuel generalizing state with
  | zero =>
      cases unfinished : guard state with
      | false => exact ⟨state, loop_finished guard body 0 unfinished, holds, unfinished⟩
      | true =>
          have smaller := decreases state holds unfinished
          omega
  | succ fuel inductionHypothesis =>
      cases unfinished : guard state with
      | false => exact ⟨state, loop_finished guard body _ unfinished, holds, unfinished⟩
      | true =>
          have smaller := decreases state holds unfinished
          rw [loop_unfinished guard body fuel unfinished]
          exact inductionHypothesis (preserved state holds unfinished) (by omega)

/-- An invariant under which the guard never fails. -/
theorem loop_diverges (guard : State -> Bool) (body : State -> State) (Invariant : State -> Prop)
    (preserved : forall state, Invariant state -> Invariant (body state))
    (running : forall state, Invariant state -> guard state = true)
    (fuel : Nat) {state : State} (holds : Invariant state) : loop guard body fuel state = none := by
  induction fuel generalizing state with
  | zero => simp only [loop, running state holds, if_true]
  | succ fuel inductionHypothesis =>
      rw [loop_unfinished guard body fuel (running state holds)]
      exact inductionHypothesis (preserved state holds)

end BoundedLoop
end KernelStudy
