import Mathlib

namespace KernelStudy
namespace RunCollapse

/-!
# Listings that leave out repeated values

A listing shows a value together with its address when it differs from the
value before it, and marks each run of repetitions by one entry without data.
The length of a run is not written down.  It follows from the address of the
next shown value, or from the number of values when the listing ends.

`collapse` writes such a listing one value at a time, with the previous value
and whether the current run is already marked as its state.  `expand` reads
one.  They are inverse whenever the addresses can be told apart.
-/

universe u v

variable {Address : Type u} {Value : Type v}

/-- An entry of a listing. -/
inductive Entry (Address : Type u) (Value : Type v) where
  | shown (address : Address) (value : Value)
  | repeated

section Writing

variable [DecidableEq Value] (label : Nat -> Address)

/-- The entries for the values from index `k` on.  Without a previous value
the next one is shown. -/
def collapse : Nat -> Option Value -> Bool -> List Value -> List (Entry Address Value)
  | _, _, _, [] => []
  | k, previous, marked, value :: values =>
      if previous = some value then
        if marked then collapse (k + 1) (some value) true values
        else .repeated :: collapse (k + 1) (some value) true values
      else .shown (label k) value :: collapse (k + 1) (some value) false values

end Writing

section Reading

variable (indexOf : Address -> Nat) (count : Nat)

/-- The index up to which a run lasts that the entries follow. -/
def nextIndex : List (Entry Address Value) -> Nat
  | .shown address _ :: _ => indexOf address
  | _ => count

/-- Append the values that the entries stand for to those already produced. -/
def expand : List (Entry Address Value) -> List Value -> List Value
  | [], produced => produced
  | .shown _ value :: rest, produced => expand rest (produced ++ [value])
  | .repeated :: rest, produced =>
      let missing := nextIndex indexOf count rest - produced.length
      expand rest (produced ++ (produced.getLast?.map (List.replicate missing)).getD [])

/-- The entries after a value shown at index `last`.  A mark stands before the
next shown value, or before the end, exactly when that is not adjacent. -/
def Spaced : Nat -> Bool -> List (Entry Address Value) -> Prop
  | last, marked, [] => (marked = true <-> count ≠ last + 1)
  | last, marked, .shown address _ :: rest =>
      (marked = true <-> indexOf address ≠ last + 1) /\ Spaced (indexOf address) false rest
  | last, marked, .repeated :: rest => marked = false /\ Spaced last true rest

end Reading

/-! ## Reading what was written

The addresses that are written can be told apart. -/

section Inverse

variable [DecidableEq Value] {label : Nat -> Address} {indexOf : Address -> Nat} {count : Nat}
variable (distinct : forall k, k < count -> indexOf (label k) = k)

include distinct

/-- Both halves go through one induction: a run that is not yet marked, and a
run whose mark has already been expanded. -/
theorem expand_collapse_from (values : List Value) :
    forall (k : Nat) (produced : List Value), produced.length = k -> k + values.length = count ->
      expand indexOf count (collapse label k produced.getLast? false values) produced =
          produced ++ values /\
      forall value, produced.getLast? = some value ->
        k ≤ nextIndex indexOf count (collapse label k (some value) true values) /\
        expand indexOf count (collapse label k (some value) true values) (produced ++
            List.replicate (nextIndex indexOf count (collapse label k (some value) true values) - k) value) =
          produced ++ values := by
  induction values with
  | nil =>
      intro k produced length total
      have ended : k = count := total
      refine ⟨(List.append_nil produced).symm, fun value last => ?_⟩
      simp [collapse, expand, nextIndex, ended]
  | cons value values inductionHypothesis =>
      intro k produced length total
      rw [List.length_cons] at total
      have after : (produced ++ [value]).length = k + 1 := by
        rw [List.length_append, length, List.length_singleton]
      have lastAfter : (produced ++ [value]).getLast? = some value := List.getLast?_concat
      have regroup : produced ++ [value] ++ values = produced ++ value :: values := by
        rw [List.append_assoc, List.singleton_append]
      rcases inductionHypothesis (k + 1) (produced ++ [value]) after (by omega) with ⟨unmarked, marked⟩
      rw [lastAfter, regroup] at unmarked
      rcases marked value lastAfter with ⟨beyond, expanded⟩
      -- the mark of a longer run covers the value at hand as well
      have grown : produced ++ List.replicate (nextIndex indexOf count
          (collapse label (k + 1) (some value) true values) - k) value =
        produced ++ [value] ++ List.replicate (nextIndex indexOf count
          (collapse label (k + 1) (some value) true values) - (k + 1)) value := by
        rw [List.append_assoc, List.singleton_append, ← List.replicate_succ]
        congr 2
        omega
      rw [regroup, ← grown] at expanded
      constructor
      · rw [collapse]
        by_cases same : produced.getLast? = some value
        · rw [if_pos same, if_neg Bool.false_ne_true, expand, same, Option.map_some, Option.getD_some,
            length]
          exact expanded
        · rw [if_neg same, expand]
          exact unmarked
      · intro previous last
        rw [collapse]
        by_cases same : some previous = some value
        · have equal : previous = value := Option.some.inj same
          subst previous
          rw [if_pos rfl, if_pos rfl]
          exact ⟨by omega, expanded⟩
        · have here : indexOf (label k) = k := distinct k (by omega)
          rw [if_neg same, nextIndex, here, Nat.sub_self, List.replicate_zero, List.append_nil, expand]
          exact ⟨Nat.le_refl k, unmarked⟩

/-- A listing gives back the values. -/
theorem expand_collapse {values : List Value} (total : values.length = count) :
    expand indexOf count (collapse label 0 none false values) [] = values := by
  have start := (expand_collapse_from distinct values 0 [] rfl (by omega)).1
  rw [List.getLast?_nil, List.nil_append] at start
  exact start

theorem spaced_collapse_from (values : List Value) :
    forall (k last : Nat) (previous : Value) (marked : Bool), last < k -> k + values.length = count ->
      (marked = true <-> k ≠ last + 1) ->
      Spaced indexOf count last marked (collapse label k (some previous) marked values) := by
  induction values with
  | nil =>
      intro k last previous marked _before total meaning
      have ended : k = count := total
      rw [collapse, Spaced, ← ended]
      exact meaning
  | cons value values inductionHypothesis =>
      intro k last previous marked before total meaning
      rw [List.length_cons] at total
      rw [collapse]
      by_cases same : some previous = some value
      · rw [if_pos same]
        have later := inductionHypothesis (k + 1) last value true (by omega) (by omega)
          (iff_of_true rfl (by omega))
        cases marked with
        | true => exact later
        | false => exact ⟨rfl, later⟩
      · have here : indexOf (label k) = k := distinct k (by omega)
        rw [if_neg same, Spaced, here]
        exact ⟨meaning, inductionHypothesis (k + 1) k value false (by omega) (by omega)
          (iff_of_false Bool.false_ne_true (by omega))⟩

/-- The first value is shown, and marks stand exactly between shown values
that are not adjacent. -/
theorem spaced_collapse {value : Value} {values : List Value} (total : (value :: values).length = count) :
    Exists fun rest => collapse label 0 none false (value :: values) = .shown (label 0) value :: rest /\
      Spaced indexOf count 0 false rest := by
  rw [List.length_cons] at total
  have distinctValues : (none : Option Value) ≠ some value := (Option.some_ne_none value).symm
  refine ⟨collapse label 1 (some value) false values, ?_, ?_⟩
  · rw [collapse, if_neg distinctValues]
  · exact spaced_collapse_from distinct values 1 0 value false (by omega) (by omega)
      (iff_of_false Bool.false_ne_true (by omega))

end Inverse

end RunCollapse
end KernelStudy
