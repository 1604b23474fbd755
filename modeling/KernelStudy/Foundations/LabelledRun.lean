import Mathlib

namespace KernelStudy
namespace LabelledRun

/-!
# Finite runs of a labelled step function

A system is a partial step function: a label is one atomic action of any
party, and `none` says that the action is not enabled in that state.  An
interleaving of several parties is a list of labels, so a statement about
every list of labels is a statement about every schedule.

`RunMeets` restricts a run by a condition on the state before each step and
on the label taken there.  `AlongRun` says that a state predicate holds in
every state of a run, its first and last states included.  The two are
connected by the rules below: a condition that each step needs to preserve a
predicate is exactly what a whole run needs.
-/

universe u v w

variable {State : Type u} {Label : Type v} (step : State -> Label -> Option State)

/-- Take the labelled steps in order. -/
def run : State -> List Label -> Option State
  | state, [] => some state
  | state, label :: labels => (step state label).bind (fun next => run next labels)

/-- Every step that the run takes is taken from a state that meets the
condition.  A label that is not enabled ends the run. -/
def RunMeets (condition : State -> Label -> Prop) : State -> List Label -> Prop
  | _, [] => True
  | state, label :: labels => forall next, step state label = some next ->
      condition state label /\ RunMeets condition next labels

/-- The predicate holds in every state of the run. -/
def AlongRun (good : State -> Prop) : State -> List Label -> Prop
  | state, [] => good state
  | state, label :: labels => good state /\
      forall next, step state label = some next -> AlongRun good next labels

/-- A step function given by when a label is enabled and what it does. -/
def guarded (enabled : State -> Label -> Prop) [forall state label, Decidable (enabled state label)]
    (effect : State -> Label -> State) (state : State) (label : Label) : Option State :=
  if enabled state label then some (effect state label) else none

/-- What a taken step says, for every guarded step function. -/
theorem guarded_eq_some {enabled : State -> Label -> Prop}
    [forall state label, Decidable (enabled state label)] {effect : State -> Label -> State}
    {state next : State} {label : Label} :
    guarded enabled effect state label = some next <->
      enabled state label /\ effect state label = next := by
  unfold guarded
  rw [Option.ite_none_right_eq_some, Option.some.injEq]

/-- Both predicates on runs can be evaluated when their parts can. -/
instance RunMeets.decidable (condition : State -> Label -> Prop)
    [forall state label, Decidable (condition state label)] :
    (state : State) -> (labels : List Label) -> Decidable (RunMeets step condition state labels)
  | _, [] => isTrue trivial
  | state, label :: labels =>
      match taken : step state label with
      | none => isTrue fun _ other => nomatch taken.symm.trans other
      | some next =>
          have : Decidable (RunMeets step condition next labels) :=
            RunMeets.decidable condition next labels
          decidable_of_iff (condition state label /\ RunMeets step condition next labels)
            ⟨fun both _ other => Option.some.inj (taken.symm.trans other) ▸ both,
              fun every => every next taken⟩

@[inherit_doc RunMeets.decidable]
instance AlongRun.decidable (good : State -> Prop) [forall state, Decidable (good state)] :
    (state : State) -> (labels : List Label) -> Decidable (AlongRun step good state labels)
  | state, [] => inferInstanceAs (Decidable (good state))
  | state, label :: labels =>
      match taken : step state label with
      | none => decidable_of_iff (good state)
          ⟨fun holds => ⟨holds, fun _ other => nomatch taken.symm.trans other⟩, fun along => along.1⟩
      | some next =>
          have : Decidable (AlongRun step good next labels) :=
            AlongRun.decidable good next labels
          decidable_of_iff (good state /\ AlongRun step good next labels)
            ⟨fun both => ⟨both.1, fun _ other => Option.some.inj (taken.symm.trans other) ▸ both.2⟩,
              fun along => ⟨along.1, along.2 next taken⟩⟩

/-- A completed nonempty run is a first step and a completed rest. -/
theorem run_cons {state final : State} {label : Label} {labels : List Label} :
    run step state (label :: labels) = some final <->
      Exists fun next => step state label = some next /\ run step next labels = some final := by
  simp only [run, Option.bind_eq_some_iff]

/-- An inductive invariant holds at the end of every run. -/
theorem invariant_of_run (Invariant : State -> Prop)
    (preserved : forall state label next, Invariant state ->
      step state label = some next -> Invariant next)
    {state final : State} {labels : List Label} (holds : Invariant state)
    (completed : run step state labels = some final) : Invariant final := by
  induction labels generalizing state with
  | nil =>
      have same : state = final := Option.some.inj completed
      exact same ▸ holds
  | cons label labels inductionHypothesis =>
      rcases (run_cons step).mp completed with ⟨next, taken, rest⟩
      exact inductionHypothesis (preserved state label next holds taken) rest

/-- A functional simulation.  Where each step commutes with the abstraction,
so does every run. -/
theorem run_map {Abstract : Type w} (abstractStep : Abstract -> Label -> Option Abstract)
    (abstraction : State -> Abstract) (Invariant : State -> Prop)
    (simulates : forall state label, Invariant state ->
      (step state label).map abstraction = abstractStep (abstraction state) label)
    (preserved : forall state label next, Invariant state ->
      step state label = some next -> Invariant next)
    {state : State} (holds : Invariant state) (labels : List Label) :
    (run step state labels).map abstraction = run abstractStep (abstraction state) labels := by
  induction labels generalizing state with
  | nil => rfl
  | cons label labels inductionHypothesis =>
      rw [run, run, ← simulates state label holds]
      cases taken : step state label with
      | none => rfl
      | some next =>
          rw [Option.bind_some, Option.map_some, Option.bind_some]
          exact inductionHypothesis (preserved state label next holds taken)

/-- Two step functions that agree on the labels have the same run. -/
theorem run_congr {other : State -> Label -> Option State} {labels : List Label}
    (agree : forall label, label ∈ labels -> forall state, step state label = other state label)
    (state : State) : run step state labels = run other state labels := by
  induction labels generalizing state with
  | nil => rfl
  | cons label labels inductionHypothesis =>
      rw [run, run, agree label List.mem_cons_self]
      congr 1
      funext next
      exact inductionHypothesis (fun later member => agree later (List.mem_cons_of_mem _ member)) next

/-- A run is a run of its first labels and a run of the others. -/
theorem run_append (state : State) (first second : List Label) :
    run step state (first ++ second) =
      (run step state first).bind fun next => run step next second := by
  induction first generalizing state with
  | nil => rfl
  | cons label labels inductionHypothesis =>
      rw [List.cons_append, run, run, Option.bind_assoc]
      congr 1
      funext next
      exact inductionHypothesis next

/-- Every label of a completed run was taken in the state that the labels
before it lead to. -/
theorem run_upto {state final : State} {earlier later : List Label} {label : Label}
    (completed : run step state (earlier ++ label :: later) = some final) :
    Exists fun before => run step state earlier = some before /\
      Exists fun after => step before label = some after := by
  rw [run_append, Option.bind_eq_some_iff] at completed
  rcases completed with ⟨before, reached, rest⟩
  rcases (run_cons step).mp rest with ⟨after, taken, _⟩
  exact ⟨before, reached, after, taken⟩

/-- An invariant that also speaks about the labels taken so far. -/
theorem history_of_run (History : List Label -> State -> Prop) {start : State}
    (begun : History [] start)
    (extended : forall labels state label next, History labels state ->
      step state label = some next -> History (labels ++ [label]) next)
    {labels : List Label} {final : State} (completed : run step start labels = some final) :
    History labels final := by
  induction labels using List.reverseRecOn generalizing final with
  | nil =>
      have same : start = final := Option.some.inj completed
      exact same ▸ begun
  | append_singleton labels label inductionHypothesis =>
      rw [run_append, Option.bind_eq_some_iff] at completed
      rcases completed with ⟨before, reached, last⟩
      rcases (run_cons step).mp last with ⟨after, taken, ended⟩
      have same : after = final := Option.some.inj ended
      exact same ▸ extended labels before label after (inductionHypothesis reached) taken

/-! ## One label again and again -/

/-- Some number of steps with one label leads to the final state. -/
def Repeats (label : Label) (state final : State) : Prop :=
  Exists fun count => run step state (List.replicate count label) = some final

theorem Repeats.refl (label : Label) (state : State) : Repeats step label state state :=
  ⟨0, rfl⟩

section Repeats

variable {step} {label : Label} {state next final : State}

theorem Repeats.head (taken : step state label = some next) (rest : Repeats step label next final) :
    Repeats step label state final := by
  rcases rest with ⟨count, reached⟩
  exact ⟨count + 1, (run_cons step).mpr ⟨next, taken, reached⟩⟩

theorem Repeats.trans (first : Repeats step label state next) (rest : Repeats step label next final) :
    Repeats step label state final := by
  rcases first with ⟨firstCount, reached⟩
  rcases rest with ⟨count, completed⟩
  refine ⟨firstCount + count, ?_⟩
  rw [List.replicate_add, run_append, reached]
  exact completed

end Repeats

/-! ## Predicates along a run -/

theorem AlongRun.here {good : State -> Prop} {state : State} {labels : List Label}
    (along : AlongRun step good state labels) : good state := by
  cases labels with
  | nil => exact along
  | cons _ _ => exact along.1

theorem AlongRun.final {good : State -> Prop} {state final : State} {labels : List Label}
    (along : AlongRun step good state labels) (completed : run step state labels = some final) :
    good final := by
  induction labels generalizing state with
  | nil =>
      have same : state = final := Option.some.inj completed
      exact same ▸ along
  | cons label labels inductionHypothesis =>
      rcases (run_cons step).mp completed with ⟨next, taken, rest⟩
      exact inductionHypothesis (along.2 next taken) rest

theorem AlongRun.congr {other : State -> Label -> Option State} {good : State -> Prop} {state : State}
    {labels : List Label}
    (agree : forall label, label ∈ labels -> forall state, step state label = other state label)
    (along : AlongRun step good state labels) : AlongRun other good state labels := by
  induction labels generalizing state with
  | nil => exact along
  | cons label labels inductionHypothesis =>
      refine ⟨along.1, fun next taken => ?_⟩
      rw [← agree label List.mem_cons_self] at taken
      exact inductionHypothesis (fun later member => agree later (List.mem_cons_of_mem _ member))
        (along.2 next taken)

/-- An invariant that is kept between states that are all good. -/
theorem AlongRun.invariant {good Invariant : State -> Prop} {state final : State} {labels : List Label}
    (along : AlongRun step good state labels)
    (preserved : forall state label next, Invariant state -> good next ->
      step state label = some next -> Invariant next)
    (holds : Invariant state) (completed : run step state labels = some final) : Invariant final := by
  induction labels generalizing state with
  | nil =>
      have same : state = final := Option.some.inj completed
      exact same ▸ holds
  | cons label labels inductionHypothesis =>
      rcases (run_cons step).mp completed with ⟨next, taken, rest⟩
      have onward := along.2 next taken
      exact inductionHypothesis onward (preserved state label next holds (onward.here step) taken) rest

/-- A condition on the labels alone holds of all labels of a run that is possible. -/
theorem runMeets_iff_forall {condition : State -> Label -> Prop} {plain : Label -> Prop}
    (same : forall state label, condition state label <-> plain label) {state final : State}
    {labels : List Label}
    (completed : run step state labels = some final) :
    RunMeets step condition state labels <-> forall label, label ∈ labels -> plain label := by
  induction labels generalizing state with
  | nil => exact ⟨fun _ => List.forall_mem_nil _, fun _ => trivial⟩
  | cons label labels inductionHypothesis =>
      rcases (run_cons step).mp completed with ⟨next, taken, rest⟩
      rw [List.forall_mem_cons, ← same state label, ← inductionHypothesis rest]
      constructor
      · exact fun meets => meets next taken
      · intro both other otherTaken
        cases taken.symm.trans otherTaken
        exact both

/-! ## Invariants kept under a condition

The rules of this section share one assumption: every step that meets the
condition keeps the invariant. -/

section Conditioned

variable {Invariant Marked good settled : State -> Prop} {condition : State -> Label -> Prop}

variable (preserved : forall state label next, Invariant state -> condition state label ->
  step state label = some next -> Invariant next)

include preserved

/-- A predicate that the invariant implies holds in every state of a run that
meets the condition. -/
theorem alongRun_of_meets (implies : forall state, Invariant state -> good state)
    {state : State} {labels : List Label} (holds : Invariant state)
    (meets : RunMeets step condition state labels) : AlongRun step good state labels := by
  induction labels generalizing state with
  | nil => exact implies state holds
  | cons label labels inductionHypothesis =>
      refine ⟨implies state holds, fun next taken => ?_⟩
      have met := meets next taken
      exact inductionHypothesis (preserved state label next holds met.1 taken) met.2

/-- What the invariant and the condition give for one step, a run that meets
the condition meets as well. -/
theorem runMeets_of_meets {other : State -> Label -> Prop}
    (implies : forall state label next, Invariant state -> condition state label ->
      step state label = some next -> other state label)
    {state : State} {labels : List Label} (holds : Invariant state)
    (meets : RunMeets step condition state labels) : RunMeets step other state labels := by
  induction labels generalizing state with
  | nil => trivial
  | cons label labels inductionHypothesis =>
      intro next taken
      have met := meets next taken
      exact ⟨implies state label next holds met.1 taken,
        inductionHypothesis (preserved state label next holds met.1 taken) met.2⟩

/-- A step outside the condition leaves a mark that no later step removes.
A run that ends without the mark has met the condition throughout. -/
theorem runMeets_of_unmarked
    (marks : forall state label next, Invariant state -> ¬ condition state label ->
      step state label = some next -> Marked next)
    (stays : forall state label next, Marked state -> step state label = some next -> Marked next)
    {state final : State} {labels : List Label} (holds : Invariant state)
    (completed : run step state labels = some final) (unmarked : ¬ Marked final) :
    RunMeets step condition state labels := by
  induction labels generalizing state with
  | nil => trivial
  | cons label labels inductionHypothesis =>
      rcases (run_cons step).mp completed with ⟨next, taken, rest⟩
      have met : condition state label := by
        by_contra missed
        exact unmarked (invariant_of_run step Marked stays (marks state label next holds missed taken) rest)
      intro other otherTaken
      have same : next = other := Option.some.inj (taken.symm.trans otherTaken)
      subst other
      exact ⟨met, inductionHypothesis (preserved state label next holds met taken) rest⟩

/-- A condition is enough for a predicate along every run.  When a settled
state shows the mark of a missed condition, the condition is also necessary
for the runs that end settled. -/
theorem alongRun_iff_of_settled (implies : forall state, Invariant state -> good state)
    (marks : forall state label next, Invariant state -> ¬ condition state label ->
      step state label = some next -> Marked next)
    (stays : forall state label next, Marked state -> step state label = some next -> Marked next)
    (shows : forall state, Marked state -> settled state -> ¬ good state)
    {state : State} (labels : List Label) (holds : Invariant state) :
    (RunMeets step condition state labels -> AlongRun step good state labels) /\
      forall final, run step state labels = some final -> settled final ->
        AlongRun step good state labels -> RunMeets step condition state labels := by
  constructor
  · exact alongRun_of_meets step preserved implies holds
  · intro final completed ended along
    have unmarked : ¬ Marked final := fun marked =>
      shows final marked ended (AlongRun.final step along completed)
    exact runMeets_of_unmarked step preserved marks stays holds completed unmarked

/-- When a step outside the condition breaks the predicate at once, the
condition is also necessary, for every run. -/
theorem alongRun_iff_of_breaks (implies : forall state, Invariant state -> good state)
    (breaks : forall state label next, Invariant state -> ¬ condition state label ->
      step state label = some next -> ¬ good next)
    {state : State} (labels : List Label) (holds : Invariant state) :
    AlongRun step good state labels <-> RunMeets step condition state labels := by
  refine ⟨fun along => ?_, alongRun_of_meets step preserved implies holds⟩
  induction labels generalizing state with
  | nil => trivial
  | cons label labels inductionHypothesis =>
      intro next taken
      have nextGood := AlongRun.here step (along.2 next taken)
      have met : condition state label := by
        by_contra missed
        exact breaks state label next holds missed taken nextGood
      exact ⟨met, inductionHypothesis (preserved state label next holds met taken) (along.2 next taken)⟩

/-- A second condition that agrees with the first on every step taken inside
the invariant is met by the same runs. -/
theorem runMeets_congr {other : State -> Label -> Prop}
    (agree : forall state label next, Invariant state -> step state label = some next ->
      (other state label <-> condition state label))
    {state : State} (labels : List Label) (holds : Invariant state) :
    RunMeets step other state labels <-> RunMeets step condition state labels := by
  induction labels generalizing state with
  | nil => exact Iff.rfl
  | cons label labels inductionHypothesis =>
      constructor
      · intro meets next taken
        have met := (agree state label next holds taken).mp (meets next taken).1
        exact ⟨met, (inductionHypothesis (preserved state label next holds met taken)).mp
          (meets next taken).2⟩
      · intro meets next taken
        have met := (meets next taken).1
        exact ⟨(agree state label next holds taken).mpr met,
          (inductionHypothesis (preserved state label next holds met taken)).mpr (meets next taken).2⟩

end Conditioned

/-- When a condition is exactly what one step needs to keep a predicate, it
is exactly what a run needs to keep it throughout. -/
theorem alongRun_iff_runMeets (good : State -> Prop) (condition : State -> Label -> Prop)
    (exact_ : forall state label next, good state -> step state label = some next ->
      (good next <-> condition state label))
    {state : State} (labels : List Label) (holds : good state) :
    AlongRun step good state labels <-> RunMeets step condition state labels :=
  alongRun_iff_of_breaks step
    (fun state label next here met taken => (exact_ state label next here taken).mpr met)
    (fun _ here => here)
    (fun state label next here missed taken nextGood =>
      missed ((exact_ state label next here taken).mp nextGood))
    labels holds

end LabelledRun
end KernelStudy
