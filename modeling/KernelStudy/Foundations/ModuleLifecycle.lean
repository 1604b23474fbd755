import KernelStudy.Foundations.LabelledRun

namespace KernelStudy
namespace ModuleLifecycle

open LabelledRun

/-!
# Loading and unloading under failures

A loadable module acquires resources in its init function and releases them
in its exit function.  The calls that the init function makes may fail, so an
attempt to load depends on their outcomes.  The exit function runs only after
an attempt that returned 0.

Held resources are listed with their multiplicity: what an earlier attempt has
leaked stays in the list, and a later attempt works on top of it.  The contract
of one operation speaks about this list up to the order of its entries.  A
condition on the outcomes that is exactly what one attempt needs is exactly
what a whole run of loads and unloads needs.
-/

universe u v w

/-- What an attempt to load leaves.  No return value means that the init
function died. -/
structure Attempt (Resource : Type u) (Vars : Type v) where
  ret : Option Int32
  vars : Vars
  held : List Resource

/-- The resources that make up a complete device, each listed once, and the
two functions.  The exit function is given by the resources that it releases,
in its order. -/
structure LoadableModule (Resource : Type u) (Vars : Type v) (Calls : Type w) where
  resources : List Resource
  nodup : resources.Nodup
  init : Calls -> List Resource -> Attempt Resource Vars
  exit : Vars -> List Resource

/-- The held resources, and the variables of a loaded module.  After its init
function died, the module can be neither loaded nor unloaded. -/
structure State (Resource : Type u) (Vars : Type v) where
  held : List Resource
  loaded : Option Vars
  dead : Bool

/-- Before the first attempt. -/
def start {Resource : Type u} {Vars : Type v} (held : List Resource) : State Resource Vars :=
  ⟨held, none, false⟩

inductive Operation (Calls : Type w) where
  | load (calls : Calls)
  | unload

section Module

variable {Resource : Type u} {Vars : Type v} {Calls : Type w}

variable (module_ : LoadableModule Resource Vars Calls)

/-- The contract of an attempt to load: it returns, it returns 0 iff the whole
device has been added to what was held, and after an error exactly what was
held before is held. -/
structure LoadContract (calls : Calls) (held : List Resource) : Prop where
  returns : (module_.init calls held).ret.isSome = true
  success_iff : (module_.init calls held).ret = some 0 <->
    (module_.init calls held).held.Perm (module_.resources ++ held)
  error_keeps : forall ret, (module_.init calls held).ret = some ret -> ret ≠ 0 ->
    (module_.init calls held).held.Perm held

section Attempt

variable {module_} {calls : Calls} {held : List Resource} {ret : Int32}

/-- An error that keeps what was held meets the contract. -/
theorem loadContract_of_error (nonempty : module_.resources ≠ [])
    (returned : (module_.init calls held).ret = some ret) (error : ret ≠ 0)
    (kept : (module_.init calls held).held = held) : LoadContract module_ calls held := by
  refine ⟨by rw [returned]; rfl, ⟨?_, ?_⟩, ?_⟩
  · rw [returned]
    intro success
    exact absurd (Option.some.inj success) error
  · rw [kept]
    intro complete
    have count := complete.length_eq
    rw [List.length_append] at count
    exact absurd (List.length_eq_zero_iff.mp (by omega)) nonempty
  · rw [kept]
    intro _ _ _
    exact List.Perm.refl held

/-- A success with the whole device meets the contract. -/
theorem loadContract_of_success (returned : (module_.init calls held).ret = some 0)
    (complete : (module_.init calls held).held = module_.resources ++ held) :
    LoadContract module_ calls held := by
  refine ⟨by rw [returned]; rfl, ?_, ?_⟩
  · rw [returned, complete]
    exact ⟨fun _ => List.Perm.refl _, fun _ => rfl⟩
  · rw [returned]
    intro ret same error
    exact absurd (Option.some.inj same).symm error

/-- An error that leaks a resource breaks the contract. -/
theorem not_loadContract_of_leak {leaked : Resource}
    (returned : (module_.init calls held).ret = some ret) (error : ret ≠ 0)
    (grown : (module_.init calls held).held = leaked :: held) :
    Not (LoadContract module_ calls held) := by
  intro contract
  have kept := contract.error_keeps ret returned error
  rw [grown] at kept
  have count := kept.length_eq
  rw [List.length_cons] at count
  omega

/-- A success without the device breaks the contract. -/
theorem not_loadContract_of_absent (nonempty : module_.resources ≠ [])
    (returned : (module_.init calls held).ret = some 0)
    (kept : (module_.init calls held).held = held) : Not (LoadContract module_ calls held) := by
  intro contract
  have complete := contract.success_iff.mp returned
  rw [kept] at complete
  have count := complete.length_eq
  rw [List.length_append] at count
  exact nonempty (List.length_eq_zero_iff.mp (by omega))

/-- An init function that dies breaks the contract. -/
theorem not_loadContract_of_death (died : (module_.init calls held).ret = none) :
    Not (LoadContract module_ calls held) := by
  intro contract
  have returns := contract.returns
  rw [died] at returns
  cases returns

/-- A call whose code is returned when it is not 0, and after it an allocation
without which the attempt breaks the contract: the attempt needs exactly that
the allocation succeeds whenever it is reached. -/
theorem loadContract_iff_of_unchecked (nonempty : module_.resources ≠ []) {code : Int32}
    {allocated : Prop}
    (refused : code ≠ 0 -> (module_.init calls held).ret = some code /\
      (module_.init calls held).held = held)
    (broken : code = 0 -> Not allocated -> Not (LoadContract module_ calls held))
    (complete : code = 0 -> allocated -> (module_.init calls held).ret = some 0 /\
      (module_.init calls held).held = module_.resources ++ held) :
    LoadContract module_ calls held <-> (code = 0 -> allocated) := by
  by_cases accepted : code = 0
  · by_cases there : allocated
    · rcases complete accepted there with ⟨returned, held_⟩
      exact ⟨fun _ _ => there, fun _ => loadContract_of_success returned held_⟩
    · exact ⟨fun contract => absurd contract (broken accepted there),
        fun wanted => absurd (wanted accepted) there⟩
  · rcases refused accepted with ⟨returned, kept⟩
    exact ⟨fun _ zero => absurd zero accepted,
      fun _ => loadContract_of_error nonempty returned accepted kept⟩

end Attempt

variable [DecidableEq Resource]

/-- Release some resources one after the other. -/
def releaseAll (held releases : List Resource) : List Resource :=
  releases.foldl List.erase held

/-- Releasing what is held leaves the rest. -/
theorem releaseAll_perm {held releases rest : List Resource}
    (owned : held.Perm (releases ++ rest)) : (releaseAll held releases).Perm rest := by
  induction releases generalizing held with
  | nil => exact owned
  | cons resource releases inductionHypothesis =>
      have erased := owned.erase resource
      rw [List.cons_append, List.erase_cons_head] at erased
      exact inductionHypothesis erased

def step (state : State Resource Vars) : Operation Calls -> Option (State Resource Vars)
  | .load calls =>
      if state.loaded.isNone = true /\ state.dead = false then
        let attempt := module_.init calls state.held
        some ⟨attempt.held, if attempt.ret = some 0 then some attempt.vars else none,
          attempt.ret.isNone⟩
      else none
  | .unload => state.loaded.map fun vars => ⟨releaseAll state.held (module_.exit vars), none, false⟩

/-- The contract of an unload: every resource is released exactly once, each
was held, and everything else is kept. -/
structure UnloadContract (vars : Vars) (held : List Resource) : Prop where
  once : (module_.exit vars).Perm module_.resources
  owned : held.Perm (module_.resources ++ releaseAll held (module_.exit vars))

/-- The operation keeps its contract in the state where it is made. -/
def Keeps (state : State Resource Vars) : Operation Calls -> Prop
  | .load calls => LoadContract module_ calls state.held
  | .unload => forall vars, state.loaded = some vars -> UnloadContract module_ vars state.held

/-- A condition on the outcomes of the calls of each attempt. -/
def CallsMeet (condition : Calls -> Prop) (_state : State Resource Vars) : Operation Calls -> Prop
  | .load calls => condition calls
  | .unload => True

/-- A loaded module holds its whole device, and its variables say so. -/
def Sound (ready : Vars -> Prop) (state : State Resource Vars) : Prop :=
  forall vars, state.loaded = some vars -> ready vars /\
    Exists fun rest => state.held.Perm (module_.resources ++ rest)

section Rule

variable {module_} {condition : Calls -> Prop} {ready : Vars -> Prop}

/-- What an operation does to a sound state when it keeps its contract. -/
theorem Sound.step
    (readies : forall calls held, (module_.init calls held).ret = some 0 -> condition calls ->
      ready (module_.init calls held).vars)
    (each : forall calls held, LoadContract module_ calls held <-> condition calls)
    (state : State Resource Vars) (operation : Operation Calls) (next : State Resource Vars)
    (_sound : Sound module_ ready state) (met : CallsMeet condition state operation)
    (taken : step module_ state operation = some next) : Sound module_ ready next := by
  cases operation with
  | load calls =>
      simp only [ModuleLifecycle.step, Option.ite_none_right_eq_some, Option.some.injEq] at taken
      rcases taken with ⟨_, same⟩
      subst next
      intro vars loaded
      simp only [Option.ite_none_right_eq_some, Option.some.injEq] at loaded
      rcases loaded with ⟨success, same⟩
      subst vars
      have contract := (each calls state.held).mpr met
      exact ⟨readies calls state.held success met, state.held, contract.success_iff.mp success⟩
  | unload =>
      simp only [ModuleLifecycle.step, Option.map_eq_some_iff] at taken
      rcases taken with ⟨_, _, same⟩
      subst next
      exact nofun

/-- An exit function that releases its whole device keeps the contract in
every state that holds the device. -/
theorem unloadContract_of_perm {vars : Vars} {held rest : List Resource}
    (once : (module_.exit vars).Perm module_.resources)
    (owned : held.Perm (module_.resources ++ rest)) : UnloadContract module_ vars held := by
  have before : held.Perm (module_.exit vars ++ rest) := owned.trans (once.symm.append_right rest)
  exact ⟨once, owned.trans ((releaseAll_perm before).symm.append_left module_.resources)⟩

/-- If a condition on the outcomes is exactly what each attempt to load needs,
and the exit function of a ready module releases the whole device, then the
condition is exactly what a run of loads and unloads needs. -/
theorem keeps_iff_callsMeet (ready : Vars -> Prop)
    (each : forall calls held, LoadContract module_ calls held <-> condition calls)
    (readies : forall calls held, (module_.init calls held).ret = some 0 -> condition calls ->
      ready (module_.init calls held).vars)
    (exits : forall vars, ready vars -> (module_.exit vars).Perm module_.resources)
    (held : List Resource) (operations : List (Operation Calls)) :
    RunMeets (step module_) (Keeps module_) (start held) operations <->
      RunMeets (step module_) (CallsMeet condition) (start held) operations := by
  apply runMeets_congr (step module_) (Sound.step readies each) _ operations
  · intro vars loaded
    cases loaded
  · intro state operation next sound taken
    cases operation with
    | load calls => exact each calls state.held
    | unload =>
        refine ⟨fun _ => trivial, fun _ vars loaded => ?_⟩
        rcases sound vars loaded with ⟨isReady, rest, owned⟩
        exact unloadContract_of_perm (exits vars isReady) owned

/-- A condition on the outcomes of the calls of each attempt, and no unload. -/
def LoadsMeet (condition : Calls -> Prop) (_state : State Resource Vars) : Operation Calls -> Prop
  | .load calls => condition calls
  | .unload => False

/-- The exit function would not give back the device of the loaded module. -/
def Stale (module_ : LoadableModule Resource Vars Calls) (state : State Resource Vars) : Prop :=
  forall vars, state.loaded = some vars -> Not ((module_.exit vars).Perm module_.resources)

theorem Stale.step
    (leaks : forall calls held, (module_.init calls held).ret = some 0 ->
      Not ((module_.exit (module_.init calls held).vars).Perm module_.resources))
    (state : State Resource Vars) (operation : Operation Calls) (next : State Resource Vars)
    (_stale : Stale module_ state) (_met : LoadsMeet condition state operation)
    (taken : ModuleLifecycle.step module_ state operation = some next) : Stale module_ next := by
  cases operation with
  | load calls =>
      simp only [ModuleLifecycle.step, Option.ite_none_right_eq_some, Option.some.injEq] at taken
      rcases taken with ⟨_, same⟩
      subst next
      intro vars loaded
      simp only [Option.ite_none_right_eq_some, Option.some.injEq] at loaded
      rcases loaded with ⟨success, same⟩
      exact same ▸ leaks calls state.held success
  | unload =>
      simp only [ModuleLifecycle.step, Option.map_eq_some_iff] at taken
      rcases taken with ⟨_, _, same⟩
      subst next
      intro vars loaded
      cases loaded

/-- When no successful init function leaves a device that the exit function gives back
as a whole, a run keeps the contract exactly when its attempts meet the condition and
nothing is unloaded. -/
theorem keeps_iff_loadsMeet
    (each : forall calls held, LoadContract module_ calls held <-> condition calls)
    (leaks : forall calls held, (module_.init calls held).ret = some 0 ->
      Not ((module_.exit (module_.init calls held).vars).Perm module_.resources))
    (held : List Resource) (operations : List (Operation Calls)) :
    RunMeets (step module_) (Keeps module_) (start held) operations <->
      RunMeets (step module_) (LoadsMeet condition) (start held) operations := by
  apply runMeets_congr (step module_) (Stale.step leaks) _ operations
  · intro vars loaded
    cases loaded
  · intro state operation next stale taken
    cases operation with
    | load calls => exact each calls state.held
    | unload =>
        simp only [ModuleLifecycle.step, Option.map_eq_some_iff] at taken
        rcases taken with ⟨vars, loaded, _⟩
        exact ⟨fun kept => stale vars loaded (kept vars loaded).once, fun impossible => impossible.elim⟩

/-- A module whose attempts all keep the contract keeps it in every run. -/
theorem keeps_always (each : forall calls held, LoadContract module_ calls held)
    (exits : forall vars, (module_.exit vars).Perm module_.resources)
    (held : List Resource) (operations : List (Operation Calls)) :
    RunMeets (step module_) (Keeps module_) (start held) operations := by
  have unconditional : forall state : State Resource Vars,
      RunMeets (step module_) (CallsMeet fun _ => True) state operations := by
    induction operations with
    | nil => exact fun _ => trivial
    | cons operation operations inductionHypothesis =>
        intro state next _taken
        refine ⟨?_, inductionHypothesis next⟩
        cases operation <;> trivial
  exact (keeps_iff_callsMeet (fun _ => True) (fun calls held => iff_of_true (each calls held) trivial)
    (fun _ _ _ _ => trivial) (fun vars _ => exits vars) held operations).mpr (unconditional (start held))

end Rule

end Module

end ModuleLifecycle
end KernelStudy
