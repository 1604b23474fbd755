import KernelStudy.Foundations.LabelledRun
import KernelStudy.Foundations.RingReader

namespace KernelStudy
namespace ModuleReference

open LabelledRun LinkedRing RingReader

/-!
# Dropping a reference by force

A module that someone holds cannot be unloaded.  `myrmmod` works around that:
when it is loaded it walks over the list of all modules and gives back a
reference of every module that has the name of its parameter, although it has
never taken one.

The kernel counts a module itself as one reference.  Taking a reference fails
when none is left, giving one back stops at zero, and `delete_module` unloads a
module whose only reference is its own; a module without any reference runs into
a `BUG_ON`.  Before it looks at the count it refuses a module that another one
depends on, that is not live, or that has no exit function.

A module that is being loaded is in the list already, is not live, and has one
reference more, until its init function has returned.  Init functions are taken
to succeed.
-/

/-- A module is named by the address of its list node. -/
abbrev Address := Nat

/-- `MODULES`, the head of the list. -/
def modulesHead : Address := 0xffffffff87cc0f50

/-- `LIST_POISON2`. -/
def poison2 : Address := 0xdead000000000122

/-- `dependents` is the length of the list of the modules that use symbols of this
one.  The other holders, and how often a reference was given back by force, are
not part of the kernel's data. -/
structure Module where
  name : String
  exits : Bool
  live : Bool
  refcnt : Nat
  dependents : Nat
  holders : Nat
  forced : Nat
deriving DecidableEq, Repr

/-- A module in its init function. -/
def Module.coming (name : String) (exits : Bool) : Module := ⟨name, exits, false, 2, 0, 0, 0⟩

/-- The references that someone has taken and not given back. -/
def Module.held (entry : Module) : Nat :=
  entry.holders + entry.dependents + (!entry.live).toNat

structure Modules where
  links : Links Address
  data : Address -> Module
  loaded : List Address
  crashed : Bool

def Modules.modify (modules : Modules) (address : Address) (change : Module -> Module) : Modules :=
  { modules with data := Function.update modules.data address (change (modules.data address)) }

/-! ## What the kernel does -/

/-- `module_put`: `atomic_dec_if_positive`. -/
def modulePut (entry : Module) : Module :=
  { entry with refcnt := entry.refcnt - 1 }

/-- `try_module_get` of a live module, and a holder more if it succeeds. -/
def tryModuleGet (entry : Module) : Module :=
  if entry.refcnt = 0 then entry
  else { entry with refcnt := entry.refcnt + 1, holders := entry.holders + 1 }

/-- `ref_module`, for a module that uses symbols of this one. -/
def refModule (entry : Module) : Module :=
  if entry.live = false \/ entry.refcnt = 0 then entry
  else { entry with refcnt := entry.refcnt + 1, dependents := entry.dependents + 1 }

/-- `do_init_module`, after the init function. -/
def initDone (entry : Module) : Module :=
  { modulePut entry with live := true }

inductive Outcome where
  | removed
  | wouldBlock
  | busy
  | bug
deriving DecidableEq, Repr

/-- `delete_module`, without a force flag.  The last two lines are
`try_release_module_ref`. -/
def deleteModule (entry : Module) : Outcome :=
  if entry.dependents ≠ 0 then .wouldBlock
  else if entry.live = false then .busy
  else if entry.exits = false then .busy
  else if entry.refcnt = 0 then .bug
  else if entry.refcnt - 1 = 0 then .removed else .wouldBlock

/-- `list_add(&mod->list, &modules)` for a module that is being loaded. -/
def addModule (modules : Modules) (address : Address) (entry : Module) : Modules :=
  { modules with
    links := linkTail modules.links (modules.links.next modulesHead) address
    data := Function.update modules.data address entry
    loaded := address :: modules.loaded }

/-! ## `myrmmod` -/

/-- A reference that `print_module_init` gives back. -/
def forcedPut (entry : Module) : Module :=
  { modulePut entry with forced := entry.forced + 1 }

/-- `list_for_each(pos, module_head)` in `print_module_init`. -/
def putMatches (name : String) : Nat -> Modules -> Address -> Option Modules
  | 0, modules, pos => if pos = modulesHead then some modules else none
  | fuel + 1, modules, pos =>
      if pos = modulesHead then some modules
      else
        let modules := if (modules.data pos).name = name then modules.modify pos forcedPut else modules
        putMatches name fuel modules (modules.links.next pos)

def printModuleInit (name : String) (fuel : Nat) (modules : Modules) : Option Modules :=
  putMatches name fuel modules (modules.links.next modulesHead)

/-- Loading `myrmmod` with a name as its parameter. -/
def insmodMyrmmod (modules : Modules) (address : Address) (name : String) : Option Modules :=
  let modules := addModule modules address (.coming "myrmmod" true)
  (printModuleInit name modules.loaded.length modules).map fun modules =>
    modules.modify address initDone

/-! ## Runs -/

/-- `uses` and `unuses` stand for the loading and the unloading of a module that
uses symbols of the given one. -/
inductive Label where
  | insmod (address : Address) (name : String) (exits : Bool)
  | initDone (address : Address)
  | insmodMyrmmod (address : Address) (name : String)
  | uses (address : Address)
  | unuses (address : Address)
  | get (address : Address)
  | put (address : Address)
  | rmmod (address : Address)
deriving DecidableEq, Repr

def Modules.rmmod (modules : Modules) (address : Address) : Modules :=
  match deleteModule (modules.data address) with
  | .removed => { modules with
      links := unlink poison2 modules.links address
      loaded := modules.loaded.erase address }
  | .wouldBlock | .busy => modules
  | .bug => { modules with crashed := true }

def moduleStep (modules : Modules) (label : Label) : Option Modules :=
  if modules.crashed then none
  else match label with
    | .insmod address name exits =>
        if address ∈ modulesHead :: modules.loaded then none
        else some (addModule modules address (.coming name exits))
    | .initDone address =>
        if address ∈ modules.loaded /\ (modules.data address).live = false then
          some (modules.modify address initDone)
        else none
    | .insmodMyrmmod address name =>
        if address ∈ modulesHead :: modules.loaded then none else insmodMyrmmod modules address name
    | .uses address =>
        if address ∈ modules.loaded then some (modules.modify address refModule) else none
    | .unuses address =>
        if address ∈ modules.loaded /\ 0 < (modules.data address).dependents then
          some (modules.modify address fun entry =>
            { modulePut entry with dependents := entry.dependents - 1 })
        else none
    | .get address =>
        if address ∈ modules.loaded then some (modules.modify address tryModuleGet) else none
    | .put address =>
        if address ∈ modules.loaded /\ 0 < (modules.data address).holders then
          some (modules.modify address fun entry =>
            { modulePut entry with holders := entry.holders - 1 })
        else none
    | .rmmod address => if address ∈ modules.loaded then some (modules.rmmod address) else none

/-- The count is what the references that are held and those that were given back
by force leave of it. -/
def Module.Exact (entry : Module) : Prop :=
  entry.refcnt = 1 + entry.held - entry.forced

/-- The list is a ring, and every count is exact. -/
structure Counted (modules : Modules) : Prop where
  ring : Ring modules.links modulesHead modules.loaded
  count : forall address, address ∈ modules.loaded -> (modules.data address).Exact

/-! ## The walk -/

section Walk

variable {modules : Modules} {name : String}

/-- Every module that is in the list with the name, and no other, loses one
reference. -/
def Modules.afterPuts (modules : Modules) (name : String) (among : List Address) : Modules :=
  { modules with data := fun address =>
      if address ∈ among /\ (modules.data address).name = name then forcedPut (modules.data address)
      else modules.data address }

theorem afterPuts_cons {pos : Address} {rest : List Address} (apart : pos ∉ rest) :
    (if (modules.data pos).name = name then modules.modify pos forcedPut else modules).afterPuts name rest =
      modules.afterPuts name (pos :: rest) := by
  simp only [Modules.afterPuts, Modules.mk.injEq]
  refine ⟨by split <;> rfl, ?_, by split <;> rfl, by split <;> rfl⟩
  funext address
  by_cases here : address = pos
  · subst here
    by_cases named : (modules.data address).name = name
    · simp only [Modules.modify, Function.update_self, apart, false_and, if_false,
        List.mem_cons_self, named, true_and, if_true]
    · simp only [named, and_false, if_false]
  · by_cases named : (modules.data pos).name = name
    · simp only [if_pos named, Modules.modify, Function.update_of_ne here, List.mem_cons, here, false_or]
    · simp only [if_neg named, List.mem_cons, here, false_or]

theorem putMatches_spec {place : Address} {way : List Address} {fuel : Nat}
    (leads : Leads modules.links.next place way modulesHead) (nodup : way.Nodup)
    (apart : modulesHead ∉ way) (enough : way.length ≤ fuel) :
    putMatches name fuel modules (modules.links.next place) = some (modules.afterPuts name way) := by
  induction way generalizing place modules fuel with
  | nil =>
      have back : modules.links.next place = modulesHead := leads
      have same : modules.afterPuts name [] = modules := by
        simp only [Modules.afterPuts, List.not_mem_nil, false_and, if_false]
      rw [same, back]
      cases fuel <;> exact if_pos rfl
  | cons pos rest inductionHypothesis =>
      have onward : modules.links.next place = pos := leads.1
      have notHead : pos ≠ modulesHead := fun same => apart (same ▸ List.mem_cons_self)
      have parts := List.nodup_cons.mp nodup
      cases fuel with
      | zero => exact absurd enough (Nat.not_succ_le_zero _)
      | succ fuel =>
          rw [onward, putMatches, if_neg notHead, ← afterPuts_cons parts.1]
          apply inductionHypothesis _ parts.2 (fun member => apart (List.mem_cons_of_mem _ member))
            (Nat.le_of_succ_le_succ enough)
          have links : (if (modules.data pos).name = name then modules.modify pos forcedPut
              else modules).links = modules.links := by split <;> rfl
          rw [links]
          exact leads.2

/-- The walk ends, and gives back one reference of each module with the name. -/
theorem printModuleInit_spec (modules : Modules) (name : String)
    (ring : Ring modules.links modulesHead modules.loaded) :
    printModuleInit name modules.loaded.length modules =
      some (modules.afterPuts name modules.loaded) := by
  have parts := List.nodup_cons.mp ring.nodup
  exact putMatches_spec (leads_of_path ring.path) parts.2 parts.1 (Nat.le_refl _)

end Walk

/-! ## Steps -/

section Steps

variable {modules next : Modules} {address : Address}

theorem addModule_ring (ring : Ring modules.links modulesHead modules.loaded)
    (fresh : address ∉ modulesHead :: modules.loaded) (entry : Module) :
    Ring (addModule modules address entry).links modulesHead (address :: modules.loaded) := by
  have following : modules.links.next modulesHead ∈ modules.loaded ++ [modulesHead] := ring.path.next_mem
  have back : modules.links.prev (modules.links.next modulesHead) = modulesHead := by
    have path := ring.path
    cases loaded : modules.loaded with
    | nil =>
        rw [loaded] at path
        rw [path.1, path.2]
    | cons first rest =>
        rw [loaded] at path
        rw [path.1.1, path.1.2]
  apply Linked.ring_front (linkTail_linked modules.links ?_ ?_) ring fresh
  · intro same
    apply fresh
    rcases List.mem_append.mp following with inside | last
    · exact same ▸ List.mem_cons_of_mem _ inside
    · exact (same.trans (List.mem_singleton.mp last)) ▸ List.mem_cons_self
  · rw [back]
    exact fun same => fresh (same ▸ List.mem_cons_self)

/-- What loading `myrmmod` does to the list. -/
theorem insmodMyrmmod_spec (ring : Ring modules.links modulesHead modules.loaded)
    (fresh : address ∉ modulesHead :: modules.loaded) (name : String) :
    insmodMyrmmod modules address name =
      some (((addModule modules address (.coming "myrmmod" true)).afterPuts name
        (address :: modules.loaded)).modify address initDone) := by
  have walked := printModuleInit_spec (addModule modules address (.coming "myrmmod" true)) name
    (addModule_ring ring fresh _)
  rw [insmodMyrmmod, walked]
  rfl

/-- A label gives back a reference of the modules with this name by force. -/
def Label.Forces (name : String) : Label -> Bool
  | .insmodMyrmmod _ parameter => parameter == name
  | .insmod _ _ _ | .initDone _ | .uses _ | .unuses _ | .get _ | .put _ | .rmmod _ => false

/-- The count of a module that is loaded stays exact. -/
structure Follows (before after : Module) (forced : Bool) : Prop where
  name : after.name = before.name
  forced_eq : after.forced = before.forced + forced.toNat
  count : before.Exact -> after.Exact

theorem follows_refl (entry : Module) : Follows entry entry false :=
  ⟨rfl, rfl, fun count => count⟩

theorem follows_forcedPut (entry : Module) : Follows entry (forcedPut entry) true := by
  refine ⟨rfl, rfl, fun count => ?_⟩
  simp only [Module.Exact, Module.held, forcedPut, modulePut] at count ⊢
  omega

theorem follows_tryModuleGet (entry : Module) : Follows entry (tryModuleGet entry) false := by
  by_cases spent : entry.refcnt = 0
  · rw [tryModuleGet, if_pos spent]
    exact follows_refl entry
  · rw [tryModuleGet, if_neg spent]
    refine ⟨rfl, rfl, fun count => ?_⟩
    simp only [Module.Exact, Module.held] at count ⊢
    omega

theorem follows_refModule (entry : Module) : Follows entry (refModule entry) false := by
  by_cases refused : entry.live = false \/ entry.refcnt = 0
  · rw [refModule, if_pos refused]
    exact follows_refl entry
  · rw [refModule, if_neg refused]
    refine ⟨rfl, rfl, fun count => ?_⟩
    simp only [Module.Exact, Module.held] at count ⊢
    omega

theorem follows_put (entry : Module) (held : 0 < entry.holders) :
    Follows entry { modulePut entry with holders := entry.holders - 1 } false := by
  refine ⟨rfl, rfl, fun count => ?_⟩
  simp only [Module.Exact, Module.held, modulePut] at count ⊢
  omega

theorem follows_unuse (entry : Module) (used : 0 < entry.dependents) :
    Follows entry { modulePut entry with dependents := entry.dependents - 1 } false := by
  refine ⟨rfl, rfl, fun count => ?_⟩
  simp only [Module.Exact, Module.held, modulePut] at count ⊢
  omega

theorem follows_initDone (entry : Module) (coming : entry.live = false) :
    Follows entry (initDone entry) false := by
  refine ⟨rfl, rfl, fun count => ?_⟩
  simp only [Module.Exact, Module.held, initDone, modulePut, coming, Bool.not_false, Bool.not_true,
    Bool.toNat_true, Bool.toNat_false] at count ⊢
  omega

/-- One module is changed. -/
theorem follows_modify {change : Module -> Module} (follows : Follows (modules.data address)
    (change (modules.data address)) false) (other : Address) :
    Follows (modules.data other) ((modules.modify address change).data other) false := by
  by_cases here : other = address
  · subst here
    simp only [Modules.modify, Function.update_self]
    exact follows
  · simp only [Modules.modify, Function.update_of_ne here]
    exact follows_refl _

/-- After a step the list is a ring, every module of it was loaded before or is
new with an exact count, and the others follow their holders. -/
structure Stepped (modules : Modules) (label : Label) (next : Modules) : Prop where
  ring : Ring next.links modulesHead next.loaded
  entries : forall address, address ∈ next.loaded ->
    address ∈ modules.loaded /\
        Follows (modules.data address) (next.data address)
          (label.Forces (modules.data address).name) \/
      address ∉ modules.loaded /\ (next.data address).Exact

/-- A step that changes one module and forces nothing. -/
theorem stepped_modify (ring : Ring modules.links modulesHead modules.loaded) {label : Label}
    (unforced : forall name, label.Forces name = false) {change : Module -> Module}
    (follows : Follows (modules.data address) (change (modules.data address)) false) :
    Stepped modules label (modules.modify address change) := by
  refine ⟨ring, fun other inside => Or.inl ⟨inside, ?_⟩⟩
  rw [unforced]
  exact follows_modify follows other

theorem rmmod_stepped (ring : Ring modules.links modulesHead modules.loaded)
    (member : address ∈ modules.loaded) :
    Stepped modules (.rmmod address) (modules.rmmod address) := by
  have same : forall other, Follows (modules.data other) (modules.data other)
      ((Label.rmmod address).Forces (modules.data other).name) := fun other => follows_refl _
  cases outcome : deleteModule (modules.data address) with
  | removed =>
      simp only [Modules.rmmod, outcome]
      rcases List.append_of_mem member with ⟨first, second, split⟩
      rw [split] at ring
      have nodup := (List.nodup_cons.mp ring.nodup).2
      have outside : address ∉ first :=
        fun inside => (List.nodup_append.mp nodup).2.2 address inside address List.mem_cons_self rfl
      have erased : modules.loaded.erase address = first ++ second := by
        rw [split, List.erase_append_right _ outside, List.erase_cons_head]
      refine ⟨?_, fun other inside => Or.inl ⟨List.mem_of_mem_erase inside, same other⟩⟩
      rw [erased]
      exact (unlink_unlinked poison2 modules.links address).ring ring
  | wouldBlock | busy =>
      simp only [Modules.rmmod, outcome]
      exact ⟨ring, fun other inside => Or.inl ⟨inside, same other⟩⟩
  | bug =>
      simp only [Modules.rmmod, outcome]
      exact ⟨ring, fun other inside => Or.inl ⟨inside, same other⟩⟩

theorem myrmmod_stepped (ring : Ring modules.links modulesHead modules.loaded)
    (fresh : address ∉ modulesHead :: modules.loaded) (name : String) :
    Stepped modules (.insmodMyrmmod address name)
      (((addModule modules address (.coming "myrmmod" true)).afterPuts name
        (address :: modules.loaded)).modify address initDone) := by
  refine ⟨addModule_ring ring fresh (.coming "myrmmod" true), ?_⟩
  intro other member
  by_cases here : other = address
  · right
    subst here
    refine ⟨fun inside => fresh (List.mem_cons_of_mem _ inside), ?_⟩
    simp only [Modules.modify, Modules.afterPuts, addModule, Function.update_self, List.mem_cons_self,
      true_and]
    split
    · rfl
    · rfl
  · left
    have inside : other ∈ modules.loaded := (List.mem_cons.mp member).resolve_left here
    refine ⟨inside, ?_⟩
    simp only [Modules.modify, Modules.afterPuts, addModule, Function.update_of_ne here, List.mem_cons, here,
      false_or, inside, true_and, Label.Forces]
    by_cases named : (modules.data other).name = name
    · rw [if_pos named, beq_iff_eq.mpr named.symm]
      exact follows_forcedPut _
    · rw [if_neg named, beq_eq_false_iff_ne.mpr (Ne.symm named)]
      exact follows_refl _

theorem moduleStep_stepped (ring : Ring modules.links modulesHead modules.loaded) {label : Label}
    (taken : moduleStep modules label = some next) : Stepped modules label next := by
  unfold moduleStep at taken
  rw [Option.ite_none_left_eq_some] at taken
  rcases taken with ⟨_running, taken⟩
  cases label with
  | insmod address name exits =>
      simp only [Option.ite_none_left_eq_some, Option.some.injEq] at taken
      rcases taken with ⟨fresh, same⟩
      subst same
      refine ⟨addModule_ring ring fresh _, ?_⟩
      intro other member
      by_cases here : other = address
      · right
        subst here
        refine ⟨fun inside => fresh (List.mem_cons_of_mem _ inside), ?_⟩
        simp only [addModule, Function.update_self]
        rfl
      · left
        refine ⟨(List.mem_cons.mp member).resolve_left here, ?_⟩
        simp only [addModule, Function.update_of_ne here]
        exact follows_refl _
  | insmodMyrmmod address name =>
      simp only [Option.ite_none_left_eq_some] at taken
      rcases taken with ⟨fresh, loads⟩
      rw [insmodMyrmmod_spec ring fresh] at loads
      have same := Option.some.inj loads
      subst same
      exact myrmmod_stepped ring fresh name
  | initDone address =>
      simp only [Option.ite_none_right_eq_some, Option.some.injEq] at taken
      rcases taken with ⟨⟨_member, coming⟩, same⟩
      subst same
      exact stepped_modify ring (fun _ => rfl) (follows_initDone _ coming)
  | uses address =>
      simp only [Option.ite_none_right_eq_some, Option.some.injEq] at taken
      rcases taken with ⟨_member, same⟩
      subst same
      exact stepped_modify ring (fun _ => rfl) (follows_refModule _)
  | unuses address =>
      simp only [Option.ite_none_right_eq_some, Option.some.injEq] at taken
      rcases taken with ⟨⟨_member, used⟩, same⟩
      subst same
      exact stepped_modify ring (fun _ => rfl) (follows_unuse _ used)
  | get address =>
      simp only [Option.ite_none_right_eq_some, Option.some.injEq] at taken
      rcases taken with ⟨_member, same⟩
      subst same
      exact stepped_modify ring (fun _ => rfl) (follows_tryModuleGet _)
  | put address =>
      simp only [Option.ite_none_right_eq_some, Option.some.injEq] at taken
      rcases taken with ⟨⟨_member, held⟩, same⟩
      subst same
      exact stepped_modify ring (fun _ => rfl) (follows_put _ held)
  | rmmod address =>
      simp only [Option.ite_none_right_eq_some, Option.some.injEq] at taken
      rcases taken with ⟨member, same⟩
      subst same
      exact rmmod_stepped ring member

theorem Counted.step (counted : Counted modules) {label : Label}
    (taken : moduleStep modules label = some next) : Counted next := by
  have stepped := moduleStep_stepped counted.ring taken
  refine ⟨stepped.ring, fun address member => ?_⟩
  rcases stepped.entries address member with ⟨before, follows⟩ | ⟨_new, exact_⟩
  · exact follows.count (counted.count address before)
  · exact exact_

end Steps

/-! ## Whole runs -/

/-- How often `myrmmod` is loaded with a name. -/
def forcedLoads (name : String) (labels : List Label) : Nat :=
  labels.countP (Label.Forces name)

/-- The earlier checks of `delete_module`. -/
def Module.Passes (entry : Module) : Prop :=
  entry.dependents = 0 /\ entry.live = true /\ entry.exits = true

theorem deleteModule_iff {entry : Module} (count : entry.Exact) :
    (deleteModule entry = .removed <-> entry.Passes /\ entry.holders = entry.forced) /\
      (deleteModule entry = .bug <-> entry.Passes /\ entry.holders < entry.forced) /\
      (deleteModule entry = .wouldBlock <->
        0 < entry.dependents \/ entry.Passes /\ entry.forced < entry.holders) := by
  rw [Module.Exact, Module.held] at count
  unfold deleteModule Module.Passes
  by_cases used : entry.dependents = 0
  · rw [if_neg (not_not.mpr used)]
    cases live : entry.live with
    | false => simp only [if_true, reduceCtorEq, used, Bool.false_eq_true, false_and, and_false, or_false,
        Nat.lt_irrefl, and_self]
    | true =>
        cases exits : entry.exits with
        | false => simp only [Bool.true_eq_false, if_false, if_true, reduceCtorEq, used, Bool.false_eq_true,
            false_and, and_false, or_false, Nat.lt_irrefl, and_self]
        | true =>
            rw [live, used] at count
            have count : entry.refcnt = 1 + entry.holders - entry.forced := count
            simp only [Bool.true_eq_false, if_false, used, true_and, Nat.lt_irrefl, false_or]
            split
            · simp only [reduceCtorEq, false_iff, true_iff]
              omega
            · split
              · simp only [reduceCtorEq, false_iff, true_iff]
                omega
              · simp only [reduceCtorEq, false_iff, true_iff]
                omega
  · simp only [if_pos used, reduceCtorEq, used, false_and, true_iff, true_and, or_false]
    exact Nat.pos_of_ne_zero used

theorem forced_of_run {start final : Modules} {labels : List Label} {address : Address}
    (counted : Counted start)
    (stays : AlongRun moduleStep (fun modules => address ∈ modules.loaded) start labels)
    (reached : run moduleStep start labels = some final) :
    (final.data address).name = (start.data address).name /\
      (final.data address).forced =
        (start.data address).forced + forcedLoads (start.data address).name labels := by
  induction labels generalizing start with
  | nil =>
      have same : start = final := Option.some.inj reached
      subst same
      exact ⟨rfl, rfl⟩
  | cons label labels inductionHypothesis =>
      rcases (run_cons moduleStep).mp reached with ⟨next, taken, rest⟩
      have onward := stays.2 next taken
      have stepped := moduleStep_stepped counted.ring taken
      rcases stepped.entries address (onward.here moduleStep) with ⟨_before, follows⟩ | ⟨new, _⟩
      · rcases inductionHypothesis (counted.step taken) onward rest with ⟨name, forced⟩
        refine ⟨name.trans follows.name, ?_⟩
        rw [forced, follows.forced_eq, follows.name]
        have counts : forcedLoads (start.data address).name (label :: labels) =
            forcedLoads (start.data address).name labels +
              (label.Forces (start.data address).name).toNat := by
          simp only [forcedLoads, List.countP_cons]
          cases label.Forces (start.data address).name <;> rfl
        omega
      · exact absurd (stays.here moduleStep) new

/-- What loading `myrmmod` leads to, in every run.  Its walk over the list always
ends.  A module that passes the earlier checks of `delete_module` is unloaded
exactly when as many references were given back by force as are held, so one that
is held is unloaded under its holders, and one that nobody holds can only be
unloaded if nothing was given back; when more were given back the kernel runs
into a `BUG_ON`.  A module that another one depends on is not unloaded whatever
was given back.  For a module that stays loaded the number given back grows by
the number of times that `myrmmod` is loaded with its name. -/
theorem forced_puts_counted (start : Modules) (counted : Counted start) (labels : List Label)
    (final : Modules) (reached : run moduleStep start labels = some final) :
    (forall address name, final.crashed = false -> address ∉ modulesHead :: final.loaded ->
      (moduleStep final (.insmodMyrmmod address name)).isSome = true) /\
    (forall address, address ∈ final.loaded ->
      (deleteModule (final.data address) = .removed <->
        (final.data address).Passes /\ (final.data address).holders = (final.data address).forced) /\
      (deleteModule (final.data address) = .bug <->
        (final.data address).Passes /\ (final.data address).holders < (final.data address).forced) /\
      (deleteModule (final.data address) = .wouldBlock <->
        0 < (final.data address).dependents \/
          (final.data address).Passes /\ (final.data address).forced < (final.data address).holders)) /\
    forall address, AlongRun moduleStep (fun modules => address ∈ modules.loaded) start labels ->
      (final.data address).forced =
        (start.data address).forced + forcedLoads (start.data address).name labels := by
  have countedFinal : Counted final := invariant_of_run moduleStep Counted
    (fun _ _ _ counted taken => counted.step taken) counted reached
  refine ⟨?_, fun address member => deleteModule_iff (countedFinal.count address member),
    fun address stays => (forced_of_run counted stays reached).2⟩
  intro address name running fresh
  unfold moduleStep
  rw [if_neg (running ▸ Bool.false_ne_true)]
  simp only [if_neg fresh, insmodMyrmmod_spec countedFinal.ring fresh, Option.isSome_some]

/-- No module is loaded. -/
def noModules : Modules where
  links := ⟨fun address => address, fun address => address⟩
  data := fun _ => ⟨"", false, false, 0, 0, 0, 0⟩
  loaded := []
  crashed := false

theorem noModules_counted : Counted noModules :=
  ⟨⟨List.nodup_singleton _, rfl, rfl⟩, fun _ member => absurd member List.not_mem_nil⟩

/-- `memmap` is held once when `myrmmod` is loaded with its default parameter, a
module is held whose name is another one, and one is used by a further module. -/
def heldMemmap : List Label :=
  [.insmod 1 "memmap" true, .initDone 1, .insmod 2 "dram" true, .initDone 2, .get 1, .get 2,
    .insmod 4 "monitor" true, .initDone 4, .uses 4, .insmodMyrmmod 3 "memmap", .insmodMyrmmod 5 "monitor"]

/-- The first module is unloaded although it is held; the others are not. -/
theorem forced_puts_counted_memmap :
    Exists fun final => run moduleStep noModules heldMemmap = some final /\
      (final.data 1).holders = 1 /\ deleteModule (final.data 1) = .removed /\
      deleteModule (final.data 2) = .wouldBlock /\
      (final.data 4).refcnt = 1 /\ deleteModule (final.data 4) = .wouldBlock := by
  have held : (run moduleStep noModules heldMemmap).map (fun modules =>
      (modules.loaded, modules.data 1, modules.data 2, modules.data 4)) =
      some ([5, 3, 4, 2, 1], ⟨"memmap", true, true, 1, 0, 1, 1⟩, ⟨"dram", true, true, 2, 0, 1, 0⟩,
        ⟨"monitor", true, true, 1, 1, 0, 1⟩) := by decide +kernel
  rcases Option.map_eq_some_iff.mp held with ⟨final, reached, result⟩
  have parts := Prod.mk.inj result
  have entries := Prod.mk.inj parts.2
  have others := Prod.mk.inj entries.2
  have outcomes := (forced_puts_counted noModules noModules_counted heldMemmap final reached).2.1
  refine ⟨final, reached, by rw [entries.1], ?_, ?_, by rw [others.2], ?_⟩
  · exact (outcomes 1 (by rw [parts.1]; decide)).1.mpr (by rw [entries.1]; exact ⟨⟨rfl, rfl, rfl⟩, rfl⟩)
  · apply (outcomes 2 (by rw [parts.1]; decide)).2.2.mpr
    rw [others.1]
    exact Or.inr ⟨⟨rfl, rfl, rfl⟩, by decide⟩
  · apply (outcomes 4 (by rw [parts.1]; decide)).2.2.mpr
    rw [others.2]
    exact Or.inl (by decide)

end ModuleReference
end KernelStudy
