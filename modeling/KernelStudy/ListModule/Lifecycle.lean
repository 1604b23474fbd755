import KernelStudy.Foundations.LabelledRun
import KernelStudy.ListModule.Deletion

namespace KernelStudy
namespace ListModule

open LabelledRun

/-!
# The life of the list module

The run of the module from `mylistopt_init` to `mylistopt_exit`, for any bound
`N` in the place of `MAX_LIST_N`.  The kernel decides which address an
allocation returns, when an allocation fails and whether the thread can be
created; everything else is the module's.  A step is one pass of a loop, and a
pass of a deleting walk is one object.

`mylistopt_add_all` stops at the first failing allocation, and its result is
not looked at.  When the thread cannot be created, `mylistopt_init` returns the
error with the list still in place; a module whose init function has failed is
never asked to exit.
-/

/-! ## Adding and printing -/

section Growth

variable {heap : Heap} {nodes kept ahead : List Nat} {address : Nat}

theorem listAddTail_eq {new : Pointer} (newOpen : heap.accessible new = true)
    (lastOpen : heap.accessible (heap.links.prev .myList) = true) :
    listAddTail heap new = some ((((heap.withPrev .myList new).withNext new .myList).withPrev new
      (heap.links.prev .myList)).withNext (heap.links.prev .myList) new) := by
  have headOpen : heap.accessible .myList = true := rfl
  rw [listAddTail, Heap.prev_eq headOpen]
  simp only [Option.bind_eq_bind, Option.bind_some, Heap.setPrev_eq headOpen]
  rw [Heap.setNext_eq (by rw [accessible_withPrev]; exact newOpen)]
  simp only [Option.bind_some]
  rw [Heap.setPrev_eq (by rw [accessible_withNext, accessible_withPrev]; exact newOpen)]
  exact Heap.setNext_eq
    (by rw [accessible_withPrev, accessible_withNext, accessible_withPrev]; exact lastOpen) _

/-- The list with the new object at its end. -/
theorem addObject_spec (formed : WellFormed heap nodes) (unused : heap.live address = false)
    (pid i : Int32) :
    Exists fun after => addObject heap address pid i = some after /\
      WellFormed after (nodes ++ [address]) /\
      after.data = Function.update heap.data address ⟨"this is idx " ++ toString i.toInt, pid, i⟩ /\
      after.live = Function.update heap.live address true /\ after.events = heap.events := by
  let object : MyStruct := ⟨"this is idx " ++ toString i.toInt, pid, i⟩
  let zeroed := kzalloc heap address
  let filled : Heap := { zeroed with data := Function.update zeroed.data address object }
  let last := heap.links.prev .myList
  have lastListed : last ∈ Pointer.myList :: nodes.map Pointer.node := formed.ring.path.prev_mem
  have lastOpen : heap.accessible last = true := formed.accessible lastListed
  have outside : Pointer.node address ∉ Pointer.myList :: nodes.map Pointer.node := by
    intro member
    have live : heap.live address = true := formed.accessible member
    exact absurd (unused.symm.trans live) nofun
  have lastOther : last ≠ .node address := fun same => outside (same ▸ lastListed)
  have newOpen : filled.accessible (.node address) = true := Function.update_self _ _ _
  have lastStillOpen : filled.accessible last = true := by
    cases pointer : last with
    | node other =>
        rw [pointer] at lastOther lastOpen
        exact (Function.update_of_ne (fun same => lastOther (congrArg _ same)) _ _).trans lastOpen
    | myList => rfl
    | null | poison1 | poison2 => exact absurd (pointer ▸ lastOpen) nofun
  refine ⟨(((filled.withPrev .myList (.node address)).withNext (.node address) .myList).withPrev
    (.node address) last).withNext last (.node address), ?_, ⟨?_, ?_⟩, ?_, rfl, rfl⟩
  · exact listAddTail_eq newOpen lastStillOpen
  · rw [List.map_append]
    have newOther : Pointer.node address ≠ last := fun same => lastOther same.symm
    have headOther : Pointer.myList ≠ .node address := nofun
    apply formed.ring.append outside
    · exact Function.update_self _ _ _
    · exact Function.update_self _ _ _
    · exact (Function.update_of_ne newOther _ _).trans (Function.update_self _ _ _)
    · let closed := Function.update filled.links.prev .myList (.node address)
      have kept : Function.update closed (.node address) last .myList = closed .myList :=
        Function.update_of_ne headOther _ _
      exact kept.trans (Function.update_self _ _ _)
    · intro place listed notLast
      have notNew : place ≠ .node address := fun same => outside (same ▸ listed)
      exact (Function.update_of_ne notLast _ _).trans
        ((Function.update_of_ne notNew _ _).trans (Function.update_of_ne notNew _ _))
    · intro place notHead notNew
      exact (Function.update_of_ne notNew _ _).trans
        ((Function.update_of_ne notHead _ _).trans (Function.update_of_ne notNew _ _))
  · intro other listed
    by_cases same : other = address
    · subst other
      exact newOpen
    · have earlier : other ∈ nodes := by
        rcases List.mem_append.mp listed with inside | new
        · exact inside
        · exact absurd (List.mem_singleton.mp new) same
      exact (Function.update_of_ne same _ _).trans (formed.live other earlier)
  · exact Function.update_idem _ _ _

/-- The walk of `mylistopt_print` over the objects ahead. -/
theorem listForEach_spec (formed : WellFormed heap (kept ++ ahead)) {fuel : Nat}
    (enough : ahead.length ≤ fuel) :
    listForEach heap fuel (firstOf ahead) = some (ahead.map heap.data) := by
  induction ahead generalizing kept fuel with
  | nil => cases fuel <;> exact if_pos rfl
  | cons address rest inductionHypothesis =>
      cases fuel with
      | zero => exact absurd enough (Nat.not_succ_le_zero _)
      | succ fuel =>
          have live := formed.live address (List.mem_append_right _ List.mem_cons_self)
          have reachable : heap.accessible (.node address) = true := live
          have later := inductionHypothesis formed.pass (Nat.le_of_succ_le_succ enough)
          rw [firstOf, listForEach, if_neg (node_ne_head address)]
          simp only [listEntry, Heap.object_eq live, Heap.next_eq reachable, formed.next_node, later,
            Option.bind_eq_bind, Option.bind_some, List.map_cons, Option.pure_def]

/-- A well-formed list is printed in its order. -/
theorem mylistoptPrint_spec (formed : WellFormed heap nodes) {fuel : Nat}
    (enough : nodes.length ≤ fuel) : mylistoptPrint fuel heap = some (nodes.map heap.data) := by
  have unpassed : WellFormed heap ([] ++ nodes) := formed
  rw [mylistoptPrint, formed.first]
  exact listForEach_spec unpassed enough

end Growth

/-! ## The life of the module -/

/-- Where the module is: at the head of the loop of `mylistopt_add_all`, at the
head of the deleting loop of `mylistopt_init`, in a walk of `mylistopt_del` that
this loop has started, before `kthread_create`, after a return of
`mylistopt_init` with 0 or with an error, in the walk of `mylistopt_exit`, or
behind it.  A faulting access ends in `oopsed`. -/
inductive Point where
  | adding
  | deleting
  | walking (p n : Pointer)
  | creating
  | loaded
  | failed (err : Int32)
  | unloading (p n : Pointer)
  | unloaded
  | oopsed
deriving DecidableEq, Repr

/-- The loop variable is never negative.  The list of all addresses that
`kzalloc` has returned is not part of the program. -/
structure State where
  point : Point
  i : Nat
  heap : Heap
  allocated : List Nat

inductive Label where
  | kzalloc (address : Nat)
  | kzallocFails
  | proceed
  | kthreadCreate
  | kthreadCreateFails (err : Int32)
  | exit
deriving DecidableEq, Repr

/-- `LIST_HEAD(myList)`, and no object is allocated. -/
def emptyList : Heap where
  links := ⟨fun pointer => pointer, fun pointer => pointer⟩
  data := fun _ => ⟨"", 0, 0⟩
  live := fun _ => false
  events := []

def initial : State := ⟨.adding, 0, emptyList, []⟩

namespace State

def oops (state : State) : State := { state with point := .oopsed }

/-- `mylistopt_print`, and then on to the next point. -/
def print (state next : State) : State :=
  (mylistoptPrint state.allocated.length state.heap).elim state.oops fun _ => next

/-- The head of `list_for_each_safe` is entered. -/
def beginWalk (state : State) (point : Pointer -> Pointer -> Point) : State :=
  ((do
    let p ← state.heap.next .myList
    let n ← state.heap.next p
    return { state with point := point p n }) : Option State).getD state.oops

/-- One pass of `list_for_each_safe` in `mylistopt_del(id, delAll)`. -/
def passWalk (state : State) (point : Pointer -> Pointer -> Point) (id delAll : Int32)
    (p n : Pointer) : State :=
  ((do
    let heap ← delBody id delAll state.heap p
    let following ← heap.next n
    return { state with heap := heap, point := point n following }) : Option State).getD state.oops

/-- The new object of a pass of `mylistopt_add_all`. -/
def add (state : State) (address : Nat) (pid : Int32) : State :=
  (addObject state.heap address pid (Int32.ofNat state.i)).elim state.oops fun heap =>
    { state with heap := heap, i := state.i + 1, allocated := state.allocated ++ [address] }

/-- `mylistopt_add_all` returns; its result is not used. -/
def addingDone (state : State) : State :=
  state.print { state with point := .deleting, i := 0 }

end State

/-- The steps.  `kzalloc` returns an address that is not in use; `PTR_ERR` of
an error pointer lies between `-MAX_ERRNO` and -1. -/
def step (N pid : Int32) (state : State) (label : Label) : Option State :=
  match label, state.point with
  | .kzalloc address, .adding =>
      if state.i < N.toInt /\ state.heap.live address = false then some (state.add address pid)
      else none
  | .kzallocFails, .adding => if state.i < N.toInt then some state.addingDone else none
  | .proceed, .adding => if state.i < N.toInt then none else some state.addingDone
  | .proceed, .deleting =>
      if state.i < N.toInt then
        if state.i % 2 = 1 then some (state.beginWalk .walking)
        else some { state with i := state.i + 1 }
      else some (state.print { state with point := .creating })
  | .proceed, .walking p n =>
      if p = .myList then some { state with point := .deleting, i := state.i + 1 }
      else some (state.passWalk .walking (Int32.ofNat state.i) 0 p n)
  | .kthreadCreate, .creating => some { state with point := .loaded }
  | .kthreadCreateFails err, .creating =>
      if -4095 ≤ err.toInt /\ err.toInt < 0 then some { state with point := .failed err } else none
  | .exit, .loaded => some (state.beginWalk .unloading)
  | .proceed, .unloading p n =>
      if p = .myList then some (state.print { state with point := .unloaded })
      else some (state.passWalk .unloading 0 1 p n)
  | _, _ => none

/-! ## What the steps do -/

section Steps

variable {N : Int32} {state : State} {nodes kept ahead : List Nat} {address : Nat}
  {point : Pointer -> Pointer -> Point} {id delAll : Int32}

theorem lt_bound {i : Nat} : i < N.toInt <-> i < N.toNatClampNeg :=
  Int.lt_toNat.symm

theorem print_eq (formed : WellFormed state.heap nodes)
    (fits : nodes.length ≤ state.allocated.length) (next : State) : state.print next = next := by
  rw [State.print, mylistoptPrint_spec formed fits]
  rfl

theorem beginWalk_eq (formed : WellFormed state.heap nodes) :
    state.beginWalk point =
      { state with point := point (firstOf nodes) (state.heap.links.next (firstOf nodes)) } := by
  have unpassed : WellFormed state.heap ([] ++ nodes) := formed
  rw [State.beginWalk, formed.first]
  simp only [Option.bind_eq_bind, Option.bind_some, Heap.next_eq unpassed.accessible_firstOf,
    Option.pure_def, Option.getD_some]

/-- A pass over an object, for what its body does. -/
theorem passWalk_eq {after : Heap} (done : delBody id delAll state.heap (.node address) = some after)
    (formed : WellFormed after (kept ++ ahead)) :
    state.passWalk point id delAll (.node address) (firstOf ahead) =
      { state with
        heap := after, point := point (firstOf ahead) (after.links.next (firstOf ahead)) } := by
  rw [State.passWalk, done]
  simp only [Option.bind_eq_bind, Option.bind_some, Heap.next_eq formed.accessible_firstOf,
    Option.pure_def, Option.getD_some]

end Steps

/-! ## The functions return -/

section Completes

variable {N pid : Int32} {i : Nat} {heap : Heap} {allocated nodes : List Nat}

section Walk

variable {point : Pointer -> Pointer -> Point} {id delAll : Int32}

variable (passes : forall heap p n, p ≠ .myList ->
  step N pid ⟨point p n, i, heap, allocated⟩ .proceed =
    some (State.passWalk ⟨point p n, i, heap, allocated⟩ point id delAll p n))

include passes

/-- The passes of a walk do what the loop of `mylistopt_del` does. -/
theorem repeats_walk {fuel : Nat} {p n : Pointer} {after : Heap}
    (ends : listForEachSafe (delBody id delAll) fuel heap p n = some after) :
    Exists fun last => Repeats (step N pid) .proceed ⟨point p n, i, heap, allocated⟩
      ⟨point .myList last, i, after, allocated⟩ := by
  induction fuel generalizing heap p n with
  | zero =>
      rcases Option.ite_none_right_eq_some.mp ends with ⟨atHead, same⟩
      rw [atHead, ← Option.some.inj same]
      exact ⟨n, Repeats.refl _ _ _⟩
  | succ fuel inductionHypothesis =>
      rw [listForEachSafe] at ends
      by_cases atHead : p = .myList
      · rw [if_pos atHead] at ends
        rw [atHead, ← Option.some.inj ends]
        exact ⟨n, Repeats.refl _ _ _⟩
      · rw [if_neg atHead] at ends
        rcases Option.bind_eq_some_iff.mp ends with ⟨between, body, rest⟩
        rcases Option.bind_eq_some_iff.mp rest with ⟨following, read, later⟩
        rcases inductionHypothesis later with ⟨last, reached⟩
        have pass : State.passWalk ⟨point p n, i, heap, allocated⟩ point id delAll p n =
            ⟨point n following, i, between, allocated⟩ := by
          rw [State.passWalk, body]
          simp only [Option.bind_eq_bind, Option.bind_some, read, Option.pure_def, Option.getD_some]
        exact ⟨last, Repeats.head ((passes heap p n atHead).trans (congrArg some pass)) reached⟩

/-- A walk over a well-formed list ends at its head, with the list that
`mylistopt_del` leaves. -/
theorem repeats_del (formed : WellFormed heap nodes) :
    Exists fun last => Exists fun after =>
      Repeats (step N pid) .proceed
        ⟨point (firstOf nodes) (heap.links.next (firstOf nodes)), i, heap, allocated⟩
        ⟨point .myList last, i, after, allocated⟩ /\
      WellFormed after (nodes.filter fun address => !selected id delAll (heap.data address)) := by
  have unpassed : WellFormed heap ([] ++ nodes) := formed
  rcases listForEachSafe_spec id delAll unpassed with ⟨after, ends, deleted⟩
  rcases repeats_walk passes (ends nodes.length (Nat.le_refl _)) with ⟨last, reached⟩
  exact ⟨last, after, reached, deleted.formed⟩

end Walk

/-- The deleting loop of `mylistopt_init` comes to its end. -/
theorem deleting_completes (N pid : Int32) (i : Nat) (formed : WellFormed heap nodes)
    (fits : nodes.length ≤ allocated.length) :
    Exists fun final => Repeats (step N pid) .proceed ⟨.deleting, i, heap, allocated⟩ final /\
      final.point = .creating /\ final.allocated = allocated := by
  induction left : N.toNatClampNeg - i generalizing i heap nodes with
  | zero =>
      have outside : ¬ (i : Int) < N.toInt := fun inBound => by
        have below := lt_bound.mp inBound
        omega
      refine ⟨⟨.creating, i, heap, allocated⟩, Repeats.head ?_ (Repeats.refl _ _ _), rfl, rfl⟩
      refine (if_neg outside).trans ?_
      rw [print_eq formed fits]
  | succ left inductionHypothesis =>
      have inBound : (i : Int) < N.toInt := lt_bound.mpr (by omega)
      by_cases odd : i % 2 = 1
      · have passes (heap : Heap) (p n : Pointer) (onObject : p ≠ .myList) :
            step N pid ⟨.walking p n, i, heap, allocated⟩ .proceed =
              some (State.passWalk ⟨.walking p n, i, heap, allocated⟩ .walking (Int32.ofNat i) 0 p n) :=
          if_neg onObject
        rcases repeats_del passes formed with ⟨last, after, walked, shorter⟩
        have stillFits := (List.length_filter_le
          (fun address => !selected (Int32.ofNat i) 0 (heap.data address)) nodes).trans fits
        rcases inductionHypothesis (i + 1) shorter stillFits (by omega) with ⟨final, later, there⟩
        have started : step N pid ⟨.deleting, i, heap, allocated⟩ .proceed =
            some ⟨.walking (firstOf nodes) (heap.links.next (firstOf nodes)), i, heap, allocated⟩ := by
          refine ((if_pos inBound).trans (if_pos odd)).trans ?_
          rw [beginWalk_eq formed]
        have ended : step N pid ⟨.walking .myList last, i, after, allocated⟩ .proceed =
            some ⟨.deleting, i + 1, after, allocated⟩ := rfl
        exact ⟨final, Repeats.head started (walked.trans (Repeats.head ended later)), there⟩
      · rcases inductionHypothesis (i + 1) formed fits (by omega) with ⟨final, later, there⟩
        have skipped : step N pid ⟨.deleting, i, heap, allocated⟩ .proceed =
            some ⟨.deleting, i + 1, heap, allocated⟩ := (if_pos inBound).trans (if_neg odd)
        exact ⟨final, Repeats.head skipped later, there⟩

/-- `mylistopt_exit` comes to its end. -/
theorem unloading_completes (formed : WellFormed heap nodes) :
    Exists fun started => Exists fun final =>
      step N pid ⟨.loaded, i, heap, allocated⟩ .exit = some started /\
        Repeats (step N pid) .proceed started final /\ final.point = .unloaded := by
  have passes (heap : Heap) (p n : Pointer) (onObject : p ≠ .myList) :
      step N pid ⟨.unloading p n, i, heap, allocated⟩ .proceed =
        some (State.passWalk ⟨.unloading p n, i, heap, allocated⟩ .unloading 0 1 p n) :=
    if_neg onObject
  rcases repeats_del passes formed with ⟨last, after, walked, empty⟩
  have unselected : (nodes.filter fun address => !selected 0 1 (heap.data address)) = [] :=
    List.filter_eq_nil_iff.mpr fun address _ kept => by
      rw [selected_all] at kept
      exact Bool.false_ne_true kept
  rw [unselected] at empty
  have printed : State.print ⟨.unloading .myList last, i, after, allocated⟩
      ⟨.unloaded, i, after, allocated⟩ = ⟨.unloaded, i, after, allocated⟩ :=
    print_eq empty (Nat.zero_le _) _
  have ended : step N pid ⟨.unloading .myList last, i, after, allocated⟩ .proceed =
      some ⟨.unloaded, i, after, allocated⟩ := congrArg some printed
  refine ⟨_, ⟨.unloaded, i, after, allocated⟩, rfl, ?_, rfl⟩
  rw [beginWalk_eq formed]
  exact walked.trans (Repeats.head ended (Repeats.refl _ _ _))

/-- The loop of `mylistopt_add_all`, for the addresses that its allocations
return. -/
theorem run_adding {addresses : List Nat} (pid : Int32) (formed : WellFormed heap allocated)
    (nodup : addresses.Nodup) (unused : forall address, address ∈ addresses -> heap.live address = false)
    (fits : i + addresses.length ≤ N.toNatClampNeg) :
    Exists fun after =>
      run (step N pid) ⟨.adding, i, heap, allocated⟩ (addresses.map .kzalloc) =
        some ⟨.adding, i + addresses.length, after, allocated ++ addresses⟩ /\
      WellFormed after (allocated ++ addresses) := by
  induction addresses generalizing i heap allocated with
  | nil =>
      rw [List.append_nil]
      exact ⟨heap, rfl, formed⟩
  | cons address rest inductionHypothesis =>
      rw [List.length_cons] at fits
      have free := unused address List.mem_cons_self
      have parts := List.nodup_cons.mp nodup
      have inBound : (i : Int) < N.toInt := lt_bound.mpr (by omega)
      rcases addObject_spec formed free pid (Int32.ofNat i) with ⟨between, added, longer, _, live, _⟩
      have stillUnused (other : Nat) (member : other ∈ rest) : between.live other = false := by
        have apart : other ≠ address := fun same => parts.1 (same ▸ member)
        rw [live, Function.update_of_ne apart]
        exact unused other (List.mem_cons_of_mem _ member)
      rcases inductionHypothesis (i := i + 1) longer parts.2 stillUnused (by omega) with
        ⟨after, reached, complete⟩
      have taken : step N pid ⟨.adding, i, heap, allocated⟩ (.kzalloc address) =
          some ⟨.adding, i + 1, between, allocated ++ [address]⟩ := by
        refine (if_pos ⟨inBound, free⟩).trans ?_
        rw [State.add, added]
        rfl
      refine ⟨after, ?_, ?_⟩
      · rw [List.map_cons, run, taken, Option.bind_some, reached, List.length_cons,
          List.append_assoc, List.singleton_append, Nat.add_assoc, Nat.add_comm 1]
      · rw [List.append_cons]
        exact complete

/-- `mylistopt_init` gets as far as `kthread_create`, for any addresses and
wherever the allocations stop. -/
theorem init_completes (addresses : List Nat) (nodup : addresses.Nodup)
    (fits : addresses.length ≤ N.toNatClampNeg) :
    Exists fun stop => Exists fun stopped => Exists fun final =>
      run (step N pid) initial (addresses.map .kzalloc ++ [stop]) = some stopped /\
        Repeats (step N pid) .proceed stopped final /\
        final.point = .creating /\ final.allocated = addresses := by
  have empty : WellFormed emptyList [] := ⟨⟨List.nodup_singleton _, rfl, rfl⟩, nofun⟩
  have withinBound : 0 + addresses.length ≤ N.toNatClampNeg := by omega
  rcases run_adding pid empty nodup (fun _ _ => rfl) withinBound with ⟨after, reached, formed⟩
  rw [List.nil_append, Nat.zero_add] at reached
  have printed : State.addingDone ⟨.adding, addresses.length, after, addresses⟩ =
      ⟨.deleting, 0, after, addresses⟩ := print_eq formed (Nat.le_refl _) _
  have stops : Exists fun stop =>
      step N pid ⟨.adding, addresses.length, after, addresses⟩ stop =
        some ⟨.deleting, 0, after, addresses⟩ := by
    by_cases inBound : (addresses.length : Int) < N.toInt
    · exact ⟨.kzallocFails, (if_pos inBound).trans (congrArg some printed)⟩
    · exact ⟨.proceed, (if_neg inBound).trans (congrArg some printed)⟩
  rcases stops with ⟨stop, taken⟩
  rcases deleting_completes N pid 0 formed (Nat.le_refl _) with ⟨final, deleted, there⟩
  refine ⟨stop, _, final, ?_, deleted, there⟩
  change run (step N pid) ⟨.adding, 0, emptyList, []⟩ _ = _
  rw [run_append, reached, Option.bind_some, run, taken]
  rfl

end Completes

end ListModule
end KernelStudy
