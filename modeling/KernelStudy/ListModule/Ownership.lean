import KernelStudy.ListModule.Lifecycle

namespace KernelStudy
namespace ListModule

open LabelledRun

/-!
# Who owns the objects

Every object that `kzalloc` has returned is on the list until it is freed, in
every state of a run of the module.  The invariant says which objects are on
the list at each point: the objects are numbered by their ids, and the deleting
loop takes out one odd number after the other.

The exception is the error return of `mylistopt_init`, which leaves the even
numbers behind.
-/

/-! ## Ownership -/

/-- The deletions of `mylistopt_init` are over, and `mylistopt_exit` has not
begun. -/
def AfterDeletions : Point -> Prop
  | .creating | .loaded | .failed _ => True
  | _ => False

/-- The ids that the deletions leave, when there were `k` allocations. -/
def evenIds (k : Nat) : List Int32 :=
  ((List.range k).filter fun id => id % 2 = 0).map Int32.ofNat

/-- What the module owes its objects, those that are on the list being `nodes`.
An allocated object has been freed once or is still on the list.  After the
deletions these have the even ids; behind `mylistopt_exit`, and when
`mylistopt_init` has failed, every object has been freed. -/
structure Owning (state : State) (nodes : List Nat) : Prop where
  intact : state.point ≠ .oopsed
  formed : WellFormed state.heap nodes
  owned : forall address, address ∈ state.allocated ->
    state.heap.events.count (.freed address) = if address ∈ nodes then 0 else 1
  evens : AfterDeletions state.point ->
    nodes.map (fun address => (state.heap.data address).id) = evenIds state.allocated.length
  unloaded : state.point = .unloaded -> forall address, address ∈ state.allocated ->
    state.heap.events.count (.freed address) = 1
  failed : forall err, state.point = .failed err -> forall address, address ∈ state.allocated ->
    state.heap.events.count (.freed address) = 1

/-- The thread can be created, or there was no object to begin with. -/
def CreatesOrEmpty (state : State) (label : Label) : Prop :=
  forall err, label = .kthreadCreateFails err -> state.allocated = []

/-! ## The invariant -/

/-- An object with this id stays when all odd ids below `i` are deleted. -/
def stays (i : Nat) (id : Int32) : Bool :=
  decide (id.toNatClampNeg % 2 = 0 \/ i ≤ id.toNatClampNeg)

/-- The objects that are left when all odd ids below `i` are deleted. -/
def remaining (state : State) (i : Nat) : List Nat :=
  state.allocated.filter fun address => stays i (state.heap.data address).id

/-- What holds at every point: the objects were numbered as they were
allocated, and their fields are kept also when they are freed. -/
structure Numbered (N : Int32) (state : State) (nodes : List Nat) : Prop where
  formed : WellFormed state.heap nodes
  owned : forall address, address ∈ state.allocated ->
    state.heap.events.count (.freed address) = if address ∈ nodes then 0 else 1
  listed : nodes.Sublist state.allocated
  ids : state.allocated.map (fun address => (state.heap.data address).id) =
    (List.range state.allocated.length).map Int32.ofNat
  bounded : state.allocated.length ≤ N.toNatClampNeg

/-- Which objects are on the list at a point.  In a walk, these are the ones
that were passed and kept and the ones ahead, and the saved pointer leads on. -/
def Stage (N : Int32) (state : State) (nodes : List Nat) : Prop :=
  match state.point with
  | .adding => nodes = state.allocated /\ state.heap.events = [] /\ state.i = state.allocated.length
  | .deleting => nodes = remaining state state.i
  | .walking p n => Exists fun kept => Exists fun ahead => nodes = kept ++ ahead /\
      p = firstOf ahead /\ n = state.heap.links.next p /\
      kept ++ ahead.filter (fun address => !selected (Int32.ofNat state.i) 0 (state.heap.data address)) =
        remaining state (state.i + 1)
  | .creating | .loaded => nodes = remaining state N.toNatClampNeg
  | .failed _ => state.allocated = []
  | .unloading p n => p = firstOf nodes /\ n = state.heap.links.next p
  | .unloaded => nodes = []
  | .oopsed => False

def Tracked (N : Int32) (state : State) : Prop :=
  Exists fun nodes => Numbered N state nodes /\ Stage N state nodes

section Ids

variable {N : Int32} {state : State} {nodes : List Nat} {i j address : Nat}

/-- The object of an allocated address has one of the numbers given out. -/
theorem Numbered.id_eq (numbered : Numbered N state nodes) (member : address ∈ state.allocated) :
    Exists fun j => j < state.allocated.length /\ (state.heap.data address).id = Int32.ofNat j := by
  have listed : (state.heap.data address).id ∈
      state.allocated.map fun address => (state.heap.data address).id :=
    List.mem_map_of_mem member
  rw [numbered.ids] at listed
  rcases List.mem_map.mp listed with ⟨j, inRange, same⟩
  exact ⟨j, List.mem_range.mp inRange, same.symm⟩

theorem Numbered.small (numbered : Numbered N state nodes) (below : j < state.allocated.length) :
    j < 2 ^ 31 :=
  (Nat.lt_of_lt_of_le below numbered.bounded).trans N.toNatClampNeg_lt

theorem stays_ofNat (small : j < 2 ^ 31) : stays i (Int32.ofNat j) = decide (j % 2 = 0 \/ i ≤ j) := by
  rw [stays, Int32.toNatClampNeg_ofNat_of_lt small]

/-- An even id is never deleted. -/
theorem stays_succ_even (even : i % 2 ≠ 1) (small : j < 2 ^ 31) :
    stays (i + 1) (Int32.ofNat j) = stays i (Int32.ofNat j) := by
  rw [stays_ofNat small, stays_ofNat small, decide_eq_decide]
  omega

/-- The walk for an odd id selects exactly the object with that id. -/
theorem stays_succ_odd (odd : i % 2 = 1) (inBound : i < 2 ^ 31) {object : MyStruct}
    (named : object.id = Int32.ofNat j) (small : j < 2 ^ 31) :
    stays (i + 1) object.id = (stays i object.id && !selected (Int32.ofNat i) 0 object) := by
  have chosen : selected (Int32.ofNat i) 0 object = decide (i = j) := by
    rw [selected, named, decide_eq_decide]
    constructor
    · rintro (same | impossible)
      · have values := congrArg Int32.toNatClampNeg same
        rwa [Int32.toNatClampNeg_ofNat_of_lt inBound, Int32.toNatClampNeg_ofNat_of_lt small] at values
      · exact absurd impossible (by decide)
    · intro same
      exact Or.inl (congrArg Int32.ofNat same)
  rw [chosen, named, stays_ofNat small, stays_ofNat small, ← decide_not, ← Bool.decide_and,
    decide_eq_decide]
  omega

/-- The ids of the objects that remain at the end of the deletions. -/
theorem Numbered.evens (numbered : Numbered N state nodes) :
    (remaining state N.toNatClampNeg).map (fun address => (state.heap.data address).id) =
      evenIds state.allocated.length := by
  have pushed := List.filter_map (f := fun address => (state.heap.data address).id)
    (p := stays N.toNatClampNeg) (l := state.allocated)
  rw [numbered.ids, List.filter_map] at pushed
  refine pushed.symm.trans (congrArg (List.map Int32.ofNat) (List.filter_congr fun j inRange => ?_))
  have below := List.mem_range.mp inRange
  have unreached : ¬ N.toNatClampNeg ≤ j :=
    Nat.not_le_of_lt (Nat.lt_of_lt_of_le below numbered.bounded)
  change stays _ (Int32.ofNat j) = _
  rw [stays_ofNat (numbered.small below), decide_eq_decide]
  exact or_iff_left unreached

end Ids

/-! ## Numbers and owners -/

section Steps

variable {N : Int32} {state next : State} {nodes kept ahead : List Nat} {address : Nat}

/-- Moving on without touching an object. -/
theorem Numbered.move (numbered : Numbered N state nodes) (sameHeap : next.heap = state.heap)
    (sameAllocated : next.allocated = state.allocated) : Numbered N next nodes := by
  constructor
  · rw [sameHeap]
    exact numbered.formed
  · rw [sameHeap, sameAllocated]
    exact numbered.owned
  · rw [sameAllocated]
    exact numbered.listed
  · rw [sameHeap, sameAllocated]
    exact numbered.ids
  · rw [sameAllocated]
    exact numbered.bounded

/-- Freeing an object of the list. -/
theorem Numbered.free {after : Heap} (numbered : Numbered N state (kept ++ address :: ahead))
    (formed : WellFormed after (kept ++ ahead)) (sameData : after.data = state.heap.data)
    (events : after.events = state.heap.events ++ [.unlinked address, .freed address])
    (sameHeap : next.heap = after) (sameAllocated : next.allocated = state.allocated) :
    Numbered N next (kept ++ ahead) := by
  subst after
  have shorter : (kept ++ ahead).Sublist (kept ++ address :: ahead) :=
    (List.sublist_cons_self address ahead).append_left kept
  refine ⟨formed, ?_, ?_, ?_, ?_⟩
  · intro other member
    rw [sameAllocated] at member
    have before := numbered.owned other member
    rw [events, List.count_append, before]
    by_cases same : other = address
    · subst other
      have gone : address ∉ kept ++ ahead := by
        intro listed
        exact numbered.formed.occurs_once
          (List.mem_cons_of_mem _ (List.mem_map_of_mem listed))
      rw [if_pos (List.mem_append_right _ List.mem_cons_self), if_neg gone]
      simp
    · have elsewhere : other ∈ kept ++ address :: ahead <-> other ∈ kept ++ ahead := by
        simp [same]
      have uncounted : [Event.unlinked address, Event.freed address].count (.freed other) = 0 := by
        simp [Ne.symm same]
      rw [uncounted, Nat.add_zero]
      exact if_congr elsewhere rfl rfl
  · rw [sameAllocated]
    exact shorter.trans numbered.listed
  · rw [sameAllocated, sameData]
    exact numbered.ids
  · rw [sameAllocated]
    exact numbered.bounded

/-- A new object gets the next number. -/
theorem Numbered.add {i : Nat} {heap after : Heap} {allocated : List Nat} {pid : Int32} {name : String}
    (numbered : Numbered N ⟨.adding, i, heap, allocated⟩ allocated) (inBound : i < N.toNatClampNeg)
    (count : i = allocated.length) (unused : heap.live address = false) (clean : after.events = [])
    (formed : WellFormed after (allocated ++ [address]))
    (data : after.data = Function.update heap.data address ⟨name, pid, Int32.ofNat i⟩) :
    Numbered N ⟨.adding, i + 1, after, allocated ++ [address]⟩ (allocated ++ [address]) := by
  refine ⟨formed, ?_, List.Sublist.refl _, ?_, ?_⟩
  · intro other member
    change after.events.count _ = _
    rw [clean, if_pos member]
    rfl
  · have others : allocated.map (fun other => (after.data other).id) =
        (List.range allocated.length).map Int32.ofNat := by
      refine (List.map_congr_left fun other member => ?_).trans numbered.ids
      have apart : other ≠ address := by
        intro same
        exact absurd ((same ▸ unused).symm.trans (numbered.formed.live other member)) nofun
      rw [data, Function.update_of_ne apart]
    have own : (after.data address).id = Int32.ofNat allocated.length := by
      rw [data, Function.update_self, count]
    change (allocated ++ [address]).map (fun other => (after.data other).id) =
      (List.range (allocated ++ [address]).length).map Int32.ofNat
    rw [List.length_append, List.length_singleton, List.range_succ, List.map_append, List.map_append,
      others, List.map_singleton, List.map_singleton, own]
  · change (allocated ++ [address]).length ≤ _
    rw [List.length_append, ← count]
    exact inBound

/-- Two numbers of deletions leave the same objects when they agree on the ids
given out. -/
theorem Numbered.remaining_congr (numbered : Numbered N state nodes) {i other : Nat}
    (agree : forall j, j < state.allocated.length ->
      stays i (Int32.ofNat j) = stays other (Int32.ofNat j)) :
    remaining state i = remaining state other := by
  refine List.filter_congr fun address member => ?_
  rcases numbered.id_eq member with ⟨j, below, named⟩
  rw [named]
  exact agree j below

theorem remaining_zero (state : State) : remaining state 0 = state.allocated :=
  List.filter_eq_self.mpr fun _ _ => decide_eq_true (Or.inr (Nat.zero_le _))

/-- The walk for an odd number. -/
theorem Numbered.remaining_odd (numbered : Numbered N state nodes) {i : Nat} (odd : i % 2 = 1)
    (inBound : i < N.toNatClampNeg) :
    (remaining state i).filter
        (fun address => !selected (Int32.ofNat i) 0 (state.heap.data address)) =
      remaining state (i + 1) := by
  rw [remaining, List.filter_filter]
  refine List.filter_congr fun address member => ?_
  rcases numbered.id_eq member with ⟨j, below, named⟩
  rw [stays_succ_odd odd (inBound.trans N.toNatClampNeg_lt) named (numbered.small below), Bool.and_comm]

/-- Behind the last deletion. -/
theorem Numbered.remaining_all (numbered : Numbered N state nodes) {i : Nat}
    (outOfBound : ¬ i < N.toNatClampNeg) :
    remaining state i = remaining state N.toNatClampNeg := by
  apply numbered.remaining_congr
  intro j below
  have bounded := numbered.bounded
  rw [stays_ofNat (numbered.small below), stays_ofNat (numbered.small below), decide_eq_decide]
  omega

end Steps

/-! ## The invariant is kept -/

section Preserved

variable {N pid : Int32} {i : Nat} {heap : Heap} {allocated nodes : List Nat} {address : Nat}

theorem tracked_add (tracked : Tracked N ⟨.adding, i, heap, allocated⟩) (inBound : i < N.toNatClampNeg)
    (unused : heap.live address = false) (pid : Int32) :
    Tracked N (State.add ⟨.adding, i, heap, allocated⟩ address pid) := by
  rcases tracked with ⟨nodes, numbered, all, clean, count⟩
  change nodes = allocated at all
  subst nodes
  rcases addObject_spec numbered.formed unused pid (Int32.ofNat i) with
    ⟨after, added, formed, data, _, events⟩
  have extended := numbered.add inBound count unused (events.trans clean) formed data
  have result : State.add ⟨.adding, i, heap, allocated⟩ address pid =
      ⟨.adding, i + 1, after, allocated ++ [address]⟩ := by
    rw [State.add, added]
    rfl
  rw [result]
  refine ⟨allocated ++ [address], extended, rfl, events.trans clean, ?_⟩
  change i + 1 = (allocated ++ [address]).length
  rw [List.length_append, List.length_singleton]
  exact congrArg (· + 1) count

theorem tracked_addingDone (tracked : Tracked N ⟨.adding, i, heap, allocated⟩) :
    Tracked N (State.addingDone ⟨.adding, i, heap, allocated⟩) := by
  rcases tracked with ⟨nodes, numbered, all, _, _⟩
  rw [State.addingDone, print_eq numbered.formed numbered.listed.length_le]
  refine ⟨nodes, numbered.move rfl rfl, ?_⟩
  exact all.trans (remaining_zero ⟨.deleting, 0, heap, allocated⟩).symm

/-- The three ways on from the head of the deleting loop. -/
theorem tracked_deleting (tracked : Tracked N ⟨.deleting, i, heap, allocated⟩) {next : State}
    (taken : step N pid ⟨.deleting, i, heap, allocated⟩ .proceed = some next) : Tracked N next := by
  rcases tracked with ⟨nodes, numbered, rest⟩
  change nodes = remaining ⟨.deleting, i, heap, allocated⟩ i at rest
  change (if (i : Int) < N.toInt then _ else _) = _ at taken
  by_cases inBound : (i : Int) < N.toInt
  · rw [if_pos inBound] at taken
    have below := lt_bound.mp inBound
    by_cases odd : i % 2 = 1
    · rw [if_pos odd] at taken
      have same := (Option.some.inj taken).symm
      rw [beginWalk_eq numbered.formed] at same
      subst next
      refine ⟨nodes, numbered.move rfl rfl, [], nodes, rfl, rfl, rfl, ?_⟩
      rw [rest]
      exact numbered.remaining_odd odd below
    · rw [if_neg odd] at taken
      have same := (Option.some.inj taken).symm
      subst next
      refine ⟨nodes, numbered.move rfl rfl, rest.trans ?_⟩
      exact numbered.remaining_congr fun j small =>
        (stays_succ_even odd (numbered.small small)).symm
  · rw [if_neg inBound] at taken
    have same := (Option.some.inj taken).symm
    rw [print_eq numbered.formed numbered.listed.length_le] at same
    subst next
    refine ⟨nodes, numbered.move rfl rfl, rest.trans ?_⟩
    exact numbered.remaining_all (fun below => inBound (lt_bound.mpr below))

/-- A pass of a walk that the deleting loop has started. -/
theorem tracked_walking {p n : Pointer} (tracked : Tracked N ⟨.walking p n, i, heap, allocated⟩)
    {next : State} (taken : step N pid ⟨.walking p n, i, heap, allocated⟩ .proceed = some next) :
    Tracked N next := by
  rcases tracked with ⟨nodes, numbered, kept, ahead, split, here, saved, goal⟩
  subst nodes p
  change (if firstOf ahead = .myList then _ else _) = _ at taken
  cases ahead with
  | nil =>
      have atHead : firstOf [] = .myList := rfl
      rw [if_pos atHead] at taken
      have same := (Option.some.inj taken).symm
      subst next
      exact ⟨kept ++ [], numbered.move rfl rfl, goal⟩
  | cons address ahead =>
      have onObject : firstOf (address :: ahead) ≠ .myList := node_ne_head address
      rw [if_neg onObject] at taken
      have same := (Option.some.inj taken).symm
      have following : n = firstOf ahead := saved.trans numbered.formed.next_node
      subst n
      cases choice : selected (Int32.ofNat i) 0 (heap.data address) with
      | false =>
          have passed := delBody_unselected numbered.formed choice
          have reached := same.trans (passWalk_eq passed numbered.formed.pass)
          rw [reached]
          refine ⟨kept ++ address :: ahead, numbered.move rfl rfl, kept ++ [address], ahead, ?_, rfl, rfl,
            ?_⟩
          · exact List.append_cons kept address ahead
          · rw [List.append_assoc, List.singleton_append]
            rw [List.filter_cons, if_pos (by rw [choice]; rfl)] at goal
            exact goal
      | true =>
          rcases delBody_selected numbered.formed choice with
            ⟨after, passed, formed, sameData, _, events⟩
          have reached := same.trans (passWalk_eq passed formed)
          rw [reached]
          refine ⟨kept ++ ahead, numbered.free formed sameData events rfl rfl, kept, ahead, rfl, rfl, rfl,
            ?_⟩
          rw [List.filter_cons, if_neg (by rw [choice]; exact Bool.false_ne_true)] at goal
          rw [remaining, sameData]
          exact goal

/-- A pass of the walk of `mylistopt_exit`. -/
theorem tracked_unloading {p n : Pointer} (tracked : Tracked N ⟨.unloading p n, i, heap, allocated⟩)
    {next : State} (taken : step N pid ⟨.unloading p n, i, heap, allocated⟩ .proceed = some next) :
    Tracked N next := by
  rcases tracked with ⟨nodes, numbered, here, saved⟩
  subst p
  change (if firstOf nodes = .myList then _ else _) = _ at taken
  cases nodes with
  | nil =>
      have atHead : firstOf [] = .myList := rfl
      rw [if_pos atHead] at taken
      have same := (Option.some.inj taken).symm
      rw [print_eq numbered.formed numbered.listed.length_le] at same
      subst next
      exact ⟨[], numbered.move rfl rfl, rfl⟩
  | cons address ahead =>
      have onObject : firstOf (address :: ahead) ≠ .myList := node_ne_head address
      rw [if_neg onObject] at taken
      have same := (Option.some.inj taken).symm
      have unpassed : Numbered N _ ([] ++ address :: ahead) := numbered
      have following : n = firstOf ahead := saved.trans unpassed.formed.next_node
      subst n
      rcases delBody_selected unpassed.formed (selected_all 0 (heap.data address)) with
        ⟨after, passed, formed, sameData, _, events⟩
      have reached := same.trans (passWalk_eq passed formed)
      rw [reached]
      exact ⟨ahead, unpassed.free formed sameData events rfl rfl, rfl, rfl⟩

/-- Every step keeps the invariant, unless the thread cannot be created while
there are objects. -/
theorem step_tracked (state : State) (label : Label) (next : State) (tracked : Tracked N state)
    (met : CreatesOrEmpty state label) (taken : step N pid state label = some next) :
    Tracked N next := by
  rcases state with ⟨point, i, heap, allocated⟩
  cases point with
  | adding =>
      cases label with
      | kzalloc address =>
          rcases Option.ite_none_right_eq_some.mp taken with ⟨guards, same⟩
          rw [← Option.some.inj same]
          exact tracked_add tracked (lt_bound.mp guards.1) guards.2 pid
      | kzallocFails =>
          rcases Option.ite_none_right_eq_some.mp taken with ⟨_, same⟩
          rw [← Option.some.inj same]
          exact tracked_addingDone tracked
      | proceed =>
          rcases Option.ite_none_left_eq_some.mp taken with ⟨_, same⟩
          rw [← Option.some.inj same]
          exact tracked_addingDone tracked
      | kthreadCreate | kthreadCreateFails | exit => cases taken
  | deleting =>
      cases label with
      | proceed => exact tracked_deleting tracked taken
      | kzalloc | kzallocFails | kthreadCreate | kthreadCreateFails | exit => cases taken
  | walking p n =>
      cases label with
      | proceed => exact tracked_walking tracked taken
      | kzalloc | kzallocFails | kthreadCreate | kthreadCreateFails | exit => cases taken
  | creating =>
      rcases tracked with ⟨nodes, numbered, rest⟩
      cases label with
      | kthreadCreate =>
          rw [← Option.some.inj taken]
          exact ⟨nodes, numbered.move rfl rfl, rest⟩
      | kthreadCreateFails err =>
          rcases Option.ite_none_right_eq_some.mp taken with ⟨_, same⟩
          rw [← Option.some.inj same]
          exact ⟨nodes, numbered.move rfl rfl, met err rfl⟩
      | kzalloc | kzallocFails | proceed | exit => cases taken
  | loaded =>
      rcases tracked with ⟨nodes, numbered, _⟩
      cases label with
      | exit =>
          have same := (Option.some.inj taken).symm.trans (beginWalk_eq numbered.formed)
          rw [same]
          exact ⟨nodes, numbered.move rfl rfl, rfl, rfl⟩
      | kzalloc | kzallocFails | proceed | kthreadCreate | kthreadCreateFails => cases taken
  | unloading p n =>
      cases label with
      | proceed => exact tracked_unloading tracked taken
      | kzalloc | kzallocFails | kthreadCreate | kthreadCreateFails | exit => cases taken
  | failed | unloaded | oopsed => cases label <;> cases taken

end Preserved

/-- The invariant gives every object its owner. -/
theorem owning_of_tracked {N : Int32} (state : State) (tracked : Tracked N state) :
    Exists fun nodes => Owning state nodes := by
  rcases tracked with ⟨nodes, numbered, stage⟩
  rcases state with ⟨point, i, heap, allocated⟩
  have freedOnce (gone : nodes = []) (address : Nat) (member : address ∈ allocated) :
      heap.events.count (.freed address) = 1 := by
    have counted := numbered.owned address member
    rw [gone] at counted
    exact counted
  refine ⟨nodes, ?_, numbered.formed, numbered.owned, ?_, ?_, ?_⟩
  · intro fault
    change point = .oopsed at fault
    subst point
    exact stage
  · intro after
    cases point with
    | creating | loaded =>
        change nodes = _ at stage
        rw [stage]
        exact numbered.evens
    | failed err =>
        change allocated = [] at stage
        subst allocated
        rw [List.sublist_nil.mp numbered.listed]
        rfl
    | adding | deleting | walking | unloading | unloaded | oopsed => exact after.elim
  · intro there
    change point = .unloaded at there
    subst point
    exact freedOnce stage
  · intro err there address member
    change point = .failed err at there
    subst point
    change allocated = [] at stage
    rw [stage] at member
    exact absurd member List.not_mem_nil

theorem createFails_eq {N pid err : Int32} {state next : State}
    (taken : step N pid state (.kthreadCreateFails err) = some next) :
    state.point = .creating /\ next = { state with point := .failed err } := by
  rcases state with ⟨point, i, heap, allocated⟩
  cases point with
  | creating =>
      rcases Option.ite_none_right_eq_some.mp taken with ⟨_, same⟩
      exact ⟨rfl, (Option.some.inj same).symm⟩
  | adding | deleting | walking | loaded | failed | unloading | unloaded | oopsed => cases taken

/-- The object that was allocated first survives all deletions: its id is 0. -/
theorem Numbered.first_remains {N : Int32} {state : State} {nodes others : List Nat} {first : Nat}
    (numbered : Numbered N state nodes) (split : state.allocated = first :: others) (i : Nat) :
    first ∈ remaining state i := by
  have ids := numbered.ids
  rw [split, List.length_cons, List.range_succ_eq_map, List.map_cons, List.map_cons] at ids
  have named : (state.heap.data first).id = Int32.ofNat 0 := (List.cons.inj ids).1
  refine List.mem_filter.mpr ⟨?_, ?_⟩
  · rw [split]
    exact List.mem_cons_self
  · rw [named]
    exact decide_eq_true (Or.inl rfl)

/-- When the thread cannot be created, that object is left behind. -/
theorem failed_leaves_first {N pid : Int32} (state : State) (label : Label) (next : State)
    (tracked : Tracked N state) (missed : ¬ CreatesOrEmpty state label)
    (taken : step N pid state label = some next) : ¬ Exists fun nodes => Owning next nodes := by
  unfold CreatesOrEmpty at missed
  push Not at missed
  rcases missed with ⟨err, failing, nonempty⟩
  subst label
  rcases createFails_eq taken with ⟨there, same⟩
  rw [same]
  rintro ⟨listed, owning⟩
  rcases tracked with ⟨nodes, numbered, stage⟩
  have rest : nodes = remaining state N.toNatClampNeg := by
    unfold Stage at stage
    rw [there] at stage
    exact stage
  rcases List.exists_cons_of_ne_nil nonempty with ⟨first, others, split⟩
  have member : first ∈ state.allocated := by
    rw [split]
    exact List.mem_cons_self
  have unfreed := numbered.owned first member
  rw [rest, if_pos (numbered.first_remains split _)] at unfreed
  have freed := owning.failed err rfl first member
  exact absurd (unfreed.symm.trans freed) Nat.zero_ne_one

theorem initial_tracked (N : Int32) : Tracked N initial := by
  refine ⟨[], ⟨⟨⟨?_, rfl, rfl⟩, nofun⟩, nofun, List.Sublist.refl _, rfl, Nat.zero_le _⟩, rfl, rfl, rfl⟩
  exact List.nodup_singleton _

/-- A run keeps the invariant until the thread cannot be created, and ends
there. -/
theorem run_tracked_or_failed {N pid : Int32} {labels : List Label} {final : State}
    (completed : run (step N pid) initial labels = some final) :
    Tracked N final \/ Exists fun err => final.point = .failed err := by
  refine invariant_of_run (step N pid)
    (fun state => Tracked N state \/ Exists fun err => state.point = .failed err) ?_
    (Or.inl (initial_tracked N)) completed
  intro state label next reached taken
  rcases reached with tracked | ⟨err, ended⟩
  · by_cases met : CreatesOrEmpty state label
    · exact Or.inl (step_tracked state label next tracked met taken)
    · unfold CreatesOrEmpty at met
      push Not at met
      rcases met with ⟨err, failing, _⟩
      subst label
      exact Or.inr ⟨err, congrArg State.point (createFails_eq taken).2⟩
  · rcases state with ⟨point, i, heap, allocated⟩
    change point = .failed err at ended
    subst point
    cases label <;> cases taken

/-- For every bound, every run of the module and every failure in it: the
module owns its objects in every state exactly when `kthread_create` does not
fail, or fails before there was an object.  Wherever the allocations stop,
`mylistopt_init` gets to `kthread_create`, and `mylistopt_exit` to its end. -/
theorem list_owns_nodes_iff (N pid : Int32) :
    (forall labels,
      AlongRun (step N pid) (fun state => Exists fun nodes => Owning state nodes) initial labels <->
        RunMeets (step N pid) CreatesOrEmpty initial labels) /\
    (forall addresses : List Nat, addresses.Nodup -> addresses.length ≤ N.toNatClampNeg ->
      Exists fun stop => Exists fun stopped => Exists fun final =>
        run (step N pid) initial (addresses.map .kzalloc ++ [stop]) = some stopped /\
          Repeats (step N pid) .proceed stopped final /\
          final.point = .creating /\ final.allocated = addresses) /\
    forall labels state, run (step N pid) initial labels = some state -> state.point = .loaded ->
      Exists fun started => Exists fun final => step N pid state .exit = some started /\
        Repeats (step N pid) .proceed started final /\ final.point = .unloaded := by
  refine ⟨fun labels => ?_, init_completes, fun labels state completed there => ?_⟩
  · exact alongRun_iff_of_breaks (step N pid) step_tracked owning_of_tracked failed_leaves_first labels
      (initial_tracked N)
  · rcases state with ⟨point, i, heap, allocated⟩
    change point = .loaded at there
    subst point
    rcases run_tracked_or_failed completed with ⟨nodes, numbered, _⟩ | ⟨err, ended⟩
    · exact unloading_completes numbered.formed
    · cases ended

/-- The second allocation fails, and then the thread cannot be created. -/
def strandedRun : List Label :=
  [.kzalloc 0, .kzallocFails] ++ List.replicate 201 .proceed ++ [.kthreadCreateFails (-12)]

theorem list_owns_nodes_stranded :
    ¬ AlongRun (step 100 40) (fun state => Exists fun nodes => Owning state nodes) initial strandedRun := by
  intro along
  have ends : (run (step 100 40) initial strandedRun).map
      (fun state => (state.point, state.allocated, state.heap.events)) =
        some (.failed (-12), [0], []) := by
    decide +kernel
  rcases Option.map_eq_some_iff.mp ends with ⟨final, completed, values⟩
  rcases Prod.mk.inj values with ⟨there, rest⟩
  rcases Prod.mk.inj rest with ⟨allocated, events⟩
  rcases AlongRun.final (step 100 40) along completed with ⟨nodes, owning⟩
  have listed : 0 ∈ final.allocated := by
    rw [allocated]
    exact List.mem_singleton_self 0
  have freed := owning.failed (-12) there 0 listed
  rw [events] at freed
  exact absurd freed Nat.zero_ne_one

end ListModule
end KernelStudy
