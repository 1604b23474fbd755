import KernelStudy.ListModule.Program

namespace KernelStudy
namespace ListModule

open LinkedRing

/-!
# Deleting while walking

`mylistopt_del` frees the object that it stands on.  Its way on is the pointer
`n` that was read before, and `list_del` changes the links of the neighbours
only, so `n` is still the next object of the shortened list, or its head.  The
walk is followed by splitting the list in two: the objects that have been
passed and kept, and the objects that lie ahead.
-/

/-! ## Well-formed lists -/

/-- The objects are linked to a ring with the head, and all are allocated. -/
structure WellFormed (heap : Heap) (nodes : List Nat) : Prop where
  ring : Ring heap.links .myList (nodes.map Pointer.node)
  live : forall address, address ∈ nodes -> heap.live address = true

/-- The pointer to the first of some objects, or to the head behind them. -/
def firstOf : List Nat -> Pointer
  | [] => .myList
  | address :: _ => .node address

theorem node_ne_head (address : Nat) : Pointer.node address ≠ .myList := nofun

@[simp] theorem accessible_withNext (heap : Heap) (pointer target other : Pointer) :
    (heap.withNext pointer target).accessible other = heap.accessible other := by
  cases other <;> rfl

@[simp] theorem accessible_withPrev (heap : Heap) (pointer target other : Pointer) :
    (heap.withPrev pointer target).accessible other = heap.accessible other := by
  cases other <;> rfl

section Access

variable {heap : Heap} {pointer : Pointer} {nodes kept ahead : List Nat} {address : Nat}

theorem Heap.next_eq (reachable : heap.accessible pointer = true) :
    heap.next pointer = some (heap.links.next pointer) :=
  if_pos reachable

theorem Heap.prev_eq (reachable : heap.accessible pointer = true) :
    heap.prev pointer = some (heap.links.prev pointer) :=
  if_pos reachable

theorem Heap.setNext_eq (reachable : heap.accessible pointer = true) (target : Pointer) :
    heap.setNext pointer target = some (heap.withNext pointer target) :=
  if_pos reachable

theorem Heap.setPrev_eq (reachable : heap.accessible pointer = true) (target : Pointer) :
    heap.setPrev pointer target = some (heap.withPrev pointer target) :=
  if_pos reachable

theorem Heap.object_eq (live : heap.live address = true) :
    heap.object address = some (heap.data address) :=
  if_pos live

/-- The head and the objects of the list can be accessed. -/
theorem WellFormed.accessible (formed : WellFormed heap nodes)
    (member : pointer ∈ Pointer.myList :: nodes.map Pointer.node) : heap.accessible pointer = true := by
  rcases List.mem_cons.mp member with head | object
  · subst pointer
    rfl
  · rcases List.mem_map.mp object with ⟨address, listed, same⟩
    subst pointer
    exact formed.live address listed

theorem firstOf_mem (ahead : List Nat) : firstOf ahead ∈ Pointer.myList :: ahead.map Pointer.node := by
  cases ahead with
  | nil => exact List.mem_cons_self
  | cons address rest => exact List.mem_cons_of_mem _ List.mem_cons_self

/-- A path begins with the first of its objects. -/
theorem next_of_path {start : Pointer} (path : Path heap.links start (ahead.map Pointer.node) .myList) :
    heap.links.next start = firstOf ahead := by
  cases ahead with
  | nil => exact path.1
  | cons address rest => exact path.1.1

/-- The first object of the list, read from the head. -/
theorem WellFormed.first (formed : WellFormed heap nodes) :
    heap.next .myList = some (firstOf nodes) :=
  (Heap.next_eq rfl).trans (congrArg some (next_of_path formed.ring.path))

/-- The object behind another one on the list. -/
theorem WellFormed.next_node (formed : WellFormed heap (kept ++ address :: ahead)) :
    heap.links.next (.node address) = firstOf ahead := by
  have path := formed.ring.path
  rw [List.map_append, List.map_cons] at path
  exact next_of_path (path_append.mp path).2

end Access

/-! ## One object -/

section Delete

variable {heap : Heap} {kept ahead : List Nat} {address : Nat}

/-- The neighbours of an object are other objects of the list, or its head. -/
theorem WellFormed.neighbours (formed : WellFormed heap (kept ++ address :: ahead)) :
    (heap.links.prev (.node address) ∈ Pointer.myList :: (kept ++ ahead).map Pointer.node) /\
      heap.links.next (.node address) ∈ Pointer.myList :: (kept ++ ahead).map Pointer.node := by
  have path := formed.ring.path
  rw [List.map_append, List.map_cons] at path
  have parts := path_append.mp path
  rw [List.map_append]
  constructor
  · rcases List.mem_cons.mp parts.1.prev_mem with head | object
    · rw [head]
      exact List.mem_cons_self
    · exact List.mem_cons_of_mem _ (List.mem_append_left _ object)
  · rcases List.mem_append.mp parts.2.next_mem with object | head
    · exact List.mem_cons_of_mem _ (List.mem_append_right _ object)
    · rw [List.mem_singleton.mp head]
      exact List.mem_cons_self

/-- An object occurs once on the list. -/
theorem WellFormed.occurs_once (formed : WellFormed heap (kept ++ address :: ahead)) :
    Pointer.node address ∉ Pointer.myList :: (kept ++ ahead).map Pointer.node := by
  have nodup := (List.nodup_cons.mp formed.ring.nodup).2
  rw [List.map_append, List.map_cons, List.nodup_middle, ← List.map_append] at nodup
  intro member
  rcases List.mem_cons.mp member with head | object
  · cases head
  · exact (List.nodup_cons.mp nodup).1 object

/-- Other objects of the list, and the head, can be accessed. -/
theorem WellFormed.accessible_other (formed : WellFormed heap (kept ++ address :: ahead))
    {pointer : Pointer} (member : pointer ∈ Pointer.myList :: (kept ++ ahead).map Pointer.node) :
    heap.accessible pointer = true := by
  apply formed.accessible
  rcases List.mem_cons.mp member with head | object
  · rw [head]
    exact List.mem_cons_self
  · rcases List.mem_map.mp object with ⟨other, listed, same⟩
    refine List.mem_cons_of_mem _ (List.mem_map.mpr ⟨other, ?_, same⟩)
    rcases List.mem_append.mp listed with earlier | later
    · exact List.mem_append_left _ earlier
    · exact List.mem_append_right _ (List.mem_cons_of_mem _ later)

/-- Unlinking an object of the list. -/
theorem listDel_spec (formed : WellFormed heap (kept ++ address :: ahead)) :
    Exists fun after => listDel heap address = some after /\
      Ring after.links .myList ((kept ++ ahead).map Pointer.node) /\
      after.data = heap.data /\ after.live = heap.live /\
      after.events = heap.events ++ [.unlinked address] := by
  have entry : heap.accessible (.node address) = true :=
    formed.live address (List.mem_append_right _ List.mem_cons_self)
  rcases formed.neighbours with ⟨prevListed, nextListed⟩
  have prevOpen := formed.accessible_other prevListed
  have nextOpen := formed.accessible_other nextListed
  have prevOther : heap.links.prev (.node address) ≠ .node address :=
    fun same => formed.occurs_once (same ▸ prevListed)
  have nextOther : heap.links.next (.node address) ≠ .node address :=
    fun same => formed.occurs_once (same ▸ nextListed)
  let joined := (heap.withPrev (heap.links.next (.node address)) (heap.links.prev (.node address))).withNext
    (heap.links.prev (.node address)) (heap.links.next (.node address))
  let poisoned := (joined.withNext (.node address) .poison1).withPrev (.node address) .poison2
  refine ⟨poisoned.record (.unlinked address), ?_, ?_, rfl, rfl, rfl⟩
  · rw [listDel, Heap.prev_eq entry, Heap.next_eq entry]
    simp only [Option.bind_eq_bind, Option.bind_some, Heap.setPrev_eq nextOpen]
    rw [Heap.setNext_eq (by rw [accessible_withPrev]; exact prevOpen)]
    simp only [Option.bind_some]
    rw [Heap.setNext_eq (by rw [accessible_withNext, accessible_withPrev]; exact entry)]
    simp only [Option.bind_some]
    rw [Heap.setPrev_eq
      (by rw [accessible_withNext, accessible_withNext, accessible_withPrev]; exact entry)]
    rfl
  · have ring := formed.ring
    rw [List.map_append, List.map_cons] at ring
    rw [List.map_append]
    refine ring.remove ⟨?_, ?_, ?_, ?_⟩
    · exact (Function.update_of_ne prevOther _ _).trans (Function.update_self _ _ _)
    · exact (Function.update_of_ne nextOther _ _).trans (Function.update_self _ _ _)
    · intro place notPrev notEntry
      exact (Function.update_of_ne notEntry _ _).trans (Function.update_of_ne notPrev _ _)
    · intro place notNext notEntry
      exact (Function.update_of_ne notEntry _ _).trans (Function.update_of_ne notNext _ _)

end Delete

/-! ## The walk -/

/-- The objects that a call deletes: `id == pMyobj->id || del_all == 1`. -/
def selected (id delAll : Int32) (object : MyStruct) : Bool :=
  decide (id = object.id \/ delAll = 1)

theorem selected_all (id : Int32) (object : MyStruct) : selected id 1 object = true :=
  decide_eq_true (Or.inr rfl)

/-- What a walk over the objects ahead has done: the selected ones of them were
unlinked and freed, one after the other, and nothing else has changed. -/
structure Deleted (select : MyStruct -> Bool) (heap : Heap) (kept ahead : List Nat) (after : Heap) :
    Prop where
  formed : WellFormed after (kept ++ ahead.filter fun address => !select (heap.data address))
  data : after.data = heap.data
  live : forall address, after.live address =
    (heap.live address && !(decide (address ∈ ahead) && select (heap.data address)))
  events : after.events = heap.events ++
    (ahead.filter fun address => select (heap.data address)).flatMap
      fun address => [.unlinked address, .freed address]

section Walk

variable {heap : Heap} {kept ahead : List Nat} {address fuel : Nat} {id delAll : Int32}

/-- The body on an object that is not selected. -/
theorem delBody_unselected (formed : WellFormed heap (kept ++ address :: ahead))
    (spared : selected id delAll (heap.data address) = false) :
    delBody id delAll heap (.node address) = some heap := by
  have live := formed.live address (List.mem_append_right _ List.mem_cons_self)
  have unmatched : ¬ (id = (heap.data address).id \/ delAll = 1) := of_decide_eq_false spared
  simp only [delBody, listEntry, Heap.object_eq live, Option.bind_eq_bind, Option.bind_some]
  exact if_neg unmatched

/-- The body on a selected object: the object is still allocated when its
fields are printed and when it is freed. -/
theorem delBody_selected (formed : WellFormed heap (kept ++ address :: ahead))
    (chosen : selected id delAll (heap.data address) = true) :
    Exists fun after => delBody id delAll heap (.node address) = some after /\
      WellFormed after (kept ++ ahead) /\ after.data = heap.data /\
      after.live = Function.update heap.live address false /\
      after.events = heap.events ++ [.unlinked address, .freed address] := by
  have live := formed.live address (List.mem_append_right _ List.mem_cons_self)
  have matched : id = (heap.data address).id \/ delAll = 1 := of_decide_eq_true chosen
  rcases listDel_spec formed with ⟨unlinked, removed, ring, sameData, sameLive, events⟩
  have stillLive : unlinked.live address = true := by rw [sameLive]; exact live
  refine ⟨{ unlinked with live := Function.update unlinked.live address false }.record
    (.freed address), ?_, ⟨ring, ?_⟩, sameData, ?_, ?_⟩
  · simp only [delBody, listEntry, Heap.object_eq live, Option.bind_eq_bind, Option.bind_some]
    rw [if_pos matched, removed]
    simp only [Option.bind_some, Heap.object_eq stillLive]
    exact if_pos stillLive
  · intro other listed
    have apart : other ≠ address := by
      intro same
      exact formed.occurs_once
        (List.mem_cons_of_mem _ (List.mem_map.mpr ⟨other, listed, congrArg Pointer.node same⟩))
    have reachable := formed.accessible_other
      (List.mem_cons_of_mem _ (List.mem_map.mpr ⟨other, listed, rfl⟩))
    refine (Function.update_of_ne apart _ _).trans ?_
    rw [sameLive]
    exact reachable
  · exact congrArg (fun lives => Function.update lives address false) sameLive
  · exact (congrArg (· ++ [Event.freed address]) events).trans (List.append_assoc _ _ _)

/-- One pass of the walk goes on from the saved pointer. -/
theorem listForEachSafe_pass {body : Heap -> Pointer -> Option Heap} {after : Heap}
    {n : Pointer} (done : body heap (.node address) = some after)
    (reachable : after.accessible n = true) :
    listForEachSafe body (fuel + 1) heap (.node address) n =
      listForEachSafe body fuel after n (after.links.next n) := by
  rw [listForEachSafe, if_neg (node_ne_head address), done]
  simp only [Option.bind_eq_bind, Option.bind_some, Heap.next_eq reachable]

/-- An object that has been passed. -/
theorem WellFormed.pass (formed : WellFormed heap (kept ++ address :: ahead)) :
    WellFormed heap ((kept ++ [address]) ++ ahead) := by
  rw [List.append_assoc]
  exact formed

theorem WellFormed.accessible_firstOf (formed : WellFormed heap (kept ++ ahead)) :
    heap.accessible (firstOf ahead) = true := by
  apply formed.accessible
  rw [List.map_append]
  rcases List.mem_cons.mp (firstOf_mem ahead) with head | object
  · rw [head]
    exact List.mem_cons_self
  · exact List.mem_cons_of_mem _ (List.mem_append_right _ object)

/-- Passing over an object that is kept. -/
theorem Deleted.skip {select : MyStruct -> Bool} {after : Heap}
    (spared : select (heap.data address) = false)
    (deleted : Deleted select heap (kept ++ [address]) ahead after) :
    Deleted select heap kept (address :: ahead) after := by
  refine ⟨?_, deleted.data, fun other => ?_, ?_⟩
  · have formed := deleted.formed
    rw [List.append_assoc] at formed
    rw [List.filter_cons_of_pos (by rw [spared]; rfl)]
    exact formed
  · rw [deleted.live other]
    by_cases same : other = address
    · subst other
      rw [spared, Bool.and_false, Bool.and_false]
    · rw [decide_eq_decide.mpr (List.mem_cons.trans (or_iff_right same))]
  · rw [List.filter_cons_of_neg (by rw [spared]; exact Bool.false_ne_true)]
    exact deleted.events

/-- Going on after an object was unlinked and freed. -/
theorem Deleted.take {select : MyStruct -> Bool} {between after : Heap}
    (chosen : select (heap.data address) = true) (sameData : between.data = heap.data)
    (live : between.live = Function.update heap.live address false)
    (events : between.events = heap.events ++ [.unlinked address, .freed address])
    (deleted : Deleted select between kept ahead after) :
    Deleted select heap kept (address :: ahead) after := by
  refine ⟨?_, deleted.data.trans sameData, fun other => ?_, ?_⟩
  · have formed := deleted.formed
    rw [sameData] at formed
    rw [List.filter_cons_of_neg (by rw [chosen]; exact Bool.false_ne_true)]
    exact formed
  · rw [deleted.live other, live, sameData]
    by_cases same : other = address
    · subst other
      rw [Function.update_self, chosen, decide_eq_true List.mem_cons_self, Bool.and_self,
        Bool.not_true, Bool.and_false, Bool.false_and]
    · rw [Function.update_of_ne same, decide_eq_decide.mpr (List.mem_cons.trans (or_iff_right same))]
  · rw [List.filter_cons, if_pos chosen, List.flatMap_cons, deleted.events, events, sameData,
      List.append_assoc]

/-- The walk over the objects ahead.  The induction is on these; an object that
is kept moves to the objects that have been passed. -/
theorem listForEachSafe_spec (id delAll : Int32) (formed : WellFormed heap (kept ++ ahead)) :
    Exists fun after => (forall fuel, ahead.length ≤ fuel ->
      listForEachSafe (delBody id delAll) fuel heap (firstOf ahead) (heap.links.next (firstOf ahead)) =
        some after) /\
      Deleted (selected id delAll) heap kept ahead after := by
  induction ahead generalizing heap kept with
  | nil =>
      refine ⟨heap, fun fuel _ => ?_, formed, rfl, fun address => ?_, ?_⟩
      · cases fuel <;> exact if_pos rfl
      · simp
      · exact (List.append_nil _).symm
  | cons address rest inductionHypothesis =>
      -- the saved pointer is the next object of the list that the body leaves
      have saved : heap.links.next (firstOf (address :: rest)) = firstOf rest := formed.next_node
      rw [saved]
      cases choice : selected id delAll (heap.data address) with
      | false =>
          have passed := delBody_unselected formed choice
          rcases inductionHypothesis formed.pass with ⟨after, walks, deleted⟩
          refine ⟨after, fun fuel enough => ?_, deleted.skip choice⟩
          cases fuel with
          | zero => exact absurd enough (Nat.not_succ_le_zero _)
          | succ fuel =>
              rw [firstOf, listForEachSafe_pass passed formed.pass.accessible_firstOf]
              exact walks fuel (Nat.le_of_succ_le_succ enough)
      | true =>
          rcases delBody_selected formed choice with ⟨between, passed, shorter, sameData, live, events⟩
          rcases inductionHypothesis shorter with ⟨after, walks, deleted⟩
          refine ⟨after, fun fuel enough => ?_, deleted.take choice sameData live events⟩
          cases fuel with
          | zero => exact absurd enough (Nat.not_succ_le_zero _)
          | succ fuel =>
              rw [firstOf, listForEachSafe_pass passed shorter.accessible_firstOf]
              exact walks fuel (Nat.le_of_succ_le_succ enough)

/-- A call of `mylistopt_del` on a well-formed list. -/
theorem mylistoptDel_spec {nodes : List Nat} (id delAll : Int32) (formed : WellFormed heap nodes) :
    Exists fun after => (forall fuel, nodes.length ≤ fuel ->
      mylistoptDel fuel id delAll heap = some after) /\
      Deleted (selected id delAll) heap [] nodes after := by
  have unpassed : WellFormed heap ([] ++ nodes) := formed
  rcases listForEachSafe_spec id delAll unpassed with ⟨after, walks, deleted⟩
  refine ⟨after, fun fuel enough => ?_, deleted⟩
  have reachable := unpassed.accessible_firstOf
  rw [mylistoptDel, formed.first]
  simp only [Option.bind_eq_bind, Option.bind_some, Heap.next_eq reachable]
  exact walks fuel enough

end Walk

/-- For every well-formed list, every id and every `del_all`, the call ends,
with any fuel that covers the list.  The objects that are not selected are left
as a well-formed list in their order; the selected ones were each unlinked and
then freed, once and in list order; no other object was freed and no fields
were changed.  No access had a fault, so nothing was read from a freed object. -/
theorem mylistopt_del_exact (heap : Heap) (nodes : List Nat) (id delAll : Int32)
    (formed : WellFormed heap nodes) :
    Exists fun after => (forall fuel, nodes.length ≤ fuel ->
        mylistoptDel fuel id delAll heap = some after) /\
      WellFormed after (nodes.filter fun address => !selected id delAll (heap.data address)) /\
      after.data = heap.data /\
      (forall address, after.live address = (heap.live address &&
        !(decide (address ∈ nodes) && selected id delAll (heap.data address)))) /\
      after.events = heap.events ++
        (nodes.filter fun address => selected id delAll (heap.data address)).flatMap
          fun address => [.unlinked address, .freed address] := by
  rcases mylistoptDel_spec id delAll formed with ⟨after, ends, deleted⟩
  exact ⟨after, ends, deleted.formed, deleted.data, deleted.live, deleted.events⟩

/-- Three objects on the list; the first two have the same id. -/
def threeObjects : Heap where
  links := {
    next := fun pointer => match pointer with
      | .myList => .node 0
      | .node 0 => .node 1
      | .node 1 => .node 2
      | _ => .myList
    prev := fun pointer => match pointer with
      | .myList => .node 2
      | .node 2 => .node 1
      | .node 1 => .node 0
      | _ => .myList }
  data := fun address => ⟨"", 40, if address = 2 then 8 else 7⟩
  live := fun address => decide (address < 3)
  events := []

theorem threeObjects_wellFormed : WellFormed threeObjects [0, 1, 2] where
  ring := ⟨by decide, ⟨rfl, rfl⟩, ⟨rfl, rfl⟩, ⟨rfl, rfl⟩, rfl, rfl⟩
  live := by decide

/-- Two neighbours are deleted, the first object of the list among them. -/
theorem mylistopt_del_exact_neighbours :
    WellFormed threeObjects [0, 1, 2] /\
      Exists fun after => (forall fuel, 3 ≤ fuel -> mylistoptDel fuel 7 0 threeObjects = some after) /\
        WellFormed after [2] /\ after.live 0 = false /\ after.live 1 = false /\ after.live 2 = true /\
        after.events = [.unlinked 0, .freed 0, .unlinked 1, .freed 1] := by
  refine ⟨threeObjects_wellFormed, ?_⟩
  rcases mylistopt_del_exact threeObjects [0, 1, 2] 7 0 threeObjects_wellFormed with
    ⟨after, ends, formed, _, live, events⟩
  exact ⟨after, ends, formed, live 0, live 1, live 2, events⟩

end ListModule
end KernelStudy
