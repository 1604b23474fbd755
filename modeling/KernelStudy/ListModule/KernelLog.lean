import KernelStudy.ListModule.Lifecycle

namespace KernelStudy
namespace ListModule
namespace KernelLog

/-!
# The log of the list module

Everything that the module does can be seen in the kernel log: the objects as they
were added, each object that is deleted, the objects that are left, and at the end
that nothing is left.  The fields of a deleted object are printed after it was
unlinked and before it is freed.

The functions of the module are run one after the other here, with the lines that
they print.  Only the allocator and the creation of the thread are given from
outside: the addresses of the objects, how many allocations succeed, and what
`kthread_create` returns.
-/

/-! ## The functions with their lines -/

inductive LogLine where
  | entry
  | allocFails
  | object (id pid : Int32) (name : String)
  | delHeading
  | deleted (id : Int32) (name : String)
  | afterHeading
  | createFails
  | exitHeading
  | anythingElse
  | destroyHeading
  | delHappens (pid : Int32)
deriving DecidableEq, Repr

structure Logged where
  heap : Heap
  log : List LogLine

def Logged.print (logged : Logged) (lines : List LogLine) : Logged :=
  { logged with log := logged.log ++ lines }

/-- The loop of `mylistopt_add_all`, with the number of passes that are left. -/
def addAll (address : Nat -> Nat) (granted : Nat) (pid : Int32) : Nat -> Nat -> Logged -> Option Logged
  | 0, _, logged => some logged
  | left + 1, i, logged =>
      if granted ≤ i then some (logged.print [.allocFails])
      else (addObject logged.heap (address i) pid (Int32.ofNat i)).bind fun heap =>
        addAll address granted pid left (i + 1) ⟨heap, logged.log⟩

/-- `mylistopt_print`. -/
def print (fuel : Nat) (logged : Logged) : Option Logged :=
  (mylistoptPrint fuel logged.heap).map fun objects =>
    logged.print (objects.map fun object => .object object.id object.pid object.name)

/-- The body of the walk in `mylistopt_del`. -/
def delBodyLogged (id delAll : Int32) (logged : Logged) (p : Pointer) : Option Logged := do
  let address ← listEntry p
  let object ← logged.heap.object address
  if id = object.id \/ delAll = 1 then
    let heap ← listDel logged.heap address
    let printed ← heap.object address
    let heap ← kfree heap address
    return ⟨heap, logged.log ++ [.deleted printed.id printed.name]⟩
  else return logged

def walkLogged (id delAll : Int32) : Nat -> Logged -> Pointer -> Pointer -> Option Logged
  | 0, logged, p, _ => if p = .myList then some logged else none
  | fuel + 1, logged, p, n =>
      if p = .myList then some logged
      else do
        let logged ← delBodyLogged id delAll logged p
        let p := n
        let n ← logged.heap.next p
        walkLogged id delAll fuel logged p n

def del (fuel : Nat) (id delAll : Int32) (logged : Logged) : Option Logged := do
  let p ← logged.heap.next .myList
  let n ← logged.heap.next p
  walkLogged id delAll fuel logged p n

/-- The deleting loop of `mylistopt_init`. -/
def delOdds (fuel bound : Nat) (logged : Logged) : Option Logged :=
  (List.range bound).foldlM (fun logged i =>
    if i % 2 = 1 then del fuel (Int32.ofNat i) 0 logged else some logged) logged

/-- What `kthread_create` returns: an error, or the pid of the thread. -/
inductive Created where
  | error (err : Int32)
  | task (pid : Int32)

/-- `mylistopt_init` with a bound in the place of `MAX_LIST_N`: its result, and the
heap with the log. -/
def mylistoptInit (bound : Nat) (address : Nat -> Nat) (granted : Nat) (pid : Int32) (created : Created) :
    Option (Int32 × Logged) := do
  let logged ← addAll address granted pid bound 0 ⟨emptyList, [.entry]⟩
  let logged ← print bound logged
  let logged ← delOdds bound bound (logged.print [.delHeading])
  let logged ← print bound (logged.print [.afterHeading])
  match created with
  | .error err => return (err, logged.print [.createFails])
  | .task _ => return (0, logged)

/-- `mylistopt_exit` of a module whose thread has the given pid. -/
def mylistoptExit (bound : Nat) (heap : Heap) (task : Int32) : Option Logged := do
  let logged ← del bound 0 1 ⟨heap, [.exitHeading]⟩
  let logged ← print bound (logged.print [.anythingElse])
  return logged.print [.destroyHeading, .delHappens task]

/-! ## One call of `mylistopt_del` -/

/-- The line for an object, if it is selected. -/
def deletedLine (id delAll : Int32) (object : MyStruct) : List LogLine :=
  if selected id delAll object then [.deleted object.id object.name] else []

section Deletion

variable {heap : Heap} {kept ahead nodes : List Nat} {address : Nat} {log : List LogLine} {id delAll : Int32}

/-- The object is printed with the fields that it had on the list. -/
theorem delBodyLogged_eq (formed : WellFormed heap (kept ++ address :: ahead)) :
    delBodyLogged id delAll ⟨heap, log⟩ (.node address) =
      (delBody id delAll heap (.node address)).map fun after =>
        ⟨after, log ++ deletedLine id delAll (heap.data address)⟩ := by
  have live := formed.live address (List.mem_append_right _ List.mem_cons_self)
  rcases listDel_spec formed with ⟨unlinked, removed, _ring, sameData, sameLive, _events⟩
  have stillLive : unlinked.live address = true := by
    rw [sameLive]
    exact live
  cases choice : selected id delAll (heap.data address) with
  | false =>
      have unmatched : ¬ (id = (heap.data address).id \/ delAll = 1) := of_decide_eq_false choice
      rw [delBody_unselected formed choice, deletedLine, choice]
      simp only [delBodyLogged, listEntry, Heap.object_eq live, Option.bind_eq_bind, Option.bind_some,
        if_neg unmatched, Bool.false_eq_true, if_false, List.append_nil, Option.map_some, Option.pure_def]
  | true =>
      have matched : id = (heap.data address).id \/ delAll = 1 := of_decide_eq_true choice
      rw [deletedLine, choice]
      simp only [delBodyLogged, delBody, listEntry, Heap.object_eq live, Option.bind_eq_bind,
        Option.bind_some, if_pos matched, removed, Heap.object_eq stillLive, if_true, sameData]
      cases kfree unlinked address with
      | none => rfl
      | some after => rfl

/-- One pass leaves a list of the objects that were passed and those ahead. -/
theorem delBody_passes (id delAll : Int32) (formed : WellFormed heap (kept ++ address :: ahead)) :
    Exists fun after => Exists fun passed => delBody id delAll heap (.node address) = some after /\
      WellFormed after (passed ++ ahead) /\ after.data = heap.data := by
  cases choice : selected id delAll (heap.data address) with
  | false => exact ⟨heap, kept ++ [address], delBody_unselected formed choice, formed.pass, rfl⟩
  | true =>
      rcases delBody_selected formed choice with ⟨after, done, shorter, sameData, _⟩
      exact ⟨after, kept, done, shorter, sameData⟩

/-- The walk prints the selected objects in their order. -/
theorem walkLogged_eq (formed : WellFormed heap (kept ++ ahead)) {fuel : Nat} (enough : ahead.length ≤ fuel) :
    walkLogged id delAll fuel ⟨heap, log⟩ (firstOf ahead) (heap.links.next (firstOf ahead)) =
      (listForEachSafe (delBody id delAll) fuel heap (firstOf ahead)
        (heap.links.next (firstOf ahead))).map fun after =>
          ⟨after, log ++ ahead.flatMap fun address => deletedLine id delAll (heap.data address)⟩ := by
  induction ahead generalizing heap kept log fuel with
  | nil =>
      rw [List.flatMap_nil, List.append_nil, firstOf]
      cases fuel <;> simp only [walkLogged, listForEachSafe, if_true, Option.map_some]
  | cons address rest inductionHypothesis =>
      have saved : heap.links.next (firstOf (address :: rest)) = firstOf rest := formed.next_node
      rcases delBody_passes id delAll formed with ⟨between, passed, done, shorter, sameData⟩
      have printed : delBodyLogged id delAll ⟨heap, log⟩ (.node address) =
          some ⟨between, log ++ deletedLine id delAll (heap.data address)⟩ := by
        rw [delBodyLogged_eq formed, done, Option.map_some]
      have reachable := shorter.accessible_firstOf
      cases fuel with
      | zero => exact absurd enough (Nat.not_succ_le_zero _)
      | succ fuel =>
          rw [saved, firstOf, listForEachSafe_pass done reachable, walkLogged, if_neg (node_ne_head address),
            printed]
          simp only [Option.bind_eq_bind, Option.bind_some, Heap.next_eq reachable]
          rw [inductionHypothesis shorter (Nat.le_of_succ_le_succ enough), sameData, List.flatMap_cons,
            List.append_assoc]

/-- A call on a well-formed list. -/
theorem del_spec (id delAll : Int32) (formed : WellFormed heap nodes) {fuel : Nat} (enough : nodes.length ≤ fuel) :
    Exists fun after => del fuel id delAll ⟨heap, log⟩ =
        some ⟨after, log ++ nodes.flatMap fun address => deletedLine id delAll (heap.data address)⟩ /\
      WellFormed after (nodes.filter fun address => !selected id delAll (heap.data address)) /\
      after.data = heap.data := by
  have unpassed : WellFormed heap ([] ++ nodes) := formed
  rcases listForEachSafe_spec id delAll unpassed with ⟨after, walks, deleted⟩
  refine ⟨after, ?_, deleted.formed, deleted.data⟩
  have reachable := unpassed.accessible_firstOf
  rw [del]
  simp only [formed.first, Option.bind_eq_bind, Option.bind_some, Heap.next_eq reachable]
  rw [walkLogged_eq unpassed enough, walks fuel enough, Option.map_some]

end Deletion

/-! ## The numbered objects -/

/-- The object that is added in pass `i`. -/
def numbered (pid : Int32) (i : Nat) : MyStruct :=
  ⟨"this is idx " ++ toString (Int32.ofNat i).toInt, pid, Int32.ofNat i⟩

def objectLine (pid : Int32) (i : Nat) : LogLine :=
  .object (Int32.ofNat i) pid (numbered pid i).name

def delLine (pid : Int32) (i : Nat) : LogLine :=
  .deleted (Int32.ofNat i) (numbered pid i).name

/-- The list holds the objects of some passes. -/
structure Holding (address : Nat -> Nat) (pid : Int32) (heap : Heap) (passes : List Nat) : Prop where
  formed : WellFormed heap (passes.map address)
  data : forall i, i ∈ passes -> heap.data (address i) = numbered pid i
  small : forall i, i ∈ passes -> i < 2 ^ 31

section Numbered

variable {address : Nat -> Nat} {pid : Int32} {heap : Heap} {passes : List Nat} {fuel : Nat}

/-- One line for each element that passes a test. -/
theorem flatMap_guard {Element : Type} (elements : List Element) (test : Element -> Bool)
    (line : Element -> LogLine) :
    elements.flatMap (fun element => if test element then [line element] else []) =
      (elements.filter test).map line := by
  induction elements with
  | nil => rfl
  | cons element rest inductionHypothesis =>
      rw [List.flatMap_cons, inductionHypothesis, List.filter_cons]
      cases test element with
      | false => rfl
      | true => rfl

theorem ofNat_inj_of_small {i j : Nat} (first : i < 2 ^ 31) (second : j < 2 ^ 31) :
    Int32.ofNat i = Int32.ofNat j <-> i = j := by
  constructor
  · intro same
    have values := congrArg Int32.toInt same
    rw [Int32.toInt_ofNat_of_lt first, Int32.toInt_ofNat_of_lt second] at values
    omega
  · exact fun same => same ▸ rfl

theorem print_spec (holding : Holding address pid heap passes) (enough : passes.length ≤ fuel)
    (log : List LogLine) :
    print fuel ⟨heap, log⟩ = some ⟨heap, log ++ passes.map (objectLine pid)⟩ := by
  have lines : (passes.map address).map (fun place => LogLine.object (heap.data place).id (heap.data place).pid
      (heap.data place).name) = passes.map (objectLine pid) := by
    rw [List.map_map]
    apply List.map_congr_left
    intro i member
    simp only [Function.comp_apply, holding.data i member]
    rfl
  rw [print, mylistoptPrint_spec holding.formed (by rwa [List.length_map]), Option.map_some, Logged.print,
    List.map_map]
  exact congrArg (fun lines => some (Logged.mk heap (log ++ lines))) lines

/-- A call that selects the objects of some passes. -/
theorem del_passes (holding : Holding address pid heap passes) (enough : passes.length ≤ fuel)
    {id delAll : Int32} {select : Nat -> Bool}
    (chosen : forall i, i ∈ passes -> selected id delAll (numbered pid i) = select i) (log : List LogLine) :
    Exists fun after => del fuel id delAll ⟨heap, log⟩ =
        some ⟨after, log ++ (passes.filter select).map (delLine pid)⟩ /\
      Holding address pid after (passes.filter fun i => !select i) := by
  have enoughNodes : (passes.map address).length ≤ fuel := by rwa [List.length_map]
  have lines : (passes.map address).flatMap (fun place => deletedLine id delAll (heap.data place)) =
      (passes.filter select).map (delLine pid) := by
    have each : forall i, i ∈ passes -> deletedLine id delAll (heap.data (address i)) =
        if select i then [delLine pid i] else [] := by
      intro i member
      rw [holding.data i member, deletedLine, chosen i member]
      rfl
    rw [List.flatMap_map, List.flatMap_congr each]
    exact flatMap_guard passes select (delLine pid)
  have left : (passes.map address).filter (fun place => !selected id delAll (heap.data place)) =
      (passes.filter fun i => !select i).map address := by
    rw [List.filter_map]
    apply congrArg
    apply List.filter_congr
    intro i member
    rw [Function.comp_apply, holding.data i member, chosen i member]
  rcases del_spec id delAll holding.formed enoughNodes with ⟨after, done, formed, sameData⟩
  rw [lines] at done
  rw [left] at formed
  refine ⟨after, done, formed, ?_, ?_⟩
  · intro i member
    rw [sameData]
    exact holding.data i (List.mem_filter.mp member).1
  · intro i member
    exact holding.small i (List.mem_filter.mp member).1

/-- Deleting one number, whether or not it is on the list. -/
theorem del_number (holding : Holding address pid heap passes) (enough : passes.length ≤ fuel) {i : Nat}
    (small : i < 2 ^ 31) (log : List LogLine) :
    Exists fun after => del fuel (Int32.ofNat i) 0 ⟨heap, log⟩ =
        some ⟨after, log ++ (passes.filter fun j => decide (j = i)).map (delLine pid)⟩ /\
      Holding address pid after (passes.filter fun j => !decide (j = i)) := by
  refine del_passes holding enough (fun j member => ?_) log
  have number : (numbered pid j).id = Int32.ofNat j := rfl
  rw [selected, number]
  apply decide_eq_decide.mpr
  rw [ofNat_inj_of_small small (holding.small j member), or_iff_left (by decide)]
  exact eq_comm

/-- Deleting everything. -/
theorem del_everything (holding : Holding address pid heap passes) (enough : passes.length ≤ fuel)
    (log : List LogLine) :
    Exists fun after => del fuel 0 1 ⟨heap, log⟩ = some ⟨after, log ++ passes.map (delLine pid)⟩ /\
      Holding address pid after [] := by
  have all : passes.filter (fun _ => true) = passes := List.filter_true passes
  have nothing : passes.filter (fun _ => !true) = [] := List.filter_false passes
  rcases del_passes holding enough (fun i _ => selected_all 0 (numbered pid i)) log with ⟨after, done, left⟩
  rw [all] at done
  rw [nothing] at left
  exact ⟨after, done, left⟩

/-! ## The two loops of `mylistopt_init` -/

/-- The passes whose objects are left by the deleting loop after `i` rounds. -/
def leftBy (i : Nat) (j : Nat) : Bool :=
  decide (j % 2 = 0 \/ i ≤ j)

def oddBelow (count : Nat) (j : Nat) : Bool :=
  decide (j % 2 = 1 /\ j < count)

theorem range_filter_eq (count i : Nat) :
    (List.range count).filter (fun j => decide (j = i)) = if i < count then [i] else [] := by
  induction count with
  | zero => rfl
  | succ count inductionHypothesis =>
      rw [List.range_succ, List.filter_append, inductionHypothesis, List.filter_singleton]
      rcases Nat.lt_trichotomy i count with below | same | above
      · rw [if_pos below, if_pos (Nat.lt_succ_of_lt below),
          decide_eq_false (Nat.ne_of_gt below), cond_false, List.append_nil]
      · rw [same, if_neg (Nat.lt_irrefl count), if_pos (Nat.lt_succ_self count), decide_eq_true rfl, cond_true,
          List.nil_append]
      · rw [if_neg (Nat.lt_asymm above), if_neg (Nat.not_lt_of_le above),
          decide_eq_false (Nat.ne_of_lt above), cond_false, List.append_nil]

/-- An odd round deletes the object of that pass, if there is one. -/
theorem leftBy_odd {i : Nat} (odd : i % 2 = 1) (j : Nat) :
    (!decide (j = i) && leftBy i j) = leftBy (i + 1) j := by
  rw [leftBy, leftBy, ← decide_not, ← Bool.decide_and]
  apply decide_eq_decide.mpr
  omega

theorem leftBy_even {i : Nat} (even : i % 2 ≠ 1) (j : Nat) : leftBy i j = leftBy (i + 1) j := by
  apply decide_eq_decide.mpr
  omega

theorem deleted_odd {count i : Nat} (odd : i % 2 = 1) :
    ((List.range count).filter (leftBy i)).filter (fun j => decide (j = i)) = [i].filter (oddBelow count) := by
  have onlyThis : forall j, (decide (j = i) && leftBy i j) = decide (j = i) := by
    intro j
    rw [leftBy, ← Bool.decide_and]
    apply decide_eq_decide.mpr
    omega
  rw [List.filter_filter, List.filter_congr (fun j _ => onlyThis j), range_filter_eq, List.filter_singleton]
  by_cases inside : i < count
  · rw [if_pos inside, oddBelow, decide_eq_true ⟨odd, inside⟩, cond_true]
  · rw [if_neg inside, oddBelow, decide_eq_false (fun both => inside both.2), cond_false]

/-- The deleting loop, which runs to the bound wherever the allocations stopped. -/
theorem delOdds_spec {count bound : Nat} (holding : Holding address pid heap (List.range count))
    (enough : count ≤ fuel) (small : bound ≤ 2 ^ 31) (log : List LogLine) :
    Exists fun after => delOdds fuel bound ⟨heap, log⟩ =
        some ⟨after, log ++ ((List.range bound).filter (oddBelow count)).map (delLine pid)⟩ /\
      Holding address pid after ((List.range count).filter (leftBy bound)) := by
  induction bound with
  | zero =>
      have all : (List.range count).filter (leftBy 0) = List.range count := by
        apply List.filter_eq_self.mpr
        intro j _
        exact decide_eq_true (Or.inr (Nat.zero_le j))
      refine ⟨heap, ?_, all.symm ▸ holding⟩
      rw [List.range_zero, List.filter_nil, List.map_nil, List.append_nil]
      rfl
  | succ bound inductionHypothesis =>
      rcases inductionHypothesis (Nat.le_of_succ_le small) with ⟨between, reached, left⟩
      rw [delOdds] at reached ⊢
      rw [List.range_succ, List.foldlM_append, reached, List.filter_append, List.map_append, ← List.append_assoc]
      simp only [Option.bind_eq_bind, Option.bind_some, List.foldlM_cons, List.foldlM_nil]
      generalize log ++ ((List.range bound).filter (oddBelow count)).map (delLine pid) = before
      by_cases odd : bound % 2 = 1
      · have short : ((List.range count).filter (leftBy bound)).length ≤ fuel := by
          have whole := List.length_filter_le (leftBy bound) (List.range count)
          rw [List.length_range] at whole
          omega
        rcases del_number left short (show bound < 2 ^ 31 by omega) before with ⟨after, done, less⟩
        rw [deleted_odd odd] at done
        rw [List.filter_filter, List.filter_congr (fun j _ => leftBy_odd odd j)] at less
        refine ⟨after, ?_, less⟩
        rw [if_pos odd, done, Option.bind_some, Option.pure_def]
      · have nothing : [bound].filter (oddBelow count) = [] := by
          rw [List.filter_singleton, oddBelow, decide_eq_false (fun both => odd both.1), cond_false]
        rw [List.filter_congr (fun j _ => leftBy_even odd j)] at left
        refine ⟨between, ?_, left⟩
        rw [if_neg odd, nothing, List.map_nil, List.append_nil, Option.bind_some, Option.pure_def]

/-- The adding loop, from any pass on. -/
theorem addAll_spec (injective : Function.Injective address) {granted left i : Nat}
    (holding : Holding address pid heap (List.range i))
    (unused : forall j, i ≤ j -> heap.live (address j) = false) (small : i + left ≤ 2 ^ 31)
    (within : i ≤ granted) (log : List LogLine) :
    Exists fun after => addAll address granted pid left i ⟨heap, log⟩ =
        some ⟨after, log ++ if granted < i + left then [.allocFails] else []⟩ /\
      Holding address pid after (List.range (min granted (i + left))) := by
  induction left generalizing i heap with
  | zero =>
      refine ⟨heap, ?_, ?_⟩
      · rw [addAll, Nat.add_zero, if_neg (Nat.not_lt_of_le within), List.append_nil]
      · rw [Nat.add_zero, Nat.min_eq_right within]
        exact holding
  | succ left inductionHypothesis =>
      by_cases refused : granted ≤ i
      · have same : granted = i := Nat.le_antisymm refused within
        refine ⟨heap, ?_, ?_⟩
        · rw [addAll, if_pos refused, if_pos (by omega)]
          rfl
        · rw [same, Nat.min_eq_left (Nat.le_add_right _ _)]
          exact holding
      · rcases addObject_spec holding.formed (unused i (Nat.le_refl i)) pid (Int32.ofNat i) with
          ⟨between, added, formed, data, live, _events⟩
        have longer : Holding address pid between (List.range (i + 1)) := by
          rw [List.range_succ]
          refine ⟨?_, ?_, ?_⟩
          · rw [List.map_append, List.map_singleton]
            exact formed
          · intro j member
            rw [data]
            rcases List.mem_append.mp member with earlier | last
            · have below := List.mem_range.mp earlier
              rw [Function.update_of_ne (fun same => Nat.ne_of_lt below (injective same))]
              exact holding.data j earlier
            · rw [List.mem_singleton.mp last, Function.update_self]
              rfl
          · intro j member
            rcases List.mem_append.mp member with earlier | last
            · exact holding.small j earlier
            · rw [List.mem_singleton.mp last]
              omega
        have stillUnused : forall j, i + 1 ≤ j -> between.live (address j) = false := by
          intro j above
          rw [live, Function.update_of_ne (fun same => Nat.ne_of_gt above (injective same))]
          exact unused j (Nat.le_of_succ_le above)
        rcases inductionHypothesis longer stillUnused (by omega) (by omega) with ⟨after, done, held⟩
        have same : i + 1 + left = i + (left + 1) := by omega
        rw [same] at done held
        refine ⟨after, ?_, held⟩
        rw [addAll, if_neg refused, added, Option.bind_some, done]

end Numbered

/-! ## The whole log -/

def isEven (i : Nat) : Bool := decide (i % 2 = 0)

def isOdd (i : Nat) : Bool := decide (i % 2 = 1)

theorem filter_oddBelow {count bound : Nat} (within : count ≤ bound) :
    (List.range bound).filter (oddBelow count) = (List.range count).filter isOdd := by
  rcases Nat.exists_eq_add_of_le within with ⟨rest, rfl⟩
  have first : (List.range count).filter (oddBelow count) = (List.range count).filter isOdd := by
    apply List.filter_congr
    intro j member
    exact decide_eq_decide.mpr (and_iff_left (List.mem_range.mp member))
  have nothing : ((List.range rest).map (count + ·)).filter (oddBelow count) = [] := by
    rw [List.filter_eq_nil_iff]
    intro j member
    rcases List.mem_map.mp member with ⟨offset, _, same⟩
    rw [oddBelow, decide_eq_true_eq]
    omega
  rw [List.range_add, List.filter_append, first, nothing, List.append_nil]

theorem filter_leftBy {count bound : Nat} (within : count ≤ bound) :
    (List.range count).filter (leftBy bound) = (List.range count).filter isEven := by
  apply List.filter_congr
  intro j member
  have below := List.mem_range.mp member
  apply decide_eq_decide.mpr
  omega

/-- The lines of `mylistopt_init` when `count` objects were added. -/
def initLog (count bound : Nat) (pid : Int32) (created : Created) : List LogLine :=
  [.entry] ++ (if count < bound then [.allocFails] else []) ++ (List.range count).map (objectLine pid) ++
    [.delHeading] ++ ((List.range count).filter isOdd).map (delLine pid) ++
    [.afterHeading] ++ ((List.range count).filter isEven).map (objectLine pid) ++
    match created with
    | .error _ => [.createFails]
    | .task _ => []

/-- The lines of `mylistopt_exit`, without one for an object that is left. -/
def exitLog (count : Nat) (pid task : Int32) : List LogLine :=
  [.exitHeading] ++ ((List.range count).filter isEven).map (delLine pid) ++
    [.anythingElse, .destroyHeading, .delHappens task]

def Created.result : Created -> Int32
  | .error err => err
  | .task _ => 0

section Whole

variable {address : Nat -> Nat} {pid : Int32} {heap : Heap} {count bound granted : Nat}

theorem length_range_filter_le (count : Nat) (test : Nat -> Bool) :
    ((List.range count).filter test).length ≤ count := by
  have shorter := List.length_filter_le test (List.range count)
  rwa [List.length_range] at shorter

theorem mylistoptInit_spec (injective : Function.Injective address) (small : bound ≤ 2 ^ 31)
    (pid : Int32) (created : Created) :
    Exists fun heap => mylistoptInit bound address granted pid created =
        some (created.result, ⟨heap, initLog (min granted bound) bound pid created⟩) /\
      Holding address pid heap ((List.range (min granted bound)).filter isEven) := by
  have within : min granted bound ≤ bound := Nat.min_le_right _ _
  have refused : (if granted < 0 + bound then [LogLine.allocFails] else []) =
      if min granted bound < bound then [.allocFails] else [] :=
    if_congr (by omega) rfl rfl
  have empty : Holding address pid emptyList (List.range 0) :=
    ⟨⟨⟨List.nodup_singleton _, rfl, rfl⟩, List.forall_mem_nil _⟩, List.forall_mem_nil _, List.forall_mem_nil _⟩
  rcases addAll_spec injective empty (fun _ _ => rfl) (show 0 + bound ≤ 2 ^ 31 by omega)
    (Nat.zero_le granted) [.entry] with ⟨full, added, all⟩
  rw [Nat.zero_add] at all
  rw [refused] at added
  have enough : (List.range (min granted bound)).length ≤ bound := by rwa [List.length_range]
  have printed := fun log => print_spec all enough log
  have deletes := fun log => delOdds_spec all within small log
  rw [filter_oddBelow within, filter_leftBy within] at deletes
  rw [mylistoptInit, added]
  simp only [Option.bind_eq_bind, Option.bind_some, printed, Logged.print]
  rcases deletes ([.entry] ++ (if min granted bound < bound then [.allocFails] else []) ++
    (List.range (min granted bound)).map (objectLine pid) ++ [.delHeading]) with ⟨after, deleted, left⟩
  have printedAgain := fun log => print_spec left (Nat.le_trans (length_range_filter_le _ _) within) log
  refine ⟨after, ?_, left⟩
  simp only [deleted, Option.bind_some, printedAgain]
  cases created with
  | error err => rfl
  | task pid =>
      rw [initLog, List.append_nil]
      rfl

theorem mylistoptExit_spec (holding : Holding address pid heap ((List.range count).filter isEven))
    (within : count ≤ bound) (task : Int32) :
    Exists fun after => mylistoptExit bound heap task = some ⟨after, exitLog count pid task⟩ /\
      WellFormed after [] := by
  have enough : ((List.range count).filter isEven).length ≤ bound :=
    Nat.le_trans (length_range_filter_le _ _) within
  rcases del_everything holding enough [.exitHeading] with ⟨after, deleted, nothing⟩
  have printed := fun log => print_spec nothing (Nat.zero_le bound) log
  refine ⟨after, ?_, nothing.formed⟩
  rw [mylistoptExit]
  simp only [deleted, printed, Logged.print, Option.bind_eq_bind, Option.bind_some, List.map_nil,
    List.append_nil, Option.pure_def, List.append_assoc]
  rw [exitLog, List.append_assoc]
  rfl

/-- The names of the objects fit their fifty bytes. -/
theorem length_name {i : Nat} (small : i < 2 ^ 31) : (numbered pid i).name.length + 1 ≤ 50 := by
  have value : (Int32.ofNat i).toInt = i := Int32.toInt_ofNat_of_lt small
  have digits : (toString (i : Int)).length ≤ 10 :=
    Nat.repr_length i 10 (by decide) (Nat.lt_trans small (by decide))
  have text : "this is idx ".length = 12 := by decide
  rw [numbered, value, String.length_append, text]
  omega

end Whole

/-- For every bound, every allocator, wherever the allocations stop and whatever
`kthread_create` returns, the module runs to its end without a fault, and its log is
exact: every object as it was added, the odd ones deleted in order, the even ones
left, and, when the module is removed, deleted in their order with nothing left
behind.  No name is longer than its buffer. -/
theorem log_exact (bound granted : Nat) (address : Nat -> Nat) (pid : Int32) (created : Created)
    (small : bound ≤ 2 ^ 31) (injective : Function.Injective address) :
    (Exists fun heap => mylistoptInit bound address granted pid created =
        some (created.result, ⟨heap, initLog (min granted bound) bound pid created⟩) /\
      forall task, created = .task task -> Exists fun after =>
        mylistoptExit bound heap task = some ⟨after, exitLog (min granted bound) pid task⟩ /\
          WellFormed after []) /\
    forall i, i < bound -> (numbered pid i).name.length + 1 ≤ 50 := by
  rcases mylistoptInit_spec injective small pid created with ⟨heap, returned, holding⟩
  refine ⟨⟨heap, returned, fun task _ => ?_⟩, fun i below => length_name (Nat.lt_of_lt_of_le below small)⟩
  exact mylistoptExit_spec holding (Nat.min_le_right _ _) task

/-- The third allocation fails: two objects are added, and the first one stays until
the module is removed. -/
theorem log_exact_two : Function.Injective (fun i : Nat => 64 * i) /\
    Exists fun heap =>
      mylistoptInit 100 (fun i => 64 * i) 2 5 (.task 9) =
        some (0, ⟨heap, [.entry, .allocFails, objectLine 5 0, objectLine 5 1, .delHeading, delLine 5 1,
          .afterHeading, objectLine 5 0]⟩) /\
      Exists fun after => mylistoptExit 100 heap 9 =
        some ⟨after, [.exitHeading, delLine 5 0, .anythingElse, .destroyHeading, .delHappens 9]⟩ := by
  have injective : Function.Injective (fun i : Nat => 64 * i) := fun first second same => by
    have equal : 64 * first = 64 * second := same
    omega
  rcases (log_exact 100 2 (fun i => 64 * i) 5 (.task 9) (by decide) injective).1 with ⟨heap, returned, exits⟩
  rcases exits 9 rfl with ⟨after, removed, _⟩
  exact ⟨injective, heap, returned, after, removed⟩

end KernelLog
end ListModule
end KernelStudy
