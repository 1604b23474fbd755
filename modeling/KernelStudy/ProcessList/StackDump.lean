import KernelStudy.Foundations.LabelledRun
import KernelStudy.ProcessList.Walks

namespace KernelStudy
namespace ProcessList

open LabelledRun LinkedRing RingReader

/-!
# Dumping the stacks of all tasks

`print_all_task_stack` of the load monitor walks twice over all threads of all
processes, first for those that run and then for those that wait and cannot be
interrupted.  The walk is the kernel's `do_each_thread`, inside a read-side
section: tasks come and leave meanwhile, and each may change its state between
the two walks and during them.  What is printed of a task is not modelled beyond
its being printed.

A step of the dump reads one link, or reads the state of one task and prints it.
Between any two steps the lists may change.

The walk over the threads of a process ends when it comes back to the leader.  A
leader that is replaced because a thread of its process has called `exec` is not on
the ring any more, and a walk that is inside its process never ends.
-/

/-! ## The system -/

inductive Pass where
  | running
  | uninterruptible
deriving DecidableEq, Repr

/-- `p->state == TASK_RUNNING`, and `p->state & TASK_UNINTERRUPTIBLE`. -/
def Pass.shows : Pass -> UInt64 -> Bool
  | .running, state => state == 0
  | .uninterruptible, state => state &&& 2 != 0

/-- Before the body of the loop for a thread `p` of the process of `g`, before
`while_each_thread` reads the following thread, before `do_each_thread` reads
the following process, and behind both walks. -/
inductive Point where
  | body (g p : Task)
  | nextThread (g p : Task)
  | nextTask (g : Task)
  | ended
deriving DecidableEq, Repr

structure Dump where
  lists : Tasks
  state : Task -> UInt64
  pass : Pass
  point : Point
  printed : List (Pass × Task)

inductive Label where
  | dumps
  | changes (change : Change)
  | execs (leader task : Task)
  | sets (task : Task) (state : UInt64)
deriving DecidableEq, Repr

def Dump.begins (lists : Tasks) (state : Task -> UInt64) : Dump :=
  ⟨lists, state, .running, .nextTask initTask, []⟩

/-- The walk is back at `init_task`. -/
def Dump.endPass (dump : Dump) : Dump :=
  match dump.pass with
  | .running => { dump with pass := .uninterruptible, point := .nextTask initTask }
  | .uninterruptible => { dump with point := .ended }

def Dump.proceed (dump : Dump) : Option Dump :=
  match dump.point with
  | .body g p => some { dump with
      point := .nextThread g p
      printed := if dump.pass.shows (dump.state p) then dump.printed ++ [(dump.pass, p)]
        else dump.printed }
  | .nextThread g p =>
      let p := dump.lists.threadGroup.next p
      some { dump with point := if p = g then .nextTask g else .body g p }
  | .nextTask g =>
      let g := dump.lists.tasks.next g
      some (if g = initTask then dump.endPass else { dump with point := .body g g })
  | .ended => none

def dumpStep (dump : Dump) : Label -> Option Dump
  | .dumps => dump.proceed
  | .changes change =>
      if dump.lists.Allows change then some { dump with lists := dump.lists.change change } else none
  | .execs leader task =>
      if leader ∈ dump.lists.leaders /\ dump.lists.threads leader = [task] then
        some { dump with lists := dump.lists.deThread leader task }
      else none
  | .sets task state => some { dump with state := Function.update dump.state task state }

/-- A thread takes the place of its leader. -/
def Label.takesOver : Label -> Bool
  | .execs _ _ => true
  | .dumps | .changes _ | .sets _ _ => false

/-- The system without such a step. -/
def quietStep (dump : Dump) (label : Label) : Option Dump :=
  if label.takesOver then none else dumpStep dump label

/-- No thread other than a leader calls `exec`. -/
def Quiet (labels : List Label) : Prop :=
  forall label, label ∈ labels -> label.takesOver = false

instance : DecidablePred Quiet :=
  fun labels => inferInstanceAs (Decidable (forall label, label ∈ labels -> label.takesOver = false))

theorem dumpStep_of_quiet {labels : List Label} (quiet : Quiet labels) {label : Label}
    (member : label ∈ labels) (dump : Dump) : dumpStep dump label = quietStep dump label := by
  rw [quietStep, quiet label member]
  rfl

/-- The tasks that come during a run. -/
def newcomers (labels : List Label) : List Task :=
  labels.filterMap fun
    | .changes (.fork task) | .changes (.clone _ task) => some task
    | .changes (.exitThread _ _) | .changes (.exitProcess _) | .dumps | .execs _ _ | .sets _ _ => none

/-! ## What lies before the dump -/

/-- The tasks that the present walk has still to see. -/
def Stands (dump : Dump) (pending : List Task) : Prop :=
  match dump.point with
  | .body g p => Exists fun inner => Exists fun outer => ThreadWay dump.lists g p inner /\
      ProcessWay dump.lists g outer /\ pending = p :: remaining dump.lists inner outer
  | .nextThread g p => Exists fun inner => Exists fun outer => ThreadWay dump.lists g p inner /\
      ProcessWay dump.lists g outer /\ pending = remaining dump.lists inner outer
  | .nextTask g => Exists fun outer => ProcessWay dump.lists g outer /\
      pending = outer.flatMap dump.lists.members
  | .ended => pending = []

/-- No task is seen twice in a walk, and none is printed before it is seen. -/
structure Sound (dump : Dump) (pending : List Task) : Prop where
  intact : Intact dump.lists
  stands : Stands dump pending
  nodup : pending.Nodup
  known : forall task, task ∈ pending -> task ∈ dump.lists.born
  printedOnce : dump.printed.Nodup
  printedKnown : forall entry, entry ∈ dump.printed -> entry.2 ∈ dump.lists.born
  unseen : forall task, (dump.pass, task) ∈ dump.printed -> task ∉ pending
  later : dump.pass = .running -> forall task, (Pass.uninterruptible, task) ∉ dump.printed
  closing : dump.point = .ended -> dump.pass = .uninterruptible

/-- A walk over the threads begins at the leader. -/
theorem threadWay_begins {lists : Tasks} {leader : Task} (intact : Intact lists)
    (headed : Headed lists leader) (known : leader ∈ lists.born) :
    ThreadWay lists leader leader (lists.threads leader) := by
  rcases headed with leads | ⟨left, single, itself⟩
  · have ring := intact.groups leader leads
    refine ⟨Or.inl leads, leads_of_path ring.path, ring.nodup, (List.nodup_cons.mp ring.nodup).1,
      fun _ member => Or.inl member, ?_⟩
    intro task member
    rcases List.mem_cons.mp member with same | inside
    · exact same ▸ known
    · exact intact.born_of_alive (members_alive leads inside)
  · rw [single]
    refine ⟨Or.inr ⟨left, single, itself⟩, itself, List.nodup_singleton leader, List.not_mem_nil, ?_, ?_⟩
    · intro task member
      exact Or.inl (List.mem_singleton.mp member ▸ List.mem_cons_self)
    · intro task member
      rcases List.mem_cons.mp member with same | inside
      · exact same ▸ known
      · exact List.mem_singleton.mp inside ▸ known

/-- A walk over the processes begins at the head. -/
theorem processWay_begins {lists : Tasks} (intact : Intact lists) :
    ProcessWay lists initTask lists.leaders where
  leads := leads_of_path intact.processes.path
  nodup := intact.processes.nodup
  apart := (List.nodup_cons.mp intact.processes.nodup).1
  headed := fun _ leads => Or.inl leads
  known := by
    intro leader member
    rcases List.mem_cons.mp member with same | leads
    · exact intact.known leader (same ▸ List.mem_cons_self)
    · exact intact.born_of_alive (leader_alive leads)

/-! ## Steps of the dump -/

/-- A bound on the steps that the present walk still takes, by the number of the
tasks before it. -/
def Point.ahead : Point -> Nat -> Nat
  | .body _ _, pending => 3 * pending
  | .nextThread _ _, pending => 3 * pending + 2
  | .nextTask _, pending => 3 * pending + 1
  | .ended, _ => 0

/-- What a step of the dump does to the tasks before it: it sees the first of
them, it comes closer to them, or there are none and the walk is over. -/
inductive Proceeds (dump : Dump) (pending : List Task) : Dump -> List Task -> Prop
  | sees (g p : Task) (rest : List Task) (here : dump.point = .body g p) (first : pending = p :: rest) :
      Proceeds dump pending { dump with
        point := .nextThread g p
        printed := if dump.pass.shows (dump.state p) then dump.printed ++ [(dump.pass, p)]
          else dump.printed } rest
  | moves (point : Point) (going : point ≠ .ended)
      (closer : point.ahead pending.length < dump.point.ahead pending.length) :
      Proceeds dump pending { dump with point := point } pending
  | turns (g : Task) (here : dump.point = .nextTask g) (nothing : pending = [])
      (first : dump.pass = .running) :
      Proceeds dump pending { dump with pass := .uninterruptible, point := .nextTask initTask }
        dump.lists.alive
  | ends (g : Task) (here : dump.point = .nextTask g) (nothing : pending = [])
      (second : dump.pass = .uninterruptible) :
      Proceeds dump pending { dump with point := .ended } []

theorem nextThread_proceeds {dump next : Dump} {g p : Task} {inner outer : List Task}
    (here : dump.point = .nextThread g p) (threadWay : ThreadWay dump.lists g p inner)
    (processWay : ProcessWay dump.lists g outer) (taken : dump.proceed = some next) :
    Proceeds dump (remaining dump.lists inner outer) next (remaining dump.lists inner outer) /\
      Stands next (remaining dump.lists inner outer) := by
  simp only [Dump.proceed, here, Option.some.injEq] at taken
  subst taken
  cases inner with
  | nil =>
      have back : dump.lists.threadGroup.next p = g := threadWay.leads
      rw [if_pos back]
      refine ⟨.moves _ Point.noConfusion ?_, outer, processWay, rfl⟩
      rw [here, Point.ahead, Point.ahead]
      exact Nat.lt_succ_self _
  | cons following rest =>
      have onward : dump.lists.threadGroup.next p = following := threadWay.leads.1
      have apart : following ≠ g := fun same => threadWay.apart (same ▸ List.mem_cons_self)
      rw [onward, if_neg apart]
      refine ⟨.moves _ Point.noConfusion ?_, rest, outer, ?_, processWay, rfl⟩
      · rw [here, Point.ahead, Point.ahead]
        omega
      · exact ⟨threadWay.headed, threadWay.leads.2, (List.nodup_cons.mp threadWay.nodup).2,
          fun member => threadWay.apart (List.mem_cons_of_mem _ member),
          fun task member => threadWay.member task (List.mem_cons_of_mem _ member),
          fun task member => threadWay.known task (by
            rcases List.mem_cons.mp member with same | inside
            · exact same ▸ List.mem_cons_self
            · exact List.mem_cons_of_mem _ (List.mem_cons_of_mem _ inside))⟩

theorem nextTask_proceeds {dump next : Dump} {g : Task} {outer : List Task} (intact : Intact dump.lists)
    (here : dump.point = .nextTask g) (processWay : ProcessWay dump.lists g outer)
    (taken : dump.proceed = some next) :
    Exists fun left => Proceeds dump (outer.flatMap dump.lists.members) next left /\ Stands next left := by
  simp only [Dump.proceed, here, Option.some.injEq] at taken
  subst taken
  cases outer with
  | nil =>
      have back : dump.lists.tasks.next g = initTask := processWay.leads
      rw [if_pos back]
      cases pass : dump.pass with
      | running =>
          simp only [Dump.endPass, pass]
          exact ⟨dump.lists.alive, .turns g here rfl pass, dump.lists.leaders, processWay_begins intact, rfl⟩
      | uninterruptible =>
          simp only [Dump.endPass, pass]
          exact ⟨[], pass ▸ .ends g here rfl pass, rfl⟩
  | cons following rest =>
      have onward : dump.lists.tasks.next g = following := processWay.leads.1
      have apart : following ≠ initTask := fun same => processWay.apart (same ▸ List.mem_cons_self)
      have known := processWay.known following (List.mem_cons_of_mem _ List.mem_cons_self)
      have headed := processWay.headed following List.mem_cons_self
      rw [onward, if_neg apart]
      refine ⟨_, .moves _ Point.noConfusion ?_, dump.lists.threads following, rest,
        threadWay_begins intact headed known, ?_, ?_⟩
      · rw [here, Point.ahead, Point.ahead]
        exact Nat.lt_succ_self _
      · exact ⟨processWay.leads.2, (List.nodup_cons.mp processWay.nodup).2,
          fun member => processWay.apart (List.mem_cons_of_mem _ member),
          fun leader member => processWay.headed leader (List.mem_cons_of_mem _ member),
          fun leader member => processWay.known leader (List.mem_cons_of_mem _ member)⟩
      · rw [List.flatMap_cons, remaining, Tasks.members, List.cons_append]

/-- Every step of the dump is of one of these kinds. -/
theorem proceed_cases {dump next : Dump} {pending : List Task} (intact : Intact dump.lists)
    (stands : Stands dump pending) (taken : dump.proceed = some next) :
    Exists fun left => Proceeds dump pending next left /\ Stands next left := by
  cases here : dump.point with
  | body g p =>
      simp only [Stands, here] at stands
      rcases stands with ⟨inner, outer, threadWay, processWay, first⟩
      simp only [Dump.proceed, here, Option.some.injEq] at taken
      subst taken
      exact ⟨_, .sees g p _ here first, inner, outer, threadWay, processWay, rfl⟩
  | nextThread g p =>
      simp only [Stands, here] at stands
      rcases stands with ⟨inner, outer, threadWay, processWay, all⟩
      subst all
      exact ⟨_, nextThread_proceeds here threadWay processWay taken⟩
  | nextTask g =>
      simp only [Stands, here] at stands
      rcases stands with ⟨outer, processWay, all⟩
      subst all
      exact nextTask_proceeds intact here processWay taken
  | ended =>
      simp only [Dump.proceed, here, reduceCtorEq] at taken

section Invariant

variable {dump next : Dump} {pending left : List Task}

theorem Sound.proceed (sound : Sound dump pending) (proceeds : Proceeds dump pending next left)
    (stands : Stands next left) : Sound next left := by
  rcases sound with ⟨intact, _stood, nodup, known, printedOnce, printedKnown, unseen, later, closing⟩
  cases proceeds with
  | sees g p rest here first =>
      subst first
      have parts := List.nodup_cons.mp nodup
      have mine := known p List.mem_cons_self
      have knownLater : forall task, task ∈ left -> task ∈ dump.lists.born :=
        fun task member => known task (List.mem_cons_of_mem _ member)
      by_cases shown : dump.pass.shows (dump.state p) = true
      · simp only [if_pos shown] at stands ⊢
        have new : (dump.pass, p) ∉ dump.printed := fun member => unseen p member List.mem_cons_self
        refine ⟨intact, stands, parts.2, knownLater, ?_, ?_, ?_, ?_, fun ended => Point.noConfusion ended⟩
        · exact (List.perm_append_singleton _ _).symm.nodup (List.nodup_cons.mpr ⟨new, printedOnce⟩)
        · intro entry member
          rcases List.mem_append.mp member with before | last
          · exact printedKnown entry before
          · rw [List.mem_singleton.mp last]
            exact mine
        · intro task member
          rcases List.mem_append.mp member with before | last
          · exact fun inside => unseen task before (List.mem_cons_of_mem _ inside)
          · have same : task = p := congrArg Prod.snd (List.mem_singleton.mp last)
            exact same ▸ parts.1
        · intro running task member
          rcases List.mem_append.mp member with before | last
          · exact later running task before
          · have isPass : Pass.uninterruptible = dump.pass := congrArg Prod.fst (List.mem_singleton.mp last)
            exact Pass.noConfusion (isPass.trans running)
      · simp only [if_neg shown] at stands ⊢
        exact ⟨intact, stands, parts.2, knownLater, printedOnce, printedKnown,
          fun task member inside => unseen task member (List.mem_cons_of_mem _ inside), later,
          fun ended => Point.noConfusion ended⟩
  | moves point going closer =>
      exact ⟨intact, stands, nodup, known, printedOnce, printedKnown, unseen, later,
        fun ended => absurd ended going⟩
  | turns g here nothing first =>
      exact ⟨intact, stands, intact.alive_nodup, fun _ living => intact.born_of_alive living, printedOnce,
        printedKnown, fun task member => absurd member (later first task),
        fun running => Pass.noConfusion running, fun _ => rfl⟩
  | ends g here nothing second =>
      exact ⟨intact, stands, List.nodup_nil, fun _ member => absurd member List.not_mem_nil, printedOnce,
        printedKnown, fun _ _ => List.not_mem_nil, later, fun _ => second⟩

/-- A change of the lists moves what lies before the dump. -/
theorem stands_change (intact : Intact dump.lists) (stands : Stands dump pending) {change : Change}
    (allowed : dump.lists.Allows change) :
    Exists fun left => Stands { dump with lists := dump.lists.change change } left /\
      Adjusted change pending left := by
  cases here : dump.point with
  | body g p =>
      simp only [Stands, here] at stands ⊢
      rcases stands with ⟨inner, outer, threadWay, processWay, all⟩
      rcases ways_change intact allowed processWay threadWay with
        ⟨nearer, further, threadWay', processWay', adjusted⟩
      subst all
      exact ⟨_, ⟨nearer, further, threadWay', processWay', rfl⟩, adjusted.append_left [p]⟩
  | nextThread g p =>
      simp only [Stands, here] at stands ⊢
      rcases stands with ⟨inner, outer, threadWay, processWay, all⟩
      rcases ways_change intact allowed processWay threadWay with
        ⟨nearer, further, threadWay', processWay', adjusted⟩
      subst all
      exact ⟨_, ⟨nearer, further, threadWay', processWay', rfl⟩, adjusted⟩
  | nextTask g =>
      simp only [Stands, here] at stands ⊢
      rcases stands with ⟨outer, processWay, all⟩
      rcases processWay.change intact allowed with ⟨further, processWay', adjusted, _unmet⟩
      subst all
      exact ⟨_, ⟨further, processWay', rfl⟩, adjusted⟩
  | ended =>
      simp only [Stands, here] at stands ⊢
      subst stands
      exact ⟨[], rfl, Or.inl (List.Perm.refl _)⟩

theorem Sound.change (sound : Sound dump pending) {change : Change} (allowed : dump.lists.Allows change)
    (stands : Stands { dump with lists := dump.lists.change change } left)
    (adjusted : Adjusted change pending left) :
    Sound { dump with lists := dump.lists.change change } left := by
  have fresh : change.births = 1 -> change.task ∉ dump.lists.born := fresh_of_birth allowed
  refine ⟨intact_change sound.intact allowed, stands, ?_, ?_, sound.printedOnce, ?_, ?_, sound.later,
    sound.closing⟩
  · exact adjusted.nodup sound.nodup (fun birth member => fresh birth (sound.known _ member))
  · intro task member
    rcases adjusted.origin member with before | ⟨birth, new⟩
    · exact known_change change (sound.known task before)
    · rw [born_change, if_pos birth, new]
      exact List.mem_cons_self
  · exact fun entry member => known_change change (sound.printedKnown entry member)
  · intro task member inside
    rcases adjusted.origin inside with before | ⟨birth, new⟩
    · exact sound.unseen task member before
    · exact fresh birth (new ▸ sound.printedKnown _ member)

/-- What one step of the system does to the tasks before the dump. -/
inductive Transition (dump : Dump) (pending : List Task) : Label -> Dump -> List Task -> Prop
  | dumps {next : Dump} {left : List Task} (proceeds : Proceeds dump pending next left) :
      Transition dump pending .dumps next left
  | changes {change : Change} {left : List Task} (allowed : dump.lists.Allows change)
      (adjusted : Adjusted change pending left) :
      Transition dump pending (.changes change) { dump with lists := dump.lists.change change } left
  | sets (task : Task) (state : UInt64) :
      Transition dump pending (.sets task state)
        { dump with state := Function.update dump.state task state } pending

theorem quietStep_cases (sound : Sound dump pending) {label : Label}
    (taken : quietStep dump label = some next) :
    Exists fun left => Transition dump pending label next left /\ Sound next left := by
  cases label with
  | execs leader task => cases taken
  | dumps =>
      rcases proceed_cases sound.intact sound.stands taken with ⟨left, proceeds, stands⟩
      exact ⟨left, .dumps proceeds, sound.proceed proceeds stands⟩
  | changes change =>
      have possible : dumpStep dump (.changes change) = some next := taken
      rw [dumpStep, Option.ite_none_right_eq_some] at possible
      rcases possible with ⟨allowed, same⟩
      have isNext := Option.some.inj same
      subst isNext
      rcases stands_change sound.intact sound.stands allowed with ⟨left, stands, adjusted⟩
      exact ⟨left, .changes allowed adjusted, sound.change allowed stands adjusted⟩
  | sets task state =>
      have isNext := Option.some.inj taken
      subst isNext
      exact ⟨pending, .sets task state, ⟨sound.intact, sound.stands, sound.nodup, sound.known,
        sound.printedOnce, sound.printedKnown, sound.unseen, sound.later, sound.closing⟩⟩

theorem begins_sound {lists : Tasks} (intact : Intact lists) (state : Task -> UInt64) :
    Sound (Dump.begins lists state) lists.alive where
  intact := intact
  stands := ⟨lists.leaders, processWay_begins intact, rfl⟩
  nodup := intact.alive_nodup
  known := fun _ living => intact.born_of_alive living
  printedOnce := List.nodup_nil
  printedKnown := fun _ member => absurd member List.not_mem_nil
  unseen := fun _ member => absurd member List.not_mem_nil
  later := fun _ _ => List.not_mem_nil
  closing := fun ended => Point.noConfusion ended

end Invariant

/-! ## A task that stays -/

section Stays

variable {dump next : Dump} {pending left : List Task} {task : Task} {state : UInt64}

/-- A task that is alive with one state all the time: it lies before the walk, or
it has been printed as its state says; and the first walk has done so. -/
structure Tracked (task : Task) (state : UInt64) (dump : Dump) (pending : List Task) : Prop where
  now : task ∈ pending /\ (dump.pass, task) ∉ dump.printed \/
    task ∉ pending /\ ((dump.pass, task) ∈ dump.printed <-> dump.pass.shows state = true)
  before : dump.pass = .uninterruptible ->
    ((Pass.running, task) ∈ dump.printed <-> Pass.running.shows state = true)

/-- Printing one entry more. -/
theorem mem_printed {shown : Bool} {printed : List (Pass × Task)} {entry new : Pass × Task} :
    entry ∈ (if shown then printed ++ [new] else printed) <->
      entry ∈ printed \/ shown = true /\ entry = new := by
  cases shown with
  | false => simp only [Bool.false_eq_true, if_false, false_and, or_false]
  | true => simp only [if_true, List.mem_append, List.mem_singleton, true_and]

theorem Tracked.proceed (tracked : Tracked task state dump pending)
    (sound : Sound dump pending) (proceeds : Proceeds dump pending next left)
    (living : task ∈ dump.lists.alive) (here : dump.state task = state) :
    Tracked task state next left := by
  rcases tracked with ⟨now, before⟩
  cases proceeds with
  | sees g p rest point first =>
      subst first
      have parts := List.nodup_cons.mp sound.nodup
      constructor
      · simp only [mem_printed, Prod.mk.injEq, true_and]
        by_cases mine : task = p
        · right
          subst mine
          refine ⟨parts.1, ?_⟩
          have new : (dump.pass, task) ∉ dump.printed := fun member =>
            sound.unseen task member List.mem_cons_self
          rw [here]
          exact ⟨fun printed => (printed.resolve_left new).1, fun shows => Or.inr ⟨shows, rfl⟩⟩
        · rcases now with ⟨ahead, unprinted⟩ | ⟨behind, exactly⟩
          · left
            exact ⟨(List.mem_cons.mp ahead).resolve_left mine,
              fun printed => printed.elim unprinted (fun last => mine last.2)⟩
          · right
            refine ⟨fun member => behind (List.mem_cons_of_mem _ member), ?_⟩
            exact ⟨fun printed => printed.elim exactly.mp (fun last => absurd last.2 mine),
              fun shows => Or.inl (exactly.mpr shows)⟩
      · intro second
        have second' : dump.pass = .uninterruptible := second
        simp only [mem_printed, Prod.mk.injEq]
        refine Iff.trans ⟨fun printed => printed.resolve_right ?_, Or.inl⟩ (before second')
        rintro ⟨_shows, pass, _same⟩
        exact Pass.noConfusion (pass.trans second')
  | moves point going closer => exact ⟨now, before⟩
  | turns g point nothing first =>
      subst nothing
      refine ⟨Or.inl ⟨living, sound.later first task⟩, fun _ => ?_⟩
      rcases now with ⟨impossible, _⟩ | ⟨_, exactly⟩
      · exact absurd impossible List.not_mem_nil
      · rw [first] at exactly
        exact exactly
  | ends g point nothing second =>
      subst nothing
      exact ⟨now, before⟩

theorem Tracked.step (tracked : Tracked task state dump pending) (sound : Sound dump pending)
    {label : Label} (transition : Transition dump pending label next left)
    (sameBefore : task ∈ dump.lists.alive /\ dump.state task = state)
    (sameAfter : task ∈ next.lists.alive /\ next.state task = state) : Tracked task state next left := by
  cases transition with
  | dumps proceeds => exact tracked.proceed sound proceeds sameBefore.1 sameBefore.2
  | sets other value => exact ⟨tracked.now, tracked.before⟩
  | @changes change left allowed adjusted =>
      have stays : change.births = 0 -> task ≠ change.task :=
        fun exits same => task_left sound.intact allowed exits (same ▸ sameAfter.1)
      have old : change.births = 1 -> task ≠ change.task := fun birth same =>
        fresh_of_birth allowed birth (same ▸ sound.intact.born_of_alive sameBefore.1)
      refine ⟨?_, tracked.before⟩
      rcases tracked.now with ⟨ahead, unprinted⟩ | ⟨behind, exactly⟩
      · exact Or.inl ⟨adjusted.keeps ahead stays, unprinted⟩
      · refine Or.inr ⟨fun member => ?_, exactly⟩
        rcases adjusted.origin member with before | ⟨birth, same⟩
        · exact behind before
        · exact old birth same

end Stays

/-! ## Whole runs -/

/-- A bound on the steps that both walks still take. -/
def potential (dump : Dump) (pending : List Task) : Nat :=
  dump.point.ahead pending.length +
    if dump.pass = .running then 3 * dump.lists.alive.length + 1 else 0

theorem length_alive_change {lists : Tasks} (intact : Intact lists) {change : Change}
    (allowed : lists.Allows change) :
    (lists.change change).alive.length ≤ lists.alive.length + change.births := by
  rcases births_cases change with birth | exits
  · have more := (alive_birth intact allowed birth).length_eq
    rw [List.length_cons] at more
    omega
  · have fewer := (alive_exit intact allowed exits).length_eq
    rw [List.length_cons] at fewer
    omega

/-- A step of the dump uses up some of the bound, and a new task adds to it. -/
theorem potential_step {dump next : Dump} {pending left : List Task} {label : Label}
    (sound : Sound dump pending) (transition : Transition dump pending label next left) :
    potential next left + [label].count .dumps ≤
      potential dump pending + 6 * (newcomers [label]).length := by
  cases transition with
  | dumps proceeds =>
      have one : [Label.dumps].count .dumps = 1 := rfl
      have none_ : (newcomers [Label.dumps]).length = 0 := rfl
      rw [one, none_]
      cases proceeds with
      | sees g p rest here first =>
          subst first
          simp only [potential, here, Point.ahead, List.length_cons]
          omega
      | moves point going closer =>
          simp only [potential]
          omega
      | turns g here nothing first =>
          subst nothing
          simp only [potential, here, first, Point.ahead, List.length_nil, if_true, reduceCtorEq, if_false]
          omega
      | ends g here nothing second =>
          subst nothing
          simp only [potential, here, second, Point.ahead, List.length_nil, reduceCtorEq, if_false]
          omega
  | @changes change left allowed adjusted =>
      have zero : [Label.changes change].count .dumps = 0 := rfl
      have births : (newcomers [.changes change]).length = change.births := by cases change <;> rfl
      have length := adjusted.length
      have living := length_alive_change sound.intact allowed
      have nearer : dump.point.ahead left.length ≤ dump.point.ahead pending.length + 3 * change.births := by
        cases dump.point <;> simp only [Point.ahead] <;> omega
      rw [zero, births]
      simp only [potential]
      split
      · omega
      · omega
  | sets task state => exact Nat.le_refl _

/-- What holds after a run: the tasks that were printed or lie before the dump
were there at the beginning or have come since, and the steps are bounded. -/
structure Progress (lists : Tasks) (labels : List Label) (dump : Dump) (pending : List Task) : Prop where
  sound : Sound dump pending
  bounded : potential dump pending + labels.count .dumps ≤
    6 * (lists.alive.length + (newcomers labels).length) + 2
  living : forall task, task ∈ dump.lists.alive -> task ∈ lists.alive ++ newcomers labels
  ahead : forall task, task ∈ pending -> task ∈ lists.alive ++ newcomers labels
  printed : forall entry, entry ∈ dump.printed -> entry.2 ∈ lists.alive ++ newcomers labels

theorem newcomers_concat (labels : List Label) (label : Label) :
    newcomers (labels ++ [label]) = newcomers labels ++ newcomers [label] :=
  List.filterMap_append

theorem newcomers_birth {change : Change} (birth : change.births = 1) :
    newcomers [.changes change] = [change.task] := by
  cases change with
  | fork _ => rfl
  | clone _ _ => rfl
  | exitThread _ _ => exact absurd birth Nat.zero_ne_one
  | exitProcess _ => exact absurd birth Nat.zero_ne_one

theorem Progress.step {lists : Tasks} {labels : List Label} {dump next : Dump} {pending left : List Task}
    {label : Label} (progress : Progress lists labels dump pending)
    (transition : Transition dump pending label next left) (sound : Sound next left) :
    Progress lists (labels ++ [label]) next left := by
  have used := potential_step progress.sound transition
  have bounded := progress.bounded
  have listed : forall {task}, task ∈ lists.alive ++ newcomers labels ->
      task ∈ lists.alive ++ newcomers (labels ++ [label]) := by
    intro task member
    rw [newcomers_concat, ← List.append_assoc]
    exact List.mem_append_left _ member
  have steps : potential next left + (labels ++ [label]).count .dumps ≤
      6 * (lists.alive.length + (newcomers (labels ++ [label])).length) + 2 := by
    rw [newcomers_concat, List.length_append, List.count_append]
    omega
  cases transition with
  | dumps proceeds =>
      have printed := fun entry member => listed (progress.printed entry member)
      cases proceeds with
      | sees g p rest here first =>
          subst first
          refine ⟨sound, steps, fun task living => listed (progress.living task living),
            fun task member => listed (progress.ahead task (List.mem_cons_of_mem _ member)), ?_⟩
          intro entry member
          rcases mem_printed.mp member with before | ⟨_shown, last⟩
          · exact printed entry before
          · rw [last]
            exact listed (progress.ahead p List.mem_cons_self)
      | moves point going closer =>
          exact ⟨sound, steps, fun task living => listed (progress.living task living),
            fun task member => listed (progress.ahead task member), printed⟩
      | turns g here nothing first =>
          exact ⟨sound, steps, fun task living => listed (progress.living task living),
            fun task living => listed (progress.living task living), printed⟩
      | ends g here nothing second =>
          exact ⟨sound, steps, fun task living => listed (progress.living task living),
            fun task member => absurd member List.not_mem_nil, printed⟩
  | @changes change left allowed adjusted =>
      have new : change.births = 1 ->
          change.task ∈ lists.alive ++ newcomers (labels ++ [.changes change]) := by
        intro birth
        rw [newcomers_concat, newcomers_birth birth]
        exact List.mem_append_right _ (List.mem_append_right _ List.mem_cons_self)
      refine ⟨sound, steps, ?_, ?_, fun entry member => listed (progress.printed entry member)⟩
      · intro task living
        rcases births_cases change with birth | exits
        · rcases List.mem_cons.mp ((alive_birth progress.sound.intact allowed birth).mem_iff.mp living) with
            same | before
          · exact same ▸ new birth
          · exact listed (progress.living task before)
        · exact listed (progress.living task
            ((alive_exit progress.sound.intact allowed exits).mem_iff.mpr (List.mem_cons_of_mem _ living)))
      · intro task member
        rcases adjusted.origin member with before | ⟨birth, same⟩
        · exact listed (progress.ahead task before)
        · exact same ▸ new birth
  | sets task state =>
      exact ⟨sound, steps, fun task living => listed (progress.living task living),
        fun task member => listed (progress.ahead task member),
        fun entry member => listed (progress.printed entry member)⟩

theorem run_progress {lists : Tasks} (intact : Intact lists) (state : Task -> UInt64) {labels : List Label}
    {final : Dump} (reached : run quietStep (Dump.begins lists state) labels = some final) :
    Exists fun pending => Progress lists labels final pending := by
  apply history_of_run quietStep (fun labels dump => Exists fun pending => Progress lists labels dump pending)
    ?_ ?_ reached
  · have begun := begins_sound intact state
    refine ⟨lists.alive, begun, ?_, fun _ living => List.mem_append_left _ living,
      fun _ living => List.mem_append_left _ living, fun _ member => absurd member List.not_mem_nil⟩
    have length : (newcomers []).length = 0 := rfl
    simp only [potential, Dump.begins, Point.ahead, if_true, length, List.count_nil]
    omega
  · rintro labels dump label next ⟨pending, progress⟩ taken
    rcases quietStep_cases progress.sound taken with ⟨left, transition, sound⟩
    exact ⟨left, progress.step transition sound⟩

theorem run_tracked {lists : Tasks} (intact : Intact lists) (state : Task -> UInt64) {labels : List Label}
    {final : Dump} (reached : run quietStep (Dump.begins lists state) labels = some final) {task : Task}
    {value : UInt64} (stays : AlongRun quietStep
      (fun dump => task ∈ dump.lists.alive /\ dump.state task = value) (Dump.begins lists state) labels) :
    Exists fun pending => Sound final pending /\ Tracked task value final pending := by
  have result := stays.invariant quietStep
    (fun dump label next (invariant : (Exists fun pending => Sound dump pending /\
        Tracked task value dump pending) /\ task ∈ dump.lists.alive /\ dump.state task = value)
      same taken => by
      rcases invariant with ⟨⟨pending, sound, tracked⟩, before⟩
      rcases quietStep_cases sound taken with ⟨left, transition, soundNext⟩
      exact ⟨⟨left, soundNext, tracked.step sound transition before same⟩, same⟩)
    ⟨⟨lists.alive, begins_sound intact state, Or.inl ⟨(stays.here quietStep).1, List.not_mem_nil⟩,
      fun second => Pass.noConfusion second⟩, stays.here quietStep⟩ reached
  exact result.1

/-! ## A thread that takes over -/

section TakesOver

variable {lists : Tasks} {gone : Task} {inside : Task -> Prop}

/-- A set of tasks that the links between threads do not leave.  All living tasks belong
to it, and the task that is gone does not. -/
structure Snare (lists : Tasks) (gone : Task) (inside : Task -> Prop) : Prop where
  leaders : forall leader, leader ∈ lists.leaders -> inside leader
  threads : forall leader, leader ∈ lists.leaders -> forall task, task ∈ lists.threads leader -> inside task
  next : forall task, task = gone \/ inside task -> inside (lists.threadGroup.next task)
  born : forall task, inside task -> task ∈ lists.born
  known : gone ∈ lists.born
  outside : Not (inside gone)

/-- One link is redirected to a task of the set. -/
theorem Snare.redirect (snare : Snare lists gone inside) {place target : Task} (within : inside target) :
    forall task, task = gone \/ inside task ->
      inside (Function.update lists.threadGroup.next place target task) := by
  intro task member
  by_cases here : task = place
  · rw [here, Function.update_self]
    exact within
  · rw [Function.update_of_ne here]
    exact snare.next task member

theorem Snare.exitThread (snare : Snare lists gone inside) {leader task : Task}
    (leads : leader ∈ lists.leaders) (member : task ∈ lists.threads leader) :
    Snare (lists.exitThread leader task) gone inside where
  leaders := snare.leaders
  threads := by
    intro other otherLeads thread listed
    by_cases same : other = leader
    · subst other
      rw [show (lists.exitThread leader task).threads leader = (lists.threads leader).erase task from
        Function.update_self _ _ _] at listed
      exact snare.threads leader leads thread (List.mem_of_mem_erase listed)
    · rw [show (lists.exitThread leader task).threads other = lists.threads other from
        Function.update_of_ne same _ _] at listed
      exact snare.threads other otherLeads thread listed
  next := snare.redirect (snare.next task (Or.inr (snare.threads leader leads task member)))
  born := snare.born
  known := snare.known
  outside := snare.outside

theorem Snare.exitProcess (snare : Snare lists gone inside) {leader : Task}
    (leads : leader ∈ lists.leaders) : Snare (lists.exitProcess leader) gone inside where
  leaders := fun other member => snare.leaders other (List.mem_of_mem_erase member)
  threads := fun other member => snare.threads other (List.mem_of_mem_erase member)
  next := snare.redirect (snare.next leader (Or.inr (snare.leaders leader leads)))
  born := snare.born
  known := snare.known
  outside := snare.outside

theorem Snare.deThread (snare : Snare lists gone inside) {leader task : Task}
    (leads : leader ∈ lists.leaders) (last : lists.threads leader = [task]) :
    Snare (lists.deThread leader task) gone inside where
  leaders := by
    intro other member
    rcases List.mem_map.mp member with ⟨before, listed, same⟩
    subst other
    split
    · exact snare.threads leader leads task (last ▸ List.mem_cons_self)
    · exact snare.leaders before listed
  threads := by
    intro other member thread listed
    by_cases new : other = task
    · rw [new, show (lists.deThread leader task).threads task = [] from Function.update_self _ _ _] at listed
      cases listed
    · by_cases old : other = leader
      · rw [old, show (lists.deThread leader task).threads leader = [] from
          (Function.update_of_ne (old ▸ new) _ _).trans (Function.update_self _ _ _)] at listed
        cases listed
      · rcases List.mem_map.mp member with ⟨before, otherLeads, same⟩
        have kept : before = other := by
          split at same
          · exact absurd same.symm new
          · exact same
        rw [show (lists.deThread leader task).threads other = lists.threads other from
          (Function.update_of_ne new _ _).trans (Function.update_of_ne old _ _)] at listed
        exact snare.threads other (kept ▸ otherLeads) thread listed
  next := snare.redirect (snare.next leader (Or.inr (snare.leaders leader leads)))
  born := snare.born
  known := snare.known
  outside := snare.outside

/-- A task that comes joins the set. -/
theorem Snare.fork (snare : Snare lists gone inside) {task : Task} (fresh : task ∉ lists.born) :
    Snare (lists.fork task) gone (fun other => inside other \/ other = task) where
  leaders := by
    intro leader member
    rcases List.mem_append.mp member with before | last
    · exact Or.inl (snare.leaders leader before)
    · exact Or.inr (List.mem_singleton.mp last)
  threads := by
    intro leader member thread listed
    by_cases new : leader = task
    · rw [new, show (lists.fork task).threads task = [] from Function.update_self _ _ _] at listed
      cases listed
    · rw [show (lists.fork task).threads leader = lists.threads leader from
        Function.update_of_ne new _ _] at listed
      rcases List.mem_append.mp member with before | last
      · exact Or.inl (snare.threads leader before thread listed)
      · exact absurd (List.mem_singleton.mp last) new
  next := by
    intro place member
    show inside (Function.update lists.threadGroup.next task task place) \/
      Function.update lists.threadGroup.next task task place = task
    by_cases new : place = task
    · rw [new, Function.update_self]
      exact Or.inr rfl
    · rw [Function.update_of_ne new]
      exact Or.inl (snare.next place (member.imp_right fun within => within.resolve_right new))
  born := by
    intro other member
    rcases member with within | new
    · exact List.mem_cons_of_mem _ (snare.born other within)
    · exact new ▸ List.mem_cons_self
  known := List.mem_cons_of_mem _ snare.known
  outside := fun member => member.elim snare.outside fun same => fresh (same ▸ snare.known)

theorem Snare.clone (snare : Snare lists gone inside) {leader task : Task} (leads : leader ∈ lists.leaders)
    (fresh : task ∉ lists.born) :
    Snare (lists.clone leader task) gone (fun other => inside other \/ other = task) where
  leaders := fun other member => Or.inl (snare.leaders other member)
  threads := by
    intro other member thread listed
    by_cases same : other = leader
    · rw [same, show (lists.clone leader task).threads leader = lists.threads leader ++ [task] from
        Function.update_self _ _ _] at listed
      rcases List.mem_append.mp listed with before | last
      · exact Or.inl (snare.threads leader leads thread before)
      · exact Or.inr (List.mem_singleton.mp last)
    · rw [show (lists.clone leader task).threads other = lists.threads other from
        Function.update_of_ne same _ _] at listed
      exact Or.inl (snare.threads other member thread listed)
  next := by
    intro place member
    show inside (Function.update (Function.update lists.threadGroup.next task leader)
        (lists.threadGroup.prev leader) task place) \/
      Function.update (Function.update lists.threadGroup.next task leader)
        (lists.threadGroup.prev leader) task place = task
    by_cases last : place = lists.threadGroup.prev leader
    · rw [last, Function.update_self]
      exact Or.inr rfl
    · rw [Function.update_of_ne last]
      by_cases new : place = task
      · rw [new, Function.update_self]
        exact Or.inl (snare.leaders leader leads)
      · rw [Function.update_of_ne new]
        exact Or.inl (snare.next place (member.imp_right fun within => within.resolve_right new))
  born := by
    intro other member
    rcases member with within | new
    · exact List.mem_cons_of_mem _ (snare.born other within)
    · exact new ▸ List.mem_cons_self
  known := List.mem_cons_of_mem _ snare.known
  outside := fun member => member.elim snare.outside fun same => fresh (same ▸ snare.known)

/-- The walk is inside the process of a task that is gone. -/
structure Caught (gone : Task) (dump : Dump) : Prop where
  snare : Exists fun inside => Snare dump.lists gone inside /\ Exists fun p => (p = gone \/ inside p) /\
    (dump.point = .body gone p \/ dump.point = .nextThread gone p)

/-- Nothing that happens lets it out. -/
theorem Caught.step (dump : Dump) (label : Label) (next : Dump) (caught : Caught gone dump)
    (taken : dumpStep dump label = some next) : Caught gone next := by
  rcases caught with ⟨inside, snare, p, place, point⟩
  cases label with
  | dumps =>
      rcases point with here | here
      · simp only [dumpStep, Dump.proceed, here, Option.some.injEq] at taken
        subst next
        exact ⟨inside, snare, p, place, Or.inr rfl⟩
      · have within := snare.next p place
        have onward : dump.lists.threadGroup.next p ≠ gone := fun same => snare.outside (same ▸ within)
        simp only [dumpStep, Dump.proceed, here, Option.some.injEq, if_neg onward] at taken
        subst next
        exact ⟨inside, snare, _, Or.inr within, Or.inl rfl⟩
  | changes change =>
      rw [dumpStep, Option.ite_none_right_eq_some, Option.some.injEq] at taken
      rcases taken with ⟨allowed, same⟩
      subst next
      cases change with
      | fork task => exact ⟨_, snare.fork allowed, p, place.imp_right Or.inl, point⟩
      | clone leader task => exact ⟨_, snare.clone allowed.1 allowed.2, p, place.imp_right Or.inl, point⟩
      | exitThread leader task => exact ⟨inside, snare.exitThread allowed.1 allowed.2, p, place, point⟩
      | exitProcess leader => exact ⟨inside, snare.exitProcess allowed.1, p, place, point⟩
  | execs leader task =>
      rw [dumpStep, Option.ite_none_right_eq_some, Option.some.injEq] at taken
      rcases taken with ⟨⟨leads, last⟩, same⟩
      subst next
      exact ⟨inside, snare.deThread leads last, p, place, point⟩
  | sets task state =>
      have same := Option.some.inj taken
      subst next
      exact ⟨inside, snare, p, place, point⟩

/-- A walk that is caught takes every step and does not end. -/
theorem Caught.goes_on {dump : Dump} (caught : Caught gone dump) :
    dump.point ≠ .ended /\ (dumpStep dump .dumps).isSome = true := by
  rcases caught with ⟨_inside, _snare, p, _place, here | here⟩
  · refine ⟨by rw [here]; exact Point.noConfusion, ?_⟩
    simp only [dumpStep, Dump.proceed, here, Option.isSome_some]
  · refine ⟨by rw [here]; exact Point.noConfusion, ?_⟩
    simp only [dumpStep, Dump.proceed, here, Option.isSome_some]

/-- The next task of a living one, in the rings of threads. -/
theorem next_members (intact : Intact lists) {leader task : Task} (leads : leader ∈ lists.leaders)
    (member : task ∈ lists.members leader) : lists.threadGroup.next task ∈ lists.members leader := by
  rcases List.mem_cons.mp member with same | inside
  · rw [same]
    rcases List.mem_append.mp (intact.groups leader leads).path.next_mem with thread | head
    · exact List.mem_cons_of_mem _ thread
    · rw [List.mem_singleton.mp head]
      exact List.mem_cons_self
  · exact (intact.neighbours leads inside).2

/-- When a thread takes over, the links of the old leader lead into the rings of the
living tasks, and none of theirs leads back to it. -/
theorem snare_of_deThread (intact : Intact lists) {leader task : Task} (leads : leader ∈ lists.leaders)
    (last : lists.threads leader = [task]) :
    Snare (lists.deThread leader task) leader (fun other => other ∈ lists.alive /\ other ≠ leader) := by
  have ring := intact.groups leader leads
  rw [last] at ring
  have onward : lists.threadGroup.next leader = task := ring.path.1.1
  have back : lists.threadGroup.next task = leader := ring.path.2.1
  have before : lists.threadGroup.prev leader = task := ring.path.2.2
  have apart : task ≠ leader :=
    fun same => (List.nodup_cons.mp ring.nodup).1 (same ▸ List.mem_cons_self)
  have living : task ∈ lists.alive :=
    members_alive leads (List.mem_cons_of_mem _ (last ▸ List.mem_cons_self))
  have others : forall other, other ∈ lists.leaders -> other ≠ leader -> forall thread,
      thread ∈ lists.members other -> thread ∈ lists.alive /\ thread ≠ leader /\ thread ≠ task := by
    intro other otherLeads distinct thread member
    have away := intact.members_apart otherLeads leads distinct member
    exact ⟨members_alive otherLeads member, fun same => away (same ▸ List.mem_cons_self),
      fun same => away (same ▸ List.mem_cons_of_mem _ (last ▸ List.mem_cons_self))⟩
  refine ⟨?_, ?_, ?_, fun other member => intact.born_of_alive member.1,
    intact.born_of_alive (leader_alive leads), fun member => member.2 rfl⟩
  · intro other member
    rcases List.mem_map.mp member with ⟨old, listed, same⟩
    subst other
    split
    case isTrue _ => exact ⟨living, apart⟩
    case isFalse distinct =>
        have kept := others old listed distinct old List.mem_cons_self
        exact ⟨kept.1, kept.2.1⟩
  · intro other member thread listed
    rcases List.mem_map.mp member with ⟨old, otherLeads, same⟩
    by_cases replaced : old = leader
    · rw [if_pos replaced] at same
      rw [← same, show (lists.deThread leader task).threads task = [] from Function.update_self _ _ _] at listed
      cases listed
    · rw [if_neg replaced] at same
      subst same
      have mine := others old otherLeads replaced old List.mem_cons_self
      rw [show (lists.deThread leader task).threads old = lists.threads old from
        (Function.update_of_ne mine.2.2 _ _).trans (Function.update_of_ne replaced _ _)] at listed
      have kept := others old otherLeads replaced thread (List.mem_cons_of_mem _ listed)
      exact ⟨kept.1, kept.2.1⟩
  · intro place member
    have redirected : (lists.deThread leader task).threadGroup.next place =
        Function.update lists.threadGroup.next task task place := by
      show Function.update lists.threadGroup.next (lists.threadGroup.prev leader)
        (lists.threadGroup.next leader) place = _
      rw [before, onward]
    rw [redirected]
    by_cases here : place = task
    · rw [here, Function.update_self]
      exact ⟨living, apart⟩
    · rw [Function.update_of_ne here]
      rcases member with isLeader | ⟨alive, distinct⟩
      · rw [isLeader, onward]
        exact ⟨living, apart⟩
      · rcases mem_alive.mp alive with ⟨other, otherLeads, mine⟩
        have elsewhere : other ≠ leader := by
          intro same
          rw [same, Tasks.members, last] at mine
          rcases List.mem_cons.mp mine with first | second
          · exact distinct first
          · exact here (List.mem_singleton.mp second)
        have kept := others other otherLeads elsewhere _ (next_members intact otherLeads mine)
        exact ⟨kept.1, kept.2.1⟩

/-- A walk over the two threads of a process is caught when the second one takes over. -/
theorem caught_of_execs {dump next : Dump} {leader task : Task} (intact : Intact dump.lists)
    (taken : dumpStep dump (.execs leader task) = some next)
    (here : Exists fun p => (p = leader \/ p = task) /\
      (dump.point = .body leader p \/ dump.point = .nextThread leader p)) : Caught leader next := by
  rw [dumpStep, Option.ite_none_right_eq_some, Option.some.injEq] at taken
  rcases taken with ⟨⟨leads, last⟩, same⟩
  subst next
  have snare := snare_of_deThread intact leads last
  rcases here with ⟨p, place, point⟩
  refine ⟨_, snare, p, ?_, point⟩
  rcases place with first | second
  · exact Or.inl first
  · subst second
    have ring := intact.groups leader leads
    rw [last] at ring
    refine Or.inr ⟨members_alive leads (List.mem_cons_of_mem _ (last ▸ List.mem_cons_self)), ?_⟩
    exact fun same => (List.nodup_cons.mp ring.nodup).1 (same ▸ List.mem_cons_self)

end TakesOver

/-- No state is shown in both walks. -/
theorem not_shown_twice (state : UInt64) :
    ¬ (Pass.running.shows state = true /\ Pass.uninterruptible.shows state = true) := by
  rintro ⟨first, second⟩
  have zero : state = 0 := by simpa only [Pass.shows, beq_iff_eq] using first
  subst zero
  exact absurd second (by decide)

/-- The third task waits and can be interrupted, all others run. -/
def thirdWaits (task : Task) : UInt64 :=
  if task = 3 then 1 else 0

/-- While the dump looks at the first process its second thread exits, and a
process comes that cannot be interrupted.  The dump stands on the third task when
that exits. -/
def busyLabels : List Label :=
  List.replicate 2 .dumps ++ [.changes (.exitThread 1 2), .changes (.fork 4), .sets 4 2] ++
    List.replicate 3 .dumps ++ [.changes (.exitProcess 3)] ++ List.replicate 12 .dumps

end ProcessList
end KernelStudy
