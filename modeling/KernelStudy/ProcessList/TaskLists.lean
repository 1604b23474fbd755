import KernelStudy.Foundations.RingReader

namespace KernelStudy
namespace ProcessList

open LinkedRing RingReader

/-!
# The lists of processes and threads

Two modules walk over the tasks of the kernel.  Every process is in the ring
`tasks`, whose head is `init_task`, with the task that leads it.  The threads of
a process are in a ring `thread_group`, whose head is the leading task itself.

The kernel changes these rings while the modules walk over them.  A new process
and a new thread come last in their ring.  A thread leaves its ring when it has
exited, and a process leaves when only its leader is left.  A task that has left
keeps its forward links, and its memory is not used for another task while
someone may stand on it.

There is one case in which a leader leaves and a thread of its process stays: that
thread has called `exec`, all others have exited, and it takes the place of the
leader.  It is kept apart from the changes, because the rings it leaves behind are not
what the walks rely on.
-/

/-- A task is named by its address. -/
abbrev Task := Nat

def initTask : Task := 0

/-- `LIST_POISON2`. -/
def listPoison2 : Task := 0xdead000000000122

/-- The two kinds of links, and what they stand for: the leaders of the
processes in the order of the ring, the other threads of each of them, and all
tasks whose memory is in use or has been since the walk began. -/
structure Tasks where
  tasks : Links Task
  threadGroup : Links Task
  leaders : List Task
  threads : Task -> List Task
  born : List Task

inductive Change where
  | fork (task : Task)
  | clone (leader task : Task)
  | exitThread (leader task : Task)
  | exitProcess (leader : Task)
deriving DecidableEq, Repr

namespace Tasks

/-- The threads of a process, its leader first. -/
def members (lists : Tasks) (leader : Task) : List Task :=
  leader :: lists.threads leader

def alive (lists : Tasks) : List Task :=
  lists.leaders.flatMap lists.members

/-- `copy_process` for a process: `INIT_LIST_HEAD(&p->thread_group)` and
`list_add_tail_rcu(&p->tasks, &init_task.tasks)`. -/
def fork (lists : Tasks) (task : Task) : Tasks where
  tasks := linkTail lists.tasks initTask task
  threadGroup := ⟨Function.update lists.threadGroup.next task task,
    Function.update lists.threadGroup.prev task task⟩
  leaders := lists.leaders ++ [task]
  threads := Function.update lists.threads task []
  born := task :: lists.born

/-- `copy_process` for a thread: it is added behind the last one of its group. -/
def clone (lists : Tasks) (leader task : Task) : Tasks :=
  { lists with
    threadGroup := linkTail lists.threadGroup leader task
    threads := Function.update lists.threads leader (lists.threads leader ++ [task])
    born := task :: lists.born }

/-- `__unhash_process` for a thread that does not lead. -/
def exitThread (lists : Tasks) (leader task : Task) : Tasks :=
  { lists with
    threadGroup := unlink listPoison2 lists.threadGroup task
    threads := Function.update lists.threads leader ((lists.threads leader).erase task) }

/-- `__unhash_process` for a leader, which is the last of its group. -/
def exitProcess (lists : Tasks) (leader : Task) : Tasks :=
  { lists with
    tasks := unlink listPoison2 lists.tasks leader
    threadGroup := unlink listPoison2 lists.threadGroup leader
    leaders := lists.leaders.erase leader }

/-- The end of `de_thread`: the last thread beside the leader takes its place among the
processes, and the leader is released. -/
def deThread (lists : Tasks) (leader task : Task) : Tasks where
  tasks := replaceNode listPoison2 lists.tasks leader task
  threadGroup := unlink listPoison2 lists.threadGroup leader
  leaders := lists.leaders.map fun other => if other = leader then task else other
  threads := Function.update (Function.update lists.threads leader []) task []
  born := lists.born

def Allows (lists : Tasks) : Change -> Prop
  | .fork task => task ∉ lists.born
  | .clone leader task => leader ∈ lists.leaders /\ task ∉ lists.born
  | .exitThread leader task => leader ∈ lists.leaders /\ task ∈ lists.threads leader
  | .exitProcess leader => leader ∈ lists.leaders /\ lists.threads leader = []

instance (lists : Tasks) : (change : Change) -> Decidable (lists.Allows change)
  | .fork _ => inferInstanceAs (Decidable (¬ _))
  | .clone _ _ => inferInstanceAs (Decidable (_ /\ _))
  | .exitThread _ _ => inferInstanceAs (Decidable (_ /\ _))
  | .exitProcess _ => inferInstanceAs (Decidable (_ /\ _))

def change (lists : Tasks) : Change -> Tasks
  | .fork task => lists.fork task
  | .clone leader task => lists.clone leader task
  | .exitThread leader task => lists.exitThread leader task
  | .exitProcess leader => lists.exitProcess leader

end Tasks

/-- The task that comes or leaves. -/
def Change.task : Change -> Task
  | .fork task | .clone _ task | .exitThread _ task | .exitProcess task => task

/-- The leader of its process. -/
def Change.process : Change -> Task
  | .fork leader | .clone leader _ | .exitThread leader _ | .exitProcess leader => leader

/-- How many tasks come. -/
def Change.births : Change -> Nat
  | .fork _ | .clone _ _ => 1
  | .exitThread _ _ | .exitProcess _ => 0

/-- The links are rings of the tasks that they stand for, and no task is in two
places. -/
structure Intact (lists : Tasks) : Prop where
  processes : Ring lists.tasks initTask lists.leaders
  groups : forall leader, leader ∈ lists.leaders -> Ring lists.threadGroup leader (lists.threads leader)
  nodup : (initTask :: lists.alive).Nodup
  known : forall task, task ∈ initTask :: lists.alive -> task ∈ lists.born

/-! ## Where the tasks are -/

section Places

variable {lists : Tasks} {leader other task : Task}

theorem mem_alive : task ∈ lists.alive <->
    Exists fun leader => leader ∈ lists.leaders /\ task ∈ lists.members leader :=
  List.mem_flatMap

theorem members_alive (leads : leader ∈ lists.leaders) (member : task ∈ lists.members leader) :
    task ∈ lists.alive :=
  mem_alive.mpr ⟨leader, leads, member⟩

theorem leader_alive (leads : leader ∈ lists.leaders) : leader ∈ lists.alive :=
  members_alive leads List.mem_cons_self

namespace Intact

theorem alive_nodup (intact : Intact lists) : lists.alive.Nodup :=
  (List.nodup_cons.mp intact.nodup).2

theorem leaders_nodup (intact : Intact lists) : lists.leaders.Nodup :=
  (List.nodup_cons.mp intact.processes.nodup).2

theorem born_of_alive (intact : Intact lists) (living : task ∈ lists.alive) : task ∈ lists.born :=
  intact.known task (List.mem_cons_of_mem _ living)

/-- Every task belongs to one process. -/
theorem members_apart (intact : Intact lists) (leads : leader ∈ lists.leaders)
    (otherLeads : other ∈ lists.leaders) (apart : leader ≠ other) (member : task ∈ lists.members leader) :
    task ∉ lists.members other := by
  have pairwise := (List.nodup_flatMap.mp intact.alive_nodup).2
  have symmetric : Std.Symm (Function.onFun List.Disjoint lists.members) :=
    ⟨fun _ _ disjoint => disjoint.symm⟩
  exact fun both => pairwise.forall leads otherLeads apart member both

/-- The neighbours of a task in a ring of threads belong to its process. -/
theorem neighbours (intact : Intact lists) (leads : leader ∈ lists.leaders)
    (member : task ∈ lists.threads leader) :
    lists.threadGroup.prev task ∈ lists.members leader /\
      lists.threadGroup.next task ∈ lists.members leader := by
  rcases List.append_of_mem member with ⟨first, second, split⟩
  have ring := intact.groups leader leads
  rw [split] at ring
  have found := ring_neighbours ring
  rw [← split] at found
  exact found

/-- The last thread of a process belongs to it. -/
theorem last_member (intact : Intact lists) (leads : leader ∈ lists.leaders) :
    lists.threadGroup.prev leader ∈ lists.members leader :=
  (intact.groups leader leads).path.prev_mem

/-- A process without further threads is a ring of one task. -/
theorem alone (intact : Intact lists) (leads : leader ∈ lists.leaders)
    (single : lists.threads leader = []) :
    lists.threadGroup.next leader = leader /\ lists.threadGroup.prev leader = leader := by
  have path := (intact.groups leader leads).path
  rw [single] at path
  exact path

end Intact

end Places

/-! ## What a change touches -/

section Touched

variable {lists : Tasks} {leader task : Task}

/-- The tasks whose links in the rings of threads may change. -/
def Tasks.touched (lists : Tasks) : Change -> List Task
  | .fork task => [task]
  | .clone leader task => task :: lists.members leader
  | .exitThread leader _ | .exitProcess leader => lists.members leader

theorem change_elsewhere (intact : Intact lists) {change : Change} (allowed : lists.Allows change)
    {place : Task} (away : place ∉ lists.touched change) :
    (lists.change change).threadGroup.next place = lists.threadGroup.next place /\
      (lists.change change).threadGroup.prev place = lists.threadGroup.prev place := by
  cases change with
  | fork task =>
      have other : place ≠ task := fun same => away (same ▸ List.mem_cons_self)
      exact ⟨Function.update_of_ne other _ _, Function.update_of_ne other _ _⟩
  | clone leader task =>
      have apart := not_or.mp (mt List.mem_cons.mpr away)
      have last : place ≠ lists.threadGroup.prev leader :=
        fun same => apart.2 (same ▸ intact.last_member allowed.1)
      have first : place ≠ leader := fun same => apart.2 (same ▸ List.mem_cons_self)
      constructor
      · exact (Function.update_of_ne last _ _).trans (Function.update_of_ne apart.1 _ _)
      · exact (Function.update_of_ne first _ _).trans (Function.update_of_ne apart.1 _ _)
  | exitThread leader task =>
      have near := intact.neighbours allowed.1 allowed.2
      have before : place ≠ lists.threadGroup.prev task := fun same => away (same ▸ near.1)
      have behind : place ≠ lists.threadGroup.next task := fun same => away (same ▸ near.2)
      have mine : task ∈ lists.members leader := List.mem_cons_of_mem _ allowed.2
      have other : place ≠ task := fun same => away (same ▸ mine)
      have unlinked := unlink_unlinked listPoison2 lists.threadGroup task
      exact ⟨unlinked.keepsNext place before, unlinked.keepsPrev place behind other⟩
  | exitProcess leader =>
      have single := intact.alone allowed.1 allowed.2
      have other : place ≠ leader := fun same => away (same ▸ List.mem_cons_self)
      have unlinked := unlink_unlinked listPoison2 lists.threadGroup leader
      exact ⟨unlinked.keepsNext place (single.2.symm ▸ other),
        unlinked.keepsPrev place (single.1.symm ▸ other) other⟩

/-- Links that lie outside stay a ring. -/
theorem ring_elsewhere (intact : Intact lists) {change : Change} (allowed : lists.Allows change)
    {head : Task} {nodes : List Task} (ring : Ring lists.threadGroup head nodes)
    (away : forall place, place ∈ head :: nodes -> place ∉ lists.touched change) :
    Ring (lists.change change).threadGroup head nodes := by
  refine ⟨ring.nodup, ring.path.congr ?_ ?_⟩
  · exact fun place member => (change_elsewhere intact allowed (away place member)).1
  · intro place member
    apply (change_elsewhere intact allowed (away place ?_)).2
    rcases List.mem_append.mp member with inside | last
    · exact List.mem_cons_of_mem _ inside
    · rw [List.mem_singleton.mp last]
      exact List.mem_cons_self

/-- The other processes are not touched. -/
theorem members_untouched (intact : Intact lists) {change : Change} (allowed : lists.Allows change)
    {other place : Task} (otherLeads : other ∈ lists.leaders) (member : place ∈ lists.members other)
    (apart : other ≠ change.process) : place ∉ lists.touched change := by
  have living := intact.born_of_alive (members_alive otherLeads member)
  cases change with
  | fork task =>
      intro touched
      exact allowed (List.mem_singleton.mp touched ▸ living)
  | clone leader task =>
      intro touched
      rcases List.mem_cons.mp touched with same | inside
      · exact allowed.2 (same ▸ living)
      · exact intact.members_apart otherLeads allowed.1 apart member inside
  | exitThread leader task =>
      exact intact.members_apart otherLeads allowed.1 apart member
  | exitProcess leader =>
      exact intact.members_apart otherLeads allowed.1 apart member

theorem members_change (change : Change) {other : Task} (apart : other ≠ change.process) :
    (lists.change change).members other = lists.members other := by
  cases change with
  | fork task => exact congrArg (List.cons other) (Function.update_of_ne apart _ _)
  | clone leader task => exact congrArg (List.cons other) (Function.update_of_ne apart _ _)
  | exitThread leader task => exact congrArg (List.cons other) (Function.update_of_ne apart _ _)
  | exitProcess leader => rfl

end Touched

/-! ## The living tasks -/

section Alive

variable {lists : Tasks} {leader task : Task}

theorem members_clone : ((lists.clone leader task).members leader).Perm (task :: lists.members leader) := by
  have extended : (lists.clone leader task).members leader = leader :: (lists.threads leader ++ [task]) :=
    congrArg (List.cons leader) (Function.update_self _ _ _)
  rw [extended, ← List.cons_append]
  exact List.perm_append_singleton task _

theorem members_exitThread (member : task ∈ lists.threads leader) :
    (lists.members leader).Perm (task :: (lists.exitThread leader task).members leader) := by
  have erased : (lists.exitThread leader task).members leader =
      leader :: (lists.threads leader).erase task :=
    congrArg (List.cons leader) (Function.update_self _ _ _)
  rw [erased]
  exact ((List.perm_cons_erase member).cons leader).trans (List.Perm.swap _ _ _)

/-- A task that comes is one more. -/
theorem alive_birth (intact : Intact lists) {change : Change} (allowed : lists.Allows change)
    (birth : change.births = 1) :
    (lists.change change).alive.Perm (change.task :: lists.alive) := by
  cases change with
  | fork task =>
      have same : lists.leaders.flatMap (lists.fork task).members = lists.alive := by
        apply List.flatMap_congr
        intro other leads
        apply members_change (.fork task)
        intro equal
        have isTask : other = task := equal
        exact allowed (intact.born_of_alive (isTask ▸ leader_alive leads))
      have single : (lists.fork task).members task = [task] :=
        congrArg (List.cons task) (Function.update_self _ _ _)
      have appended : (lists.fork task).alive = lists.alive ++ [task] := by
        rw [← same, ← single]
        exact List.flatMap_append.trans (congrArg _ (List.flatMap_singleton _ _))
      exact appended ▸ List.perm_append_singleton task _
  | clone leader task =>
      exact flatMap_extend intact.leaders_nodup allowed.1 members_clone
        (fun other apart => members_change (.clone leader task) apart)
  | exitThread _ _ => exact absurd birth Nat.zero_ne_one
  | exitProcess _ => exact absurd birth Nat.zero_ne_one

/-- A task that leaves is one less. -/
theorem alive_exit (intact : Intact lists) {change : Change} (allowed : lists.Allows change)
    (exits : change.births = 0) :
    lists.alive.Perm (change.task :: (lists.change change).alive) := by
  cases change with
  | fork _ => exact absurd exits Nat.one_ne_zero
  | clone _ _ => exact absurd exits Nat.one_ne_zero
  | exitThread leader task =>
      exact flatMap_extend intact.leaders_nodup allowed.1 (members_exitThread allowed.2)
        (fun other apart => (members_change (.exitThread leader task) apart).symm)
  | exitProcess leader =>
      have erased := (List.perm_cons_erase allowed.1).flatMap_right lists.members
      have single : lists.members leader = [leader] := congrArg (List.cons leader) allowed.2
      rw [List.flatMap_cons, single] at erased
      exact erased

end Alive

/-! ## The rings stay rings -/

section Preservation

variable {lists : Tasks} {leader task : Task}

theorem fork_processes (intact : Intact lists) (fresh : task ∉ lists.born) :
    Linked lists.tasks (lists.fork task).tasks initTask task /\
      task ∉ initTask :: lists.leaders := by
  have outside : task ∉ initTask :: lists.leaders := by
    intro member
    apply fresh
    rcases List.mem_cons.mp member with same | leads
    · exact intact.known task (same ▸ List.mem_cons_self)
    · exact intact.born_of_alive (leader_alive leads)
  refine ⟨linkTail_linked _ (fun same => outside (same ▸ List.mem_cons_self)) ?_, outside⟩
  intro same
  exact outside (same ▸ intact.processes.path.prev_mem)

theorem clone_group (intact : Intact lists) (leads : leader ∈ lists.leaders) (fresh : task ∉ lists.born) :
    Linked lists.threadGroup (lists.clone leader task).threadGroup leader task /\
      task ∉ lists.members leader := by
  have outside : task ∉ lists.members leader :=
    fun member => fresh (intact.born_of_alive (members_alive leads member))
  refine ⟨linkTail_linked _ (fun same => outside (same ▸ List.mem_cons_self)) ?_, outside⟩
  intro same
  exact outside (same ▸ intact.last_member leads)

theorem erase_middle {first second : List Task} (outside : task ∉ first) :
    (first ++ task :: second).erase task = first ++ second := by
  rw [List.erase_append_right _ outside, List.erase_cons_head]

theorem change_processes (intact : Intact lists) {change : Change} (allowed : lists.Allows change) :
    Ring (lists.change change).tasks initTask (lists.change change).leaders := by
  cases change with
  | fork task =>
      have linked := fork_processes intact allowed
      exact linked.1.ring intact.processes linked.2
  | clone _ _ => exact intact.processes
  | exitThread _ _ => exact intact.processes
  | exitProcess leader =>
      rcases List.append_of_mem allowed.1 with ⟨first, second, split⟩
      have ring := intact.processes
      have nodup := intact.leaders_nodup
      rw [split] at ring nodup
      have outside : leader ∉ first :=
        fun member => (List.nodup_append.mp nodup).2.2 leader member leader List.mem_cons_self rfl
      have erased : (lists.exitProcess leader).leaders = first ++ second :=
        (congrArg (fun leaders => leaders.erase leader) split).trans (erase_middle outside)
      exact erased.symm ▸ (unlink_unlinked listPoison2 lists.tasks leader).ring ring

theorem change_group (intact : Intact lists) {change : Change} (allowed : lists.Allows change)
    {other : Task} (leads : other ∈ (lists.change change).leaders) :
    Ring (lists.change change).threadGroup other ((lists.change change).threads other) := by
  by_cases here : other = change.process
  · subst here
    cases change with
    | fork task =>
        have empty : (lists.fork task).threads task = [] := Function.update_self _ _ _
        show Ring (lists.fork task).threadGroup task ((lists.fork task).threads task)
        rw [empty]
        exact ⟨List.nodup_singleton task, Function.update_self _ _ _, Function.update_self _ _ _⟩
    | clone leader task =>
        have linked := clone_group intact allowed.1 allowed.2
        have extended : (lists.clone leader task).threads leader = lists.threads leader ++ [task] :=
          Function.update_self _ _ _
        show Ring (lists.clone leader task).threadGroup leader ((lists.clone leader task).threads leader)
        rw [extended]
        exact linked.1.ring (intact.groups leader allowed.1) linked.2
    | exitThread leader task =>
        rcases List.append_of_mem allowed.2 with ⟨first, second, split⟩
        have ring := intact.groups leader allowed.1
        rw [split] at ring
        have nodup := (List.nodup_cons.mp ring.nodup).2
        have outside : task ∉ first :=
          fun member => (List.nodup_append.mp nodup).2.2 task member task List.mem_cons_self rfl
        have erased : (lists.exitThread leader task).threads leader = first ++ second :=
          (Function.update_self _ _ _).trans
            ((congrArg (fun threads => threads.erase task) split).trans (erase_middle outside))
        show Ring (lists.exitThread leader task).threadGroup leader
          ((lists.exitThread leader task).threads leader)
        rw [erased]
        exact (unlink_unlinked listPoison2 lists.threadGroup task).ring ring
    | exitProcess leader =>
        exact absurd leads (fun member => (intact.leaders_nodup.mem_erase_iff.mp member).1 rfl)
  · have stays : other ∈ lists.leaders := by
      cases change with
      | fork task =>
          rcases List.mem_append.mp leads with before | last
          · exact before
          · exact absurd (List.mem_singleton.mp last) here
      | clone _ _ => exact leads
      | exitThread _ _ => exact leads
      | exitProcess leader => exact List.mem_of_mem_erase leads
    have same : (lists.change change).threads other = lists.threads other :=
      (List.cons.inj (members_change change here)).2
    rw [same]
    apply ring_elsewhere intact allowed (intact.groups other stays)
    exact fun place member => members_untouched intact allowed stays member here

theorem born_change (change : Change) :
    (lists.change change).born = if change.births = 1 then change.task :: lists.born else lists.born := by
  cases change <;> rfl

theorem fresh_of_birth {change : Change} (allowed : lists.Allows change) (birth : change.births = 1) :
    change.task ∉ lists.born := by
  cases change with
  | fork _ => exact allowed
  | clone _ _ => exact allowed.2
  | exitThread _ _ => exact absurd birth Nat.zero_ne_one
  | exitProcess _ => exact absurd birth Nat.zero_ne_one

theorem births_cases (change : Change) : change.births = 1 \/ change.births = 0 := by
  cases change with
  | fork _ => exact Or.inl rfl
  | clone _ _ => exact Or.inl rfl
  | exitThread _ _ => exact Or.inr rfl
  | exitProcess _ => exact Or.inr rfl

/-- Every change keeps the lists intact. -/
theorem intact_change (intact : Intact lists) {change : Change} (allowed : lists.Allows change) :
    Intact (lists.change change) := by
  refine ⟨change_processes intact allowed, fun other leads => change_group intact allowed leads, ?_, ?_⟩
  · rcases births_cases change with birth | exits
    · have more := (alive_birth intact allowed birth).cons initTask
      have fresh := fresh_of_birth allowed birth
      apply (more.trans (List.Perm.swap _ _ _)).symm.nodup
      exact List.nodup_cons.mpr ⟨fun member => fresh (intact.known _ member), intact.nodup⟩
    · have fewer := (alive_exit intact allowed exits).cons initTask
      have nodup := (fewer.trans (List.Perm.swap _ _ _)).nodup intact.nodup
      exact (List.nodup_cons.mp nodup).2
  · intro task member
    rw [born_change]
    rcases births_cases change with birth | exits
    · rw [if_pos birth]
      have more := (alive_birth intact allowed birth).cons initTask
      rcases List.mem_cons.mp ((more.trans (List.Perm.swap _ _ _)).mem_iff.mp member) with same | before
      · exact same ▸ List.mem_cons_self
      · exact List.mem_cons_of_mem _ (intact.known task before)
    · rw [if_neg (exits ▸ Nat.zero_ne_one)]
      have fewer := (alive_exit intact allowed exits).cons initTask
      exact intact.known task ((fewer.trans (List.Perm.swap _ _ _)).mem_iff.mpr
        (List.mem_cons_of_mem _ member))

end Preservation

/-! ## Some tasks -/

/-- Only `init_task` is there. -/
def idle : Tasks where
  tasks := ⟨fun task => task, fun task => task⟩
  threadGroup := ⟨fun task => task, fun task => task⟩
  leaders := []
  threads := fun _ => []
  born := [initTask]

theorem idle_intact : Intact idle where
  processes := ⟨List.nodup_singleton _, rfl, rfl⟩
  groups := fun _ leads => absurd leads List.not_mem_nil
  nodup := List.nodup_singleton _
  known := fun _ member => member

/-- A process of two threads, and a process of one. -/
def threeTasks : Tasks :=
  ((idle.change (.fork 1)).change (.clone 1 2)).change (.fork 3)

theorem threeTasks_intact : Intact threeTasks :=
  intact_change (intact_change (intact_change idle_intact (by decide)) (by decide)) (by decide)

end ProcessList
end KernelStudy
