import KernelStudy.ProcessList.TaskLists

namespace KernelStudy
namespace ProcessList

open LinkedRing RingReader

/-!
# Walks over processes and threads

What lies before a walk while the lists change under it.  A walk over the
processes stands on a leader, and a walk over the threads of a process on one
of its threads; either may have left its ring meanwhile, and so may the tasks on
the way.  A process that has left consists of its leader only, whose link leads
to itself.

The tasks that a nested walk has still to see are those on the inner way, and
all threads of the processes on the outer way.  A change adds the new task to
them or not, or takes the task that leaves from them or not.
-/

/-- The process exists, or it has left and nothing of it remains. -/
def Headed (lists : Tasks) (leader : Task) : Prop :=
  leader ∈ lists.leaders \/
    leader ∉ lists.alive /\ lists.threads leader = [] /\ lists.threadGroup.next leader = leader

/-- The processes before a walk that stands on a leader, or at the head. -/
structure ProcessWay (lists : Tasks) (place : Task) (way : List Task) : Prop where
  leads : Leads lists.tasks.next place way initTask
  nodup : (place :: way).Nodup
  apart : initTask ∉ way
  headed : forall leader, leader ∈ way -> Headed lists leader
  known : forall leader, leader ∈ place :: way -> leader ∈ lists.born

/-- The threads before a walk that stands on a thread of a process. -/
structure ThreadWay (lists : Tasks) (leader place : Task) (way : List Task) : Prop where
  headed : Headed lists leader
  leads : Leads lists.threadGroup.next place way leader
  nodup : (place :: way).Nodup
  apart : leader ∉ way
  member : forall task, task ∈ place :: way -> task ∈ lists.members leader \/ task ∉ lists.alive
  known : forall task, task ∈ leader :: place :: way -> task ∈ lists.born

/-- How a change may affect the tasks that are still to be seen. -/
def Adjusted (change : Change) (before after : List Task) : Prop :=
  after.Perm before \/ change.births = 1 /\ after.Perm (change.task :: before) \/
    change.births = 0 /\ before.Perm (change.task :: after)

/-! ## Adjustments -/

section Adjusted

variable {change : Change} {before after : List Task}

theorem Adjusted.nodup (adjusted : Adjusted change before after) (nodup : before.Nodup)
    (fresh : change.births = 1 -> change.task ∉ before) : after.Nodup := by
  rcases adjusted with same | ⟨birth, more⟩ | ⟨_exits, fewer⟩
  · exact same.symm.nodup nodup
  · exact more.symm.nodup (List.nodup_cons.mpr ⟨fresh birth, nodup⟩)
  · exact (List.nodup_cons.mp (fewer.nodup nodup)).2

theorem Adjusted.keeps (adjusted : Adjusted change before after) {task : Task} (member : task ∈ before)
    (stays : change.births = 0 -> task ≠ change.task) : task ∈ after := by
  rcases adjusted with same | ⟨_birth, more⟩ | ⟨exits, fewer⟩
  · exact same.mem_iff.mpr member
  · exact more.mem_iff.mpr (List.mem_cons_of_mem _ member)
  · exact (List.mem_cons.mp (fewer.mem_iff.mp member)).resolve_left (stays exits)

theorem Adjusted.origin (adjusted : Adjusted change before after) {task : Task} (member : task ∈ after) :
    task ∈ before \/ change.births = 1 /\ task = change.task := by
  rcases adjusted with same | ⟨birth, more⟩ | ⟨_exits, fewer⟩
  · exact Or.inl (same.mem_iff.mp member)
  · rcases List.mem_cons.mp (more.mem_iff.mp member) with new | old
    · exact Or.inr ⟨birth, new⟩
    · exact Or.inl old
  · exact Or.inl (fewer.mem_iff.mpr (List.mem_cons_of_mem _ member))

theorem Adjusted.length (adjusted : Adjusted change before after) :
    after.length ≤ before.length + change.births := by
  rcases adjusted with same | ⟨birth, more⟩ | ⟨_exits, fewer⟩
  · rw [same.length_eq]
    exact Nat.le_add_right _ _
  · rw [more.length_eq, List.length_cons, birth]
  · rw [fewer.length_eq, List.length_cons]
    omega

theorem Adjusted.append_right (adjusted : Adjusted change before after) (further : List Task) :
    Adjusted change (before ++ further) (after ++ further) := by
  rcases adjusted with same | ⟨birth, more⟩ | ⟨exits, fewer⟩
  · exact Or.inl (same.append_right _)
  · exact Or.inr (Or.inl ⟨birth, more.append_right _⟩)
  · exact Or.inr (Or.inr ⟨exits, fewer.append_right _⟩)

theorem Adjusted.append_left (adjusted : Adjusted change before after) (earlier : List Task) :
    Adjusted change (earlier ++ before) (earlier ++ after) := by
  rcases adjusted with same | ⟨birth, more⟩ | ⟨exits, fewer⟩
  · exact Or.inl (same.append_left _)
  · exact Or.inr (Or.inl ⟨birth, (more.append_left _).trans List.perm_middle⟩)
  · exact Or.inr (Or.inr ⟨exits, (fewer.append_left _).trans List.perm_middle⟩)

end Adjusted

/-! ## Tasks that have left -/

section Left

variable {lists : Tasks} {task leader : Task}

theorem not_alive_change (intact : Intact lists) {change : Change} (allowed : lists.Allows change)
    (left : task ∉ lists.alive) (known : task ∈ lists.born) : task ∉ (lists.change change).alive := by
  intro member
  rcases births_cases change with birth | exits
  · rcases List.mem_cons.mp ((alive_birth intact allowed birth).mem_iff.mp member) with new | old
    · exact fresh_of_birth allowed birth (new ▸ known)
    · exact left old
  · exact left ((alive_exit intact allowed exits).mem_iff.mpr (List.mem_cons_of_mem _ member))

/-- A task that leaves is gone afterwards. -/
theorem task_left (intact : Intact lists) {change : Change} (allowed : lists.Allows change)
    (exits : change.births = 0) : change.task ∉ (lists.change change).alive :=
  (List.nodup_cons.mp ((alive_exit intact allowed exits).nodup intact.alive_nodup)).1

/-- A change touches living tasks and the new one. -/
theorem untouched_of_left {change : Change} (allowed : lists.Allows change)
    (left : task ∉ lists.alive) (known : task ∈ lists.born) : task ∉ lists.touched change := by
  intro touched
  cases change with
  | fork new => exact allowed (List.mem_singleton.mp touched ▸ known)
  | clone leader new =>
      rcases List.mem_cons.mp touched with same | inside
      · exact allowed.2 (same ▸ known)
      · exact left (members_alive allowed.1 inside)
  | exitThread leader _ => exact left (members_alive allowed.1 touched)
  | exitProcess leader => exact left (members_alive allowed.1 touched)

/-- The process of a change exists or is new. -/
theorem process_alive_or_fresh {change : Change} (allowed : lists.Allows change) :
    change.process ∈ lists.leaders \/ change.process ∉ lists.born := by
  cases change with
  | fork _ => exact Or.inr allowed
  | clone _ _ => exact Or.inl allowed.1
  | exitThread _ _ => exact Or.inl allowed.1
  | exitProcess _ => exact Or.inl allowed.1

theorem process_ne_of_left {change : Change} (allowed : lists.Allows change)
    (left : task ∉ lists.alive) (known : task ∈ lists.born) : task ≠ change.process := by
  intro same
  rcases process_alive_or_fresh allowed with leads | fresh
  · exact left (same ▸ leader_alive leads)
  · exact fresh (same ▸ known)

theorem headed_change (intact : Intact lists) {change : Change} (allowed : lists.Allows change)
    (headed : Headed lists leader) (known : leader ∈ lists.born) :
    Headed (lists.change change) leader := by
  rcases headed with leads | ⟨left, single, itself⟩
  · by_cases exits : change = .exitProcess leader
    · -- the leader goes last
      subst exits
      have alone := intact.alone allowed.1 allowed.2
      refine Or.inr ⟨task_left intact allowed rfl, allowed.2, ?_⟩
      have unlinked := unlink_unlinked listPoison2 lists.threadGroup leader
      have joined := unlinked.joinsNext
      rw [alone.1, alone.2] at joined
      exact joined
    · left
      cases change with
      | fork _ => exact List.mem_append_left _ leads
      | clone _ _ => exact leads
      | exitThread _ _ => exact leads
      | exitProcess other =>
          apply intact.leaders_nodup.mem_erase_iff.mpr
          exact ⟨fun same => exits (same ▸ rfl), leads⟩
  · right
    have apart := process_ne_of_left allowed left known
    have same : (lists.change change).threads leader = lists.threads leader :=
      (List.cons.inj (members_change change apart)).2
    refine ⟨not_alive_change intact allowed left known, same.trans single, ?_⟩
    exact (change_elsewhere intact allowed (untouched_of_left allowed left known)).1.trans itself

theorem known_change (change : Change) (known : task ∈ lists.born) : task ∈ (lists.change change).born := by
  rw [born_change]
  split
  · exact List.mem_cons_of_mem _ known
  · exact known

end Left

/-! ## The ways after a change -/

section Ways

variable {lists : Tasks} {leader place : Task} {way : List Task}

/-- The threads of the processes on a way that a change of threads does not meet. -/
theorem flatMap_unmet (lists : Tasks) (change : Change) (unmet : change.process ∉ way) :
    way.flatMap (lists.change change).members = way.flatMap lists.members := by
  apply List.flatMap_congr
  intro other member
  exact members_change change (fun same => unmet (same ▸ member))

/-- A change of the threads of a process leaves the way over the processes. -/
theorem ProcessWay.same (processWay : ProcessWay lists place way) (intact : Intact lists)
    {change : Change} (allowed : lists.Allows change) (same : (lists.change change).tasks = lists.tasks) :
    ProcessWay (lists.change change) place way where
  leads := same ▸ processWay.leads
  nodup := processWay.nodup
  apart := processWay.apart
  headed := fun leader member => headed_change intact allowed (processWay.headed leader member)
    (processWay.known leader (List.mem_cons_of_mem _ member))
  known := fun leader member => known_change change (processWay.known leader member)

theorem ProcessWay.fork (processWay : ProcessWay lists place way) (intact : Intact lists) {task : Task}
    (fresh : task ∉ lists.born) :
    ProcessWay (lists.fork task) place way \/ ProcessWay (lists.fork task) place (way ++ [task]) := by
  have allowed : lists.Allows (.fork task) := fresh
  have linked := (fork_processes intact fresh).1
  have outside : task ∉ place :: way := fun member => fresh (processWay.known task member)
  have headed : forall leader, leader ∈ way -> Headed (lists.fork task) leader := fun leader member =>
    headed_change intact allowed (processWay.headed leader member)
      (processWay.known leader (List.mem_cons_of_mem _ member))
  have known : forall leader, leader ∈ place :: way -> leader ∈ (lists.fork task).born :=
    fun leader member => known_change (.fork task) (processWay.known leader member)
  rcases processWay.leads.link intact.processes linked outside processWay.apart with same | longer
  · exact Or.inl ⟨same, processWay.nodup, processWay.apart, headed, known⟩
  · right
    refine ⟨longer, ?_, ?_, ?_, ?_⟩
    · have extended := List.nodup_cons.mpr ⟨outside, processWay.nodup⟩
      exact (List.perm_append_singleton task (place :: way)).symm.nodup extended
    · intro member
      rcases List.mem_append.mp member with inside | last
      · exact processWay.apart inside
      · exact fresh (List.mem_singleton.mp last ▸ intact.known initTask List.mem_cons_self)
    · intro other member
      rcases List.mem_append.mp member with inside | last
      · exact headed other inside
      · rw [List.mem_singleton.mp last]
        exact Or.inl (List.mem_append_right _ List.mem_cons_self)
    · intro other member
      rcases List.mem_append.mp (List.cons_append ▸ member : other ∈ (place :: way) ++ [task]) with
        inside | last
      · exact known other inside
      · rw [List.mem_singleton.mp last]
        exact List.mem_cons_self

theorem ProcessWay.exitProcess (processWay : ProcessWay lists place way) (intact : Intact lists)
    (allowed : lists.Allows (.exitProcess leader)) :
    ProcessWay (lists.exitProcess leader) place way \/
      Exists fun left => ProcessWay (lists.exitProcess leader) place left /\ way.Perm (leader :: left) := by
  rcases List.append_of_mem allowed.1 with ⟨first, second, split⟩
  have ring := intact.processes
  rw [split] at ring
  have unlinked := unlink_unlinked listPoison2 lists.tasks leader
  have headed : forall other, other ∈ way -> Headed (lists.exitProcess leader) other :=
    fun other member => headed_change intact allowed (processWay.headed other member)
      (processWay.known other (List.mem_cons_of_mem _ member))
  rcases processWay.leads.unlink ring unlinked processWay.nodup with same | ⟨left, shorter, fewer⟩
  · exact Or.inl ⟨same, processWay.nodup, processWay.apart, headed, processWay.known⟩
  · right
    have within : forall other, other ∈ left -> other ∈ way :=
      fun other member => fewer.mem_iff.mpr (List.mem_cons_of_mem _ member)
    have nodup := ((fewer.cons place).trans (List.Perm.swap _ _ _)).nodup processWay.nodup
    refine ⟨left, ⟨shorter, (List.nodup_cons.mp nodup).2, fun member => processWay.apart (within _ member),
      fun other member => headed other (within other member), ?_⟩, fewer⟩
    intro other member
    apply processWay.known other
    rcases List.mem_cons.mp member with same | inside
    · exact same ▸ List.mem_cons_self
    · exact List.mem_cons_of_mem _ (within other inside)

/-- The way over the processes, and the threads on it.  A change in the process
on which the walk stands does not affect them. -/
theorem ProcessWay.change (processWay : ProcessWay lists place way) (intact : Intact lists)
    {change : Change} (allowed : lists.Allows change) :
    Exists fun left => ProcessWay (lists.change change) place left /\
      Adjusted change (way.flatMap lists.members) (left.flatMap (lists.change change).members) /\
      (change.process = place ->
        left.flatMap (lists.change change).members = way.flatMap lists.members) := by
  have passed : place ∉ way := (List.nodup_cons.mp processWay.nodup).1
  cases change with
  | fork task =>
      have unmet : task ∉ way :=
        fun member => allowed (processWay.known task (List.mem_cons_of_mem _ member))
      have same := flatMap_unmet lists (.fork task) unmet
      have apart : task ≠ place := fun here => allowed (here ▸ processWay.known place List.mem_cons_self)
      rcases processWay.fork intact allowed with stays | longer
      · exact ⟨way, stays, Or.inl (same ▸ List.Perm.refl _), fun _ => same⟩
      · refine ⟨way ++ [task], longer, Or.inr (Or.inl ⟨rfl, ?_⟩), fun here => absurd here apart⟩
        have single : (lists.fork task).members task = [task] :=
          congrArg (List.cons task) (Function.update_self _ _ _)
        have extended : (way ++ [task]).flatMap (lists.change (.fork task)).members =
            way.flatMap lists.members ++ [task] := by
          rw [List.flatMap_append, same, List.flatMap_singleton]
          exact congrArg _ single
        exact extended ▸ List.perm_append_singleton task _
  | clone leader task =>
      refine ⟨way, processWay.same intact allowed rfl, ?_,
        fun here => flatMap_unmet lists (.clone leader task) (here ▸ passed)⟩
      by_cases met : leader ∈ way
      · exact Or.inr (Or.inl ⟨rfl, flatMap_extend (List.nodup_cons.mp processWay.nodup).2 met members_clone
          (fun other apart => members_change (.clone leader task) apart)⟩)
      · exact Or.inl (flatMap_unmet lists (.clone leader task) met ▸ List.Perm.refl _)
  | exitThread leader task =>
      refine ⟨way, processWay.same intact allowed rfl, ?_,
        fun here => flatMap_unmet lists (.exitThread leader task) (here ▸ passed)⟩
      by_cases met : leader ∈ way
      · exact Or.inr (Or.inr ⟨rfl, flatMap_extend (List.nodup_cons.mp processWay.nodup).2 met
          (members_exitThread allowed.2)
          (fun other apart => (members_change (.exitThread leader task) apart).symm)⟩)
      · exact Or.inl (flatMap_unmet lists (.exitThread leader task) met ▸ List.Perm.refl _)
  | exitProcess leader =>
      rcases processWay.exitProcess intact allowed with stays | ⟨left, shorter, fewer⟩
      · exact ⟨way, stays, Or.inl (List.Perm.refl _), fun _ => rfl⟩
      · have met : leader ∈ way := fewer.mem_iff.mpr List.mem_cons_self
        refine ⟨left, shorter, Or.inr (Or.inr ⟨rfl, ?_⟩), fun here => absurd (here ▸ met) passed⟩
        have spread := fewer.flatMap_right lists.members
        have single : lists.members leader = [leader] := congrArg (List.cons leader) allowed.2
        rw [List.flatMap_cons, single] at spread
        exact spread

theorem ThreadWay.untouched (threadWay : ThreadWay lists leader place way) (intact : Intact lists)
    {change : Change} (allowed : lists.Allows change) (apart : leader ≠ change.process) {task : Task}
    (member : task ∈ place :: way) : task ∉ lists.touched change := by
  have known := threadWay.known task (List.mem_cons_of_mem _ member)
  rcases threadWay.member task member with mine | left
  · rcases threadWay.headed with leads | ⟨leaderLeft, single, _itself⟩
    · exact members_untouched intact allowed leads mine apart
    · have isLeader : task = leader := by
        rw [Tasks.members, single] at mine
        exact List.mem_singleton.mp mine
      exact untouched_of_left allowed (isLeader ▸ leaderLeft) known
  · exact untouched_of_left allowed left known

/-- A change in another process, or one that keeps the forward links along the
way. -/
theorem ThreadWay.same (threadWay : ThreadWay lists leader place way) (intact : Intact lists)
    {change : Change} (allowed : lists.Allows change)
    (next : forall task, task ∈ place :: way ->
      (lists.change change).threadGroup.next task = lists.threadGroup.next task)
    (members : (lists.change change).members leader = lists.members leader) :
    ThreadWay (lists.change change) leader place way where
  headed := headed_change intact allowed threadWay.headed (threadWay.known leader List.mem_cons_self)
  leads := threadWay.leads.congr next
  nodup := threadWay.nodup
  apart := threadWay.apart
  member := by
    intro task member
    rcases threadWay.member task member with mine | left
    · exact Or.inl (members ▸ mine)
    · exact Or.inr (not_alive_change intact allowed left
        (threadWay.known task (List.mem_cons_of_mem _ member)))
  known := fun task member => known_change change (threadWay.known task member)

theorem ThreadWay.clone (threadWay : ThreadWay lists leader place way) (intact : Intact lists) {task : Task}
    (allowed : lists.Allows (.clone leader task)) :
    ThreadWay (lists.clone leader task) leader place way \/
      ThreadWay (lists.clone leader task) leader place (way ++ [task]) := by
  have linked := (clone_group intact allowed.1 allowed.2).1
  have outside : task ∉ place :: way :=
    fun member => allowed.2 (threadWay.known task (List.mem_cons_of_mem _ member))
  have headed := headed_change intact allowed threadWay.headed (threadWay.known leader List.mem_cons_self)
  have member : forall other, other ∈ place :: way -> other ∈ (lists.clone leader task).members leader \/
      other ∉ (lists.clone leader task).alive := by
    intro other member
    rcases threadWay.member other member with mine | left
    · exact Or.inl (members_clone.mem_iff.mpr (List.mem_cons_of_mem _ mine))
    · exact Or.inr (not_alive_change intact allowed left
        (threadWay.known other (List.mem_cons_of_mem _ member)))
  have known : forall other, other ∈ leader :: place :: way -> other ∈ (lists.clone leader task).born :=
    fun other member => known_change (.clone leader task) (threadWay.known other member)
  rcases threadWay.leads.link (intact.groups leader allowed.1) linked outside threadWay.apart with
    same | longer
  · exact Or.inl ⟨headed, same, threadWay.nodup, threadWay.apart, member, known⟩
  · right
    have isNew : task ∈ (lists.clone leader task).members leader :=
      members_clone.mem_iff.mpr List.mem_cons_self
    refine ⟨headed, longer, ?_, ?_, ?_, ?_⟩
    · have extended := List.nodup_cons.mpr ⟨outside, threadWay.nodup⟩
      exact (List.perm_append_singleton task (place :: way)).symm.nodup extended
    · intro member
      rcases List.mem_append.mp member with inside | last
      · exact threadWay.apart inside
      · exact allowed.2 (List.mem_singleton.mp last ▸ threadWay.known leader List.mem_cons_self)
    · intro other within
      rcases List.mem_append.mp (List.cons_append ▸ within : other ∈ (place :: way) ++ [task]) with
        inside | last
      · exact member other inside
      · exact Or.inl (List.mem_singleton.mp last ▸ isNew)
    · intro other within
      rcases List.mem_append.mp (List.cons_append ▸ within : other ∈ (leader :: place :: way) ++ [task]) with
        inside | last
      · exact known other inside
      · rw [List.mem_singleton.mp last]
        exact List.mem_cons_self

theorem ThreadWay.exitThread (threadWay : ThreadWay lists leader place way) (intact : Intact lists)
    {task : Task} (allowed : lists.Allows (.exitThread leader task)) :
    ThreadWay (lists.exitThread leader task) leader place way \/
      Exists fun left => ThreadWay (lists.exitThread leader task) leader place left /\
        way.Perm (task :: left) := by
  rcases List.append_of_mem allowed.2 with ⟨first, second, split⟩
  have ring := intact.groups leader allowed.1
  rw [split] at ring
  have unlinked := unlink_unlinked listPoison2 lists.threadGroup task
  have headed := headed_change intact allowed threadWay.headed (threadWay.known leader List.mem_cons_self)
  have member : forall other, other ∈ place :: way ->
      other ∈ (lists.exitThread leader task).members leader \/
        other ∉ (lists.exitThread leader task).alive := by
    intro other member
    by_cases exits : other = task
    · exact Or.inr (exits ▸ task_left intact allowed rfl)
    · rcases threadWay.member other member with mine | left
      · exact Or.inl ((List.mem_cons.mp ((members_exitThread allowed.2).mem_iff.mp mine)).resolve_left exits)
      · exact Or.inr (not_alive_change intact allowed left
          (threadWay.known other (List.mem_cons_of_mem _ member)))
  rcases threadWay.leads.unlink ring unlinked threadWay.nodup with same | ⟨left, shorter, fewer⟩
  · exact Or.inl ⟨headed, same, threadWay.nodup, threadWay.apart, member, threadWay.known⟩
  · right
    have within : forall other, other ∈ left -> other ∈ way :=
      fun other inside => fewer.mem_iff.mpr (List.mem_cons_of_mem _ inside)
    have withPlace : forall other, other ∈ place :: left -> other ∈ place :: way := by
      intro other inside
      rcases List.mem_cons.mp inside with same | later
      · exact same ▸ List.mem_cons_self
      · exact List.mem_cons_of_mem _ (within other later)
    have nodup := ((fewer.cons place).trans (List.Perm.swap _ _ _)).nodup threadWay.nodup
    refine ⟨left, ⟨headed, shorter, (List.nodup_cons.mp nodup).2, fun inside => threadWay.apart (within _ inside),
      fun other inside => member other (withPlace other inside), ?_⟩, fewer⟩
    intro other inside
    apply threadWay.known other
    rcases List.mem_cons.mp inside with same | later
    · exact same ▸ List.mem_cons_self
    · exact List.mem_cons_of_mem _ (withPlace other later)

/-- The way over the threads.  A change in another process does not affect it. -/
theorem ThreadWay.change (threadWay : ThreadWay lists leader place way) (intact : Intact lists)
    {change : Change} (allowed : lists.Allows change) :
    Exists fun left => ThreadWay (lists.change change) leader place left /\
      Adjusted change way left /\ (leader ≠ change.process -> left = way) := by
  by_cases here : leader = change.process
  · subst here
    cases change with
    | fork task => exact absurd (threadWay.known task List.mem_cons_self) allowed
    | clone leader task =>
        rcases threadWay.clone intact allowed with stays | longer
        · exact ⟨way, stays, Or.inl (List.Perm.refl _), fun _ => rfl⟩
        · exact ⟨way ++ [task], longer, Or.inr (Or.inl ⟨rfl, List.perm_append_singleton task way⟩),
            fun apart => absurd rfl apart⟩
    | exitThread leader task =>
        rcases threadWay.exitThread intact allowed with stays | ⟨left, shorter, fewer⟩
        · exact ⟨way, stays, Or.inl (List.Perm.refl _), fun _ => rfl⟩
        · exact ⟨left, shorter, Or.inr (Or.inr ⟨rfl, fewer⟩), fun apart => absurd rfl apart⟩
    | exitProcess leader =>
        refine ⟨way, threadWay.same intact allowed ?_ rfl, Or.inl (List.Perm.refl _), fun _ => rfl⟩
        -- the leader is its own neighbour, so its link does not change
        intro task _member
        have single := intact.alone allowed.1 allowed.2
        show Function.update lists.threadGroup.next (lists.threadGroup.prev leader)
          (lists.threadGroup.next leader) task = lists.threadGroup.next task
        rw [single.2, Function.update_eq_self]
  · refine ⟨way, threadWay.same intact allowed ?_ (members_change change here),
      Or.inl (List.Perm.refl _), fun _ => rfl⟩
    exact fun task member =>
      (change_elsewhere intact allowed (threadWay.untouched intact allowed here member)).1

/-- All tasks before a nested walk. -/
def remaining (lists : Tasks) (inner outer : List Task) : List Task :=
  inner ++ outer.flatMap lists.members

/-- Both ways of a nested walk together. -/
theorem ways_change {inner outer : List Task} (intact : Intact lists) {change : Change}
    (allowed : lists.Allows change) (processWay : ProcessWay lists leader outer)
    (threadWay : ThreadWay lists leader place inner) :
    Exists fun left => Exists fun further => ThreadWay (lists.change change) leader place left /\
      ProcessWay (lists.change change) leader further /\
      Adjusted change (remaining lists inner outer) (remaining (lists.change change) left further) := by
  rcases processWay.change intact allowed with ⟨further, processWay', spread, unmet⟩
  rcases threadWay.change intact allowed with ⟨left, threadWay', within, other⟩
  refine ⟨left, further, threadWay', processWay', ?_⟩
  by_cases here : leader = change.process
  · rw [remaining, remaining, unmet here.symm]
    exact within.append_right _
  · rw [remaining, remaining, other here]
    exact spread.append_left _

end Ways

end ProcessList
end KernelStudy
