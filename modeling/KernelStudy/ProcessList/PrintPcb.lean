import KernelStudy.ProcessList.TaskLists

namespace KernelStudy
namespace ProcessList

open LinkedRing RingReader

/-!
# Printing all process control blocks

`print_pcb` walks over the processes and prints two lines for each, and a third
one if the process has an address space.  It tests `mm`, which is a null pointer
for a kernel thread, but not `files` and `fs`: these are null pointers for a
process that has exited and whose parent has not waited for it yet.  The line
before them has been printed by then.
-/

/-- The fields of a task that are printed.  A pointer that may be null is an
option of what is read through it. -/
structure TaskStruct where
  pid : Int32
  state : UInt64
  prio : Int32
  staticPrio : Int32
  normalPrio : Int32
  rtPriority : UInt32
  parent : Task
  comm : String
  files : Option Int32
  fs : Option Int32
  nvcsw : UInt64
  nivcsw : UInt64
  mm : Option (UInt64 × UInt64)
deriving DecidableEq, Repr

/-- A line of the log, with the values in the order in which they are printed. -/
inductive Line where
  | scheduling (pid : Int32) (state : UInt64) (prio staticPrio normalPrio : Int32) (rtPriority : UInt32)
      (parentPid : Int32)
  | resources (comm : String) (filesCount umask : Int32) (nvcsw nivcsw : UInt64)
  | memory (mmapBase totalVm : UInt64)
  | total (cnt : Int32)
deriving DecidableEq, Repr

/-- How `print_pcb` ends: it returns, or it reads through a null pointer. -/
inductive Ending where
  | returns
  | oops (task : Task)
deriving DecidableEq, Repr

variable (data : Task -> TaskStruct)

/-- The first line of a task. -/
def schedulingLine (p : Task) : Line :=
  let task := data p
  .scheduling task.pid task.state task.prio task.staticPrio task.normalPrio task.rtPriority
    (data task.parent).pid

/-- The body of the loop.  Without a second line it has stopped at a null pointer. -/
def printTask (p : Task) : List Line × Option Unit :=
  let task := data p
  match task.files, task.fs with
  | some filesCount, some umask =>
      ([schedulingLine data p, .resources task.comm filesCount umask task.nvcsw task.nivcsw] ++
        (task.mm.map fun mm => Line.memory mm.1 mm.2).toList, some ())
  | _, _ => ([schedulingLine data p], none)

/-- `list_for_each(pos, &task->tasks)`, with the counter. -/
def printTasks (lists : Tasks) : Nat -> Task -> Int32 -> Option (List Line × Ending)
  | fuel, pos, cnt =>
      if pos = initTask then some ([.total cnt], .returns)
      else match fuel with
        | 0 => none
        | fuel + 1 =>
            let cnt := cnt + 1
            match printTask data pos with
            | (lines, none) => some (lines, .oops pos)
            | (lines, some ()) =>
                (printTasks lists fuel (lists.tasks.next pos) cnt).map fun later =>
                  (lines ++ later.1, later.2)

def printPcb (fuel : Nat) (lists : Tasks) : Option (List Line × Ending) :=
  printTasks data lists fuel (lists.tasks.next initTask) 0

/-! ## What is printed -/

/-- Both pointers that are not tested are there. -/
def Complete (p : Task) : Bool :=
  (data p).files.isSome && (data p).fs.isSome

/-- The two lines of a process with files and file system data, and the third one
if it has an address space. -/
def LinesOf (p : Task) (lines : List Line) : Prop :=
  let task := data p
  Exists fun filesCount => Exists fun umask => task.files = some filesCount /\ task.fs = some umask /\
    match task.mm with
    | some (mmapBase, totalVm) => lines = [
        .scheduling task.pid task.state task.prio task.staticPrio task.normalPrio task.rtPriority
          (data task.parent).pid,
        .resources task.comm filesCount umask task.nvcsw task.nivcsw,
        .memory mmapBase totalVm]
    | none => lines = [
        .scheduling task.pid task.state task.prio task.staticPrio task.normalPrio task.rtPriority
          (data task.parent).pid,
        .resources task.comm filesCount umask task.nvcsw task.nivcsw]

theorem printTask_lines {p : Task} (complete : Complete data p = true) :
    LinesOf data p (printTask data p).1 := by
  rcases Bool.and_eq_true_iff.mp complete with ⟨hasFiles, hasFs⟩
  rcases Option.isSome_iff_exists.mp hasFiles with ⟨filesCount, files⟩
  rcases Option.isSome_iff_exists.mp hasFs with ⟨umask, fs⟩
  refine ⟨filesCount, umask, files, fs, ?_⟩
  cases mm : (data p).mm with
  | none =>
      simp only [printTask, files, fs, mm]
      rfl
  | some memory =>
      simp only [printTask, files, fs, mm]
      rfl

/-- The lines of several processes. -/
theorem printTask_chunks {tasks : List Task} (complete : forall p, p ∈ tasks -> Complete data p = true) :
    List.Forall₂ (LinesOf data) tasks (tasks.map fun p => (printTask data p).1) :=
  List.forall₂_map_right_iff.mpr (List.forall₂_same.mpr fun p member => printTask_lines data (complete p member))

/-- The lines for the tasks of a list that come before the first incomplete one,
the first line of that one, and the total if there is none. -/
def expected : List Task -> Int32 -> List Line × Ending
  | [], cnt => ([.total cnt], .returns)
  | p :: rest, cnt =>
      if Complete data p then
        ((printTask data p).1 ++ (expected rest (cnt + 1)).1, (expected rest (cnt + 1)).2)
      else ([schedulingLine data p], .oops p)

theorem printTask_cases (p : Task) :
    Complete data p = true /\ (printTask data p).2 = some () \/
      Complete data p = false /\ printTask data p = ([schedulingLine data p], none) := by
  cases files : (data p).files with
  | none =>
      right
      simp only [Complete, printTask, files, Option.isSome_none, Bool.false_and, true_and]
  | some filesCount =>
      cases fs : (data p).fs with
      | none =>
          right
          simp only [Complete, printTask, files, fs, Option.isSome_none, Bool.and_false, true_and]
      | some umask =>
          left
          simp only [Complete, printTask, files, fs, Option.isSome_some, Bool.and_self, true_and]

theorem printTasks_spec {lists : Tasks} {place : Task} {way : List Task} {fuel : Nat} (cnt : Int32)
    (leads : Leads lists.tasks.next place way initTask) (apart : initTask ∉ way)
    (enough : way.length ≤ fuel) :
    printTasks data lists fuel (lists.tasks.next place) cnt = some (expected data way cnt) := by
  induction way generalizing place fuel cnt with
  | nil =>
      have back : lists.tasks.next place = initTask := leads
      rw [back, expected]
      unfold printTasks
      exact if_pos rfl
  | cons p rest inductionHypothesis =>
      have onward : lists.tasks.next place = p := leads.1
      have notHead : p ≠ initTask := fun same => apart (same ▸ List.mem_cons_self)
      cases fuel with
      | zero => exact absurd enough (Nat.not_succ_le_zero _)
      | succ fuel =>
          have later := inductionHypothesis (cnt + 1) leads.2
            (fun member => apart (List.mem_cons_of_mem _ member)) (Nat.le_of_succ_le_succ enough)
          rw [onward, expected]
          unfold printTasks
          rw [if_neg notHead]
          rcases printTask_cases data p with ⟨complete, printed⟩ | ⟨incomplete, printed⟩
          · rw [if_pos complete]
            have pair : printTask data p = ((printTask data p).1, some ()) := Prod.ext rfl printed
            simp only [later, Option.map_some]
            rw [pair]
          · rw [if_neg (incomplete ▸ Bool.false_ne_true)]
            simp only [printed]

/-- Complete tasks in front of a list. -/
theorem expected_append {before : List Task} (complete : forall p, p ∈ before -> Complete data p = true)
    (rest : List Task) (cnt : Int32) :
    expected data (before ++ rest) cnt =
      (before.flatMap (fun p => (printTask data p).1) ++
        (expected data rest (cnt + Int32.ofNat before.length)).1,
        (expected data rest (cnt + Int32.ofNat before.length)).2) := by
  induction before generalizing cnt with
  | nil =>
      have none_ : cnt + Int32.ofNat 0 = cnt := Int32.add_zero cnt
      rw [List.nil_append, List.flatMap_nil, List.nil_append, List.length_nil, none_]
  | cons p before inductionHypothesis =>
      have later := inductionHypothesis (fun q member => complete q (List.mem_cons_of_mem _ member)) (cnt + 1)
      have counted : cnt + 1 + Int32.ofNat before.length = cnt + Int32.ofNat (p :: before).length := by
        rw [List.length_cons, Nat.add_comm, Int32.ofNat_add, Int32.add_assoc]
        rfl
      rw [counted] at later
      rw [List.cons_append, expected, if_pos (complete p List.mem_cons_self), later, List.flatMap_cons,
        List.append_assoc]

theorem printPcb_spec {lists : Tasks} (intact : Intact lists) :
    printPcb data lists.leaders.length lists = some (expected data lists.leaders 0) :=
  printTasks_spec data 0 (leads_of_path intact.processes.path)
    (List.nodup_cons.mp intact.processes.nodup).1 (Nat.le_refl _)

/-- What `print_pcb` does for every list of processes.  Its walk always ends.
If every process has its files and its file system data, then the two or three
lines of each process are printed in the order of the list, and the number of
them.  Otherwise the lines of the processes before the first one that lacks them
are printed, and the first line of that process, and then the kernel reads through
a null pointer. -/
theorem pcb_printed (lists : Tasks) (intact : Intact lists) :
    ((forall p, p ∈ lists.leaders -> Complete data p = true) ->
      Exists fun chunks => List.Forall₂ (LinesOf data) lists.leaders chunks /\
        printPcb data lists.leaders.length lists =
          some (chunks.flatten ++ [.total (Int32.ofNat lists.leaders.length)], .returns)) /\
    forall before p behind, lists.leaders = before ++ p :: behind ->
      (forall q, q ∈ before -> Complete data q = true) -> Complete data p = false ->
      Exists fun chunks => List.Forall₂ (LinesOf data) before chunks /\
        printPcb data lists.leaders.length lists =
          some (chunks.flatten ++ [.scheduling (data p).pid (data p).state (data p).prio (data p).staticPrio
            (data p).normalPrio (data p).rtPriority (data (data p).parent).pid], .oops p) := by
  constructor
  · intro complete
    refine ⟨_, printTask_chunks data complete, ?_⟩
    have all := expected_append data complete [] 0
    rw [List.append_nil, Int32.zero_add] at all
    rw [printPcb_spec data intact, all, List.flatMap_def]
    rfl
  · intro before p behind split complete incomplete
    refine ⟨_, printTask_chunks data complete, ?_⟩
    have stopped : forall cnt, expected data (p :: behind) cnt = ([schedulingLine data p], .oops p) := by
      intro cnt
      rw [expected, if_neg (incomplete ▸ Bool.false_ne_true)]
    rw [printPcb_spec data intact, split, expected_append data complete, stopped, List.flatMap_def]
    rfl

/-- The process of the third task has exited. -/
def thirdExited (task : Task) : TaskStruct where
  pid := Int32.ofNat task
  state := if task = 3 then 16 else 1
  prio := 120
  staticPrio := 120
  normalPrio := 120
  rtPriority := 0
  parent := 0
  comm := "init"
  files := if task = 3 then none else some 1
  fs := if task = 3 then none else some 18
  nvcsw := 2370
  nivcsw := 4221
  mm := if task = 3 then none else some (0x7f6d83e9c000, 41869)

/-- All lines of the first process, and one of the process that has exited. -/
theorem pcb_printed_exited :
    printPcb thirdExited 2 threeTasks =
      some ([.scheduling 1 1 120 120 120 0 0, .resources "init" 1 18 2370 4221,
        .memory 0x7f6d83e9c000 41869, .scheduling 3 16 120 120 120 0 0], .oops 3) := by
  rcases (pcb_printed thirdExited threeTasks threeTasks_intact).2 [1] 3 [] (by decide) (by decide) (by decide)
    with ⟨chunks, lines, printed⟩
  rcases List.forall₂_cons_left_iff.mp lines with
    ⟨chunk, rest, ⟨filesCount, umask, files, fs, first⟩, others, same⟩
  cases files
  cases fs
  cases others
  rw [same, show chunk = _ from first] at printed
  exact printed

end ProcessList
end KernelStudy
