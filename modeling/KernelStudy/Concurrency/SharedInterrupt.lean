import KernelStudy.Foundations.MachineWord
import KernelStudy.Foundations.LabelledRun

namespace KernelStudy
namespace SharedInterrupt

open LabelledRun

/-!
# A handler on a shared interrupt line

The module registers `test_handler` on an interrupt line that other devices
share.  From that moment every interrupt of the line runs the handler, whether
or not the rest of `testirq_init` has been executed.  The handler counts its
runs in `dev_data` and schedules a tasklet, which the kernel executes later.

A step of the model is one statement of `testirq_init` or `testirq_exit`, one
run of the handler, or one execution of a queued tasklet.  A queued tasklet is
an entry of the kernel's queue; its `SCHED` bit is in its own structure, inside
`dev_data`.  The kernel enqueues a tasklet only when the bit was clear, and
clears the bit before it calls the function of the tasklet.
-/

/-! ## The steps of the module -/

/-- The module parameters. -/
structure Parameters where
  irq : Int32
  devname : Option String

/-- How far loading and unloading have come: the statement executed last. -/
inductive ModulePoint where
  | unloaded
  | allocated
  | requested
  | irqAssigned
  | pAssigned
  | countAssigned
  | loaded
  | failed
  | irqFreed
  | exited
deriving DecidableEq, Repr

inductive TaskletFunction where
  | taskletHandler
deriving DecidableEq, Repr

/-- The structure behind `dev_data`.  The last two fields are the function and
the `SCHED` bit of `test_tasklet`; a tasklet without a function holds `NULL`. -/
structure IrqData where
  irq : Int32
  p : Option String
  count : Int32
  function : Option TaskletFunction
  sched : Bool
deriving DecidableEq, Repr

/-- The memory that `kzalloc` returns. -/
def IrqData.zeroed : IrqData := ⟨0, none, 0, none, false⟩

/-- An execution of a queued tasklet calls its function, or ends in `BUG` when
its `SCHED` bit is clear. -/
inductive Execution where
  | ran (function : Option TaskletFunction)
  | bug
deriving DecidableEq, Repr

/-- `line` is the interrupt line on which the handler is registered, and
`queued` the number of entries for the tasklet in the kernel's queue.  The
last three fields record the run: the handler runs since the registration, the
executions of the tasklet, and whether `tasklet_init` cleared a set `SCHED`
bit. -/
structure State where
  point : ModulePoint
  data : IrqData
  line : Option Int32
  queued : Nat
  handlerRuns : Nat
  executions : List Execution
  wiped : Bool
deriving DecidableEq, Repr

/-- Before the module is loaded. -/
def initial : State := ⟨.unloaded, .zeroed, none, 0, 0, [], false⟩

/-- The statements of `testirq_init` with their outcomes, the handler, the
execution of a tasklet, and the statements of `testirq_exit`. -/
inductive Label where
  | kzalloc
  | kzallocFails
  | requestIrq
  | requestIrqFails
  | assignIrq
  | assignP
  | assignCount
  | taskletInit
  | testHandler
  | taskletExecution
  | freeIrq
  | taskletKill
deriving DecidableEq, Repr

def Enabled (state : State) : Label -> Prop
  | .kzalloc | .kzallocFails => state.point = .unloaded
  | .requestIrq | .requestIrqFails => state.point = .allocated
  | .assignIrq => state.point = .requested
  | .assignP => state.point = .irqAssigned
  | .assignCount => state.point = .pAssigned
  | .taskletInit => state.point = .countAssigned
  | .testHandler => state.line ≠ none
  | .taskletExecution => 0 < state.queued
  | .freeIrq => state.point = .loaded
  -- `tasklet_kill` waits until the tasklet is not scheduled
  | .taskletKill => state.point = .irqFreed /\ state.data.sched = false

instance enabledDecidable (state : State) : (label : Label) -> Decidable (Enabled state label)
  | .testHandler => inferInstanceAs (Decidable (_ ≠ _))
  | .taskletExecution => inferInstanceAs (Decidable (0 < _))
  | .taskletKill => inferInstanceAs (Decidable (_ /\ _))
  | .kzalloc | .kzallocFails | .requestIrq | .requestIrqFails | .assignIrq | .assignP
  | .assignCount | .taskletInit | .freeIrq => inferInstanceAs (Decidable (_ = _))

/-- Set the `SCHED` bit, and enqueue the tasklet if the bit was clear. -/
def taskletSchedule (state : State) : State :=
  if state.data.sched then state
  else { state with data := { state.data with sched := true }, queued := state.queued + 1 }

/-- Schedule the tasklet and count the run. -/
def testHandler (state : State) : State :=
  let state := taskletSchedule state
  { state with
    data := { state.data with count := state.data.count + 1 }
    handlerRuns := state.handlerRuns + 1 }

/-- Take one entry off the queue.  The function of the module only prints. -/
def taskletExecution (state : State) : State :=
  let state := { state with queued := state.queued - 1 }
  if state.data.sched then
    { state with
      data := { state.data with sched := false }
      executions := state.executions ++ [.ran state.data.function] }
  else { state with executions := state.executions ++ [.bug] }

/-- Give the tasklet its function and clear its state. -/
def taskletInit (state : State) : State :=
  { state with
    data := { state.data with function := some .taskletHandler, sched := false }
    wiped := state.wiped || state.data.sched }

/-- Remove the handler from a line; a line without the handler is left alone. -/
def freeIrq (state : State) (irq : Int32) : State :=
  if state.line = some irq then { state with line := none } else state

def effect (parameters : Parameters) (state : State) : Label -> State
  | .kzalloc => { state with point := .allocated, data := .zeroed }
  | .kzallocFails => { state with point := .failed }
  | .requestIrq =>
      { state with point := .requested, line := some parameters.irq, handlerRuns := 0 }
  | .requestIrqFails => { state with point := .failed }
  | .assignIrq =>
      { state with point := .irqAssigned, data := { state.data with irq := parameters.irq } }
  | .assignP =>
      { state with point := .pAssigned, data := { state.data with p := parameters.devname } }
  | .assignCount => { state with point := .countAssigned, data := { state.data with count := 0 } }
  | .taskletInit => { taskletInit state with point := .loaded }
  | .testHandler => testHandler state
  | .taskletExecution => taskletExecution state
  | .freeIrq => { freeIrq state state.data.irq with point := .irqFreed }
  | .taskletKill => { state with point := .exited, data := { state.data with sched := false } }

def step (parameters : Parameters) : State -> Label -> Option State :=
  guarded Enabled (effect parameters)

/-! ## The property and its condition -/

/-- The count is the number of handler runs, every execution of the tasklet
has called `tasklet_handler`, no scheduling was wiped out, and nothing of the
module can run after it has been unloaded. -/
structure Safe (state : State) : Prop where
  counted : state.data.count.toInt = state.handlerRuns
  executed : forall execution, execution ∈ state.executions ->
    execution = .ran (some .taskletHandler)
  unwiped : state.wiped = false
  ended : state.point = .exited ->
    ¬ Enabled state .testHandler /\ ¬ Enabled state .taskletExecution

/-- An interrupt of the line arrives only after `tasklet_init`, and only while
the counter can still be increased. -/
def HandledWhenLoaded (state : State) (label : Label) : Prop :=
  label = .testHandler -> state.point = .loaded /\ state.data.count ≠ Int32.maxValue

instance (state : State) (label : Label) : Decidable (HandledWhenLoaded state label) :=
  inferInstanceAs (Decidable (_ -> _))

/-- The handler is registered. -/
def ModulePoint.registered : ModulePoint -> Bool
  | .requested | .irqAssigned | .pAssigned | .countAssigned | .loaded => true
  | .unloaded | .allocated | .failed | .irqFreed | .exited => false

/-- `dev_data->irq` has been assigned. -/
def ModulePoint.irqKnown : ModulePoint -> Bool
  | .irqAssigned | .pAssigned | .countAssigned | .loaded => true
  | .unloaded | .allocated | .requested | .failed | .irqFreed | .exited => false

/-- `tasklet_init` has been executed. -/
def ModulePoint.initialised : ModulePoint -> Bool
  | .loaded | .irqFreed | .exited => true
  | .unloaded | .allocated | .requested | .irqAssigned | .pAssigned | .countAssigned
  | .failed => false

/-- The registration is that of the module's line, the queue and the `SCHED`
bit agree, and before `tasklet_init` the tasklet is untouched. -/
structure Consistent (parameters : Parameters) (state : State) : Prop where
  counted : state.data.count.toInt = state.handlerRuns
  executed : forall execution, execution ∈ state.executions ->
    execution = .ran (some .taskletHandler)
  unwiped : state.wiped = false
  line : state.line = if state.point.registered then some parameters.irq else none
  irq : state.point.irqKnown = true -> state.data.irq = parameters.irq
  untouched : state.point.initialised = false ->
    state.data.function = none /\ state.data.sched = false /\ state.handlerRuns = 0
  function : state.point.initialised = true -> state.data.function = some .taskletHandler
  queued : state.queued = if state.data.sched then 1 else 0
  killed : state.point = .exited -> state.data.sched = false

theorem consistent_initial (parameters : Parameters) : Consistent parameters initial where
  counted := rfl
  executed := nofun
  unwiped := rfl
  line := rfl
  irq := nofun
  untouched := fun _ => ⟨rfl, rfl, rfl⟩
  function := nofun
  queued := rfl
  killed := nofun

theorem Consistent.safe {parameters : Parameters} (state : State)
    (consistent : Consistent parameters state) : Safe state where
  counted := consistent.counted
  executed := consistent.executed
  unwiped := consistent.unwiped
  ended := by
    intro exited
    have line := consistent.line
    have queued := consistent.queued
    rw [exited] at line
    rw [consistent.killed exited] at queued
    exact ⟨fun registered => registered line, fun waiting => Nat.ne_of_gt waiting queued⟩

/-! ## Steps that keep the module consistent -/

theorem count_add_one {count : Int32} (room : count ≠ Int32.maxValue) :
    (count + 1).toInt = count.toInt + 1 := by
  have upper := count.toInt_lt
  have lower := count.le_toInt
  have below : count.toInt ≠ 2 ^ 31 - 1 := fun full => room (Int32.toInt_inj.mp full)
  rw [Int32.toInt_add]
  have one : (1 : Int32).toInt = 1 := rfl
  rw [one]
  exact Int.bmod_eq_of_le (by omega) (by omega)

/-- Scheduling touches only the tasklet, and keeps its bit and the queue in step. -/
theorem taskletSchedule_spec (state : State)
    (agree : state.queued = if state.data.sched then 1 else 0) :
    taskletSchedule state =
      { state with data := { state.data with sched := true }, queued := 1 } := by
  rcases state with ⟨point, ⟨irq, p, count, function, sched⟩, line, queued, runs, executions, wiped⟩
  cases sched with
  | true =>
      have one : queued = 1 := agree
      rw [one]
      rfl
  | false =>
      have none_ : queued = 0 := agree
      rw [none_]
      rfl

/-- A handler run of the loaded module is counted and leaves the tasklet
scheduled once. -/
theorem consistent_testHandler {parameters : Parameters} {state : State}
    (consistent : Consistent parameters state) (loaded : state.point = .loaded)
    (room : state.data.count ≠ Int32.maxValue) : Consistent parameters (testHandler state) := by
  unfold testHandler
  rw [taskletSchedule_spec state consistent.queued]
  refine ⟨?_, consistent.executed, consistent.unwiped, consistent.line, consistent.irq, ?_,
    consistent.function, rfl, ?_⟩
  · have counted := consistent.counted
    simp only [count_add_one room, counted, Nat.cast_add, Nat.cast_one]
  · intro early
    simp only [loaded] at early
    cases early
  · intro exited
    simp only [loaded] at exited
    cases exited

/-- A queued tasklet of a consistent module is scheduled. -/
theorem Consistent.sched_of_queued {parameters : Parameters} {state : State}
    (consistent : Consistent parameters state) (waiting : 0 < state.queued) :
    state.data.sched = true := by
  have queued := consistent.queued
  by_contra clear
  rw [if_neg clear] at queued
  exact Nat.ne_of_gt waiting queued

/-- A scheduled tasklet belongs to a module that has initialised it, so its
execution calls `tasklet_handler`. -/
theorem consistent_taskletExecution {parameters : Parameters} {state : State}
    (consistent : Consistent parameters state) (waiting : 0 < state.queued) :
    Consistent parameters (taskletExecution state) := by
  have scheduled := consistent.sched_of_queued waiting
  have queued := consistent.queued
  rw [if_pos scheduled] at queued
  have initialised : state.point.initialised = true := by
    by_contra early
    have clear := (consistent.untouched (Bool.eq_false_of_not_eq_true early)).2.1
    rw [scheduled] at clear
    cases clear
  unfold taskletExecution
  simp only [scheduled, if_true]
  refine ⟨consistent.counted, ?_, consistent.unwiped, consistent.line, consistent.irq, ?_,
    consistent.function, ?_, fun _ => rfl⟩
  · intro execution member
    rcases List.mem_append.mp member with earlier | now
    · exact consistent.executed execution earlier
    · rw [List.mem_singleton.mp now, consistent.function initialised]
  · intro early
    simp only [initialised] at early
    cases early
  · simp only [queued]
    rfl

/-- A statement that does not change whether the handler is registered keeps
the rule for the line. -/
theorem Consistent.line_moved {parameters : Parameters} {state : State} {before after : ModulePoint}
    (consistent : Consistent parameters state) (here : state.point = before)
    (same : before.registered = after.registered) :
    state.line = if after.registered then some parameters.irq else none := by
  rw [consistent.line, here, same]

/-- Every step that meets the condition keeps the module consistent. -/
theorem consistent_step {parameters : Parameters} (state : State) (label : Label) (next : State)
    (consistent : Consistent parameters state) (handled : HandledWhenLoaded state label)
    (taken : step parameters state label = some next) : Consistent parameters next := by
  rcases guarded_eq_some.mp taken with ⟨enabled, same⟩
  subst next
  cases label with
  | testHandler =>
      rcases handled rfl with ⟨loaded, room⟩
      exact consistent_testHandler consistent loaded room
  | taskletExecution => exact consistent_taskletExecution consistent enabled
  -- the statements of `testirq_init` before `tasklet_init` find the tasklet untouched
  | kzalloc =>
      have here : state.point = .unloaded := enabled
      rcases consistent.untouched (here ▸ rfl) with ⟨_, notScheduled, noRuns⟩
      have queued := consistent.queued
      rw [notScheduled] at queued
      exact ⟨by rw [effect, noRuns]; rfl, consistent.executed, consistent.unwiped,
        consistent.line_moved here rfl, nofun, fun _ => ⟨rfl, rfl, noRuns⟩, nofun, queued, nofun⟩
  | requestIrq =>
      have here : state.point = .allocated := enabled
      rcases consistent.untouched (here ▸ rfl) with ⟨noFunction, notScheduled, noRuns⟩
      have counted := consistent.counted
      rw [noRuns] at counted
      exact ⟨counted, consistent.executed, consistent.unwiped, rfl, nofun,
        fun _ => ⟨noFunction, notScheduled, rfl⟩, nofun, consistent.queued, nofun⟩
  | kzallocFails =>
      have here : state.point = .unloaded := enabled
      exact ⟨consistent.counted, consistent.executed, consistent.unwiped,
        consistent.line_moved here rfl, nofun, fun _ => consistent.untouched (here ▸ rfl), nofun,
        consistent.queued, nofun⟩
  | requestIrqFails =>
      have here : state.point = .allocated := enabled
      exact ⟨consistent.counted, consistent.executed, consistent.unwiped,
        consistent.line_moved here rfl, nofun, fun _ => consistent.untouched (here ▸ rfl), nofun,
        consistent.queued, nofun⟩
  | assignIrq =>
      have here : state.point = .requested := enabled
      exact ⟨consistent.counted, consistent.executed, consistent.unwiped,
        consistent.line_moved here rfl, fun _ => rfl, fun _ => consistent.untouched (here ▸ rfl), nofun,
        consistent.queued, nofun⟩
  | assignP =>
      have here : state.point = .irqAssigned := enabled
      exact ⟨consistent.counted, consistent.executed, consistent.unwiped,
        consistent.line_moved here rfl, fun _ => consistent.irq (here ▸ rfl),
        fun _ => consistent.untouched (here ▸ rfl), nofun, consistent.queued, nofun⟩
  | assignCount =>
      have here : state.point = .pAssigned := enabled
      have untouched := consistent.untouched (here ▸ rfl)
      exact ⟨by rw [effect, untouched.2.2]; rfl, consistent.executed, consistent.unwiped,
        consistent.line_moved here rfl, fun _ => consistent.irq (here ▸ rfl), fun _ => untouched, nofun,
        consistent.queued, nofun⟩
  | taskletInit =>
      have here : state.point = .countAssigned := enabled
      rcases consistent.untouched (here ▸ rfl) with ⟨_, notScheduled, _⟩
      have queued := consistent.queued
      rw [notScheduled] at queued
      exact ⟨consistent.counted, consistent.executed,
        by simp only [effect, taskletInit, consistent.unwiped, notScheduled, Bool.or_self],
        consistent.line_moved here rfl, fun _ => consistent.irq (here ▸ rfl), nofun, fun _ => rfl,
        queued, nofun⟩
  | freeIrq =>
      have here : state.point = .loaded := enabled
      -- the field was assigned from the parameter, so the right line is freed
      have line : state.line = some parameters.irq := by
        rw [consistent.line, here]
        rfl
      have freed : freeIrq state state.data.irq = { state with line := none } := by
        unfold freeIrq
        rw [consistent.irq (here ▸ rfl), if_pos line]
      rw [effect, freed]
      exact ⟨consistent.counted, consistent.executed, consistent.unwiped, rfl, nofun, nofun,
        fun _ => consistent.function (here ▸ rfl), consistent.queued, nofun⟩
  | taskletKill =>
      have here : state.point = .irqFreed := enabled.1
      have queued := consistent.queued
      rw [enabled.2] at queued
      exact ⟨consistent.counted, consistent.executed, consistent.unwiped,
        consistent.line_moved here rfl, nofun, nofun, fun _ => consistent.function (here ▸ rfl), queued,
        fun _ => rfl⟩

/-! ## What an interrupt outside the condition leads to -/

/-- The handler is registered and `tasklet_init` is still to come. -/
def ModulePoint.halfway : ModulePoint -> Bool
  | .requested | .irqAssigned | .pAssigned | .countAssigned => true
  | .unloaded | .allocated | .loaded | .failed | .irqFreed | .exited => false

/-- The tasklet is scheduled without its function, a scheduling has been wiped
out, an execution has gone wrong, or there were more runs than an `int` counts. -/
def Spoilt (state : State) : Prop :=
  (state.point.halfway = true /\ state.data.function = none /\ state.data.sched = true) \/
    state.wiped = true \/
    (Exists fun execution => execution ∈ state.executions /\
      execution ≠ .ran (some .taskletHandler)) \/
    (state.point.initialised = true /\ 2 ^ 31 ≤ state.handlerRuns)

theorem spoilt_of_missed (parameters : Parameters) (state : State) (label : Label) (next : State)
    (consistent : Consistent parameters state) (missed : ¬ HandledWhenLoaded state label)
    (taken : step parameters state label = some next) : Spoilt next := by
  rcases guarded_eq_some.mp taken with ⟨enabled, same⟩
  subst next
  unfold HandledWhenLoaded at missed
  rw [Classical.not_imp] at missed
  rcases missed with ⟨handler, missed⟩
  subst label
  have registered : state.line ≠ none := enabled
  rw [effect, testHandler, taskletSchedule_spec state consistent.queued]
  by_cases loaded : state.point = .loaded
  · have full : state.data.count = Int32.maxValue := by
      by_contra room
      exact missed ⟨loaded, room⟩
    have counted := consistent.counted
    have greatest : Int32.maxValue.toInt = 2 ^ 31 - 1 := rfl
    rw [full, greatest] at counted
    have initialised : state.point.initialised = true := by
      rw [loaded]
      rfl
    exact Or.inr (Or.inr (Or.inr ⟨initialised, by simp only; omega⟩))
  · have halfway : state.point.halfway = true := by
      rw [consistent.line] at registered
      cases point : state.point with
      | loaded => exact absurd point loaded
      | requested | irqAssigned | pAssigned | countAssigned => rfl
      | unloaded | allocated | failed | irqFreed | exited =>
          rw [point] at registered
          exact absurd rfl registered
    have early : state.point.initialised = false := by
      cases point : state.point <;> rw [point] at halfway <;> first | rfl | cases halfway
    exact Or.inl ⟨halfway, (consistent.untouched early).1, rfl⟩

/-- A handler run keeps the point and the marks of the past, and is counted. -/
theorem testHandler_frame (state : State) :
    (testHandler state).point = state.point /\ (testHandler state).wiped = state.wiped /\
      (testHandler state).executions = state.executions /\
      (testHandler state).handlerRuns = state.handlerRuns + 1 := by
  unfold testHandler taskletSchedule
  split <;> exact ⟨rfl, rfl, rfl, rfl⟩

/-- An execution of the tasklet adds itself to the past. -/
theorem taskletExecution_frame (state : State) :
    (taskletExecution state).point = state.point /\
      (taskletExecution state).wiped = state.wiped /\
      (Exists fun execution =>
        (taskletExecution state).executions = state.executions ++ [execution]) /\
      (taskletExecution state).handlerRuns = state.handlerRuns := by
  unfold taskletExecution
  simp only
  split <;> exact ⟨rfl, rfl, ⟨_, rfl⟩, rfl⟩

theorem freeIrq_frame (state : State) (irq : Int32) :
    (freeIrq state irq).wiped = state.wiped /\ (freeIrq state irq).executions = state.executions /\
      (freeIrq state irq).handlerRuns = state.handlerRuns := by
  unfold freeIrq
  split <;> exact ⟨rfl, rfl, rfl⟩

/-- No step undoes a wiped scheduling. -/
theorem effect_wiped {parameters : Parameters} {state : State} (label : Label)
    (wiped : state.wiped = true) : (effect parameters state label).wiped = true := by
  cases label with
  | testHandler => exact (testHandler_frame state).2.1.trans wiped
  | taskletExecution => exact (taskletExecution_frame state).2.1.trans wiped
  | freeIrq => exact (freeIrq_frame state state.data.irq).1.trans wiped
  | taskletInit =>
      rw [effect, taskletInit]
      simp only [wiped, Bool.true_or]
  | kzalloc | kzallocFails | requestIrq | requestIrqFails | assignIrq | assignP | assignCount
  | taskletKill => exact wiped

/-- No step forgets an execution. -/
theorem effect_executions {parameters : Parameters} {state : State} (label : Label)
    {execution : Execution} (member : execution ∈ state.executions) :
    execution ∈ (effect parameters state label).executions := by
  cases label with
  | testHandler =>
      rw [effect, (testHandler_frame state).2.2.1]
      exact member
  | taskletExecution =>
      rcases (taskletExecution_frame state).2.2.1 with ⟨added, grown⟩
      rw [effect, grown]
      exact List.mem_append_left _ member
  | freeIrq =>
      rw [effect, (freeIrq_frame state state.data.irq).2.1]
      exact member
  | kzalloc | kzallocFails | requestIrq | requestIrqFails | assignIrq | assignP | assignCount
  | taskletInit | taskletKill => exact member

/-- Until `tasklet_init` runs or the tasklet is executed, a tasklet scheduled
too early stays scheduled without a function. -/
theorem spoilt_of_early {parameters : Parameters} {state : State} {label : Label}
    (enabled : Enabled state label) (halfway : state.point.halfway = true)
    (noFunction : state.data.function = none) (scheduled : state.data.sched = true) :
    Spoilt (effect parameters state label) := by
  cases label with
  | kzalloc | kzallocFails | requestIrq | requestIrqFails | freeIrq =>
      have here : state.point = _ := enabled
      rw [here] at halfway
      cases halfway
  | taskletKill =>
      rw [enabled.1] at halfway
      cases halfway
  | assignIrq | assignP | assignCount => exact Or.inl ⟨rfl, noFunction, scheduled⟩
  | taskletInit =>
      refine Or.inr (Or.inl ?_)
      rw [effect, taskletInit]
      simp only [scheduled, Bool.or_true]
  | testHandler =>
      rw [effect, testHandler, taskletSchedule, if_pos scheduled]
      exact Or.inl ⟨halfway, noFunction, scheduled⟩
  | taskletExecution =>
      refine Or.inr (Or.inr (Or.inl ⟨.ran none, ?_, nofun⟩))
      rw [effect, taskletExecution]
      simp only [scheduled, if_true, noFunction, List.mem_append, List.mem_singleton, or_true]

/-- The number of runs of an initialised module never falls. -/
theorem effect_handlerRuns (parameters : Parameters) {state : State} {label : Label}
    (enabled : Enabled state label) (initialised : state.point.initialised = true) :
    (effect parameters state label).point.initialised = true /\
      state.handlerRuns ≤ (effect parameters state label).handlerRuns := by
  cases label with
  | kzalloc | kzallocFails | requestIrq | requestIrqFails | assignIrq | assignP | assignCount
  | taskletInit =>
      have here : state.point = _ := enabled
      rw [here] at initialised
      cases initialised
  | testHandler =>
      rcases testHandler_frame state with ⟨point, _, _, runs⟩
      rw [effect, point, runs]
      exact ⟨initialised, Nat.le_succ _⟩
  | taskletExecution =>
      rcases taskletExecution_frame state with ⟨point, _, _, runs⟩
      rw [effect, point, runs]
      exact ⟨initialised, Nat.le_refl _⟩
  | freeIrq => exact ⟨rfl, Nat.le_of_eq (freeIrq_frame state state.data.irq).2.2.symm⟩
  | taskletKill => exact ⟨rfl, Nat.le_refl _⟩

theorem spoilt_step (parameters : Parameters) (state : State) (label : Label) (next : State)
    (spoilt : Spoilt state) (taken : step parameters state label = some next) : Spoilt next := by
  rcases guarded_eq_some.mp taken with ⟨enabled, same⟩
  subst next
  rcases spoilt with ⟨halfway, noFunction, scheduled⟩ | wiped | ⟨execution, member, wrong⟩ |
    ⟨initialised, many⟩
  · exact spoilt_of_early enabled halfway noFunction scheduled
  · exact Or.inr (Or.inl (effect_wiped label wiped))
  · exact Or.inr (Or.inr (Or.inl ⟨execution, effect_executions label member, wrong⟩))
  · have kept := effect_handlerRuns parameters enabled initialised
    exact Or.inr (Or.inr (Or.inr ⟨kept.1, Nat.le_trans many kept.2⟩))

/-- Outside the half-loaded module the damage is visible. -/
theorem Spoilt.not_safe (state : State) (spoilt : Spoilt state)
    (settled : state.point.halfway = false) : ¬ Safe state := by
  intro safe
  rcases spoilt with ⟨halfway, _⟩ | wiped | ⟨execution, member, wrong⟩ | ⟨_, many⟩
  · rw [settled] at halfway
    cases halfway
  · rw [safe.unwiped] at wiped
    cases wiped
  · exact wrong (safe.executed execution member)
  · have counted := safe.counted
    have upper := state.data.count.toInt_lt
    omega

/-- In every interleaving whose interrupts arrive after `tasklet_init` and
within the range of the counter, the runs are counted, the tasklet is executed
as it was scheduled, and nothing runs after the unloading.  For a run that
does not end halfway through the loading this is also necessary. -/
theorem interrupts_handled (parameters : Parameters) (labels : List Label) :
    (RunMeets (step parameters) HandledWhenLoaded initial labels ->
      AlongRun (step parameters) Safe initial labels) /\
      forall final, run (step parameters) initial labels = some final ->
        final.point.halfway = false -> AlongRun (step parameters) Safe initial labels ->
          RunMeets (step parameters) HandledWhenLoaded initial labels :=
  alongRun_iff_of_settled (step parameters) consistent_step Consistent.safe
    (spoilt_of_missed parameters) (spoilt_step parameters) Spoilt.not_safe labels
    (consistent_initial parameters)

/-- Load the module, take two interrupts and one execution, and unload it. -/
def twoInterrupts : List Label :=
  [.kzalloc, .requestIrq, .assignIrq, .assignP, .assignCount, .taskletInit, .testHandler,
    .testHandler, .taskletExecution, .freeIrq, .taskletKill]

theorem interrupts_handled_twoInterrupts :
    RunMeets (step ⟨19, some "testirq"⟩) HandledWhenLoaded initial twoInterrupts /\
      AlongRun (step ⟨19, some "testirq"⟩) Safe initial twoInterrupts := by
  have meets : RunMeets (step ⟨19, some "testirq"⟩) HandledWhenLoaded initial twoInterrupts := by
    decide
  exact ⟨meets, (interrupts_handled ⟨19, some "testirq"⟩ twoInterrupts).1 meets⟩

/-- An interrupt right after `request_irq`, whose tasklet is executed before
it has a function. -/
theorem early_interrupt_unsafe :
    ¬ forall (parameters : Parameters) (labels : List Label),
      AlongRun (step parameters) Safe initial labels := by
  intro always
  have along := always ⟨19, some "testirq"⟩ [.kzalloc, .requestIrq, .testHandler, .taskletExecution]
  have final : run (step ⟨19, some "testirq"⟩) initial
      [.kzalloc, .requestIrq, .testHandler, .taskletExecution] =
      some ⟨.requested, ⟨0, none, 1, none, false⟩, some 19, 0, 1, [.ran none], false⟩ := by
    decide
  have safe := AlongRun.final (step ⟨19, some "testirq"⟩) along final
  exact absurd (safe.executed (.ran none) List.mem_cons_self) nofun

end SharedInterrupt
end KernelStudy
