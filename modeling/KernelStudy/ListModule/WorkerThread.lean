import KernelStudy.Foundations.LabelledRun

namespace KernelStudy
namespace ListModule
namespace WorkerThread

open LabelledRun

/-!
# The thread of the list module

`mylistopt_init` creates a kernel thread and wakes it up, and `mylistopt_exit`
stops it with `kthread_stop`, which asks the thread to stop, wakes it up and waits
until it has exited.  The thread runs code of the module and counts in a static
variable of the module, so it must be gone before the module is.  It looks at the
request once in each pass of its loop.

A step is one call of `mylistopt_init` or `mylistopt_exit` around the thread, or
one statement of the thread.  The thread never changes its state before
`schedule_timeout`, which therefore returns at once.  The module can be loaded
again and again.
-/

/-! ## The two parties -/

/-- What the thread does next.  `woken` is the test that the kernel makes before it
calls the function of the thread. -/
inductive ThreadPoint where
  | sleeping
  | woken
  | loopTop
  | stopping
  | printing
  | counting
  | pausing
  | exited
deriving DecidableEq, Repr

/-- How far loading and unloading have come. -/
inductive ModulePoint where
  | unloaded
  | creating
  | created
  | loaded
  | exiting
  | waiting
deriving DecidableEq, Repr

/-- The two lines of the thread. -/
inductive Line where
  | running (pid time : Int32)
  | shouldStop (pid time : Int32)
deriving DecidableEq, Repr

/-- The variables of the module, the thread with the flag in it, the lines of this
load and those of the earlier ones. -/
structure State where
  point : ModulePoint
  myKernelTask : Bool
  entryTimes : Int32
  thread : Option ThreadPoint
  pid : Int32
  stopRequested : Bool
  lines : List Line
  earlier : List (List Line)
deriving DecidableEq

def initial : State := ⟨.unloaded, false, 0, none, 0, false, [], []⟩

inductive Label where
  | insmod
  | kthreadCreate (pid : Int32)
  | kthreadCreateFails
  | wakeUpProcess
  | rmmod
  | noTask
  | kthreadStop
  | kthreadStopReturns
  | thread
deriving DecidableEq, Repr

def Enabled (state : State) : Label -> Prop
  | .insmod => state.point = .unloaded
  | .kthreadCreate _ | .kthreadCreateFails => state.point = .creating
  | .wakeUpProcess => state.point = .created
  | .rmmod => state.point = .loaded
  | .noTask => state.point = .exiting /\ state.myKernelTask = false
  | .kthreadStop => state.point = .exiting /\ state.myKernelTask = true
  | .kthreadStopReturns => state.point = .waiting /\ state.thread = some .exited
  | .thread => state.thread ≠ none /\ state.thread ≠ some .sleeping /\ state.thread ≠ some .exited

instance enabledDecidable (state : State) : (label : Label) -> Decidable (Enabled state label)
  | .insmod | .kthreadCreate _ | .kthreadCreateFails | .wakeUpProcess | .rmmod =>
      inferInstanceAs (Decidable (_ = _))
  | .noTask | .kthreadStop | .kthreadStopReturns | .thread => inferInstanceAs (Decidable (_ /\ _))

/-- `wake_up_process`. -/
def wakeUp : ThreadPoint -> ThreadPoint
  | .sleeping => .woken
  | point => point

/-- One statement of the thread, from its wake-up to the end of
`mytask_thread_func`. -/
def threadStep (state : State) : ThreadPoint -> State
  | .woken => { state with thread := some (if state.stopRequested then .exited else .loopTop) }
  | .loopTop => { state with thread := some (if state.stopRequested then .stopping else .printing) }
  | .stopping =>
      { state with thread := some .exited, lines := state.lines ++ [.shouldStop state.pid state.entryTimes] }
  | .printing =>
      { state with thread := some .counting, lines := state.lines ++ [.running state.pid state.entryTimes] }
  | .counting => { state with thread := some .pausing, entryTimes := state.entryTimes + 1 }
  | .pausing => { state with thread := some .loopTop }
  | .sleeping | .exited => state

/-- The module is gone, with its variables and the lines of this load behind it.
Nothing is done about the thread. -/
def unload (state : State) : State :=
  { state with point := .unloaded, myKernelTask := false,
               lines := [], earlier := state.earlier ++ [state.lines] }

def effect (state : State) : Label -> State
  | .insmod => { state with point := .creating, myKernelTask := false, entryTimes := 0 }
  | .kthreadCreate pid =>
      { state with point := .created, myKernelTask := true, thread := some .sleeping, pid := pid,
                   stopRequested := false }
  | .kthreadCreateFails | .noTask | .kthreadStopReturns => unload state
  | .wakeUpProcess => { state with point := .loaded, thread := state.thread.map wakeUp }
  | .rmmod => { state with point := .exiting }
  | .kthreadStop =>
      { state with point := .waiting, stopRequested := true, thread := state.thread.map wakeUp }
  | .thread => (state.thread.map (threadStep state)).getD state

def step : State -> Label -> Option State :=
  guarded Enabled effect

/-! ## What is kept -/

/-- The lines of the first `count` passes. -/
def passes (pid : Int32) (count : Nat) : List Line :=
  (List.range count).map fun time => .running pid (Int32.ofNat time)

/-- The lines of a load that is over: the thread was stopped before it began, or it
counted its passes and then reported the request. -/
def Complete (lines : List Line) : Prop :=
  lines = [] \/ Exists fun pid => Exists fun count =>
    lines = passes pid count ++ [.shouldStop pid (Int32.ofNat count)]

/-- The lines and the counter at each point of the thread. -/
def Counted (state : State) : ThreadPoint -> Prop
  | .sleeping | .woken => state.lines = [] /\ state.entryTimes = 0
  | .loopTop | .stopping | .printing | .pausing => Exists fun count =>
      state.lines = passes state.pid count /\ state.entryTimes = Int32.ofNat count
  | .counting => Exists fun count =>
      state.lines = passes state.pid (count + 1) /\ state.entryTimes = Int32.ofNat count
  | .exited => Complete state.lines

/-- No thread is left that can take a step, and one that was there was asked. -/
def Over (state : State) : Prop :=
  forall point, state.thread = some point -> point = .exited /\ state.stopRequested = true

/-- What holds of a thread at each point of the module. -/
def Paired (state : State) : Prop :=
  match state.point with
  | .unloaded => Over state /\ state.lines = []
  | .creating => Over state /\ state.lines = [] /\ state.entryTimes = 0
  | .created => state.thread = some .sleeping /\ state.myKernelTask = true /\ state.stopRequested = false
  | .loaded | .exiting => state.myKernelTask = true /\ state.stopRequested = false /\
      Exists fun point => state.thread = some point /\ point ≠ .sleeping /\ point ≠ .exited /\ point ≠ .stopping
  | .waiting => state.myKernelTask = true /\ state.stopRequested = true /\
      Exists fun point => state.thread = some point /\ point ≠ .sleeping

structure Sound (state : State) : Prop where
  paired : Paired state
  counted : forall point, state.thread = some point -> Counted state point
  complete : forall lines, lines ∈ state.earlier -> Complete lines

theorem passes_succ (pid : Int32) (count : Nat) :
    passes pid (count + 1) = passes pid count ++ [.running pid (Int32.ofNat count)] := by
  rw [passes, List.range_succ, List.map_append, List.map_singleton, passes]

theorem initial_sound : Sound initial :=
  ⟨⟨nofun, rfl⟩, fun _ impossible => absurd impossible (Option.some_ne_none _).symm, List.forall_mem_nil _⟩

/-- A statement of the thread keeps the count. -/
theorem Counted.step {state : State} {point after : ThreadPoint} (counted : Counted state point)
    (running : point ≠ .sleeping /\ point ≠ .exited) (moved : (threadStep state point).thread = some after) :
    Counted (threadStep state point) after := by
  cases point with
  | sleeping => exact absurd rfl running.1
  | exited => exact absurd rfl running.2
  | woken =>
      rcases counted with ⟨noLines, zero⟩
      have next := Option.some.inj moved
      subst after
      cases requested : state.stopRequested with
      | true =>
          simp only [if_true]
          exact Or.inl noLines
      | false =>
          simp only [Bool.false_eq_true, if_false]
          exact ⟨0, noLines, zero⟩
  | loopTop =>
      have next := Option.some.inj moved
      subst after
      cases requested : state.stopRequested with
      | true =>
          simp only [if_true]
          exact counted
      | false =>
          simp only [Bool.false_eq_true, if_false]
          exact counted
  | stopping =>
      rcases counted with ⟨count, lines, time⟩
      have next := Option.some.inj moved
      subst after
      refine Or.inr ⟨state.pid, count, ?_⟩
      rw [← lines, ← time]
      rfl
  | printing =>
      rcases counted with ⟨count, lines, time⟩
      have next := Option.some.inj moved
      subst after
      refine ⟨count, ?_, time⟩
      change state.lines ++ [.running state.pid state.entryTimes] = passes state.pid (count + 1)
      rw [passes_succ, ← lines, ← time]
  | counting =>
      rcases counted with ⟨count, lines, time⟩
      have next := Option.some.inj moved
      subst after
      refine ⟨count + 1, lines, ?_⟩
      change state.entryTimes + 1 = Int32.ofNat (count + 1)
      rw [time, Int32.ofNat_add]
      rfl
  | pausing =>
      have next := Option.some.inj moved
      subst after
      exact counted

/-- Where a statement of the thread leads to, with and without a request. -/
def nextPoint (stopRequested : Bool) : ThreadPoint -> ThreadPoint
  | .woken => if stopRequested then .exited else .loopTop
  | .loopTop => if stopRequested then .stopping else .printing
  | .stopping => .exited
  | .printing => .counting
  | .counting => .pausing
  | .pausing => .loopTop
  | .sleeping => .sleeping
  | .exited => .exited

/-- What the thread leaves as it is. -/
theorem threadStep_frame (state : State) {point : ThreadPoint}
    (here : state.thread = some point) :
    (threadStep state point).thread = some (nextPoint state.stopRequested point) /\
      (threadStep state point).point = state.point /\
      (threadStep state point).myKernelTask = state.myKernelTask /\
      (threadStep state point).stopRequested = state.stopRequested /\
      (threadStep state point).earlier = state.earlier := by
  cases point with
  | sleeping | exited => exact ⟨here, rfl, rfl, rfl, rfl⟩
  | woken | loopTop | stopping | printing | counting | pausing => exact ⟨rfl, rfl, rfl, rfl, rfl⟩

/-- A thread that has not been asked stays in its loop. -/
theorem nextPoint_unasked {point : ThreadPoint}
    (inLoop : point ≠ .sleeping /\ point ≠ .exited /\ point ≠ .stopping) :
    nextPoint false point ≠ .sleeping /\ nextPoint false point ≠ .exited /\ nextPoint false point ≠ .stopping := by
  cases point with
  | sleeping => exact absurd rfl inLoop.1
  | exited => exact absurd rfl inLoop.2.1
  | stopping => exact absurd rfl inLoop.2.2
  | woken | loopTop | printing | counting | pausing => decide

theorem nextPoint_awake {requested : Bool} {point : ThreadPoint} (awake : point ≠ .sleeping) :
    nextPoint requested point ≠ .sleeping := by
  cases point with
  | sleeping => exact absurd rfl awake
  | woken | loopTop | stopping | printing | counting | pausing | exited => cases requested <;> decide

/-- The statement of a running thread. -/
theorem effect_thread {state : State} {point : ThreadPoint} (here : state.thread = some point) :
    effect state .thread = threadStep state point := by
  rw [effect, here, Option.map_some, Option.getD_some]

theorem Sound.thread {state : State} (sound : Sound state) (enabled : Enabled state .thread) :
    Sound (effect state .thread) := by
  rcases enabled with ⟨exists_, awake, unfinished⟩
  rcases Option.ne_none_iff_exists'.mp exists_ with ⟨point, here⟩
  have running : point ≠ .sleeping /\ point ≠ .exited :=
    ⟨fun same => awake (same ▸ here), fun same => unfinished (same ▸ here)⟩
  rcases threadStep_frame state here with ⟨thread, module, task, request, earlier⟩
  rw [effect_thread here]
  refine ⟨?_, fun after moved => (sound.counted point here).step running moved, ?_⟩
  · have paired := sound.paired
    rw [Paired] at paired ⊢
    rw [module]
    cases now : state.point with
    | unloaded | creating =>
        rw [now] at paired
        exact absurd (paired.1 point here).1 running.2
    | created =>
        rw [now] at paired
        exact absurd paired.1 awake
    | loaded | exiting =>
        rw [now] at paired
        rcases paired with ⟨created, unasked, other, same, inLoop⟩
        cases same.symm.trans here
        rw [thread, task, request, unasked]
        exact ⟨created, rfl, _, rfl, nextPoint_unasked inLoop⟩
    | waiting =>
        rw [now] at paired
        rcases paired with ⟨created, asked, _⟩
        rw [thread, task, request, asked]
        exact ⟨created, rfl, _, rfl, nextPoint_awake running.1⟩
  · rw [earlier]
    exact sound.complete

/-- When no thread is left, there is nothing more to be counted. -/
theorem counted_of_over {state : State} (over_ : Over state) (noLines : state.lines = []) (point : ThreadPoint)
    (here : state.thread = some point) : Counted state point := by
  rw [(over_ point here).1]
  exact Or.inl noLines

/-- The module can go when no thread is left, and its lines can be put aside when
they are complete. -/
theorem Sound.unload {state : State} (sound : Sound state) (over_ : Over state)
    (complete : Complete state.lines) : Sound (unload state) := by
  refine ⟨⟨over_, rfl⟩, counted_of_over over_ rfl, ?_⟩
  intro lines member
  rcases List.mem_append.mp member with before | last
  · exact sound.complete lines before
  · rw [List.mem_singleton.mp last]
    exact complete

/-- Every step keeps the two parties in order. -/
theorem step_sound (state : State) (label : Label) (next : State) (sound : Sound state)
    (taken : step state label = some next) : Sound next := by
  rcases guarded_eq_some.mp taken with ⟨enabled, same⟩
  subst next
  have paired := sound.paired
  rw [Paired] at paired
  cases label with
  | insmod =>
      have here : state.point = .unloaded := enabled
      rw [here] at paired
      exact ⟨⟨paired.1, paired.2, rfl⟩, counted_of_over paired.1 paired.2, sound.complete⟩
  | kthreadCreate pid =>
      have here : state.point = .creating := enabled
      rw [here] at paired
      refine ⟨⟨rfl, rfl, rfl⟩, fun point same => ?_, sound.complete⟩
      cases same
      exact paired.2
  | kthreadCreateFails =>
      have here : state.point = .creating := enabled
      rw [here] at paired
      exact sound.unload paired.1 (Or.inl paired.2.1)
  | wakeUpProcess =>
      have here : state.point = .created := enabled
      rw [here] at paired
      rcases paired with ⟨asleep, task, unasked⟩
      have woken : state.thread.map wakeUp = some .woken := by rw [asleep, Option.map_some, wakeUp]
      refine ⟨⟨task, unasked, .woken, woken, by decide⟩, fun point same => ?_, sound.complete⟩
      cases woken.symm.trans same
      exact sound.counted .sleeping asleep
  | rmmod =>
      have here : state.point = .loaded := enabled
      rw [here] at paired
      exact ⟨paired, sound.counted, sound.complete⟩
  | noTask =>
      rcases enabled with ⟨here, noTask⟩
      rw [here] at paired
      cases paired.1.symm.trans noTask
  | kthreadStop =>
      rcases enabled with ⟨here, _⟩
      rw [here] at paired
      rcases paired with ⟨task, _, point, thread, awake, _⟩
      have kept : state.thread.map wakeUp = some point := by
        rw [thread, Option.map_some]
        cases point with
        | sleeping => exact absurd rfl awake
        | woken | loopTop | stopping | printing | counting | pausing | exited => rfl
      refine ⟨⟨task, rfl, point, kept, awake⟩, fun other same => ?_, sound.complete⟩
      cases kept.symm.trans same
      have counted := sound.counted point thread
      cases point with
      | sleeping | woken | loopTop | stopping | printing | counting | pausing | exited => exact counted
  | kthreadStopReturns =>
      rcases enabled with ⟨here, finished⟩
      rw [here] at paired
      apply sound.unload _ (sound.counted .exited finished)
      intro point same
      cases finished.symm.trans same
      exact ⟨rfl, paired.2.1⟩
  | thread => exact sound.thread enabled

/-! ## Unloading ends -/

/-- The statements until a thread that has been asked to stop has exited. -/
def distance : ThreadPoint -> Nat
  | .exited => 0
  | .sleeping => 0
  | .woken => 1
  | .stopping => 1
  | .loopTop => 2
  | .pausing => 3
  | .counting => 4
  | .printing => 5

theorem distance_le (point : ThreadPoint) : distance point ≤ 5 := by
  cases point <;> decide

theorem distance_next {point : ThreadPoint} (awake : point ≠ .sleeping) (unfinished : point ≠ .exited) :
    distance (nextPoint true point) + 1 = distance point := by
  cases point with
  | sleeping => exact absurd rfl awake
  | exited => exact absurd rfl unfinished
  | woken | loopTop | stopping | printing | counting | pausing => rfl

/-- `kthread_stop` has asked the thread and waits for it. -/
structure Waiting (state : State) (point : ThreadPoint) : Prop where
  sound : Sound state
  waiting : state.point = .waiting
  here : state.thread = some point

theorem Waiting.asked {state : State} {point : ThreadPoint} (waits : Waiting state point) :
    state.stopRequested = true /\ point ≠ .sleeping := by
  have paired := waits.sound.paired
  rw [Paired, waits.waiting] at paired
  rcases paired with ⟨_, asked, other, same, awake⟩
  cases same.symm.trans waits.here
  exact ⟨asked, awake⟩

/-- Until the thread has exited nobody but the thread takes a step, and each of its
steps brings it nearer. -/
theorem Waiting.step {state next : State} {label : Label} {point : ThreadPoint} (waits : Waiting state point)
    (waitsOn : label ≠ .kthreadStopReturns) (taken : step state label = some next) :
    label = .thread /\ Waiting next (nextPoint true point) /\ distance (nextPoint true point) + 1 = distance point := by
  have keeps := step_sound state label next waits.sound taken
  rcases guarded_eq_some.mp taken with ⟨enabled, same⟩
  have now := waits.waiting
  cases label with
  | insmod | kthreadCreate | kthreadCreateFails | wakeUpProcess | rmmod =>
      have elsewhere : state.point = _ := enabled
      cases now.symm.trans elsewhere
  | noTask | kthreadStop => cases now.symm.trans enabled.1
  | kthreadStopReturns => exact absurd rfl waitsOn
  | thread =>
      rcases threadStep_frame state waits.here with ⟨thread, module, _⟩
      rw [waits.asked.1] at thread
      rw [effect_thread waits.here] at same
      subst next
      refine ⟨rfl, ⟨keeps, module.trans now, thread⟩, distance_next waits.asked.2 ?_⟩
      intro finished
      exact enabled.2.2 (finished ▸ waits.here)

/-- While the return is outstanding there are at most as many steps as the distance. -/
theorem Waiting.bounded {state final : State} {point : ThreadPoint} (waits : Waiting state point)
    {labels : List Label} (waitsOn : forall label, label ∈ labels -> label ≠ .kthreadStopReturns)
    (completed : run WorkerThread.step state labels = some final) : labels.length ≤ distance point := by
  induction labels generalizing state point with
  | nil => exact Nat.zero_le _
  | cons label labels inductionHypothesis =>
      rcases (run_cons _).mp completed with ⟨next, taken, rest⟩
      rcases waits.step (waitsOn label List.mem_cons_self) taken with ⟨_, waitsNext, nearer⟩
      have shorter := inductionHypothesis waitsNext
        (fun other member => waitsOn other (List.mem_cons_of_mem label member)) rest
      rw [List.length_cons]
      omega

/-- The thread can take these steps, and then `kthread_stop` returns. -/
theorem Waiting.returns {state : State} {point : ThreadPoint} (waits : Waiting state point) :
    Exists fun final => Exists fun next =>
      run WorkerThread.step state (List.replicate (distance point) .thread) = some final /\
        WorkerThread.step final .kthreadStopReturns = some next /\ next.point = .unloaded := by
  generalize remaining : distance point = count
  induction count generalizing state point with
  | zero =>
      have finished : point = .exited := by
        cases point with
        | sleeping => exact absurd rfl waits.asked.2
        | exited => rfl
        | woken | loopTop | stopping | printing | counting | pausing => cases remaining
      refine ⟨state, _, rfl, guarded_eq_some.mpr ⟨⟨waits.waiting, ?_⟩, rfl⟩, rfl⟩
      exact finished ▸ waits.here
  | succ count inductionHypothesis =>
      have enabled : Enabled state .thread := by
        rw [Enabled, waits.here]
        refine ⟨Option.some_ne_none _, fun same => waits.asked.2 (Option.some.inj same), fun same => ?_⟩
        rw [Option.some.inj same] at remaining
        cases remaining
      have taken : WorkerThread.step state .thread = some (effect state .thread) :=
        guarded_eq_some.mpr ⟨enabled, rfl⟩
      rcases waits.step (by decide) taken with ⟨_, waitsNext, nearer⟩
      rcases inductionHypothesis waitsNext (by omega) with ⟨final, next, rest, returned⟩
      exact ⟨final, next, (run_cons _).mpr ⟨_, taken, rest⟩, returned⟩

/-! ## Every schedule -/

/-- A thread that the module leaves behind has exited, so it takes no step without
the module, and none exits unasked; the lines of the earlier loads are complete;
and an unloading that waits for the thread ends within five statements of it,
whoever is scheduled. -/
structure Contained (state : State) : Prop where
  gone : state.point = .unloaded -> (forall point, state.thread = some point -> point = .exited) /\
    step state .thread = none
  unasked : state.thread = some .exited -> state.stopRequested = true /\
    state.point ≠ .created /\ state.point ≠ .loaded /\ state.point ≠ .exiting
  complete : forall lines, lines ∈ state.earlier -> Complete lines
  ends : state.point = .waiting -> forall labels final,
    (forall label, label ∈ labels -> label ≠ .kthreadStopReturns) -> run step state labels = some final ->
      labels.length ≤ 5
  returns : state.point = .waiting -> Exists fun count => count ≤ 5 /\ Exists fun final => Exists fun next =>
    run step state (List.replicate count .thread) = some final /\
      step final .kthreadStopReturns = some next /\ next.point = .unloaded

theorem Sound.waiting {state : State} (sound : Sound state) (here : state.point = .waiting) :
    Exists fun point => Waiting state point := by
  have paired := sound.paired
  rw [Paired, here] at paired
  rcases paired with ⟨_, _, point, thread, _⟩
  exact ⟨point, sound, here, thread⟩

theorem Sound.contained {state : State} (sound : Sound state) : Contained state := by
  have paired := sound.paired
  rw [Paired] at paired
  refine ⟨?_, ?_, sound.complete, ?_, ?_⟩
  · intro here
    rw [here] at paired
    refine ⟨fun point thread => (paired.1 point thread).1, ?_⟩
    rw [step, guarded, if_neg]
    rintro ⟨exists_, _, unfinished⟩
    rcases Option.ne_none_iff_exists'.mp exists_ with ⟨point, thread⟩
    exact unfinished ((paired.1 point thread).1 ▸ thread)
  · intro exited
    cases here : state.point with
    | unloaded | creating =>
        rw [here] at paired
        exact ⟨(paired.1 .exited exited).2, by decide, by decide, by decide⟩
    | created =>
        rw [here] at paired
        cases paired.1.symm.trans exited
    | loaded | exiting =>
        rw [here] at paired
        rcases paired with ⟨_, _, point, thread, _, running, _⟩
        cases thread.symm.trans exited
        exact absurd rfl running
    | waiting =>
        rw [here] at paired
        exact ⟨paired.2.1, by decide, by decide, by decide⟩
  · intro here labels final waitsOn completed
    rcases sound.waiting here with ⟨point, waits⟩
    exact Nat.le_trans (waits.bounded waitsOn completed) (distance_le point)
  · intro here
    rcases sound.waiting here with ⟨point, waits⟩
    exact ⟨distance point, distance_le point, waits.returns⟩

/-- Every schedule of any number of loads and unloads with the statements of the
thread. -/
theorem thread_contained (labels : List Label) (state : State) (reached : run step initial labels = some state) :
    Contained state :=
  (invariant_of_run step Sound step_sound initial_sound reached).contained

/-- Two passes of the thread, a request in the middle of the third one, and the
thread exits. -/
def thirdPass : List Label :=
  [.insmod, .kthreadCreate 77, .wakeUpProcess] ++ List.replicate 11 .thread ++ [.rmmod, .kthreadStop] ++
    List.replicate 4 .thread ++ [.kthreadStopReturns]

theorem thread_contained_thirdPass :
    Exists fun state => run step initial thirdPass = some state /\ Contained state /\
      state.earlier = [[.running 77 0, .running 77 1, .running 77 2, .shouldStop 77 3]] := by
  have reached : run step initial thirdPass = some ((run step initial thirdPass).getD initial) := by decide
  exact ⟨_, reached, thread_contained thirdPass _ reached, by decide⟩

end WorkerThread
end ListModule
end KernelStudy
