import KernelStudy.Foundations.LabelledRun

namespace KernelStudy
namespace HeartbeatTimer

open LabelledRun

/-!
# The timer that arms itself again

The heartbeat module allocates one kernel timer, arms it, and arms it again
at the end of every callback.  Unloading deletes the timer and frees its
memory.  The callback runs on whichever processor handles the expiry, so its
steps fall anywhere among the steps of the loading and unloading code.

A run is a list of such steps.  Each call into the timer code of the kernel is
one step.  `del_timer` takes a pending timer off the wheel and returns at once;
it does not wait for a callback in progress.  Times are not modelled: an armed
timer may expire at any later step.
-/

/-! ## The steps of the module -/

/-- How far loading and unloading have come.  `exited` means that
`mytimer_exit` has returned. -/
inductive ModulePoint where
  | unloaded
  | allocated
  | setUp
  | loaded
  | deleted
  | exited
deriving DecidableEq, Repr

/-- Where a callback in progress stands. -/
inductive Callback where
  | idle
  | entered
  | reported
deriving DecidableEq, Repr

/-- `armed` says that the timer is on the kernel's wheel.  `misused` records
that some step has used the timer while its memory was not allocated. -/
structure State where
  point : ModulePoint
  live : Bool
  armed : Bool
  callback : Callback
  misused : Bool
deriving DecidableEq, Repr

/-- Before the module is loaded. -/
def initial : State := ⟨.unloaded, false, false, .idle, false⟩

/-- The steps of `qgpu_start_heartbeat_timer`, of one expiry with
`qgpu_heartbeat_callback`, and of `qgpu_del_timer`. -/
inductive Label where
  | osAllocTimerlist
  | osTimerSetup
  | osModTimer
  | expire
  | callbackBody
  | callbackModTimer
  | osDelTimer
  | osFreeTimerlist
deriving DecidableEq, Repr

/-- Use the memory of the timer. -/
def State.use (state : State) : State :=
  { state with misused := state.misused || !state.live }

def Enabled (state : State) : Label -> Prop
  | .osAllocTimerlist => state.point = .unloaded
  | .osTimerSetup => state.point = .allocated
  | .osModTimer => state.point = .setUp
  | .expire => state.armed = true /\ state.callback = .idle
  | .callbackBody => state.callback = .entered
  | .callbackModTimer => state.callback = .reported
  | .osDelTimer => state.point = .loaded
  | .osFreeTimerlist => state.point = .deleted

instance enabledDecidable (state : State) : (label : Label) -> Decidable (Enabled state label)
  | .expire => inferInstanceAs (Decidable (_ /\ _))
  | .osAllocTimerlist | .osTimerSetup | .osModTimer | .callbackBody | .callbackModTimer
  | .osDelTimer | .osFreeTimerlist => inferInstanceAs (Decidable (_ = _))

def effect (state : State) : Label -> State
  | .osAllocTimerlist => { state with point := .allocated, live := true }
  | .osTimerSetup => { state.use with point := .setUp, armed := false }
  | .osModTimer => { state.use with point := .loaded, armed := true }
  | .expire => { state.use with armed := false, callback := .entered }
  -- the body prints the address of the timer and does not look at its memory
  | .callbackBody => { state with callback := .reported }
  | .callbackModTimer => { state.use with armed := true, callback := .idle }
  | .osDelTimer => { state.use with point := .deleted, armed := false }
  | .osFreeTimerlist => { state with point := .exited, live := false }

def step : State -> Label -> Option State := guarded Enabled effect

/-- The timer has not been used without its memory, and it is not armed once
the module has been unloaded. -/
def Safe (state : State) : Prop :=
  state.misused = false /\ (state.point = .exited -> state.armed = false)

instance (state : State) : Decidable (Safe state) :=
  inferInstanceAs (Decidable (_ /\ (_ -> _)))

/-- `del_timer` is called while no callback is in progress. -/
def DeletedWhenIdle (state : State) (label : Label) : Prop :=
  label = .osDelTimer -> state.callback = .idle

instance (state : State) (label : Label) : Decidable (DeletedWhenIdle state label) :=
  inferInstanceAs (Decidable (_ -> _))

/-! ## Safety of the runs that delete an idle timer -/

/-- The memory of the timer is allocated at this point. -/
def ModulePoint.holdsTimer : ModulePoint -> Bool
  | .unloaded | .exited => false
  | .allocated | .setUp | .loaded | .deleted => true

/-- The memory is there from its allocation to its release, and outside the
loaded module the timer is at rest. -/
structure AtRest (state : State) : Prop where
  unmisused : state.misused = false
  live : state.point.holdsTimer = true -> state.live = true
  quiet : state.point ≠ .loaded -> state.armed = false /\ state.callback = .idle

theorem atRest_initial : AtRest initial :=
  ⟨rfl, nofun, fun _ => ⟨rfl, rfl⟩⟩

theorem AtRest.safe (state : State) (rest : AtRest state) : Safe state :=
  ⟨rest.unmisused, fun exited => (rest.quiet (by rw [exited]; nofun)).1⟩

/-- An armed timer, or one in its callback, belongs to the loaded module. -/
theorem AtRest.loaded_of_active {state : State} (rest : AtRest state)
    (active : state.armed = true \/ state.callback ≠ .idle) : state.point = .loaded := by
  by_contra outside
  rcases active with armed | running
  · rw [(rest.quiet outside).1] at armed
    cases armed
  · exact running (rest.quiet outside).2

/-- A use of the timer where its memory is allocated is no misuse. -/
theorem AtRest.use_unmisused {state : State} {point : ModulePoint} (rest : AtRest state)
    (here : state.point = point) (holds : point.holdsTimer = true) : state.use.misused = false := by
  unfold State.use
  simp only [rest.unmisused, rest.live (here ▸ holds), Bool.not_true, Bool.or_false]

theorem atRest_step (state : State) (label : Label) (next : State) (rest : AtRest state)
    (idle : DeletedWhenIdle state label) (taken : step state label = some next) : AtRest next := by
  rcases guarded_eq_some.mp taken with ⟨enabled, same⟩
  subst next
  cases label with
  | osAllocTimerlist =>
      have quiet := rest.quiet (by rw [enabled]; nofun)
      exact ⟨rest.unmisused, fun _ => rfl, fun _ => quiet⟩
  | osTimerSetup =>
      have here : state.point = .allocated := enabled
      have quiet := rest.quiet (by rw [here]; nofun)
      exact ⟨rest.use_unmisused here rfl, fun _ => rest.live (here ▸ rfl), fun _ => ⟨rfl, quiet.2⟩⟩
  | osModTimer =>
      have here : state.point = .setUp := enabled
      exact ⟨rest.use_unmisused here rfl, fun _ => rest.live (here ▸ rfl),
        fun outside => absurd rfl outside⟩
  | expire =>
      have here := rest.loaded_of_active (Or.inl enabled.1)
      exact ⟨rest.use_unmisused here rfl, rest.live, fun outside => absurd here outside⟩
  | callbackBody =>
      have running : state.callback = .entered := enabled
      have here := rest.loaded_of_active (Or.inr (by rw [running]; nofun))
      exact ⟨rest.unmisused, rest.live, fun outside => absurd here outside⟩
  | callbackModTimer =>
      have running : state.callback = .reported := enabled
      have here := rest.loaded_of_active (Or.inr (by rw [running]; nofun))
      exact ⟨rest.use_unmisused here rfl, rest.live, fun outside => absurd here outside⟩
  | osDelTimer =>
      have here : state.point = .loaded := enabled
      exact ⟨rest.use_unmisused here rfl, fun _ => rest.live (here ▸ rfl),
        fun _ => ⟨rfl, idle rfl⟩⟩
  | osFreeTimerlist =>
      have here : state.point = .deleted := enabled
      have quiet := rest.quiet (by rw [here]; nofun)
      exact ⟨rest.unmisused, nofun, fun _ => quiet⟩

/-! ## What a deletion during a callback leads to -/

/-- After its deletion the timer is still in its callback, on the wheel again,
or already used without its memory. -/
def Escaped (state : State) : Prop :=
  (state.point = .deleted \/ state.point = .exited) /\
    (state.callback ≠ .idle \/ state.armed = true \/ state.misused = true)

theorem escaped_of_busy_deletion (state : State) (label : Label) (next : State)
    (_rest : AtRest state) (busy : ¬ DeletedWhenIdle state label)
    (taken : step state label = some next) : Escaped next := by
  rcases guarded_eq_some.mp taken with ⟨_enabled, same⟩
  subst next
  unfold DeletedWhenIdle at busy
  rw [Classical.not_imp] at busy
  rcases busy with ⟨deletes, running⟩
  subst label
  exact ⟨Or.inl rfl, Or.inl running⟩

/-- No step brings an escaped timer back: its callback arms it, and its expiry
starts the callback again. -/
theorem escaped_step (state : State) (label : Label) (next : State) (escaped : Escaped state)
    (taken : step state label = some next) : Escaped next := by
  rcases guarded_eq_some.mp taken with ⟨enabled, same⟩
  subst next
  rcases escaped with ⟨past, loose⟩
  cases label with
  | osAllocTimerlist | osTimerSetup | osModTimer | osDelTimer =>
      have here : state.point = _ := enabled
      rw [here] at past
      exact absurd past (by decide)
  | expire => exact ⟨past, Or.inl nofun⟩
  | callbackBody => exact ⟨past, Or.inl nofun⟩
  | callbackModTimer => exact ⟨past, Or.inr (Or.inl rfl)⟩
  | osFreeTimerlist => exact ⟨Or.inr rfl, loose⟩

/-- Once the module is gone and the last callback has returned, an escaped
timer is visibly unsafe. -/
theorem Escaped.not_safe (state : State) (escaped : Escaped state)
    (ended : state.point = .exited /\ state.callback = .idle) : ¬ Safe state := by
  rcases ended with ⟨exited, returned⟩
  intro safe
  rcases escaped.2 with running | armed | misused
  · exact running returned
  · rw [safe.2 exited] at armed
    cases armed
  · rw [safe.1] at misused
    cases misused

/-- In every interleaving that deletes the timer outside its callback, the
timer never outlives its memory.  For an unloading that has come to its end
this is also necessary. -/
theorem timer_within_memory (labels : List Label) :
    (RunMeets step DeletedWhenIdle initial labels -> AlongRun step Safe initial labels) /\
      forall final, run step initial labels = some final -> final.point = .exited ->
        final.callback = .idle -> AlongRun step Safe initial labels ->
          RunMeets step DeletedWhenIdle initial labels := by
  have exact_ := alongRun_iff_of_settled step atRest_step AtRest.safe escaped_of_busy_deletion
    escaped_step Escaped.not_safe labels atRest_initial
  exact ⟨exact_.1, fun final completed exited returned along =>
    exact_.2 final completed ⟨exited, returned⟩ along⟩

/-- Load the module, let the timer expire once, and unload it. -/
def oneBeat : List Label :=
  [.osAllocTimerlist, .osTimerSetup, .osModTimer, .expire, .callbackBody, .callbackModTimer,
    .osDelTimer, .osFreeTimerlist]

theorem timer_within_memory_oneBeat :
    RunMeets step DeletedWhenIdle initial oneBeat /\ AlongRun step Safe initial oneBeat := by
  have meets : RunMeets step DeletedWhenIdle initial oneBeat := by decide
  exact ⟨meets, (timer_within_memory oneBeat).1 meets⟩

/-- The callback is entered before the deletion and arms the timer after its
memory has been freed. -/
theorem freed_timer_armed :
    ¬ forall labels, AlongRun step Safe initial labels := by
  intro always
  have along := always [.osAllocTimerlist, .osTimerSetup, .osModTimer, .expire, .callbackBody,
    .osDelTimer, .osFreeTimerlist, .callbackModTimer]
  exact absurd along (by decide)

end HeartbeatTimer
end KernelStudy
