import KernelStudy.Foundations.LabelledRun

namespace KernelStudy
namespace UserNamespace

open LabelledRun

/-!
# Starting a process in a new user namespace

The parent creates a pipe, clones the child into new namespaces, writes the
two id maps of the child, and closes its write end of the pipe.  The child
closes its own write end and then reads from the pipe.  Nothing is ever
written, so the read returns only when the last copy of the write end is
closed, wherever that copy is.  The child sets its host name, mounts `/proc`
and starts a shell after the read.

`clone` is called without `CLONE_FILES`, so the child starts with its own
copies of both ends.  The pipe is taken to have been created; the clone, the
opening of a map file, the write at its `fclose` and the start of the shell may
fail.
-/

/-! ## The two processes -/

/-- The copies of the two pipe ends that a process has open. -/
structure PipeEnds where
  readEnd : Bool
  writeEnd : Bool
deriving DecidableEq, Repr

/-- What the parent has done so far. -/
inductive ParentPoint where
  | start
  | piped
  | cloned
  | uidMapped
  | gidMapped
  | notified
  | finished
deriving DecidableEq, Repr

/-- What the child has done so far.  A `waiting` child is in its `read`. -/
inductive ChildPoint where
  | absent
  | started
  | waiting
  | released
  | named
  | mounted
  | shell
  | failed
  | exited
deriving DecidableEq, Repr

/-- The line that `set_map` writes. -/
structure IdMap where
  insideId : Int32
  outsideId : Int32
  len : Int32
deriving DecidableEq, Repr

structure State where
  parent : ParentPoint
  child : ChildPoint
  parentEnds : PipeEnds
  childEnds : PipeEnds
  uidMap : Option IdMap
  gidMap : Option IdMap

/-- Before `main` calls `pipe`. -/
def initial : State := ⟨.start, .absent, ⟨false, false⟩, ⟨false, false⟩, none, none⟩

/-- How a call of `set_map` ends: the file cannot be opened, or the kernel
refuses or accepts the line when `fclose` writes it. -/
inductive MapWrite where
  | notOpened
  | refused
  | accepted
deriving DecidableEq, Repr

/-- The calls of `main` and of `container_main`.  The arguments say whether the
clone succeeds, how the calls of `set_map` end, and whether `execv` finds the
shell. -/
inductive Action where
  | pipe
  | clone (created : Bool)
  | setUidMap (write : MapWrite)
  | setGidMap (write : MapWrite)
  | closeWrite
  | waitpid
  | childCloseWrite
  | childRead
  | sethostname
  | mount
  | execv (found : Bool)
  | childExit
deriving DecidableEq, Repr

/-- No process has a copy of the write end open. -/
def State.NoWriter (state : State) : Prop :=
  state.parentEnds.writeEnd = false /\ state.childEnds.writeEnd = false

instance (state : State) : Decidable state.NoWriter :=
  inferInstanceAs (Decidable (_ /\ _))

def Enabled (state : State) : Action -> Prop
  | .pipe => state.parent = .start
  | .clone _ => state.parent = .piped
  | .setUidMap _ => state.parent = .cloned
  | .setGidMap _ => state.parent = .uidMapped
  | .closeWrite => state.parent = .gidMapped
  -- without a child, `waitpid` fails at once
  | .waitpid => state.parent = .notified /\ (state.child = .absent \/ state.child = .exited)
  | .childCloseWrite => state.child = .started
  | .childRead => state.child = .waiting /\ state.NoWriter
  | .sethostname => state.child = .released
  | .mount => state.child = .named
  | .execv _ => state.child = .mounted
  | .childExit => state.child = .shell \/ state.child = .failed

instance enabledDecidable (state : State) : (action : Action) -> Decidable (Enabled state action)
  | .waitpid => inferInstanceAs (Decidable (_ /\ (_ \/ _)))
  | .childRead => inferInstanceAs (Decidable (_ /\ _))
  | .childExit => inferInstanceAs (Decidable (_ \/ _))
  | .pipe | .clone _ | .setUidMap _ | .setGidMap _ | .closeWrite | .childCloseWrite | .sethostname
  | .mount | .execv _ => inferInstanceAs (Decidable (_ = _))

/-- A file that cannot be opened or written keeps its content. -/
def setMap (write : MapWrite) (old : Option IdMap) (insideId outsideId len : Int32) : Option IdMap :=
  match write with
  | .accepted => some ⟨insideId, outsideId, len⟩
  -- neither the write nor `fclose` is checked
  | .notOpened | .refused => old

/-- The ids of the user who runs `main`. -/
structure Ids where
  uid : Int32
  gid : Int32

def effect (ids : Ids) (state : State) : Action -> State
  | .pipe => { state with parent := .piped, parentEnds := ⟨true, true⟩ }
  | .clone true =>
      { state with parent := .cloned, child := .started, childEnds := state.parentEnds }
  | .clone false => { state with parent := .cloned }
  | .setUidMap write =>
      { state with parent := .uidMapped, uidMap := setMap write state.uidMap 0 ids.uid 1 }
  | .setGidMap write =>
      { state with parent := .gidMapped, gidMap := setMap write state.gidMap 0 ids.gid 1 }
  | .closeWrite =>
      { state with parent := .notified, parentEnds := { state.parentEnds with writeEnd := false } }
  | .waitpid => { state with parent := .finished }
  | .childCloseWrite =>
      { state with child := .waiting, childEnds := { state.childEnds with writeEnd := false } }
  | .childRead => { state with child := .released }
  | .sethostname => { state with child := .named }
  | .mount => { state with child := .mounted }
  | .execv true => { state with child := .shell }
  | .execv false => { state with child := .failed }
  | .childExit => { state with child := .exited, childEnds := ⟨false, false⟩ }

def step (ids : Ids) : State -> Action -> Option State := guarded Enabled (effect ids)

/-! ## Who holds the write end -/

/-- The parent has created the pipe and not yet closed its write end. -/
def ParentPoint.holdsWriteEnd : ParentPoint -> Bool
  | .piped | .cloned | .uidMapped | .gidMapped => true
  | .start | .notified | .finished => false

/-- The parent has closed its write end. -/
def ParentPoint.closed : ParentPoint -> Bool
  | .notified | .finished => true
  | .start | .piped | .cloned | .uidMapped | .gidMapped => false

/-- The child has returned from its read. -/
def ChildPoint.pastRead : ChildPoint -> Bool
  | .released | .named | .mounted | .shell | .failed | .exited => true
  | .absent | .started | .waiting => false

/-- The open copies of the write end, by the points of the two processes.  The
child exists only after the pipe does. -/
structure EndsTracked (state : State) : Prop where
  parent_end : state.parentEnds.writeEnd = state.parent.holdsWriteEnd
  child_end : state.childEnds.writeEnd = true -> state.child = .started
  created : state.parent = .start -> state.child = .absent
  released : state.child.pastRead = true -> state.parent.closed = true

theorem endsTracked_initial : EndsTracked initial :=
  ⟨rfl, nofun, fun _ => rfl, nofun⟩

section Step

variable {ids : Ids} {state : State}

/-- A call of the parent between `pipe` and its `close` leaves the ends alone. -/
theorem EndsTracked.advance (tracked : EndsTracked state) (point : ParentPoint)
    (holds : point.holdsWriteEnd = state.parent.holdsWriteEnd) (begun : point ≠ .start)
    (closed : state.parent.closed = true -> point.closed = true) (uidMap gidMap : Option IdMap) :
    EndsTracked { state with parent := point, uidMap := uidMap, gidMap := gidMap } :=
  ⟨tracked.parent_end.trans holds.symm, tracked.child_end, fun start => absurd start begun,
    fun past => closed (tracked.released past)⟩

/-- A call of the child that is past its read leaves the ends alone. -/
theorem EndsTracked.proceed (tracked : EndsTracked state) (point : ChildPoint)
    (past : state.child.pastRead = true) : EndsTracked { state with child := point } := by
  refine ⟨tracked.parent_end, fun writer => ?_, fun start => ?_, fun _ => tracked.released past⟩
  · rw [tracked.child_end writer] at past
    exact absurd past Bool.false_ne_true
  · rw [tracked.created start] at past
    exact absurd past Bool.false_ne_true

/-- The read returns only when the parent holds no write end; it has had one
since `pipe`, so it has closed it. -/
theorem EndsTracked.read_returns (tracked : EndsTracked state) (waiting : state.child = .waiting)
    (noWriter : state.NoWriter) : state.parent.closed = true := by
  have none_ := tracked.parent_end
  rw [noWriter.1] at none_
  cases point : state.parent with
  | start =>
      have absent := tracked.created point
      rw [waiting] at absent
      cases absent
  | piped | cloned | uidMapped | gidMapped =>
      rw [point] at none_
      cases none_
  | notified | finished => rfl

end Step

/-- Every call keeps track of the write ends. -/
theorem EndsTracked.step {ids : Ids} (state : State) (action : Action) (next : State)
    (tracked : EndsTracked state) (taken : step ids state action = some next) :
    EndsTracked next := by
  rcases guarded_eq_some.mp taken with ⟨enabled, same⟩
  subst next
  cases action with
  | pipe =>
      have before : state.parent = .start := enabled
      have absent := tracked.created before
      refine ⟨rfl, tracked.child_end, nofun, fun past => ?_⟩
      rw [effect, absent] at past
      exact absurd past Bool.false_ne_true
  | clone created =>
      have before : state.parent = .piped := enabled
      cases created with
      | true =>
          have holds := tracked.parent_end
          rw [before] at holds
          exact ⟨holds, fun _ => rfl, nofun, nofun⟩
      | false => exact tracked.advance .cloned (by rw [before]; rfl) nofun (by rw [before]; nofun) _ _
  | setUidMap write =>
      have before : state.parent = .cloned := enabled
      exact tracked.advance .uidMapped (by rw [before]; rfl) nofun (by rw [before]; nofun) _ _
  | setGidMap write =>
      have before : state.parent = .uidMapped := enabled
      exact tracked.advance .gidMapped (by rw [before]; rfl) nofun (by rw [before]; nofun) _ _
  | closeWrite => exact ⟨rfl, tracked.child_end, nofun, fun _ => rfl⟩
  | waitpid =>
      have before : state.parent = .notified := enabled.1
      exact tracked.advance .finished (by rw [before]; rfl) nofun (fun _ => rfl) _ _
  | childCloseWrite =>
      have before : state.child = .started := enabled
      refine ⟨tracked.parent_end, nofun, fun start => ?_, nofun⟩
      have absent := tracked.created start
      rw [before] at absent
      cases absent
  | childRead =>
      have closed := tracked.read_returns enabled.1 enabled.2
      refine ⟨tracked.parent_end, fun writer => ?_, fun start => ?_, fun _ => closed⟩
      · have open_ : state.childEnds.writeEnd = true := writer
        rw [enabled.2.2] at open_
        cases open_
      · have begun : state.parent = .start := start
        rw [begun] at closed
        cases closed
  | sethostname =>
      have before : state.child = .released := enabled
      exact tracked.proceed .named (by rw [before]; rfl)
  | mount =>
      have before : state.child = .named := enabled
      exact tracked.proceed .mounted (by rw [before]; rfl)
  | execv found =>
      have before : state.child = .mounted := enabled
      cases found with
      | true => exact tracked.proceed .shell (by rw [before]; rfl)
      | false => exact tracked.proceed .failed (by rw [before]; rfl)
  | childExit =>
      have past : state.child.pastRead = true := by
        rcases enabled with shell | failed
        · rw [shell]
          rfl
        · rw [failed]
          rfl
      have kept := tracked.proceed .exited past
      exact ⟨kept.parent_end, nofun, kept.created, kept.released⟩

/-! ## Which calls have returned -/

def ParentPoint.uidReturned : ParentPoint -> Bool
  | .uidMapped | .gidMapped | .notified | .finished => true
  | .start | .piped | .cloned => false

def ParentPoint.gidReturned : ParentPoint -> Bool
  | .gidMapped | .notified | .finished => true
  | .start | .piped | .cloned | .uidMapped => false

/-- What the point of the parent says about the calls made so far, and about
the maps that they have written. -/
structure Returned (ids : Ids) (actions : List Action) (state : State) : Prop where
  uid : state.parent.uidReturned = true -> Exists fun write => .setUidMap write ∈ actions /\
    state.uidMap = setMap write none 0 ids.uid 1
  gid : state.parent.gidReturned = true -> Exists fun write => .setGidMap write ∈ actions /\
    state.gidMap = setMap write none 0 ids.gid 1
  uidBefore : state.parent.uidReturned = false -> state.uidMap = none
  gidBefore : state.parent.gidReturned = false -> state.gidMap = none

theorem returned_initial (ids : Ids) : Returned ids [] initial :=
  ⟨nofun, nofun, fun _ => rfl, fun _ => rfl⟩

/-- A call that sets no map makes no difference to the calls before it. -/
theorem Returned.extend {ids : Ids} {actions : List Action} {state next : State}
    (returned : Returned ids actions state) (action : Action)
    (uidPoint : next.parent.uidReturned = state.parent.uidReturned)
    (gidPoint : next.parent.gidReturned = state.parent.gidReturned)
    (uidMap : next.uidMap = state.uidMap) (gidMap : next.gidMap = state.gidMap) :
    Returned ids (actions ++ [action]) next := by
  refine ⟨fun past => ?_, fun past => ?_, fun before => ?_, fun before => ?_⟩
  · rcases returned.uid (uidPoint ▸ past) with ⟨write, made, written⟩
    exact ⟨write, List.mem_append_left _ made, uidMap ▸ written⟩
  · rcases returned.gid (gidPoint ▸ past) with ⟨write, made, written⟩
    exact ⟨write, List.mem_append_left _ made, gidMap ▸ written⟩
  · exact uidMap ▸ returned.uidBefore (uidPoint ▸ before)
  · exact gidMap ▸ returned.gidBefore (gidPoint ▸ before)

/-- Every call is recorded. -/
theorem Returned.step {ids : Ids} (actions : List Action) (state : State) (action : Action)
    (next : State) (returned : Returned ids actions state)
    (taken : step ids state action = some next) : Returned ids (actions ++ [action]) next := by
  rcases guarded_eq_some.mp taken with ⟨enabled, same⟩
  subst next
  cases action with
  | pipe =>
      have before : state.parent = .start := enabled
      exact returned.extend .pipe (before ▸ rfl) (before ▸ rfl) rfl rfl
  | clone created =>
      have before : state.parent = .piped := enabled
      cases created with
      | true => exact returned.extend (.clone true) (before ▸ rfl) (before ▸ rfl) rfl rfl
      | false => exact returned.extend (.clone false) (before ▸ rfl) (before ▸ rfl) rfl rfl
  | setUidMap write =>
      have before : state.parent = .cloned := enabled
      have unset := returned.uidBefore (by rw [before]; rfl)
      have ungrouped := returned.gidBefore (by rw [before]; rfl)
      refine ⟨fun _ => ⟨write, List.mem_append_right _ List.mem_cons_self, ?_⟩, nofun, nofun, fun _ => ungrouped⟩
      rw [effect, unset]
  | setGidMap write =>
      have before : state.parent = .uidMapped := enabled
      have unset := returned.gidBefore (by rw [before]; rfl)
      refine ⟨fun _ => ?_, fun _ => ⟨write, List.mem_append_right _ List.mem_cons_self, ?_⟩, nofun, nofun⟩
      · rcases returned.uid (by rw [before]; rfl) with ⟨earlier, made, written⟩
        exact ⟨earlier, List.mem_append_left _ made, written⟩
      · rw [effect, unset]
  | closeWrite =>
      have before : state.parent = .gidMapped := enabled
      exact returned.extend .closeWrite (before ▸ rfl) (before ▸ rfl) rfl rfl
  | waitpid =>
      have before : state.parent = .notified := enabled.1
      exact returned.extend .waitpid (before ▸ rfl) (before ▸ rfl) rfl rfl
  | childCloseWrite => exact returned.extend .childCloseWrite rfl rfl rfl rfl
  | childRead => exact returned.extend .childRead rfl rfl rfl rfl
  | sethostname => exact returned.extend .sethostname rfl rfl rfl rfl
  | mount => exact returned.extend .mount rfl rfl rfl rfl
  | execv found =>
      cases found with
      | true => exact returned.extend (.execv true) rfl rfl rfl rfl
      | false => exact returned.extend (.execv false) rfl rfl rfl rfl
  | childExit => exact returned.extend .childExit rfl rfl rfl rfl

/-! ## The handshake -/

/-- The calls that the child may make only with its ids mapped. -/
def Action.needsMaps : Action -> Bool
  | .sethostname | .mount | .execv _ => true
  | .pipe | .clone _ | .setUidMap _ | .setGidMap _ | .closeWrite | .waitpid | .childCloseWrite
  | .childRead | .childExit => false

section Runs

variable {ids : Ids} {actions : List Action} {state : State}

theorem endsTracked_of_run (completed : run (step ids) initial actions = some state) :
    EndsTracked state :=
  invariant_of_run (step ids) EndsTracked EndsTracked.step endsTracked_initial completed

theorem returned_of_run (completed : run (step ids) initial actions = some state) :
    Returned ids actions state :=
  history_of_run (step ids) (Returned ids) (returned_initial ids) Returned.step completed

/-- Once the parent has closed its write end, both map calls have returned. -/
theorem maps_of_closed (completed : run (step ids) initial actions = some state)
    (closed : state.parent.closed = true) :
    (Exists fun write => .setUidMap write ∈ actions /\ state.uidMap = setMap write none 0 ids.uid 1) /\
    Exists fun write => .setGidMap write ∈ actions /\ state.gidMap = setMap write none 0 ids.gid 1 := by
  have returned := returned_of_run completed
  cases point : state.parent with
  | start | piped | cloned | uidMapped | gidMapped =>
      rw [point] at closed
      cases closed
  | notified | finished =>
      exact ⟨returned.uid (by rw [point]; rfl), returned.gid (by rw [point]; rfl)⟩

/-- From then on the maps stay. -/
theorem maps_stay {later : State} {more : List Action} (closed : state.parent.closed = true)
    (continued : run (step ids) state more = some later) :
    later.uidMap = state.uidMap /\ later.gidMap = state.gidMap := by
  have kept := invariant_of_run (step ids)
    (fun other => other.parent.closed = true /\ other.uidMap = state.uidMap /\ other.gidMap = state.gidMap)
    ?_ ⟨closed, rfl, rfl⟩ continued
  · exact kept.2
  · rintro other action next ⟨shut, uidMap, gidMap⟩ taken
    rcases guarded_eq_some.mp taken with ⟨enabled, same⟩
    subst next
    cases action with
    | pipe | clone | setUidMap | setGidMap | closeWrite =>
        have before : other.parent = _ := enabled
        rw [before] at shut
        cases shut
    | waitpid => exact ⟨rfl, uidMap, gidMap⟩
    | childCloseWrite | childRead | sethostname | mount | childExit => exact ⟨shut, uidMap, gidMap⟩
    | execv found =>
        cases found with
        | true | false => exact ⟨shut, uidMap, gidMap⟩

/-- A call that needs the maps is made by a child past its read. -/
theorem pastRead_of_needsMaps {action : Action} {next : State} (needs : action.needsMaps = true)
    (taken : step ids state action = some next) : state.child.pastRead = true := by
  have enabled := (guarded_eq_some.mp taken).1
  cases action with
  | sethostname | mount | execv =>
      have before : state.child = _ := enabled
      rw [before]
      rfl
  | pipe | clone | setUidMap | setGidMap | closeWrite | waitpid | childCloseWrite | childRead
  | childExit => cases needs

/-- A waiting child has closed its own write end, so after the parent no copy
is left. -/
theorem noWriter_of_closed (tracked : EndsTracked state) (closed : state.parent.closed = true)
    (waiting : state.child = .waiting) : state.NoWriter := by
  constructor
  · rw [tracked.parent_end]
    cases point : state.parent with
    | start | notified | finished => rfl
    | piped | cloned | uidMapped | gidMapped =>
        rw [point] at closed
        cases closed
  · cases writer : state.childEnds.writeEnd with
    | false => rfl
    | true =>
        have started := tracked.child_end writer
        rw [waiting] at started
        cases started

/-- An enabled call can be made. -/
theorem step_isSome {action : Action} (enabled : Enabled state action) :
    (step ids state action).isSome = true := by
  rw [step, guarded, if_pos enabled]
  rfl

/-- Until the parent has finished, one of the two processes can go on. -/
theorem some_step_enabled (tracked : EndsTracked state) (unfinished : state.parent ≠ .finished) :
    Exists fun action => Enabled state action := by
  cases parent : state.parent with
  | start => exact ⟨.pipe, parent⟩
  | piped => exact ⟨.clone true, parent⟩
  | cloned => exact ⟨.setUidMap .accepted, parent⟩
  | uidMapped => exact ⟨.setGidMap .accepted, parent⟩
  | gidMapped => exact ⟨.closeWrite, parent⟩
  | finished => exact absurd parent unfinished
  | notified =>
      cases child : state.child with
      | absent => exact ⟨.waitpid, parent, Or.inl child⟩
      | started => exact ⟨.childCloseWrite, child⟩
      | waiting => exact ⟨.childRead, child, noWriter_of_closed tracked (by rw [parent]; rfl) child⟩
      | released => exact ⟨.sethostname, child⟩
      | named => exact ⟨.mount, child⟩
      | mounted => exact ⟨.execv true, child⟩
      | shell => exact ⟨.childExit, Or.inl child⟩
      | failed => exact ⟨.childExit, Or.inr child⟩
      | exited => exact ⟨.waitpid, parent, Or.inr child⟩

end Runs

/-- For every schedule of the two processes: whatever the child does with the
maps comes after both calls that set them; whenever the parent has closed its
write end and the child waits, the read can return; and until the parent has
finished some process can go on. -/
theorem handshake_ordered (ids : Ids) (actions : List Action) (state : State)
    (completed : run (step ids) initial actions = some state) :
    (forall earlier action later, actions = earlier ++ action :: later ->
      action.needsMaps = true ->
      (Exists fun write => .setUidMap write ∈ earlier) /\
        Exists fun write => .setGidMap write ∈ earlier) /\
    (state.parent.closed = true -> state.child = .waiting ->
      (step ids state .childRead).isSome = true) /\
    (state.parent ≠ .finished -> Exists fun action => (step ids state action).isSome = true) := by
  have tracked := endsTracked_of_run completed
  refine ⟨?_, ?_, ?_⟩
  · intro earlier action later split needs
    rw [split] at completed
    rcases run_upto (step ids) completed with ⟨before, reached, after, taken⟩
    have past := pastRead_of_needsMaps needs taken
    have closed := (endsTracked_of_run reached).released past
    rcases maps_of_closed reached closed with ⟨⟨uid, uidMade, _⟩, gid, gidMade, _⟩
    exact ⟨⟨uid, uidMade⟩, gid, gidMade⟩
  · intro closed waiting
    exact step_isSome ⟨waiting, noWriter_of_closed tracked closed waiting⟩
  · intro unfinished
    rcases some_step_enabled tracked unfinished with ⟨action, enabled⟩
    exact ⟨action, step_isSome enabled⟩

/-- A run in which the child is already waiting when the parent maps its ids, and
the group map is refused. -/
theorem handshake_ordered_waiting :
    Exists fun state =>
      run (step ⟨1000, 1000⟩) initial
        [.pipe, .clone true, .childCloseWrite, .setUidMap .accepted, .setGidMap .refused, .closeWrite] =
          some state /\
      (step ⟨1000, 1000⟩ state .childRead).isSome = true := by
  refine ⟨_, rfl, ?_⟩
  exact (handshake_ordered ⟨1000, 1000⟩
    [.pipe, .clone true, .childCloseWrite, .setUidMap .accepted, .setGidMap .refused, .closeWrite] _ rfl).2.1
    rfl rfl

end UserNamespace
end KernelStudy
