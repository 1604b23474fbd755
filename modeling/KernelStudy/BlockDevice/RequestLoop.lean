import KernelStudy.BlockDevice.RamDisk

namespace KernelStudy
namespace BlockDevice

/-!
# The loop over the request queue

The loop of `my_request` ends one segment in each pass, and fetches the next
request when the current one has no segment left.  What it does to a whole
queue is the list recursion `serveAll`: the segments are served one after the
other, in order, each in the memory left by the one before it.  Nothing is
assumed of the segments here; a segment past the end of the device is ended
like any other.
-/

/-- The segments of a queue with their directions, in the order of service. -/
def queueSegments (queue : List Request) : List (Bool × Segment) :=
  queue.flatMap fun rq => rq.segments.map (fun segment => (rq.write, segment))

/-- The requests that have not ended yet. -/
def QueueState.requests (state : QueueState) : List Request :=
  state.rq.toList ++ state.pending

/-- The number of passes that a list of requests takes.  A request without
segments still takes one. -/
def workload (requests : List Request) : Nat :=
  (requests.map fun rq => max 1 rq.segments.length).sum

/-- The record of serving some segments one after the other, and the memory
that they leave. -/
def serveAll (diskSize : Int32) :
    (Nat -> UInt8) -> List (Bool × Segment) -> List Completion × (Nat -> UInt8)
  | memory, [] => ([], memory)
  | memory, (write, segment) :: rest =>
      let completion := serveSegment diskSize memory write segment
      let later := serveAll diskSize completion.after rest
      (completion :: later.1, later.2)

/-- The record of a segment names the segment and its direction. -/
theorem serveSegment_names (diskSize : Int32) (memory : Nat -> UInt8) (write : Bool)
    (segment : Segment) :
    (serveSegment diskSize memory write segment).write = write /\
      (serveSegment diskSize memory write segment).segment = segment := by
  unfold serveSegment
  simp only
  split_ifs <;> exact ⟨rfl, rfl⟩

/-- Every segment is ended once, and in order. -/
theorem serveAll_order (diskSize : Int32) (memory : Nat -> UInt8) (segments : List (Bool × Segment)) :
    (serveAll diskSize memory segments).1.map
      (fun completion => (completion.write, completion.segment)) = segments := by
  induction segments generalizing memory with
  | nil => rfl
  | cons entry rest inductionHypothesis =>
      have names := serveSegment_names diskSize memory entry.1 entry.2
      rw [serveAll, List.map_cons, inductionHypothesis, names.1, names.2]

/-- The segments behind others are served in the memory that those leave. -/
theorem serveAll_append (diskSize : Int32) (memory : Nat -> UInt8)
    (first second : List (Bool × Segment)) :
    serveAll diskSize memory (first ++ second) =
      ((serveAll diskSize memory first).1 ++
          (serveAll diskSize (serveAll diskSize memory first).2 second).1,
        (serveAll diskSize (serveAll diskSize memory first).2 second).2) := by
  induction first generalizing memory with
  | nil => rfl
  | cons entry rest inductionHypothesis =>
      rw [List.cons_append, serveAll, inductionHypothesis]
      rfl

/-- A property that is decided by each segment alone holds of the whole record
iff every segment decides it so. -/
theorem serveAll_forall_iff {diskSize : Int32} {holds : Completion -> Prop}
    {decides : Segment -> Prop}
    (each : forall memory write segment,
      holds (serveSegment diskSize memory write segment) <-> decides segment)
    (memory : Nat -> UInt8) (segments : List (Bool × Segment)) :
    (forall completion, completion ∈ (serveAll diskSize memory segments).1 -> holds completion) <->
      forall entry, entry ∈ segments -> decides entry.2 := by
  induction segments generalizing memory with
  | nil => exact ⟨fun _ => nofun, fun _ => nofun⟩
  | cons entry rest inductionHypothesis =>
      rw [serveAll, List.forall_mem_cons, List.forall_mem_cons, each, inductionHypothesis]

/-! ## One pass -/

theorem requests_fetchRequest (state : QueueState) :
    (fetchRequest state).requests = state.pending := by
  cases queued : state.pending <;>
    simp [QueueState.requests, fetchRequest, queued]

theorem fetchRequest_exhausted (state : QueueState) (ended : (fetchRequest state).rq = none) :
    (fetchRequest state).pending = [] := by
  have empty : state.pending = [] := List.head?_eq_none_iff.mp ended
  simp only [fetchRequest, empty, List.tail_nil]

@[simp] theorem queueSegments_cons (rq : Request) (rest : List Request) :
    queueSegments (rq :: rest) =
      rq.segments.map (fun segment => (rq.write, segment)) ++ queueSegments rest := rfl

theorem workload_cons (rq : Request) (rest : List Request) :
    workload (rq :: rest) = max 1 rq.segments.length + workload rest := by
  simp only [workload, List.map_cons, List.sum_cons]

/-- The state of the loop belongs to a service of the whole queue: what is
recorded, and what the remaining segments will add, make up the record of the
queue, and the same holds of the memory. -/
structure Underway (diskSize : Int32) (total : List Completion × (Nat -> UInt8))
    (state : QueueState) : Prop where
  exhausted : state.rq = none -> state.pending = []
  record : state.completed ++ (serveAll diskSize state.memory (queueSegments state.requests)).1 =
    total.1
  memory : (serveAll diskSize state.memory (queueSegments state.requests)).2 = total.2

section Pass

variable {diskSize : Int32} {total : List Completion × (Nat -> UInt8)} {state : QueueState}
  {rq : Request}

theorem QueueState.requests_some (current : state.rq = some rq) :
    state.requests = rq :: state.pending := by
  rw [QueueState.requests, current, Option.toList_some, List.singleton_append]

/-- A request without segments ends without touching the disk. -/
theorem Underway.pass_empty (underway : Underway diskSize total state)
    (current : state.rq = some rq) (empty : rq.segments = []) :
    Underway diskSize total (requestBody diskSize state) /\
      (requestBody diskSize state).requests = state.pending := by
  have body : requestBody diskSize state = fetchRequest state := by
    simp only [requestBody, current, empty]
  have same : queueSegments state.requests = queueSegments state.pending := by
    rw [QueueState.requests_some current, queueSegments_cons, empty]
    rfl
  have record := underway.record
  have memory := underway.memory
  rw [same] at record memory
  rw [body]
  refine ⟨⟨fetchRequest_exhausted state, ?_, ?_⟩, requests_fetchRequest state⟩
  · rw [requests_fetchRequest]
    exact record
  · rw [requests_fetchRequest]
    exact memory

/-- The current segment is served and recorded; the request keeps its
remaining segments, or the next request is fetched. -/
theorem Underway.pass_segment (underway : Underway diskSize total state)
    (current : state.rq = some rq) {segment : Segment} {rest : List Segment}
    (segments : rq.segments = segment :: rest) :
    Underway diskSize total (requestBody diskSize state) /\
      (requestBody diskSize state).requests =
        if rest = [] then state.pending else { rq with segments := rest } :: state.pending := by
  let completion := serveSegment diskSize state.memory rq.write segment
  have left : queueSegments state.requests = (rq.write, segment) ::
      (rest.map (fun segment => (rq.write, segment)) ++ queueSegments state.pending) := by
    rw [QueueState.requests_some current, queueSegments_cons, segments]
    rfl
  have record := underway.record
  have memory := underway.memory
  rw [left, serveAll] at record memory
  -- the recorded part grows by the segment that leaves the remaining part
  have grown : (state.completed ++ [completion]) ++ (serveAll diskSize completion.after
      (rest.map (fun segment => (rq.write, segment)) ++ queueSegments state.pending)).1 = total.1 := by
    rw [List.append_assoc, List.singleton_append]
    exact record
  have body : requestBody diskSize state =
      if rest = [] then
        fetchRequest { state with memory := completion.after, completed := state.completed ++ [completion] }
      else { state with
        rq := some { rq with segments := rest }
        memory := completion.after
        completed := state.completed ++ [completion] } := by
    simp only [requestBody, current, segments, completion]
  by_cases last : rest = []
  · rw [body, if_pos last, if_pos last]
    rw [last] at grown memory
    refine ⟨⟨fetchRequest_exhausted _, ?_, ?_⟩, requests_fetchRequest _⟩
    · rw [requests_fetchRequest]
      exact grown
    · rw [requests_fetchRequest]
      exact memory
  · rw [body, if_neg last, if_neg last]
    exact ⟨⟨nofun, grown, memory⟩, rfl⟩

/-- One pass keeps the invariant and shortens the work. -/
theorem Underway.pass (underway : Underway diskSize total state)
    (guard : requestGuard state = true) :
    Underway diskSize total (requestBody diskSize state) /\
      workload (requestBody diskSize state).requests < workload state.requests := by
  rcases Option.isSome_iff_exists.mp guard with ⟨rq, current⟩
  rw [QueueState.requests_some current, workload_cons]
  cases segments : rq.segments with
  | nil =>
      rcases underway.pass_empty current segments with ⟨kept, next⟩
      rw [next]
      exact ⟨kept, by simp⟩
  | cons segment rest =>
      rcases underway.pass_segment current segments with ⟨kept, next⟩
      refine ⟨kept, ?_⟩
      rw [next]
      split
      · rename_i last
        simp [last]
      · rename_i more
        have positive := List.length_pos_iff.mpr more
        rw [workload_cons]
        simp only [List.length_cons]
        omega

end Pass

/-! ## The whole queue -/

/-- The loop of `my_request` ends after `workload queue` passes, for every
queue, with the record and the memory of serving all its segments. -/
theorem myRequest_serves_all (diskSize : Int32) (queue : List Request) (memory : Nat -> UInt8) :
    Exists fun final =>
      (forall fuel, workload queue ≤ fuel -> myRequest diskSize fuel queue memory = some final) /\
      final.rq = none /\ final.pending = [] /\
      final.completed = (serveAll diskSize memory (queueSegments queue)).1 /\
      final.memory = (serveAll diskSize memory (queueSegments queue)).2 := by
  have first := requests_fetchRequest ⟨none, queue, memory, []⟩
  have begun : Underway diskSize (serveAll diskSize memory (queueSegments queue))
      (fetchRequest ⟨none, queue, memory, []⟩) := by
    refine ⟨fetchRequest_exhausted _, ?_, ?_⟩
    · rw [first]
      rfl
    · rw [first]
      rfl
  have budget : workload (fetchRequest ⟨none, queue, memory, []⟩).requests ≤ workload queue := by
    rw [first]
  rcases BoundedLoop.loop_total requestGuard (requestBody diskSize)
    (Underway diskSize (serveAll diskSize memory (queueSegments queue)))
    (fun state => workload state.requests)
    (fun state underway guard => (underway.pass guard).1)
    (fun state underway guard => (underway.pass guard).2)
    begun budget with ⟨final, returned, underway, finished⟩
  have ended : final.rq = none := Option.isSome_eq_false_iff.mp finished |> Option.isNone_iff_eq_none.mp
  have exhausted := underway.exhausted ended
  have noRequests : final.requests = [] := by
    rw [QueueState.requests, ended, exhausted, Option.toList_none, List.nil_append]
  have record := underway.record
  have memoryLeft := underway.memory
  rw [noRequests] at record memoryLeft
  refine ⟨final, fun fuel enough => BoundedLoop.loop_mono _ _ enough returned, ended, exhausted,
    ?_, memoryLeft⟩
  rw [← record]
  exact (List.append_nil _).symm

end BlockDevice
end KernelStudy
