import Orcastork.Orchestrator.Plan

/-!
# The gather loop

The loop launches operators as tasks of their own and takes what they put on a bounded queue: an
emission to merge, or that they are done. It blocks on the queue while something runs; otherwise it
sleeps until a window is over, or waits for the inbox, or is done. Whichever way it ends, also by
an error, it merges what is queued, cancels the tasks still running, waits for them, and merges
what they left.

A step is what the loop does between two points at which a task can run, or what a task does. Which
port call raises, and with what, is an argument of the step; so is what an operator emits, what the
inbox delivers and what the activation of capabilities comes to. A run starts with the mirror
rehydrated and gathers once, or again on the same epoch. In between it aggregates: an aggregator,
which may be an operator of the gather too, is skipped, or attempted until it has contributed or is
dead-lettered; a contribution counts as a run of it.
-/

namespace Orcastork

/-! ### Signals and tasks -/

/-- `_Completed`, the error as its text. -/
structure Completion where
  operatorId : OperatorId
  error : Option String
  runSeconds : Monotonic
  deriving DecidableEq, Repr

/-- What is put on the queue: `_Emitted` or `_Completed`. -/
inductive Signal where
  | emitted (queued : QueuedEmission)
  | completed (completion : Completion)

/-- The emissions among some signals. -/
def emissions : List Signal → List QueuedEmission
  | [] => []
  | .emitted queued :: signals => queued :: emissions signals
  | .completed _ :: signals => emissions signals

/-- The completions among some signals. -/
def completions : List Signal → List Completion
  | [] => []
  | .emitted _ :: signals => completions signals
  | .completed completion :: signals => completion :: completions signals

/-- How far the task of an operator run (`_run_one`) is. -/
inductive TaskStatus where
  | running
  /-- Past the fault boundary, about to put its completion. -/
  | completing (error : Option String)
  | finished
  | cancelled
  /-- Ended by what the fault boundary does not catch. -/
  | vanished
  deriving DecidableEq, Repr

/-- A task can still run. -/
def TaskStatus.live : TaskStatus → Bool
  | .running => true
  | .completing _ => true
  | .finished => false
  | .cancelled => false
  | .vanished => false

/-- The task of an operator run, with what it was launched with. -/
structure OperatorTask (O : Type) where
  operator : O
  delta : InvocationDelta
  available : Finset CapabilityId
  isRetry : Bool
  status : TaskStatus

/-- A run that was recorded: its completion, its number and attempt, and the revision its
watermark was moved to, unless a retry was armed. -/
structure RecordedRun where
  completion : Completion
  runCount : ℕ
  attempt : ℕ
  advancedTo : Option Revision
  deriving DecidableEq, Repr

/-- What `_aggregate` audits of an aggregator. -/
inductive AggregatorDisposition where
  | skipped (missing : List String)
  | attempted (attempt : ℕ) (runSeconds : Monotonic) (error : Option String)
  | deadLettered (maxAttempts : ℕ)
  deriving DecidableEq, Repr

/-- What the row of it says. -/
def AggregatorDisposition.info (operatorId : OperatorId) :
    AggregatorDisposition → OperatorAuditInfo
  | .skipped missing =>
    ⟨operatorId, .skipped, 0, 1, none,
      some ("dependencies never materialized: " ++ ", ".intercalate missing)⟩
  | .attempted attempt runSeconds error =>
    ⟨operatorId, if error.isSome then .failed else .succeeded, 1, attempt, some runSeconds, error⟩
  | .deadLettered maxAttempts =>
    ⟨operatorId, .deadLettered, 1, maxAttempts, none,
      some s!"dead-lettered after {maxAttempts} attempts"⟩

/-- What is booked of operators: a run as it is recorded, a row of an aggregator, and that one has
contributed. -/
inductive Booking where
  | recorded (run : RecordedRun)
  | aggregated (operatorId : OperatorId) (disposition : AggregatorDisposition)
  | contributed (operatorId : OperatorId)
  deriving DecidableEq, Repr

/-! ### States -/

/-- How a gather ends. -/
inductive GatherExit where
  | quiescent
  | parked
  | deadline
  | raised (error : OrchestrationError)
  deriving DecidableEq, Repr

/-- Where the loop stands. -/
inductive GatherPhase where
  /-- Before the first gather. -/
  | ready
  /-- At the top of a pass. -/
  | head
  | inbox
  | refreshing
  /-- Blocked on the queue. -/
  | getting
  | merging (batch : List Signal)
  | recording (completions : List Completion)
  | sleeping (dueAt : Monotonic)
  | waiting (parkAt : Option Monotonic)
  /-- The three parts of `_drain_remaining`. -/
  | draining (exit : GatherExit)
  | cancelling (exit : GatherExit)
  | drainingAgain (exit : GatherExit)
  | ended (exit : GatherExit)

/-- The phases behind which the aggregators run, and the session may be gathered again. -/
def GatherPhase.aggregates : GatherPhase → Bool
  | .ended .quiescent => true
  | .ended .deadline => true
  | _ => false

/-- An orchestrator and its gather. Four logs are kept beside what the source keeps: what was put
on the queue, what was merged, which runs were recorded, and what was booked. -/
structure Gather (O : Type) where
  epoch : Epoch
  deadline : Monotonic
  now : Monotonic
  state : MergeState
  memory : OperatorMemory
  queue : List Signal
  tasks : List (OperatorTask O)
  phase : GatherPhase
  enqueued : List Signal
  presented : List Emitted
  recorded : List RecordedRun
  booked : List Booking

/-- The port calls of `_record_completion` that raise. -/
structure RecordFaults where
  audit : Option OrchestrationError
  watermark : Option OrchestrationError

/-- What a wait on the inbox ends with. -/
inductive InboxWaitEnd where
  | wakeup
  | elapsed
  | failed (error : OrchestrationError)

/-- What a run is made of. -/
inductive GatherAction where
  | elapse (span : ℕ)
  /-- A row of something else: a capability, the inbox, the session. -/
  | audit (entry : AuditLogEntry)
  /-- Of a task, by its number. -/
  | emit (task : ℕ) (emission : DataPointEmission) (at' : Timestamp)
  | fail (task : ℕ) (error : String)
  | finish (task : ℕ)
  | complete (task : ℕ) (runSeconds : Monotonic)
  | vanish (task : ℕ)
  | cancelled (task : ℕ)
  /-- Of the loop. -/
  | seed (now : Timestamp) (faults : MergeFaults) (dataPoints : List BaseDataPoint)
  | begin' (deadline : Monotonic)
  | renew (error : Option OrchestrationError)
  | deliver (now : Timestamp) (faults : MergeFaults) (dataPoints : List BaseDataPoint)
  | inboxDone (error : Option OrchestrationError)
  | refresh (available : Finset CapabilityId) (error : Option OrchestrationError)
  | take
  | merge (now : Timestamp) (faults : MergeFaults)
  | record (now : Timestamp) (faults : RecordFaults)
  | wake
  | wait (ends : InboxWaitEnd)
  | drain (now : Timestamp) (faults : MergeFaults)
  | awaited
  /-- Of the aggregation behind a gather. -/
  | dispose (now : Timestamp) (operatorId : OperatorId) (disposition : AggregatorDisposition)
  | contribute (operatorId : OperatorId)

namespace Gather

variable {P C O : Type} [DecidableEq P] [DecidableEq C] (services : GatherServices P C O)
  (gather : Gather O)

/-- A run of an epoch on a session, its mirror rehydrated, its counters at zero and its breaker
new. -/
def start (epoch : Epoch) (caps : Dict OperatorId ℤ) (now : Monotonic) (session : MergeState) :
    Gather O where
  epoch := epoch
  deadline := now
  now := now
  state :=
    { session with
      mirror := (SessionStateMirror.initial services.merging.sealing.sessionId).rehydrate
        session.store
      coalescedAudits := .empty
      reobservedAudits := .empty }
  memory := ⟨.empty, .empty, .empty, .empty, .initial, .initial, ⟨caps, .empty⟩, .empty⟩
  queue := []
  tasks := []
  phase := .ready
  enqueued := []
  presented := []
  recorded := []
  booked := []

/-- The loop leaves by an error. -/
def leave (error : OrchestrationError) : Gather O := { gather with phase := .draining (.raised error) }

/-- A merge of the loop. -/
def call (now : Timestamp) (faults : MergeFaults) : MergeCall := ⟨gather.epoch, now, faults⟩

/-! ### Tasks -/

def enqueue (signal : Signal) : Gather O :=
  { gather with
    queue := gather.queue ++ [signal]
    enqueued := gather.enqueued ++ [signal] }

/-- A task gets on. -/
def setStatus (i : ℕ) (task : OperatorTask O) (status : TaskStatus) : Gather O :=
  { gather with tasks := gather.tasks.set i { task with status := status } }

/-- `drain` of `_run_one`: a rejected value fails the run, a finalized one waits for the queue. -/
def emit (i : ℕ) (task : OperatorTask O) (emission : DataPointEmission) (at' : Timestamp) :
    Option (Gather O) :=
  match emission.finalize services.validate (services.operatorId task.operator) at' with
  | .error error => some (gather.setStatus i task (.completing (some error)))
  | .ok finalized =>
    if gather.queue.length < services.queueSize then
      some (gather.enqueue (.emitted ⟨services.operatorId task.operator, finalized⟩))
    else
      none

/-- The completion of a task, put on the queue once there is room. -/
def complete (i : ℕ) (task : OperatorTask O) (error : Option String) (runSeconds : Monotonic) :
    Option (Gather O) :=
  if gather.queue.length < services.queueSize then
    some ((gather.setStatus i task .finished).enqueue
      (.completed ⟨services.operatorId task.operator, error, runSeconds⟩))
  else
    none

/-- The tasks the loop has a record of. -/
def registered : List ℕ := gather.memory.running.values.map RunningRecord.task

/-- What a task does. -/
def taskStep : GatherAction → Option (Gather O)
  | .emit i emission at' =>
    match gather.tasks[i]? with
    | some task =>
      if task.status = .running then gather.emit services i task emission at' else none
    | none => none
  | .fail i error =>
    match gather.tasks[i]? with
    | some task =>
      if task.status = .running then
        some (gather.setStatus i task (.completing (some error)))
      else
        none
    | none => none
  | .finish i =>
    match gather.tasks[i]? with
    | some task =>
      if task.status = .running then some (gather.setStatus i task (.completing none)) else none
    | none => none
  | .complete i runSeconds =>
    match gather.tasks[i]? with
    | some task =>
      match task.status with
      | .completing error => gather.complete services i task error runSeconds
      | _ => none
    | none => none
  | .vanish i =>
    match gather.tasks[i]? with
    | some task => if task.status.live then some (gather.setStatus i task .vanished) else none
    | none => none
  | .cancelled i =>
    match gather.tasks[i]?, gather.phase with
    | some task, .cancelling _ =>
      if task.status.live && decide (i ∈ gather.registered) then
        some (gather.setStatus i task .cancelled)
      else
        none
    | _, _ => none
  | _ => none

/-! ### A gather -/

/-- The watermarks of the operators, read once. -/
def loadWatermarks : Dict OperatorId Revision :=
  services.gathering.foldl (fun watermarks operator =>
    match gather.state.store.getWatermark (services.operatorId operator) with
    | none => watermarks
    | some watermark => watermarks.set (services.operatorId operator) watermark) .empty

/-- A baseline is primed for each watermark. -/
def primeAll : List Revision → SessionStateMirror → Except OrchestrationError SessionStateMirror
  | [], mirror => .ok mirror
  | watermark :: watermarks, mirror =>
    match mirror.primeChangeBaseline gather.state.store watermark with
    | .error error => .error error
    | .ok mirror => primeAll watermarks mirror

/-- A gather begins: its windows, its queue and its tasks are new, the watermarks are read and the
baselines primed. -/
def beginGather (deadline : Monotonic) : Gather O :=
  let watermarks := gather.loadWatermarks services
  match gather.primeAll (Paging.inOrder id watermarks.values.dedup) gather.state.mirror with
  | .error error => { gather with phase := .ended (.raised error) }
  | .ok mirror =>
    { gather with
      deadline := deadline
      state := { gather.state with mirror := mirror }
      memory :=
        { gather.memory with
          watermarks := watermarks
          retries := .initial
          debounce := .initial
          running := .empty }
      queue := []
      tasks := []
      phase := .head }

/-! ### A pass -/

/-- A runnable is launched. -/
def launch (available : Finset CapabilityId) (observed : Revision) (gather : Gather O)
    (runnable : Runnable O) : Gather O :=
  let operatorId := services.operatorId runnable.operator
  { gather with
    memory :=
      { gather.memory with
        prevCaps := gather.memory.prevCaps.set operatorId available
        running := gather.memory.running.set operatorId ⟨gather.tasks.length, observed⟩
        retries :=
          if runnable.isRetry then gather.memory.retries.clear operatorId
          else gather.memory.retries
        debounce :=
          if !runnable.isRetry && runnable.isRerun then gather.memory.debounce.clear operatorId
          else gather.memory.debounce }
    tasks := gather.tasks ++
      [⟨runnable.operator, runnable.delta, available, runnable.isRetry, .running⟩] }

/-- What is due to run is launched. -/
def launchAll (available : Finset CapabilityId) (observed : Revision) (plan : GatherPlan O) :
    Gather O :=
  plan.runnable.foldl (launch services available observed)
    { gather with memory := { gather.memory with debounce := plan.debounce } }

/-- What the loop does after its launches. -/
def nextPhase (view : DataPointView) (soonestDue : Option Monotonic) : GatherPhase :=
  if !gather.memory.running.keys.isEmpty then
    .getting
  else
    match soonestDue with
    | some dueAt => .sleeping dueAt
    | none =>
      if services.completionSatisfied view then
        .draining .quiescent
      else
        .waiting (services.parkAfter.map (fun parkAfter => gather.now + parkAfter))

/-- The pass with the capabilities at hand: the plan, the launches, and what comes next. -/
def pass (available : Finset CapabilityId) : Gather O :=
  let mirror := gather.state.mirror
  match mirror.snapshot mirror.sessionId, mirror.getRevision mirror.sessionId with
  | .error error, _ => gather.leave error
  | _, .error error => gather.leave error
  | .ok view, .ok observed =>
    match services.plan mirror gather.memory view available gather.now with
    | .error error => gather.leave error
    | .ok plan =>
      let launched := gather.launchAll services available observed plan
      { launched with phase := launched.nextPhase services view plan.soonestDue }

/-! ### Merging and recording -/

/-- A batch of the queue merged; where that raises, what it had changed stays changed. -/
def mergeBatch (now : Timestamp) (faults : MergeFaults) (batch : List QueuedEmission) :
    Except OrchestrationError Unit × Gather O :=
  match normalizeAll batch with
  | .error error => (.error error, gather)
  | .ok emitted =>
    match gather.state.mergeEmissions services.merging (gather.call now faults) emitted with
    | (.error error, state) => (.error error, { gather with state := state })
    | (.ok (), state) =>
      (.ok (), { gather with state := state, presented := gather.presented ++ emitted })

/-- `_maybe_schedule_retry`: whether the retry of a failed run is armed, and the windows then. -/
def maybeScheduleRetry (memory : OperatorMemory) (operatorId : OperatorId)
    (retry : Option RetryPolicy) (failed : ℕ) : Bool × DebounceController :=
  match retry with
  | none => (false, memory.retries)
  | some policy =>
    if policy.maxAttempts ≤ failed ∨ memory.breaker.isTripped operatorId = true then
      (false, memory.retries)
    else
      (true, memory.retries.schedule operatorId gather.now
        (some (policy.backoffDelays (failed - 1))))

/-- The retry policy of an operator, by its id. -/
def retryOf (operatorId : OperatorId) : Option RetryPolicy :=
  (services.gathering.find? (fun operator =>
    decide (services.operatorId operator = operatorId))).bind services.retry

/-- What is remembered of a run as it is recorded: the run is counted, and after a failure the
attempt too, unless it was the last. -/
def remember (completion : Completion) : Bool × OperatorMemory :=
  let operatorId := completion.operatorId
  let attempt := (gather.memory.failedAttempts.get? operatorId).getD 0 + 1
  let memory :=
    { gather.memory with
      running := gather.memory.running.erase operatorId
      runs := gather.memory.runs.set operatorId
        ((gather.memory.runs.get? operatorId).getD 0 + 1)
      breaker := gather.memory.breaker.recordRun operatorId }
  match completion.error with
  | none => (false, { memory with failedAttempts := memory.failedAttempts.erase operatorId })
  | some _ =>
    match gather.maybeScheduleRetry memory operatorId (retryOf services operatorId) attempt with
    | (true, retries) =>
      (true,
        { memory with
          failedAttempts := memory.failedAttempts.set operatorId attempt
          retries := retries })
    | (false, _) =>
      (false, { memory with failedAttempts := memory.failedAttempts.erase operatorId })

/-- The run of a completion as it is recorded. -/
def recordedRun (completion : Completion) (record : RunningRecord) : RecordedRun where
  completion := completion
  runCount := (gather.memory.runs.get? completion.operatorId).getD 0 + 1
  attempt := (gather.memory.failedAttempts.get? completion.operatorId).getD 0 + 1
  advancedTo :=
    if (gather.remember services completion).1 then none else some record.observedRevision

/-- The row of a recorded run. -/
def operatorRow (now : Timestamp) (run : RecordedRun) : AuditLogEntry where
  epoch := gather.epoch
  timestamp := now
  kind := "operator_invoked"
  detail := services.operatorDetail
    { operatorId := run.completion.operatorId
      outcome := if run.completion.error.isSome then .failed else .succeeded
      runCount := run.runCount
      attempt := run.attempt
      runSeconds := some run.completion.runSeconds
      error := run.completion.error }

/-- The end of `_record_completion`: a run that will be retried keeps its watermark. -/
def advanceWatermark (faults : RecordFaults) (run : RecordedRun) :
    Except OrchestrationError Unit × Gather O :=
  match run.advancedTo with
  | none => (.ok (), { gather with recorded := gather.recorded ++ [run] })
  | some revision =>
    match faults.watermark with
    | some error => (.error error, gather)
    | none =>
      match gather.state.store.setWatermark run.completion.operatorId revision gather.epoch with
      | .error error => (.error error, gather)
      | .ok store =>
        (.ok (),
          { gather with
            state := { gather.state with store := store }
            memory :=
              { gather.memory with
                watermarks := gather.memory.watermarks.set run.completion.operatorId revision }
            recorded := gather.recorded ++ [run] })

/-- `_record_completion`. -/
def recordCompletion (now : Timestamp) (faults : RecordFaults) (completion : Completion) :
    Except OrchestrationError Unit × Gather O :=
  match gather.memory.running.get? completion.operatorId with
  | none => (.error (.keyError completion.operatorId), gather)
  | some record =>
    let run := gather.recordedRun services completion record
    let row := gather.operatorRow services now run
    let gather := { gather with memory := (gather.remember services completion).2 }
    match faults.audit with
    | some error => (.error error, gather)
    | none =>
      match gather.state.audit.append row with
      | .error error => (.error error, gather)
      | .ok audit =>
        { gather with
          state := { gather.state with audit := audit }
          booked := gather.booked ++ [Booking.recorded run] }.advanceWatermark faults run

/-- The loop goes on with the completions of a batch, or with the next pass. -/
def recordRest (completions : List Completion) : Gather O :=
  { gather with
    phase := if completions.isEmpty then .head else .recording completions }

/-! ### Aggregation -/

/-- An aggregator of the flow has an id. -/
def aggregates (operatorId : OperatorId) : Bool :=
  services.flow.operators.any (fun operator =>
    decide (services.operatorId operator = operatorId)
      && (services.flow.aggregator operator).isSome)

/-- The row of a disposition of an aggregator. -/
def dispose (now : Timestamp) (operatorId : OperatorId) (disposition : AggregatorDisposition) :
    Option (Gather O) :=
  match gather.state.audit.append
      ⟨gather.epoch, now, "operator_invoked",
        services.operatorDetail (disposition.info operatorId)⟩ with
  | .error _ => none
  | .ok audit =>
    some { gather with
      state := { gather.state with audit := audit }
      booked := gather.booked ++ [.aggregated operatorId disposition] }

/-- The end of `_run_aggregator` without a dead letter: the contribution is marked, and counts as
a run. -/
def contribute (operatorId : OperatorId) : Gather O :=
  { gather with
    memory :=
      { gather.memory with
        runs := gather.memory.runs.set operatorId
          ((gather.memory.runs.get? operatorId).getD 0 + 1) }
    booked := gather.booked ++ [.contributed operatorId] }

/-! ### Steps -/

/-- The gather after a merge, or leaving by its error. -/
def orLeave (next : Gather O → Gather O) :
    Except OrchestrationError Unit × Gather O → Gather O
  | (.ok (), gather) => next gather
  | (.error error, gather) => gather.leave error

/-- The gather after a merge of the final drain; an error there ends the gather at once. -/
def orEnd (next : Gather O → Gather O) :
    Except OrchestrationError Unit × Gather O → Gather O
  | (.ok (), gather) => next gather
  | (.error error, gather) => { gather with phase := .ended (.raised error) }

/-- `_drain_queue`: the emissions of the queue are merged; a completion on it is dropped. -/
def drainQueue (now : Timestamp) (faults : MergeFaults) (next : GatherPhase) : Gather O :=
  orEnd (fun gather => { gather with phase := next })
    ({ gather with queue := [] }.mergeBatch services now faults (emissions gather.queue))

/-- What the loop does. -/
def loopStep : GatherAction → Option (Gather O)
  | .seed now faults dataPoints =>
    match gather.phase with
    | .ready =>
      match gather.state.merge services.merging (gather.call now faults) dataPoints none with
      | (.error error, state) =>
        some { gather with state := state, phase := .ended (.raised error) }
      | (.ok (), state) =>
        some { gather with
          state := state
          presented := gather.presented
            ++ dataPoints.map (fun dataPoint => (⟨none, dataPoint⟩ : Emitted)) }
    | _ => none
  | .begin' deadline =>
    match gather.phase with
    | .ready => some (gather.beginGather services deadline)
    | .ended .quiescent => some (gather.beginGather services deadline)
    | .ended .deadline => some (gather.beginGather services deadline)
    | _ => none
  | .renew error =>
    match gather.phase with
    | .head =>
      if gather.now < gather.deadline then
        match error with
        | some error => some (gather.leave error)
        | none => some { gather with phase := .inbox }
      else
        some { gather with phase := .draining .deadline }
    | _ => none
  | .deliver now faults dataPoints =>
    match gather.phase with
    | .inbox =>
      match gather.state.applyInboxDataPoints services.merging (gather.call now faults)
          dataPoints with
      | (.error error, state) => some ({ gather with state := state }.leave error)
      | (.ok (), state) =>
        some { gather with
          state := state
          presented := gather.presented
            ++ dataPoints.map (fun dataPoint => (⟨none, dataPoint⟩ : Emitted)) }
    | _ => none
  | .inboxDone error =>
    match gather.phase, error with
    | .inbox, some error => some (gather.leave error)
    | .inbox, none => some { gather with phase := .refreshing }
    | _, _ => none
  | .refresh available error =>
    match gather.phase, error with
    | .refreshing, some error => some (gather.leave error)
    | .refreshing, none => some (gather.pass services available)
    | _, _ => none
  | .take =>
    match gather.phase with
    | .getting =>
      if gather.queue.isEmpty then
        none
      else
        some { gather with queue := [], phase := .merging gather.queue }
    | _ => none
  | .merge now faults =>
    match gather.phase with
    | .merging batch =>
      some (orLeave (fun gather => gather.recordRest (completions batch))
        (gather.mergeBatch services now faults (emissions batch)))
    | _ => none
  | .record now faults =>
    match gather.phase with
    | .recording (completion :: rest) =>
      some (orLeave (fun gather => gather.recordRest rest)
        (gather.recordCompletion services now faults completion))
    | _ => none
  | .wake =>
    match gather.phase with
    | .sleeping dueAt => if dueAt ≤ gather.now then some { gather with phase := .head } else none
    | _ => none
  | .wait ends =>
    match gather.phase, ends with
    | .waiting _, .wakeup => some { gather with phase := .head }
    | .waiting _, .failed error => some (gather.leave error)
    | .waiting parkAt, .elapsed =>
      if gather.deadline ≤ gather.now then
        some { gather with phase := .head }
      else
        match parkAt with
        | some parkAt =>
          if parkAt ≤ gather.now then some { gather with phase := .draining .parked } else none
        | none => none
    | _, _ => none
  | .drain now faults =>
    match gather.phase with
    | .draining exit =>
      some (gather.drainQueue services now faults
        (if gather.memory.running.keys.isEmpty then .drainingAgain exit else .cancelling exit))
    | .drainingAgain exit => some (gather.drainQueue services now faults (.ended exit))
    | _ => none
  | .awaited =>
    match gather.phase with
    | .cancelling exit =>
      if gather.registered.all (fun i =>
          !((gather.tasks[i]?).map (fun task => task.status.live)).getD false) then
        some { gather with phase := .drainingAgain exit }
      else
        none
    | _ => none
  | _ => none

/-- One action, if it can be taken. -/
def step : GatherAction → Option (Gather O)
  | .elapse span => some { gather with now := gather.now + span }
  | .audit entry =>
    if entry.kind = "operator_invoked" ∨ entry.kind = "data_point_added"
        ∨ entry.kind = "data_points_coalesced" then
      none
    else
      match gather.state.audit.append { entry with epoch := gather.epoch } with
      | .error _ => none
      | .ok audit => some { gather with state := { gather.state with audit := audit } }
  | .emit i emission at' => gather.taskStep services (.emit i emission at')
  | .fail i error => gather.taskStep services (.fail i error)
  | .finish i => gather.taskStep services (.finish i)
  | .complete i runSeconds => gather.taskStep services (.complete i runSeconds)
  | .vanish i => gather.taskStep services (.vanish i)
  | .cancelled i => gather.taskStep services (.cancelled i)
  | .dispose now operatorId disposition =>
    if gather.phase.aggregates && aggregates services operatorId then
      gather.dispose services now operatorId disposition
    else
      none
  | .contribute operatorId =>
    if gather.phase.aggregates && aggregates services operatorId then
      some (gather.contribute operatorId)
    else
      none
  | action => gather.loopStep services action

end Gather

end Orcastork
