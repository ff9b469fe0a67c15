import Orcastork.Lite.State
import Orcastork.Scheduling.Debounce

/-!
# The gathering loop of the lite orchestrator

`_gather` plans a pass, launches what is due, waits for a signal, a window or the deadline, and
records what ended; when it stops, `_drain_remaining` records what is queued, cancels what is left
and records what ended meanwhile. Between two steps of the loop its tasks emit and end, each end a
signal on the queue unless the task was cancelled.

Which capabilities a pass finds available is given with it, and so are the readings of the clock,
one for each time it is read. What is published is left out: a publish that fails is dropped. Where
the code raises a `KeyError` there is no next state.
-/

namespace Orcastork

namespace Lite

/-- What a session is built of. -/
structure Services (P C O : Type) where
  declarations : Declarations P C O
  /-- The operators that are left after pruning and gating. -/
  operators : List O
  capabilities : List C
  policy : O → OperatorPolicy
  debounce : O → Option Monotonic
  retry : O → Option RetryPolicy
  timeout : O → Option Monotonic
  operationTimeout : Monotonic
  sessionDeadline : Option Monotonic
  /-- `cycle_caps`. -/
  caps : Dict OperatorId ℤ
  /-- `_check_unique_ids`. -/
  unique : (operators.map declarations.operatorId).Nodup

/-- The error of a run, and whether it is a `TimeoutError`. -/
structure RunError where
  text : String
  isTimeout : Bool
  deriving DecidableEq, Repr

/-- How a run ended. -/
inductive RunEnding where
  | returned
  | raised (error : RunError)
  /-- The run hit the bound its timeout was clipped to. -/
  | cutByDeadline
  | cancelled
  deriving DecidableEq, Repr

/-- `_Completed`. -/
structure Completed where
  operatorId : OperatorId
  error : Option RunError
  cutByDeadline : Bool
  deriving DecidableEq, Repr

/-- How the run of a signal ended. -/
def Completed.ending (signal : Completed) : RunEnding :=
  match signal.error with
  | none => .returned
  | some error => if signal.cutByDeadline then .cutByDeadline else .raised error

/-- A signal: `_Emitted` or `_Completed`. -/
inductive Signal (P V : Type) where
  | emitted (operatorId : OperatorId) (dataPoint : DataPoint P V)
  | completed (signal : Completed)

namespace Signal

variable {P V : Type}

def dataPoint? : Signal P V → Option (DataPoint P V)
  | .emitted _ dataPoint => some dataPoint
  | .completed _ => none

def completed? : Signal P V → Option Completed
  | .emitted _ _ => none
  | .completed signal => some signal

end Signal

/-- How far the task of a run is. -/
inductive TaskStatus where
  | working
  | reported
  | cancelled
  deriving DecidableEq, Repr

/-- `_Running`, and whether the timeout of the run was clipped to the budget left. -/
structure Running where
  task : TaskStatus
  clipped : Bool
  observedRevision : Revision
  deriving DecidableEq, Repr

/-- `_ArmedRetry`. -/
structure ArmedRetry where
  error : RunError
  observedRevision : Revision
  attempts : ℕ
  deriving DecidableEq, Repr

/-- `_Runnable`. -/
structure Runnable (P V O : Type) where
  operator : O
  delta : InvocationDelta P V
  isRetry : Bool

/-- Where the loop stands. -/
inductive LoopPhase where
  /-- Before the condition of the loop. -/
  | looping
  /-- For a signal, or the soonest window if there is one. -/
  | waiting (windowed : Bool)
  /-- Until the soonest window. -/
  | asleep
  /-- Before the first drain of `_drain_remaining`. -/
  | draining
  /-- The tasks under way are cancelled and awaited. -/
  | cancelling
  | ended
  deriving DecidableEq, Repr

/-- `_CANCELLED_AT_DEADLINE`. -/
def cancelledAtDeadline : String :=
  "cancelled: the session deadline passed while the operator was running"

/-- A session that gathers. -/
structure Gather (P V : Type) where
  state : SessionState P V
  runs : Dict OperatorId ℕ
  failures : Dict OperatorId String
  failedAttempts : Dict OperatorId ℕ
  armedRetries : Dict OperatorId ArmedRetry
  prevCaps : Dict OperatorId (Finset CapabilityId)
  breaker : CircuitBreaker
  debounce : DebounceController
  retries : DebounceController
  running : Dict OperatorId Running
  queue : List (Signal P V)
  deadline : Option Monotonic
  deadlineHit : Bool
  phase : LoopPhase
  /-- How the last run of each operator ended that has ended a run: history. -/
  lastEnding : Dict OperatorId RunEnding

namespace Services

variable {P C O : Type} (services : Services P C O)

/-- The id of an operator. -/
def operatorId (operator : O) : OperatorId := services.declarations.operatorId operator

/-- The retry policy of an operator, by its id. -/
def retryOf (operatorId : OperatorId) : Option RetryPolicy :=
  (services.operators.find? (fun operator => services.operatorId operator = operatorId)).bind
    services.retry

/-- `_timeout_for`. -/
def timeoutFor (operator : O) : Monotonic :=
  (services.timeout operator).getD services.operationTimeout

/-- `is_ready`. -/
def isReady (operator : O) (presentTypes : Finset P) (availableTypes : Finset C) : Bool :=
  decide (∀ required ∈ services.declarations.dependsOn operator,
      services.declarations.satisfies presentTypes required = true)
    && decide (∀ required ∈ services.declarations.requires operator,
      ∃ available ∈ availableTypes,
        services.declarations.capabilities.issubclass available required = true)

/-- `_has_relevant_new_data`. -/
def hasRelevantNewData [DecidableEq P] {V : Type} (operator : O) (delta : InvocationDelta P V) :
    Bool :=
  if delta.newlyAvailableCaps ≠ ∅ then true
  else
    let newData :=
      match (services.policy operator).rerunOn with
      | .addedOnly => delta.added
      | .addedOrUpdated => delta.added ++ delta.updated
    let triggers := services.declarations.dependsOn operator ∪ services.declarations.uses operator
    decide (∃ dataPoint ∈ newData, ∃ trigger ∈ triggers,
      services.declarations.dataPoints.issubclass dataPoint.type trigger = true)

end Services

/-- `_Plan` as far as it is made, and the session then. -/
structure Plan (P V O : Type) where
  gather : Gather P V
  runnable : List (Runnable P V O)
  soonestDue : Option Monotonic

/-- `track`. -/
def Plan.track {P V O : Type} (plan : Plan P V O) (dueAt : Option Monotonic) : Plan P V O :=
  { plan with
    soonestDue :=
      match dueAt, plan.soonestDue with
      | none, soonest => soonest
      | some dueAt, none => some dueAt
      | some dueAt, some soonest => some (min soonest dueAt) }

/-- What a pass finds: the budget it leaves a run, the classes present and what is available. -/
structure Observed (P C : Type) where
  remaining : Option Monotonic
  presentTypes : Finset P
  availableIds : Finset CapabilityId
  availableTypes : Finset C

namespace Gather

variable {P V C O : Type} (gather : Gather P V)

/-- `_record_terminal_failure`. -/
def recordTerminalFailure (operatorId : OperatorId) (error : RunError)
    (observedRevision : Revision) : Gather P V :=
  { gather with
    failedAttempts := gather.failedAttempts.erase operatorId
    failures := gather.failures.set operatorId error.text
    state := gather.state.advanceWatermark operatorId observedRevision }

/-- `_delta_for`. -/
def deltaFor (operatorId : OperatorId) (availableIds : Finset CapabilityId) :
    InvocationDelta P V :=
  gather.state.deltaFor operatorId ((gather.prevCaps.get? operatorId).getD ∅) availableIds

section

variable (services : Services P C O)

/-- Whether `_schedule_retry` arms a relaunch. -/
def retryLeft (operatorId : OperatorId) (attempts : ℕ) : Bool :=
  match services.retryOf operatorId with
  | none => false
  | some policy => decide (attempts < policy.maxAttempts) && !gather.breaker.isTripped operatorId

/-- `_schedule_retry`: the windows with a relaunch armed. -/
def scheduleRetry (operatorId : OperatorId) (attempts : ℕ) (now : Monotonic) :
    DebounceController :=
  match services.retryOf operatorId with
  | none => gather.retries
  | some policy =>
    gather.retries.schedule operatorId now (some (policy.backoffDelays (attempts - 1)))

/-- A run that ended and was not cut, counted. -/
def countRun (operatorId : OperatorId) : Gather P V :=
  { gather with
    runs := gather.runs.set operatorId ((gather.runs.get? operatorId).getD 0 + 1)
    breaker := gather.breaker.recordRun operatorId }

/-- `_record_completion`, the windows armed by the clock as it reads for each operator. -/
def recordCompletion (clock : OperatorId → Monotonic) (gather : Gather P V)
    (signal : Completed) : Option (Gather P V) :=
  let operatorId := signal.operatorId
  match gather.running.get? operatorId with
  | none => none
  | some record =>
    let gather := { gather with running := gather.running.erase operatorId }
    if signal.cutByDeadline then
      some { gather with
        deadlineHit := true
        failures := gather.failures.set operatorId cancelledAtDeadline }
    else
      let gather := gather.countRun operatorId
      let attempts := (gather.failedAttempts.get? operatorId).getD 0 + 1
      match signal.error with
      | none =>
        some { gather with
          failedAttempts := gather.failedAttempts.erase operatorId
          state := gather.state.advanceWatermark operatorId record.observedRevision }
      | some error =>
        if gather.retryLeft services operatorId attempts then
          some { gather with
            failedAttempts := gather.failedAttempts.set operatorId attempts
            retries := gather.scheduleRetry services operatorId attempts (clock operatorId)
            armedRetries := gather.armedRetries.set operatorId
              ⟨error, record.observedRevision, attempts⟩ }
        else
          some (gather.recordTerminalFailure operatorId error record.observedRevision)

/-- The completions that are queued. -/
def completions : List Completed := gather.queue.filterMap Signal.completed?

/-- What `_drain_signals` takes off the queue, for `_consume`: the emissions merged in one, the
completions still to be recorded. -/
def takeSignals [DecidableEq P] [DecidableEq V] : Gather P V :=
  { gather with
    queue := []
    state := gather.state.merge (gather.queue.filterMap Signal.dataPoint?) }

/-- `_consume` of all that is queued. -/
def consume [DecidableEq P] [DecidableEq V] (clock : OperatorId → Monotonic) :
    Option (Gather P V) :=
  gather.completions.foldlM (recordCompletion services clock) gather.takeSignals

/-- The turn of `_plan` for an operator, by the clock as it reads then. -/
def visit [DecidableEq P] (observed : Observed P C) (clock : OperatorId → Monotonic)
    (plan : Plan P V O) (operator : O) : Option (Plan P V O) :=
  let operatorId := services.operatorId operator
  let gather := plan.gather
  let now := clock operatorId
  let delta := gather.deltaFor operatorId observed.availableIds
  if (gather.running.get? operatorId).isSome ∨ gather.breaker.isTripped operatorId = true then
    some plan
  else
    let ready := services.isReady operator observed.presentTypes observed.availableTypes
    if gather.retries.isScheduled operatorId then
      if !ready then
        -- the relaunch can never run: the failure it stood for is terminal now
        match gather.armedRetries.get? operatorId with
        | none => none
        | some armed =>
          let cleared := { gather with
            retries := gather.retries.clear operatorId
            armedRetries := gather.armedRetries.erase operatorId }
          some { plan with
            gather :=
              cleared.recordTerminalFailure operatorId armed.error armed.observedRevision }
      else if gather.retries.isDue operatorId now then
        some { plan with runnable := plan.runnable ++ [⟨operator, delta, true⟩] }
      else some (plan.track (gather.retries.dueAt.get? operatorId))
    else if !ready then some plan
    else if !gather.state.hasRun operatorId then
      some { plan with runnable := plan.runnable ++ [⟨operator, delta, false⟩] }
    else if !(services.policy operator).rerunOnNewData then some plan
    else if !services.hasRelevantNewData operator delta then some plan
    else
      let debounce :=
        if gather.debounce.isScheduled operatorId then gather.debounce
        else gather.debounce.schedule operatorId now (services.debounce operator)
      let plan := { plan with gather := { gather with debounce := debounce } }
      if debounce.isDue operatorId now then
        some { plan with runnable := plan.runnable ++ [⟨operator, delta, false⟩] }
      else some (plan.track (debounce.dueAt.get? operatorId))

/-- A launch. -/
def launch (observed : Observed P C) (gather : Gather P V) (runnable : Runnable P V O) :
    Gather P V :=
  let operatorId := services.operatorId runnable.operator
  let clipped := decide (observed.remaining.any
    (fun remaining => remaining < services.timeoutFor runnable.operator) = true)
  let gather :=
    { gather with
      prevCaps := gather.prevCaps.set operatorId observed.availableIds
      running := gather.running.set operatorId ⟨.working, clipped, gather.state.revision⟩ }
  if runnable.isRetry then
    { gather with
      retries := gather.retries.clear operatorId
      armedRetries := gather.armedRetries.erase operatorId }
  else { gather with debounce := gather.debounce.clear operatorId }

/-- What the loop waits for after its launches. -/
def nextPhase (soonestDue : Option Monotonic) : LoopPhase :=
  if !gather.running.keys.isEmpty then .waiting soonestDue.isSome
  else if soonestDue.isSome then .asleep
  -- nothing running, nothing armed
  else .draining

variable [DecidableEq P] [DecidableEq C]

/-- A pass: the plan, the launches, and what comes next. -/
def pass (now : Monotonic) (available : Finset CapabilityId) (clock : OperatorId → Monotonic) :
    Option (Gather P V) :=
  let observed : Observed P C :=
    { remaining := gather.deadline.map (fun deadline => deadline - now)
      presentTypes := (gather.state.view.map DataPoint.type).toFinset
      availableIds := available
      availableTypes := Declarations.typesOf
        (services.declarations.registered services.capabilities) available }
  match services.operators.foldlM (visit services observed clock) ⟨gather, [], none⟩ with
  | none => none
  | some plan =>
    let launched := plan.runnable.foldl (launch services observed) plan.gather
    some { launched with phase := launched.nextPhase plan.soonestDue }

/-- The end of `_drain_remaining`: what is still running is reported as cancelled. -/
def cancelRemaining : Gather P V :=
  { gather with
    failures := (gather.running.keys.mergeSort (· ≤ ·)).foldl
      (fun failures operatorId => failures.set operatorId cancelledAtDeadline) gather.failures
    running := .empty
    phase := .ended }

end

end Gather

/-- What happens next: a task emits, ends or is cancelled, or the loop goes on. -/
inductive Action (P V : Type) where
  | emit (operatorId : OperatorId) (dataPoint : DataPoint P V)
  | finish (operatorId : OperatorId) (error : Option RunError)
  | cancelled (operatorId : OperatorId)
  /-- The loop checks its condition, and passes or falls out of it. -/
  | pass (now : Monotonic) (available : Finset CapabilityId) (clock : OperatorId → Monotonic)
  /-- A signal is there first. -/
  | signalled (clock : OperatorId → Monotonic)
  /-- A window is due first. -/
  | due
  | drain (clock : OperatorId → Monotonic)
  | close (clock : OperatorId → Monotonic)

namespace Gather

variable {P V C O : Type} [DecidableEq P] [DecidableEq V] [DecidableEq C]

/-- The session after an action, if it can be taken. -/
def step (services : Services P C O) (gather : Gather P V) : Action P V → Option (Gather P V)
  | .emit operatorId dataPoint =>
    if (gather.running.get? operatorId).map Running.task = some .working then
      some { gather with queue := gather.queue ++ [.emitted operatorId dataPoint] }
    else none
  | .finish operatorId error =>
    match gather.running.get? operatorId with
    | none => none
    | some record =>
      if record.task = .working then
        let signal : Completed :=
          ⟨operatorId, error, record.clipped && error.any RunError.isTimeout⟩
        some { gather with
          queue := gather.queue ++ [.completed signal]
          running := gather.running.set operatorId { record with task := .reported }
          lastEnding := gather.lastEnding.set operatorId signal.ending }
      else none
  | .cancelled operatorId =>
    match gather.running.get? operatorId with
    | none => none
    | some record =>
      -- cancelled by the drain, or of its own accord: neither is caught in `_run_one`
      if record.task = .working then
        some { gather with
          running := gather.running.set operatorId { record with task := .cancelled }
          lastEnding := gather.lastEnding.set operatorId .cancelled }
      else none
  | .pass now available clock =>
    if gather.phase = .looping then
      if gather.deadlineHit ∨ gather.deadline.any (fun deadline => deadline ≤ now) then
        some { gather with deadlineHit := true, phase := .draining }
      else gather.pass services now available clock
    else none
  | .signalled clock =>
    if (gather.phase = .waiting true ∨ gather.phase = .waiting false) ∧ gather.queue ≠ [] then
      (gather.consume services clock).map (fun gather => { gather with phase := .looping })
    else none
  | .due =>
    if gather.phase = .waiting true ∨ gather.phase = .asleep then
      some { gather with phase := .looping }
    else none
  | .drain clock =>
    if gather.phase = .draining then
      (gather.consume services clock).map (fun gather => { gather with phase := .cancelling })
    else none
  | .close clock =>
    -- every task under way has been awaited
    if gather.phase = .cancelling
        ∧ ∀ operatorId ∈ gather.running.keys,
          (gather.running.get? operatorId).map Running.task ≠ some .working then
      (gather.consume services clock).map cancelRemaining
    else none

/-- A session before its gathering, with what was seeded. -/
def initial (services : Services P C O) (seed : List (DataPoint P V)) (now : Monotonic) :
    Gather P V where
  state := SessionState.initial.merge seed
  runs := .empty
  failures := .empty
  failedAttempts := .empty
  armedRetries := .empty
  prevCaps := .empty
  breaker := ⟨services.caps, .empty⟩
  debounce := .initial
  retries := .initial
  running := .empty
  queue := []
  deadline := services.sessionDeadline.map (fun deadline => now + deadline)
  deadlineHit := false
  phase := .looping
  lastEnding := .empty

end Gather

end Lite

end Orcastork
