import Orcastork.Library.TransitionSystem
import Orcastork.Orchestrator.AuditTrail
import Orcastork.Orchestrator.Drain
import Orcastork.Orchestrator.Gather

/-!
# Everything a run writes into the trail

Every row a run appends to the audit log, by the path that appends it: the rows of DataPoints and
the coalesced ones, the runs of operators and the attempts of aggregators, capabilities, inbox
entries that are quarantined, flow drift, and the park. The text of an error gets into the trail
from three sides: as the error of an operator run, which may be the validation error of a value
it emits; as the reason of a quarantine; and as the error of a capability.

What operators emit and end with, what the inbox is delivered, and what is called on capabilities
is left open, and so is when the loop gets to what it does: a `TrailAction` is one of these
things. The bound of the queue and the schedule only decide when an action is taken. Once
something has raised, only what operators do and the drain of their queue still happen. A session
is one run after another, each on what is left of the one before.
-/

namespace Orcastork

/-! ### What rows say -/

/-- `CapabilityAuditInfo`. -/
structure CapabilityAuditInfo where
  capabilityId : CapabilityId
  action : Option String
  parameters : List (String × String)
  error : Option String
  deriving DecidableEq, Repr

/-- `FlowAuditInfo`. -/
structure FlowAuditInfo where
  flowName : String
  storedFingerprint : String
  currentFingerprint : String
  deriving DecidableEq, Repr

/-- What a run validates, parses and audits with. -/
structure TrailServices where
  audit : AuditServices
  leaves : Leaves
  sealing : Sealing
  validate : DataPointType → Value → Except String Value
  decode : Decoder
  operatorDetail : OperatorAuditInfo → String
  capabilityDetail : CapabilityAuditInfo → String
  quarantineDetail : ℕ → String → ℕ → String
  flowDetail : FlowAuditInfo → String

namespace TrailServices

variable (services : TrailServices)

/-- What the run merges with. -/
def merging : MergeServices := services.audit.merging services.leaves services.sealing

/-- What the run drains its inbox with. -/
def draining : DrainServices :=
  { services.merging with quarantineDetail := services.quarantineDetail }

end TrailServices

/-! ### Runs -/

/-- A run as far as its trail goes. -/
structure TrailRun where
  epoch : Epoch
  state : DrainState
  /-- The operator runs in flight, with their error once they have failed. -/
  live : Dict OperatorId (Option String)
  queue : List Signal
  /-- The completions taken off the queue that are not recorded yet. -/
  collected : List Completion
  runs : Dict OperatorId ℕ
  failedAttempts : Dict OperatorId ℕ
  raised : Bool

/-- What happens in a run. -/
inductive TrailAction where
  /-- Of operator runs. -/
  | emit (operatorId : OperatorId) (emission : DataPointEmission) (at' : Timestamp)
  | fail (operatorId : OperatorId) (error : String)
  | complete (operatorId : OperatorId) (runSeconds : Monotonic)
  | cancel (operatorId : OperatorId)
  | capabilityInvoked (now : Timestamp) (capabilityId : CapabilityId) (action : String)
    (parameters : List (String × Value))
  /-- Of the inbox, from outside. -/
  | deliver (payload : String)
  /-- Of the orchestrator. -/
  | launch (operatorId : OperatorId)
  | drift (now : Timestamp) (flow : FlowAuditInfo)
  | seed (now : Timestamp) (faults : MergeFaults) (dataPoints : List BaseDataPoint)
  | drainInbox (call : DrainCall)
  | take (now : Timestamp) (faults : MergeFaults)
  | record (now : Timestamp) (retrying : Bool)
  | drainQueue (now : Timestamp) (faults : MergeFaults)
  | capabilityActivated (now : Timestamp) (capabilityId : CapabilityId)
  | activationFailed (now : Timestamp) (capabilityId : CapabilityId) (error : String)
  | aggregatorSkipped (now : Timestamp) (operatorId : OperatorId) (missing : List String)
  | aggregatorAttempted (now : Timestamp) (operatorId : OperatorId) (attempt : ℕ)
    (runSeconds : Monotonic) (error : Option String)
  | deadLettered (now : Timestamp) (operatorId : OperatorId) (maxAttempts : ℕ)
  | coalesce (now : Timestamp)
  | park (now : Timestamp)
  /-- A renewal, a port call or anything else has raised. -/
  | raise

namespace TrailRun

/-- A run of an epoch, its mirror rehydrated and its counters at zero. -/
def start (sessionId : SessionId) (epoch : Epoch) (state : DrainState) : TrailRun where
  epoch := epoch
  state :=
    { state with
      mirror := (SessionStateMirror.initial sessionId).rehydrate state.store
      coalescedAudits := .empty
      reobservedAudits := .empty }
  live := .empty
  queue := []
  collected := []
  runs := .empty
  failedAttempts := .empty
  raised := false

variable (services : TrailServices) (run : TrailRun)

/-- The run after a call on its backends. -/
def after (result : Except OrchestrationError Unit × DrainState) : TrailRun :=
  match result with
  | (.ok (), state) => { run with state := state }
  | (.error _, state) => { run with state := state, raised := true }

/-- `audit.append` of one row of the run. -/
def append (now : Timestamp) (kind detail : String) : TrailRun :=
  match run.state.audit.append ⟨run.epoch, now, kind, detail⟩ with
  | .error _ => { run with raised := true }
  | .ok audit => { run with state := { run.state with audit := audit } }

/-- `_audit_operator_run`. -/
def auditOperatorRun (now : Timestamp) (info : OperatorAuditInfo) : TrailRun :=
  run.append now "operator_invoked" (services.operatorDetail info)

/-- A merge of the run. -/
def call (now : Timestamp) (faults : MergeFaults) : MergeCall := ⟨run.epoch, now, faults⟩

/-- Emissions of the queue, merged. -/
def mergeBatch (now : Timestamp) (faults : MergeFaults) (batch : List QueuedEmission) :
    Except OrchestrationError Unit × DrainState :=
  match normalizeAll batch with
  | .error error => (.error error, run.state)
  | .ok emitted =>
    let (outcome, merged) :=
      run.state.toMergeState.mergeEmissions services.merging (run.call now faults) emitted
    (outcome, { run.state with toMergeState := merged })

/-! ### Operator runs -/

/-- The run of an operator in flight that has not failed. -/
def running (operatorId : OperatorId) : Bool := run.live.get? operatorId = some none

/-- `drain` of `_run_one`: a value its leaf rejects fails the run with the text of the validation
error. -/
def emit (operatorId : OperatorId) (emission : DataPointEmission) (at' : Timestamp) : TrailRun :=
  match emission.finalize services.validate operatorId at' with
  | .error error => { run with live := run.live.set operatorId (some error) }
  | .ok finalized => { run with queue := run.queue ++ [.emitted ⟨operatorId, finalized⟩] }

/-- The end of `_run_one`. -/
def complete (operatorId : OperatorId) (runSeconds : Monotonic) : Option TrailRun :=
  match run.live.get? operatorId with
  | none => none
  | some error =>
    some
      { run with
        live := run.live.erase operatorId
        queue := run.queue ++ [.completed ⟨operatorId, error, runSeconds⟩] }

/-- `_record_completion`. Whether a retry is armed rests on the policy and the breaker of the
operator. -/
def record (now : Timestamp) (retrying : Bool) (completion : Completion) : TrailRun :=
  let operatorId := completion.operatorId
  let runCount := (run.runs.get? operatorId).getD 0 + 1
  let attempt := (run.failedAttempts.get? operatorId).getD 0 + 1
  { run with
    runs := run.runs.set operatorId runCount
    failedAttempts :=
      if completion.error.isSome && retrying then run.failedAttempts.set operatorId attempt
      else run.failedAttempts.erase operatorId }.auditOperatorRun services now
    { operatorId := operatorId
      outcome := if completion.error.isSome then .failed else .succeeded
      runCount := runCount
      attempt := attempt
      runSeconds := some completion.runSeconds
      error := completion.error }

/-- The keys of parameters, with nothing of their values. -/
def redacted (parameters : List (String × Value)) : List (String × String) :=
  parameters.map (fun parameter => (parameter.1, "<redacted>"))

/-- `_audit_capability_invocation`. It is awaited by the operator that makes the call, so where the
append is fenced off it is the operator's code that raises. -/
def auditCapabilityInvocation (now : Timestamp) (capabilityId : CapabilityId) (action : String)
    (parameters : List (String × Value)) : TrailRun :=
  let detail :=
    services.capabilityDetail ⟨capabilityId, some action, redacted parameters, none⟩
  match run.state.audit.append ⟨run.epoch, now, "capability_invoked", detail⟩ with
  | .error _ => run
  | .ok audit => { run with state := { run.state with audit := audit } }

/-! ### Steps -/

/-- What operators and the inbox do. -/
def outerStep : TrailAction → Option TrailRun
  | .emit operatorId emission at' =>
    if run.running operatorId then some (run.emit services operatorId emission at') else none
  | .fail operatorId error =>
    if run.running operatorId then
      some { run with live := run.live.set operatorId (some error) }
    else
      none
  | .complete operatorId runSeconds => run.complete operatorId runSeconds
  | .cancel operatorId => some { run with live := run.live.erase operatorId }
  | .capabilityInvoked now capabilityId action parameters =>
    some (run.auditCapabilityInvocation services now capabilityId action parameters)
  | .deliver payload =>
    some { run with state := { run.state with inbox := (run.state.inbox.append payload).2 } }
  | .drainQueue now faults =>
    some ({ run with queue := [] }.after (run.mergeBatch services now faults (emissions run.queue)))
  | .raise => some { run with raised := true }
  | _ => none

/-- What the orchestrator does as long as nothing has raised. -/
def innerStep : TrailAction → Option TrailRun
  | .launch operatorId =>
    if operatorId ∈ run.live.keys then none
    else some { run with live := run.live.set operatorId none }
  | .drift now flow => some (run.append now "flow_drift_detected" (services.flowDetail flow))
  | .seed now faults dataPoints =>
    let (outcome, merged) :=
      run.state.toMergeState.merge services.merging (run.call now faults) dataPoints none
    some (run.after (outcome, { run.state with toMergeState := merged }))
  | .drainInbox call =>
    some (run.after
      (DrainState.drainInbox services.draining services.decode { call with epoch := run.epoch }
        run.state))
  | .take now faults =>
    if run.collected.isEmpty then
      some ({ run with queue := [], collected := completions run.queue }.after
        (run.mergeBatch services now faults (emissions run.queue)))
    else
      none
  | .record now retrying =>
    match run.collected with
    | [] => none
    | completion :: rest =>
      some ({ run with collected := rest }.record services now retrying completion)
  | .capabilityActivated now capabilityId =>
    some (run.append now "capability_activated"
      (services.capabilityDetail ⟨capabilityId, none, [], none⟩))
  | .activationFailed now capabilityId error =>
    some (run.append now "capability_activation_failed"
      (services.capabilityDetail ⟨capabilityId, none, [], some error⟩))
  | .aggregatorSkipped now operatorId missing =>
    some (run.auditOperatorRun services now
      ((AggregatorDisposition.skipped missing).info operatorId))
  | .aggregatorAttempted now operatorId attempt runSeconds error =>
    some (run.auditOperatorRun services now
      ((AggregatorDisposition.attempted attempt runSeconds error).info operatorId))
  | .deadLettered now operatorId maxAttempts =>
    some (run.auditOperatorRun services now
      ((AggregatorDisposition.deadLettered maxAttempts).info operatorId))
  | .coalesce now =>
    let (outcome, merged) :=
      services.audit.appendCoalescedAudits (run.call now .none) run.state.toMergeState
    some (run.after (outcome, { run.state with toMergeState := merged }))
  | .park now => some (run.append now "session_parked" "")
  | _ => none

/-- The actions that may still happen once something has raised. -/
def outer : TrailAction → Bool
  | .emit .. | .fail .. | .complete .. | .cancel _ | .capabilityInvoked .. | .deliver _
  | .drainQueue .. | .raise => true
  | _ => false

/-- One action, if it can be taken. -/
def step (action : TrailAction) : Option TrailRun :=
  if outer action then run.outerStep services action
  else if run.raised then none
  else run.innerStep services action

end TrailRun

/-! ### Sessions -/

/-- A run of a session, on an epoch, up to its end or its crash. -/
structure EpochRun where
  epoch : Epoch
  actions : List TrailAction

namespace DrainState

/-- The trail. -/
def trail (state : DrainState) : List AuditLogEntry := state.audit.replay

/-- One more run, on what the runs before have left. -/
def resume (services : TrailServices) (sessionId : SessionId) (state : DrainState)
    (epochRun : EpochRun) : Option DrainState :=
  (TransitionSystem.run (TrailRun.step services) (.start sessionId epochRun.epoch state)
    epochRun.actions).map TrailRun.state

end DrainState

end Orcastork
