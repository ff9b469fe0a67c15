import Orcastork.Library.TransitionSystem
import Orcastork.Orchestrator.Gather

/-!
# What a step of a gather does

The ways in which a step can go, one rule for each (`Gather.Steps`). A step that changes nothing
but the phase of the loop is a move (`Gather.Moves`), and a completion is recorded in one of a few
ways (`Gather.Records`). What holds of every run is shown by going through the rules.
-/

namespace Orcastork

namespace Gather

variable {P C O : Type} {services : GatherServices P C O} {gather gather' : Gather O}

/-! ### Merges -/

/-- A batch of the queue that is merged. -/
theorem mergeBatch_eq_ok {now : Timestamp} {faults : MergeFaults} {batch : List QueuedEmission}
    (h : gather.mergeBatch services now faults batch = (.ok (), gather')) :
  ∃ emitted state, normalizeAll batch = .ok emitted
    ∧ gather.state.mergeEmissions services.merging (gather.call now faults) emitted
      = (.ok (), state)
    ∧ gather' = { gather with state := state, presented := gather.presented ++ emitted }
  := by
  rw [mergeBatch] at h
  split at h
  · cases h
  · rename_i emitted hemitted
    split at h
    · cases h
    · rename_i state hmerge
      obtain ⟨-, rfl⟩ := Prod.mk.inj h
      exact ⟨emitted, state, hemitted, hmerge, rfl⟩

/-- Why a merge raises: a value has no normal form, or the merge itself raises. -/
inductive MergeRaises (services : GatherServices P C O) (gather : Gather O) (now : Timestamp)
    (faults : MergeFaults) (batch : List QueuedEmission) (error : OrchestrationError) :
    MergeState → Prop where
  | unsortable (h : normalizeAll batch = .error error) :
    MergeRaises services gather now faults batch error gather.state
  | merge {emitted : List Emitted} {state : MergeState}
      (hnormalized : normalizeAll batch = .ok emitted)
      (hmerge : gather.state.mergeEmissions services.merging (gather.call now faults) emitted
        = (.error error, state)) :
    MergeRaises services gather now faults batch error state

/-- A batch whose merge raises. -/
theorem mergeBatch_eq_error {now : Timestamp} {faults : MergeFaults} {batch : List QueuedEmission}
    {error : OrchestrationError}
    (h : gather.mergeBatch services now faults batch = (.error error, gather')) :
  ∃ state, gather' = { gather with state := state }
    ∧ MergeRaises services gather now faults batch error state
  := by
  rw [mergeBatch] at h
  split at h
  · rename_i error' hfailed
    obtain ⟨hsame, rfl⟩ := Prod.mk.inj h
    cases hsame
    exact ⟨gather.state, rfl, .unsortable hfailed⟩
  · rename_i emitted hemitted
    split at h
    · rename_i error' state hmerge
      obtain ⟨hsame, rfl⟩ := Prod.mk.inj h
      cases hsame
      exact ⟨state, rfl, .merge hemitted hmerge⟩
    · cases h

/-- A merge that raises does not go through. -/
theorem MergeRaises.mergeBatch_ne_ok {now : Timestamp} {faults : MergeFaults}
    {batch : List QueuedEmission} {error : OrchestrationError} {state : MergeState}
    (h : MergeRaises services gather now faults batch error state) :
  (gather.mergeBatch services now faults batch).1 ≠ .ok ()
  := by
  intro hok
  rw [mergeBatch] at hok
  cases h with
  | unsortable hfailed =>
      rw [hfailed] at hok
      cases hok
  | merge hnormalized hmerge =>
      rw [hnormalized] at hok
      simp only [hmerge] at hok
      cases hok

/-! ### Recording -/

/-- A run that is to be retried leaves the watermark where it is. -/
theorem advancedTo_of_retrying {completion : Completion} (record : RunningRecord)
    (hretrying : (gather.remember services completion).1 = true) :
  (gather.recordedRun services completion record).advancedTo = none
  := by
  rw [recordedRun, hretrying]
  rfl

/-- A run that is over advances the watermark to the revision it observed. -/
theorem advancedTo_of_not_retrying {completion : Completion} (record : RunningRecord)
    (hretrying : (gather.remember services completion).1 = false) :
  (gather.recordedRun services completion record).advancedTo = some record.observedRevision
  := by
  rw [recordedRun, hretrying]
  rfl

/-- How the recording of a completion goes. -/
inductive Records (services : GatherServices P C O) (gather : Gather O) (now : Timestamp)
    (faults : RecordFaults) (completion : Completion) :
    Except OrchestrationError Unit → Gather O → Prop where
  | unknown (hrunning : gather.memory.running.get? completion.operatorId = none) :
    Records services gather now faults completion (.error (.keyError completion.operatorId)) gather
  | auditRaised {record : RunningRecord} {error : OrchestrationError}
      (hrunning : gather.memory.running.get? completion.operatorId = some record)
      (hraised : faults.audit = some error ∨ faults.audit = none
        ∧ gather.state.audit.append
            (gather.operatorRow services now (gather.recordedRun services completion record))
          = .error error) :
    Records services gather now faults completion (.error error)
      { gather with memory := (gather.remember services completion).2 }
  | watermarkRaised {record : RunningRecord} {audit : AuditState} {error : OrchestrationError}
      (hrunning : gather.memory.running.get? completion.operatorId = some record)
      (happend : gather.state.audit.append
            (gather.operatorRow services now (gather.recordedRun services completion record))
          = .ok audit)
      (hraised : faults.watermark = some error ∨ faults.watermark = none
        ∧ gather.state.store.setWatermark completion.operatorId record.observedRevision
            gather.epoch
          = .error error) :
    Records services gather now faults completion (.error error)
      { gather with
        memory := (gather.remember services completion).2
        state := { gather.state with audit := audit }
        booked := gather.booked
          ++ [.recorded (gather.recordedRun services completion record)] }
  | retried {record : RunningRecord} {audit : AuditState}
      (hrunning : gather.memory.running.get? completion.operatorId = some record)
      (hretrying : (gather.remember services completion).1 = true)
      (happend : gather.state.audit.append
            (gather.operatorRow services now (gather.recordedRun services completion record))
          = .ok audit) :
    Records services gather now faults completion (.ok ())
      { gather with
        memory := (gather.remember services completion).2
        state := { gather.state with audit := audit }
        recorded := gather.recorded ++ [gather.recordedRun services completion record]
        booked := gather.booked
          ++ [.recorded (gather.recordedRun services completion record)] }
  | advanced {record : RunningRecord} {audit : AuditState} {store : SessionState}
      (hrunning : gather.memory.running.get? completion.operatorId = some record)
      (hretrying : (gather.remember services completion).1 = false)
      (happend : gather.state.audit.append
            (gather.operatorRow services now (gather.recordedRun services completion record))
          = .ok audit)
      (hstore : gather.state.store.setWatermark completion.operatorId record.observedRevision
            gather.epoch
          = .ok store) :
    Records services gather now faults completion (.ok ())
      { gather with
        memory :=
          { (gather.remember services completion).2 with
            watermarks := (gather.remember services completion).2.watermarks.set
              completion.operatorId record.observedRevision }
        state := { gather.state with audit := audit, store := store }
        recorded := gather.recorded ++ [gather.recordedRun services completion record]
        booked := gather.booked
          ++ [.recorded (gather.recordedRun services completion record)] }

theorem records_recordCompletion (services : GatherServices P C O) (gather : Gather O)
    (now : Timestamp) (faults : RecordFaults) (completion : Completion) :
  Records services gather now faults completion
    (gather.recordCompletion services now faults completion).1
    (gather.recordCompletion services now faults completion).2
  := by
  rw [recordCompletion]
  split
  · rename_i hrunning
    exact .unknown hrunning
  · rename_i record hrunning
    simp only
    split
    · rename_i error hfault
      exact .auditRaised hrunning (Or.inl hfault)
    · rename_i hfault
      split
      · rename_i error happend
        exact .auditRaised hrunning (Or.inr ⟨hfault, happend⟩)
      · rename_i audit happend
        rw [advanceWatermark]
        cases hretrying : (gather.remember services completion).1 with
        | true =>
            rw [advancedTo_of_retrying record hretrying]
            exact .retried hrunning hretrying happend
        | false =>
            rw [advancedTo_of_not_retrying record hretrying]
            simp only
            split
            · rename_i error hfault'
              exact .watermarkRaised hrunning happend (Or.inl hfault')
            · rename_i hfault'
              split
              · rename_i error hstore
                exact .watermarkRaised hrunning happend (Or.inr ⟨hfault', hstore⟩)
              · rename_i store hstore
                exact .advanced hrunning hretrying happend hstore

/-! ### Moves -/

/-- The error that the port call of a move raises. -/
def raisedBy : GatherAction → Option OrchestrationError
  | .renew error => error
  | .inboxDone error => error
  | .refresh _ error => error
  | .wait (.failed error) => some error
  | _ => none

/-- The moves of the loop that change nothing but its phase. -/
inductive Moves (gather : Gather O) (action : GatherAction) : GatherPhase → Prop where
  | renewed (hphase : gather.phase = .head) (htime : gather.now < gather.deadline) :
    Moves gather action .inbox
  | expired (hphase : gather.phase = .head) (htime : gather.deadline ≤ gather.now) :
    Moves gather action (.draining .deadline)
  | drained (hphase : gather.phase = .inbox) : Moves gather action .refreshing
  | woken {dueAt : Monotonic} (hphase : gather.phase = .sleeping dueAt)
      (htime : dueAt ≤ gather.now) :
    Moves gather action .head
  | waited {parkAt : Option Monotonic} (hphase : gather.phase = .waiting parkAt) :
    Moves gather action .head
  | parked {parkAt : Monotonic} (hphase : gather.phase = .waiting (some parkAt))
      (htime : parkAt ≤ gather.now) :
    Moves gather action (.draining .parked)
  | awaited {exit : GatherExit} (hphase : gather.phase = .cancelling exit)
      (hended : ∀ i ∈ gather.registered, ∀ task, gather.tasks[i]? = some task →
        task.status.live = false) :
    Moves gather action (.drainingAgain exit)
  | raised {error : OrchestrationError} (hraised : raisedBy action = some error)
      (hphase : gather.phase = .head ∨ gather.phase = .inbox ∨ gather.phase = .refreshing
        ∨ ∃ parkAt, gather.phase = .waiting parkAt) :
    Moves gather action (.draining (.raised error))

/-! ### Steps -/

variable [DecidableEq P] [DecidableEq C]

/-- A gather can begin. -/
def canBegin : GatherPhase → Prop
  | .ready => True
  | .ended .quiescent => True
  | .ended .deadline => True
  | _ => False

/-- Why a pass raises: a read of the mirror does. -/
inductive PassRaises (services : GatherServices P C O) (gather : Gather O)
    (available : Finset CapabilityId) (error : OrchestrationError) : Prop where
  | snapshot (h : gather.state.mirror.snapshot gather.state.mirror.sessionId = .error error)
  | revision (h : gather.state.mirror.getRevision gather.state.mirror.sessionId = .error error)
  | plan {view : DataPointView}
      (hview : gather.state.mirror.snapshot gather.state.mirror.sessionId = .ok view)
      (h : services.plan gather.state.mirror gather.memory view available gather.now
        = .error error)

/-- What one step does. -/
inductive Steps (services : GatherServices P C O) (gather : Gather O) :
    GatherAction → Gather O → Prop where
  | elapse (span : ℕ) : Steps services gather (.elapse span) { gather with now := gather.now + span }
  | audit {entry : AuditLogEntry} {audit : AuditState}
      (hkind : entry.kind ≠ "operator_invoked" ∧ entry.kind ≠ "data_point_added"
        ∧ entry.kind ≠ "data_points_coalesced")
      (happend : gather.state.audit.append { entry with epoch := gather.epoch } = .ok audit) :
    Steps services gather (.audit entry)
      { gather with state := { gather.state with audit := audit } }
  /-- A run is past its fault boundary: it is done, it failed, or its leaf rejected a value. -/
  | stopped {action : GatherAction} {i : ℕ} {task : OperatorTask O} (error : Option String)
      (htask : gather.tasks[i]? = some task) (hrunning : task.status = .running) :
    Steps services gather action (gather.setStatus i task (.completing error))
  | emitted {i : ℕ} {task : OperatorTask O} {emission : DataPointEmission} {at' : Timestamp}
      {finalized : FinalizedDataPoint}
      (htask : gather.tasks[i]? = some task) (hrunning : task.status = .running)
      (hfinalized : emission.finalize services.validate (services.operatorId task.operator) at'
        = .ok finalized)
      (hroom : gather.queue.length < services.queueSize) :
    Steps services gather (.emit i emission at')
      (gather.enqueue (.emitted ⟨services.operatorId task.operator, finalized⟩))
  | completed {i : ℕ} {task : OperatorTask O} {error : Option String} {runSeconds : Monotonic}
      (htask : gather.tasks[i]? = some task) (hcompleting : task.status = .completing error)
      (hroom : gather.queue.length < services.queueSize) :
    Steps services gather (.complete i runSeconds)
      ((gather.setStatus i task .finished).enqueue
        (.completed ⟨services.operatorId task.operator, error, runSeconds⟩))
  | vanished {i : ℕ} {task : OperatorTask O} (htask : gather.tasks[i]? = some task)
      (hlive : task.status.live = true) :
    Steps services gather (.vanish i) (gather.setStatus i task .vanished)
  | cancelled {i : ℕ} {task : OperatorTask O} {exit : GatherExit}
      (htask : gather.tasks[i]? = some task) (hphase : gather.phase = .cancelling exit)
      (hlive : task.status.live = true) :
    Steps services gather (.cancelled i) (gather.setStatus i task .cancelled)
  | seeded {now : Timestamp} {faults : MergeFaults} {dataPoints : List BaseDataPoint}
      {state : MergeState} (hphase : gather.phase = .ready)
      (hmerge : gather.state.merge services.merging (gather.call now faults) dataPoints none
        = (.ok (), state)) :
    Steps services gather (.seed now faults dataPoints)
      { gather with
        state := state
        presented := gather.presented ++ dataPoints.map (fun dataPoint => ⟨none, dataPoint⟩) }
  | seedRaised {now : Timestamp} {faults : MergeFaults} {dataPoints : List BaseDataPoint}
      {state : MergeState} {error : OrchestrationError} (hphase : gather.phase = .ready)
      (hmerge : gather.state.merge services.merging (gather.call now faults) dataPoints none
        = (.error error, state)) :
    Steps services gather (.seed now faults dataPoints)
      { gather with state := state, phase := .ended (.raised error) }
  | begun {deadline : Monotonic} {mirror : SessionStateMirror} (hphase : canBegin gather.phase)
      (hprime : gather.primeAll
          (Paging.inOrder id (gather.loadWatermarks services).values.dedup) gather.state.mirror
        = .ok mirror) :
    Steps services gather (.begin' deadline)
      { gather with
        deadline := deadline
        state := { gather.state with mirror := mirror }
        memory :=
          { gather.memory with
            watermarks := gather.loadWatermarks services
            retries := .initial
            debounce := .initial
            running := .empty }
        queue := []
        tasks := []
        phase := .head }
  | beginRaised {deadline : Monotonic} {error : OrchestrationError}
      (hphase : canBegin gather.phase)
      (hprime : gather.primeAll
          (Paging.inOrder id (gather.loadWatermarks services).values.dedup) gather.state.mirror
        = .error error) :
    Steps services gather (.begin' deadline) { gather with phase := .ended (.raised error) }
  | delivered {now : Timestamp} {faults : MergeFaults} {dataPoints : List BaseDataPoint}
      {state : MergeState} (hphase : gather.phase = .inbox)
      (hmerge : gather.state.applyInboxDataPoints services.merging (gather.call now faults)
          dataPoints
        = (.ok (), state)) :
    Steps services gather (.deliver now faults dataPoints)
      { gather with
        state := state
        presented := gather.presented ++ dataPoints.map (fun dataPoint => ⟨none, dataPoint⟩) }
  | deliverRaised {now : Timestamp} {faults : MergeFaults} {dataPoints : List BaseDataPoint}
      {state : MergeState} {error : OrchestrationError} (hphase : gather.phase = .inbox)
      (hmerge : gather.state.applyInboxDataPoints services.merging (gather.call now faults)
          dataPoints
        = (.error error, state)) :
    Steps services gather (.deliver now faults dataPoints)
      { gather with state := state, phase := .draining (.raised error) }
  | passed {available : Finset CapabilityId} {view : DataPointView} {observed : Revision}
      {plan : GatherPlan O} (hphase : gather.phase = .refreshing)
      (hview : gather.state.mirror.snapshot gather.state.mirror.sessionId = .ok view)
      (hobserved : gather.state.mirror.getRevision gather.state.mirror.sessionId = .ok observed)
      (hplan : services.plan gather.state.mirror gather.memory view available gather.now
        = .ok plan) :
    Steps services gather (.refresh available none)
      { gather.launchAll services available observed plan with
        phase := (gather.launchAll services available observed plan).nextPhase services view
          plan.soonestDue }
  | passRaised {available : Finset CapabilityId} {error : OrchestrationError}
      (hphase : gather.phase = .refreshing) (hraised : PassRaises services gather available error) :
    Steps services gather (.refresh available none) (gather.leave error)
  | taken (hphase : gather.phase = .getting) :
    Steps services gather .take { gather with queue := [], phase := .merging gather.queue }
  | merged {now : Timestamp} {faults : MergeFaults} {batch : List Signal}
      {emitted : List Emitted} {state : MergeState} (hphase : gather.phase = .merging batch)
      (hnormalized : normalizeAll (emissions batch) = .ok emitted)
      (hmerge : gather.state.mergeEmissions services.merging (gather.call now faults) emitted
        = (.ok (), state)) :
    Steps services gather (.merge now faults)
      ({ gather with state := state, presented := gather.presented ++ emitted }.recordRest
        (completions batch))
  | mergeRaised {now : Timestamp} {faults : MergeFaults} {batch : List Signal}
      {state : MergeState} {error : OrchestrationError} (hphase : gather.phase = .merging batch)
      (hraised : MergeRaises services gather now faults (emissions batch) error state) :
    Steps services gather (.merge now faults)
      { gather with state := state, phase := .draining (.raised error) }
  | recorded {now : Timestamp} {faults : RecordFaults} {completion : Completion}
      {rest : List Completion} {gather' : Gather O}
      (hphase : gather.phase = .recording (completion :: rest))
      (hrecords : Records services gather now faults completion (.ok ()) gather') :
    Steps services gather (.record now faults) (gather'.recordRest rest)
  | recordRaised {now : Timestamp} {faults : RecordFaults} {completion : Completion}
      {rest : List Completion} {gather' : Gather O} {error : OrchestrationError}
      (hphase : gather.phase = .recording (completion :: rest))
      (hrecords : Records services gather now faults completion (.error error) gather') :
    Steps services gather (.record now faults) (gather'.leave error)
  | drained {now : Timestamp} {faults : MergeFaults} {exit : GatherExit}
      {emitted : List Emitted} {state : MergeState} (hphase : gather.phase = .draining exit)
      (hnormalized : normalizeAll (emissions gather.queue) = .ok emitted)
      (hmerge : gather.state.mergeEmissions services.merging (gather.call now faults) emitted
        = (.ok (), state)) :
    Steps services gather (.drain now faults)
      { gather with
        state := state
        presented := gather.presented ++ emitted
        queue := []
        phase :=
          if gather.memory.running.keys.isEmpty then .drainingAgain exit else .cancelling exit }
  | drainedAgain {now : Timestamp} {faults : MergeFaults} {exit : GatherExit}
      {emitted : List Emitted} {state : MergeState} (hphase : gather.phase = .drainingAgain exit)
      (hnormalized : normalizeAll (emissions gather.queue) = .ok emitted)
      (hmerge : gather.state.mergeEmissions services.merging (gather.call now faults) emitted
        = (.ok (), state)) :
    Steps services gather (.drain now faults)
      { gather with
        state := state
        presented := gather.presented ++ emitted
        queue := []
        phase := .ended exit }
  | drainRaised {now : Timestamp} {faults : MergeFaults} {exit : GatherExit}
      {state : MergeState} {error : OrchestrationError}
      (hphase : gather.phase = .draining exit ∨ gather.phase = .drainingAgain exit)
      (hraised : MergeRaises services gather now faults (emissions gather.queue) error state) :
    Steps services gather (.drain now faults)
      { gather with state := state, queue := [], phase := .ended (.raised error) }
  | moved {action : GatherAction} {phase : GatherPhase} (h : Moves gather action phase) :
    Steps services gather action { gather with phase := phase }
  | disposed {now : Timestamp} {operatorId : OperatorId} {disposition : AggregatorDisposition}
      {audit : AuditState} (hphase : gather.phase.aggregates = true)
      (happend : gather.state.audit.append
          ⟨gather.epoch, now, "operator_invoked",
            services.operatorDetail (disposition.info operatorId)⟩
        = .ok audit) :
    Steps services gather (.dispose now operatorId disposition)
      { gather with
        state := { gather.state with audit := audit }
        booked := gather.booked ++ [.aggregated operatorId disposition] }
  | contributed {operatorId : OperatorId} (hphase : gather.phase.aggregates = true)
      (haggregates : aggregates services operatorId = true) :
    Steps services gather (.contribute operatorId) (gather.contribute operatorId)

omit [DecidableEq P] [DecidableEq C] in
/-- A merge of the final drain raises, or the next phase is reached. -/
theorem steps_drainQueue {now : Timestamp} {faults : MergeFaults} (next : GatherPhase) :
  (∃ emitted state, normalizeAll (emissions gather.queue) = .ok emitted
      ∧ gather.state.mergeEmissions services.merging (gather.call now faults) emitted
        = (.ok (), state)
      ∧ gather.drainQueue services now faults next
        = { gather with
            state := state
            presented := gather.presented ++ emitted
            queue := []
            phase := next })
    ∨ ∃ error state, MergeRaises services gather now faults (emissions gather.queue) error state
      ∧ gather.drainQueue services now faults next
        = { gather with state := state, queue := [], phase := .ended (.raised error) }
  := by
  rw [drainQueue]
  generalize hmerged : mergeBatch services { gather with queue := [] } now faults
    (emissions gather.queue) = merged
  obtain ⟨result, gather'⟩ := merged
  cases result with
  | ok _ =>
      obtain ⟨emitted, state, hnormalized, hmerge, rfl⟩ := mergeBatch_eq_ok hmerged
      left
      exact ⟨emitted, state, hnormalized, hmerge, rfl⟩
  | error error =>
      obtain ⟨state, rfl, hraised⟩ := mergeBatch_eq_error hmerged
      right
      use error, state
      constructor
      · cases hraised with
        | unsortable h => exact .unsortable h
        | merge hnormalized hmerge => exact .merge hnormalized hmerge
      · rfl

/-- What a task does is a step. -/
theorem steps_of_taskStep {action : GatherAction} (h : gather.taskStep services action = some gather') :
  Steps services gather action gather'
  := by
  cases action with
  | emit i emission at' =>
      simp only [taskStep] at h
      split at h
      · rename_i task htask
        split at h
        · rename_i hrunning
          rw [emit] at h
          split at h
          · cases h
            exact .stopped _ htask hrunning
          · rename_i finalized hfinalized
            split at h
            · cases h
              exact .emitted htask hrunning hfinalized ‹_›
            · cases h
        · cases h
      · cases h
  | fail i error =>
      simp only [taskStep] at h
      split at h
      · rename_i task htask
        split at h
        · cases h
          exact .stopped _ htask ‹_›
        · cases h
      · cases h
  | finish i =>
      simp only [taskStep] at h
      split at h
      · rename_i task htask
        split at h
        · cases h
          exact .stopped _ htask ‹_›
        · cases h
      · cases h
  | complete i runSeconds =>
      simp only [taskStep] at h
      split at h
      · rename_i task htask
        split at h
        · rename_i error hcompleting
          rw [complete] at h
          split at h
          · cases h
            exact .completed htask hcompleting ‹_›
          · cases h
        · cases h
      · cases h
  | vanish i =>
      simp only [taskStep] at h
      split at h
      · rename_i task htask
        split at h
        · cases h
          exact .vanished htask ‹_›
        · cases h
      · cases h
  | cancelled i =>
      simp only [taskStep] at h
      split at h
      · rename_i task exit htask hphase
        split at h
        · rename_i hcancel
          cases h
          exact .cancelled htask hphase (Bool.and_eq_true_iff.mp hcancel).1
        · cases h
      · cases h
  | _ => cases h

/-- What the loop does is a step. -/
theorem steps_of_loopStep {action : GatherAction} (h : gather.loopStep services action = some gather') :
  Steps services gather action gather'
  := by
  cases action with
  | seed now faults dataPoints =>
      simp only [loopStep] at h
      split at h
      · rename_i hphase
        split at h
        · cases h
          exact .seedRaised hphase ‹_›
        · cases h
          exact .seeded hphase ‹_›
      · cases h
  | begin' deadline =>
      have hbegin : canBegin gather.phase → gather.beginGather services deadline = gather' →
          Steps services gather (.begin' deadline) gather' := by
        intro hphase hgather
        rw [beginGather] at hgather
        simp only at hgather
        split at hgather
        · rw [← hgather]
          exact .beginRaised hphase ‹_›
        · rw [← hgather]
          exact .begun hphase ‹_›
      simp only [loopStep] at h
      split at h
      · rename_i hphase
        apply hbegin _ (Option.some.inj h)
        rw [hphase]
        trivial
      · rename_i hphase
        apply hbegin _ (Option.some.inj h)
        rw [hphase]
        trivial
      · rename_i hphase
        apply hbegin _ (Option.some.inj h)
        rw [hphase]
        trivial
      · cases h
  | renew error =>
      simp only [loopStep] at h
      split at h
      · rename_i hphase
        split at h
        · rename_i htime
          split at h
          · cases h
            exact .moved (.raised rfl (Or.inl hphase))
          · cases h
            exact .moved (.renewed hphase htime)
        · rename_i htime
          cases h
          exact .moved (.expired hphase (not_lt.mp htime))
      · cases h
  | deliver now faults dataPoints =>
      simp only [loopStep] at h
      split at h
      · rename_i hphase
        split at h
        · cases h
          exact .deliverRaised hphase ‹_›
        · cases h
          exact .delivered hphase ‹_›
      · cases h
  | inboxDone error =>
      simp only [loopStep] at h
      split at h
      · rename_i hphase
        cases h
        exact .moved (.raised rfl (Or.inr (Or.inl hphase)))
      · rename_i hphase
        cases h
        exact .moved (.drained hphase)
      · cases h
  | refresh available error =>
      simp only [loopStep] at h
      split at h
      · rename_i hphase
        cases h
        exact .moved (.raised rfl (Or.inr (Or.inr (Or.inl hphase))))
      · rename_i hphase
        rw [pass] at h
        simp only [Option.some.injEq] at h
        split at h
        · rw [← h]
          exact .passRaised hphase (.snapshot ‹_›)
        · rw [← h]
          exact .passRaised hphase (.revision ‹_›)
        · rename_i view observed hview hobserved
          split at h
          · rw [← h]
            exact .passRaised hphase (.plan hview ‹_›)
          · rw [← h]
            exact .passed hphase hview hobserved ‹_›
      · cases h
  | take =>
      simp only [loopStep] at h
      split at h
      · rename_i hphase
        split at h
        · cases h
        · cases h
          exact .taken hphase
      · cases h
  | merge now faults =>
      simp only [loopStep] at h
      split at h
      · rename_i batch hphase
        generalize hmerged : gather.mergeBatch services now faults (emissions batch) = merged at h
        obtain ⟨result, merged⟩ := merged
        cases result with
        | ok _ =>
            obtain ⟨emitted, state, hnormalized, hmerge, rfl⟩ := mergeBatch_eq_ok hmerged
            cases h
            exact .merged hphase hnormalized hmerge
        | error error =>
            obtain ⟨state, rfl, hraised⟩ := mergeBatch_eq_error hmerged
            cases h
            exact .mergeRaised hphase hraised
      · cases h
  | record now faults =>
      simp only [loopStep] at h
      split at h
      · rename_i completion rest hphase
        have hrecords := records_recordCompletion services gather now faults completion
        generalize gather.recordCompletion services now faults completion = recorded at h hrecords
        obtain ⟨result, recorded⟩ := recorded
        cases result with
        | ok _ =>
            cases h
            exact .recorded hphase hrecords
        | error error =>
            cases h
            exact .recordRaised hphase hrecords
      · cases h
  | wake =>
      simp only [loopStep] at h
      split at h
      · rename_i dueAt hphase
        split at h
        · cases h
          exact .moved (.woken hphase ‹_›)
        · cases h
      · cases h
  | wait ends =>
      simp only [loopStep] at h
      split at h
      · rename_i parkAt hphase
        cases h
        exact .moved (.waited hphase)
      · rename_i parkAt error hphase
        cases h
        exact .moved (.raised rfl (Or.inr (Or.inr (Or.inr ⟨parkAt, hphase⟩))))
      · rename_i parkAt hphase
        split at h
        · cases h
          exact .moved (.waited hphase)
        · split at h
          · split at h
            · cases h
              exact .moved (.parked hphase ‹_›)
            · cases h
          · cases h
      · cases h
  | drain now faults =>
      simp only [loopStep] at h
      split at h
      · rename_i exit hphase
        rw [Option.some.injEq] at h
        rcases @steps_drainQueue P C O services gather now faults
          (if gather.memory.running.keys.isEmpty then .drainingAgain exit else .cancelling exit)
          with ⟨emitted, state, hnormalized, hmerge, heq⟩ | ⟨error, state, hraised, heq⟩
        · rw [← h, heq]
          exact .drained hphase hnormalized hmerge
        · rw [← h, heq]
          exact .drainRaised (Or.inl hphase) hraised
      · rename_i exit hphase
        rw [Option.some.injEq] at h
        rcases @steps_drainQueue P C O services gather now faults (.ended exit)
          with ⟨emitted, state, hnormalized, hmerge, heq⟩ | ⟨error, state, hraised, heq⟩
        · rw [← h, heq]
          exact .drainedAgain hphase hnormalized hmerge
        · rw [← h, heq]
          exact .drainRaised (Or.inr hphase) hraised
      · cases h
  | awaited =>
      simp only [loopStep] at h
      split at h
      · rename_i exit hphase
        split at h
        · rename_i hended
          cases h
          apply Steps.moved
          apply Moves.awaited hphase
          intro i hi task htask
          have htaskEnded := List.all_eq_true.mp hended i hi
          rw [htask, Option.map_some, Option.getD_some, Bool.not_eq_true'] at htaskEnded
          exact htaskEnded
        · cases h
      · cases h
  | _ => cases h

/-- What happens in a step is one of the rules. -/
theorem steps_of_step {action : GatherAction} (h : gather.step services action = some gather') :
  Steps services gather action gather'
  := by
  cases action with
  | elapse span =>
      cases h
      exact .elapse span
  | audit entry =>
      rw [step] at h
      split at h
      · cases h
      · rename_i hkind
        rw [not_or, not_or] at hkind
        split at h
        · cases h
        · cases h
          exact .audit hkind ‹_›
  | emit i emission at' => exact steps_of_taskStep h
  | fail i error => exact steps_of_taskStep h
  | finish i => exact steps_of_taskStep h
  | complete i runSeconds => exact steps_of_taskStep h
  | vanish i => exact steps_of_taskStep h
  | cancelled i => exact steps_of_taskStep h
  | dispose now operatorId disposition =>
      rw [step] at h
      split at h
      · rename_i hphase
        rw [dispose] at h
        split at h
        · cases h
        · cases h
          exact .disposed (Bool.and_eq_true_iff.mp hphase).1 ‹_›
      · cases h
  | contribute operatorId =>
      rw [step] at h
      split at h
      · rename_i hphase
        obtain ⟨hphase, haggregates⟩ := Bool.and_eq_true_iff.mp hphase
        cases h
        exact .contributed hphase haggregates
      · cases h
  | _ => exact steps_of_loopStep h

end Gather

end Orcastork
