import Orcastork.Orchestrator.GatherTasks
import Orcastork.Orchestrator.MergeEffects

/-!
# A gather in which nothing fails

What holds of a gather in which no port call raises, on a session that accepted no higher epoch:
its mirror agrees with its store and can answer for every watermark (`InStep`), every value it has
yet to merge has a normal form, and it is never on its way out by an error (`Orderly`). The
operators can do what they like, as long as what they emit can be normalized
(`GatherAction.Normal`) and no pass launches one of them twice.
-/

namespace Orcastork

/-! ### Faultless actions -/

/-- The faults of the merge of an action. -/
def GatherAction.mergeFaults : GatherAction → MergeFaults
  | .seed _ faults _ => faults
  | .deliver _ faults _ => faults
  | .merge _ faults => faults
  | .drain _ faults => faults
  | _ => .none

/-- The faults of the recording of an action. -/
def GatherAction.recordFaults : GatherAction → RecordFaults
  | .record _ faults => faults
  | _ => ⟨none, none⟩

/-- No port call of the action raises by itself. -/
structure GatherAction.FaultFree (action : GatherAction) : Prop where
  raised : Gather.raisedBy action = none
  merge : action.mergeFaults = .none
  record : action.recordFaults = ⟨none, none⟩

/-- What an emission is validated to can be normalized. -/
def DataPointEmission.Normal (validate : DataPointType → Value → Except String Value)
    (emission : DataPointEmission) : Prop :=
  ∀ value, validate emission.leafType emission.value = .ok value →
    ∃ hashed, makeHashable value = .ok hashed

/-- What an action emits can be normalized. -/
def GatherAction.Normal (validate : DataPointType → Value → Except String Value) :
    GatherAction → Prop
  | .emit _ emission _ => emission.Normal validate
  | _ => True

/-- A finalized value was validated. -/
theorem DataPointEmission.Normal.normalizes
    {validate : DataPointType → Value → Except String Value} {emission : DataPointEmission}
    (h : emission.Normal validate) {retrievedBy : OperatorId} {at' : Timestamp}
    {finalized : FinalizedDataPoint}
    (hfinalized : emission.finalize validate retrievedBy at' = .ok finalized) :
  finalized.Normalizes
  := by
  rw [finalize] at hfinalized
  split at hfinalized
  · cases hfinalized
  · rename_i value hvalue
    cases hfinalized
    exact h value hvalue

/-! ### Watermarks of the store -/

namespace SessionState

variable {state state' : SessionState} {operatorId : OperatorId} {revision : Revision}
  {epoch : Epoch}

/-- A watermark of the highest epoch is taken. -/
theorem setWatermark_of_le (h : state.maxEpoch ≤ epoch) :
  state.setWatermark operatorId revision epoch
    = .ok { state with
        maxEpoch := epoch
        watermarks := state.watermarks.set operatorId revision }
  := by
  rw [setWatermark, guardEpoch_of_le h]
  rfl

/-- A watermark that is taken changes nothing else. -/
theorem setWatermark_eq_ok (h : state.setWatermark operatorId revision epoch = .ok state') :
  state' = { state with
    maxEpoch := epoch
    watermarks := state.watermarks.set operatorId revision }
  := by
  rcases Nat.lt_or_ge epoch state.maxEpoch with hlt | hle
  · rw [setWatermark, guardEpoch_of_lt hlt] at h
    cases h
  · rw [setWatermark_of_le hle] at h
    cases h
    rfl

end SessionState

namespace Gather

variable {P C O : Type} {services : GatherServices P C O} {gather gather' : Gather O}

/-! ### The state and the memory -/

/-- The mirror agrees with the store and answers for the watermarks, and for those that the runs
under way will have; no higher epoch was accepted. -/
structure InStep (epoch : Epoch) (state : MergeState) (memory : OperatorMemory) : Prop where
  agrees : Agrees state.mirror state.store
  current : state.Current epoch
  answers : ∀ {operatorId revision}, memory.watermarks.get? operatorId = some revision →
    state.mirror.rehydratedAt ≤ revision ∨ revision ∈ state.mirror.baselines.keys
  observed : ∀ {operatorId record}, memory.running.get? operatorId = some record →
    state.mirror.rehydratedAt ≤ record.observedRevision

namespace InStep

variable {epoch : Epoch} {state state' : MergeState} {memory : OperatorMemory}

/-- A session that accepted no higher epoch is in step once its mirror is rehydrated. -/
theorem start {session : MergeState} (hwellFormed : session.store.WellFormed)
    (hcurrent : session.Current epoch) (caps : Dict OperatorId ℤ) (now : Monotonic) :
  InStep epoch (Gather.start services epoch caps now session).state
    (Gather.start services epoch caps now session).memory
  := by
  constructor
  · exact agrees_rehydrate _ hwellFormed
  · exact ⟨hcurrent.store, hcurrent.audit, hcurrent.archive⟩
  · intro operatorId revision hget
    cases hget
  · intro operatorId record hget
    cases hget

/-- A merge that went through keeps the state in step. -/
theorem merges (h : InStep epoch state memory) {dataPoints : List BaseDataPoint}
    (hmerges : MergeState.Merges epoch dataPoints state state') :
  InStep epoch state' memory
  := by
  obtain ⟨hgrows, hcurrent, -, -⟩ := hmerges
  constructor
  · exact hgrows.agrees
  · exact hcurrent
  · rw [hgrows.rehydratedAt, hgrows.baselines]
    exact h.answers
  · rw [hgrows.rehydratedAt]
    exact h.observed

/-- A merge of a batch without faults goes through. -/
theorem mergeEmissions (h : InStep gather.epoch gather.state gather.memory) (now : Timestamp)
    (emitted : List Emitted) {result : Except OrchestrationError Unit}
    (hmerge : gather.state.mergeEmissions services.merging (gather.call now .none) emitted
      = (result, state')) :
  result = .ok ()
    ∧ MergeState.Merges gather.epoch (emitted.map Emitted.dataPoint) gather.state state'
  := by
  obtain ⟨merged, hok, hmerges⟩ := @MergeState.mergeEmissions_undisturbed services.merging
    (gather.call now .none) gather.state h.agrees h.current rfl emitted
  rw [hmerge] at hok
  obtain ⟨hresult, rfl⟩ := Prod.mk.inj hok
  exact ⟨hresult, hmerges⟩

/-- An inbox batch without faults goes through. -/
theorem applyInboxDataPoints (h : InStep gather.epoch gather.state gather.memory) (now : Timestamp)
    (dataPoints : List BaseDataPoint) {result : Except OrchestrationError Unit}
    (hmerge : gather.state.applyInboxDataPoints services.merging (gather.call now .none) dataPoints
      = (result, state')) :
  result = .ok () ∧ MergeState.Merges gather.epoch dataPoints gather.state state'
  := by
  obtain ⟨merged, hok, hmerges⟩ := @MergeState.applyInboxDataPoints_undisturbed services.merging
    (gather.call now .none) gather.state h.agrees h.current rfl dataPoints
  rw [hmerge] at hok
  obtain ⟨hresult, rfl⟩ := Prod.mk.inj hok
  exact ⟨hresult, hmerges⟩

/-- A batch of values with normal forms does not raise. -/
theorem not_mergeRaises (h : InStep gather.epoch gather.state gather.memory) {now : Timestamp}
    {batch : List QueuedEmission} (hnormal : ∀ queued ∈ batch, queued.finalized.Normalizes)
    {error : OrchestrationError} :
  ¬MergeRaises services gather now .none batch error state'
  := by
  intro hraises
  obtain ⟨emitted, hemitted⟩ := normalizeAll_of_normalizes hnormal
  cases hraises with
  | unsortable hfailed =>
      rw [hemitted] at hfailed
      cases hfailed
  | merge hnormalized hmerge => cases (h.mergeEmissions now _ hmerge).1

/-- A row of the epoch is appended. -/
theorem append (h : InStep epoch state memory) {entry : AuditLogEntry}
    (hepoch : entry.epoch = epoch) :
  state.audit.append entry = .ok ⟨state.audit.committed ++ [entry], epoch⟩
  := by
  rw [AuditState.append, hepoch, if_neg (Nat.not_lt.mpr h.current.audit)]

/-- A row of the epoch leaves the state in step. -/
theorem appended (h : InStep epoch state memory) {entry : AuditLogEntry} {audit : AuditState}
    (hepoch : entry.epoch = epoch) (happend : state.audit.append entry = .ok audit) :
  InStep epoch { state with audit := audit } memory
  := by
  rw [h.append hepoch] at happend
  cases happend
  exact ⟨h.agrees, ⟨h.current.store, le_refl epoch, h.current.archive⟩, h.answers, h.observed⟩

/-- Baselines are primed for all the revisions asked for. -/
theorem primeAll (revisions : List Revision) {mirror : SessionStateMirror}
    (h : Agrees mirror gather.state.store) :
  ∃ mirror', gather.primeAll revisions mirror = .ok mirror' ∧ Agrees mirror' gather.state.store
    ∧ mirror'.rehydratedAt = mirror.rehydratedAt
    ∧ (∀ revision ∈ mirror.baselines.keys, revision ∈ mirror'.baselines.keys)
    ∧ ∀ revision ∈ revisions,
      mirror'.rehydratedAt ≤ revision ∨ revision ∈ mirror'.baselines.keys
  := by
  induction revisions generalizing mirror with
  | nil => exact ⟨mirror, rfl, h, rfl, fun _ hkept => hkept, nofun⟩
  | cons revision revisions ih =>
      obtain ⟨primed, hprimed, hagrees, hlevel, -, hanswers, hkept⟩ := h.prime revision
      obtain ⟨mirror', hall, hagrees', hlevel', hkept', hanswers'⟩ := ih hagrees
      use mirror'
      refine ⟨?_, hagrees', hlevel'.trans hlevel, fun r hr => hkept' r (hkept r hr), ?_⟩
      · rw [Gather.primeAll, hprimed]
        exact hall
      · rw [List.forall_mem_cons]
        constructor
        · rcases hanswers with hle | hmem
          · left
            rw [hlevel']
            exact hle
          · exact Or.inr (hkept' revision hmem)
        · exact hanswers'

/-- A gather that begins in step is in step. -/
theorem begun (h : InStep epoch gather.state memory) {mirror : SessionStateMirror}
    {memory' : OperatorMemory}
    (hwatermarks : memory'.watermarks = gather.loadWatermarks services)
    (hrunning : memory'.running = .empty)
    (hprime : gather.primeAll
        (Paging.inOrder id (gather.loadWatermarks services).values.dedup) gather.state.mirror
      = .ok mirror) :
  InStep epoch { gather.state with mirror := mirror } memory'
  := by
  obtain ⟨primed, hprimed, hagrees, -, -, hanswers⟩ := @primeAll O gather
    (Paging.inOrder id (gather.loadWatermarks services).values.dedup) gather.state.mirror h.agrees
  rw [hprime] at hprimed
  cases hprimed
  constructor
  · exact hagrees
  · exact ⟨h.current.store, h.current.audit, h.current.archive⟩
  · intro operatorId revision hget
    apply hanswers
    rw [hwatermarks] at hget
    rw [Paging.mem_inOrder, List.mem_dedup]
    exact Dict.mem_values_iff.mpr ⟨operatorId, hget⟩
  · intro operatorId record hget
    rw [hrunning] at hget
    cases hget

/-! ### Recording -/

theorem watermarks_remember (completion : Completion) :
  (gather.remember services completion).2.watermarks = gather.memory.watermarks
  := by
  rcases remember_cases completion with h | ⟨policy, -, -, -, -, h⟩ <;>
  · rw [h]
    rfl

/-- The memory of a recorded run is in step with the state. -/
theorem remembered (h : InStep epoch state gather.memory) (completion : Completion) :
  InStep epoch state (gather.remember services completion).2
  := by
  refine ⟨h.agrees, h.current, ?_, ?_⟩
  · rw [watermarks_remember]
    exact h.answers
  · intro operatorId record hget
    rw [running_remember, Dict.get?_erase] at hget
    split at hget
    · cases hget
    · exact h.observed hget

/-- A run of the register is recorded without faults, and the state stays in step. -/
theorem records (h : InStep gather.epoch gather.state gather.memory) {now : Timestamp}
    {completion : Completion} {record : RunningRecord}
    (hrunning : gather.memory.running.get? completion.operatorId = some record)
    {result : Except OrchestrationError Unit}
    (hrecords : Records services gather now ⟨none, none⟩ completion result gather') :
  result = .ok () ∧ gather'.epoch = gather.epoch
    ∧ InStep gather'.epoch gather'.state gather'.memory
  := by
  have hremembered := @remembered P C O services gather gather.epoch gather.state h completion
  cases hrecords with
  | unknown hnone =>
      rw [hrunning] at hnone
      cases hnone
  | auditRaised _ hraised =>
      rcases hraised with hfault | ⟨-, happend⟩
      · cases hfault
      · rw [h.append rfl] at happend
        cases happend
  | watermarkRaised _ _ hraised =>
      rcases hraised with hfault | ⟨-, hstore⟩
      · cases hfault
      · rw [SessionState.setWatermark_of_le h.current.store] at hstore
        cases hstore
  | retried _ _ happend => exact ⟨rfl, rfl, hremembered.appended rfl happend⟩
  | @advanced record' audit store hrunning' _ happend hstore =>
      rw [hrunning] at hrunning'
      cases hrunning'
      have hobserved := h.observed hrunning
      have happended := hremembered.appended rfl happend
      have hset := SessionState.setWatermark_eq_ok hstore
      refine ⟨rfl, rfl, ?_, ?_, ?_, happended.observed⟩
      · apply happended.agrees.congr
        · rw [hset]
        · rw [hset]
      · refine ⟨?_, happended.current.audit, happended.current.archive⟩
        rw [hset]
      · intro operatorId revision hget
        rw [Dict.get?_set] at hget
        split at hget
        · cases hget
          exact Or.inl hobserved
        · exact happended.answers hget

/-! ### Passes -/

/-- The delta of every operator can be read. -/
theorem deltaFor (h : InStep epoch state memory) (available : Finset CapabilityId)
    (operator : O) :
  services.deltaFor state.mirror memory available operator
    = .ok (storeDelta state.store (memory.watermarks.get? (services.operatorId operator)) available
        ((memory.prevCaps.get? (services.operatorId operator)).getD ∅))
  := by
  apply operatorDelta_eq h.agrees
  intro since hsince
  exact h.answers hsince

/-- What is launched observes the revision of the store. -/
theorem launches (h : InStep gather.epoch gather.state gather.memory)
    {available : Finset CapabilityId} {observed : Revision}
    (hobserved : gather.state.mirror.rehydratedAt ≤ observed) (runnables : List (Runnable O)) :
  let launched := runnables.foldl (launch services available observed) gather
  launched.queue = gather.queue ∧ InStep launched.epoch launched.state launched.memory
  := by
  induction runnables generalizing gather with
  | nil => exact ⟨rfl, h⟩
  | cons runnable runnables ih =>
      have hnext : InStep (launch services available observed gather runnable).epoch
          (launch services available observed gather runnable).state
          (launch services available observed gather runnable).memory := by
        refine ⟨h.agrees, h.current, h.answers, ?_⟩
        intro operatorId record hget
        rw [launch, Dict.get?_set] at hget
        split at hget
        · cases hget
          exact hobserved
        · exact h.observed hget
      exact ih hnext hobserved

theorem launchAll (h : InStep gather.epoch gather.state gather.memory)
    {available : Finset CapabilityId} {observed : Revision}
    (hobserved : gather.state.mirror.rehydratedAt ≤ observed) (plan : GatherPlan O) :
  let launched := gather.launchAll services available observed plan
  launched.queue = gather.queue ∧ InStep launched.epoch launched.state launched.memory
  := by
  refine @launches P C O services
    { gather with memory := { gather.memory with debounce := plan.debounce } } ?_ available
    observed hobserved plan.runnable
  exact ⟨h.agrees, h.current, h.answers, h.observed⟩

variable [DecidableEq P] [DecidableEq C]

/-- A pass does not raise. -/
theorem not_passRaises (h : InStep gather.epoch gather.state gather.memory)
    {available : Finset CapabilityId} {error : OrchestrationError} :
  ¬PassRaises services gather available error
  := by
  intro hraises
  cases hraises with
  | snapshot hfailed =>
      rw [h.agrees.snapshot] at hfailed
      cases hfailed
  | revision hfailed =>
      rw [h.agrees.getRevision] at hfailed
      cases hfailed
  | plan hview hfailed =>
      rename_i view
      obtain ⟨plan, hplan⟩ := @GatherServices.plan_eq_ok P C O _ _ services gather.state.mirror
        gather.memory view available gather.now
        (fun operator => ⟨_, h.deltaFor available operator⟩)
      rw [hplan] at hfailed
      cases hfailed

end InStep

end Gather

/-! ### The phases -/

/-- The exit that the loop is on its way out by. -/
def GatherPhase.exit? : GatherPhase → Option GatherExit
  | .draining exit => some exit
  | .cancelling exit => some exit
  | .drainingAgain exit => some exit
  | .ended exit => some exit
  | _ => none

/-- An exit that is only taken while nothing runs. -/
def GatherExit.idle : GatherExit → Bool
  | .quiescent => true
  | .parked => true
  | _ => false

/-- Before a gather, or after it. -/
def GatherPhase.outside : GatherPhase → Bool
  | .ready => true
  | .ended _ => true
  | _ => false

/-- A phase that is only reached while nothing runs. -/
def GatherPhase.idles : GatherPhase → Bool
  | .waiting _ => true
  | phase => (phase.exit?.map GatherExit.idle).getD false

namespace Gather

/-- What is to be merged has normal forms, the loop is not leaving by an error, nothing runs where
nothing should, and the queue is empty outside of a gather. -/
structure Orderly (phase : GatherPhase) (queue : List Signal)
    (running : Dict OperatorId RunningRecord) : Prop where
  normal : ∀ queued ∈ phase.inHand ++ emissions queue, queued.finalized.Normalizes
  unraised : ∀ error, phase.exit? ≠ some (.raised error)
  idle : phase.idles = true → running.keys = []
  outside : phase.outside = true → queue = []

variable {P C O : Type} {services : GatherServices P C O} {gather gather' : Gather O}

/-- A gather in which nothing failed so far. -/
structure Sound (services : GatherServices P C O) (gather : Gather O) : Prop where
  awaited : Awaited services gather
  inStep : InStep gather.epoch gather.state gather.memory
  orderly : Orderly gather.phase gather.queue gather.memory.running

namespace Orderly

variable {phase phase' : GatherPhase} {queue : List Signal}
  {running : Dict OperatorId RunningRecord}

/-- A phase of the loop that is not on its way out and holds nothing. -/
theorem of_loop (h : Orderly phase queue running) (hexit : phase'.exit? = none)
    (hhand : phase'.inHand = []) (hidle : phase'.idles = true → running.keys = [])
    (hinside : phase'.outside = false) :
  Orderly phase' queue running
  := by
  constructor
  · intro queued hqueued
    rw [hhand] at hqueued
    exact h.normal queued (List.mem_append_right _ hqueued)
  · intro error
    rw [hexit]
    exact nofun
  · exact hidle
  · rw [hinside]
    exact nofun

/-- A phase of the loop that is not on its way out and does not idle. -/
theorem of_within
    (hnormal : ∀ queued ∈ phase.inHand ++ emissions queue, queued.finalized.Normalizes)
    (hexit : phase.exit? = none) (hbusy : phase.idles = false) (hinside : phase.outside = false) :
  Orderly phase queue running
  := by
  constructor
  · apply hnormal
  · intro error
    rw [hexit]
    exact nofun
  · rw [hbusy]
    exact nofun
  · rw [hinside]
    exact nofun

/-- A phase of the loop that goes on without idling. -/
theorem of_busy (h : Orderly phase queue running) (hexit : phase'.exit? = none)
    (hhand : phase'.inHand = []) (hbusy : phase'.idles = false) (hinside : phase'.outside = false) :
  Orderly phase' queue running
  := by
  apply h.of_loop hexit hhand _ hinside
  rw [hbusy]
  exact nofun

/-- A phase on the way out, by an exit other than an error. -/
theorem of_exit (h : Orderly phase queue running) {exit : GatherExit}
    (hexit : phase'.exit? = some exit) (hhand : phase'.inHand = [])
    (hinside : phase'.outside = false)
    (hraised : ∀ error, exit ≠ .raised error) (hidle : exit.idle = true → running.keys = []) :
  Orderly phase' queue running
  := by
  constructor
  · intro queued hqueued
    rw [hhand] at hqueued
    exact h.normal queued (List.mem_append_right _ hqueued)
  · intro error hsame
    rw [hexit] at hsame
    exact hraised error (Option.some.inj hsame)
  · intro hidles
    apply hidle
    cases phase' with
    | waiting parkAt => cases hexit
    | _ =>
        rw [GatherPhase.idles, hexit] at hidles
        · exact hidles
        · exact nofun
  · rw [hinside]
    exact nofun

/-- A drain empties the queue. -/
theorem drained (h : Orderly phase queue running) {exit : GatherExit}
    (hphase : phase.exit? = some exit) (hexit : phase'.exit? = some exit)
    (hhand : phase'.inHand = []) (hidles : phase'.idles = phase.idles) :
  Orderly phase' [] running
  := by
  constructor
  · intro queued hqueued
    rw [hhand] at hqueued
    cases hqueued
  · intro error
    rw [hexit, ← hphase]
    exact h.unraised error
  · rw [hidles]
    exact h.idle
  · exact fun _ => rfl

end Orderly

section

variable [DecidableEq P]

/-- Where a pass goes on: something runs, or nothing does. -/
theorem nextPhase_cases (view : DataPointView) (soonestDue : Option Monotonic) :
  gather.nextPhase services view soonestDue = .getting
    ∨ gather.memory.running.keys = []
      ∧ ((∃ dueAt, gather.nextPhase services view soonestDue = .sleeping dueAt)
        ∨ gather.nextPhase services view soonestDue = .draining .quiescent
        ∨ ∃ parkAt, gather.nextPhase services view soonestDue = .waiting parkAt)
  := by
  unfold nextPhase
  split
  · exact Or.inl rfl
  · rename_i hempty
    rw [Bool.not_eq_true', Bool.not_eq_false, List.isEmpty_iff] at hempty
    right
    use hempty
    split
    · exact Or.inl ⟨_, rfl⟩
    · split
      · exact Or.inr (Or.inl rfl)
      · exact Or.inr (Or.inr ⟨_, rfl⟩)

end

/-- A task can only run within a gather. -/
theorem Awaited.inside (h : Awaited services gather) {i : ℕ} {task : OperatorTask O}
    (htask : gather.tasks[i]? = some task) (hlive : task.status.live = true) :
  gather.phase.outside = false
  := by
  rw [← Bool.not_eq_true]
  intro houtside
  have hpast : awaitedIn gather.phase = true := by
    revert houtside
    cases gather.phase with
    | ready => exact fun _ => rfl
    | ended exit => exact fun _ => rfl
    | _ => exact nofun
  have hquiet := h.quiet hpast task (List.mem_of_getElem? htask)
  rw [hlive] at hquiet
  cases hquiet

namespace Sound

/-- A run starts so. -/
theorem start {epoch : Epoch} {session : MergeState} (hwellFormed : session.store.WellFormed)
    (hcurrent : session.Current epoch) (caps : Dict OperatorId ℤ) (now : Monotonic) :
  Sound services (Gather.start services epoch caps now session)
  := by
  constructor
  · exact Awaited.start
  · exact InStep.start hwellFormed hcurrent caps now
  · exact ⟨nofun, nofun, nofun, fun _ => rfl⟩

/-- A completion that is to be recorded finds its run in the register. -/
theorem running (h : Sound services gather) {completion : Completion} {rest : List Completion}
    (hphase : gather.phase = .recording (completion :: rest)) :
  ∃ record, gather.memory.running.get? completion.operatorId = some record
  := by
  obtain ⟨⟨i, hregister⟩, -⟩ := h.awaited.tracked.collect (reports_recording hphase)
  rw [shop, Dict.get?_map, Option.map_eq_some_iff] at hregister
  obtain ⟨record, hrunning, -⟩ := hregister
  exact ⟨record, hrunning⟩

variable [DecidableEq P] [DecidableEq C]

omit [DecidableEq P] [DecidableEq C] in
/-- The first merge of the final drain does not raise. -/
theorem cleanupReached (h : Sound services gather) {action : GatherAction}
    (hfaults : action.FaultFree) :
  CleanupReached services gather action
  := by
  cases action with
  | drain now faults =>
      intro exit hphase
      left
      have hnone : faults = .none := hfaults.merge
      subst hnone
      generalize hmerged : gather.mergeBatch services now .none (emissions gather.queue) = merged
      obtain ⟨result, merged⟩ := merged
      cases result with
      | ok _ => rfl
      | error error =>
          obtain ⟨state, -, hraises⟩ := mergeBatch_eq_error hmerged
          exact absurd hraises (h.inStep.not_mergeRaises (fun queued hqueued =>
            h.orderly.normal queued (List.mem_append_right _ hqueued)))
  | _ => trivial

/-- What the loop merges keeps its state in step, and no step raises. -/
theorem advance (h : Sound services gather) {action : GatherAction} (hfaults : action.FaultFree)
    (hnormal : action.Normal services.validate) (hstep : Steps services gather action gather') :
  InStep gather'.epoch gather'.state gather'.memory
    ∧ Orderly gather'.phase gather'.queue gather'.memory.running
  := by
  obtain ⟨hraised, hmergeFaults, hrecordFaults⟩ := hfaults
  have hinHand : ∀ queued ∈ gather.phase.inHand, queued.finalized.Normalizes :=
    fun queued hqueued => h.orderly.normal queued (List.mem_append_left _ hqueued)
  have hqueue : ∀ queued ∈ emissions gather.queue, queued.finalized.Normalizes :=
    fun queued hqueued => h.orderly.normal queued (List.mem_append_right _ hqueued)
  cases hstep with
  | elapse span => exact ⟨h.inStep, h.orderly⟩
  | audit _ happend => exact ⟨h.inStep.appended rfl happend, h.orderly⟩
  | stopped _ _ _ => exact ⟨h.inStep, h.orderly⟩
  | vanished _ _ => exact ⟨h.inStep, h.orderly⟩
  | cancelled _ _ _ => exact ⟨h.inStep, h.orderly⟩
  | emitted htask hrunning hfinalized _ =>
      refine ⟨h.inStep, ?_, h.orderly.unraised, h.orderly.idle, ?_⟩
      · rw [enqueue, emissions_append, ← List.append_assoc, List.forall_mem_append]
        use h.orderly.normal
        intro queued hqueued
        rw [List.mem_singleton.mp hqueued]
        exact DataPointEmission.Normal.normalizes hnormal hfinalized
      · intro houtside
        change gather.phase.outside = true at houtside
        rw [h.awaited.inside htask (by rw [hrunning]; rfl)] at houtside
        cases houtside
  | completed htask hcompleting _ =>
      refine ⟨h.inStep, ?_, h.orderly.unraised, h.orderly.idle, ?_⟩
      · rw [enqueue, emissions_append, ← List.append_assoc, List.forall_mem_append]
        exact ⟨h.orderly.normal, (by intros; contradiction)⟩
      · intro houtside
        change gather.phase.outside = true at houtside
        rw [h.awaited.inside htask (by rw [hcompleting]; rfl)] at houtside
        cases houtside
  | seeded _ hmerge =>
      cases hmergeFaults
      exact ⟨h.inStep.merges (h.inStep.mergeEmissions _ _ hmerge).2, h.orderly⟩
  | seedRaised _ hmerge =>
      cases hmergeFaults
      cases (h.inStep.mergeEmissions _ _ hmerge).1
  | begun _ hprime =>
      refine ⟨h.inStep.begun rfl rfl hprime, ?_⟩
      apply Orderly.of_within _ rfl rfl rfl
      intros
      contradiction
  | beginRaised _ hprime =>
      obtain ⟨mirror, hprimed, -⟩ := InStep.primeAll _ h.inStep.agrees
      rw [hprime] at hprimed
      cases hprimed
  | delivered _ hmerge =>
      cases hmergeFaults
      exact ⟨h.inStep.merges (h.inStep.applyInboxDataPoints _ _ hmerge).2, h.orderly⟩
  | deliverRaised _ hmerge =>
      cases hmergeFaults
      cases (h.inStep.applyInboxDataPoints _ _ hmerge).1
  | @passed available view observed plan hphase hview hobserved hplan =>
      have hlevel : gather.state.mirror.rehydratedAt ≤ observed := by
        rw [h.inStep.agrees.getRevision] at hobserved
        cases hobserved
        exact h.inStep.agrees.rehydrated_le
      obtain ⟨hsame, hlaunched⟩ :=
        @InStep.launchAll P C O services gather h.inStep available observed hlevel plan
      have hloop : Orderly gather.phase (gather.launchAll services available observed plan).queue
          (gather.launchAll services available observed plan).memory.running := by
        rw [hsame, hphase]
        exact Orderly.of_within hqueue rfl rfl rfl
      constructor
      · exact hlaunched
      · rcases @nextPhase_cases P C O services (gather.launchAll services available observed plan)
          _ view plan.soonestDue with hnext | ⟨hidle, ⟨dueAt, hnext⟩ | hnext | ⟨parkAt, hnext⟩⟩
        · simp only [hnext]
          exact hloop.of_busy rfl rfl rfl rfl
        · simp only [hnext]
          exact hloop.of_busy rfl rfl rfl rfl
        · simp only [hnext]
          exact hloop.of_exit rfl rfl rfl (by rintro _ ⟨⟩) (fun _ => hidle)
        · simp only [hnext]
          exact hloop.of_loop rfl rfl (fun _ => hidle) rfl
  | passRaised _ hpassRaised => exact absurd hpassRaised h.inStep.not_passRaises
  | taken hphase =>
      use h.inStep
      apply Orderly.of_within _ rfl rfl rfl
      rw [show emissions ([] : List Signal) = [] from rfl, List.append_nil]
      exact hqueue
  | @merged now faults batch emitted state hphase _ hmerge =>
      cases hmergeFaults
      refine ⟨h.inStep.merges (h.inStep.mergeEmissions _ _ hmerge).2, ?_⟩
      rw [recordRest]
      split
      · exact h.orderly.of_busy rfl rfl rfl rfl
      · exact h.orderly.of_busy rfl rfl rfl rfl
  | mergeRaised hphase hmergeRaised =>
      cases hmergeFaults
      rw [hphase] at hinHand
      exact absurd hmergeRaised (h.inStep.not_mergeRaises hinHand)
  | @recorded now faults completion rest recorded hphase hrecords =>
      cases hrecordFaults
      obtain ⟨record, hrunning⟩ := h.running hphase
      obtain ⟨-, -, hinStep⟩ := h.inStep.records hrunning hrecords
      obtain ⟨-, -, hsame⟩ := hrecords.running hrunning
      refine ⟨hinStep, ?_⟩
      have hloop : Orderly .head recorded.queue recorded.memory.running := by
        rw [hsame]
        exact Orderly.of_within hqueue rfl rfl rfl
      rw [recordRest]
      split
      · exact hloop
      · exact hloop.of_busy rfl rfl rfl rfl
  | recordRaised hphase hrecords =>
      cases hrecordFaults
      obtain ⟨record, hrunning⟩ := h.running hphase
      cases (h.inStep.records hrunning hrecords).1
  | drained hphase _ hmerge =>
      cases hmergeFaults
      refine ⟨h.inStep.merges (h.inStep.mergeEmissions _ _ hmerge).2, ?_⟩
      have hdraining := h.orderly
      rw [hphase] at hdraining
      split
      · exact hdraining.drained rfl rfl rfl rfl
      · exact hdraining.drained rfl rfl rfl rfl
  | drainedAgain hphase _ hmerge =>
      cases hmergeFaults
      refine ⟨h.inStep.merges (h.inStep.mergeEmissions _ _ hmerge).2, ?_⟩
      have hdraining := h.orderly
      rw [hphase] at hdraining
      exact hdraining.drained rfl rfl rfl rfl
  | drainRaised _ hmergeRaised =>
      cases hmergeFaults
      exact absurd hmergeRaised (h.inStep.not_mergeRaises hqueue)
  | moved hmoves =>
      refine ⟨h.inStep, ?_⟩
      cases hmoves with
      | renewed _ _ => exact h.orderly.of_busy rfl rfl rfl rfl
      | expired _ _ => exact h.orderly.of_exit rfl rfl rfl (by rintro _ ⟨⟩) (by intro hidle; cases hidle)
      | drained _ => exact h.orderly.of_busy rfl rfl rfl rfl
      | woken _ _ => exact h.orderly.of_busy rfl rfl rfl rfl
      | waited _ => exact h.orderly.of_busy rfl rfl rfl rfl
      | parked hphase _ =>
          have hidle := h.orderly.idle
          rw [hphase] at hidle
          exact h.orderly.of_exit rfl rfl rfl (by rintro _ ⟨⟩) (fun _ => hidle rfl)
      | @awaited exit hphase _ =>
          have hleaving := h.orderly
          rw [hphase] at hleaving
          refine hleaving.of_exit rfl rfl rfl ?_ hleaving.idle
          rintro error rfl
          exact hleaving.unraised error rfl
      | raised hraises _ =>
          rw [hraised] at hraises
          cases hraises
  | disposed _ happend => exact ⟨h.inStep.appended rfl happend, h.orderly⟩
  | contributed _ _ =>
      exact ⟨⟨h.inStep.agrees, h.inStep.current, h.inStep.answers, h.inStep.observed⟩, h.orderly⟩

theorem step (h : Sound services gather) {action : GatherAction} (hfaults : action.FaultFree)
    (hnormal : action.Normal services.validate)
    (hlaunches : LaunchesOnce services gather action)
    (hstep : Steps services gather action gather') :
  Sound services gather'
  := by
  obtain ⟨hinStep, horderly⟩ := h.advance hfaults hnormal hstep
  exact ⟨h.awaited.step hlaunches.plansOnce (h.cleanupReached hfaults) hstep, hinStep, horderly⟩

end Sound

end Gather

end Orcastork
