import Orcastork.Adapters.Memory.MergeLaws
import Orcastork.Orchestrator.GatherSoundness

/-!
# Watermarks over the orchestrators of a session

A session outlives its orchestrators: one that is gone leaves its store behind, and the next one
takes the watermarks from there. A watermark never passes what the last recorded run of its operator
observed, whatever raises and whichever orchestrators are gone at which point
(`watermarksKept_run`). Where an orchestrator goes within a step, it leaves what it would have left
had the next port call of the step raised.
-/

namespace Orcastork

/-! ### A session and its orchestrators -/

/-- The orchestrator of a session, after those before it. What the last recorded run of each
operator observed is kept beside what the source keeps. -/
structure Succession (O : Type) where
  gather : Gather O
  observed : Dict OperatorId Revision

inductive SuccessionAction where
  | act (action : GatherAction)
  /-- The orchestrator is gone, and the next one has acquired its epoch. -/
  | resume (epoch : Epoch) (caps : Dict OperatorId ℤ) (now : Monotonic)

namespace Succession

variable {P C O : Type} [DecidableEq P] [DecidableEq C]

/-- What the last recorded runs observed after an action: a run is recorded by its row. -/
def observedAfter (observed : Dict OperatorId Revision) (gather gather' : Gather O) :
    GatherAction → Dict OperatorId Revision
  | .record _ _ =>
    match gather.phase with
    | .recording (completion :: _) =>
      match gather.memory.running.get? completion.operatorId with
      | some record =>
        if gather.state.audit.committed.length < gather'.state.audit.committed.length then
          observed.set completion.operatorId record.observedRevision
        else
          observed
      | none => observed
    | _ => observed
  | _ => observed

/-- The first orchestrator of a session. -/
def initial (services : GatherServices P C O) (epoch : Epoch) (caps : Dict OperatorId ℤ)
    (now : Monotonic) : Succession O where
  gather := .start services epoch caps now
    (Recording.initial services.merging.sealing.sessionId).state
  observed := .empty

def step (services : GatherServices P C O) (succession : Succession O) :
    SuccessionAction → Option (Succession O)
  | .act action =>
    (succession.gather.step services action).map (fun gather' =>
      ⟨gather', observedAfter succession.observed succession.gather gather' action⟩)
  | .resume epoch caps now =>
    some { succession with
      gather := .start services epoch caps now succession.gather.state }

end Succession

/-! ### What is kept -/

/-- The mirror agrees with the store and answers for the watermarks. No watermark passes the
revision, what a run under way observed, or what the last recorded run of its operator observed; and
within a gather the watermarks are those of the store. -/
structure WatermarksKept {P C O : Type} (services : GatherServices P C O) (phase : GatherPhase)
    (mirror : SessionStateMirror) (store : SessionState) (memory : OperatorMemory)
    (observed : Dict OperatorId Revision) : Prop where
  agrees : Agrees mirror store
  answers : ∀ {operatorId}, mirror.Answers (memory.watermarks.get? operatorId)
  loaded : phase.outside = false → ∀ operator ∈ services.gathering,
    memory.watermarks.get? (services.operatorId operator)
      = store.getWatermark (services.operatorId operator)
  bounded : ∀ {operatorId watermark}, store.getWatermark operatorId = some watermark →
    watermark ≤ store.revision
  running : ∀ {operatorId record}, memory.running.get? operatorId = some record →
    mirror.rehydratedAt ≤ record.observedRevision ∧ record.observedRevision ≤ store.revision
      ∧ ∀ watermark, store.getWatermark operatorId = some watermark →
        watermark ≤ record.observedRevision
  observed : ∀ {operatorId watermark}, store.getWatermark operatorId = some watermark →
    ∃ revision, observed.get? operatorId = some revision ∧ watermark ≤ revision

namespace Gather

variable {P C O : Type} {services : GatherServices P C O} {gather gather' : Gather O}

/-- A round of the loop of `loadWatermarks`. -/
def readWatermark (services : GatherServices P C O) (gather : Gather O)
    (watermarks : Dict OperatorId Revision) (operator : O) : Dict OperatorId Revision :=
  match gather.state.store.getWatermark (services.operatorId operator) with
  | none => watermarks
  | some watermark => watermarks.set (services.operatorId operator) watermark

theorem loadWatermarks_eq :
  gather.loadWatermarks services
    = services.gathering.foldl (gather.readWatermark services) .empty
  := rfl

theorem get?_readWatermark (watermarks : Dict OperatorId Revision) (operator other : O) :
  (gather.readWatermark services watermarks other).get? (services.operatorId operator)
    = if services.operatorId other = services.operatorId operator then
        (gather.state.store.getWatermark (services.operatorId operator)).or
          (watermarks.get? (services.operatorId operator))
      else
        watermarks.get? (services.operatorId operator)
  := by
  rw [readWatermark]
  split
  · rename_i hnone
    split
    · rename_i hsame
      rw [← hsame, hnone, Option.none_or]
    · rfl
  · rename_i watermark hsome
    rw [Dict.get?_set]
    split
    · rename_i hsame
      rw [← hsame, hsome, Option.some_or]
    · rfl

/-- The watermark of an operator that comes up is read. Once read, it stays; and until it is read
there is none. -/
theorem get?_foldl_readWatermark {operator : O} {operators : List O}
    {watermarks : Dict OperatorId Revision}
    (h : watermarks.get? (services.operatorId operator)
        = gather.state.store.getWatermark (services.operatorId operator)
      ∨ operator ∈ operators ∧ watermarks.get? (services.operatorId operator) = none) :
  (operators.foldl (gather.readWatermark services) watermarks).get? (services.operatorId operator)
    = gather.state.store.getWatermark (services.operatorId operator)
  := by
  induction operators generalizing watermarks with
  | nil =>
      rcases h with hread | ⟨hmem, -⟩
      · apply hread
      · cases hmem
  | cons other operators ih =>
      apply ih
      rw [get?_readWatermark]
      rcases h with hread | ⟨hmem, hnone⟩
      · left
        rw [hread]
        split
        · exact Option.or_self
        · rfl
      · rw [hnone, Option.or_none]
        split
        · left
          rfl
        · rename_i hne
          right
          refine ⟨?_, rfl⟩
          apply (List.mem_cons.mp hmem).resolve_left
          rintro rfl
          exact hne rfl

theorem get?_loadWatermarks {operator : O} (h : operator ∈ services.gathering) :
  (gather.loadWatermarks services).get? (services.operatorId operator)
    = gather.state.store.getWatermark (services.operatorId operator)
  := by
  rw [loadWatermarks_eq]
  apply get?_foldl_readWatermark
  right
  use h
  rfl

end Gather

namespace WatermarksKept

variable {P C O : Type} {services : GatherServices P C O} {gather gather' : Gather O}
variable {phase phase' : GatherPhase} {mirror : SessionStateMirror} {store : SessionState}
  {memory : OperatorMemory} {observed : Dict OperatorId Revision}

/-- Nothing is observed, and there is no watermark, in a new session. -/
theorem initial [DecidableEq P] [DecidableEq C] (services : GatherServices P C O) (epoch : Epoch)
    (caps : Dict OperatorId ℤ) (now : Monotonic) :
  let succession := Succession.initial services epoch caps now
  WatermarksKept services succession.gather.phase succession.gather.state.mirror
    succession.gather.state.store succession.gather.memory succession.observed
  := by
  constructor
  · exact agrees_rehydrate _ SessionState.initial_wellFormed
  · intro operatorId since hsince
    cases hsince
  · intro hinside
    cases hinside
  · intro operatorId watermark hget
    cases hget
  · intro operatorId record hrunning
    cases hrunning
  · intro operatorId watermark hget
    cases hget

/-- An orchestrator of a session starts so. -/
theorem start {session : MergeState}
    (h : WatermarksKept services phase mirror session.store memory observed)
    (epoch : Epoch) (caps : Dict OperatorId ℤ) (now : Monotonic) :
  let gather := Gather.start services epoch caps now session
  WatermarksKept services gather.phase gather.state.mirror gather.state.store gather.memory observed
  := by
  constructor
  · exact agrees_rehydrate _ h.agrees.wellFormed
  · intro operatorId since hsince
    cases hsince
  · intro hinside
    cases hinside
  · exact h.bounded
  · intro operatorId record hrunning
    cases hrunning
  · exact h.observed

/-- The loop goes on within the gather, or out of it. -/
theorem goes (h : WatermarksKept services phase mirror store memory observed)
    (hinside : phase'.outside = false → phase.outside = false) :
  WatermarksKept services phase' mirror store memory observed
  := ⟨h.agrees, h.answers, fun hphase => h.loaded (hinside hphase), h.bounded, h.running, h.observed⟩

/-- A merge moves no watermark, and the revision does not fall. -/
theorem grows {state state' : MergeState} {epoch : Epoch}
    (h : WatermarksKept services phase state.mirror state.store memory observed)
    (hgrows : state.Grows epoch state')
    (hinside : phase'.outside = false → phase.outside = false) :
  WatermarksKept services phase' state'.mirror state'.store memory observed
  := by
  have hwatermark : ∀ operatorId,
      state'.store.getWatermark operatorId = state.store.getWatermark operatorId := by
    intro operatorId
    rw [SessionState.getWatermark, hgrows.watermarks]
    rfl
  have hrevision : state.store.revision ≤ state'.store.revision := by
    rcases hgrows.written with hsame | ⟨batch, revision, hwrite⟩
    · rw [hsame]
    · exact (SessionState.write_eq_ok hwrite).2
  constructor
  · exact hgrows.agrees
  · intro operatorId
    rw [SessionStateMirror.Answers, hgrows.rehydratedAt, hgrows.baselines]
    exact h.answers
  · intro hphase operator hoperator
    rw [hwatermark]
    exact h.loaded (hinside hphase) operator hoperator
  · intro operatorId watermark hget
    rw [hwatermark] at hget
    exact (h.bounded hget).trans hrevision
  · intro operatorId record hrunning
    obtain ⟨hlevel, hle, hwatermarks⟩ := h.running hrunning
    rw [hgrows.rehydratedAt]
    refine ⟨hlevel, hle.trans hrevision, ?_⟩
    rw [hwatermark]
    exact hwatermarks
  · intro operatorId watermark hget
    rw [hwatermark] at hget
    exact h.observed hget

/-! ### Recording -/

/-- A run is taken out of the register as it is remembered. -/
theorem remembered
    (h : WatermarksKept services phase mirror store gather.memory observed)
    (completion : Completion) :
  WatermarksKept services phase mirror store (gather.remember services completion).2 observed
  := by
  refine ⟨h.agrees, ?_, ?_, h.bounded, ?_, h.observed⟩
  · rw [Gather.InStep.watermarks_remember]
    exact h.answers
  · rw [Gather.InStep.watermarks_remember]
    exact h.loaded
  · intro operatorId record hrunning
    rw [Gather.running_remember] at hrunning
    apply h.running
    rw [Dict.get?_erase] at hrunning
    split at hrunning
    · cases hrunning
    · exact hrunning

/-- A run that was under way has been recorded: its watermark is not past what it observed. -/
theorem observing (h : WatermarksKept services phase mirror store memory observed)
    {operatorId : OperatorId} {revision : Revision}
    (hrevision : ∀ watermark, store.getWatermark operatorId = some watermark →
      watermark ≤ revision) :
  WatermarksKept services phase mirror store memory (observed.set operatorId revision)
  := by
  refine ⟨h.agrees, h.answers, h.loaded, h.bounded, h.running, ?_⟩
  intro other watermark hget
  rw [Dict.get?_set]
  split
  · rename_i hsame
    rw [← hsame] at hget
    exact ⟨revision, rfl, hrevision watermark hget⟩
  · exact h.observed hget

/-- The watermark of a recorded run moves to what it observed. -/
theorem advanced (h : WatermarksKept services phase mirror store memory observed)
    {operatorId : OperatorId} {revision : Revision} {epoch : Epoch} {store' : SessionState}
    (hlevel : mirror.rehydratedAt ≤ revision) (hle : revision ≤ store.revision)
    (hidle : memory.running.get? operatorId = none)
    (hstore : store.setWatermark operatorId revision epoch = .ok store') :
  WatermarksKept services phase mirror store'
    { memory with watermarks := memory.watermarks.set operatorId revision }
    (observed.set operatorId revision)
  := by
  obtain rfl := SessionState.setWatermark_eq_ok hstore
  constructor
  · exact h.agrees.congr rfl rfl
  · intro other since hsince
    rw [Dict.get?_set] at hsince
    split at hsince
    · cases hsince
      exact Or.inl hlevel
    · exact h.answers since hsince
  · intro hphase operator hoperator
    rw [SessionState.getWatermark, Dict.get?_set, Dict.get?_set]
    split
    · rfl
    · exact h.loaded hphase operator hoperator
  · intro other watermark hget
    rw [SessionState.getWatermark, Dict.get?_set] at hget
    split at hget
    · cases hget
      exact hle
    · exact h.bounded hget
  · intro other record hrunning
    obtain ⟨hlevel', hle', hwatermarks⟩ := h.running hrunning
    refine ⟨hlevel', hle', ?_⟩
    intro watermark hget
    rw [SessionState.getWatermark, Dict.get?_set, if_neg] at hget
    · exact hwatermarks watermark hget
    · rintro rfl
      rw [hidle] at hrunning
      cases hrunning
  · intro other watermark hget
    rw [SessionState.getWatermark, Dict.get?_set] at hget
    rw [Dict.get?_set]
    split at hget
    · rename_i hsame
      cases hget
      rw [if_pos hsame]
      exact ⟨revision, rfl, le_refl _⟩
    · rename_i hne
      rw [if_neg hne]
      exact h.observed hget

/-- An action that appends no row records no run. -/
theorem observedAfter_of_audit {action : GatherAction}
    (h : gather'.state.audit = gather.state.audit) :
  Succession.observedAfter observed gather gather' action = observed
  := by
  unfold Succession.observedAfter
  split
  · split
    · split
      · rw [h, if_neg (lt_irrefl _)]
      · rfl
    · rfl
  · rfl

/-- What is observed once a completion was recorded, or its recording raised. -/
theorem observedAfter_record {now : Timestamp} {faults : RecordFaults} {completion : Completion}
    {rest : List Completion} {record : RunningRecord}
    (hphase : gather.phase = .recording (completion :: rest))
    (hrunning : gather.memory.running.get? completion.operatorId = some record) :
  Succession.observedAfter observed gather gather' (.record now faults)
    = if gather.state.audit.committed.length < gather'.state.audit.committed.length then
        observed.set completion.operatorId record.observedRevision
      else
        observed
  := by
  simp only [Succession.observedAfter, hphase, hrunning]

/-- A row that is appended makes the log longer. -/
theorem length_append {audit audit' : AuditState} {entry : AuditLogEntry}
    (h : audit.append entry = .ok audit') :
  audit.committed.length < audit'.committed.length
  := by
  rw [AuditState.append] at h
  split at h
  · cases h
  · cases h
    rw [List.length_append]
    exact Nat.lt_succ_self _

/-- However the recording of a completion goes, the watermarks are kept. -/
theorem records {now : Timestamp} {faults : RecordFaults} {completion : Completion}
    {rest : List Completion} {result : Except OrchestrationError Unit}
    (h : WatermarksKept services gather.phase gather.state.mirror gather.state.store gather.memory
      observed)
    (hphase : gather.phase = .recording (completion :: rest))
    (hrecords : Gather.Records services gather now faults completion result gather') :
  WatermarksKept services gather.phase gather'.state.mirror gather'.state.store gather'.memory
    (Succession.observedAfter observed gather gather' (.record now faults))
  := by
  have hremembered := h.remembered completion
  cases hrecords with
  | unknown _ =>
      rw [observedAfter_of_audit]
      · exact h
      · rfl
  | auditRaised _ _ =>
      rw [observedAfter_of_audit]
      · exact hremembered
      · rfl
  | watermarkRaised hrunning happend _ =>
      rw [observedAfter_record hphase hrunning, if_pos (length_append happend)]
      exact hremembered.observing (h.running hrunning).2.2
  | retried hrunning _ happend =>
      rw [observedAfter_record hphase hrunning, if_pos (length_append happend)]
      exact hremembered.observing (h.running hrunning).2.2
  | advanced hrunning _ happend hstore =>
      rw [observedAfter_record hphase hrunning, if_pos (length_append happend)]
      obtain ⟨hlevel, hle, -⟩ := h.running hrunning
      apply hremembered.advanced hlevel hle _ hstore
      rw [Gather.running_remember, Dict.get?_erase, if_pos rfl]

/-! ### Launches -/

/-- A launch observes the revision of the store. -/
theorem launches {available : Finset CapabilityId}
    (h : WatermarksKept services phase gather.state.mirror gather.state.store gather.memory
      observed)
    (runnables : List (Runnable O)) :
  let launched := runnables.foldl
    (Gather.launch services available gather.state.store.revision) gather
  launched.state = gather.state
    ∧ WatermarksKept services phase gather.state.mirror gather.state.store launched.memory observed
  := by
  induction runnables generalizing gather with
  | nil => exact ⟨rfl, h⟩
  | cons runnable runnables ih =>
      apply @ih (Gather.launch services available gather.state.store.revision gather runnable)
      refine ⟨h.agrees, h.answers, h.loaded, h.bounded, ?_, h.observed⟩
      intro operatorId record hrunning
      rw [Gather.launch, Dict.get?_set] at hrunning
      split at hrunning
      · cases hrunning
        exact ⟨h.agrees.rehydrated_le, le_refl _, fun watermark hget => h.bounded hget⟩
      · exact h.running hrunning

/-- The windows do not matter. -/
theorem debounced (h : WatermarksKept services phase mirror store memory observed)
    (debounce : DebounceController) :
  WatermarksKept services phase mirror store { memory with debounce := debounce } observed
  := ⟨h.agrees, h.answers, h.loaded, h.bounded, h.running, h.observed⟩

/-- A gather that begins reads the watermarks and primes the baselines for them. -/
theorem begun
    (h : WatermarksKept services phase gather.state.mirror gather.state.store memory observed)
    {memory' : OperatorMemory} (hwatermarks : memory'.watermarks = gather.loadWatermarks services)
    (hrunning : memory'.running = .empty)
    (hprime : gather.primeAll
        (Paging.inOrder id (gather.loadWatermarks services).values.dedup) gather.state.mirror
      = .ok mirror) :
  WatermarksKept services phase' mirror gather.state.store memory' observed
  := by
  obtain ⟨primed, hprimed, hagrees, -, -, hanswers⟩ := @Gather.InStep.primeAll O gather
    (Paging.inOrder id (gather.loadWatermarks services).values.dedup) gather.state.mirror h.agrees
  rw [hprime] at hprimed
  cases hprimed
  constructor
  · exact hagrees
  · intro operatorId since hsince
    apply hanswers
    rw [hwatermarks] at hsince
    rw [Paging.mem_inOrder, List.mem_dedup]
    exact Dict.mem_values_iff.mpr ⟨operatorId, hsince⟩
  · intro _ operator hoperator
    rw [hwatermarks]
    exact Gather.get?_loadWatermarks hoperator
  · exact h.bounded
  · intro operatorId record hget
    rw [hrunning] at hget
    cases hget
  · exact h.observed

/-! ### Steps -/

variable [DecidableEq P] [DecidableEq C]

omit [DecidableEq P] [DecidableEq C] in
/-- A merge that raised grows the state as far as it went. -/
theorem grows_mergeRaises (h : Agrees gather.state.mirror gather.state.store) {now : Timestamp}
    {faults : MergeFaults} {batch : List QueuedEmission} {error : OrchestrationError}
    {state : MergeState} (hraises : Gather.MergeRaises services gather now faults batch error state) :
  gather.state.Grows gather.epoch state
  := by
  cases hraises with
  | unsortable _ => exact .refl h
  | @merge emitted _ _ hmerge =>
      have hgrows := @MergeState.grows_mergeEmissions services.merging (gather.call now faults)
        gather.state h emitted
      rw [hmerge] at hgrows
      exact hgrows

omit [DecidableEq P] [DecidableEq C] in
/-- The loop moves within a gather. -/
theorem inside_moves {action : GatherAction} {phase : GatherPhase}
    (h : Gather.Moves gather action phase) :
  gather.phase.outside = false
  := by
  cases h with
  | raised _ hphase =>
      rcases hphase with hphase | hphase | hphase | ⟨parkAt, hphase⟩ <;>
      · rw [hphase]
        rfl
  | renewed hphase _ => rw [hphase]; rfl
  | expired hphase _ => rw [hphase]; rfl
  | drained hphase => rw [hphase]; rfl
  | woken hphase _ => rw [hphase]; rfl
  | waited hphase => rw [hphase]; rfl
  | parked hphase _ => rw [hphase]; rfl
  | awaited hphase _ => rw [hphase]; rfl

/-- A step keeps the watermarks, whatever raises. -/
theorem step {action : GatherAction}
    (h : WatermarksKept services gather.phase gather.state.mirror gather.state.store gather.memory
      observed)
    (hstep : Gather.Steps services gather action gather') :
  WatermarksKept services gather'.phase gather'.state.mirror gather'.state.store gather'.memory
    (Succession.observedAfter observed gather gather' action)
  := by
  -- What a merge of the loop has made of the state.
  have hmerged : ∀ {now faults emitted result state phase},
      gather.state.mergeEmissions services.merging (gather.call now faults) emitted
        = (result, state) →
      (phase.outside = false → gather.phase.outside = false) →
      WatermarksKept services phase state.mirror state.store gather.memory observed := by
    intro now faults emitted result state phase hmerge hinside
    have hgrows := @MergeState.grows_mergeEmissions services.merging (gather.call now faults)
      gather.state h.agrees emitted
    rw [hmerge] at hgrows
    exact h.grows hgrows hinside
  cases hstep with
  | elapse span => exact h
  | audit _ _ => exact h
  | stopped _ _ _ =>
      rw [observedAfter_of_audit]
      · exact h
      · rfl
  | emitted _ _ _ _ => exact h
  | completed _ _ _ => exact h
  | vanished _ _ => exact h
  | cancelled _ _ _ => exact h
  | seeded _ hmerge => exact hmerged hmerge id
  | seedRaised _ hmerge => exact hmerged hmerge (by intros; contradiction)
  | begun _ hprime => exact h.begun rfl rfl hprime
  | beginRaised _ _ => exact h.goes (by intros; contradiction)
  | @delivered now faults dataPoints state _ hmerge =>
      have hgrows := @MergeState.grows_applyInboxDataPoints services.merging
        (gather.call now faults) gather.state h.agrees dataPoints
      rw [hmerge] at hgrows
      exact h.grows hgrows id
  | @deliverRaised now faults dataPoints state error hphase hmerge =>
      have hgrows := @MergeState.grows_applyInboxDataPoints services.merging
        (gather.call now faults) gather.state h.agrees dataPoints
      rw [hmerge] at hgrows
      apply h.grows hgrows
      rw [hphase]
      exact id
  | @passed available view observed' plan hphase _ hobserved _ =>
      rw [h.agrees.getRevision] at hobserved
      cases hobserved
      obtain ⟨hsame, hlaunched⟩ := @launches P C O services
        { gather with memory := { gather.memory with debounce := plan.debounce } } gather.phase
        observed available (h.debounced plan.debounce) plan.runnable
      rw [Gather.launchAll]
      simp only [hsame]
      apply hlaunched.goes
      rw [hphase]
      exact fun _ => rfl
  | passRaised hphase _ =>
      apply h.goes
      rw [hphase]
      exact id
  | taken hphase =>
      apply h.goes
      rw [hphase]
      exact id
  | merged hphase _ hmerge =>
      apply hmerged hmerge
      rw [hphase]
      exact fun _ => rfl
  | mergeRaised hphase hraises =>
      apply h.grows (grows_mergeRaises h.agrees hraises)
      rw [hphase]
      exact id
  | @recorded now faults completion rest gather' hphase hrecords =>
      apply (h.records hphase hrecords).goes
      rw [hphase]
      exact fun _ => rfl
  | @recordRaised now faults completion rest gather' error hphase hrecords =>
      apply (h.records hphase hrecords).goes
      rw [hphase]
      exact id
  | drained hphase _ hmerge =>
      apply hmerged hmerge
      rw [hphase]
      exact fun _ => rfl
  | drainedAgain _ _ hmerge => exact hmerged hmerge (by intros; contradiction)
  | drainRaised _ hraises => exact h.grows (grows_mergeRaises h.agrees hraises) (by intros; contradiction)
  | moved hmoves =>
      rw [observedAfter_of_audit]
      · apply h.goes
        rw [inside_moves hmoves]
        exact fun _ => rfl
      · rfl
  | disposed _ _ => exact h
  | contributed _ _ =>
      exact ⟨h.agrees, h.answers, h.loaded, h.bounded, h.running, h.observed⟩

end WatermarksKept

/-- The watermarks are kept from the first orchestrator of a session on, whichever of them are gone
at which point. -/
theorem watermarksKept_run {P C O : Type} [DecidableEq P] [DecidableEq C]
    {services : GatherServices P C O} {epoch : Epoch} {caps : Dict OperatorId ℤ} {now : Monotonic}
    {actions : List SuccessionAction} {succession : Succession O}
    (hrun : TransitionSystem.run (Succession.step services)
        (.initial services epoch caps now) actions
      = some succession) :
  WatermarksKept services succession.gather.phase succession.gather.state.mirror
    succession.gather.state.store succession.gather.memory succession.observed
  := by
  refine TransitionSystem.run_invariant (P := fun succession : Succession O =>
    WatermarksKept services succession.gather.phase succession.gather.state.mirror
      succession.gather.state.store succession.gather.memory succession.observed) ?_ ?_ hrun
  · intro succession action succession' h hstep
    cases action with
    | act action =>
        rw [Succession.step, Option.map_eq_some_iff] at hstep
        obtain ⟨gather', hnext, rfl⟩ := hstep
        exact h.step (Gather.steps_of_step hnext)
    | resume epoch caps now =>
        cases hstep
        exact h.start epoch caps now
  · exact .initial services epoch caps now

end Orcastork
