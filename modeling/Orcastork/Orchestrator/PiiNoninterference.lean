import Orcastork.Library.TransitionSystem
import Orcastork.Orchestrator.ArchiveAgreement
import Orcastork.Orchestrator.PairedDrains

/-!
# Noninterference of the trail

Two executions take the same actions, except that the values of PII types differ. With no
override of summaries and no cipher that seals them, nothing of the values is written into the
rows of DataPoints, and the keyed merge counts the same rows in both. The texts of errors are
written as they are: of a value that its leaf rejects, as the error of the operator run; of a
DataPoint of the inbox that cannot be applied, as the reason of its quarantine. Where these texts
are the same in both executions, so are the trails.
-/

namespace Orcastork

open Raising (Outcomes)

namespace Pairing

variable {services : TrailServices} (pairing : Pairing services.leaves)

/-! ### Executions side by side -/

/-- Two emissions of one type, of the same value unless the type is PII. The leaf accepts the
values of both, or rejects both. -/
structure Emissions (emission emission' : DataPointEmission) : Prop where
  leafType : emission.leafType = emission'.leafType
  plain : (services.leaves.config emission.leafType).pii = false →
    emission.value = emission'.value
  validated : Outcomes (fun _ _ => True) (pairing.related emission.leafType)
    (services.validate emission.leafType emission.value)
    (services.validate emission'.leafType emission'.value)

/-- Two attempts to apply DataPoints that raise by themselves, or do not. Only what is raised may
say something else. -/
structure Attempts (attempt attempt' : ApplyAttempt) : Prop where
  now : attempt.now = attempt'.now
  apply : Option.Rel (fun error error' => error.isStaleEpoch = error'.isStaleEpoch)
    attempt.faults.apply attempt'.faults.apply
  audit : attempt.faults.audit = attempt'.faults.audit
  archive : attempt.faults.archive = attempt'.faults.archive

/-- Two drains that differ in what applying DataPoints raises, at most. -/
structure Calls (call call' : DrainCall) : Prop where
  maxInboxDeliveries : call.maxInboxDeliveries = call'.maxInboxDeliveries
  batch : Attempts call.batch call'.batch
  single : ∀ entryId, Attempts (call.single entryId) (call'.single entryId)
  ackFenced : call.ackFenced = call'.ackFenced
  quarantine : call.quarantine = call'.quarantine

/-- Whether an action is given no values. -/
def valueless : TrailAction → Bool
  | .emit .. | .deliver _ | .seed .. | .drainInbox _ | .capabilityInvoked .. => false
  | _ => true

/-- Two actions that are the same up to the values of PII types. What the parameters of a
capability hold may differ in any way. -/
inductive Actions : TrailAction → TrailAction → Prop
  | emit (operatorId) {emission emission'} (at') (h : pairing.Emissions emission emission') :
    Actions (.emit operatorId emission at') (.emit operatorId emission' at')
  | deliver {payload payload'}
    (h : pairing.Parsed (services.decode payload) (services.decode payload')) :
    Actions (.deliver payload) (.deliver payload')
  | seed (now faults) {batch batch'} (h : List.Forall₂ pairing.DataPoints batch batch') :
    Actions (.seed now faults batch) (.seed now faults batch')
  | drainInbox {call call'} (h : Calls call call') : Actions (.drainInbox call) (.drainInbox call')
  | capabilityInvoked (now capabilityId action) {parameters parameters' : List (String × Value)}
    (h : parameters.map Prod.fst = parameters'.map Prod.fst) :
    Actions (.capabilityInvoked now capabilityId action parameters)
      (.capabilityInvoked now capabilityId action parameters')
  | same {action} (h : valueless action = true) : Actions action action

variable (services) in
/-- The errors that two actions bring up say the same: the validation errors of two emissions, and
what applying DataPoints of the inbox raises. -/
def SameErrors : TrailAction → TrailAction → Prop
  | .emit _ emission _, .emit _ emission' _ =>
    ∀ error error', services.validate emission.leafType emission.value = .error error →
      services.validate emission'.leafType emission'.value = .error error' → error = error'
  | .drainInbox call, .drainInbox call' =>
    call.batch.faults.apply = call'.batch.faults.apply
      ∧ ∀ entryId, (call.single entryId).faults.apply = (call'.single entryId).faults.apply
  | _, _ => True

variable (services) in
/-- An action brings up no error that could say anything of the value of a PII type: its leaf
accepts what is emitted of it, and applying DataPoints of the inbox raises nothing by itself. -/
def Accepted : TrailAction → Prop
  | .emit _ emission _ => (services.leaves.config emission.leafType).pii = true →
    ∃ value, services.validate emission.leafType emission.value = .ok value
  | .drainInbox call =>
    call.batch.faults.apply = none ∧ ∀ entryId, (call.single entryId).faults.apply = none
  | _ => True

/-- Two signals of the queue. -/
inductive Signals : Signal → Signal → Prop
  | emitted {queued queued'} (h : pairing.Queued queued queued') :
    Signals (.emitted queued) (.emitted queued')
  | completed (completion) : Signals (.completed completion) (.completed completion)

/-- Two runs that have come equally far. -/
structure Runs (run run' : TrailRun) : Prop where
  epoch : run.epoch = run'.epoch
  state : pairing.Drains run.state run'.state
  live : run.live = run'.live
  queue : List.Forall₂ pairing.Signals run.queue run'.queue
  collected : run.collected = run'.collected
  runs : run.runs = run'.runs
  failedAttempts : run.failedAttempts = run'.failedAttempts
  raised : run.raised = run'.raised

variable {pairing}

theorem Emissions.finalize {emission emission' : DataPointEmission}
    (h : pairing.Emissions emission emission') (operatorId : OperatorId) (at' : Timestamp) :
  Outcomes (fun error error' =>
      services.validate emission.leafType emission.value = .error error
        ∧ services.validate emission'.leafType emission'.value = .error error')
    (fun finalized finalized' => pairing.Queued ⟨operatorId, finalized⟩ ⟨operatorId, finalized'⟩)
    (emission.finalize services.validate operatorId at')
    (emission'.finalize services.validate operatorId at')
  := by
  have hvalidated := h.validated
  rw [DataPointEmission.finalize, DataPointEmission.finalize]
  generalize services.validate emission.leafType emission.value = validated at hvalidated ⊢
  generalize services.validate emission'.leafType emission'.value = validated' at hvalidated ⊢
  cases hvalidated with
  | error _ =>
      apply Outcomes.error
      use rfl
  | ok hvalue =>
      apply Outcomes.ok
      constructor
      · rfl
      · apply h.leafType
      · apply hvalue
      · rfl
      · rfl
      · rfl

theorem Calls.eq_of_sameErrors {call call' : DrainCall} (h : Calls call call')
    (hbatch : call.batch.faults.apply = call'.batch.faults.apply)
    (hsingle : ∀ entryId,
      (call.single entryId).faults.apply = (call'.single entryId).faults.apply)
    (epoch : Epoch) :
  { call with epoch := epoch } = { call' with epoch := epoch }
  := by
  have hattempts : ∀ {attempt attempt' : ApplyAttempt}, Attempts attempt attempt' →
      attempt.faults.apply = attempt'.faults.apply → attempt = attempt' := by
    rintro ⟨now, apply, audit, archive⟩ ⟨now', apply', audit', archive'⟩
      ⟨hnow, -, haudit, harchive⟩ happly
    dsimp only at hnow happly haudit harchive
    rw [hnow, happly, haudit, harchive]
  have hsingles : call.single = call'.single := by
    ext entryId
    apply hattempts (h.single entryId) (hsingle entryId)
  rw [h.maxInboxDeliveries, hattempts h.batch hbatch, hsingles, h.ackFenced, h.quarantine]

theorem emissions_signals {queue queue' : List Signal}
    (h : List.Forall₂ pairing.Signals queue queue') :
  List.Forall₂ pairing.Queued (emissions queue) (emissions queue')
  := by
  induction h with
  | nil => apply List.Forall₂.nil
  | cons hsignal _ ih =>
      cases hsignal with
      | emitted hqueued => apply List.Forall₂.cons hqueued ih
      | completed _ => apply ih

theorem completions_signals {queue queue' : List Signal}
    (h : List.Forall₂ pairing.Signals queue queue') :
  completions queue = completions queue'
  := by
  induction h with
  | nil => rfl
  | cons hsignal _ ih =>
      cases hsignal with
      | emitted _ => apply ih
      | completed completion => rw [completions, completions, ih]

/-! ### Steps side by side -/

namespace Runs

variable {run run' : TrailRun}

theorem after (h : pairing.Runs run run')
    {result result' : Except OrchestrationError Unit × DrainState}
    (houtcome : Outcomes (fun _ _ => True) Eq result.1 result'.1)
    (hstate : pairing.Drains result.2 result'.2) :
  pairing.Runs (run.after result) (run'.after result')
  := by
  obtain ⟨outcome, state⟩ := result
  obtain ⟨outcome', state'⟩ := result'
  dsimp only at houtcome hstate
  cases houtcome with
  | ok _ => exact { h with state := hstate }
  | error _ => exact { h with state := hstate, raised := rfl }

theorem append (h : pairing.Runs run run') (now : Timestamp) (kind detail : String) :
  pairing.Runs (run.append now kind detail) (run'.append now kind detail)
  := by
  have hrow : run.state.audit.append ⟨run.epoch, now, kind, detail⟩
      = run'.state.audit.append ⟨run'.epoch, now, kind, detail⟩ := by
    rw [h.state.merging.audit, h.epoch]
  rw [TrailRun.append, TrailRun.append, hrow]
  split
  · exact { h with raised := rfl }
  · exact { h with state := ⟨h.state.merging.withAudit _, h.state.inbox⟩ }

/-- Merges that write the same in both runs. -/
theorem merged (h : pairing.Runs run run')
    {result result' : Except OrchestrationError Unit × MergeState} (houtcome : result.1 = result'.1)
    (hmerged : pairing.Merging result.2 result'.2) :
  pairing.Runs (run.after (result.1, { run.state with toMergeState := result.2 }))
    (run'.after (result'.1, { run'.state with toMergeState := result'.2 }))
  := by
  apply h.after
  · rw [houtcome]
    apply Outcomes.refl
  · constructor
    · apply hmerged
    · apply h.state.inbox

theorem mergeBatch (hredacts : Redacts services.audit) (h : pairing.Runs run run')
    {batch batch' : List QueuedEmission} (hbatch : List.Forall₂ pairing.Queued batch batch')
    (now : Timestamp) (faults : MergeFaults) :
  Outcomes (fun _ _ => True) Eq (run.mergeBatch services now faults batch).1
      (run'.mergeBatch services now faults batch').1
    ∧ pairing.Drains (run.mergeBatch services now faults batch).2
      (run'.mergeBatch services now faults batch').2
  := by
  have hnormalized := outcomes_normalizeAll hbatch
  rw [TrailRun.mergeBatch, TrailRun.mergeBatch, TrailRun.call, TrailRun.call, h.epoch]
  generalize normalizeAll batch = normalized at hnormalized ⊢
  generalize normalizeAll batch' = normalized' at hnormalized ⊢
  cases hnormalized with
  | error _ =>
      constructor
      · apply Outcomes.error trivial
      · apply h.state
  | ok hemitted =>
      obtain ⟨houtcome, hmerged⟩ := h.state.merging.mergeEmissions hredacts hemitted
      constructor
      · dsimp only
        rw [TrailServices.merging, houtcome]
        apply Outcomes.refl
      · constructor
        · apply hmerged
        · apply h.state.inbox

theorem emit (h : pairing.Runs run run') {emission emission' : DataPointEmission}
    (hemission : pairing.Emissions emission emission') (operatorId : OperatorId) (at' : Timestamp)
    (herrors : SameErrors services (.emit operatorId emission at')
      (.emit operatorId emission' at')) :
  pairing.Runs (run.emit services operatorId emission at')
    (run'.emit services operatorId emission' at')
  := by
  have hfinalized := hemission.finalize operatorId at'
  rw [TrailRun.emit, TrailRun.emit]
  generalize emission.finalize _ operatorId at' = finalized at hfinalized ⊢
  generalize emission'.finalize _ operatorId at' = finalized' at hfinalized ⊢
  cases hfinalized with
  | error hrejected =>
      dsimp only
      rw [h.live, herrors _ _ hrejected.1 hrejected.2]
      exact { h with live := rfl }
  | ok hqueued =>
      have hqueue := List.rel_append h.queue
        (List.Forall₂.cons (Signals.emitted hqueued) List.Forall₂.nil)
      exact { h with queue := hqueue }

theorem complete (h : pairing.Runs run run') (operatorId : OperatorId) (runSeconds : Monotonic) :
  Option.Rel pairing.Runs (run.complete operatorId runSeconds)
    (run'.complete operatorId runSeconds)
  := by
  rw [TrailRun.complete, TrailRun.complete, h.live]
  split
  · apply Option.Rel.none
  · rename_i error _
    have hqueue := List.rel_append h.queue
      (List.Forall₂.cons (Signals.completed ⟨operatorId, error, runSeconds⟩) List.Forall₂.nil)
    apply Option.Rel.some
    exact { h with live := rfl, queue := hqueue }

theorem record (h : pairing.Runs run run') (now : Timestamp) (retrying : Bool)
    (completion : Completion) :
  pairing.Runs (run.record services now retrying completion)
    (run'.record services now retrying completion)
  := by
  rw [TrailRun.record, TrailRun.record, h.runs, h.failedAttempts]
  apply append
  exact { h with runs := rfl, failedAttempts := rfl }

/-- Of the parameters of a capability only the keys are written. -/
theorem redacted_eq_of_keys {parameters parameters' : List (String × Value)}
    (h : parameters.map Prod.fst = parameters'.map Prod.fst) :
  TrailRun.redacted parameters = TrailRun.redacted parameters'
  := by
  have hkeys : ∀ parameters : List (String × Value), TrailRun.redacted parameters
      = (parameters.map Prod.fst).map (fun key => (key, "<redacted>")) := by
    intro parameters
    rw [List.map_map]
    rfl
  rw [hkeys, hkeys, h]

theorem auditCapabilityInvocation (h : pairing.Runs run run')
    {parameters parameters' : List (String × Value)}
    (hkeys : parameters.map Prod.fst = parameters'.map Prod.fst) (now : Timestamp)
    (capabilityId : CapabilityId) (action : String) :
  pairing.Runs (run.auditCapabilityInvocation services now capabilityId action parameters)
    (run'.auditCapabilityInvocation services now capabilityId action parameters')
  := by
  rw [TrailRun.auditCapabilityInvocation, TrailRun.auditCapabilityInvocation,
    redacted_eq_of_keys hkeys]
  dsimp only
  generalize services.capabilityDetail _ = detail
  have hrow : run.state.audit.append ⟨run.epoch, now, "capability_invoked", detail⟩
      = run'.state.audit.append ⟨run'.epoch, now, "capability_invoked", detail⟩ := by
    rw [h.state.merging.audit, h.epoch]
  rw [hrow]
  split
  · apply h
  · exact { h with state := ⟨h.state.merging.withAudit _, h.state.inbox⟩ }

theorem outerStep (hredacts : Redacts services.audit) (h : pairing.Runs run run')
    {action action' : TrailAction} (haction : pairing.Actions action action')
    (herrors : SameErrors services action action') :
  Option.Rel pairing.Runs (run.outerStep services action) (run'.outerStep services action')
  := by
  cases haction with
  | emit operatorId at' hemission =>
      rw [TrailRun.outerStep, TrailRun.outerStep, TrailRun.running, TrailRun.running, h.live]
      split
      · apply Option.Rel.some
        apply h.emit hemission operatorId at' herrors
      · apply Option.Rel.none
  | deliver hpayload =>
      apply Option.Rel.some
      exact { h with state := ⟨h.state.merging, h.state.inbox.append hpayload⟩ }
  | seed => apply Option.Rel.none
  | drainInbox => apply Option.Rel.none
  | capabilityInvoked now capabilityId action hkeys =>
      apply Option.Rel.some
      apply h.auditCapabilityInvocation hkeys
  | @same action hvalueless =>
      cases action with
      | emit => cases hvalueless
      | capabilityInvoked => cases hvalueless
      | deliver => cases hvalueless
      | fail operatorId error =>
          rw [TrailRun.outerStep, TrailRun.outerStep, TrailRun.running, TrailRun.running, h.live]
          split
          · apply Option.Rel.some
            exact { h with live := rfl }
          · apply Option.Rel.none
      | complete operatorId runSeconds => apply h.complete
      | cancel operatorId =>
          rw [TrailRun.outerStep, TrailRun.outerStep, h.live]
          apply Option.Rel.some
          exact { h with live := rfl }
      | drainQueue now faults =>
          obtain ⟨houtcome, hstate⟩ := h.mergeBatch hredacts (emissions_signals h.queue) now faults
          apply Option.Rel.some
          apply after _ houtcome hstate
          exact { h with queue := List.Forall₂.nil }
      | raise =>
          apply Option.Rel.some
          exact { h with raised := rfl }
      | _ => apply Option.Rel.none

theorem innerStep (hredacts : Redacts services.audit) (h : pairing.Runs run run')
    {action action' : TrailAction} (haction : pairing.Actions action action')
    (herrors : SameErrors services action action') :
  Option.Rel pairing.Runs (run.innerStep services action) (run'.innerStep services action')
  := by
  cases haction with
  | emit => apply Option.Rel.none
  | deliver => apply Option.Rel.none
  | seed now faults hbatch =>
      obtain ⟨houtcome, hmerged⟩ := h.state.merging.merge hredacts hbatch none
      rw [TrailRun.innerStep, TrailRun.innerStep, TrailRun.call, TrailRun.call, h.epoch]
      apply Option.Rel.some
      apply h.merged houtcome hmerged
  | drainInbox hcalls =>
      obtain ⟨houtcome, hdrained⟩ := h.state.drainInbox hredacts
      rw [TrailRun.innerStep, TrailRun.innerStep, h.epoch,
        hcalls.eq_of_sameErrors herrors.1 herrors.2]
      apply Option.Rel.some
      apply h.after houtcome hdrained
  | capabilityInvoked => apply Option.Rel.none
  | @same action hvalueless =>
      cases action with
      | seed => cases hvalueless
      | drainInbox => cases hvalueless
      | launch operatorId =>
          rw [TrailRun.innerStep, TrailRun.innerStep, h.live]
          split
          · apply Option.Rel.none
          · apply Option.Rel.some
            exact { h with live := rfl }
      | drift now flow =>
          apply Option.Rel.some
          apply h.append
      | take now faults =>
          obtain ⟨houtcome, hstate⟩ := h.mergeBatch hredacts (emissions_signals h.queue) now faults
          rw [TrailRun.innerStep, TrailRun.innerStep, h.collected, completions_signals h.queue]
          split
          · apply Option.Rel.some
            apply after _ houtcome hstate
            exact { h with queue := List.Forall₂.nil, collected := rfl }
          · apply Option.Rel.none
      | record now retrying =>
          rw [TrailRun.innerStep, TrailRun.innerStep, h.collected]
          split
          · apply Option.Rel.none
          · apply Option.Rel.some
            apply record
            exact { h with collected := rfl }
      | capabilityActivated now capabilityId =>
          apply Option.Rel.some
          apply h.append
      | activationFailed now capabilityId error =>
          apply Option.Rel.some
          apply h.append
      | aggregatorSkipped now operatorId missing =>
          apply Option.Rel.some
          apply h.append
      | aggregatorAttempted now operatorId attempt runSeconds error =>
          apply Option.Rel.some
          apply h.append
      | deadLettered now operatorId maxAttempts =>
          apply Option.Rel.some
          apply h.append
      | coalesce now =>
          obtain ⟨houtcome, hmerged⟩ := h.state.merging.appendCoalescedAudits
          rw [TrailRun.innerStep, TrailRun.innerStep, TrailRun.call, TrailRun.call, h.epoch]
          apply Option.Rel.some
          apply h.merged houtcome hmerged
      | park now =>
          apply Option.Rel.some
          apply h.append
      | _ => apply Option.Rel.none

theorem outer_eq {action action' : TrailAction} (h : pairing.Actions action action') :
  TrailRun.outer action = TrailRun.outer action'
  := by
  cases h with
  | _ => rfl

/-- An action that can be taken in one of the runs can be taken in the other. -/
theorem step (hredacts : Redacts services.audit) (h : pairing.Runs run run')
    {action action' : TrailAction} (haction : pairing.Actions action action')
    (herrors : SameErrors services action action') :
  Option.Rel pairing.Runs (run.step services action) (run'.step services action')
  := by
  rw [TrailRun.step, TrailRun.step, outer_eq haction, h.raised]
  split
  · apply h.outerStep hredacts haction herrors
  · split
    · apply Option.Rel.none
    · apply h.innerStep hredacts haction herrors

end Runs

variable (pairing) in
/-- Two sessions before a run. -/
structure Sessions (state state' : DrainState) : Prop where
  store : pairing.Stores state.store state'.store
  audit : state.audit = state'.audit
  archive : state.archive.maxEpoch = state'.archive.maxEpoch
  inbox : pairing.Inboxes state.inbox state'.inbox

theorem Sessions.start {state state' : DrainState} (h : pairing.Sessions state state')
    (sessionId : SessionId) (epoch : Epoch) :
  pairing.Runs (TrailRun.start sessionId epoch state) (TrailRun.start sessionId epoch state')
  := by
  constructor
  · rfl
  · constructor
    · constructor
      · apply h.store.rehydrate
      · apply h.store
      · apply h.audit
      · apply h.archive
      · rfl
      · rfl
    · apply h.inbox
  · rfl
  · apply List.Forall₂.nil
  · rfl
  · rfl
  · rfl
  · rfl

/-- What two runs leave of their sessions, wherever they end. -/
theorem Runs.sessions {run run' : TrailRun} (h : pairing.Runs run run') :
  pairing.Sessions run.state run'.state
  := ⟨h.state.merging.store, h.state.merging.audit, h.state.merging.archive, h.state.inbox⟩

variable (pairing) in
/-- Two runs on one epoch, of the same actions up to the values of PII types. -/
structure EpochRuns (epochRun epochRun' : EpochRun) : Prop where
  epoch : epochRun.epoch = epochRun'.epoch
  actions : List.Forall₂ pairing.Actions epochRun.actions epochRun'.actions

/-- One more run of two sessions. -/
theorem Sessions.resume (hredacts : Redacts services.audit) {state state' : DrainState}
    (h : pairing.Sessions state state') (sessionId : SessionId) {epochRun epochRun' : EpochRun}
    (hruns : pairing.EpochRuns epochRun epochRun')
    (herrors : List.Forall₂ (SameErrors services) epochRun.actions epochRun'.actions) :
  Option.Rel pairing.Sessions (state.resume services sessionId epochRun)
    (state'.resume services sessionId epochRun')
  := by
  have hended : Option.Rel pairing.Runs
      (TransitionSystem.run (TrailRun.step services) (.start sessionId epochRun.epoch state)
        epochRun.actions)
      (TransitionSystem.run (TrailRun.step services) (.start sessionId epochRun.epoch state')
        epochRun'.actions) := by
    apply TransitionSystem.run_rel _ (h.start sessionId epochRun.epoch)
      (List.Forall₂.mp (fun _ _ => And.intro) hruns.actions herrors)
    rintro run run' action action' h ⟨haction, herrors⟩
    apply h.step hredacts haction herrors
  rw [DrainState.resume, DrainState.resume, ← hruns.epoch]
  generalize TransitionSystem.run _ _ epochRun.actions = ended at hended ⊢
  generalize TransitionSystem.run _ _ epochRun'.actions = ended' at hended ⊢
  cases hended with
  | none => apply Option.Rel.none
  | some hended => apply Option.Rel.some hended.sessions

end Pairing

/-! ### Executions that differ in a number -/

end Orcastork
