import Orcastork.Orchestrator.ArmedRetries
import Orcastork.Orchestrator.WatermarksKept

/-!
# Triggers

What is stored above what the last recorded run of an operator observed is in the delta of its next
launch, as its watermark is not past that, and where a gather goes quiescent nothing relevant is left
above a watermark (`no_trigger_lost`).
-/

namespace Orcastork

/-! ### Changes -/

/-- A change that is relevant to an operator: above its watermark, of a type that it depends on or
uses, and an addition where it reruns on nothing else. -/
structure RelevantChange {P C O : Type} [DecidableEq P] (services : GatherServices P C O)
    (store : SessionState) (operator : O) (entry : Entry) : Prop where
  stored : entry ∈ store.entries.values
  above : ∀ watermark, store.getWatermark (services.operatorId operator) = some watermark →
    watermark < match (services.flow.policy operator).rerunOn with
      | .addedOnly => entry.addedRev
      | .addedOrUpdated => entry.updatedRev
  triggers : ∃ trigger ∈ services.flow.dependsOn operator ∪ services.flow.uses operator,
    services.classes.dataPoints.issubclass (services.leafClass entry.dataPoint.type) trigger = true

section Deltas

variable {store : SessionState} {watermark : Option Revision} {entry : Entry}

/-- What was added above a watermark is presented as added. -/
theorem mem_added_storeDelta (available previous : Finset CapabilityId)
    (h : entry ∈ store.entries.values)
    (habove : ∀ since, watermark = some since → since < entry.addedRev) :
  entry.dataPoint ∈ (storeDelta store watermark available previous).added
  := by
  cases watermark with
  | none => exact List.mem_map_of_mem h
  | some since =>
      apply List.mem_map_of_mem
      rw [List.mem_filter, decide_eq_true_eq]
      exact ⟨h, habove since rfl⟩

/-- What was stored above a watermark is presented as added or updated. -/
theorem mem_storeDelta (available previous : Finset CapabilityId)
    (h : entry ∈ store.entries.values)
    (habove : ∀ since, watermark = some since → since < entry.updatedRev) :
  entry.dataPoint ∈ (storeDelta store watermark available previous).added
    ∨ entry.dataPoint ∈ (storeDelta store watermark available previous).updated
  := by
  cases watermark with
  | none => exact Or.inl (List.mem_map_of_mem h)
  | some since =>
      rcases Nat.lt_or_ge since entry.addedRev with hadded | hold
      · left
        apply mem_added_storeDelta _ _ h
        rintro _ ⟨⟩
        exact hadded
      · right
        apply List.mem_map_of_mem
        rw [List.mem_filter, decide_eq_true_eq]
        exact ⟨h, hold, habove since rfl⟩

end Deltas

namespace GatherServices

variable {P C O : Type} [DecidableEq P] (services : GatherServices P C O)

/-- A DataPoint of a view counts among the classes present. -/
theorem mem_presentTypes {view : DataPointView} {dataPoint : BaseDataPoint}
    (h : dataPoint ∈ view) :
  services.leafClass dataPoint.type ∈ services.presentTypes view
  := by
  rw [presentTypes, List.mem_toFinset]
  exact List.mem_map_of_mem h

/-- An operator that is not to run again has no relevant change. -/
theorem not_relevantChange {store : SessionState} {operator : O}
    {available previous : Finset CapabilityId}
    (hrerun : (services.flow.policy operator).rerunOnNewData = true)
    (h : services.flow.rerunEligible services.classes operator
        (services.newData (storeDelta store
          (store.getWatermark (services.operatorId operator)) available previous))
      = false)
    (entry : Entry) :
  ¬RelevantChange services store operator entry
  := by
  rintro ⟨hstored, habove, trigger, htrigger, hsubclass⟩
  rw [FlowDefinition.rerunEligible, hrerun, Bool.true_and, FlowDefinition.hasRelevantNewData] at h
  split at h
  · cases h
  · rw [decide_eq_false_iff_not] at h
    apply h
    refine ⟨services.leafClass entry.dataPoint.type, ?_, trigger, htrigger, hsubclass⟩
    cases hrerunOn : (services.flow.policy operator).rerunOn with
    | addedOnly =>
        rw [hrerunOn] at habove
        exact services.mem_presentTypes (mem_added_storeDelta available previous hstored habove)
    | addedOrUpdated =>
        rw [hrerunOn] at habove
        rw [Finset.mem_union]
        rcases mem_storeDelta available previous hstored habove with hmem | hmem
        · exact Or.inl (services.mem_presentTypes hmem)
        · exact Or.inr (services.mem_presentTypes hmem)

end GatherServices

/-! ### Runs -/

/-- Every delta can be read: those of the operators, and those of the aggregators in the end. -/
structure ReadsDeltas {P C O : Type} (services : GatherServices P C O) (gather : Gather O) :
    Prop where
  operators : ∀ available operator, ∃ delta,
    services.deltaFor gather.state.mirror gather.memory available operator = .ok delta
  aggregators : ∀ available, ∃ delta,
    operatorDelta gather.state.mirror gather.state.mirror.sessionId none available ∅ = .ok delta

/-- What is launched is given all that is stored above what the last recorded run of its operator
observed, and everything if no run was recorded. -/
def PresentsChanges {P C O : Type} (services : GatherServices P C O)
    (observed : Dict OperatorId Revision) (gather gather' : Gather O) : Prop :=
  ∀ i task, gather.tasks.length ≤ i → gather'.tasks[i]? = some task →
    ∀ entry ∈ gather.state.store.entries.values,
      (∀ revision, observed.get? (services.operatorId task.operator) = some revision →
        revision < entry.updatedRev) →
      entry.dataPoint ∈ task.delta.added ∨ entry.dataPoint ∈ task.delta.updated

/-- A gather goes quiescent by a pass, with the capabilities at hand. Every operator that is ready
then and whose breaker is not tripped has run; and it has no relevant change to run again for, unless
its window is not over and left to the finalize pass. -/
def LeavesNothing {P C O : Type} [DecidableEq P] [DecidableEq C] (services : GatherServices P C O)
    (action : GatherAction) (gather gather' : Gather O) : Prop :=
  gather.phase ≠ .draining .quiescent → gather'.phase = .draining .quiescent →
    ∃ available, action = .refresh available none
      ∧ ∀ operator ∈ services.gathering,
        gather'.memory.breaker.isTripped (services.operatorId operator) = false →
        services.declarations.isReady operator
          (services.presentTypes gather'.state.store.snapshot) (services.availableTypes available)
          = true →
        services.hasRun gather'.memory operator = true
          ∧ ((services.flow.policy operator).rerunOnNewData = true →
            (∀ entry, ¬RelevantChange services gather'.state.store operator entry)
              ∨ windowDefersToFinalize (services.flow.aggregator operator) true = true
                ∧ services.windowDue gather.now gather.memory.debounce operator = false)

namespace WatermarksKept

variable {P C O : Type} {services : GatherServices P C O} {gather gather' : Gather O}
variable {observed : Dict OperatorId Revision}

/-- The delta of an operator is that of the store. -/
theorem deltaFor
    (h : WatermarksKept services gather.phase gather.state.mirror gather.state.store gather.memory
      observed)
    (available : Finset CapabilityId) (operator : O) :
  services.deltaFor gather.state.mirror gather.memory available operator
    = .ok (storeDelta gather.state.store
        (gather.memory.watermarks.get? (services.operatorId operator)) available
        ((gather.memory.prevCaps.get? (services.operatorId operator)).getD ∅))
  := operatorDelta_eq h.agrees h.answers available _

theorem readsDeltas
    (h : WatermarksKept services gather.phase gather.state.mirror gather.state.store gather.memory
      observed) :
  ReadsDeltas services gather
  := by
  constructor
  · exact fun available operator => ⟨_, h.deltaFor available operator⟩
  · intro available
    have hanswers : gather.state.mirror.Answers none := by
      intro since hsince
      cases hsince
    exact ⟨_, operatorDelta_eq h.agrees hanswers available ∅⟩

variable [DecidableEq P] [DecidableEq C]

/-- The launches of a pass present the changes. -/
theorem presentsChanges {action : GatherAction}
    (h : WatermarksKept services gather.phase gather.state.mirror gather.state.store gather.memory
      observed)
    (hstep : Gather.Steps services gather action gather') :
  PresentsChanges services observed gather gather'
  := by
  intro i task hnew htask entry hentry habove
  obtain ⟨available, view, runnable, plan, -, hphase, hplan, hrunnable, rfl⟩ :=
    Gather.launched_of_new hstep hnew htask
  obtain ⟨hsublist, hlaunchable⟩ := GatherServices.plan_runnable hplan
  have hgathers : runnable.operator ∈ services.gathering :=
    hsublist.subset (List.mem_map_of_mem hrunnable)
  have hwatermark := h.loaded (by rw [hphase]; rfl) runnable.operator hgathers
  have hdelta := (hlaunchable runnable hrunnable).delta
  rw [h.deltaFor] at hdelta
  rw [← Except.ok.inj hdelta]
  apply mem_storeDelta _ _ hentry
  intro since hsince
  rw [hwatermark] at hsince
  -- The watermark is not past what the last recorded run observed.
  obtain ⟨revision, hobserved, hle⟩ := h.observed hsince
  exact hle.trans_lt (habove revision hobserved)

/-- An operator that is open as the loop is done has run, and has nothing to run again for. -/
theorem settled
    (h : WatermarksKept services gather.phase gather.state.mirror gather.state.store gather.memory
      observed)
    (hinside : gather.phase.outside = false) {available : Finset CapabilityId}
    {view : DataPointView} {operator : O} (hgathers : operator ∈ services.gathering)
    (hopen : services.isOpen gather.memory view available operator = true)
    (hsatisfied : services.completionSatisfied view = true)
    (hdue : services.isDue gather.state.mirror gather.memory view available gather.now operator
      = false)
    (hawaited : services.isAwaited gather.state.mirror gather.memory view available gather.now
      operator = false) :
  services.hasRun gather.memory operator = true
    ∧ ((services.flow.policy operator).rerunOnNewData = true →
      (∀ entry, ¬RelevantChange services gather.state.store operator entry)
        ∨ windowDefersToFinalize (services.flow.aggregator operator) true = true
          ∧ services.windowDue gather.now gather.memory.debounce operator = false)
  := by
  rw [GatherServices.isDue, hopen, Bool.true_and] at hdue
  rw [GatherServices.isAwaited, hopen, Bool.true_and, hsatisfied] at hawaited
  split at hdue
  · -- An armed retry is due or awaited.
    rename_i harmed
    rw [if_pos harmed, hdue] at hawaited
    cases hawaited
  · rename_i hunarmed
    rw [if_neg hunarmed] at hawaited
    rw [Bool.or_eq_false_iff, Bool.not_eq_false'] at hdue
    obtain ⟨hran, hwindow⟩ := hdue
    use hran
    intro hrerun
    cases hnew : services.hasNewData gather.state.mirror gather.memory available operator with
    | false =>
        left
        rw [GatherServices.hasNewData, hrerun, Bool.true_and, h.deltaFor,
          h.loaded hinside operator hgathers] at hnew
        exact services.not_relevantChange hrerun hnew
    | true =>
        right
        rw [hnew, Bool.true_and] at hwindow
        rw [hran, hnew, hwindow, Bool.true_and, Bool.not_false, Bool.true_and,
          Bool.true_and, Bool.not_eq_false'] at hawaited
        exact ⟨hawaited, hwindow⟩

/-- A gather goes quiescent with nothing left to run for. -/
theorem leavesNothing {action : GatherAction}
    (h : WatermarksKept services gather.phase gather.state.mirror gather.state.store gather.memory
      observed)
    (hstep : Gather.Steps services gather action gather') :
  LeavesNothing services action gather gather'
  := by
  intro hbefore hdone
  obtain ⟨available, view, observed', plan, rfl, hphase, hview, hplan, hquiet, hmemory, hstate⟩ :=
    Gather.passed_of_done hstep hbefore hdone
  use available, rfl
  obtain ⟨hidle, hnone, hsatisfied, hlate⟩ := Gather.settled_of_done hplan hquiet
  rw [h.agrees.snapshot] at hview
  cases hview
  have hlaunched : gather.launchAll services available observed' plan
      = { gather with memory := { gather.memory with debounce := plan.debounce } } := by
    rw [Gather.launchAll, hnone]
    rfl
  rw [hmemory, hstate, hlaunched]
  intro operator hgathers huntripped hready
  obtain ⟨hdue, hawaited⟩ := hlate operator hgathers
  apply h.settled (by rw [hphase]; rfl) hgathers _ hsatisfied hdue hawaited
  have hnotRunning : gather.memory.running.get? (services.operatorId operator) = none := by
    rw [Dict.get?_eq_none_iff, hidle]
    apply List.not_mem_nil
  rw [GatherServices.isOpen, hnotRunning, huntripped]
  apply hready

end WatermarksKept

/-- No trigger is lost, from the first orchestrator of a session on and whichever of them are gone
at which point: every delta can be read, a launch presents all that was stored since the last
recorded run of its operator, and a gather goes quiescent with nothing left to run for. -/
theorem no_trigger_lost {P C O : Type} [DecidableEq P] [DecidableEq C]
    (services : GatherServices P C O) (epoch : Epoch) (caps : Dict OperatorId ℤ) (now : Monotonic)
    {actions : List SuccessionAction} {succession : Succession O}
    (hrun : TransitionSystem.run (Succession.step services)
        (.initial services epoch caps now) actions
      = some succession) :
  ReadsDeltas services succession.gather
    ∧ ∀ action gather', succession.gather.step services action = some gather' →
      PresentsChanges services succession.observed succession.gather gather'
        ∧ LeavesNothing services action succession.gather gather'
  := by
  have hkept := watermarksKept_run hrun
  use hkept.readsDeltas
  intro action gather' hnext
  have hstep := Gather.steps_of_step hnext
  exact ⟨hkept.presentsChanges hstep, hkept.leavesNothing hstep⟩

/-! ### A gather of texts -/

/-- A reader that needs nothing and runs again for new notes. -/
def noteGather : GatherServices DataPointType CapabilityId OperatorId :=
  { textGather ["reader"] none with
    flow :=
      { (textGather ["reader"] none).flow with
        uses := fun _ => {"note"}
        policy := fun _ => ⟨true, .addedOnly, none⟩ } }

/-- The reader runs, and is recorded. -/
def readActions : List GatherAction :=
  .begin' 100 :: passActions ∅ ++ [.finish 0, .complete 0 1, .take, .merge 0 .none,
    .record 0 ⟨none, none⟩]

/-- The orchestrator is gone after a note was delivered, and the next one comes to its first pass. -/
def resumedActions : List SuccessionAction :=
  List.map .act (readActions ++ [.renew none, .deliver 0 .none [textDataPoint "note" "a" 0]])
    ++ .resume 2 .empty 0 :: List.map .act [.begin' 100, .renew none, .inboxDone none]

/-- The reader is launched again for the note; and without a note the gather goes quiescent. -/
theorem no_trigger_lost_resumed :
  (∃ succession gather' task,
    TransitionSystem.run (Succession.step noteGather) (.initial noteGather 1 .empty 0)
        resumedActions
      = some succession
    ∧ succession.gather.step noteGather (.refresh ∅ none) = some gather'
    ∧ gather'.tasks[0]? = some task
    ∧ (textDataPoint "note" "a" 0 ∈ task.delta.added
      ∨ textDataPoint "note" "a" 0 ∈ task.delta.updated))
  ∧ ∃ succession gather',
    TransitionSystem.run (Succession.step noteGather) (.initial noteGather 1 .empty 0)
        (List.map .act (readActions ++ [.renew none, .inboxDone none]))
      = some succession
    ∧ succession.gather.step noteGather (.refresh ∅ none) = some gather'
    ∧ gather'.phase = .draining .quiescent
    ∧ noteGather.hasRun gather'.memory "reader" = true
    ∧ ∀ entry, ¬RelevantChange noteGather gather'.state.store "reader" entry
  := by
  constructor
  · obtain ⟨succession, hrun, gather', hnext, task, htask, hnew, entry, hentry, hnote, hobserved⟩ :
        ∃ succession, TransitionSystem.run (Succession.step noteGather)
            (.initial noteGather 1 .empty 0) resumedActions = some succession
          ∧ ∃ gather', succession.gather.step noteGather (.refresh ∅ none) = some gather'
          ∧ ∃ task, gather'.tasks[0]? = some task ∧ succession.gather.tasks = []
          ∧ ∃ entry, succession.gather.state.store.entries.values = [entry]
            ∧ entry.dataPoint = textDataPoint "note" "a" 0
            ∧ ∀ revision, succession.observed.get? (noteGather.operatorId task.operator)
                = some revision → revision < entry.updatedRev := by
      refine ⟨_, rfl, _, rfl, _, rfl, rfl, _, rfl, rfl, ?_⟩
      rintro _ ⟨⟩
      decide
    obtain ⟨-, hlost⟩ := no_trigger_lost noteGather 1 .empty 0 hrun
    have hpresents := (hlost (.refresh ∅ none) gather' hnext).1 0 task
      (by rw [hnew]; exact le_refl _) htask entry (by rw [hentry]; exact List.mem_singleton_self _)
      hobserved
    rw [hnote] at hpresents
    exact ⟨succession, gather', task, hrun, hnext, htask, hpresents⟩
  · obtain ⟨succession, hrun, gather', hnext, hphase, hdone, huntripped, hready⟩ :
        ∃ succession, TransitionSystem.run (Succession.step noteGather)
            (.initial noteGather 1 .empty 0)
            (List.map .act (readActions ++ [.renew none, .inboxDone none])) = some succession
          ∧ ∃ gather', succession.gather.step noteGather (.refresh ∅ none) = some gather'
          ∧ succession.gather.phase = .refreshing
          ∧ gather'.phase = .draining .quiescent
          ∧ gather'.memory.breaker.isTripped "reader" = false
          ∧ noteGather.declarations.isReady "reader"
              (noteGather.presentTypes gather'.state.store.snapshot) (noteGather.availableTypes ∅)
            = true := ⟨_, rfl, _, rfl, rfl, rfl, rfl, rfl⟩
    obtain ⟨-, hlost⟩ := no_trigger_lost noteGather 1 .empty 0 hrun
    obtain ⟨available, havailable, hleft⟩ := (hlost (.refresh ∅ none) gather' hnext).2
      (by rw [hphase]; exact nofun) hdone
    cases havailable
    obtain ⟨hran, hnothing⟩ := hleft "reader" List.mem_cons_self huntripped hready
    refine ⟨succession, gather', hrun, hnext, hdone, hran, ?_⟩
    exact (hnothing rfl).resolve_right (fun hdefers => Bool.noConfusion hdefers.1)

end Orcastork
