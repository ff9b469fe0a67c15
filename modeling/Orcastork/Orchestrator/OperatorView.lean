import Orcastork.Orchestrator.ArmedRetries

/-!
# What a step does to one operator

What the loop goes by for one operator is little (`OperatorView`), and within a gather a step does one
of a few things to it: a pass launches it if it is due, its run is recorded, with its retry armed or
its watermark moved, DataPoints are merged, or nothing happens to it (`Gather.Affects`). A gather that
is on its way out launches nothing more.
-/

namespace Orcastork

/-- What the loop goes by for one operator. -/
structure OperatorView where
  /-- What the run under way observed. -/
  running : Option Revision
  armed : Bool
  failed : ℕ
  ran : Bool
  watermark : Option Revision
  prevCaps : Finset CapabilityId
  cap : Option ℤ
  cycles : ℕ

/-- The view of an operator. -/
def OperatorMemory.view (memory : OperatorMemory) (operatorId : OperatorId) : OperatorView where
  running := (memory.running.get? operatorId).map RunningRecord.observedRevision
  armed := memory.retries.isScheduled operatorId
  failed := (memory.failedAttempts.get? operatorId).getD 0
  ran := (memory.runs.get? operatorId).isSome || (memory.watermarks.get? operatorId).isSome
  watermark := memory.watermarks.get? operatorId
  prevCaps := (memory.prevCaps.get? operatorId).getD ∅
  cap := memory.breaker.caps.get? operatorId
  cycles := memory.breaker.runs operatorId

/-- A watermark that is moved is that of one operator. -/
theorem OperatorMemory.view_setWatermark (memory : OperatorMemory) (operatorId other : OperatorId)
    (revision : Revision) :
  ({ memory with watermarks := memory.watermarks.set operatorId revision }).view other
    = if operatorId = other then
        { memory.view other with ran := true, watermark := some revision }
      else
        memory.view other
  := by
  by_cases hsame : operatorId = other
  · rw [if_pos hsame, view, hsame, Dict.get?_set_self, Option.isSome_some, Bool.or_true]
    rfl
  · rw [if_neg hsame, view, Dict.get?_set_of_ne _ hsame]
    rfl

namespace OperatorView

variable (view : OperatorView)

/-- The operator is launched. -/
def launched (available : Finset CapabilityId) (observed : Revision) : OperatorView :=
  { view with running := some observed, armed := false, prevCaps := available }

/-- Its run is recorded. -/
def recorded : OperatorView :=
  { view with running := none, ran := true, cycles := view.cycles + 1 }

/-- Its run is recorded, and its retry armed. -/
def retried : OperatorView := { view.recorded with armed := true, failed := view.failed + 1 }

/-- Its run is recorded, and its watermark moved. -/
def advanced (observed : Revision) : OperatorView :=
  { view.recorded with failed := 0, watermark := some observed }

end OperatorView

namespace Gather

variable {P C O : Type} {services : GatherServices P C O} {gather gather' : Gather O}

/-! ### Launches -/

/-- An operator is launched if it is among some runnables. -/
theorem view_launches {available : Finset CapabilityId} {observed : Revision}
    {runnables : List (Runnable O)} {operatorId : OperatorId}
    (h : ∀ runnable ∈ runnables, services.operatorId runnable.operator = operatorId →
      runnable.isRetry = true ∨ (gather.memory.view operatorId).armed = false) :
  (runnables.foldl (launch services available observed) gather).memory.view operatorId
    = if runnables.any (fun runnable =>
        decide (services.operatorId runnable.operator = operatorId)) then
        (gather.memory.view operatorId).launched available observed
      else
        gather.memory.view operatorId
  := by
  induction runnables generalizing gather with
  | nil => rfl
  | cons runnable runnables ih =>
      obtain ⟨hfirst, hrest⟩ := List.forall_mem_cons.mp h
      have hview : (launch services available observed gather runnable).memory.view operatorId
          = if services.operatorId runnable.operator = operatorId then
              (gather.memory.view operatorId).launched available observed
            else
              gather.memory.view operatorId := by
        by_cases hsame : services.operatorId runnable.operator = operatorId
        · rw [if_pos hsame]
          subst hsame
          have harmed : (launch services available observed gather runnable).memory.retries.isScheduled
              (services.operatorId runnable.operator) = false := by
            rw [launch]
            rcases hfirst rfl with hretry | harmed
            · rw [hretry]
              exact (DebounceController.isScheduled_clear _).trans (by
                rw [decide_eq_false (not_not_intro rfl), Bool.false_and])
            · cases runnable.isRetry with
              | true =>
                  exact (DebounceController.isScheduled_clear _).trans (by
                    rw [decide_eq_false (not_not_intro rfl), Bool.false_and])
              | false => exact harmed
          rw [OperatorMemory.view, harmed, launch, Dict.get?_set_self, Dict.get?_set_self]
          rfl
        · rw [if_neg hsame]
          have harmed : (launch services available observed gather runnable).memory.retries.isScheduled
              operatorId = gather.memory.retries.isScheduled operatorId := by
            rw [launch]
            cases runnable.isRetry with
            | true =>
                exact (DebounceController.isScheduled_clear _).trans (by
                  rw [decide_eq_true hsame, Bool.true_and])
            | false => rfl
          rw [OperatorMemory.view, harmed, launch, Dict.get?_set_of_ne _ hsame,
            Dict.get?_set_of_ne _ hsame]
          rfl
      rw [List.foldl_cons, ih, hview, List.any_cons]
      · by_cases hsame : services.operatorId runnable.operator = operatorId
        · rw [if_pos hsame, decide_eq_true hsame, Bool.true_or, if_pos rfl]
          split
          · rfl
          · rfl
        · rw [if_neg hsame, decide_eq_false hsame, Bool.false_or]
      · intro other hother hsame
        rw [hview]
        split
        · exact Or.inr rfl
        · exact hrest other hother hsame

/-- The launches of some runnables. -/
theorem launches_launches (available : Finset CapabilityId) (observed : Revision)
    (runnables : List (Runnable O)) :
  (runnables.foldl (launch services available observed) gather).launches
    = gather.launches ++ runnables.map (fun runnable =>
        ⟨runnable.operator, runnable.delta, available, runnable.isRetry⟩)
  := by
  rw [launches, tasks_launches, List.map_append, List.map_map]
  rfl

/-! ### Recording -/

/-- How often a failed run of an operator can be tried. -/
def maxAttempts (services : GatherServices P C O) (operatorId : OperatorId) : ℕ :=
  ((retryOf services operatorId).map RetryPolicy.maxAttempts).getD 0

/-- The recording of a run of another operator leaves the view. -/
theorem view_remember_of_ne {completion : Completion} {operatorId : OperatorId}
    (h : completion.operatorId ≠ operatorId) :
  (gather.remember services completion).2.view operatorId = gather.memory.view operatorId
  := by
  have hcycles : (gather.memory.breaker.recordRun completion.operatorId).runs operatorId
      = gather.memory.breaker.runs operatorId := by
    rw [CircuitBreaker.runs_recordRun, if_neg h, Nat.add_zero]
  have hrunning : (gather.memory.running.erase completion.operatorId).get? operatorId
      = gather.memory.running.get? operatorId := by
    rw [Dict.get?_erase, if_neg h]
  rcases remember_cases completion with hremember | ⟨policy, -, -, -, -, hremember⟩
  · rw [hremember, countRun, OperatorMemory.view]
    simp only [hcycles, hrunning, Dict.get?_erase, Dict.get?_set, if_neg h]
    rfl
  · rw [hremember, countRun, OperatorMemory.view]
    simp only [hcycles, hrunning, Dict.get?_set, if_neg h,
      DebounceController.isScheduled_schedule, decide_eq_false h, Bool.false_or]
    rfl

/-- The recording of a run of the operator itself. -/
theorem view_remember (completion : Completion) :
  (gather.remember services completion).1 = false
      ∧ (gather.remember services completion).2.view completion.operatorId
        = { (gather.memory.view completion.operatorId).recorded with failed := 0 }
    ∨ (gather.remember services completion).1 = true
      ∧ (gather.memory.view completion.operatorId).failed + 1
        < maxAttempts services completion.operatorId
      ∧ (gather.remember services completion).2.view completion.operatorId
        = (gather.memory.view completion.operatorId).retried
  := by
  have hcycles : (gather.memory.breaker.recordRun completion.operatorId).runs completion.operatorId
      = gather.memory.breaker.runs completion.operatorId + 1 := by
    rw [CircuitBreaker.runs_recordRun, if_pos rfl]
  rcases @remember_cases P C O services gather completion with
    hremember | ⟨policy, hpolicy, -, -, hattempts, hremember⟩
  · left
    rw [hremember]
    use rfl
    simp only [countRun, OperatorMemory.view, OperatorView.recorded, hcycles, Dict.get?_erase,
      Dict.get?_set_self, if_pos]
    rfl
  · right
    rw [hremember, maxAttempts, hpolicy]
    refine ⟨rfl, hattempts, ?_⟩
    simp only [countRun, OperatorMemory.view, OperatorView.retried, OperatorView.recorded, hcycles,
      Dict.get?_erase, Dict.get?_set_self, if_pos, DebounceController.isScheduled_schedule,
      decide_true, Bool.true_or]
    rfl

/-! ### Merges -/

/-- The entries are as they were, or some DataPoints were written. -/
def Wrote (store store' : SessionState) (dataPoints : List BaseDataPoint) : Prop :=
  store' = store ∨ ∃ epoch revision, store.write dataPoints epoch = .ok (revision, store')

/-- The loop is on its way out. -/
def Leaving (gather : Gather O) : Prop := gather.phase.exit?.isSome = true

section Merges

variable {merging : MergeServices} {call : MergeCall} {state state' : MergeState}

theorem wrote_write (h : Agrees state.mirror state.store) {dataPoints : List BaseDataPoint}
    {result : Except OrchestrationError MirrorWriteResult}
    (hwrite : state.write call dataPoints = (result, state')) :
  Wrote state.store state'.store dataPoints
  := by
  cases result with
  | error error =>
      left
      rw [MergeState.write_eq_error h hwrite]
  | ok result =>
      obtain ⟨⟨revision, hstore⟩, -, -, -⟩ := MergeState.write_eq_ok h hwrite
      exact Or.inr ⟨call.epoch, revision, hstore⟩

/-- A merge writes its DataPoints, or nothing. -/
theorem wrote_mergeEmissions (h : Agrees state.mirror state.store) {emitted : List Emitted}
    {result : Except OrchestrationError Unit}
    (hmerge : state.mergeEmissions merging call emitted = (result, state')) :
  Wrote state.store state'.store (emitted.map Emitted.dataPoint)
  := by
  rw [MergeState.mergeEmissions] at hmerge
  split at hmerge
  · obtain ⟨-, rfl⟩ := Prod.mk.inj hmerge
    exact Or.inl rfl
  · split at hmerge
    · rename_i error written hwrite
      obtain ⟨-, rfl⟩ := Prod.mk.inj hmerge
      exact wrote_write h hwrite
    · rename_i outcome written hwrite
      have hframe := (@MergeState.mergeBookkeeping_frame merging call written emitted outcome.outcomes).2
      rw [hmerge] at hframe
      rw [hframe]
      exact wrote_write h hwrite

/-- An inbox batch writes its DataPoints, or nothing. -/
theorem wrote_applyInboxDataPoints (h : Agrees state.mirror state.store)
    {dataPoints : List BaseDataPoint} {result : Except OrchestrationError Unit}
    (hmerge : state.applyInboxDataPoints merging call dataPoints = (result, state')) :
  Wrote state.store state'.store dataPoints
  := by
  have hsame : (dataPoints.map (fun dp => (⟨none, dp⟩ : Emitted))).map Emitted.dataPoint
      = dataPoints := by
    rw [List.map_map]
    exact List.map_id dataPoints
  rw [MergeState.applyInboxDataPoints] at hmerge
  simp only [hsame] at hmerge
  split at hmerge
  · rename_i error written hwrite
    obtain ⟨-, rfl⟩ := Prod.mk.inj hmerge
    exact wrote_write h hwrite
  · rename_i outcome written hwrite
    have hframe := (@MergeState.mergeBookkeeping_frame merging call written
      (dataPoints.map (fun dp => (⟨none, dp⟩ : Emitted))) outcome.outcomes).2
    have hbooked : state'.store = written.store := by
      split at hmerge
      · rename_i booked hbook
        rw [hbook] at hframe
        obtain ⟨-, rfl⟩ := Prod.mk.inj hmerge
        exact hframe
      · rename_i error booked hbook
        rw [hbook] at hframe
        split at hmerge
        · obtain ⟨-, rfl⟩ := Prod.mk.inj hmerge
          exact hframe
        · obtain ⟨-, rfl⟩ := Prod.mk.inj hmerge
          exact hframe
    rw [hbooked]
    exact wrote_write h hwrite

end Merges

/-! ### Steps -/

/-- What an action brings from outside. -/
def delivered : GatherAction → List BaseDataPoint
  | .seed _ _ dataPoints => dataPoints
  | .deliver _ _ dataPoints => dataPoints
  | _ => []

/-- The types of the DataPoints on their way to a merge. -/
def upcoming (gather : Gather O) : List DataPointType :=
  (gather.phase.inHand ++ emissions gather.queue).map (fun queued => queued.finalized.type)

/-- What is normalized keeps its type. -/
theorem types_normalizeAll {batch : List QueuedEmission} {emitted : List Emitted}
    (h : normalizeAll batch = .ok emitted) :
  batch.map (fun queued => queued.finalized.type)
    = (emitted.map Emitted.dataPoint).map BaseDataPoint.type
  := by
  have hnormalized := forall₂_of_normalizeAll h
  induction hnormalized with
  | nil => rfl
  | @cons queued emitted batch emitteds hfirst hrest ih =>
      have htype : queued.finalized.type = emitted.dataPoint.type := by
        rw [QueuedEmission.normalize, FinalizedDataPoint.normalize] at hfirst
        split at hfirst
        · cases hfirst
        · rename_i dataPoint hdataPoint
          cases hfirst
          split at hdataPoint
          · cases hdataPoint
          · cases hdataPoint
            rfl
      rw [List.map_cons, List.map_cons, List.map_cons, htype]
      congr 1
      apply ih
      rw [normalizeAll, hfirst] at h
      simp only at h
      split at h
      · cases h
      · rename_i rest hrest'
        cases h
        exact hrest'

/-- A finalized DataPoint is of the type that was emitted. -/
theorem type_finalize {emission : DataPointEmission} {operatorId : OperatorId} {at' : Timestamp}
    {finalized : FinalizedDataPoint}
    (h : emission.finalize services.validate operatorId at' = .ok finalized) :
  finalized.type = emission.leafType
  := by
  rw [DataPointEmission.finalize] at h
  split at h
  · cases h
  · cases h
    rfl

section Steps

variable [DecidableEq P] [DecidableEq C]

/-- What a step within a gather does to an operator, and to what is on its way to a merge. -/
inductive Affects (services : GatherServices P C O) (operator : O) (gather : Gather O)
    (action : GatherAction) (gather' : Gather O) : Prop where
  | stays
      (hview : gather'.memory.view (services.operatorId operator)
        = gather.memory.view (services.operatorId operator))
      (hlaunches : gather'.launches = gather.launches)
      (hentries : gather'.state.store.entries = gather.state.store.entries)
      (hupcoming : gather'.upcoming = gather.upcoming)
  | emits {i : ℕ} {emission : DataPointEmission} {at' : Timestamp}
      (haction : action = .emit i emission at')
      (hview : gather'.memory.view (services.operatorId operator)
        = gather.memory.view (services.operatorId operator))
      (hlaunches : gather'.launches = gather.launches)
      (hentries : gather'.state.store.entries = gather.state.store.entries)
      (hupcoming : gather'.upcoming = gather.upcoming ++ [emission.leafType])
  | merges {dataPoints : List BaseDataPoint}
      (hview : gather'.memory.view (services.operatorId operator)
        = gather.memory.view (services.operatorId operator))
      (hlaunches : gather'.launches = gather.launches)
      (hwrote : Wrote gather.state.store gather'.state.store dataPoints)
      (hupcoming : gather.upcoming = dataPoints.map BaseDataPoint.type ++ gather'.upcoming)
  | delivers
      (hview : gather'.memory.view (services.operatorId operator)
        = gather.memory.view (services.operatorId operator))
      (hlaunches : gather'.launches = gather.launches)
      (hwrote : Wrote gather.state.store gather'.state.store (delivered action))
      (hupcoming : gather'.upcoming = gather.upcoming)
  | passes {available : Finset CapabilityId} {plan : GatherPlan O}
      (haction : action = .refresh available none)
      (hplan : services.plan gather.state.mirror gather.memory gather.state.store.snapshot available
        gather.now = .ok plan)
      (hview : gather'.memory.view (services.operatorId operator)
        = if services.isDue gather.state.mirror gather.memory gather.state.store.snapshot available
            gather.now operator then
            (gather.memory.view (services.operatorId operator)).launched available
              gather.state.store.revision
          else
            gather.memory.view (services.operatorId operator))
      (hlaunches : gather'.launches = gather.launches ++ plan.runnable.map (fun runnable =>
        ⟨runnable.operator, runnable.delta, available, runnable.isRetry⟩))
      (hentries : gather'.state.store.entries = gather.state.store.entries)
      (hupcoming : gather'.upcoming = gather.upcoming)
  | retried {observed : Revision}
      (hrunning : (gather.memory.view (services.operatorId operator)).running = some observed)
      (hattempts : (gather.memory.view (services.operatorId operator)).failed + 1
        < maxAttempts services (services.operatorId operator))
      (hview : gather'.memory.view (services.operatorId operator)
        = (gather.memory.view (services.operatorId operator)).retried)
      (hlaunches : gather'.launches = gather.launches)
      (hentries : gather'.state.store.entries = gather.state.store.entries)
      (hupcoming : gather'.upcoming = gather.upcoming)
  | advanced {observed : Revision}
      (hrunning : (gather.memory.view (services.operatorId operator)).running = some observed)
      (hview : gather'.memory.view (services.operatorId operator)
        = (gather.memory.view (services.operatorId operator)).advanced observed)
      (hlaunches : gather'.launches = gather.launches)
      (hentries : gather'.state.store.entries = gather.state.store.entries)
      (hupcoming : gather'.upcoming = gather.upcoming)

/-- How the recording of a completion goes for an operator. -/
theorem Records.affects {operator : O} {now : Timestamp} {faults : RecordFaults}
    {completion : Completion} {rest : List Completion} {action : GatherAction}
    (hphase : gather.phase.inHand = [])
    (h : Records services gather now faults completion (.ok ()) gather') :
  Affects services operator gather action (gather'.recordRest rest)
  := by
  have hupcoming : ∀ phase : GatherPhase, phase.inHand = [] →
      (phase.inHand ++ emissions gather.queue).map (fun queued => queued.finalized.type)
        = gather.upcoming := by
    intro phase hempty
    rw [upcoming, hphase, hempty]
  have hrest : GatherPhase.inHand (if rest.isEmpty then .head else .recording rest) = [] := by
    split
    · rfl
    · rfl
  by_cases hsame : completion.operatorId = services.operatorId operator
  · cases h with
    | @retried record audit hrunning hretrying happend =>
        rcases view_remember completion with ⟨hnot, -⟩ | ⟨-, hattempts, hview⟩
        · rw [hretrying] at hnot
          cases hnot
        · rw [hsame] at hrunning hattempts hview
          have hobserved : (gather.memory.view (services.operatorId operator)).running
              = some record.observedRevision := by
            rw [OperatorMemory.view, hrunning]
            rfl
          exact .retried hobserved hattempts hview rfl rfl (hupcoming _ hrest)
    | @advanced record audit store hrunning hretrying happend hstore =>
        rcases view_remember completion with ⟨-, hview⟩ | ⟨hnot, -, -⟩
        · rw [hsame] at hrunning hview
          have hobserved : (gather.memory.view (services.operatorId operator)).running
              = some record.observedRevision := by
            rw [OperatorMemory.view, hrunning]
            rfl
          refine .advanced hobserved ?_ rfl ?_ (hupcoming _ hrest)
          · rw [recordRest, hsame, OperatorMemory.view_setWatermark, if_pos rfl, hview]
            rfl
          · rw [recordRest, SessionState.setWatermark_eq_ok hstore]
        · rw [hretrying] at hnot
          cases hnot
  · have hview := @view_remember_of_ne P C O services gather completion _ hsame
    cases h with
    | retried hrunning hretrying happend => exact .stays hview rfl rfl (hupcoming _ hrest)
    | advanced hrunning hretrying happend hstore =>
        refine .stays ?_ rfl ?_ (hupcoming _ hrest)
        · rw [recordRest, OperatorMemory.view_setWatermark, if_neg hsame]
          exact hview
        · rw [recordRest, SessionState.setWatermark_eq_ok hstore]

/-- A plan launches an operator if it is due. -/
theorem any_runnable {mirror : SessionStateMirror} {memory : OperatorMemory} {view : DataPointView}
    {available : Finset CapabilityId} {now : Monotonic} {plan : GatherPlan O} {operator : O}
    (hplan : services.plan mirror memory view available now = .ok plan)
    (hgathers : operator ∈ services.gathering) :
  plan.runnable.any (fun runnable =>
      decide (services.operatorId runnable.operator = services.operatorId operator))
    = services.isDue mirror memory view available now operator
  := by
  rw [Bool.eq_iff_iff, List.any_eq_true]
  have hrunnable := GatherServices.runnable_eq_filter hplan
  constructor
  · rintro ⟨runnable, hmem, hsame⟩
    rw [decide_eq_true_eq] at hsame
    obtain rfl := services.classes.operatorId_injective hsame
    have hfiltered := List.mem_map_of_mem (f := Runnable.operator) hmem
    rw [hrunnable] at hfiltered
    exact (List.mem_filter.mp hfiltered).2
  · intro hdue
    have hfiltered : operator ∈ plan.runnable.map Runnable.operator := by
      rw [hrunnable]
      exact List.mem_filter.mpr ⟨hgathers, hdue⟩
    obtain ⟨runnable, hmem, rfl⟩ := List.mem_map.mp hfiltered
    exact ⟨runnable, hmem, decide_eq_true rfl⟩

/-- What a pass does to an operator. -/
theorem affects_passed {operator : O} {available : Finset CapabilityId} {plan : GatherPlan O}
    {phase : GatherPhase} (hgathers : operator ∈ services.gathering)
    (hbefore : gather.phase.inHand = []) (hafter : phase.inHand = [])
    (hplan : services.plan gather.state.mirror gather.memory gather.state.store.snapshot available
      gather.now = .ok plan) :
  Affects services operator gather (.refresh available none)
    { gather.launchAll services available gather.state.store.revision plan with phase := phase }
  := by
  obtain ⟨hstate, hqueue, -, -, -, -, -, -⟩ :=
    @launchAll_frame P C O services gather available gather.state.store.revision plan
  refine .passes rfl hplan ?_ ?_ ?_ ?_
  · have hretry : ∀ runnable ∈ plan.runnable,
        services.operatorId runnable.operator = services.operatorId operator →
        runnable.isRetry = true
          ∨ (gather.memory.view (services.operatorId operator)).armed = false := by
      intro runnable hrunnable hsame
      have hflag := ((GatherServices.plan_runnable hplan).2 runnable hrunnable).retry
      rw [hsame] at hflag
      rw [hflag]
      exact Bool.eq_false_or_eq_true _
    rw [← any_runnable hplan hgathers]
    exact @view_launches P C O services
      { gather with memory := { gather.memory with debounce := plan.debounce } } available
      gather.state.store.revision plan.runnable (services.operatorId operator) hretry
  · exact launches_launches _ _ _
  · rw [hstate]
  · rw [upcoming, upcoming, hbefore, hafter, hqueue]

/-! ### On the way out -/

omit [DecidableEq P] [DecidableEq C] in
/-- A phase of the loop is not one on the way out. -/
theorem Leaving.elim (h : gather.Leaving) {phase : GatherPhase} (hphase : gather.phase = phase)
    (hexit : phase.exit? = none) :
  False
  := by
  rw [Leaving, hphase, hexit] at h
  cases h

omit [DecidableEq P] [DecidableEq C] in
/-- Behind a gather, it is on its way out. -/
theorem leaving_of_aggregates (h : gather.phase.aggregates = true) :
  gather.Leaving
  := by
  rw [Leaving]
  revert h
  cases gather.phase with
  | ended exit => exact fun _ => rfl
  | _ => exact nofun

/-- A gather that is on its way out launches nothing more, and does not come back. -/
theorem Leaving.step (h : gather.Leaving) {action : GatherAction}
    (hwithin : ∀ deadline, action ≠ .begin' deadline)
    (hstep : Steps services gather action gather') :
  gather'.Leaving ∧ gather'.launches = gather.launches
  := by
  cases hstep with
  | elapse span => exact ⟨h, rfl⟩
  | audit _ _ => exact ⟨h, rfl⟩
  | stopped _ htask _ => exact ⟨h, launches_setStatus _ htask⟩
  | emitted _ _ _ _ => exact ⟨h, rfl⟩
  | completed htask _ _ => exact ⟨h, launches_setStatus .finished htask⟩
  | vanished htask _ => exact ⟨h, launches_setStatus _ htask⟩
  | cancelled htask _ _ => exact ⟨h, launches_setStatus _ htask⟩
  | seeded hphase _ => exact (h.elim hphase rfl).elim
  | seedRaised hphase _ => exact (h.elim hphase rfl).elim
  | begun _ _ => exact absurd rfl (hwithin _)
  | beginRaised _ _ => exact absurd rfl (hwithin _)
  | delivered hphase _ => exact (h.elim hphase rfl).elim
  | deliverRaised hphase _ => exact (h.elim hphase rfl).elim
  | passed hphase _ _ _ => exact (h.elim hphase rfl).elim
  | passRaised hphase _ => exact (h.elim hphase rfl).elim
  | taken hphase => exact (h.elim hphase rfl).elim
  | merged hphase _ _ => exact (h.elim hphase rfl).elim
  | mergeRaised hphase _ => exact (h.elim hphase rfl).elim
  | recorded hphase _ => exact (h.elim hphase rfl).elim
  | recordRaised hphase _ => exact (h.elim hphase rfl).elim
  | drained _ _ _ =>
      refine ⟨?_, rfl⟩
      rw [Leaving]
      split
      · rfl
      · rfl
  | drainedAgain _ _ _ => exact ⟨rfl, rfl⟩
  | drainRaised _ _ => exact ⟨rfl, rfl⟩
  | moved hmoves =>
      refine ⟨?_, rfl⟩
      cases hmoves with
      | renewed hphase _ => exact (h.elim hphase rfl).elim
      | expired _ _ => rfl
      | drained hphase => exact (h.elim hphase rfl).elim
      | woken hphase _ => exact (h.elim hphase rfl).elim
      | waited hphase => exact (h.elim hphase rfl).elim
      | parked _ _ => rfl
      | awaited _ _ => rfl
      | raised _ _ => rfl
  | disposed _ _ => exact ⟨h, rfl⟩
  | contributed _ _ => exact ⟨h, rfl⟩

/-- A step within a gather launches what its pass has planned, or nothing. -/
theorem launches_of_steps {action : GatherAction} (hwithin : ∀ deadline, action ≠ .begin' deadline)
    (hstep : Steps services gather action gather') :
  gather'.launches = gather.launches
    ∨ ∃ available view plan,
      services.plan gather.state.mirror gather.memory view available gather.now = .ok plan
        ∧ gather'.launches = gather.launches ++ plan.runnable.map (fun runnable =>
          ⟨runnable.operator, runnable.delta, available, runnable.isRetry⟩)
  := by
  cases hstep with
  | stopped _ htask _ => exact Or.inl (launches_setStatus _ htask)
  | completed htask _ _ => exact Or.inl (launches_setStatus .finished htask)
  | vanished htask _ => exact Or.inl (launches_setStatus _ htask)
  | cancelled htask _ _ => exact Or.inl (launches_setStatus _ htask)
  | begun _ _ => exact absurd rfl (hwithin _)
  | passed _ _ _ hplan => exact Or.inr ⟨_, _, _, hplan, launches_launches _ _ _⟩
  | recorded _ hrecords =>
      left
      cases hrecords with
      | retried _ _ _ => rfl
      | advanced _ _ _ _ => rfl
  | recordRaised _ hrecords =>
      left
      cases hrecords with
      | unknown _ => rfl
      | auditRaised _ _ => rfl
      | watermarkRaised _ _ _ => rfl
  | _ => exact Or.inl rfl

/-- What a step within a gather does to an operator of it, unless the gather is on its way out. -/
theorem affects_of_steps {operator : O} (hgathers : operator ∈ services.gathering)
    (hagrees : Agrees gather.state.mirror gather.state.store) {action : GatherAction}
    (hwithin : ∀ deadline, action ≠ .begin' deadline) (hstays : ¬gather.Leaving)
    (hstep : Steps services gather action gather') :
  gather'.Leaving ∧ gather'.launches = gather.launches
    ∨ Affects services operator gather action gather'
  := by
  cases hstep with
  | elapse span => exact Or.inr (.stays rfl rfl rfl rfl)
  | audit _ _ => exact Or.inr (.stays rfl rfl rfl rfl)
  | stopped _ htask _ => exact Or.inr (.stays rfl (launches_setStatus _ htask) rfl rfl)
  | @emitted i task emission at' finalized _ _ hfinalized _ =>
      right
      refine .emits rfl rfl rfl rfl ?_
      rw [upcoming, enqueue, emissions_append, ← List.append_assoc, List.map_append]
      rw [← type_finalize hfinalized]
      rfl
  | completed htask _ _ =>
      right
      refine .stays rfl (launches_setStatus .finished htask) rfl ?_
      rw [upcoming, enqueue, emissions_append, emissions, emissions, List.append_nil]
      rfl
  | vanished htask _ => exact Or.inr (.stays rfl (launches_setStatus _ htask) rfl rfl)
  | cancelled htask _ _ => exact Or.inr (.stays rfl (launches_setStatus _ htask) rfl rfl)
  | @seeded now faults dataPoints state _ hmerge =>
      right
      have hwrote := wrote_mergeEmissions hagrees hmerge
      rw [List.map_map] at hwrote
      refine .delivers rfl rfl ?_ rfl
      rw [delivered, ← List.map_id dataPoints]
      exact hwrote
  | seedRaised _ _ => exact Or.inl ⟨rfl, rfl⟩
  | begun _ _ => exact absurd rfl (hwithin _)
  | beginRaised _ _ => exact absurd rfl (hwithin _)
  | delivered _ hmerge =>
      exact Or.inr (.delivers rfl rfl (wrote_applyInboxDataPoints hagrees hmerge) rfl)
  | deliverRaised _ _ => exact Or.inl ⟨rfl, rfl⟩
  | passed hphase hview hobserved hplan =>
      rw [hagrees.snapshot] at hview
      rw [hagrees.getRevision] at hobserved
      cases hview
      cases hobserved
      right
      apply affects_passed hgathers _ (emptyHanded_nextPhase _ _).inHand hplan
      rw [hphase]
      rfl
  | passRaised _ _ => exact Or.inl ⟨rfl, rfl⟩
  | taken hphase =>
      right
      refine .stays rfl rfl rfl ?_
      rw [upcoming, upcoming, hphase]
      simp only [GatherPhase.inHand, emissions, List.nil_append, List.append_nil]
  | @merged now faults batch emitted state hphase hnormalized hmerge =>
      right
      refine .merges rfl rfl (wrote_mergeEmissions hagrees hmerge) ?_
      rw [upcoming, hphase, List.map_append, GatherPhase.inHand, types_normalizeAll hnormalized,
        upcoming, recordRest]
      split
      · rfl
      · rfl
  | mergeRaised _ _ => exact Or.inl ⟨rfl, rfl⟩
  | recorded hphase hrecords =>
      right
      apply hrecords.affects
      rw [hphase]
      rfl
  | recordRaised _ hrecords =>
      left
      refine ⟨rfl, ?_⟩
      cases hrecords with
      | unknown _ => rfl
      | auditRaised _ _ => rfl
      | watermarkRaised _ _ _ => rfl
  | drained hphase _ _ =>
      apply absurd _ hstays
      rw [Leaving, hphase]
      rfl
  | drainedAgain hphase _ _ =>
      apply absurd _ hstays
      rw [Leaving, hphase]
      rfl
  | drainRaised _ _ => exact Or.inl ⟨rfl, rfl⟩
  | moved hmoves =>
      right
      obtain ⟨hbefore, hafter⟩ := hmoves.emptyHanded
      refine .stays rfl rfl rfl ?_
      rw [upcoming, upcoming, hbefore.inHand, hafter.inHand]
  | disposed hphase _ => exact absurd (leaving_of_aggregates hphase) hstays
  | contributed hphase _ => exact absurd (leaving_of_aggregates hphase) hstays

end Steps

end Gather

end Orcastork
