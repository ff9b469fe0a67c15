import Orcastork.Orchestrator.Completions

/-!
# What a retry is given

A failed run that will be retried keeps its watermark, and the capabilities it was launched with
are remembered. So when its retry is launched, the delta still has every DataPoint of the failed
one, whatever was merged in between; but the capabilities that were new to the failed run are not
new any more (`retry_presents_again_iff`).
-/

namespace Orcastork

/-- What an operator is launched with. -/
structure OperatorLaunch (O : Type) where
  operator : O
  delta : InvocationDelta
  available : Finset CapabilityId
  isRetry : Bool

/-- The launch of a task. -/
def OperatorTask.launch {O : Type} (task : OperatorTask O) : OperatorLaunch O :=
  ⟨task.operator, task.delta, task.available, task.isRetry⟩

/-- A retry is given what the failed run was given: its DataPoints, as they were or observed later,
and the capabilities that were new to it. -/
structure PresentsAgain (failed retried : InvocationDelta) : Prop where
  added : ∀ dataPoint ∈ failed.added, Shows retried.added dataPoint
  updated : ∀ dataPoint ∈ failed.updated,
    Shows retried.added dataPoint ∨ Shows retried.updated dataPoint
  newlyAvailableCaps : failed.newlyAvailableCaps ⊆ retried.newlyAvailableCaps
  isFirstInvocation : retried.isFirstInvocation = failed.isFirstInvocation

/-- The last of some runs that is of an operator. -/
def lastRun (operatorId : OperatorId) (recorded : List RecordedRun) : Option RecordedRun :=
  (recorded.filter (fun run => decide (run.completion.operatorId = operatorId))).getLast?

/-- The last item of a kind, once another item is put last. -/
theorem getLast?_filter_append {α : Type} (p : α → Bool) (items : List α) (item : α) :
  ((items ++ [item]).filter p).getLast? = if p item then some item else (items.filter p).getLast?
  := by
  rw [List.filter_append]
  cases hp : p item with
  | true => rw [List.filter_cons_of_pos hp, List.filter_nil, if_pos rfl, List.getLast?_concat]
  | false =>
      rw [List.filter_cons_of_neg (by rw [hp]; exact nofun), List.filter_nil, List.append_nil,
        if_neg (by exact nofun)]

theorem lastRun_append (operatorId : OperatorId) (recorded : List RecordedRun) (run : RecordedRun) :
  lastRun operatorId (recorded ++ [run])
    = if run.completion.operatorId = operatorId then some run else lastRun operatorId recorded
  := by
  rw [lastRun, getLast?_filter_append]
  simp only [decide_eq_true_eq]
  rfl

/-- The delta of the same entries has the same DataPoints. -/
theorem within_of_entries {store store' : SessionState} (h : store'.entries = store.entries)
    (watermark : Option Revision)
    (availableCaps previousCaps availableCaps' previousCaps' : Finset CapabilityId) :
  (storeDelta store watermark availableCaps previousCaps).Within
    (storeDelta store' watermark availableCaps' previousCaps')
  := by
  apply within_storeDelta
  intro key old hget
  rw [h]
  exact ⟨old, hget, rfl, le_refl _, rfl, le_refl _⟩

/-- What is new to a run is available to it. -/
theorem newlyAvailableCaps_storeDelta (store : SessionState) (watermark : Option Revision)
    (availableCaps previousCaps : Finset CapabilityId) :
  (storeDelta store watermark availableCaps previousCaps).newlyAvailableCaps
    = availableCaps \ previousCaps
  := by
  cases watermark with
  | none => rfl
  | some since => rfl

namespace Gather

variable {P C O : Type} (services : GatherServices P C O)

/-- The launches of a gather, in order. -/
def launches (gather : Gather O) : List (OperatorLaunch O) := gather.tasks.map OperatorTask.launch

/-- The last of some launches that is of an operator. -/
def lastLaunch (operatorId : OperatorId) (launches : List (OperatorLaunch O)) :
    Option (OperatorLaunch O) :=
  (launches.filter (fun launched =>
    decide (services.operatorId launched.operator = operatorId))).getLast?

/-- A launch is remembered: the capabilities it had are the previous ones, and the delta since the
watermark has its DataPoints. -/
structure Covered (state : MergeState) (memory : OperatorMemory)
    (launches : List (OperatorLaunch O)) (operatorId : OperatorId)
    (launched : OperatorLaunch O) : Prop where
  last : lastLaunch services operatorId launches = some launched
  prevCaps : memory.prevCaps.get? operatorId = some launched.available
  newlyAvailableCaps : launched.delta.newlyAvailableCaps ⊆ launched.available
  within : launched.delta.Within
    (storeDelta state.store (memory.watermarks.get? operatorId) ∅ ∅)

/-- The launch of an operator is remembered as long as it runs or its retry is armed; and a retry
is armed by the failure of the last run, while the operator does not run. -/
structure Remembers (state : MergeState) (memory : OperatorMemory)
    (launches : List (OperatorLaunch O)) (recorded : List RecordedRun) : Prop where
  agrees : Agrees state.mirror state.store
  apart : ∀ {operatorId}, memory.retries.isScheduled operatorId = true →
    memory.running.get? operatorId = none
  covered : ∀ {operatorId}, (memory.running.get? operatorId).isSome = true
      ∨ memory.retries.isScheduled operatorId = true →
    ∃ launched, Covered services state memory launches operatorId launched
  armed : ∀ {operatorId}, memory.retries.isScheduled operatorId = true →
    ∃ run, lastRun operatorId recorded = some run ∧ run.completion.error.isSome = true
      ∧ run.advancedTo = none

variable {services} {gather gather' : Gather O}

theorem lastLaunch_append (operatorId : OperatorId) (launches : List (OperatorLaunch O))
    (launched : OperatorLaunch O) :
  lastLaunch services operatorId (launches ++ [launched])
    = if services.operatorId launched.operator = operatorId then some launched
      else lastLaunch services operatorId launches
  := by
  rw [lastLaunch, getLast?_filter_append]
  simp only [decide_eq_true_eq]
  rfl

/-- A task that gets on is the same launch. -/
theorem launches_setStatus {i : ℕ} {task : OperatorTask O} (status : TaskStatus)
    (htask : gather.tasks[i]? = some task) :
  (gather.setStatus i task status).launches = gather.launches
  := by
  rw [launches, setStatus, List.map_set, launches]
  apply List.ext_getElem?
  intro j
  rw [List.getElem?_set]
  split
  · rename_i hij
    obtain ⟨hlt, -⟩ := List.getElem?_eq_some_iff.mp htask
    rw [if_pos (by rwa [List.length_map]), ← hij, List.getElem?_map, htask]
    rfl
  · rfl

/-! ### What is remembered of a recorded run -/

theorem prevCaps_remember (completion : Completion) :
  (gather.remember services completion).2.prevCaps = gather.memory.prevCaps
  := by
  rcases remember_cases completion with h | ⟨policy, -, -, -, -, h⟩ <;>
  · rw [h]
    rfl

/-- A run that is not retried arms nothing. -/
theorem retries_remember_of_not {completion : Completion}
    (h : (gather.remember services completion).1 = false) :
  (gather.remember services completion).2.retries = gather.memory.retries
  := by
  rcases @remember_cases P C O services gather completion with
    hremember | ⟨policy, -, -, -, -, hremember⟩
  · rw [hremember]
    rfl
  · rw [hremember] at h
    cases h

/-- A run that is retried failed, and its retry is armed beside those that were. -/
theorem retries_remember_of_retrying {completion : Completion}
    (h : (gather.remember services completion).1 = true) :
  completion.error.isSome = true
    ∧ ∀ other, (gather.remember services completion).2.retries.isScheduled other = true →
      completion.operatorId = other ∨ gather.memory.retries.isScheduled other = true
  := by
  constructor
  · rcases @remember_cases P C O services gather completion with
      hremember | ⟨policy, -, hfailed, -⟩
    · rw [hremember] at h
      cases h
    · apply hfailed
  · intro other hother
    rw [isScheduled_retries_remember, h, Bool.true_and, Bool.or_eq_true,
      decide_eq_true_eq] at hother
    apply hother

/-! ### Steps -/

/-- What the register holds is as it was, but for the collected run. -/
theorem running_of_erase {running : Dict OperatorId RunningRecord} {operatorId other : OperatorId}
    (h : ((running.erase operatorId).get? other).isSome = true) :
  operatorId ≠ other ∧ (running.get? other).isSome = true
  := by
  rw [Dict.get?_erase] at h
  split at h
  · cases h
  · rename_i hne
    exact ⟨hne, h⟩

namespace Remembers

/-- A merge leaves what is remembered. -/
theorem grows {state state' : MergeState} {memory : OperatorMemory}
    {launches : List (OperatorLaunch O)} {recorded : List RecordedRun}
    (h : Remembers services state memory launches recorded) {epoch : Epoch}
    (hgrows : state.Grows epoch state') :
  Remembers services state' memory launches recorded
  := by
  refine ⟨hgrows.agrees, h.apart, ?_, h.armed⟩
  intro operatorId hremembered
  obtain ⟨launched, hlast, hprevCaps, hcaps, hwithin⟩ := h.covered hremembered
  refine ⟨launched, hlast, hprevCaps, hcaps, hwithin.trans ?_⟩
  rcases hgrows.written with hsame | ⟨batch, revision, hwrite⟩
  · rw [hsame]
    exact .refl _
  · exact within_write h.agrees.wellFormed hwrite _ _ _ _ _

/-- A recorded run is remembered as long as its retry is armed. -/
theorem records (h : Remembers services gather.state gather.memory gather.launches gather.recorded)
    {now : Timestamp} {faults : RecordFaults} {completion : Completion}
    (hrecords : Records services gather now faults completion (.ok ()) gather') :
  Remembers services gather'.state gather'.memory gather'.launches gather'.recorded
  := by
  cases hrecords with
  | @retried record audit hrunning hretrying _ =>
      obtain ⟨hfailed, hscheduled⟩ := retries_remember_of_retrying hretrying
      refine ⟨h.agrees, ?_, ?_, ?_⟩
      · intro operatorId harmed
        rw [running_remember, Dict.get?_erase]
        split
        · rfl
        · rename_i hne
          exact h.apart ((hscheduled operatorId harmed).resolve_left hne)
      · intro operatorId hremembered
        have hbefore : (gather.memory.running.get? operatorId).isSome = true
            ∨ gather.memory.retries.isScheduled operatorId = true := by
          rcases hremembered with hruns | harmed
          · rw [running_remember] at hruns
            exact Or.inl (running_of_erase hruns).2
          · rcases hscheduled operatorId harmed with hsame | harmed
            · rw [← hsame, hrunning]
              exact Or.inl rfl
            · exact Or.inr harmed
        obtain ⟨launched, hlast, hprevCaps, hcaps, hwithin⟩ := h.covered hbefore
        refine ⟨launched, hlast, ?_, hcaps, ?_⟩
        · rw [prevCaps_remember]
          exact hprevCaps
        · rw [InStep.watermarks_remember]
          exact hwithin
      · intro operatorId harmed
        rw [lastRun_append]
        split
        · exact ⟨_, rfl, hfailed, advancedTo_of_retrying record hretrying⟩
        · rename_i hne
          exact h.armed ((hscheduled operatorId harmed).resolve_left hne)
  | @advanced record audit store hrunning hretrying _ hstore =>
      have hretries := retries_remember_of_not hretrying
      -- The run was under way, so its retry is not armed.
      have hother : ∀ {operatorId}, gather.memory.retries.isScheduled operatorId = true →
          completion.operatorId ≠ operatorId := by
        rintro operatorId harmed rfl
        rw [h.apart harmed] at hrunning
        cases hrunning
      have hentries : store.entries = gather.state.store.entries := by
        rw [SessionState.setWatermark_eq_ok hstore]
      refine ⟨?_, ?_, ?_, ?_⟩
      · apply h.agrees.congr hentries
        rw [SessionState.setWatermark_eq_ok hstore]
      · intro operatorId harmed
        simp only [hretries] at harmed
        simp only [running_remember]
        rw [Dict.get?_erase, if_neg (hother harmed)]
        exact h.apart harmed
      · intro operatorId hremembered
        simp only [running_remember, hretries] at hremembered
        have hbefore : completion.operatorId ≠ operatorId
            ∧ ((gather.memory.running.get? operatorId).isSome = true
              ∨ gather.memory.retries.isScheduled operatorId = true) := by
          rcases hremembered with hruns | harmed
          · obtain ⟨hne, hruns⟩ := running_of_erase hruns
            exact ⟨hne, Or.inl hruns⟩
          · exact ⟨hother harmed, Or.inr harmed⟩
        obtain ⟨launched, hlast, hprevCaps, hcaps, hwithin⟩ := h.covered hbefore.2
        refine ⟨launched, hlast, ?_, hcaps, ?_⟩
        · simp only [prevCaps_remember]
          exact hprevCaps
        · simp only [InStep.watermarks_remember]
          rw [Dict.get?_set_of_ne _ hbefore.1]
          exact hwithin.trans (within_of_entries hentries _ _ _ _ _)
      · intro operatorId harmed
        simp only [hretries] at harmed
        rw [lastRun_append, if_neg]
        · exact h.armed harmed
        · exact hother harmed

end Remembers

/-! ### Launches -/

/-- What is armed once an operator is launched: its own retry no more. -/
theorem isScheduled_launch (available : Finset CapabilityId) (observed : Revision)
    {runnable : Runnable O}
    (hretry : runnable.isRetry
      = gather.memory.retries.isScheduled (services.operatorId runnable.operator))
    (other : OperatorId) :
  (launch services available observed gather runnable).memory.retries.isScheduled other
    = (decide (services.operatorId runnable.operator ≠ other)
      && gather.memory.retries.isScheduled other)
  := by
  rw [launch]
  cases hisRetry : runnable.isRetry with
  | true => exact DebounceController.isScheduled_clear other
  | false =>
      simp only [Bool.false_eq_true, if_false]
      by_cases hsame : services.operatorId runnable.operator = other
      · rw [← hsame, ← hretry, hisRetry, Bool.and_false]
      · rw [decide_eq_true hsame, Bool.true_and]

theorem launches_launch (available : Finset CapabilityId) (observed : Revision)
    (runnable : Runnable O) :
  (launch services available observed gather runnable).launches
    = gather.launches ++ [⟨runnable.operator, runnable.delta, available, runnable.isRetry⟩]
  := by
  rw [launches, launch, List.map_append]
  rfl

variable [DecidableEq P] [DecidableEq C] {view : DataPointView} {available : Finset CapabilityId}
  {observed : Revision}

/-- A launch of another operator changes nothing for one that is to be launched. -/
theorem launchable_launch {runnable other : Runnable O}
    (hne : services.operatorId runnable.operator ≠ services.operatorId other.operator)
    (hretry : runnable.isRetry
      = gather.memory.retries.isScheduled (services.operatorId runnable.operator))
    (h : services.Launchable gather.state.mirror gather.memory view available other) :
  services.Launchable (launch services available observed gather runnable).state.mirror
    (launch services available observed gather runnable).memory view available other
  := by
  refine ⟨?_, h.untripped, h.ready, ?_, ?_⟩
  · rw [launch, Dict.get?_set_of_ne _ hne]
    exact h.idle
  · rw [launch, GatherServices.deltaFor, Dict.get?_set_of_ne _ hne]
    exact h.delta
  · rw [isScheduled_launch available observed hretry, decide_eq_true hne, Bool.true_and]
    exact h.retry

namespace Remembers

/-- A launch is remembered. -/
theorem launch (h : Remembers services gather.state gather.memory gather.launches gather.recorded)
    {runnable : Runnable O}
    (hlaunchable : services.Launchable gather.state.mirror gather.memory view available runnable) :
  Remembers services (launch services available observed gather runnable).state
    (launch services available observed gather runnable).memory
    (launch services available observed gather runnable).launches
    (launch services available observed gather runnable).recorded
  := by
  have hscheduled := isScheduled_launch available observed hlaunchable.retry
  -- An armed retry is that of another operator.
  have hother : ∀ {operatorId},
      (Gather.launch services available observed gather runnable).memory.retries.isScheduled
          operatorId = true →
        services.operatorId runnable.operator ≠ operatorId
          ∧ gather.memory.retries.isScheduled operatorId = true := by
    intro operatorId harmed
    rw [hscheduled, Bool.and_eq_true, decide_eq_true_eq] at harmed
    exact harmed
  refine ⟨h.agrees, ?_, ?_, ?_⟩
  · intro operatorId harmed
    obtain ⟨hne, hbefore⟩ := hother harmed
    rw [Gather.launch, Dict.get?_set_of_ne _ hne]
    exact h.apart hbefore
  · intro operatorId hremembered
    rw [launches_launch]
    by_cases hsame : services.operatorId runnable.operator = operatorId
    · have hdelta := storeDelta_of_ok h.agrees hlaunchable.delta
      refine ⟨⟨runnable.operator, runnable.delta, available, runnable.isRetry⟩, ?_, ?_, ?_, ?_⟩
      · rw [lastLaunch_append, if_pos hsame]
      · rw [Gather.launch, hsame, Dict.get?_set_self]
      · rw [hdelta, newlyAvailableCaps_storeDelta]
        exact Finset.sdiff_subset
      · rw [hdelta, hsame]
        exact within_of_entries rfl _ _ _ _ _
    · have hbefore : (gather.memory.running.get? operatorId).isSome = true
          ∨ gather.memory.retries.isScheduled operatorId = true := by
        rcases hremembered with hruns | harmed
        · rw [Gather.launch, Dict.get?_set_of_ne _ hsame] at hruns
          exact Or.inl hruns
        · exact Or.inr (hother harmed).2
      obtain ⟨launched, hlast, hprevCaps, hcaps, hwithin⟩ := h.covered hbefore
      refine ⟨launched, ?_, ?_, hcaps, hwithin⟩
      · rw [lastLaunch_append, if_neg hsame]
        exact hlast
      · rw [Gather.launch, Dict.get?_set_of_ne _ hsame]
        exact hprevCaps
  · intro operatorId harmed
    exact h.armed (hother harmed).2

/-- The launches of a pass are remembered. -/
theorem launches {runnables : List (Runnable O)}
    (h : Remembers services gather.state gather.memory gather.launches gather.recorded)
    (hnodup : (runnables.map (fun runnable => services.operatorId runnable.operator)).Nodup)
    (hlaunchable : ∀ runnable ∈ runnables,
      services.Launchable gather.state.mirror gather.memory view available runnable) :
  let launched := runnables.foldl (Gather.launch services available observed) gather
  Remembers services launched.state launched.memory launched.launches launched.recorded
  := by
  induction runnables generalizing gather with
  | nil => exact h
  | cons runnable runnables ih =>
      rw [List.map_cons, List.nodup_cons] at hnodup
      obtain ⟨hfirst, hrest⟩ := List.forall_mem_cons.mp hlaunchable
      apply ih (h.launch hfirst) hnodup.2
      intro other hother
      apply launchable_launch _ hfirst.retry (hrest other hother)
      intro hsame
      apply hnodup.1
      rw [hsame]
      exact List.mem_map_of_mem hother

/-- A retry presents the delta of the failed run again, but for its capabilities. -/
theorem retries (h : Remembers services gather.state gather.memory gather.launches gather.recorded)
    {runnable : Runnable O}
    (hlaunchable : services.Launchable gather.state.mirror gather.memory view available runnable)
    (hretry : runnable.isRetry = true) :
  ∃ failed run,
    lastLaunch services (services.operatorId runnable.operator) gather.launches = some failed
      ∧ lastRun (services.operatorId runnable.operator) gather.recorded = some run
      ∧ run.completion.error.isSome = true ∧ run.advancedTo = none
      ∧ (PresentsAgain failed.delta runnable.delta ↔ failed.delta.newlyAvailableCaps = ∅)
  := by
  have harmed := hlaunchable.retry
  rw [hretry] at harmed
  obtain ⟨failed, hlast, hprevCaps, hcaps, hwithin⟩ := h.covered (Or.inr harmed.symm)
  obtain ⟨run, hrun, herror, hadvanced⟩ := h.armed harmed.symm
  refine ⟨failed, run, hlast, hrun, herror, hadvanced, ?_⟩
  have hdelta := storeDelta_of_ok h.agrees hlaunchable.delta
  rw [hprevCaps, Option.getD_some] at hdelta
  have hnew : runnable.delta.newlyAvailableCaps = available \ failed.available := by
    rw [hdelta, newlyAvailableCaps_storeDelta]
  have hsame : failed.delta.Within runnable.delta := by
    rw [hdelta]
    exact hwithin.trans (within_of_entries rfl _ _ _ _ _)
  constructor
  · intro hpresents
    -- What was new to the failed run was available to it, so nothing of it is new now.
    apply Finset.eq_empty_of_forall_notMem
    intro capability hcapability
    have hagain := hpresents.newlyAvailableCaps hcapability
    rw [hnew, Finset.mem_sdiff] at hagain
    exact hagain.2 (hcaps hcapability)
  · intro hnone
    constructor
    · exact hsame.added
    · exact fun dataPoint hmem => Or.inr (hsame.updated dataPoint hmem)
    · rw [hnone]
      exact Finset.empty_subset _
    · exact hsame.isFirstInvocation

end Remembers

/-! ### Runs -/

/-- The loop is on its way out by an error. -/
def RaisedOut (gather : Gather O) : Prop := ∃ error, gather.phase.exit? = some (.raised error)

/-- What is remembered, as long as nothing raised. -/
def RemembersUntilRaised (services : GatherServices P C O) (gather : Gather O) : Prop :=
  gather.RaisedOut
    ∨ Remembers services gather.state gather.memory gather.launches gather.recorded

omit [DecidableEq P] [DecidableEq C] in
/-- A move of the loop leaves no way out. -/
theorem exit?_moves {action : GatherAction} {phase : GatherPhase} (h : Moves gather action phase) :
  ∀ error, gather.phase.exit? = some (.raised error) → phase.exit? = some (.raised error)
  := by
  intro error hexit
  cases h with
  | awaited hphase _ =>
      rw [hphase] at hexit
      exact hexit
  | raised _ hphase =>
      rcases hphase with hphase | hphase | hphase | ⟨parkAt, hphase⟩ <;>
      · rw [hphase] at hexit
        cases hexit
  | renewed hphase _ => rw [hphase] at hexit; cases hexit
  | expired hphase _ => rw [hphase] at hexit; cases hexit
  | drained hphase => rw [hphase] at hexit; cases hexit
  | woken hphase _ => rw [hphase] at hexit; cases hexit
  | waited hphase => rw [hphase] at hexit; cases hexit
  | parked hphase _ => rw [hphase] at hexit; cases hexit

/-- A gather on its way out by an error does not come back. -/
theorem RaisedOut.step {action : GatherAction} (h : gather.RaisedOut)
    (hstep : Steps services gather action gather') :
  gather'.RaisedOut
  := by
  obtain ⟨error, hexit⟩ := h
  have hnot : ∀ {phase : GatherPhase}, gather.phase = phase → phase.exit? = none → False := by
    intro phase hphase hnone
    rw [hphase, hnone] at hexit
    cases hexit
  cases hstep with
  | elapse span => exact ⟨error, hexit⟩
  | audit _ _ => exact ⟨error, hexit⟩
  | stopped _ _ _ => exact ⟨error, hexit⟩
  | emitted _ _ _ _ => exact ⟨error, hexit⟩
  | completed _ _ _ => exact ⟨error, hexit⟩
  | vanished _ _ => exact ⟨error, hexit⟩
  | cancelled _ _ _ => exact ⟨error, hexit⟩
  | seeded hphase _ => exact (hnot hphase rfl).elim
  | seedRaised _ _ => exact ⟨_, rfl⟩
  | begun hphase _ =>
      -- Only a gather that ended by no error begins again.
      exfalso
      revert hphase
      cases hphase : gather.phase with
      | ended exit =>
          rw [hphase] at hexit
          cases hexit
          exact id
      | ready => exact fun _ => hnot hphase rfl
      | _ => exact id
  | beginRaised _ _ => exact ⟨_, rfl⟩
  | delivered hphase _ => exact (hnot hphase rfl).elim
  | deliverRaised _ _ => exact ⟨_, rfl⟩
  | passed hphase _ _ _ => exact (hnot hphase rfl).elim
  | passRaised _ _ => exact ⟨_, rfl⟩
  | taken hphase => exact (hnot hphase rfl).elim
  | merged hphase _ _ => exact (hnot hphase rfl).elim
  | mergeRaised _ _ => exact ⟨_, rfl⟩
  | recorded hphase _ => exact (hnot hphase rfl).elim
  | recordRaised _ _ => exact ⟨_, rfl⟩
  | drained hphase _ _ =>
      rw [hphase] at hexit
      use error
      simp only
      split
      · exact hexit
      · exact hexit
  | drainedAgain hphase _ _ =>
      rw [hphase] at hexit
      exact ⟨error, hexit⟩
  | drainRaised _ _ => exact ⟨_, rfl⟩
  | moved hmoves => exact ⟨error, exit?_moves hmoves error hexit⟩
  | disposed _ _ => exact ⟨error, hexit⟩
  | contributed _ _ => exact ⟨error, hexit⟩

namespace Remembers

omit [DecidableEq P] [DecidableEq C] in
/-- Nothing was launched at the start. -/
theorem start {epoch : Epoch} {caps : Dict OperatorId ℤ} {now : Monotonic} {session : MergeState}
    (hwellFormed : session.store.WellFormed) :
  let gather := Gather.start services epoch caps now session
  Remembers services gather.state gather.memory gather.launches gather.recorded
  := by
  constructor
  · exact agrees_rehydrate _ hwellFormed
  · intro operatorId harmed
    cases harmed
  · rintro operatorId (hruns | harmed)
    · cases hruns
    · cases harmed
  · intro operatorId harmed
    cases harmed

/-- A step keeps what is remembered, unless it raises. -/
theorem step {action : GatherAction}
    (h : Remembers services gather.state gather.memory gather.launches gather.recorded)
    (hlaunches : LaunchesOnce services gather action)
    (hstep : Steps services gather action gather') :
  RemembersUntilRaised services gather'
  := by
  cases hstep with
  | elapse span => exact Or.inr h
  | audit _ _ =>
      right
      refine ⟨h.agrees, h.apart, ?_, h.armed⟩
      intro operatorId hremembered
      obtain ⟨launched, hlast, hprevCaps, hcaps, hwithin⟩ := h.covered hremembered
      exact ⟨launched, hlast, hprevCaps, hcaps, hwithin⟩
  | stopped error htask _ =>
      right
      rw [launches_setStatus _ htask]
      exact h
  | emitted _ _ _ _ => exact Or.inr h
  | completed htask _ _ =>
      right
      have hsame := launches_setStatus .finished htask
      rw [enqueue]
      change Remembers services gather.state gather.memory
        (gather.setStatus _ _ .finished).launches gather.recorded
      rw [hsame]
      exact h
  | vanished htask _ =>
      right
      rw [launches_setStatus _ htask]
      exact h
  | cancelled htask _ _ =>
      right
      rw [launches_setStatus _ htask]
      exact h
  | @seeded now faults dataPoints state _ hmerge =>
      right
      have hgrows := @MergeState.grows_mergeEmissions services.merging (gather.call now faults)
        gather.state h.agrees (dataPoints.map (fun dataPoint => ⟨none, dataPoint⟩))
      rw [← MergeState.merge, hmerge] at hgrows
      exact h.grows hgrows
  | seedRaised _ _ => exact Or.inl ⟨_, rfl⟩
  | @begun deadline mirror _ hprime =>
      right
      obtain ⟨primed, hprimed, hagrees, -⟩ := @InStep.primeAll O gather
        (Paging.inOrder id (gather.loadWatermarks services).values.dedup) gather.state.mirror
        h.agrees
      rw [hprime] at hprimed
      cases hprimed
      constructor
      · exact hagrees
      · intro operatorId harmed
        cases harmed
      · rintro operatorId (hruns | harmed)
        · cases hruns
        · cases harmed
      · intro operatorId harmed
        cases harmed
  | beginRaised _ _ => exact Or.inl ⟨_, rfl⟩
  | @delivered now faults dataPoints state _ hmerge =>
      right
      have hgrows := @MergeState.grows_applyInboxDataPoints services.merging
        (gather.call now faults) gather.state h.agrees dataPoints
      rw [hmerge] at hgrows
      exact h.grows hgrows
  | deliverRaised _ _ => exact Or.inl ⟨_, rfl⟩
  | @passed available view observed plan _ _ _ hplan =>
      right
      have hdebounced : Remembers services gather.state
          { gather.memory with debounce := plan.debounce } gather.launches gather.recorded := by
        refine ⟨h.agrees, h.apart, ?_, h.armed⟩
        intro operatorId hremembered
        obtain ⟨launched, hlast, hprevCaps, hcaps, hwithin⟩ := h.covered hremembered
        exact ⟨launched, hlast, hprevCaps, hcaps, hwithin⟩
      obtain ⟨-, hlaunchable⟩ := GatherServices.plan_runnable hplan
      refine @launches P C O services
        { gather with memory := { gather.memory with debounce := plan.debounce } } _ _ view
        available observed plan.runnable hdebounced (hlaunches view plan hplan) ?_
      intro runnable hrunnable
      obtain ⟨hidle, huntripped, hready, hdelta, hretry⟩ := hlaunchable runnable hrunnable
      exact ⟨hidle, huntripped, hready, hdelta, hretry⟩
  | passRaised _ _ => exact Or.inl ⟨_, rfl⟩
  | taken _ => exact Or.inr h
  | @merged now faults batch emitted state _ _ hmerge =>
      right
      have hgrows := @MergeState.grows_mergeEmissions services.merging (gather.call now faults)
        gather.state h.agrees emitted
      rw [hmerge] at hgrows
      exact h.grows hgrows
  | mergeRaised _ _ => exact Or.inl ⟨_, rfl⟩
  | @recorded _ _ _ _ recorded _ hrecords =>
      right
      have hremembers := h.records hrecords
      exact hremembers
  | recordRaised _ _ => exact Or.inl ⟨_, rfl⟩
  | @drained now faults exit emitted state _ _ hmerge =>
      right
      have hgrows := @MergeState.grows_mergeEmissions services.merging (gather.call now faults)
        gather.state h.agrees emitted
      rw [hmerge] at hgrows
      exact h.grows hgrows
  | @drainedAgain now faults exit emitted state _ _ hmerge =>
      right
      have hgrows := @MergeState.grows_mergeEmissions services.merging (gather.call now faults)
        gather.state h.agrees emitted
      rw [hmerge] at hgrows
      exact h.grows hgrows
  | drainRaised _ _ => exact Or.inl ⟨_, rfl⟩
  | moved _ => exact Or.inr h
  | disposed _ _ =>
      right
      refine ⟨h.agrees, h.apart, ?_, h.armed⟩
      intro operatorId hremembered
      obtain ⟨launched, hlast, hprevCaps, hcaps, hwithin⟩ := h.covered hremembered
      exact ⟨launched, hlast, hprevCaps, hcaps, hwithin⟩
  | contributed _ _ =>
      right
      refine ⟨h.agrees, h.apart, ?_, h.armed⟩
      intro operatorId hremembered
      obtain ⟨launched, hlast, hprevCaps, hcaps, hwithin⟩ := h.covered hremembered
      exact ⟨launched, hlast, hprevCaps, hcaps, hwithin⟩

end Remembers

/-- What is remembered after a run that launches no operator twice in a pass. -/
theorem remembers_run (services : GatherServices P C O) {session : MergeState}
    (hwellFormed : session.store.WellFormed) (epoch : Epoch) (caps : Dict OperatorId ℤ)
    (now : Monotonic) {actions : List GatherAction}
    (hlaunches : TransitionSystem.Always (Gather.step services) (LaunchesOnce services)
      (.start services epoch caps now session) actions)
    (hrun : TransitionSystem.run (Gather.step services) (.start services epoch caps now session)
      actions = some gather) :
  RemembersUntilRaised services gather
  := by
  have hstart : RemembersUntilRaised services (Gather.start services epoch caps now session) :=
    Or.inr (Remembers.start hwellFormed)
  apply TransitionSystem.run_invariant_of_always _ hstart hlaunches hrun
  rintro gather action gather' (hraised | hremembers) hlaunch hnext
  · exact Or.inl (hraised.step (steps_of_step hnext))
  · exact hremembers.step hlaunch (steps_of_step hnext)

omit [DecidableEq P] [DecidableEq C] in
/-- The tasks that some launches create. -/
theorem tasks_launches (available : Finset CapabilityId) (observed : Revision)
    (runnables : List (Runnable O)) :
  (runnables.foldl (launch services available observed) gather).tasks
    = gather.tasks ++ runnables.map (fun runnable =>
        ⟨runnable.operator, runnable.delta, available, runnable.isRetry, .running⟩)
  := by
  induction runnables generalizing gather with
  | nil => exact (List.append_nil _).symm
  | cons runnable runnables ih =>
      rw [List.foldl_cons, ih, launch, List.append_assoc]
      rfl

/-- A task that is there after a step and was not there before was launched by a pass. -/
theorem launched_of_new {action : GatherAction} (hstep : Steps services gather action gather')
    {i : ℕ} {task : OperatorTask O} (hnew : gather.tasks.length ≤ i)
    (htask : gather'.tasks[i]? = some task) :
  ∃ available view runnable plan, action = .refresh available none
    ∧ gather.phase = .refreshing
    ∧ services.plan gather.state.mirror gather.memory view available gather.now = .ok plan
    ∧ runnable ∈ plan.runnable
    ∧ task = ⟨runnable.operator, runnable.delta, available, runnable.isRetry, .running⟩
  := by
  have hold : gather'.tasks.length ≤ gather.tasks.length → False := by
    intro hle
    rw [List.getElem?_eq_none (hle.trans hnew)] at htask
    cases htask
  cases hstep with
  | @passed available view observed plan hphase _ _ hplan =>
      have htasks := @tasks_launches P C O services
        { gather with memory := { gather.memory with debounce := plan.debounce } } available
        observed plan.runnable
      simp only [launchAll] at htask
      rw [htasks, List.getElem?_append_right hnew, List.getElem?_map, Option.map_eq_some_iff]
        at htask
      obtain ⟨runnable, hrunnable, rfl⟩ := htask
      exact ⟨available, view, runnable, plan, rfl, hphase, hplan, List.mem_of_getElem? hrunnable,
        rfl⟩
  | stopped _ _ _ => exact (hold (by rw [setStatus, List.length_set])).elim
  | completed _ _ _ => exact (hold (by rw [enqueue, setStatus, List.length_set])).elim
  | vanished _ _ => exact (hold (by rw [setStatus, List.length_set])).elim
  | cancelled _ _ _ => exact (hold (by rw [setStatus, List.length_set])).elim
  | begun _ _ => exact (hold (Nat.zero_le _)).elim
  | recorded _ hrecords =>
      apply (hold _).elim
      cases hrecords with
      | retried _ _ _ => exact le_refl _
      | advanced _ _ _ _ => exact le_refl _
  | recordRaised _ hrecords =>
      apply (hold _).elim
      cases hrecords with
      | unknown _ => exact le_refl _
      | auditRaised _ _ => exact le_refl _
      | watermarkRaised _ _ _ => exact le_refl _
  | _ => exact (hold (le_refl _)).elim

/-- The last run of an operator whose retry is launched failed without moving its watermark, and the
retry presents the delta of its launch again exactly if no capability was new to it. -/
theorem retry_presents_again_iff (services : GatherServices P C O) {session : MergeState}
    (hwellFormed : session.store.WellFormed) (epoch : Epoch) (caps : Dict OperatorId ℤ)
    (now : Monotonic) {actions : List GatherAction}
    (hlaunches : TransitionSystem.Always (Gather.step services) (LaunchesOnce services)
      (.start services epoch caps now session) actions)
    {taken rest : List GatherAction} {action : GatherAction}
    (hsplit : actions = taken ++ action :: rest) {gather gather' : Gather O}
    (hrun : TransitionSystem.run (Gather.step services) (.start services epoch caps now session)
      taken = some gather)
    (hnext : gather.step services action = some gather') {i : ℕ} {retried : OperatorTask O}
    (hnew : gather.tasks.length ≤ i) (htask : gather'.tasks[i]? = some retried)
    (hretry : retried.isRetry = true) :
  ∃ failed run,
    lastLaunch services (services.operatorId retried.operator) gather.launches = some failed
      ∧ lastRun (services.operatorId retried.operator) gather.recorded = some run
      ∧ run.completion.error.isSome = true ∧ run.advancedTo = none
      ∧ (PresentsAgain failed.delta retried.delta ↔ failed.delta.newlyAvailableCaps = ∅)
  := by
  rw [hsplit] at hlaunches
  obtain ⟨available, view, runnable, plan, -, hphase, hplan, hrunnable, rfl⟩ :=
    launched_of_new (steps_of_step hnext) hnew htask
  rcases remembers_run services hwellFormed epoch caps now
    (TransitionSystem.always_prefix hlaunches) hrun with ⟨error, hexit⟩ | hremembers
  · rw [hphase] at hexit
    cases hexit
  · exact hremembers.retries ((GatherServices.plan_runnable hplan).2 runnable hrunnable) hretry

end Gather

/-! ### A gather of texts -/

/-- Up to three attempts, one right after another. -/
def eagerRetry : RetryPolicy := ⟨3, fun _ => 0⟩

/-- A run fails with some capabilities at hand, and the loop comes to its next pass. -/
def failedActions (available : Finset CapabilityId) : List GatherAction :=
  [.begin' 100, .renew none, .inboxDone none, .refresh available none, .fail 0 "no answer",
    .complete 0 1, .take, .merge 0 .none, .record 0 ⟨none, none⟩, .renew none, .inboxDone none]

theorem listedOnce_retried :
  Gather.ListedOnce (textGather ["reader"] (some eagerRetry))
  := List.nodup_singleton "reader"

/-- The capability was new to the failed run, and is not to its retry. -/
theorem retry_forgets_capability :
  ¬∀ gather gather' failed retried,
    TransitionSystem.run (Gather.step (textGather ["reader"] (some eagerRetry)))
        (.start (textGather ["reader"] (some eagerRetry)) 1 .empty 0 (Recording.initial "s").state)
        (failedActions {"search"})
      = some gather →
    gather.step (textGather ["reader"] (some eagerRetry)) (.refresh {"search"} none)
      = some gather' →
    gather'.tasks[0]? = some failed → gather'.tasks[1]? = some retried →
    retried.isRetry = true → PresentsAgain failed.delta retried.delta
  := by
  intro h
  obtain ⟨gather, gather', failed, retried, hrun, hnext, hfailed, hretried, hretry, hnew, hold⟩ :
      ∃ gather gather' failed retried,
        TransitionSystem.run (Gather.step (textGather ["reader"] (some eagerRetry)))
            (.start (textGather ["reader"] (some eagerRetry)) 1 .empty 0
              (Recording.initial "s").state)
            (failedActions {"search"})
          = some gather
        ∧ gather.step (textGather ["reader"] (some eagerRetry)) (.refresh {"search"} none)
          = some gather'
        ∧ gather'.tasks[0]? = some failed ∧ gather'.tasks[1]? = some retried
        ∧ retried.isRetry = true ∧ failed.delta.newlyAvailableCaps = {"search"}
        ∧ retried.delta.newlyAvailableCaps = ∅ :=
    ⟨_, _, _, _, rfl, rfl, rfl, rfl, rfl, rfl, rfl⟩
  have hsubset := (h gather gather' failed retried hrun hnext hfailed hretried
    hretry).newlyAvailableCaps
  rw [hnew, hold] at hsubset
  cases hsubset (Finset.mem_singleton_self "search")

/-- Without a capability the retry presents the delta of the failed run again. -/
theorem retry_presents_again_bare :
  ∃ gather gather' retried failed,
    TransitionSystem.run (Gather.step (textGather ["reader"] (some eagerRetry)))
        (.start (textGather ["reader"] (some eagerRetry)) 1 .empty 0 (Recording.initial "s").state)
        (failedActions ∅)
      = some gather
    ∧ gather.step (textGather ["reader"] (some eagerRetry)) (.refresh ∅ none) = some gather'
    ∧ gather'.tasks[1]? = some retried ∧ retried.isRetry = true
    ∧ (PresentsAgain failed retried.delta ↔ failed.newlyAvailableCaps = ∅)
  := by
  obtain ⟨gather, hrun, gather', hnext, hlength, retried, htask, hretry⟩ : ∃ gather,
      TransitionSystem.run (Gather.step (textGather ["reader"] (some eagerRetry)))
          (.start (textGather ["reader"] (some eagerRetry)) 1 .empty 0
            (Recording.initial "s").state)
          (failedActions ∅)
        = some gather
      ∧ ∃ gather', gather.step (textGather ["reader"] (some eagerRetry)) (.refresh ∅ none)
          = some gather'
        ∧ gather.tasks.length ≤ 1
        ∧ ∃ retried, gather'.tasks[1]? = some retried ∧ retried.isRetry = true :=
    ⟨_, rfl, _, rfl, le_refl _, _, rfl, rfl⟩
  obtain ⟨failed, run, -, -, -, -, hpresents⟩ := Gather.retry_presents_again_iff
    (textGather ["reader"] (some eagerRetry)) SessionState.initial_wellFormed 1 .empty 0
    (fun _ action _ _ gather _ =>
      Gather.launchesOnce_of_listedOnce listedOnce_retried gather action)
    (List.append_cons (failedActions ∅) (.refresh ∅ none) []).symm hrun hnext hlength htask hretry
  exact ⟨gather, gather', retried, failed.delta, hrun, hnext, htask, hretry, hpresents⟩

end Orcastork
