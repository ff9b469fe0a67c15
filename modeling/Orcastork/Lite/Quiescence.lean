import Orcastork.Lite.Events

/-!
# Where a session of the lite orchestrator comes to rest

A session that ends by itself has nothing left to do. What the last launch of every operator saw is
kept beside the session (`Watched`). An operator without a run under way or a retry armed has the
revision it saw as its watermark, and what was there then is still there (`Traced`). So at the end
every operator that could run has run, and one that is rerun on new data has seen all of it
(`quiescent_saw_everything`).
-/

namespace Orcastork

namespace Lite

/-! ### What was there stays -/

namespace SessionState

variable {P V : Type} [DecidableEq P] [DecidableEq V]

/-- No entry is later than the revision, and each is found under its own key. -/
structure Dated (state : SessionState P V) : Prop where
  keyed : ∀ {key entry}, state.entries.get? key = some entry → entry.dataPoint.identityKey = key
  added : ∀ {key entry}, state.entries.get? key = some entry → entry.addedRev ≤ state.revision
  updated : ∀ {key entry}, state.entries.get? key = some entry → entry.updatedRev ≤ state.revision

/-- What a later state has from before: what was added by then was there, and what was not updated
since is as it was. -/
structure Since (earlier later : SessionState P V) : Prop where
  revision : earlier.revision ≤ later.revision
  added : ∀ {key entry}, later.entries.get? key = some entry →
    entry.addedRev ≤ earlier.revision →
      entry.dataPoint.identityKey ∈ earlier.view.map DataPoint.identityKey
  updated : ∀ {key entry}, later.entries.get? key = some entry →
    entry.updatedRev ≤ earlier.revision → entry.dataPoint ∈ earlier.view

theorem Since.refl (state : SessionState P V) :
  Since state state
  := by
  have hview : ∀ {key entry}, state.entries.get? key = some entry →
      entry.dataPoint ∈ state.view := by
    intro key entry hget
    apply List.mem_map_of_mem (Dict.mem_values_iff.mpr ⟨key, hget⟩)
  constructor
  · apply Nat.le_refl
  · intro key entry hget _
    apply List.mem_map_of_mem (hview hget)
  · intro key entry hget _
    apply hview hget

theorem dated_initial :
  (initial : SessionState P V).Dated
  := by
  constructor
  all_goals nofun

/-- What a merge has made of the entries so far: nothing, or each is the one that was there, or is of
the next revision, and then one that was there before is not added again. -/
structure Merging (nextRevision : Revision) (before : Dict (P × V) (Entry P V))
    (merged : Dict (P × V) (Entry P V) × Bool) : Prop where
  unchanged : merged.2 = false → merged.1 = before
  entry : ∀ {key entry}, merged.1.get? key = some entry → before.get? key = some entry
    ∨ entry.dataPoint.identityKey = key ∧ entry.updatedRev = nextRevision
      ∧ (entry.addedRev = nextRevision
        ∨ ∃ old, before.get? key = some old ∧ entry.addedRev = old.addedRev)

theorem Merging.mergeOne {nextRevision : Revision} {before : Dict (P × V) (Entry P V)}
    {merged : Dict (P × V) (Entry P V) × Bool} (h : Merging nextRevision before merged)
    (hkeyed : ∀ {key entry}, before.get? key = some entry → entry.dataPoint.identityKey = key)
    (dataPoint : DataPoint P V) :
  Merging nextRevision before (SessionState.mergeOne nextRevision merged dataPoint)
  := by
  rw [SessionState.mergeOne]
  cases hget : merged.1.get? dataPoint.identityKey with
  | none =>
      constructor
      · nofun
      · intro key entry hentry
        dsimp only at hentry
        rw [Dict.get?_set] at hentry
        split at hentry
        · rename_i hkey
          obtain rfl := Option.some.inj hentry
          right
          use hkey, rfl
          left
          rfl
        · apply h.entry hentry
  | some existing =>
      dsimp only
      split
      · constructor
        · nofun
        · intro key entry hentry
          dsimp only at hentry
          rw [Dict.get?_set] at hentry
          split at hentry
          · rename_i hkey
            obtain rfl := Option.some.inj hentry
            right
            rw [hkey] at hget
            rcases h.entry hget with hold | ⟨hkeyed', -, hadded⟩
            · have hkey' := hkeyed hold
              use hkey', rfl
              right
              use existing
            · use hkeyed', rfl
          · apply h.entry hentry
      · apply h

/-- What a merge leaves of what was there, and what it adds. -/
theorem merging_foldl {nextRevision : Revision} {before : Dict (P × V) (Entry P V)}
    (hkeyed : ∀ {key entry}, before.get? key = some entry → entry.dataPoint.identityKey = key)
    (dataPoints : List (DataPoint P V)) {merged : Dict (P × V) (Entry P V) × Bool}
    (h : Merging nextRevision before merged) :
  Merging nextRevision before (dataPoints.foldl (SessionState.mergeOne nextRevision) merged)
  := by
  induction dataPoints generalizing merged with
  | nil => apply h
  | cons dataPoint dataPoints ih => apply ih (h.mergeOne hkeyed dataPoint)

theorem Dated.merging {state : SessionState P V} (h : state.Dated)
    (dataPoints : List (DataPoint P V)) :
  Merging (state.revision + 1) state.entries
    (dataPoints.foldl (SessionState.mergeOne (state.revision + 1)) (state.entries, false))
  := by
  apply merging_foldl h.keyed
  constructor
  · intro _
    rfl
  · intro key entry hentry
    left
    apply hentry

/-- A merge keeps the dates right. -/
theorem Dated.merge {state : SessionState P V} (h : state.Dated)
    (dataPoints : List (DataPoint P V)) :
  (state.merge dataPoints).Dated
  := by
  have hmerging := h.merging dataPoints
  rw [SessionState.merge]
  dsimp only
  generalize dataPoints.foldl (SessionState.mergeOne (state.revision + 1)) (state.entries, false)
    = merged at hmerging ⊢
  obtain ⟨entries, changed⟩ := merged
  cases changed with
  | false =>
      obtain rfl := hmerging.unchanged rfl
      exact ⟨h.keyed, h.added, h.updated⟩
  | true =>
      constructor
      · intro key entry hentry
        rcases hmerging.entry hentry with hold | ⟨hkey, -, -⟩
        · apply h.keyed hold
        · apply hkey
      · intro key entry hentry
        rcases hmerging.entry hentry with hold | ⟨-, -, hnext | ⟨old, hold, hsame⟩⟩
        · apply Nat.le_succ_of_le (h.added hold)
        · apply Nat.le_of_eq hnext
        · rw [hsame]
          apply Nat.le_succ_of_le (h.added hold)
      · intro key entry hentry
        rcases hmerging.entry hentry with hold | ⟨-, hnext, -⟩
        · apply Nat.le_succ_of_le (h.updated hold)
        · apply Nat.le_of_eq hnext

/-- What a state has from before it has after a merge. -/
theorem Since.merge {earlier state : SessionState P V} (h : Since earlier state) (hdated : state.Dated)
    (dataPoints : List (DataPoint P V)) :
  Since earlier (state.merge dataPoints)
  := by
  have hmerging := hdated.merging dataPoints
  rw [SessionState.merge]
  dsimp only
  generalize dataPoints.foldl (SessionState.mergeOne (state.revision + 1)) (state.entries, false)
    = merged at hmerging ⊢
  have hlater : ¬state.revision + 1 ≤ earlier.revision := by
    apply Nat.not_le_of_lt (Nat.lt_succ_of_le h.revision)
  constructor
  · dsimp only
    split
    · apply Nat.le_succ_of_le h.revision
    · apply h.revision
  · intro key entry hentry hadded
    rcases hmerging.entry hentry with hold | ⟨hkey, -, hnext | ⟨old, hold, hsame⟩⟩
    · apply h.added hold hadded
    · rw [hnext] at hadded
      cases hlater hadded
    · rw [hsame] at hadded
      rw [hkey, ← hdated.keyed hold]
      apply h.added hold hadded
  · intro key entry hentry hupdated
    rcases hmerging.entry hentry with hold | ⟨-, hnext, -⟩
    · apply h.updated hold hupdated
    · rw [hnext] at hupdated
      cases hlater hupdated

end SessionState

namespace Gather

variable {P V C O : Type} {services : Services P C O} {completions : List Completed}

/-! ### What was seen -/

section

variable [DecidableEq P] [DecidableEq V] {gather gather' : Gather P V}
  {seen : OperatorId → Option (SessionState P V)}

/-- What the launches saw is still there, and the watermarks are where they say. -/
structure Traced (seen : OperatorId → Option (SessionState P V)) (gather : Gather P V) :
    Prop where
  dated : gather.state.Dated
  since : ∀ {operatorId state}, seen operatorId = some state → state.Since gather.state
  running : ∀ {operatorId record}, gather.running.get? operatorId = some record →
    ∃ state, seen operatorId = some state ∧ state.revision = record.observedRevision
  armed : ∀ {operatorId armed}, gather.armedRetries.get? operatorId = some armed →
    ∃ state, seen operatorId = some state ∧ state.revision = armed.observedRevision
  settled : gather.deadlineHit = false → ∀ {operatorId},
    gather.running.get? operatorId = none → gather.armedRetries.get? operatorId = none →
      gather.state.watermarks.get? operatorId = (seen operatorId).map SessionState.revision

/-- The run of an operator ends at the revision it saw. -/
theorem Traced.advance (h : Traced seen gather) {operatorId : OperatorId} {revision : Revision}
    (hseen : ∃ state, seen operatorId = some state ∧ state.revision = revision)
    (hstate : gather'.state = gather.state.advanceWatermark operatorId revision)
    (hhit : gather'.deadlineHit = gather.deadlineHit)
    (hrunning : ∀ {other record}, gather'.running.get? other = some record →
      gather.running.get? other = some record)
    (harmed : ∀ {other armed}, gather'.armedRetries.get? other = some armed →
      gather.armedRetries.get? other = some armed)
    (hother : ∀ other, operatorId ≠ other →
      gather'.running.get? other = gather.running.get? other
        ∧ gather'.armedRetries.get? other = gather.armedRetries.get? other) :
  Traced seen gather'
  := by
  constructor
  · rw [hstate]
    exact ⟨h.dated.keyed, h.dated.added, h.dated.updated⟩
  · intro other state hstate'
    have hsince := h.since hstate'
    rw [hstate]
    exact ⟨hsince.revision, hsince.added, hsince.updated⟩
  · intro other record hrecord
    apply h.running (hrunning hrecord)
  · intro other armed harmed'
    apply h.armed (harmed harmed')
  · intro hnot other hnone hunarmed
    rw [hstate, SessionState.advanceWatermark]
    dsimp only
    rw [Dict.get?_set]
    split
    · rename_i hsame
      obtain ⟨state, hsome, hrevision⟩ := hseen
      rw [← hsame, hsome, Option.map_some, hrevision]
    · rename_i hne
      obtain ⟨hrunning', harmed'⟩ := hother other hne
      rw [hrunning'] at hnone
      rw [harmed'] at hunarmed
      rw [hhit] at hnot
      apply h.settled hnot hnone hunarmed

theorem Traced.record {clock : OperatorId → Monotonic} {signal : Completed}
    (h : Traced seen gather)
    (hrecord : gather.recordCompletion services clock signal = some gather') :
  Traced seen gather'
  := by
  rw [recordCompletion] at hrecord
  split at hrecord
  · cases hrecord
  · rename_i record hrunning
    have hseen := h.running hrunning
    have herase : ∀ {other : OperatorId} {running : Running},
        (gather.running.erase signal.operatorId).get? other = some running →
          gather.running.get? other = some running := by
      intro other running hget
      rw [Dict.get?_erase] at hget
      split at hget
      · cases hget
      · apply hget
    have hother : ∀ other, signal.operatorId ≠ other →
        (gather.running.erase signal.operatorId).get? other = gather.running.get? other := by
      intro other hne
      rw [Dict.get?_erase, if_neg hne]
    dsimp only at hrecord
    split at hrecord
    · obtain rfl := Option.some.inj hrecord
      constructor
      · apply h.dated
      · apply @h.since
      · intro other running hget
        apply h.running (herase hget)
      · apply @h.armed
      · rintro ⟨⟩
    · split at hrecord
      · obtain rfl := Option.some.inj hrecord
        refine h.advance hseen rfl rfl @herase (fun h => h) ?_
        intro other hne
        exact ⟨hother other hne, rfl⟩
      · split at hrecord
        · obtain rfl := Option.some.inj hrecord
          constructor
          · apply h.dated
          · apply @h.since
          · intro other running hget
            apply h.running (herase hget)
          · intro other armed hget
            dsimp only at hget
            rw [Dict.get?_set] at hget
            split at hget
            · rename_i hsame
              obtain rfl := Option.some.inj hget
              rw [← hsame]
              apply hseen
            · apply h.armed hget
          · intro hnot other hnone hunarmed
            dsimp only at hnone hunarmed
            rw [Dict.get?_set] at hunarmed
            split at hunarmed
            · cases hunarmed
            · rename_i hne
              have hnone' := (hother other hne).symm.trans hnone
              apply h.settled hnot hnone' hunarmed
        · obtain rfl := Option.some.inj hrecord
          refine h.advance hseen rfl rfl @herase (fun h => h) ?_
          intro other hne
          exact ⟨hother other hne, rfl⟩

/-- What is consumed leaves what was seen where it was. -/
theorem Traced.consume {clock : OperatorId → Monotonic} (h : Traced seen gather)
    (hconsume : gather.consume services clock = some gather') :
  Traced seen gather'
  := by
  have hfold : ∀ (completions : List Completed) {before : Gather P V}, Traced seen before →
      completions.foldlM (recordCompletion services clock) before = some gather' →
        Traced seen gather' := by
    intro completions
    induction completions with
    | nil =>
        intro before hbefore hfold
        obtain rfl := Option.some.inj hfold
        apply hbefore
    | cons signal completions ih =>
        intro before hbefore hfold
        rw [List.foldlM_cons, Option.bind_eq_bind, Option.bind_eq_some_iff] at hfold
        obtain ⟨between, hrecord, hfold⟩ := hfold
        apply ih (hbefore.record hrecord) hfold
  apply hfold gather.completions _ hconsume
  constructor
  · apply h.dated.merge
  · intro operatorId state hstate
    apply (h.since hstate).merge h.dated
  · apply @h.running
  · apply @h.armed
  · intro hnot other hnone hunarmed
    apply h.settled hnot hnone hunarmed

end

/-! ### Planning -/

section

variable [DecidableEq P] {gather : Gather P V} {observed : Observed P C}
  {clock : OperatorId → Monotonic}

omit [DecidableEq P] in
/-- Before the first turn. -/
theorem planned_nil (h : Kept services gather completions) :
  Planned services completions gather [] ⟨gather, [], none⟩
  := by
  constructor
  · apply h
  · rfl
  · rfl
  · rfl
  · nofun
  · apply List.nodup_nil
  · nofun

/-- What every turn keeps and every turn of another operator finds, holds once all are visited. -/
theorem Planned.visits_induction {motive : List O → Plan P V O → Prop} {visited rest : List O}
    {plan plan' : Plan P V O} (h : Planned services completions gather visited plan)
    (hnodup : ((visited ++ rest).map services.operatorId).Nodup)
    (hstep : ∀ {visited plan plan' operator}, Planned services completions gather visited plan →
      (∀ other ∈ visited, services.operatorId other ≠ services.operatorId operator) →
        Gather.visit services observed clock plan operator = some plan' →
          Visited services plan plan' operator → motive visited plan →
            motive (visited ++ [operator]) plan')
    (hmotive : motive visited plan)
    (hvisits : rest.foldlM (Gather.visit services observed clock) plan = some plan') :
  motive (visited ++ rest) plan'
  := by
  induction rest generalizing visited plan with
  | nil =>
      obtain rfl := Option.some.inj hvisits
      rw [List.append_nil]
      apply hmotive
  | cons operator rest ih =>
      have hfresh : ∀ other ∈ visited,
          services.operatorId other ≠ services.operatorId operator := by
        rw [List.map_append, List.map_cons] at hnodup
        intro other hmem
        apply (List.nodup_append.mp hnodup).2.2 _ (List.mem_map_of_mem hmem) _
          List.mem_cons_self
      obtain ⟨between, hvisit, hbetween⟩ := h.visit observed clock hfresh
      obtain ⟨between', hvisit', hvisited⟩ := visit_cases h.kept observed clock operator
      obtain rfl := Option.some.inj (hvisit.symm.trans hvisit')
      rw [List.foldlM_cons, hvisit, Option.bind_eq_bind, Option.bind_some] at hvisits
      rw [List.append_cons] at hnodup ⊢
      apply ih hbetween hnodup (hstep h hfresh hvisit hvisited hmotive) hvisits

/-- What planning never changes. -/
structure Unplanned (gather gather' : Gather P V) : Prop where
  entries : gather'.state.entries = gather.state.entries
  revision : gather'.state.revision = gather.state.revision
  prevCaps : gather'.prevCaps = gather.prevCaps
  breaker : gather'.breaker = gather.breaker

omit [DecidableEq P] in
/-- A turn changes no more than the watermark of its operator, plans no launch less and forgets no
window. -/
theorem Visited.frame {plan plan' : Plan P V O} {operator : O}
    (h : Visited services plan plan' operator) :
  Unplanned plan.gather plan'.gather
    ∧ (∀ other, services.operatorId operator ≠ other →
      plan'.gather.state.watermarks.get? other = plan.gather.state.watermarks.get? other)
    ∧ (plan'.runnable = [] → plan.runnable = [])
    ∧ (plan'.soonestDue = none → plan.soonestDue = none)
  := by
  cases h with
  | stays debounce hplan hkeeps hdue =>
      subst hplan
      use ⟨rfl, rfl, rfl, rfl⟩, fun _ _ => rfl, id
      intro hsoonest
      rw [← Option.not_isSome_iff_eq_none] at hsoonest ⊢
      apply mt hkeeps hsoonest
  | revoked harmed hplan =>
      subst hplan
      use ⟨rfl, rfl, rfl, rfl⟩
      refine ⟨?_, id, id⟩
      intro other hne
      apply Dict.get?_set_of_ne _ hne
  | runs debounce hoperator hnone hretry hplan =>
      subst hplan
      use ⟨rfl, rfl, rfl, rfl⟩, fun _ _ => rfl
      refine ⟨?_, id⟩
      intro hnil
      apply (List.append_eq_nil_iff.mp hnil).1

theorem Traced.visited [DecidableEq V] {seen : OperatorId → Option (SessionState P V)}
    {plan plan' : Plan P V O} {operator : O} (h : Traced seen plan.gather)
    (hvisited : Visited services plan plan' operator) :
  Traced seen plan'.gather
  := by
  cases hvisited with
  | stays debounce hplan hkeeps hdue =>
      subst hplan
      exact ⟨h.dated, @h.since, @h.running, @h.armed, @h.settled⟩
  | @revoked armed harmed hplan =>
      subst hplan
      refine h.advance (h.armed harmed) rfl rfl (fun h => h) ?_ ?_
      · intro other armed' harmed'
        rw [recordTerminalFailure] at harmed'
        dsimp only at harmed'
        rw [Dict.get?_erase] at harmed'
        split at harmed'
        · cases harmed'
        · apply harmed'
      · intro other hne
        rw [recordTerminalFailure]
        dsimp only
        rw [Dict.get?_erase, if_neg hne]
        exact ⟨rfl, rfl⟩
  | runs debounce hoperator hnone hretry hplan =>
      subst hplan
      exact ⟨h.dated, @h.since, @h.running, @h.armed, @h.settled⟩

/-- An operator that could run has run, and nothing is new to it that it would be rerun on. -/
def AtRest (services : Services P C O) (observed : Observed P C) (gather : Gather P V)
    (operator : O) : Prop :=
  services.isReady operator observed.presentTypes observed.availableTypes = true →
    gather.breaker.isTripped (services.operatorId operator) = false →
      gather.state.hasRun (services.operatorId operator) = true
        ∧ ((services.policy operator).rerunOnNewData = true →
          services.hasRelevantNewData operator
            (gather.deltaFor (services.operatorId operator) observed.availableIds) = false)

/-- What is at rest stays at rest where nothing of it is changed. -/
theorem AtRest.congr {gather' : Gather P V} {operator : O} (h : AtRest services observed gather operator)
    (hframe : Unplanned gather gather')
    (hwatermark : gather'.state.watermarks.get? (services.operatorId operator)
      = gather.state.watermarks.get? (services.operatorId operator)) :
  AtRest services observed gather' operator
  := by
  intro hready htripped
  rw [hframe.breaker] at htripped
  rw [deltaFor, SessionState.deltaFor, SessionState.hasRun, hwatermark, hframe.entries,
    hframe.prevCaps]
  apply h hready htripped

/-- An operator that does not run is at rest after its turn, if nothing is planned and nothing is
waited for. -/
theorem atRest_of_visit {plan plan' : Plan P V O} {operator : O}
    (hvisit : visit services observed clock plan operator = some plan')
    (hnone : plan.gather.running.get? (services.operatorId operator) = none)
    (hrunnable : plan'.runnable = []) (hsoonest : plan'.soonestDue = none) :
  AtRest services observed plan'.gather operator
  := by
  intro hready htripped
  have hwaits : ∀ {plan : Plan P V O} {controller : DebounceController},
      controller.isScheduled (services.operatorId operator) = true →
        (plan.track (controller.dueAt.get? (services.operatorId operator))).soonestDue ≠ none := by
    intro plan controller hscheduled
    apply Option.ne_none_iff_isSome.mpr
    apply track_soonestDue_isSome (Or.inr hscheduled)
  have hwindowed : ∀ {debounce : DebounceController} {now : Monotonic} {gather : Gather P V}
      {runnable : Runnable P V O}, debounce.isScheduled (services.operatorId operator) = true →
        (if debounce.isDue (services.operatorId operator) now = true then
          some (⟨gather, plan.runnable ++ [runnable], plan.soonestDue⟩ : Plan P V O)
        else some (Plan.track ⟨gather, plan.runnable, plan.soonestDue⟩
          (debounce.dueAt.get? (services.operatorId operator)))) = some plan' → False := by
    intro debounce now gather runnable hscheduled hplan
    split at hplan
    · obtain rfl := Option.some.inj hplan
      cases (List.append_eq_nil_iff.mp hrunnable).2
    · obtain rfl := Option.some.inj hplan
      apply hwaits hscheduled hsoonest
  rw [visit] at hvisit
  dsimp only at hvisit
  split at hvisit
  · rename_i hskip
    obtain rfl := Option.some.inj hvisit
    rcases hskip with hsome | htrips
    · rw [hnone] at hsome
      cases hsome
    · cases htripped.symm.trans htrips
  · rw [hready, Bool.not_true, if_neg Bool.false_ne_true, if_neg Bool.false_ne_true] at hvisit
    split at hvisit
    · rename_i hscheduled
      split at hvisit
      · obtain rfl := Option.some.inj hvisit
        cases (List.append_eq_nil_iff.mp hrunnable).2
      · obtain rfl := Option.some.inj hvisit
        cases hwaits hscheduled hsoonest
    · split at hvisit
      · obtain rfl := Option.some.inj hvisit
        cases (List.append_eq_nil_iff.mp hrunnable).2
      · rename_i hrun
        rw [Bool.not_eq_true', Bool.not_eq_false] at hrun
        split at hvisit
        · rename_i hnever
          obtain rfl := Option.some.inj hvisit
          rw [Bool.not_eq_true'] at hnever
          use hrun
          intro hrerun
          cases hnever.symm.trans hrerun
        · split at hvisit
          · rename_i hold
            obtain rfl := Option.some.inj hvisit
            rw [Bool.not_eq_true'] at hold
            use hrun
            intro _
            apply hold
          · -- its window is armed, now if not before
            split at hvisit
            · rename_i hscheduled
              cases hwindowed hscheduled hvisit
            · apply (hwindowed _ hvisit).elim
              rw [DebounceController.isScheduled_schedule, decide_eq_true rfl, Bool.true_or]

/-- Where nothing runs, all operators are at rest once they were visited, if nothing is planned and
nothing is waited for. -/
theorem Planned.atRest {plan : Plan P V O} (hkept : Kept services gather completions)
    (hnone : ∀ operatorId, gather.running.get? operatorId = none)
    (hvisits : services.operators.foldlM (Gather.visit services observed clock) ⟨gather, [], none⟩
      = some plan) (hrunnable : plan.runnable = []) (hsoonest : plan.soonestDue = none) :
  ∀ operator ∈ services.operators, AtRest services observed plan.gather operator
  := by
  have h := (planned_nil hkept).visits_induction
    (motive := fun visited plan => plan.runnable = [] → plan.soonestDue = none →
      ∀ operator ∈ visited, AtRest services observed plan.gather operator)
    services.unique (by
      intro visited plan plan' operator hplanned hfresh hvisit hvisited ih hrunnable hsoonest other hmem
      obtain ⟨hframe, hwatermarks, hnil, hunsoon⟩ := hvisited.frame
      rcases List.mem_append.mp hmem with hmem | hmem
      · apply (ih (hnil hrunnable) (hunsoon hsoonest) other hmem).congr hframe
        apply hwatermarks
        apply (hfresh other hmem).symm
      · obtain rfl := List.mem_singleton.mp hmem
        apply atRest_of_visit hvisit _ hrunnable hsoonest
        rw [hplanned.running]
        apply hnone) (by
      intro _ _ operator hmem
      cases hmem) hvisits
  apply h hrunnable hsoonest

/-- Planning changes nothing of what it never changes. -/
theorem unplanned_visits {plan : Plan P V O} (hkept : Kept services gather completions)
    (hvisits : services.operators.foldlM (Gather.visit services observed clock) ⟨gather, [], none⟩
      = some plan) :
  Unplanned gather plan.gather
  := by
  apply (planned_nil hkept).visits_induction
    (motive := fun _ plan => Unplanned gather plan.gather) services.unique _ _ hvisits
  · intro visited plan plan' operator _ _ _ hvisited hbefore
    have hframe := hvisited.frame.1
    constructor
    · rw [hframe.entries, hbefore.entries]
    · rw [hframe.revision, hbefore.revision]
    · rw [hframe.prevCaps, hbefore.prevCaps]
    · rw [hframe.breaker, hbefore.breaker]
  · exact ⟨rfl, rfl, rfl, rfl⟩

/-- Planning leaves what was seen where it was. -/
theorem Traced.visits [DecidableEq V] {seen : OperatorId → Option (SessionState P V)}
    {plan : Plan P V O} (h : Traced seen gather) (hkept : Kept services gather completions)
    (hvisits : services.operators.foldlM (Gather.visit services observed clock) ⟨gather, [], none⟩
      = some plan) :
  Traced seen plan.gather
  := by
  apply (planned_nil hkept).visits_induction
    (motive := fun _ plan => Traced seen plan.gather) services.unique _ h hvisits
  intro visited plan plan' operator _ _ _ hvisited hbefore
  apply hbefore.visited hvisited

end

/-! ### Launching -/

section

variable [DecidableEq P] [DecidableEq V] {gather : Gather P V}
  {seen : OperatorId → Option (SessionState P V)}

omit [DecidableEq P] [DecidableEq V] in
/-- A launch notes the revision it sees, and changes nothing of what is there. -/
theorem launch_state (observed : Observed P C) (gather : Gather P V) (runnable : Runnable P V O) :
  (launch services observed gather runnable).state = gather.state
    ∧ ∃ record, record.observedRevision = gather.state.revision
      ∧ (launch services observed gather runnable).running
        = gather.running.set (services.operatorId runnable.operator) record
  := by
  rw [Gather.launch]
  dsimp only
  split
  · refine ⟨rfl, _, ?_, rfl⟩
    rfl
  · refine ⟨rfl, _, ?_, rfl⟩
    rfl

/-- A launch sees what is there. -/
theorem Traced.launch {runnable : Runnable P V O} (h : Traced seen gather)
    (observed : Observed P C)
    (hretry : runnable.isRetry
      = (gather.armedRetries.get? (services.operatorId runnable.operator)).isSome) :
  Traced (fun operatorId =>
      if services.operatorId runnable.operator = operatorId then some gather.state
      else seen operatorId)
    (Gather.launch services observed gather runnable)
  := by
  obtain ⟨-, harmed, -, -, -, -, -, hhit⟩ := launch_frame observed hretry
  obtain ⟨hstate, record, hobserved, hrunning⟩ :=
    @launch_state P V C O services observed gather runnable
  constructor
  · rw [hstate]
    apply h.dated
  · intro operatorId state hsome
    rw [hstate]
    split at hsome
    · obtain rfl := Option.some.inj hsome
      apply SessionState.Since.refl
    · apply h.since hsome
  · intro operatorId running hsome
    rw [hrunning, Dict.get?_set] at hsome
    split at hsome
    · rename_i hsame
      obtain rfl := Option.some.inj hsome
      use gather.state, if_pos hsame, hobserved.symm
    · rename_i hne
      rw [if_neg hne]
      apply h.running hsome
  · intro operatorId armed hsome
    rw [harmed] at hsome
    split at hsome
    · cases hsome
    · rename_i hne
      rw [if_neg hne]
      apply h.armed hsome
  · intro hnot operatorId hnone hunarmed
    rw [hrunning, Dict.get?_set] at hnone
    rw [harmed] at hunarmed
    rw [hhit] at hnot
    split at hnone
    · cases hnone
    · rename_i hne
      rw [if_neg hne] at hunarmed ⊢
      rw [hstate]
      apply h.settled hnot hnone hunarmed

/-- All launches of a pass see what is there. -/
theorem Traced.launches {runnables : List (Runnable P V O)} (h : Traced seen gather)
    (observed : Observed P C)
    (hretry : ∀ runnable ∈ runnables, runnable.isRetry
      = (gather.armedRetries.get? (services.operatorId runnable.operator)).isSome)
    (hnodup : (runnables.map (fun runnable => services.operatorId runnable.operator)).Nodup) :
  Traced (fun operatorId =>
      if operatorId ∈ runnables.map (fun runnable => services.operatorId runnable.operator) then
        some gather.state
      else seen operatorId)
    (runnables.foldl (Gather.launch services observed) gather)
    ∧ (runnables.foldl (Gather.launch services observed) gather).state = gather.state
    ∧ ∀ operatorId,
      ((runnables.foldl (Gather.launch services observed) gather).running.get? operatorId).isSome
        ↔ operatorId ∈ runnables.map (fun runnable => services.operatorId runnable.operator)
          ∨ (gather.running.get? operatorId).isSome
  := by
  induction runnables generalizing gather seen with
  | nil =>
      refine ⟨?_, rfl, ?_⟩
      · simp only [List.map_nil, List.not_mem_nil, if_false]
        apply h
      · intro operatorId
        simp
  | cons runnable runnables ih =>
      rw [List.map_cons, List.nodup_cons] at hnodup
      have hfirst := hretry runnable List.mem_cons_self
      obtain ⟨-, harmed, -⟩ := launch_frame observed hfirst
      obtain ⟨hstate, record, -, hrunning⟩ := @launch_state P V C O services observed gather runnable
      have hrest : ∀ other ∈ runnables, other.isRetry
          = ((Gather.launch services observed gather runnable).armedRetries.get?
            (services.operatorId other.operator)).isSome := by
        intro other hmem
        rw [harmed, if_neg]
        · apply hretry other (List.mem_cons_of_mem _ hmem)
        · intro hsame
          apply hnodup.1
          rw [hsame]
          apply List.mem_map_of_mem hmem
      obtain ⟨htraced, hsame, hruns⟩ := ih (h.launch observed hfirst) hrest hnodup.2
      rw [List.foldl_cons]
      refine ⟨?_, hsame.trans hstate, ?_⟩
      · convert htraced using 2 with operatorId
        rw [hstate]
        by_cases hmine : services.operatorId runnable.operator = operatorId
        · rw [if_pos hmine, ite_self, if_pos]
          rw [← hmine]
          apply List.mem_cons_self
        · rw [if_neg hmine]
          apply if_congr _ rfl rfl
          rw [List.map_cons, List.mem_cons]
          apply or_iff_right (Ne.symm hmine)
      · intro operatorId
        rw [hruns, hrunning, Dict.get?_set, List.map_cons, List.mem_cons]
        split
        · rename_i hmine
          simp [hmine.symm]
        · rename_i hother
          rw [or_iff_right (Ne.symm hother)]

end

/-! ### Consuming -/

/-- A pass that does not go on waits for nothing. -/
theorem nextPhase_of_left {gather : Gather P V} {soonestDue : Option Monotonic}
    (h : gather.nextPhase soonestDue = .draining ∨ gather.nextPhase soonestDue = .cancelling
      ∨ gather.nextPhase soonestDue = .ended) :
  gather.nextPhase soonestDue = .draining
  := by
  rw [nextPhase] at h ⊢
  split
  · rename_i hrunning
    rw [if_pos hrunning] at h
    rcases h with h | h | h
    all_goals cases h
  · rename_i hidle
    rw [if_neg hidle] at h
    split
    · rename_i hsoonest
      rw [if_pos hsoonest] at h
      rcases h with h | h | h
      all_goals cases h
    · rfl

section

variable [DecidableEq P] [DecidableEq V] {gather : Gather P V}
  {seen : OperatorId → Option (SessionState P V)}

/-- Where nothing is queued, nothing is consumed. -/
theorem consume_of_queue_nil (hqueue : gather.queue = []) (clock : OperatorId → Monotonic) :
  gather.consume services clock = some gather
  := by
  obtain ⟨state, runs, failures, failedAttempts, armedRetries, prevCaps, breaker, debounce, retries,
    running, queue, deadline, deadlineHit, phase, lastEnding⟩ := gather
  obtain rfl := hqueue
  rfl

/-- A run that ends has seen what it saw. -/
theorem Traced.ends (h : Traced seen gather) {operatorId : OperatorId} {record record' : Running}
    (hrecord : gather.running.get? operatorId = some record)
    (hsame : record'.observedRevision = record.observedRevision) (queue : List (Signal P V))
    (lastEnding : Dict OperatorId RunEnding) :
  Traced seen { gather with
    queue := queue
    running := gather.running.set operatorId record'
    lastEnding := lastEnding }
  := by
  constructor
  · apply h.dated
  · apply @h.since
  · intro other running hsome
    dsimp only at hsome
    rw [Dict.get?_set] at hsome
    split at hsome
    · rename_i hmine
      obtain rfl := Option.some.inj hsome
      rw [hsame, ← hmine]
      apply h.running hrecord
    · apply h.running hsome
  · apply @h.armed
  · intro hnot other hnone hunarmed
    dsimp only at hnone
    rw [Dict.get?_set] at hnone
    split at hnone
    · cases hnone
    · apply h.settled hnot hnone hunarmed

end

end Gather

/-! ### The end -/

/-- A session, with what its last pass found available and what the last launch of each operator
saw. -/
structure Watched (P V : Type) where
  gather : Gather P V
  available : Finset CapabilityId
  seen : OperatorId → Option (SessionState P V)

namespace Watched

variable {P V C O : Type} [DecidableEq P] [DecidableEq V] [DecidableEq C]

/-- A session before its gathering. -/
def initial (services : Services P C O) (seed : List (DataPoint P V)) (now : Monotonic) :
    Watched P V :=
  ⟨Gather.initial services seed now, ∅, fun _ => none⟩

/-- What is noted of an action: a pass launches what did not run before it and runs after it. -/
def note (watched : Watched P V) (gather : Gather P V) : Action P V → Watched P V
  | .pass _ available _ =>
    { gather := gather
      available := available
      seen := fun operatorId =>
        if watched.gather.running.get? operatorId = none
            ∧ (gather.running.get? operatorId).isSome then
          some gather.state
        else watched.seen operatorId }
  | _ => { watched with gather := gather }

/-- The session after an action, if it can be taken. -/
def step (services : Services P C O) (watched : Watched P V) (action : Action P V) :
    Option (Watched P V) :=
  (watched.gather.step services action).map (fun gather => watched.note gather action)

/-- What holds of every state of a session that is watched. -/
structure Caught (services : Services P C O) (watched : Watched P V) : Prop where
  sound : Gather.Sound services watched.gather
  traced : Gather.Traced watched.seen watched.gather
  /-- What emits still runs. -/
  emitting : ∀ {operatorId dataPoint},
    Signal.emitted operatorId dataPoint ∈ watched.gather.queue →
      (watched.gather.running.get? operatorId).isSome
  /-- Without a deadline, the loop is left only where everything is at rest. -/
  rest : watched.gather.phase = .draining ∨ watched.gather.phase = .cancelling
      ∨ watched.gather.phase = .ended →
    watched.gather.deadlineHit = false → watched.gather.queue = [] ∧ watched.gather.Idle
      ∧ ∀ operator ∈ services.operators, ∀ now, Gather.AtRest services
        (watched.gather.observed services now watched.available) watched.gather operator

variable {services : Services P C O} {watched watched' : Watched P V}

omit [DecidableEq P] [DecidableEq V] [DecidableEq C] in
/-- Where nothing runs, nothing is queued. -/
theorem queue_eq_nil {gather : Gather P V} (hsound : Gather.Sound services gather)
    (hemitting : ∀ {operatorId dataPoint}, Signal.emitted operatorId dataPoint ∈ gather.queue →
      (gather.running.get? operatorId).isSome) (hidle : gather.Idle) :
  gather.queue = []
  := by
  rw [List.eq_nil_iff_forall_not_mem]
  intro signal hmem
  cases signal with
  | emitted operatorId dataPoint =>
      have hsome := hemitting hmem
      rw [hidle.1] at hsome
      cases hsome
  | completed signal =>
      have hmem' : signal ∈ gather.completions := by
        apply List.mem_filterMap.mpr
        use .completed signal, hmem
        rfl
      rw [hidle.completions_eq_nil hsound.kept] at hmem'
      cases hmem'

/-- A task that ends or emits does so while its run is under way. -/
theorem Caught.works {gather : Gather P V} (h : Caught services watched)
    {operatorId : OperatorId} (hrunning : (watched.gather.running.get? operatorId).isSome)
    (hsound : Gather.Sound services gather) (htraced : Gather.Traced watched.seen gather)
    (hphase : gather.phase = watched.gather.phase)
    (hhit : gather.deadlineHit = watched.gather.deadlineHit)
    (hemitting : ∀ {operatorId dataPoint}, Signal.emitted operatorId dataPoint ∈ gather.queue →
      (gather.running.get? operatorId).isSome) :
  Caught services { watched with gather := gather }
  := by
  constructor
  · apply hsound
  · apply htraced
  · apply @hemitting
  · intro hleft hnot
    dsimp only at hleft hnot
    rw [hphase] at hleft
    rw [hhit] at hnot
    obtain ⟨-, hidle, -⟩ := h.rest hleft hnot
    rw [hidle.1] at hrunning
    cases hrunning

/-- A pass launches on what is there, and leaves the loop only where everything is at rest. -/
theorem Caught.passes {gather : Gather P V} {now : Monotonic} {available : Finset CapabilityId}
    {clock : OperatorId → Monotonic} (h : Caught services watched)
    (hstep : watched.gather.step services (.pass now available clock) = some gather) :
  Caught services (watched.note gather (.pass now available clock))
  := by
  have hsound := h.sound.step hstep
  rw [Gather.step, Option.ite_none_right_eq_some] at hstep
  obtain ⟨hlooping, hstep⟩ := hstep
  split at hstep
  · obtain rfl := Option.some.inj hstep
    have hseen : (watched.note { watched.gather with deadlineHit := true, phase := .draining }
        (.pass now available clock)).seen = watched.seen := by
      funext operatorId
      apply if_neg
      rintro ⟨hnone, hsome⟩
      dsimp only at hsome
      rw [hnone] at hsome
      cases hsome
    constructor
    · apply hsound
    · rw [hseen]
      constructor
      · apply h.traced.dated
      · apply @h.traced.since
      · apply @h.traced.running
      · apply @h.traced.armed
      · rintro ⟨⟩
    · apply @h.emitting
    · intro _ hnot
      cases hnot
  · have hkept := h.sound.kept
    obtain ⟨passed, hpass, -, hqueue, hhit, -⟩ := hkept.pass now available clock
    obtain rfl := Option.some.inj (hpass.symm.trans hstep)
    rw [Gather.pass] at hstep
    split at hstep
    · cases hstep
    · rename_i plan hvisits
      obtain ⟨plan', hvisits', hplan⟩ :=
        (Gather.planned_nil hkept).visits _ clock services.unique
      obtain rfl := Option.some.inj (hvisits'.symm.trans hvisits)
      have htraced := h.traced.visits hkept hvisits
      have hframe := Gather.unplanned_visits hkept hvisits
      obtain ⟨hlaunched, hstate, hruns⟩ := htraced.launches
        (watched.gather.observed services now available)
        (fun runnable hmem => (hplan.runnable runnable hmem).2.2) hplan.nodup
      rw [hplan.running] at hruns
      have hpassed := Option.some.inj hstep
      have hrunning : ∀ operatorId, (passed.running.get? operatorId).isSome
          ↔ operatorId ∈ plan'.runnable.map
              (fun runnable => services.operatorId runnable.operator)
            ∨ (watched.gather.running.get? operatorId).isSome := by
        intro operatorId
        rw [← hpassed]
        apply hruns
      have hstate' : passed.state = plan'.gather.state := by
        rw [← hpassed]
        apply hstate
      have hemitting : ∀ {operatorId dataPoint}, Signal.emitted operatorId dataPoint ∈ passed.queue →
          (passed.running.get? operatorId).isSome := by
        intro operatorId dataPoint hmem
        rw [hqueue] at hmem
        apply (hrunning operatorId).mpr
        right
        apply h.emitting hmem
      constructor
      · apply hsound
      · -- what is launched did not run, and runs now
        have hseen : (watched.note passed (.pass now available clock)).seen
            = fun operatorId =>
              if operatorId ∈ plan'.runnable.map
                (fun runnable => services.operatorId runnable.operator) then
                some plan'.gather.state
              else watched.seen operatorId := by
          funext operatorId
          rw [← hstate']
          apply if_congr _ rfl rfl
          rw [hrunning]
          constructor
          · rintro ⟨hnone, hmem | hsome⟩
            · apply hmem
            · rw [hnone] at hsome
              cases hsome
          · intro hmem
            obtain ⟨runnable, hrunnable, rfl⟩ := List.mem_map.mp hmem
            use (hplan.runnable runnable hrunnable).2.1
            left
            apply hmem
        rw [hseen]
        subst hpassed
        exact ⟨hlaunched.dated, @hlaunched.since, @hlaunched.running, @hlaunched.armed,
          @hlaunched.settled⟩
      · apply @hemitting
      · intro hleft hnot
        have hphase : passed.phase = .draining := by
          rw [← hpassed] at hleft ⊢
          apply Gather.nextPhase_of_left hleft
        have hidle : passed.Idle := by
          apply (hsound.quiet (Or.inl hphase)).resolve_left
          rw [Bool.not_eq_true]
          apply hnot
        have hrunnable : plan'.runnable = [] := by
          rw [List.eq_nil_iff_forall_not_mem]
          intro runnable hmem
          have hsome := (hrunning _).mpr (Or.inl (List.mem_map_of_mem hmem))
          rw [hidle.1] at hsome
          cases hsome
        have hnone : ∀ operatorId, watched.gather.running.get? operatorId = none := by
          intro operatorId
          rw [← Option.not_isSome_iff_eq_none]
          intro hsome
          have hsome' := (hrunning operatorId).mpr (Or.inr hsome)
          rw [hidle.1] at hsome'
          cases hsome'
        have hsoonest : plan'.soonestDue = none := by
          rw [← hpassed] at hphase
          rw [← Option.not_isSome_iff_eq_none, (Gather.nextPhase_eq_draining hphase).2]
          apply Bool.false_ne_true
        have hview : passed.state.view = watched.gather.state.view := by
          rw [SessionState.view, hstate', hframe.entries, SessionState.view]
        use queue_eq_nil hsound hemitting hidle, hidle
        intro operator hmem now' hready
        have hrest := Gather.Planned.atRest hkept hnone hvisits hrunnable hsoonest operator hmem
        rw [note, Gather.observed, hview] at hready
        rw [hrunnable, List.foldl_nil] at hpassed
        subst hpassed
        apply hrest hready

/-- Consuming leaves nothing queued. -/
theorem Caught.consumes {consumed gather : Gather P V} {clock : OperatorId → Monotonic}
    (h : Caught services watched) (hconsume : watched.gather.consume services clock = some consumed)
    (hsound : Gather.Sound services gather) (htraced : Gather.Traced watched.seen gather)
    (hqueue : gather.queue = consumed.queue)
    (hrest : gather.phase = .draining ∨ gather.phase = .cancelling ∨ gather.phase = .ended →
      gather.deadlineHit = false → consumed = watched.gather → gather.Idle
        ∧ ∀ operator ∈ services.operators, ∀ now, Gather.AtRest services
          (gather.observed services now watched.available) gather operator)
    (hleft : gather.phase = .draining ∨ gather.phase = .cancelling ∨ gather.phase = .ended →
      watched.gather.phase = .draining ∨ watched.gather.phase = .cancelling)
    (hhit : gather.deadlineHit = consumed.deadlineHit) :
  Caught services { watched with gather := gather }
  := by
  obtain ⟨consumed', hconsume', -, hnil, -, hhits, -⟩ := h.sound.kept.consume clock
  obtain rfl := Option.some.inj (hconsume'.symm.trans hconsume)
  constructor
  · apply hsound
  · apply htraced
  · intro operatorId dataPoint hmem
    dsimp only at hmem
    rw [hqueue, hnil] at hmem
    cases hmem
  · intro hphase hnot
    have hnot' : watched.gather.deadlineHit = false := by
      rw [← Bool.not_eq_true]
      intro htrue
      rw [hhit, hhits htrue] at hnot
      cases hnot
    have hphase' : watched.gather.phase = .draining ∨ watched.gather.phase = .cancelling
        ∨ watched.gather.phase = .ended := by
      rcases hleft hphase with hphase | hphase
      · left
        apply hphase
      · right
        left
        apply hphase
    obtain ⟨hempty, -⟩ := h.rest hphase' hnot'
    have hsame := Option.some.inj
      (hconsume.symm.trans (Gather.consume_of_queue_nil hempty clock))
    use hqueue.trans hnil
    apply hrest hphase hnot hsame

theorem caught_initial (seed : List (DataPoint P V)) (now : Monotonic) :
  Caught services (initial services seed now)
  := by
  constructor
  · apply Gather.sound_initial
  · constructor
    · apply SessionState.dated_initial.merge
    · nofun
    · nofun
    · nofun
    · intro _ operatorId _ _
      rfl
  · nofun
  · nofun

theorem Caught.step {action : Action P V} (h : Caught services watched)
    (hstep : watched.step services action = some watched') :
  Caught services watched'
  := by
  rw [Watched.step, Option.map_eq_some_iff] at hstep
  obtain ⟨gather, hstep, rfl⟩ := hstep
  have hsound := h.sound.step hstep
  cases action with
  | emit operatorId dataPoint =>
      rw [Gather.step, Option.ite_none_right_eq_some, Option.some.injEq] at hstep
      obtain ⟨hworking, rfl⟩ := hstep
      obtain ⟨record, hrecord, -⟩ := Option.map_eq_some_iff.mp hworking
      have hrunning : (watched.gather.running.get? operatorId).isSome := by
        rw [hrecord]
        rfl
      apply h.works hrunning hsound _ rfl rfl
      · intro other dataPoint' hmem
        rcases List.mem_append.mp hmem with hmem | hmem
        · apply h.emitting hmem
        · cases List.mem_singleton.mp hmem
          apply hrunning
      · exact ⟨h.traced.dated, @h.traced.since, @h.traced.running, @h.traced.armed,
          @h.traced.settled⟩
  | finish operatorId error =>
      rw [Gather.step] at hstep
      split at hstep
      · cases hstep
      · rename_i record hrecord
        dsimp only at hstep
        rw [Option.ite_none_right_eq_some, Option.some.injEq] at hstep
        obtain ⟨-, rfl⟩ := hstep
        have hrunning : (watched.gather.running.get? operatorId).isSome := by
          rw [hrecord]
          rfl
        apply h.works hrunning hsound _ rfl rfl
        · intro other dataPoint hmem
          dsimp only
          rw [Dict.get?_set]
          split
          · rfl
          · rcases List.mem_append.mp hmem with hmem | hmem
            · apply h.emitting hmem
            · cases List.mem_singleton.mp hmem
        · refine h.traced.ends hrecord ?_ _ _
          rfl
  | cancelled operatorId =>
      rw [Gather.step] at hstep
      split at hstep
      · cases hstep
      · rename_i record hrecord
        rw [Option.ite_none_right_eq_some, Option.some.injEq] at hstep
        obtain ⟨-, rfl⟩ := hstep
        have hrunning : (watched.gather.running.get? operatorId).isSome := by
          rw [hrecord]
          rfl
        apply h.works hrunning hsound _ rfl rfl
        · intro other dataPoint hmem
          dsimp only
          rw [Dict.get?_set]
          split
          · rfl
          · apply h.emitting hmem
        · refine h.traced.ends hrecord ?_ _ _
          rfl
  | pass now available clock => apply h.passes hstep
  | signalled clock =>
      rw [Gather.step, Option.ite_none_right_eq_some, Option.map_eq_some_iff] at hstep
      obtain ⟨-, consumed, hconsume, rfl⟩ := hstep
      have htraced := h.traced.consume hconsume
      refine h.consumes hconsume hsound ?_ rfl ?_ ?_ rfl
      · exact ⟨htraced.dated, @htraced.since, @htraced.running, @htraced.armed, @htraced.settled⟩
      · rintro (hphase | hphase | hphase)
        all_goals cases hphase
      · rintro (hphase | hphase | hphase)
        all_goals cases hphase
  | due =>
      rw [Gather.step, Option.ite_none_right_eq_some, Option.some.injEq] at hstep
      obtain ⟨-, rfl⟩ := hstep
      constructor
      · apply hsound
      · exact ⟨h.traced.dated, @h.traced.since, @h.traced.running, @h.traced.armed,
          @h.traced.settled⟩
      · apply @h.emitting
      · rintro (hphase | hphase | hphase)
        all_goals cases hphase
  | drain clock =>
      rw [Gather.step, Option.ite_none_right_eq_some, Option.map_eq_some_iff] at hstep
      obtain ⟨hphase, consumed, hconsume, rfl⟩ := hstep
      have htraced := h.traced.consume hconsume
      apply h.consumes hconsume hsound _ rfl _ (fun _ => Or.inl hphase) rfl
      · exact ⟨htraced.dated, @htraced.since, @htraced.running, @htraced.armed, @htraced.settled⟩
      · intro _ hnot hsame
        subst hsame
        obtain ⟨-, hidle, hrest⟩ := h.rest (Or.inl hphase) hnot
        exact ⟨hidle, hrest⟩
  | close clock =>
      rw [Gather.step, Option.ite_none_right_eq_some, Option.map_eq_some_iff] at hstep
      obtain ⟨⟨hphase, -⟩, consumed, hconsume, rfl⟩ := hstep
      have htraced := h.traced.consume hconsume
      apply h.consumes hconsume hsound _ rfl _ (fun _ => Or.inr hphase) rfl
      · constructor
        · apply htraced.dated
        · apply @htraced.since
        · intro operatorId running hget
          cases hget
        · apply @htraced.armed
        · -- nothing ran any more
          intro hnot operatorId _ hunarmed
          obtain ⟨consumed', hconsume', -, -, hover⟩ := h.sound.consume clock (Or.inr hphase)
          obtain rfl := Option.some.inj (hconsume'.symm.trans hconsume)
          rcases hover with htrue | hidle
          · cases hnot.symm.trans htrue
          · apply htraced.settled hnot (hidle.1 operatorId) hunarmed
      · intro _ hnot hsame
        subst hsame
        obtain ⟨-, hidle, hrest⟩ := h.rest (Or.inr (Or.inl hphase)) hnot
        exact ⟨⟨fun _ => rfl, hidle.2⟩, hrest⟩

theorem caught_run {seed : List (DataPoint P V)} {now : Monotonic} {actions : List (Action P V)}
    (hrun : TransitionSystem.run (step services) (initial services seed now) actions
      = some watched) :
  Caught services watched
  := by
  apply TransitionSystem.run_invariant _ (caught_initial seed now) hrun
  intro before action after h hstep
  apply h.step hstep

/-- Only operators of the session are launched. -/
theorem known_of_seen {seed : List (DataPoint P V)} {now : Monotonic} {actions : List (Action P V)}
    (hrun : TransitionSystem.run (step services) (initial services seed now) actions
      = some watched) {operatorId : OperatorId} (hseen : (watched.seen operatorId).isSome) :
  Gather.known services operatorId
  := by
  suffices h : Caught services watched
      ∧ ∀ operatorId, (watched.seen operatorId).isSome → Gather.known services operatorId by
    apply h.2 operatorId hseen
  apply TransitionSystem.run_invariant (P := fun watched => Caught services watched
    ∧ ∀ operatorId, (watched.seen operatorId).isSome → Gather.known services operatorId) _ _ hrun
  · rintro before action after ⟨hcaught, hknown⟩ hstep
    have hafter := hcaught.step hstep
    use hafter
    intro operatorId hseen
    obtain ⟨gather, -, rfl⟩ := Option.map_eq_some_iff.mp hstep
    cases action with
    | pass now available clock =>
        dsimp only [note] at hseen
        split at hseen
        · -- the pass has launched it
          rename_i hlaunched
          apply hafter.sound.kept.running hlaunched.2
        · apply hknown operatorId hseen
    | _ => apply hknown operatorId hseen
  · use caught_initial seed now
    intro operatorId hseen
    cases hseen

end Watched

/-- In a session that ended by itself, every operator that its last pass found ready, and that its
cap still lets run, has run. If it is rerun on new data, its last launch had every capability that
the last pass found, and saw all that it takes as it is at the end: every DataPoint that it is
triggered by as it stands, or at least that it is there, where only what is added counts. -/
theorem quiescent_saw_everything {P V C O : Type} [DecidableEq P] [DecidableEq V] [DecidableEq C]
    (services : Services P C O) (seed : List (DataPoint P V)) (now : Monotonic)
    (actions : List (Action P V)) {watched : Watched P V}
    (hrun : TransitionSystem.run (Watched.step services) (Watched.initial services seed now) actions
      = some watched) (hended : watched.gather.phase = .ended)
    (hquiet : watched.gather.deadlineHit = false) :
  ∀ operator ∈ services.operators,
    let operatorId := services.operatorId operator
    services.isReady operator (watched.gather.state.view.map DataPoint.type).toFinset
        (Declarations.typesOf (services.declarations.registered services.capabilities)
          watched.available) = true →
      watched.gather.breaker.isTripped operatorId = false →
        ∃ saw, watched.seen operatorId = some saw
          ∧ ((services.policy operator).rerunOnNewData = true →
            watched.available ⊆ (watched.gather.prevCaps.get? operatorId).getD ∅
              ∧ ∀ dataPoint ∈ watched.gather.state.view,
                (∃ trigger ∈ services.declarations.dependsOn operator
                    ∪ services.declarations.uses operator,
                  services.declarations.dataPoints.issubclass dataPoint.type trigger = true) →
                  match (services.policy operator).rerunOn with
                  | .addedOnly => dataPoint.identityKey ∈ saw.view.map DataPoint.identityKey
                  | .addedOrUpdated => dataPoint ∈ saw.view)
  := by
  have hcaught := Watched.caught_run hrun
  obtain ⟨-, hidle, hrest⟩ := hcaught.rest (Or.inr (Or.inr hended)) hquiet
  intro operator hmem operatorId hready htripped
  obtain ⟨hhasRun, hnew⟩ := hrest operator hmem 0 hready htripped
  have hwatermark :=
    hcaught.traced.settled hquiet (hidle.1 operatorId) (hidle.2 operatorId)
  rw [SessionState.hasRun, hwatermark, Option.isSome_map, Option.isSome_iff_exists] at hhasRun
  obtain ⟨saw, hsaw⟩ := hhasRun
  rw [hsaw, Option.map_some] at hwatermark
  have hsince := hcaught.traced.since hsaw
  use saw, hsaw
  intro hrerun
  have hold := hnew hrerun
  rw [Gather.deltaFor, SessionState.deltaFor, hwatermark, Services.hasRelevantNewData] at hold
  dsimp only at hold
  split at hold
  · cases hold
  · rename_i hcaps
    rw [not_not, Finset.sdiff_eq_empty_iff_subset] at hcaps
    use hcaps
    rw [decide_eq_false_iff_not] at hold
    intro dataPoint hview htriggers
    obtain ⟨entry, hentry, rfl⟩ := List.mem_map.mp hview
    obtain ⟨key, hget⟩ := Dict.mem_values_iff.mp hentry
    obtain ⟨trigger, htrigger, hsubclass⟩ := htriggers
    have hseen : ∀ {newData : List (DataPoint P V)},
        (¬∃ dataPoint ∈ newData, ∃ trigger ∈ services.declarations.dependsOn operator
            ∪ services.declarations.uses operator,
          services.declarations.dataPoints.issubclass dataPoint.type trigger = true) →
          entry.dataPoint ∉ newData := by
      intro newData hnone hnew'
      apply hnone ⟨entry.dataPoint, hnew', trigger, htrigger, hsubclass⟩
    have hadded : ∀ {earlier : Revision},
        entry.dataPoint ∉ ((watched.gather.state.entries.values.filter (fun entry =>
          earlier < entry.addedRev)).map Entry.dataPoint) → entry.addedRev ≤ earlier := by
      intro earlier hnot
      by_contra hlater
      apply hnot
      apply List.mem_map_of_mem
      rw [List.mem_filter, decide_eq_true_eq]
      exact ⟨hentry, Nat.lt_of_not_le hlater⟩
    cases hrerunOn : (services.policy operator).rerunOn with
    | addedOnly =>
        rw [hrerunOn] at hold
        apply hsince.added hget (hadded (hseen hold))
    | addedOrUpdated =>
        rw [hrerunOn] at hold
        have hboth := hseen hold
        rw [List.mem_append, not_or] at hboth
        apply hsince.updated hget
        by_contra hlater
        apply hboth.2
        apply List.mem_map_of_mem
        rw [List.mem_filter, decide_eq_true_eq]
        exact ⟨hentry, hadded hboth.1, Nat.lt_of_not_le hlater⟩

/-- A scan, and an operator that adds to each host it finds. -/
def enriched : Services Bool Empty Bool where
  declarations :=
    { dataPoints := Hierarchy.flat Bool
      abstractTypes := ∅
      registeredLeaves := [false, true]
      capabilities := Hierarchy.flat Empty
      capabilityId := nofun
      capabilityDependsOn := nofun
      capabilityRequires := nofun
      operatorId := fun enriches => if enriches then "enrich" else "scan"
      dependsOn := fun enriches => if enriches then {false} else ∅
      uses := fun _ => ∅
      produces := fun enriches => {enriches}
      requires := fun _ => ∅
      aggregator := fun _ => none }
  operators := [false, true]
  capabilities := []
  policy := fun enriches => ⟨enriches, .addedOrUpdated, none⟩
  debounce := fun _ => none
  retry := fun _ => none
  timeout := fun _ => none
  operationTimeout := 60
  sessionDeadline := some 300
  caps := .empty
  unique := by decide

/-- The second host is found while the first is worked on, and that is run again for it. -/
def enrichedRuns : List (Action Bool String) :=
  [.pass 0 ∅ (fun _ => 0), .emit "scan" ⟨false, "a", "scan", 1, 1⟩, .signalled (fun _ => 1),
    .pass 1 ∅ (fun _ => 1), .emit "scan" ⟨false, "b", "scan", 2, 2⟩, .finish "scan" none,
    .signalled (fun _ => 2), .pass 2 ∅ (fun _ => 2), .finish "enrich" none,
    .signalled (fun _ => 3), .pass 3 ∅ (fun _ => 3), .finish "enrich" none,
    .signalled (fun _ => 4), .pass 4 ∅ (fun _ => 4), .drain (fun _ => 4), .close (fun _ => 4)]

/-- The last launch saw both hosts. -/
theorem quiescent_saw_everything_enriched :
  ∃ watched, TransitionSystem.run (Watched.step enriched) (Watched.initial enriched [] 0)
        enrichedRuns = some watched
      ∧ watched.gather.state.view.map DataPoint.value = ["a", "b"]
      ∧ ∃ saw, watched.seen "enrich" = some saw
        ∧ ∀ dataPoint ∈ watched.gather.state.view, dataPoint ∈ saw.view
  := by
  have hruns : (TransitionSystem.run (Watched.step enriched) (Watched.initial enriched [] 0)
      enrichedRuns).map (fun watched =>
        (watched.gather.phase, watched.gather.deadlineHit, watched.gather.breaker.caps.get? "enrich",
          watched.gather.state.view))
      = some (.ended, false, none,
        [⟨false, "a", "scan", 1, 1⟩, ⟨false, "b", "scan", 2, 2⟩]) := by
    rfl
  obtain ⟨watched, hrun, hwatched⟩ := Option.map_eq_some_iff.mp hruns
  simp only [Prod.mk.injEq] at hwatched
  obtain ⟨hphase, hhit, hcap, hview⟩ := hwatched
  have hready : enriched.isReady true (watched.gather.state.view.map DataPoint.type).toFinset
      (Declarations.typesOf (enriched.declarations.registered enriched.capabilities)
        watched.available) = true := by
    rw [hview]
    rfl
  have htripped : watched.gather.breaker.isTripped "enrich" = false := by
    rw [CircuitBreaker.isTripped, hcap]
  obtain ⟨saw, hsaw, hold⟩ := quiescent_saw_everything enriched [] 0 enrichedRuns hrun hphase hhit
    true (by decide) hready htripped
  use watched, hrun
  constructor
  · rw [hview]
    rfl
  · use saw, hsaw
    intro dataPoint hmem
    apply (hold rfl).2 dataPoint hmem
    use false, by decide
    rw [hview] at hmem
    simp only [List.mem_cons, List.not_mem_nil, or_false] at hmem
    rcases hmem with rfl | rfl
    · rfl
    · rfl

end Lite

end Orcastork
