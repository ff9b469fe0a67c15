import Orcastork.Library.TransitionSystem
import Orcastork.Lite.Recording

/-!
# The failure report of the lite orchestrator

A run that failed with no retry left, or was cancelled, is reported at once. One whose retry is
armed is reported once the retry is lost to a revocation, or once it has failed in turn; when the
deadline ends the session first, nothing reports it. So the report has every operator whose last run
did not succeed exactly if the session closes with no retry left to an operator that was not
reported before (`complete_iff`), and always if it ends by itself (`complete_of_quiet`).
-/

namespace Orcastork

namespace Lite

namespace Gather

variable {P V C O : Type}

/-! ### Tasks -/

section

variable {services : Services P C O} {gather : Gather P V} {completions : List Completed}

/-- The task of a run ends, and with it the run: a completion is queued unless it was cancelled. -/
theorem Kept.ends {operatorId : OperatorId} {record record' : Running} {ending : RunEnding}
    {signals : List Completed} {queue : List (Signal P V)} (h : Kept services gather completions)
    (hrecord : gather.running.get? operatorId = some record) (hworking : record.task = .working)
    (hsignals : signals.map Completed.operatorId
      = if record'.task = .reported then [operatorId] else [])
    (hended : ∀ signal ∈ signals, signal.ending = ending) :
  Kept services
    { gather with
      queue := queue
      running := gather.running.set operatorId record'
      lastEnding := gather.lastEnding.set operatorId ending } (completions ++ signals)
  := by
  have hother : ∀ signal ∈ completions, operatorId ≠ signal.operatorId := by
    rintro signal hmem rfl
    obtain ⟨htask, -⟩ := h.queued signal hmem
    rw [hrecord, Option.map_some, hworking] at htask
    cases htask
  have hmine : ∀ signal ∈ signals, record'.task = .reported ∧ signal.operatorId = operatorId := by
    intro signal hmem
    have hmem' := List.mem_map_of_mem (f := Completed.operatorId) hmem
    rw [hsignals] at hmem'
    split at hmem'
    · rename_i hreported
      use hreported, List.mem_singleton.mp hmem'
    · cases hmem'
  constructor
  · intro signal hmem
    dsimp only
    rcases List.mem_append.mp hmem with hmem | hmem
    · rw [Dict.get?_set_of_ne _ (hother signal hmem), Dict.get?_set_of_ne _ (hother signal hmem)]
      apply h.queued signal hmem
    · obtain ⟨hreported, rfl⟩ := hmine signal hmem
      rw [Dict.get?_set_self, Dict.get?_set_self, hended signal hmem, Option.map_some, hreported]
      use rfl
  · rw [List.map_append, hsignals]
    apply List.Nodup.append h.nodup
    · split
      · apply List.nodup_singleton
      · apply List.nodup_nil
    · intro other hmem hmem'
      obtain ⟨signal, hsignal, rfl⟩ := List.mem_map.mp hmem
      split at hmem'
      · cases hother signal hsignal (List.mem_singleton.mp hmem').symm
      · cases hmem'
  · intro other htask
    rw [List.map_append, List.mem_append, hsignals]
    dsimp only at htask
    rw [Dict.get?_set] at htask
    split at htask
    · rename_i hsame
      right
      rw [if_pos (Option.some.inj htask), hsame]
      apply List.mem_singleton_self
    · left
      apply h.reported other htask
  · intro other ending' hnone hlast
    dsimp only at hnone hlast
    rw [Dict.get?_set] at hnone hlast
    split at hnone
    · cases hnone
    · rename_i hne
      rw [if_neg hne] at hlast
      apply h.settled hnone hlast
  · intro other hsome
    obtain ⟨hnone, hraised, htripped⟩ := h.armed hsome
    have hne : operatorId ≠ other := by
      rintro rfl
      cases hrecord.symm.trans hnone
    dsimp only
    rw [Dict.get?_set_of_ne _ hne, Dict.get?_set_of_ne _ hne]
    use hnone, hraised
  · apply h.scheduled
  · intro other hsome
    dsimp only at hsome
    apply h.running
    rw [Dict.get?_set] at hsome
    split at hsome
    · rename_i hsame
      rw [← hsame, hrecord]
      rfl
    · apply hsome

end

/-! ### Planning -/

/-- What the turn of an operator does to a plan: nothing but to arm a window, a lost retry turned
into a terminal failure, or a launch planned. -/
inductive Visited (services : Services P C O) (plan plan' : Plan P V O) (operator : O) : Prop where
  | stays (debounce : DebounceController) {soonestDue : Option Monotonic}
      (hplan : plan' = ⟨{ plan.gather with debounce := debounce }, plan.runnable, soonestDue⟩)
      (hkeeps : plan.soonestDue.isSome → soonestDue.isSome)
      (hdue : (plan.gather.armedRetries.get? (services.operatorId operator)).isSome →
        soonestDue.isSome)
  | revoked {armed : ArmedRetry}
      (harmed : plan.gather.armedRetries.get? (services.operatorId operator) = some armed)
      (hplan : plan' = ⟨Gather.recordTerminalFailure
        { plan.gather with
          retries := plan.gather.retries.clear (services.operatorId operator)
          armedRetries := plan.gather.armedRetries.erase (services.operatorId operator) }
        (services.operatorId operator) armed.error armed.observedRevision,
        plan.runnable, plan.soonestDue⟩)
  | runs (debounce : DebounceController) {runnable : Runnable P V O}
      (hoperator : runnable.operator = operator)
      (hnone : plan.gather.running.get? (services.operatorId operator) = none)
      (hretry : runnable.isRetry
        = (plan.gather.armedRetries.get? (services.operatorId operator)).isSome)
      (hplan : plan' = ⟨{ plan.gather with debounce := debounce }, plan.runnable ++ [runnable],
        plan.soonestDue⟩)

theorem track_soonestDue_isSome {plan : Plan P V O} {dueAt : Option Monotonic}
    (h : plan.soonestDue.isSome ∨ dueAt.isSome) :
  (plan.track dueAt).soonestDue.isSome
  := by
  unfold Plan.track
  cases hdue : dueAt with
  | none => simpa [hdue] using h
  | some due =>
      cases hsoonest : plan.soonestDue with
      | none => rfl
      | some soonest => rfl

/-- A lost retry is a terminal failure. -/
theorem Kept.revoke {services : Services P C O} {gather : Gather P V}
    {completions : List Completed} (h : Kept services gather completions)
    {operatorId : OperatorId} (error : RunError) (observedRevision : Revision) :
  Kept services
    (Gather.recordTerminalFailure
      { gather with
        retries := gather.retries.clear operatorId
        armedRetries := gather.armedRetries.erase operatorId } operatorId error observedRevision)
    completions
  := by
  constructor
  · apply h.queued
  · apply h.nodup
  · apply h.reported
  · intro other ending hnone hlast
    rw [recordTerminalFailure]
    dsimp only
    rw [Dict.get?_set, Dict.get?_erase]
    split
    · right
      left
      rfl
    · apply h.settled hnone hlast
  · intro other harmed
    rw [recordTerminalFailure] at harmed
    dsimp only at harmed
    rw [Dict.get?_erase] at harmed
    split at harmed
    · cases harmed
    · apply h.armed harmed
  · intro other
    rw [recordTerminalFailure]
    dsimp only
    rw [DebounceController.isScheduled_clear, Dict.get?_erase, h.scheduled]
    split
    · rename_i hsame
      rw [decide_eq_false (not_not.mpr hsame)]
      rfl
    · rename_i hne
      rw [decide_eq_true hne, Bool.true_and]
  · apply @h.running

section

variable [DecidableEq P] {services : Services P C O} {completions : List Completed}

/-- The turn of an operator, where the armed retries and their windows agree. -/
theorem visit_cases {plan : Plan P V O} (h : Kept services plan.gather completions)
    (observed : Observed P C) (clock : OperatorId → Monotonic) (operator : O) :
  ∃ plan', visit services observed clock plan operator = some plan'
    ∧ Visited services plan plan' operator
  := by
  have hscheduled := h.scheduled (services.operatorId operator)
  rw [visit]
  dsimp only
  split
  · -- it runs, or is not to run again: no retry of it is armed
    rename_i hskip
    use plan, rfl
    apply Visited.stays plan.gather.debounce rfl id
    intro harmed
    obtain ⟨hnone, -, htripped, -⟩ := h.armed harmed
    rcases hskip with hsome | htrips
    · rw [hnone] at hsome
      cases hsome
    · cases htripped.symm.trans htrips
  · rename_i hidle
    push Not at hidle
    have hnone := Option.not_isSome_iff_eq_none.mp hidle.1
    split
    · rename_i hwindow
      have harmed := hscheduled.symm.trans hwindow
      split
      · obtain ⟨armed, harmed⟩ := Option.isSome_iff_exists.mp harmed
        rw [harmed]
        refine ⟨_, rfl, ?_⟩
        apply Visited.revoked harmed rfl
      · split
        · refine ⟨_, rfl, ?_⟩
          apply Visited.runs plan.gather.debounce rfl hnone harmed.symm rfl
        · refine ⟨_, rfl, ?_⟩
          apply Visited.stays plan.gather.debounce rfl
          · intro hsome
            apply track_soonestDue_isSome (Or.inl hsome)
          · intro _
            apply track_soonestDue_isSome (Or.inr hwindow)
    · rename_i hwindow
      have hunarmed := hscheduled.symm.trans (Bool.not_eq_true _ ▸ hwindow)
      -- the rerun is planned or waits, with its window armed
      have hwindowed : ∀ (debounce : DebounceController) (now : Monotonic)
          (delta : InvocationDelta P V),
          ∃ plan', (if debounce.isDue (services.operatorId operator) now = true then
              some (⟨{ plan.gather with debounce := debounce },
                plan.runnable ++ [⟨operator, delta, false⟩], plan.soonestDue⟩ : Plan P V O)
            else some (Plan.track ⟨{ plan.gather with debounce := debounce }, plan.runnable,
              plan.soonestDue⟩ (debounce.dueAt.get? (services.operatorId operator)))) = some plan'
            ∧ Visited services plan plan' operator := by
        intro debounce now delta
        split
        · refine ⟨_, rfl, ?_⟩
          apply Visited.runs debounce rfl hnone hunarmed.symm rfl
        · refine ⟨_, rfl, ?_⟩
          apply Visited.stays debounce rfl
          · intro hsome
            apply track_soonestDue_isSome (Or.inl hsome)
          · intro harmed
            cases hunarmed.symm.trans harmed
      have hstays : Visited services plan plan operator := by
        apply Visited.stays plan.gather.debounce rfl id
        intro harmed
        cases hunarmed.symm.trans harmed
      split
      · use plan, rfl
      · split
        · refine ⟨_, rfl, ?_⟩
          apply Visited.runs plan.gather.debounce rfl hnone hunarmed.symm rfl
        · split
          · use plan, rfl
          · split
            · use plan, rfl
            · apply hwindowed

/-- What planning has done with the operators visited so far: what is kept is kept, the launches
planned are of operators that do not run, each a retry exactly if one is armed, and an armed retry
is planned or waited for. -/
structure Planned (services : Services P C O) (completions : List Completed) (gather : Gather P V)
    (visited : List O) (plan : Plan P V O) : Prop where
  kept : Kept services plan.gather completions
  running : plan.gather.running = gather.running
  queue : plan.gather.queue = gather.queue
  deadlineHit : plan.gather.deadlineHit = gather.deadlineHit
  runnable : ∀ runnable ∈ plan.runnable, runnable.operator ∈ visited
    ∧ gather.running.get? (services.operatorId runnable.operator) = none
    ∧ runnable.isRetry
      = (plan.gather.armedRetries.get? (services.operatorId runnable.operator)).isSome
  nodup : (plan.runnable.map (fun runnable => services.operatorId runnable.operator)).Nodup
  due : ∀ operator ∈ visited,
    (plan.gather.armedRetries.get? (services.operatorId operator)).isSome →
      plan.soonestDue.isSome ∨ plan.runnable ≠ []

/-- The turn of one more operator. -/
theorem Planned.visit {gather : Gather P V} {visited : List O} {plan : Plan P V O}
    (h : Planned services completions gather visited plan) (observed : Observed P C)
    (clock : OperatorId → Monotonic) {operator : O}
    (hfresh : ∀ other ∈ visited, services.operatorId other ≠ services.operatorId operator) :
  ∃ plan', Gather.visit services observed clock plan operator = some plan'
    ∧ Planned services completions gather (visited ++ [operator]) plan'
  := by
  obtain ⟨plan', hvisit, hvisited⟩ := visit_cases h.kept observed clock operator
  use plan', hvisit
  have hplanned : ∀ runnable ∈ plan.runnable, runnable.operator ∈ visited ++ [operator] := by
    intro runnable hmem
    apply List.mem_append_left _ (h.runnable runnable hmem).1
  cases hvisited with
  | @stays debounce soonestDue hplan hkeeps hdue =>
      subst hplan
      constructor
      · apply h.kept.congr
        all_goals rfl
      · apply h.running
      · apply h.queue
      · apply h.deadlineHit
      · intro runnable hmem
        use hplanned runnable hmem
        apply (h.runnable runnable hmem).2
      · apply h.nodup
      · intro other hmem harmed
        rcases List.mem_append.mp hmem with hmem | hmem
        · apply (h.due other hmem harmed).imp_left hkeeps
        · obtain rfl := List.mem_singleton.mp hmem
          left
          apply hdue harmed
  | @revoked armed harmed hplan =>
      subst hplan
      constructor
      · apply h.kept.revoke
      · apply h.running
      · apply h.queue
      · apply h.deadlineHit
      · intro runnable hmem
        obtain ⟨hmem', hnone, hretry⟩ := h.runnable runnable hmem
        use hplanned runnable hmem, hnone
        rw [recordTerminalFailure]
        dsimp only
        rw [Dict.get?_erase, if_neg (hfresh _ hmem').symm, hretry]
      · apply h.nodup
      · intro other hmem hsome
        rw [recordTerminalFailure] at hsome
        dsimp only at hsome
        rw [Dict.get?_erase] at hsome
        split at hsome
        · cases hsome
        · rename_i hne
          rcases List.mem_append.mp hmem with hmem | hmem
          · apply h.due other hmem hsome
          · cases hne (by rw [List.mem_singleton.mp hmem])
  | @runs debounce runnable hoperator hnone hretry hplan =>
      subst hplan hoperator
      constructor
      · apply h.kept.congr
        all_goals rfl
      · apply h.running
      · apply h.queue
      · apply h.deadlineHit
      · intro other hmem
        rcases List.mem_append.mp hmem with hmem | hmem
        · use hplanned other hmem
          apply (h.runnable other hmem).2
        · obtain rfl := List.mem_singleton.mp hmem
          use List.mem_append_right _ (List.mem_singleton_self _)
          rw [← h.running]
          use hnone, hretry
      · rw [List.map_append]
        apply List.Nodup.append h.nodup (List.nodup_singleton _)
        intro operatorId hmem hmem'
        obtain ⟨other, hother, rfl⟩ := List.mem_map.mp hmem
        apply hfresh _ (h.runnable other hother).1 (List.mem_singleton.mp hmem')
      · intro other hmem harmed
        right
        apply List.append_ne_nil_of_right_ne_nil
        apply List.cons_ne_nil

/-- The turns of the operators of a list. -/
theorem Planned.visits {gather : Gather P V} {visited rest : List O} {plan : Plan P V O}
    (h : Planned services completions gather visited plan) (observed : Observed P C)
    (clock : OperatorId → Monotonic)
    (hnodup : ((visited ++ rest).map services.operatorId).Nodup) :
  ∃ plan', rest.foldlM (Gather.visit services observed clock) plan = some plan'
    ∧ Planned services completions gather (visited ++ rest) plan'
  := by
  induction rest generalizing visited plan with
  | nil =>
      use plan, rfl
      rw [List.append_nil]
      apply h
  | cons operator rest ih =>
      have hfresh : ∀ other ∈ visited,
          services.operatorId other ≠ services.operatorId operator := by
        rw [List.map_append, List.map_cons] at hnodup
        intro other hmem
        apply (List.nodup_append.mp hnodup).2.2 _ (List.mem_map_of_mem hmem) _
          List.mem_cons_self
      obtain ⟨between, hvisit, hbetween⟩ := h.visit observed clock hfresh
      rw [List.append_cons] at hnodup
      obtain ⟨plan', hrest, hplan'⟩ := ih hbetween hnodup
      use plan'
      rw [List.foldlM_cons, hvisit, List.append_cons]
      use hrest

end

/-! ### Launching -/

section

variable {services : Services P C O} {completions : List Completed}

/-- A launch leaves its operator running, with no retry armed. -/
theorem launch_frame {gather : Gather P V} (observed : Observed P C) {runnable : Runnable P V O}
    (hretry : runnable.isRetry
      = (gather.armedRetries.get? (services.operatorId runnable.operator)).isSome) :
  (∃ record, record.task = .working ∧ (launch services observed gather runnable).running
      = gather.running.set (services.operatorId runnable.operator) record)
    ∧ (∀ other, (launch services observed gather runnable).armedRetries.get? other
      = if services.operatorId runnable.operator = other then none
        else gather.armedRetries.get? other)
    ∧ (launch services observed gather runnable).retries
      = (if runnable.isRetry then gather.retries.clear (services.operatorId runnable.operator)
        else gather.retries)
    ∧ (launch services observed gather runnable).lastEnding = gather.lastEnding
    ∧ (launch services observed gather runnable).failures = gather.failures
    ∧ (launch services observed gather runnable).breaker = gather.breaker
    ∧ (launch services observed gather runnable).queue = gather.queue
    ∧ (launch services observed gather runnable).deadlineHit = gather.deadlineHit
  := by
  rw [launch]
  dsimp only
  split
  · rename_i hagain
    refine ⟨⟨_, rfl, rfl⟩, ?_, rfl, rfl, rfl, rfl, rfl, rfl⟩
    intro other
    apply Dict.get?_erase
  · rename_i hfirst
    refine ⟨⟨_, rfl, rfl⟩, ?_, rfl, rfl, rfl, rfl, rfl, rfl⟩
    intro other
    split
    · rename_i hsame
      rw [← hsame]
      rw [hretry] at hfirst
      apply Option.not_isSome_iff_eq_none.mp hfirst
    · rfl

theorem Kept.launch {gather : Gather P V} (h : Kept services gather completions)
    (observed : Observed P C) {runnable : Runnable P V O}
    (hknown : known services (services.operatorId runnable.operator))
    (hnone : gather.running.get? (services.operatorId runnable.operator) = none)
    (hretry : runnable.isRetry
      = (gather.armedRetries.get? (services.operatorId runnable.operator)).isSome) :
  Kept services (Gather.launch services observed gather runnable) completions
  := by
  obtain ⟨⟨record, hworking, hrunning⟩, harmed, hretries, hending, hfailures, hbreaker, -⟩ :=
    launch_frame observed hretry
  have hother : ∀ signal ∈ completions,
      services.operatorId runnable.operator ≠ signal.operatorId := by
    intro signal hmem hsame
    obtain ⟨htask, -⟩ := h.queued signal hmem
    rw [← hsame, hnone] at htask
    cases htask
  constructor
  · intro signal hmem
    rw [hrunning, hending, Dict.get?_set_of_ne _ (hother signal hmem)]
    apply h.queued signal hmem
  · apply h.nodup
  · intro other htask
    rw [hrunning, Dict.get?_set] at htask
    split at htask
    · rw [Option.map_some, hworking] at htask
      cases htask
    · apply h.reported other htask
  · intro other ending hother hlast
    rw [hrunning, Dict.get?_set] at hother
    rw [hending] at hlast
    split at hother
    · cases hother
    · rename_i hne
      rw [hfailures, harmed, if_neg hne]
      apply h.settled hother hlast
  · intro other hsome
    rw [harmed] at hsome
    split at hsome
    · cases hsome
    · rename_i hne
      rw [hrunning, hending, hbreaker, Dict.get?_set_of_ne _ hne]
      apply h.armed hsome
  · intro other
    rw [harmed, hretries, hretry]
    by_cases hsame : services.operatorId runnable.operator = other
    · rw [if_pos hsame, ← hsame]
      split
      · rw [DebounceController.isScheduled_clear, decide_eq_false (not_not.mpr rfl)]
        rfl
      · rename_i hunarmed
        rw [Bool.not_eq_true] at hunarmed
        rw [h.scheduled, hunarmed]
        rfl
    · rw [if_neg hsame, ← h.scheduled other]
      split
      · rw [DebounceController.isScheduled_clear, decide_eq_true hsame, Bool.true_and]
      · rfl
  · intro other hsome
    rw [hrunning, Dict.get?_set] at hsome
    split at hsome
    · rename_i hsame
      rw [← hsame]
      apply hknown
    · apply h.running hsome

/-- The launches of a plan keep what is kept, and leave their operators running. -/
theorem Kept.launches {gather : Gather P V} (h : Kept services gather completions)
    (observed : Observed P C) {runnables : List (Runnable P V O)}
    (hrunnable : ∀ runnable ∈ runnables, known services (services.operatorId runnable.operator)
      ∧ gather.running.get? (services.operatorId runnable.operator) = none
      ∧ runnable.isRetry
        = (gather.armedRetries.get? (services.operatorId runnable.operator)).isSome)
    (hnodup : (runnables.map (fun runnable => services.operatorId runnable.operator)).Nodup) :
  Kept services (runnables.foldl (Gather.launch services observed) gather) completions
    ∧ (runnables.foldl (Gather.launch services observed) gather).queue = gather.queue
    ∧ (runnables.foldl (Gather.launch services observed) gather).deadlineHit = gather.deadlineHit
    ∧ ∀ operatorId, (gather.running.get? operatorId).isSome
        ∨ operatorId ∈ runnables.map (fun runnable => services.operatorId runnable.operator) →
      ((runnables.foldl (Gather.launch services observed) gather).running.get? operatorId).isSome
  := by
  induction runnables generalizing gather with
  | nil =>
      use h, rfl, rfl
      rintro operatorId (hsome | hmem)
      · apply hsome
      · cases hmem
  | cons runnable runnables ih =>
      obtain ⟨hknown, hnone, hretry⟩ := hrunnable runnable List.mem_cons_self
      rw [List.map_cons, List.nodup_cons] at hnodup
      obtain ⟨⟨record, hworking, hrunning⟩, harmed, -, -, -, -, hqueue, hhit⟩ :=
        launch_frame observed hretry
      have hkept := h.launch observed hknown hnone hretry
      have hrest : ∀ other ∈ runnables, known services (services.operatorId other.operator)
          ∧ (Gather.launch services observed gather runnable).running.get?
            (services.operatorId other.operator) = none
          ∧ other.isRetry = ((Gather.launch services observed gather runnable).armedRetries.get?
            (services.operatorId other.operator)).isSome := by
        intro other hmem
        have hne : services.operatorId runnable.operator ≠ services.operatorId other.operator := by
          intro hsame
          apply hnodup.1
          rw [hsame]
          apply List.mem_map_of_mem hmem
        rw [hrunning, harmed, if_neg hne, Dict.get?_set_of_ne _ hne]
        apply hrunnable other (List.mem_cons_of_mem _ hmem)
      obtain ⟨hkept', hqueue', hhit', hruns⟩ := ih hkept hrest hnodup.2
      use hkept', hqueue'.trans hqueue, hhit'.trans hhit
      intro operatorId hor
      apply hruns
      rw [hrunning, Dict.get?_set]
      split
      · left
        rfl
      · rename_i hne
        apply hor.imp_right
        intro hmem
        apply (List.mem_cons.mp hmem).resolve_left (Ne.symm hne)

end

/-! ### Passes -/

section

variable [DecidableEq P] [DecidableEq C] {services : Services P C O} {completions : List Completed}

/-- Nothing runs and no retry is armed. -/
def Idle (gather : Gather P V) : Prop :=
  (∀ operatorId, gather.running.get? operatorId = none)
    ∧ ∀ operatorId, gather.armedRetries.get? operatorId = none

omit [DecidableEq P] [DecidableEq C] in
/-- The loop is left where nothing runs and nothing is waited for. -/
theorem nextPhase_eq_draining {gather : Gather P V} {soonestDue : Option Monotonic}
    (h : gather.nextPhase soonestDue = .draining) :
  (∀ operatorId, gather.running.get? operatorId = none) ∧ soonestDue.isSome = false
  := by
  rw [nextPhase] at h
  split at h
  · cases h
  · rename_i hempty
    split at h
    · cases h
    · rename_i hsoonest
      constructor
      · intro operatorId
        rw [Bool.not_eq_true', Bool.not_eq_false, List.isEmpty_iff] at hempty
        rw [Dict.get?_eq_none_iff, hempty]
        apply List.not_mem_nil
      · rw [← Bool.not_eq_true]
        apply hsoonest

omit [DecidableEq P] [DecidableEq C] in
/-- Where all operators were visited, and nothing is planned and nothing is waited for, no retry is
armed. -/
theorem Planned.unarmed {gather : Gather P V} {plan : Plan P V O}
    (h : Planned services completions gather services.operators plan) (hrunnable : plan.runnable = [])
    (hsoonest : plan.soonestDue.isSome = false) (operatorId : OperatorId) :
  plan.gather.armedRetries.get? operatorId = none
  := by
  by_contra harmed
  rw [← ne_eq, Option.ne_none_iff_isSome] at harmed
  obtain ⟨-, -, -, hknown⟩ := h.kept.armed harmed
  obtain ⟨operator, hmem, rfl⟩ := List.mem_map.mp hknown
  rcases h.due operator hmem harmed with hsome | hne
  · cases hsoonest.symm.trans hsome
  · apply hne hrunnable

/-- A pass succeeds and keeps what is kept, and ends the loop only where nothing runs and no retry
is armed. -/
theorem Kept.pass {gather : Gather P V} (h : Kept services gather completions) (now : Monotonic)
    (available : Finset CapabilityId) (clock : OperatorId → Monotonic) :
  ∃ gather', gather.pass services now available clock = some gather'
    ∧ Kept services gather' completions ∧ gather'.queue = gather.queue
    ∧ gather'.deadlineHit = gather.deadlineHit
    ∧ (gather'.phase = .draining → gather'.Idle) ∧ gather'.phase ≠ .cancelling
  := by
  have hplanned : Planned services completions gather [] ⟨gather, [], none⟩ := by
    constructor
    · apply h
    · rfl
    · rfl
    · rfl
    · simp
    · apply List.nodup_nil
    · simp
  rw [Gather.pass]
  dsimp only
  obtain ⟨plan, hvisits, hplan⟩ := hplanned.visits
    { remaining := gather.deadline.map (fun deadline => deadline - now)
      presentTypes := (gather.state.view.map DataPoint.type).toFinset
      availableIds := available
      availableTypes := Declarations.typesOf
        (services.declarations.registered services.capabilities) available } clock services.unique
  rw [hvisits]
  dsimp only
  have hrunnable : ∀ runnable ∈ plan.runnable,
      known services (services.operatorId runnable.operator)
        ∧ plan.gather.running.get? (services.operatorId runnable.operator) = none
        ∧ runnable.isRetry
          = (plan.gather.armedRetries.get? (services.operatorId runnable.operator)).isSome := by
    intro runnable hmem
    obtain ⟨hoperator, hnone, hretry⟩ := hplan.runnable runnable hmem
    rw [hplan.running]
    use List.mem_map_of_mem hoperator, hnone
  obtain ⟨hkept, hqueue, hhit, hruns⟩ := hplan.kept.launches _ hrunnable hplan.nodup
  refine ⟨_, rfl, ?_, hqueue.trans hplan.queue, hhit.trans hplan.deadlineHit, ?_, ?_⟩
  · apply hkept.congr
    all_goals rfl
  · intro hphase
    obtain ⟨hnone, hsoonest⟩ := nextPhase_eq_draining hphase
    have hempty : plan.runnable = [] := by
      by_contra hne
      obtain ⟨runnable, hmem⟩ := List.exists_mem_of_ne_nil _ hne
      have hsome := hruns _ (Or.inr (List.mem_map_of_mem hmem))
      rw [hnone] at hsome
      cases hsome
    use hnone
    rw [hempty]
    apply hplan.unarmed hempty hsoonest
  · rw [nextPhase]
    dsimp only
    split
    · nofun
    · split
      · nofun
      · nofun

end

/-! ### Steps -/

section

variable [DecidableEq P] [DecidableEq V] {services : Services P C O}

/-- All that is queued is recorded. -/
theorem Kept.consume {gather : Gather P V} (h : Kept services gather gather.completions)
    (clock : OperatorId → Monotonic) :
  ∃ gather', gather.consume services clock = some gather'
    ∧ Kept services gather' [] ∧ gather'.queue = [] ∧ gather'.phase = gather.phase
    ∧ (gather.deadlineHit = true → gather'.deadlineHit = true)
    ∧ gather'.lastEnding = gather.lastEnding
    ∧ (∀ operatorId, (gather'.running.get? operatorId).isSome →
        gather'.running.get? operatorId = gather.running.get? operatorId)
    ∧ ∀ operatorId, ((gather'.armedRetries.get? operatorId).isSome
        ↔ LeavesRetry services gather gather.completions operatorId)
      ∧ (LeavesRetry services gather gather.completions operatorId →
        gather'.failures.get? operatorId = gather.failures.get? operatorId)
  := by
  have htaken : Kept services gather.takeSignals gather.completions := by
    apply h.congr
    all_goals rfl
  apply htaken.records clock

omit [DecidableEq P] [DecidableEq V] in
/-- Where nothing runs, nothing is queued. -/
theorem Idle.completions_eq_nil {gather : Gather P V} (h : gather.Idle)
    (hkept : Kept services gather gather.completions) :
  gather.completions = []
  := by
  by_contra hne
  obtain ⟨signal, hmem⟩ := List.exists_mem_of_ne_nil _ hne
  obtain ⟨htask, -⟩ := hkept.queued signal hmem
  rw [h.1] at htask
  cases htask

/-- What holds of every state of a session. -/
structure Sound (services : Services P C O) (gather : Gather P V) : Prop where
  kept : Kept services gather gather.completions
  /-- Without a deadline, the loop is left only where nothing runs and no retry is armed. -/
  quiet : gather.phase = .draining ∨ gather.phase = .cancelling →
    gather.deadlineHit = true ∨ gather.Idle

theorem sound_initial (seed : List (DataPoint P V)) (now : Monotonic) :
  Sound services (initial services seed now)
  := by
  constructor
  · constructor
    · nofun
    · apply List.nodup_nil
    · nofun
    · nofun
    · nofun
    · intro operatorId
      rfl
    · nofun
  · nofun

/-- What is recorded once the loop is left keeps what holds. -/
theorem Sound.consume {gather : Gather P V} (h : Sound services gather)
    (clock : OperatorId → Monotonic) (hphase : gather.phase = .draining ∨ gather.phase = .cancelling) :
  ∃ gather', gather.consume services clock = some gather' ∧ Kept services gather' []
    ∧ gather'.queue = [] ∧ (gather'.deadlineHit = true ∨ gather'.Idle)
  := by
  obtain ⟨gather', hconsume, hkept, hqueue, -, hhit, -, hrunning, harmed⟩ := h.kept.consume clock
  use gather', hconsume, hkept, hqueue
  apply (h.quiet hphase).imp hhit
  intro hidle
  have hnil := hidle.completions_eq_nil h.kept
  constructor
  · intro operatorId
    by_contra hsome
    rw [← ne_eq, Option.ne_none_iff_isSome] at hsome
    have hsame := hrunning operatorId hsome
    rw [hsame, hidle.1] at hsome
    cases hsome
  · intro operatorId
    by_contra hsome
    rw [← ne_eq, Option.ne_none_iff_isSome, (harmed operatorId).1, LeavesRetry, hnil,
      hidle.2] at hsome
    rcases hsome with hnone | ⟨signal, hmem, -⟩
    · cases hnone
    · cases hmem

omit [DecidableEq P] [DecidableEq V] in
/-- The operators still running are reported as cancelled, the reports of the others stay. -/
theorem failures_cancelRemaining (gather : Gather P V) (operatorId : OperatorId) :
  gather.cancelRemaining.failures.get? operatorId
    = if (gather.running.get? operatorId).isSome then some cancelledAtDeadline
      else gather.failures.get? operatorId
  := by
  rw [cancelRemaining]
  dsimp only
  rw [Dict.get?_foldl_set]
  apply if_congr _ rfl rfl
  rw [List.mem_mergeSort, Dict.get?_isSome_iff]

omit [DecidableEq P] [DecidableEq V] in
/-- What is left running is reported. -/
theorem Kept.cancelRemaining {gather : Gather P V} (h : Kept services gather []) :
  Kept services gather.cancelRemaining []
  := by
  constructor
  · nofun
  · apply List.nodup_nil
  · nofun
  · intro operatorId ending hnone hlast
    rw [failures_cancelRemaining]
    split
    · right
      left
      rfl
    · rename_i hsome
      rw [Option.not_isSome_iff_eq_none] at hsome
      apply h.settled hsome hlast
  · intro operatorId harmed
    obtain ⟨-, hraised, htripped⟩ := h.armed harmed
    refine ⟨rfl, hraised, htripped⟩
  · apply h.scheduled
  · nofun

variable [DecidableEq C]

theorem Sound.step {gather gather' : Gather P V} {action : Action P V} (h : Sound services gather)
    (hstep : gather.step services action = some gather') :
  Sound services gather'
  := by
  cases action with
  | emit operatorId dataPoint =>
      rw [Gather.step, Option.ite_none_right_eq_some, Option.some.injEq] at hstep
      obtain ⟨hworking, rfl⟩ := hstep
      constructor
      · have hcompletions : completions
            { gather with queue := gather.queue ++ [.emitted operatorId dataPoint] }
              = gather.completions := by
          rw [completions, List.filterMap_append]
          apply List.append_nil
        rw [hcompletions]
        apply h.kept.congr
        all_goals rfl
      · apply h.quiet
  | finish operatorId error =>
      rw [Gather.step] at hstep
      split at hstep
      · cases hstep
      · rename_i record hrecord
        dsimp only at hstep
        rw [Option.ite_none_right_eq_some, Option.some.injEq] at hstep
        obtain ⟨hworking, rfl⟩ := hstep
        constructor
        · rw [completions, List.filterMap_append]
          apply h.kept.ends hrecord hworking
          · rfl
          · intro signal hmem
            rw [List.mem_singleton.mp hmem]
        · intro hphase
          apply (h.quiet hphase).imp_right
          intro hidle
          cases hrecord.symm.trans (hidle.1 operatorId)
  | cancelled operatorId =>
      rw [Gather.step] at hstep
      split at hstep
      · cases hstep
      · rename_i record hrecord
        rw [Option.ite_none_right_eq_some, Option.some.injEq] at hstep
        obtain ⟨hworking, rfl⟩ := hstep
        constructor
        · rw [← List.append_nil (completions _)]
          apply h.kept.ends hrecord hworking
          · rfl
          · nofun
        · intro hphase
          apply (h.quiet hphase).imp_right
          intro hidle
          cases hrecord.symm.trans (hidle.1 operatorId)
  | pass now available clock =>
      rw [Gather.step, Option.ite_none_right_eq_some] at hstep
      obtain ⟨hlooping, hstep⟩ := hstep
      split at hstep
      · obtain rfl := Option.some.inj hstep
        constructor
        · apply h.kept.congr
          all_goals rfl
        · intro _
          left
          rfl
      · obtain ⟨passed, hpass, hkept, hqueue, hhit, hdraining, hcancelling⟩ :=
          h.kept.pass now available clock
        obtain rfl := Option.some.inj (hpass.symm.trans hstep)
        constructor
        · rw [completions, hqueue]
          apply hkept
        · rintro (hphase | hphase)
          · right
            apply hdraining hphase
          · cases hcancelling hphase
  | signalled clock =>
      rw [Gather.step, Option.ite_none_right_eq_some, Option.map_eq_some_iff] at hstep
      obtain ⟨-, consumed, hconsumed, rfl⟩ := hstep
      obtain ⟨consumed', hconsume, hkept, hqueue, -⟩ := h.kept.consume clock
      obtain rfl := Option.some.inj (hconsume.symm.trans hconsumed)
      constructor
      · rw [completions, hqueue]
        apply hkept.congr
        all_goals rfl
      · nofun
  | due =>
      rw [Gather.step, Option.ite_none_right_eq_some, Option.some.injEq] at hstep
      obtain ⟨-, rfl⟩ := hstep
      constructor
      · apply h.kept.congr
        all_goals rfl
      · nofun
  | drain clock =>
      rw [Gather.step, Option.ite_none_right_eq_some, Option.map_eq_some_iff] at hstep
      obtain ⟨hphase, consumed, hconsumed, rfl⟩ := hstep
      obtain ⟨consumed', hconsume, hkept, hqueue, hquiet⟩ := h.consume clock (Or.inl hphase)
      obtain rfl := Option.some.inj (hconsume.symm.trans hconsumed)
      constructor
      · rw [completions, hqueue]
        apply hkept.congr
        all_goals rfl
      · intro _
        apply hquiet
  | close clock =>
      rw [Gather.step, Option.ite_none_right_eq_some, Option.map_eq_some_iff] at hstep
      obtain ⟨-, consumed, hconsumed, rfl⟩ := hstep
      obtain ⟨consumed', hconsume, hkept, hqueue, -⟩ := h.kept.consume clock
      obtain rfl := Option.some.inj (hconsume.symm.trans hconsumed)
      constructor
      · have hnil : consumed'.cancelRemaining.completions = [] := by
          rw [completions, List.filterMap_eq_nil_iff]
          intro signal hmem
          cases hqueue ▸ hmem
        rw [hnil]
        apply hkept.cancelRemaining
      · nofun

/-! ### The report -/

/-- Every operator whose last run did not succeed is reported. -/
def Complete (gather : Gather P V) : Prop :=
  ∀ operatorId ending, gather.lastEnding.get? operatorId = some ending → ending ≠ .returned →
    (gather.failures.get? operatorId).isSome

/-- The report of a session that closes is complete if and only if each operator that is left with a
retry was reported before. -/
theorem Sound.complete_iff {gather final : Gather P V} {clock : OperatorId → Monotonic}
    (h : Sound services gather) (hclose : gather.step services (.close clock) = some final) :
  final.Complete
    ↔ ∀ operatorId, LeavesRetry services gather gather.completions operatorId →
      (gather.failures.get? operatorId).isSome
  := by
  rw [Gather.step, Option.ite_none_right_eq_some, Option.map_eq_some_iff] at hclose
  obtain ⟨-, consumed, hconsumed, rfl⟩ := hclose
  obtain ⟨consumed', hconsume, hkept, -, -, -, -, -, harmed⟩ := h.kept.consume clock
  obtain rfl := Option.some.inj (hconsume.symm.trans hconsumed)
  have hfailures : ∀ operatorId, LeavesRetry services gather gather.completions operatorId →
      consumed'.cancelRemaining.failures.get? operatorId = gather.failures.get? operatorId := by
    intro operatorId hleaves
    obtain ⟨hiff, hsame⟩ := harmed operatorId
    obtain ⟨hnone, -⟩ := hkept.armed (hiff.mpr hleaves)
    rw [failures_cancelRemaining, hnone, ← hsame hleaves]
    rfl
  constructor
  · intro hcomplete operatorId hleaves
    obtain ⟨-, ⟨error, hlast⟩, -⟩ := hkept.armed ((harmed operatorId).1.mpr hleaves)
    rw [← hfailures operatorId hleaves]
    apply hcomplete operatorId _ hlast nofun
  · intro hreported operatorId ending hlast hne
    rcases hkept.cancelRemaining.settled rfl hlast with hreturned | hsome | hsome
    · cases hne hreturned
    · apply hsome
    · have hleaves := (harmed operatorId).1.mp hsome
      rw [hfailures operatorId hleaves]
      apply hreported operatorId hleaves

/-- A session that was not cut by its deadline closes with no retry left. -/
theorem Sound.complete_of_quiet {gather final : Gather P V} {clock : OperatorId → Monotonic}
    (h : Sound services gather) (hclose : gather.step services (.close clock) = some final)
    (hquiet : gather.deadlineHit = false) :
  final.Complete
  := by
  have hphase := hclose
  rw [Gather.step, Option.ite_none_right_eq_some] at hphase
  obtain ⟨⟨hcancelling, -⟩, -⟩ := hphase
  rw [h.complete_iff hclose]
  rintro operatorId (harmed | ⟨signal, hmem, -⟩)
  all_goals
    rcases h.quiet (Or.inr hcancelling) with hhit | hidle
    · cases hquiet.symm.trans hhit
  · rw [hidle.2] at harmed
    cases harmed
  · rw [hidle.completions_eq_nil h.kept] at hmem
    cases hmem

/-- What holds of every state of a session holds of those a run reaches. -/
theorem sound_run {seed : List (DataPoint P V)} {now : Monotonic} {actions : List (Action P V)}
    {gather : Gather P V}
    (hrun : TransitionSystem.run (Gather.step services) (initial services seed now) actions
      = some gather) :
  Sound services gather
  := by
  apply TransitionSystem.run_invariant _ (sound_initial seed now) hrun
  intro gather action gather' h hstep
  apply h.step hstep

end

end Gather

/-- Whenever a session closes, its report has every operator whose last run did not succeed if and
only if each operator that is left with a retry was reported before; with no deadline hit none
is. -/
theorem failures_complete_iff {P V C O : Type} [DecidableEq P] [DecidableEq V] [DecidableEq C]
    (services : Services P C O) (seed : List (DataPoint P V)) (now : Monotonic)
    (actions : List (Action P V)) (clock : OperatorId → Monotonic) {before final : Gather P V}
    (hrun : TransitionSystem.run (Gather.step services) (Gather.initial services seed now) actions
      = some before)
    (hclose : before.step services (.close clock) = some final) :
  (final.Complete
      ↔ ∀ operatorId, Gather.LeavesRetry services before before.completions operatorId →
        (before.failures.get? operatorId).isSome)
    ∧ (before.deadlineHit = false → final.Complete)
  := by
  have hsound := Gather.sound_run hrun
  constructor
  · apply hsound.complete_iff hclose
  · apply hsound.complete_of_quiet hclose

/-- An operator that needs nothing, and may be tried three times, half a minute apart. -/
def lookup : Services Unit Empty Unit where
  declarations :=
    { dataPoints := Hierarchy.flat Unit
      abstractTypes := ∅
      registeredLeaves := [()]
      capabilities := Hierarchy.flat Empty
      capabilityId := nofun
      capabilityDependsOn := nofun
      capabilityRequires := nofun
      operatorId := fun _ => "lookup"
      dependsOn := fun _ => ∅
      uses := fun _ => ∅
      produces := fun _ => {()}
      requires := fun _ => ∅
      aggregator := fun _ => none }
  operators := [()]
  capabilities := []
  policy := fun _ => ⟨false, .addedOnly, none⟩
  debounce := fun _ => none
  retry := fun _ => some ⟨3, fun _ => 30⟩
  timeout := fun _ => none
  operationTimeout := 60
  sessionDeadline := some 10
  caps := .empty
  unique := List.nodup_singleton _

/-- The lookup answers at once. -/
def lookupAnswers : List (Action Unit String) :=
  [.pass 0 ∅ (fun _ => 0), .finish "lookup" none, .signalled (fun _ => 1),
    .pass 1 ∅ (fun _ => 1), .drain (fun _ => 1)]

/-- The session of a lookup that answers closes by itself, and its report is complete. -/
theorem failures_complete_iff_lookup :
  ∃ before final : Gather Unit String,
    TransitionSystem.run (Gather.step lookup) (Gather.initial lookup [] 0) lookupAnswers
        = some before
      ∧ before.step lookup (.close (fun _ => 1)) = some final
      ∧ final.lastEnding.get? "lookup" = some .returned ∧ final.Complete
  := by
  refine ⟨_, _, rfl, rfl, rfl, ?_⟩
  apply (failures_complete_iff lookup [] 0 lookupAnswers (fun _ => 1) rfl rfl).2
  rfl

/-- The lookup fails at once, its retry would be due at `31`, and the deadline falls at `10`. -/
def lookupFails : List (Action Unit String) :=
  [.pass 0 ∅ (fun _ => 0), .finish "lookup" (some ⟨"no answer", false⟩), .signalled (fun _ => 1),
    .pass 1 ∅ (fun _ => 1), .due, .pass 10 ∅ (fun _ => 10), .drain (fun _ => 10)]

/-- The session of a lookup that fails ends with an empty report, though its only run has failed. -/
theorem lookup_unreported :
  ∃ before final : Gather Unit String,
    TransitionSystem.run (Gather.step lookup) (Gather.initial lookup [] 0) lookupFails
        = some before
      ∧ before.step lookup (.close (fun _ => 10)) = some final
      ∧ final.lastEnding.get? "lookup" = some (.raised ⟨"no answer", false⟩)
      ∧ final.failures.get? "lookup" = none ∧ ¬final.Complete
  := by
  refine ⟨_, _, rfl, rfl, ?hlast, ?hnone, ?hcomplete⟩
  case hlast => rfl
  case hnone =>
    apply (Gather.failures_cancelRemaining _ _).trans
    rfl
  case hcomplete =>
    intro hcomplete
    have hsome := hcomplete "lookup" (.raised ⟨"no answer", false⟩) rfl nofun
    have hnone := (Gather.failures_cancelRemaining _ _).symm.trans
      (Option.some_get hsome).symm
    cases hnone

end Lite

end Orcastork
