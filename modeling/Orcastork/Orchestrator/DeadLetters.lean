import Mathlib.Data.List.Count
import Mathlib.Data.List.Perm.Basic
import Orcastork.Adapters.Memory.DurableStore
import Orcastork.Aggregation.Retry
import Orcastork.Scheduling.Readiness

/-!
# Dead letters

The aggregation phase of `Orchestrator._run`: the aggregators that are ready and have not contributed
run at once, each with its retries, and one that exhausts them is dead-lettered. Where the inbox has
more by then, the contributions are cleared and another gather and aggregation follow on the same
epoch.

The dead letters are added to from pass to pass and never taken back, so an aggregator that is
finalized again after it was dead-lettered stays among them, or is there twice
(`deadLetters_exact_iff`). A pass is given by what it finds present, and by its finalizes in the
order in which they are over; how an attempt ends is nothing, or the text of its error.
-/

namespace Orcastork

/-- A dead-lettered aggregator failure. -/
structure DeadLetter where
  operatorId : OperatorId
  reason : String
  deriving DecidableEq, Repr

/-- How an attempt ends. -/
def attemptEnd : Option String → Except String Unit
  | none => .ok ()
  | some error => .error error

/-- `run_with_retry`, its sleeps left out: the text of the `AggregatorDeadLetteredError`, if it
raises. -/
def runWithRetry (maxAttempts : ℕ) (attempt : ℕ → Option String) : Except String Unit :=
  (Aggregation.retryLoop maxAttempts ([] : List ℕ) (fun number => attemptEnd (attempt number)) none
    (List.range maxAttempts) none).2.mapError Aggregation.RetryError.text

/-- A finalize of an aggregator: how each of its attempts ends, or would end. -/
structure Finalize (O : Type) where
  aggregator : O
  attempt : ℕ → Option String

/-- An aggregation phase. -/
structure AggregationPass (P C O : Type) where
  present : Finset P
  available : Finset C
  finalizes : List (Finalize O)

/-- What an orchestrator keeps of its aggregators. -/
structure Finalization where
  deadLetters : List DeadLetter
  runs : Dict OperatorId ℕ
  durable : DurableStore

/-- What the aggregation of a run depends on. -/
structure AggregationServices (P C O : Type) extends Declarations P C O where
  operators : List O
  sessionId : SessionId
  epoch : Epoch
  maxAttempts : ℕ

namespace AggregationServices

variable {P C O : Type} [DecidableEq O] (services : AggregationServices P C O)

/-- The aggregators that a pass launches: ready, and not contributed. -/
def launchable (state : Finalization) (pass : AggregationPass P C O) : List O :=
  (services.aggregators services.operators).filter (fun aggregator =>
    services.isReady aggregator pass.present pass.available
      && !state.durable.isContributionMarked services.sessionId (services.operatorId aggregator))

/-- `_run_aggregator`: a dead letter, or a contribution and one more run. -/
def runAggregator (state : Finalization) (finalize : Finalize O) :
    Except OrchestrationError Finalization :=
  let operatorId := services.operatorId finalize.aggregator
  match runWithRetry services.maxAttempts finalize.attempt with
  | .error reason =>
    .ok { state with deadLetters := state.deadLetters ++ [⟨operatorId, reason⟩] }
  | .ok _ =>
    match state.durable.markContribution services.sessionId operatorId services.epoch with
    | (.error error, _) => .error error
    | (.ok _, durable) =>
      .ok { state with
        durable := durable
        runs := state.runs.set operatorId ((state.runs.get? operatorId).getD 0 + 1) }

/-- `_aggregate`: nothing if the finalizes are not those of what is launched. -/
def aggregate (state : Finalization) (pass : AggregationPass P C O) :
    Option (Except OrchestrationError Finalization) :=
  if (pass.finalizes.map Finalize.aggregator).Perm (services.launchable state pass) then
    some (pass.finalizes.foldlM services.runAggregator state)
  else
    none

/-- `_prepare_redrive`: the contribution of each aggregator is cleared. -/
def prepareRedrive (state : Finalization) : Finalization :=
  { state with
    durable := (services.aggregators services.operators).foldl
      (fun durable aggregator =>
        durable.clearContribution services.sessionId (services.operatorId aggregator))
      state.durable }

/-- The loop of `_run`, to its completion in the last of the passes. -/
def completes (state : Finalization) : List (AggregationPass P C O) → Option Finalization
  | [] => none
  | [pass] =>
    match services.aggregate state pass with
    | some (.ok state) => some state
    | _ => none
  | pass :: passes =>
    match services.aggregate state pass with
    | some (.ok state) => completes (services.prepareRedrive state) passes
    | _ => none

/-- The state of a new orchestrator. -/
def initialFinalization (durable : DurableStore) : Finalization := ⟨[], .empty, durable⟩

/-! ### The finalizes of a run -/

omit [DecidableEq O] in
/-- All attempts of a finalize fail. -/
def exhausted (finalize : Finalize O) : Bool :=
  (List.range services.maxAttempts).all (fun number => (finalize.attempt number).isSome)

/-- The finalizes of an aggregator in a run, in the order in which they are over: whether each
exhausted its retries. -/
def outcomes (passes : List (AggregationPass P C O)) (operatorId : OperatorId) : List Bool :=
  ((passes.flatMap AggregationPass.finalizes).filter
    (fun finalize => services.operatorId finalize.aggregator = operatorId)).map services.exhausted

/-- An aggregator is among the dead letters exactly if its last finalize exhausted its retries, and
at most once. -/
def DeadLettersExact (passes : List (AggregationPass P C O)) (deadLetters : List DeadLetter) :
    Prop :=
  ∀ operatorId,
    (operatorId ∈ deadLetters.map DeadLetter.operatorId
        ↔ (services.outcomes passes operatorId).getLast? = some true)
      ∧ (deadLetters.map DeadLetter.operatorId).count operatorId ≤ 1

/-! ### What is dead-lettered -/

variable {services}

omit [DecidableEq O] in
/-- The loop raises exactly if all its attempts fail. -/
theorem mapError_retryLoop (maxAttempts : ℕ) (attempt : ℕ → Option String) (numbers : List ℕ)
    (lastError : Option String) :
  (Aggregation.retryLoop maxAttempts ([] : List ℕ) (fun number => attemptEnd (attempt number)) none
      numbers lastError).2.mapError Aggregation.RetryError.text
    = if numbers.all (fun number => (attempt number).isSome) then
        .error s!"dead-lettered after {maxAttempts} attempts"
      else .ok ()
  := by
  induction numbers generalizing lastError with
  | nil => rfl
  | cons number numbers ih =>
      rw [Aggregation.retryLoop, Aggregation.hookError, List.all_cons]
      cases attempt number with
      | none => rfl
      | some error =>
          rw [Option.isSome_some, Bool.true_and]
          apply ih (some error)

omit [DecidableEq O] in
/-- A finalize adds a dead letter if it exhausted its retries, and nothing to them otherwise. -/
theorem runAggregator_deadLetters {state state' : Finalization} {finalize : Finalize O}
    (h : services.runAggregator state finalize = .ok state') :
  state'.deadLetters.map DeadLetter.operatorId
    = state.deadLetters.map DeadLetter.operatorId
      ++ ([finalize].filter services.exhausted).map
        (fun finalize => services.operatorId finalize.aggregator)
  := by
  rw [runAggregator, runWithRetry, mapError_retryLoop] at h
  rw [List.filter_singleton, exhausted]
  split at h
  · rename_i reason hends
    split at hends
    · rename_i hall
      cases h
      rw [hall, List.map_append]
      rfl
    · cases hends
  · rename_i hends
    split at hends
    · cases hends
    · rename_i hsome
      rw [Bool.not_eq_true] at hsome
      split at h
      · cases h
      · cases h
        rw [hsome]
        simp

omit [DecidableEq O] in
theorem foldlM_runAggregator_deadLetters {state state' : Finalization}
    {finalizes : List (Finalize O)}
    (h : finalizes.foldlM services.runAggregator state = .ok state') :
  state'.deadLetters.map DeadLetter.operatorId
    = state.deadLetters.map DeadLetter.operatorId
      ++ (finalizes.filter services.exhausted).map
        (fun finalize => services.operatorId finalize.aggregator)
  := by
  induction finalizes generalizing state with
  | nil =>
      cases h
      exact (List.append_nil _).symm
  | cons finalize finalizes ih =>
      rw [List.foldlM_cons] at h
      cases hrun : services.runAggregator state finalize with
      | error error =>
          rw [hrun] at h
          cases h
      | ok next =>
          rw [hrun] at h
          rw [ih h, runAggregator_deadLetters hrun, List.append_assoc, ← List.map_append,
            ← List.filter_append, List.singleton_append]

theorem aggregate_eq_ok {state state' : Finalization} {pass : AggregationPass P C O}
    (h : services.aggregate state pass = some (.ok state')) :
  (pass.finalizes.map Finalize.aggregator).Perm (services.launchable state pass)
    ∧ pass.finalizes.foldlM services.runAggregator state = .ok state'
  := by
  rw [aggregate] at h
  split at h
  · rename_i hperm
    exact ⟨hperm, Option.some.inj h⟩
  · cases h

/-- The dead letters of a run are those of all its passes. -/
theorem completes_deadLetters {state final : Finalization} {passes : List (AggregationPass P C O)}
    (h : services.completes state passes = some final) :
  final.deadLetters.map DeadLetter.operatorId
    = state.deadLetters.map DeadLetter.operatorId
      ++ ((passes.flatMap AggregationPass.finalizes).filter services.exhausted).map
        (fun finalize => services.operatorId finalize.aggregator)
  := by
  induction passes generalizing state with
  | nil => cases h
  | cons pass passes ih =>
      have hpass : ∃ next, services.aggregate state pass = some (.ok next)
          ∧ (passes = [] ∧ next = final
            ∨ services.completes (services.prepareRedrive next) passes = some final) := by
        cases passes with
        | nil =>
            rw [completes] at h
            split at h
            · rename_i next hnext
              exact ⟨next, hnext, Or.inl ⟨rfl, Option.some.inj h⟩⟩
            · cases h
        | cons second passes =>
            rw [completes] at h
            · split at h
              · rename_i next hnext
                exact ⟨next, hnext, Or.inr h⟩
              · cases h
            · exact List.cons_ne_nil _ _
      obtain ⟨next, haggregate, hrest⟩ := hpass
      have hletters := foldlM_runAggregator_deadLetters (aggregate_eq_ok haggregate).2
      rw [List.flatMap_cons, List.filter_append, List.map_append, ← List.append_assoc, ← hletters]
      rcases hrest with ⟨rfl, rfl⟩ | hrest
      · exact (List.append_nil _).symm
      · have htail := ih hrest
        exact htail

/-! ### When they are exact -/

/-- A sequence of outcomes has `true` as its last and once, or not at all, exactly if nothing ever
follows it. -/
theorem last_and_once_iff (outcomes : List Bool) :
  (true ∈ outcomes ↔ outcomes.getLast? = some true) ∧ outcomes.count true ≤ 1
    ↔ ∀ before after, outcomes = before ++ true :: after → after = []
  := by
  constructor
  · rintro ⟨hlast, hcount⟩ before after rfl
    have hend := hlast.mp (List.mem_append_right _ List.mem_cons_self)
    by_contra hafter
    have hmem : true ∈ after := by
      rw [List.getLast?_append_of_ne_nil _ (List.cons_ne_nil true after),
        List.getLast?_cons_of_ne_nil hafter] at hend
      exact List.mem_of_getLast? hend
    have hpositive := List.count_pos_iff.mpr hmem
    rw [List.count_append, List.count_cons_self] at hcount
    omega
  · intro h
    by_cases hmem : true ∈ outcomes
    · obtain ⟨before, after, rfl, hfirst⟩ := List.eq_append_cons_of_mem hmem
      cases h before after rfl
      constructor
      · exact iff_of_true hmem List.getLast?_concat
      · rw [List.count_append, List.count_eq_zero_of_not_mem hfirst]
        exact le_refl _
    · constructor
      · apply iff_of_false hmem
        intro hend
        exact hmem (List.mem_of_getLast? hend)
      · rw [List.count_eq_zero_of_not_mem hmem]
        exact Nat.zero_le 1

/-- The dead letters of an aggregator are its finalizes that exhausted their retries. -/
theorem count_deadLetters {state final : Finalization} {passes : List (AggregationPass P C O)}
    (h : services.completes state passes = some final) (hstart : state.deadLetters = [])
    (operatorId : OperatorId) :
  (final.deadLetters.map DeadLetter.operatorId).count operatorId
    = (services.outcomes passes operatorId).count true
  := by
  rw [completes_deadLetters h, hstart, List.map_nil, List.nil_append, outcomes]
  simp only [List.count, List.countP_map, List.countP_filter]
  apply List.countP_congr
  intro finalize _
  simp [and_comm]

/-- In a run that completes the dead letters are exact, exactly if no aggregator that exhausted its
retries is finalized again in that run. -/
theorem deadLetters_exact_iff {durable : DurableStore} {final : Finalization}
    {passes : List (AggregationPass P C O)}
    (h : services.completes (initialFinalization durable) passes = some final) :
  services.DeadLettersExact passes final.deadLetters
    ↔ ∀ operatorId before after,
      services.outcomes passes operatorId = before ++ true :: after → after = []
  := by
  apply forall_congr'
  intro operatorId
  have hcount := count_deadLetters h rfl operatorId
  rw [← last_and_once_iff, ← List.count_pos_iff, hcount, List.count_pos_iff]

end AggregationServices

/-! ### A report that fails at first -/

/-- One aggregator without inputs, and one attempt for each finalize. -/
def reportServices : AggregationServices String String String where
  dataPoints := .flat String
  abstractTypes := ∅
  registeredLeaves := []
  capabilities := .flat String
  capabilityId := id
  capabilityDependsOn := fun _ => ∅
  capabilityRequires := fun _ => ∅
  operatorId := id
  dependsOn := fun _ => ∅
  uses := fun _ => ∅
  produces := fun _ => ∅
  requires := fun _ => ∅
  aggregator := fun _ => some ⟨false, ∅⟩
  operators := ["report"]
  sessionId := "session"
  epoch := 1
  maxAttempts := 1

/-- A pass in which the report fails, or does not. -/
def reportPass (attempt : Option String) : AggregationPass String String String :=
  ⟨∅, ∅, [⟨"report", fun _ => attempt⟩]⟩

/-- A report that fails and succeeds when it is driven again is still a dead letter. -/
theorem redriven_still_dead_letter :
  ∃ final, reportServices.completes (AggregationServices.initialFinalization .initial)
      [reportPass (some "conflict"), reportPass none] = some final
    ∧ ¬reportServices.DeadLettersExact [reportPass (some "conflict"), reportPass none]
      final.deadLetters
  := by
  obtain ⟨final, hcompletes, hletters⟩ : ∃ final, reportServices.completes
      (AggregationServices.initialFinalization .initial)
      [reportPass (some "conflict"), reportPass none] = some final
      ∧ final.deadLetters.map DeadLetter.operatorId = ["report"] := ⟨_, rfl, rfl⟩
  refine ⟨final, hcompletes, fun hexact => ?_⟩
  have hlast := (hexact "report").1.mp (by rw [hletters]; exact List.mem_cons_self)
  revert hlast
  decide

/-- A report that fails in the last pass is there once. -/
theorem deadLetters_exact_report :
  ∃ final, reportServices.completes (AggregationServices.initialFinalization .initial)
      [reportPass none, reportPass (some "conflict")] = some final
    ∧ (reportServices.DeadLettersExact [reportPass none, reportPass (some "conflict")]
        final.deadLetters
      ↔ ∀ operatorId before after,
        reportServices.outcomes [reportPass none, reportPass (some "conflict")] operatorId
          = before ++ true :: after → after = [])
  := by
  obtain ⟨final, hcompletes⟩ : ∃ final, reportServices.completes
      (AggregationServices.initialFinalization .initial)
      [reportPass none, reportPass (some "conflict")] = some final := ⟨_, rfl⟩
  exact ⟨final, hcompletes, AggregationServices.deadLetters_exact_iff hcompletes⟩

end Orcastork
