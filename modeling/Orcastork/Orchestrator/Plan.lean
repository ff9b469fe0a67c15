import Orcastork.Flow.Definition
import Orcastork.Orchestrator.Emissions
import Orcastork.Scheduling.Debounce
import Orcastork.Scheduling.Watermark

/-!
# Planning a pass

Each pass of the gather loop looks at every operator in turn and decides whether to launch it: a
first run as soon as it is ready, a retry once its backoff is over, a rerun once there is new data
and its window is over. What the loop remembers of the operators is its `OperatorMemory`; the
windows armed on the way are part of the outcome of the plan.
-/

namespace Orcastork

/-- `_Running`: the task of a run, by its number, and the revision its launch saw. -/
structure RunningRecord where
  task : ℕ
  observedRevision : Revision
  deriving DecidableEq, Repr

/-- What the orchestrator remembers of its operators. -/
structure OperatorMemory where
  runs : Dict OperatorId ℕ
  /-- Consecutive failures of the current retry sequence. -/
  failedAttempts : Dict OperatorId ℕ
  prevCaps : Dict OperatorId (Finset CapabilityId)
  watermarks : Dict OperatorId Revision
  retries : DebounceController
  debounce : DebounceController
  breaker : CircuitBreaker
  running : Dict OperatorId RunningRecord

/-- `OperatorOutcome`. -/
inductive OperatorOutcome where
  | succeeded
  | failed
  | deadLettered
  | skipped
  deriving DecidableEq, Repr

/-- `OperatorAuditInfo`, with the operator the row is of. -/
structure OperatorAuditInfo where
  operatorId : OperatorId
  outcome : OperatorOutcome
  runCount : ℕ
  attempt : ℕ
  runSeconds : Option Monotonic
  error : Option String
  deriving DecidableEq, Repr

/-- What a gather works from: the classes and the flow, the operators of its gather phase, their
policies as far as the fingerprint leaves them out, the leaves, and what it merges and audits
with. -/
structure GatherServices (P C O : Type) where
  classes : Classes P C O
  flow : FlowDefinition P C O
  /-- The registered leaf class of a type. -/
  leafClass : DataPointType → P
  gathering : List O
  debounce : O → Option Monotonic
  retry : O → Option RetryPolicy
  parkAfter : Option Monotonic
  queueSize : ℕ
  validate : DataPointType → Value → Except String Value
  merging : MergeServices
  /-- What a row of an operator run says. -/
  operatorDetail : OperatorAuditInfo → String

/-- `_Runnable`. -/
structure Runnable (O : Type) where
  operator : O
  delta : InvocationDelta
  isRerun : Bool
  isRetry : Bool

/-- `_GatherPlan` under way, with the windows as they are by then. -/
structure GatherPlan (O : Type) where
  runnable : List (Runnable O)
  notYetRun : List O
  soonestDue : Option Monotonic
  debounce : DebounceController

namespace GatherPlan

variable {O : Type} (plan : GatherPlan O)

def pending (operator : O) : GatherPlan O :=
  { plan with notYetRun := plan.notYetRun ++ [operator] }

def launching (runnable : Runnable O) : GatherPlan O :=
  { plan with runnable := plan.runnable ++ [runnable] }

/-- The soonest of what is due, with one more. -/
def dueBy : Option Monotonic → GatherPlan O
  | none => plan
  | some dueAt =>
    { plan with
      soonestDue := some (match plan.soonestDue with
        | none => dueAt
        | some soonest => min soonest dueAt) }

end GatherPlan

namespace GatherServices

variable {P C O : Type} [DecidableEq P] [DecidableEq C] (services : GatherServices P C O)

/-- The id of an operator. -/
def operatorId (operator : O) : OperatorId := services.classes.operatorId operator

def declarations : Declarations P C O := services.flow.declarations services.classes

/-- The classes of the DataPoints of a view. -/
def presentTypes (view : DataPointView) : Finset P :=
  (view.map (fun dataPoint => services.leafClass dataPoint.type)).toFinset

/-- The classes of some capabilities. -/
def availableTypes (available : Finset CapabilityId) : Finset C :=
  Declarations.typesOf (services.declarations.registered services.flow.capabilities) available

/-- What a delta brings, by class. -/
def newData (delta : InvocationDelta) : FlowDefinition.NewData P where
  added := services.presentTypes delta.added
  updated := services.presentTypes delta.updated
  newlyAvailableCaps := delta.newlyAvailableCaps

/-- `completes_when` is satisfied, or there is none. -/
def completionSatisfied (view : DataPointView) : Bool :=
  (services.flow.isSatisfied services.classes (services.presentTypes view)).getD true

/-- `_delta_for`. -/
def deltaFor (mirror : SessionStateMirror) (memory : OperatorMemory)
    (available : Finset CapabilityId) (operator : O) :
    Except OrchestrationError InvocationDelta :=
  operatorDelta mirror mirror.sessionId (memory.watermarks.get? (services.operatorId operator))
    available ((memory.prevCaps.get? (services.operatorId operator)).getD ∅)

/-- An operator has run in the session: in this process, or by its watermark. -/
def hasRun (memory : OperatorMemory) (operator : O) : Bool :=
  (memory.runs.get? (services.operatorId operator)).isSome
    || (memory.watermarks.get? (services.operatorId operator)).isSome

variable (mirror : SessionStateMirror) (memory : OperatorMemory) (view : DataPointView)
  (available : Finset CapabilityId) (now : Monotonic)

/-- An operator launched with its delta. -/
def planLaunch (plan : GatherPlan O) (operator : O) (isRetry : Bool) :
    Except OrchestrationError (GatherPlan O) :=
  match services.deltaFor mirror memory available operator with
  | .error error => .error error
  | .ok delta => .ok (plan.launching ⟨operator, delta, false, isRetry⟩)

/-- The plan with the window of a rerun armed, unless it was. -/
def armWindow (plan : GatherPlan O) (operator : O) : GatherPlan O :=
  if plan.debounce.isScheduled (services.operatorId operator) then
    plan
  else
    { plan with
      debounce :=
        plan.debounce.schedule (services.operatorId operator) now (services.debounce operator) }

/-- A rerun is launched once its window is over, and until then it keeps the gather open, unless
the finalize pass does its work. -/
def planWindow (plan : GatherPlan O) (operator : O) (delta : InvocationDelta) : GatherPlan O :=
  if plan.debounce.isDue (services.operatorId operator) now then
    plan.launching ⟨operator, delta, true, false⟩
  else if windowDefersToFinalize (services.flow.aggregator operator)
      (services.completionSatisfied view) then
    plan
  else
    plan.dueBy (plan.debounce.dueAt.get? (services.operatorId operator))

/-- The rerun of an operator that has run: its window is armed if there is something new. -/
def planRerun (plan : GatherPlan O) (operator : O) :
    Except OrchestrationError (GatherPlan O) :=
  if !(services.flow.policy operator).rerunOnNewData then
    .ok plan
  else
    match services.deltaFor mirror memory available operator with
    | .error error => .error error
    | .ok delta =>
      if !services.flow.rerunEligible services.classes operator (services.newData delta) then
        .ok plan
      else
        .ok (services.planWindow view now (services.armWindow now plan operator) operator delta)

/-- An operator of `_plan` that is neither running nor tripped. -/
def planIdle (plan : GatherPlan O) (operator : O) : Except OrchestrationError (GatherPlan O) :=
  let ran := services.hasRun memory operator
  let plan := if ran then plan else plan.pending operator
  if !services.declarations.isReady operator (services.presentTypes view)
      (services.availableTypes available) then
    .ok plan
  else if memory.retries.isScheduled (services.operatorId operator) then
    if memory.retries.isDue (services.operatorId operator) now then
      services.planLaunch mirror memory available plan operator true
    else
      .ok (plan.dueBy (memory.retries.dueAt.get? (services.operatorId operator)))
  else if !ran then
    services.planLaunch mirror memory available plan operator false
  else
    services.planRerun mirror memory view available now plan operator

/-- One operator of `_plan`. -/
def planOperator (plan : GatherPlan O) (operator : O) :
    Except OrchestrationError (GatherPlan O) :=
  if (memory.running.get? (services.operatorId operator)).isSome then
    .ok plan
  else if memory.breaker.isTripped (services.operatorId operator) then
    .ok plan
  else
    services.planIdle mirror memory view available now plan operator

/-- The operators of `_plan` one after another. -/
def planAll : List O → GatherPlan O → Except OrchestrationError (GatherPlan O)
  | [], plan => .ok plan
  | operator :: operators, plan =>
    match services.planOperator mirror memory view available now plan operator with
    | .error error => .error error
    | .ok plan => planAll operators plan

/-- `_plan`. -/
def plan : Except OrchestrationError (GatherPlan O) :=
  services.planAll mirror memory view available now services.gathering
    ⟨[], [], none, memory.debounce⟩

/-! ### What a plan launches -/

/-- What a launch of a plan goes by: the operator is neither running nor tripped, and ready; its
delta is that of now, and it is a retry exactly if one is armed. -/
structure Launchable (runnable : Runnable O) : Prop where
  idle : memory.running.get? (services.operatorId runnable.operator) = none
  untripped : memory.breaker.isTripped (services.operatorId runnable.operator) = false
  ready : services.declarations.isReady runnable.operator (services.presentTypes view)
    (services.availableTypes available) = true
  delta : services.deltaFor mirror memory available runnable.operator = .ok runnable.delta
  retry : runnable.isRetry
    = memory.retries.isScheduled (services.operatorId runnable.operator)

variable {services mirror memory view available now} {plan plan' : GatherPlan O} {operator : O}

omit [DecidableEq P] [DecidableEq C] in
/-- A launch comes last among those of the plan. -/
theorem planLaunch_eq_ok {isRetry : Bool}
    (h : services.planLaunch mirror memory available plan operator isRetry = .ok plan') :
  ∃ delta, services.deltaFor mirror memory available operator = .ok delta
    ∧ plan' = plan.launching ⟨operator, delta, false, isRetry⟩
  := by
  rw [planLaunch] at h
  split at h
  · cases h
  · rename_i delta hdelta
    cases h
    exact ⟨delta, hdelta, rfl⟩

/-- What is due changes nothing of the launches. -/
theorem runnable_dueBy (due : Option Monotonic) :
  (plan.dueBy due).runnable = plan.runnable
  := by
  cases due with
  | none => rfl
  | some due => rfl

omit [DecidableEq P] [DecidableEq C] in
theorem runnable_armWindow :
  (services.armWindow now plan operator).runnable = plan.runnable
  := by
  rw [armWindow]
  split
  · rfl
  · rfl

omit [DecidableEq C] in
/-- A rerun is launched, or the launches are as they were. -/
theorem planRerun_runnable
    (h : services.planRerun mirror memory view available now plan operator = .ok plan') :
  plan'.runnable = plan.runnable
    ∨ ∃ delta, services.deltaFor mirror memory available operator = .ok delta
      ∧ plan'.runnable = plan.runnable ++ [⟨operator, delta, true, false⟩]
  := by
  rw [planRerun] at h
  split at h
  · cases h
    exact Or.inl rfl
  · split at h
    · cases h
    · rename_i delta hdelta
      split at h
      · cases h
        exact Or.inl rfl
      · cases h
        rw [planWindow]
        split
        · right
          use delta, hdelta
          rw [GatherPlan.launching, runnable_armWindow]
        · split
          · exact Or.inl runnable_armWindow
          · left
            rw [runnable_dueBy, runnable_armWindow]

/-- An operator is launched, or the launches are as they were. -/
theorem planOperator_runnable
    (h : services.planOperator mirror memory view available now plan operator = .ok plan') :
  plan'.runnable = plan.runnable
    ∨ ∃ runnable, plan'.runnable = plan.runnable ++ [runnable] ∧ runnable.operator = operator
      ∧ services.Launchable mirror memory view available runnable
  := by
  rw [planOperator] at h
  split at h
  · cases h
    exact Or.inl rfl
  · rename_i hidle
    rw [Bool.not_eq_true, Option.isSome_eq_false_iff, Option.isNone_iff_eq_none] at hidle
    split at h
    · cases h
      exact Or.inl rfl
    · rename_i htripped
      rw [Bool.not_eq_true] at htripped
      rw [planIdle] at h
      generalize hpending : (if services.hasRun memory operator = true then plan
        else plan.pending operator) = pending at h
      have hsame : pending.runnable = plan.runnable := by
        rw [← hpending]
        split
        · rfl
        · rfl
      rw [← hsame]
      split at h
      · cases h
        exact Or.inl rfl
      · rename_i hready
        rw [Bool.not_eq_true', Bool.not_eq_false] at hready
        split at h
        · rename_i hretry
          split at h
          · obtain ⟨delta, hdelta, rfl⟩ := planLaunch_eq_ok h
            right
            exact ⟨_, rfl, rfl, hidle, htripped, hready, hdelta, hretry.symm⟩
          · cases h
            exact Or.inl (runnable_dueBy _)
        · rename_i hretry
          rw [Bool.not_eq_true] at hretry
          split at h
          · obtain ⟨delta, hdelta, rfl⟩ := planLaunch_eq_ok h
            right
            exact ⟨_, rfl, rfl, hidle, htripped, hready, hdelta, hretry.symm⟩
          · rcases planRerun_runnable h with hnone | ⟨delta, hdelta, hlaunched⟩
            · exact Or.inl hnone
            · right
              exact ⟨_, hlaunched, rfl, hidle, htripped, hready, hdelta, hretry.symm⟩

/-- The launches of a plan are of its operators, in their order. -/
theorem planAll_runnable {operators : List O}
    (h : services.planAll mirror memory view available now operators plan = .ok plan') :
  ∃ launched, plan'.runnable = plan.runnable ++ launched
    ∧ (launched.map Runnable.operator).Sublist operators
    ∧ ∀ runnable ∈ launched, services.Launchable mirror memory view available runnable
  := by
  induction operators generalizing plan with
  | nil =>
      cases h
      exact ⟨[], (List.append_nil _).symm, .slnil, nofun⟩
  | cons operator operators ih =>
      rw [planAll] at h
      split at h
      · cases h
      · rename_i next hnext
        obtain ⟨launched, hlaunched, hsublist, hlaunchable⟩ := ih h
        rcases planOperator_runnable hnext with hnone | ⟨runnable, hone, rfl, hrunnable⟩
        · use launched
          rw [hlaunched, hnone]
          exact ⟨rfl, hsublist.cons _, hlaunchable⟩
        · use runnable :: launched
          rw [hlaunched, hone, List.append_assoc]
          exact ⟨rfl, hsublist.cons_cons _, List.forall_mem_cons.mpr ⟨hrunnable, hlaunchable⟩⟩

/-- A plan launches some of the operators, each with the delta of now. -/
theorem plan_runnable (h : services.plan mirror memory view available now = .ok plan) :
  (plan.runnable.map Runnable.operator).Sublist services.gathering
    ∧ ∀ runnable ∈ plan.runnable, services.Launchable mirror memory view available runnable
  := by
  obtain ⟨launched, hlaunched, hsublist, hlaunchable⟩ := planAll_runnable h
  rw [List.nil_append] at hlaunched
  rw [hlaunched]
  exact ⟨hsublist, hlaunchable⟩

/-! ### When there is a plan -/

omit [DecidableEq C] in
/-- The rerun of an operator whose delta can be read is planned. -/
theorem planRerun_eq_ok
    (hdelta : ∃ delta, services.deltaFor mirror memory available operator = .ok delta) :
  ∃ plan', services.planRerun mirror memory view available now plan operator = .ok plan'
  := by
  obtain ⟨delta, hdelta⟩ := hdelta
  rw [planRerun, hdelta]
  split
  · exact ⟨_, rfl⟩
  · simp only
    split
    · exact ⟨_, rfl⟩
    · exact ⟨_, rfl⟩

omit [DecidableEq P] [DecidableEq C] in
theorem planLaunch_of_delta {isRetry : Bool}
    (hdelta : ∃ delta, services.deltaFor mirror memory available operator = .ok delta) :
  ∃ plan', services.planLaunch mirror memory available plan operator isRetry = .ok plan'
  := by
  obtain ⟨delta, hdelta⟩ := hdelta
  rw [planLaunch, hdelta]
  exact ⟨_, rfl⟩

/-- An operator whose delta can be read is planned. -/
theorem planOperator_eq_ok
    (hdelta : ∃ delta, services.deltaFor mirror memory available operator = .ok delta) :
  ∃ plan', services.planOperator mirror memory view available now plan operator = .ok plan'
  := by
  rw [planOperator]
  split
  · exact ⟨_, rfl⟩
  · split
    · exact ⟨_, rfl⟩
    · rw [planIdle]
      split
      · exact ⟨_, rfl⟩
      · split
        · split
          · exact planLaunch_of_delta hdelta
          · exact ⟨_, rfl⟩
        · split
          · exact planLaunch_of_delta hdelta
          · exact planRerun_eq_ok hdelta

theorem planAll_eq_ok {operators : List O}
    (hdeltas : ∀ operator ∈ operators, ∃ delta,
      services.deltaFor mirror memory available operator = .ok delta) :
  ∃ plan', services.planAll mirror memory view available now operators plan = .ok plan'
  := by
  induction operators generalizing plan with
  | nil => exact ⟨plan, rfl⟩
  | cons operator operators ih =>
      obtain ⟨hdelta, hrest⟩ := List.forall_mem_cons.mp hdeltas
      obtain ⟨next, hnext⟩ := @planOperator_eq_ok P C O _ _ services mirror memory view available now plan operator hdelta
      rw [planAll, hnext]
      exact ih hrest

/-- If the delta of every operator can be read, then there is a plan. -/
theorem plan_eq_ok
    (hdeltas : ∀ operator, ∃ delta,
      services.deltaFor mirror memory available operator = .ok delta) :
  ∃ plan, services.plan mirror memory view available now = .ok plan
  := planAll_eq_ok (fun operator _ => hdeltas operator)

end GatherServices

end Orcastork
