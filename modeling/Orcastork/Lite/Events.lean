import Orcastork.DataPoints.Base
import Orcastork.Lite.FailureReport

/-!
# The events of a session

The loop publishes an event for every change: a DataPoint merged, a run that ended, a capability
activated, the session completed. What is published by a step of the gathering is given by the
state before it (`Gather.eventsOf`). The session, the namespace and the time an event is stamped
with are left out.
-/

namespace Orcastork

namespace Lite

/-- How a run is reported. -/
inductive RunOutcome where
  | succeeded
  | failed
  | retrying
  | cancelled
  deriving DecidableEq, Repr

/-- `SessionEvent`. -/
inductive SessionEvent (V : Type) where
  | dataPointMerged (dataPointType : String) (value : V) (retrievedBy : OperatorId)
      (merge : MergeKind) (revision : Revision)
  | operatorRunCompleted (operatorId : OperatorId) (outcome : RunOutcome) (attempt : ℕ)
      (error : Option String)
  | capabilityActivated (capabilityId : CapabilityId) (activated : Bool)
  | sessionCompleted (deadlineHit : Bool) (operatorRuns : Dict OperatorId ℕ)
      (failures : Dict OperatorId String)

namespace SessionEvent

variable {V : Type}

/-- The gathering publishes it: a merge, or a run that ended. -/
def isGathering : SessionEvent V → Bool
  | .dataPointMerged _ _ _ _ _ | .operatorRunCompleted _ _ _ _ => true
  | .capabilityActivated _ _ | .sessionCompleted _ _ _ => false

/-- The completion of the session. -/
def isCompletion : SessionEvent V → Bool
  | .sessionCompleted _ _ _ => true
  | _ => false

/-- What an event tells of a capability. -/
def capability? : SessionEvent V → Option (CapabilityId × Bool)
  | .capabilityActivated capabilityId activated => some (capabilityId, activated)
  | _ => none

theorem isCompletion_of_isGathering {event : SessionEvent V} (h : event.isGathering = true) :
  event.isCompletion = false
  := by
  cases event with
  | dataPointMerged => rfl
  | operatorRunCompleted => rfl
  | capabilityActivated => rfl
  | sessionCompleted => cases h

theorem capability?_of_isGathering {event : SessionEvent V} (h : event.isGathering = true) :
  event.capability? = none
  := by
  cases event with
  | dataPointMerged => rfl
  | operatorRunCompleted => rfl
  | capabilityActivated => cases h
  | sessionCompleted => rfl

end SessionEvent

/-! ### Merges -/

namespace SessionState

variable {P V : Type} [DecidableEq P] [DecidableEq V]

/-- One turn of the loop of `merge`, with what it notes as added and as updated. -/
def noteOne (nextRevision : Revision)
    (merged : Dict (P × V) (Entry P V) × List (DataPoint P V) × List (DataPoint P V))
    (dataPoint : DataPoint P V) :
    Dict (P × V) (Entry P V) × List (DataPoint P V) × List (DataPoint P V) :=
  let (entries, added, updated) := merged
  let key := dataPoint.identityKey
  match entries.get? key with
  | none => (entries.set key ⟨dataPoint, nextRevision, nextRevision⟩, added ++ [dataPoint], updated)
  | some existing =>
    if existing.dataPoint.lastRetrieved < dataPoint.lastRetrieved then
      let reobserved := existing.dataPoint.reobserved dataPoint.lastRetrieved
      (entries.set key { existing with dataPoint := reobserved, updatedRev := nextRevision },
        added, updated ++ [reobserved])
    else merged

/-- `MergeOutcome`: what a merge adds, and what it updates. -/
def mergeOutcome (state : SessionState P V) (dataPoints : List (DataPoint P V)) :
    List (DataPoint P V) × List (DataPoint P V) :=
  (dataPoints.foldl (noteOne (state.revision + 1)) (state.entries, [], [])).2

/-- `_publish_merge`. -/
def mergeEvents (typeName : P → String) (state : SessionState P V)
    (dataPoints : List (DataPoint P V)) : List (SessionEvent V) :=
  let (added, updated) := state.mergeOutcome dataPoints
  let revision := (state.merge dataPoints).revision
  let event := fun merge (dataPoint : DataPoint P V) =>
    SessionEvent.dataPointMerged (typeName dataPoint.type) dataPoint.value dataPoint.retrievedBy
      merge revision
  added.map (event .added) ++ updated.map (event .updated)

theorem isGathering_of_mem_mergeEvents {typeName : P → String} {state : SessionState P V}
    {dataPoints : List (DataPoint P V)} {event : SessionEvent V}
    (h : event ∈ state.mergeEvents typeName dataPoints) :
  event.isGathering = true
  := by
  rw [mergeEvents] at h
  rcases List.mem_append.mp h with h | h
  all_goals
    obtain ⟨dataPoint, -, rfl⟩ := List.mem_map.mp h
    rfl

end SessionState

/-! ### Runs -/

namespace Gather

variable {P V C O : Type} (services : Services P C O)

/-- The attempt a run that ends now is. -/
def attempt (gather : Gather P V) (operatorId : OperatorId) : ℕ :=
  (gather.failedAttempts.get? operatorId).getD 0 + 1

/-- What `_record_completion` publishes. -/
def completionEvent (gather : Gather P V) (signal : Completed) : SessionEvent V :=
  let operatorId := signal.operatorId
  let attempts := gather.attempt operatorId
  if signal.cutByDeadline then
    .operatorRunCompleted operatorId .cancelled attempts
      (signal.error.map (fun _ => cancelledAtDeadline))
  else
    match signal.error with
    | none => .operatorRunCompleted operatorId .succeeded attempts none
    | some error =>
      if (gather.countRun operatorId).retryLeft services operatorId attempts then
        .operatorRunCompleted operatorId .retrying attempts (some error.text)
      else .operatorRunCompleted operatorId .failed attempts (some error.text)

/-- What recording some completions publishes. -/
def completionEvents (clock : OperatorId → Monotonic) :
    List Completed → Gather P V → List (SessionEvent V)
  | [], _ => []
  | signal :: completions, gather =>
    gather.completionEvent services signal ::
      match recordCompletion services clock gather signal with
      | none => []
      | some gather => completionEvents clock completions gather

/-- What `_consume` of all that is queued publishes. -/
def consumeEvents [DecidableEq P] [DecidableEq V] (typeName : P → String)
    (clock : OperatorId → Monotonic) (gather : Gather P V) : List (SessionEvent V) :=
  gather.state.mergeEvents typeName (gather.queue.filterMap Signal.dataPoint?)
    ++ completionEvents services clock gather.completions gather.takeSignals

/-- What the turn of `_plan` for an operator publishes: the failure of a retry that is lost. -/
def visitEvents [DecidableEq P] (observed : Observed P C) (plan : Plan P V O) (operator : O) :
    List (SessionEvent V) :=
  let operatorId := services.operatorId operator
  let gather := plan.gather
  if (gather.running.get? operatorId).isSome ∨ gather.breaker.isTripped operatorId = true then
    []
  else if gather.retries.isScheduled operatorId
      && !services.isReady operator observed.presentTypes observed.availableTypes then
    match gather.armedRetries.get? operatorId with
    | none => []
    | some armed =>
      [.operatorRunCompleted operatorId .failed armed.attempts (some armed.error.text)]
  else []

/-- What planning some operators publishes. -/
def planEvents [DecidableEq P] (observed : Observed P C) (clock : OperatorId → Monotonic) :
    List O → Plan P V O → List (SessionEvent V)
  | [], _ => []
  | operator :: operators, plan =>
    visitEvents services observed plan operator ++
      match visit services observed clock plan operator with
      | none => []
      | some plan => planEvents observed clock operators plan

/-- What a pass finds. -/
def observed [DecidableEq P] [DecidableEq C] (gather : Gather P V) (now : Monotonic)
    (available : Finset CapabilityId) : Observed P C where
  remaining := gather.deadline.map (fun deadline => deadline - now)
  presentTypes := (gather.state.view.map DataPoint.type).toFinset
  availableIds := available
  availableTypes := Declarations.typesOf
    (services.declarations.registered services.capabilities) available

/-- What the end of `_drain_remaining` publishes. -/
def cancelEvents (gather : Gather P V) : List (SessionEvent V) :=
  (gather.running.keys.mergeSort (· ≤ ·)).map (fun operatorId =>
    .operatorRunCompleted operatorId .cancelled (gather.attempt operatorId)
      (some cancelledAtDeadline))

/-- What a step of the gathering publishes. -/
def eventsOf [DecidableEq P] [DecidableEq V] [DecidableEq C] (typeName : P → String)
    (gather : Gather P V) : Action P V → List (SessionEvent V)
  | .emit _ _ | .finish _ _ | .cancelled _ | .due => []
  | .pass now available clock =>
    if gather.deadlineHit ∨ gather.deadline.any (fun deadline => deadline ≤ now) then []
    else
      planEvents services (gather.observed services now available) clock services.operators
        ⟨gather, [], none⟩
  | .signalled clock | .drain clock => gather.consumeEvents services typeName clock
  | .close clock =>
    gather.consumeEvents services typeName clock
      ++ ((gather.consume services clock).map cancelEvents).getD []

/-! ### What the gathering publishes -/

variable {services}

theorem isGathering_completionEvent (gather : Gather P V) (signal : Completed) :
  (gather.completionEvent services signal).isGathering = true
  := by
  rw [completionEvent]
  split
  · rfl
  · cases signal.error with
    | none => rfl
    | some error =>
        dsimp only
        split
        · rfl
        · rfl

theorem isGathering_of_mem_completionEvents {clock : OperatorId → Monotonic}
    {completions : List Completed} {gather : Gather P V} {event : SessionEvent V}
    (h : event ∈ completionEvents services clock completions gather) :
  event.isGathering = true
  := by
  induction completions generalizing gather with
  | nil => cases h
  | cons signal completions ih =>
      rw [completionEvents] at h
      rcases List.mem_cons.mp h with rfl | h
      · apply isGathering_completionEvent
      · cases hrecord : recordCompletion services clock gather signal with
        | none =>
            rw [hrecord] at h
            cases h
        | some gather' =>
            rw [hrecord] at h
            apply ih h

theorem isGathering_of_mem_consumeEvents [DecidableEq P] [DecidableEq V] {typeName : P → String}
    {clock : OperatorId → Monotonic} {gather : Gather P V} {event : SessionEvent V}
    (h : event ∈ gather.consumeEvents services typeName clock) :
  event.isGathering = true
  := by
  rcases List.mem_append.mp h with h | h
  · apply SessionState.isGathering_of_mem_mergeEvents h
  · apply isGathering_of_mem_completionEvents h

theorem isGathering_of_mem_visitEvents [DecidableEq P] {observed : Observed P C}
    {plan : Plan P V O} {operator : O} {event : SessionEvent V}
    (h : event ∈ visitEvents services observed plan operator) :
  event.isGathering = true
  := by
  rw [visitEvents] at h
  split at h
  · cases h
  · split at h
    · cases harmed : plan.gather.armedRetries.get? (services.operatorId operator) with
      | none =>
          rw [harmed] at h
          cases h
      | some armed =>
          rw [harmed] at h
          obtain rfl := List.mem_singleton.mp h
          rfl
    · cases h

theorem isGathering_of_mem_planEvents [DecidableEq P] {observed : Observed P C}
    {clock : OperatorId → Monotonic} {operators : List O} {plan : Plan P V O}
    {event : SessionEvent V} (h : event ∈ planEvents services observed clock operators plan) :
  event.isGathering = true
  := by
  induction operators generalizing plan with
  | nil => cases h
  | cons operator operators ih =>
      rw [planEvents] at h
      rcases List.mem_append.mp h with h | h
      · apply isGathering_of_mem_visitEvents h
      · cases hvisit : visit services observed clock plan operator with
        | none =>
            rw [hvisit] at h
            cases h
        | some plan' =>
            rw [hvisit] at h
            apply ih h

/-- A step of the gathering publishes merges and runs that ended, and nothing else. -/
theorem isGathering_of_mem_eventsOf [DecidableEq P] [DecidableEq V] [DecidableEq C]
    {typeName : P → String} {gather : Gather P V} {action : Action P V} {event : SessionEvent V}
    (h : event ∈ gather.eventsOf services typeName action) :
  event.isGathering = true
  := by
  cases action with
  | emit => cases h
  | finish => cases h
  | cancelled => cases h
  | due => cases h
  | pass now available clock =>
      rw [eventsOf] at h
      split at h
      · cases h
      · apply isGathering_of_mem_planEvents h
  | signalled clock => apply isGathering_of_mem_consumeEvents h
  | drain clock => apply isGathering_of_mem_consumeEvents h
  | close clock =>
      rcases List.mem_append.mp h with h | h
      · apply isGathering_of_mem_consumeEvents h
      · cases hconsume : gather.consume services clock with
        | none =>
            rw [hconsume] at h
            cases h
        | some consumed =>
            rw [hconsume] at h
            obtain ⟨operatorId, -, rfl⟩ := List.mem_map.mp h
            rfl

end Gather

end Lite

end Orcastork
