import Orcastork.Graph.Declarations
import Orcastork.Library.Dict

/-!
# Windows, retries and the circuit breaker

What holds the launch of an operator back: the window in which the arrivals before a rerun
coalesce, the backoff before a failed run is tried again, kept the same way, and the breaker that
bounds the runs of an operator on a cycle.
-/

namespace Orcastork

/-- The reading of a monotonic clock, or a time span on it. -/
abbrev Monotonic := ℤ

/-! ### Windows -/

/-- `DebounceController`: when the rerun of an operator becomes due. -/
structure DebounceController where
  dueAt : Dict OperatorId Monotonic

namespace DebounceController

/-- Nothing is armed. -/
def initial : DebounceController := ⟨.empty⟩

variable (controller : DebounceController) (operatorId : OperatorId)

/-- `schedule`, at the given reading; the default window is none. -/
def schedule (now : Monotonic) (window : Option Monotonic) : DebounceController :=
  ⟨controller.dueAt.set operatorId (now + window.getD 0)⟩

/-- `is_scheduled`. -/
def isScheduled : Bool := (controller.dueAt.get? operatorId).isSome

/-- `is_due`, at the given reading. -/
def isDue (now : Monotonic) : Bool :=
  match controller.dueAt.get? operatorId with
  | none => false
  | some due => decide (due ≤ now)

/-- `clear`. -/
def clear : DebounceController := ⟨controller.dueAt.erase operatorId⟩

variable {controller operatorId}

theorem isScheduled_schedule (now : Monotonic) (window : Option Monotonic) (other : OperatorId) :
  (controller.schedule operatorId now window).isScheduled other
    = (decide (operatorId = other) || controller.isScheduled other)
  := by
  rw [isScheduled, schedule, Dict.get?_set, isScheduled]
  by_cases h : operatorId = other
  · rw [if_pos h, decide_eq_true h, Bool.true_or, Option.isSome_some]
  · rw [if_neg h, decide_eq_false h, Bool.false_or]

theorem isScheduled_clear (other : OperatorId) :
  (controller.clear operatorId).isScheduled other
    = (decide (operatorId ≠ other) && controller.isScheduled other)
  := by
  rw [isScheduled, clear, Dict.get?_erase, isScheduled]
  by_cases h : operatorId = other
  · rw [if_pos h, decide_eq_false (not_not_intro h), Bool.false_and, Option.isSome_none]
  · rw [if_neg h, decide_eq_true h, Bool.true_and]

end DebounceController

/-- `window_defers_to_finalize`: an armed window of an interim aggregator holds nothing open once
the session is complete. -/
def windowDefersToFinalize {P : Type} (aggregator : Option (AggregatorDeclaration P))
    (completionSatisfied : Bool) : Bool :=
  completionSatisfied && (aggregator.map AggregatorDeclaration.interimRefresh).getD false

/-! ### Retries -/

/-- `RetryPolicy`, as the gather loop reads it. -/
structure RetryPolicy where
  maxAttempts : ℕ
  /-- `backoff_delays` with the jitter of the session and the operator: the delay after an
  attempt, counted from zero. -/
  backoffDelays : ℕ → Monotonic

/-! ### The circuit breaker -/

/-- `CircuitBreaker`: the caps of the operators on a cycle, and the runs recorded. -/
structure CircuitBreaker where
  caps : Dict OperatorId ℤ
  counts : Dict OperatorId ℕ

namespace CircuitBreaker

variable (breaker : CircuitBreaker) (operatorId : OperatorId)

/-- `runs`. -/
def runs : ℕ := (breaker.counts.get? operatorId).getD 0

/-- `record_run`. -/
def recordRun : CircuitBreaker :=
  { breaker with counts := breaker.counts.set operatorId (breaker.runs operatorId + 1) }

/-- `is_tripped`. -/
def isTripped : Bool :=
  match breaker.caps.get? operatorId with
  | none => false
  | some cap => decide (cap ≤ breaker.runs operatorId)

theorem runs_recordRun (other : OperatorId) :
  (breaker.recordRun operatorId).runs other
    = breaker.runs other + if operatorId = other then 1 else 0
  := by
  rw [runs, recordRun, Dict.get?_set]
  by_cases h : operatorId = other
  · subst h
    rw [if_pos rfl, if_pos rfl, Option.getD_some]
  · rw [if_neg h, if_neg h, Nat.add_zero, runs]

end CircuitBreaker

end Orcastork
