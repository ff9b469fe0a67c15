import Mathlib.Algebra.Field.Defs
import Mathlib.Algebra.Order.Ring.Defs
import Mathlib.Data.Nat.Find

/-!
# Bounded retries

`run_with_retry` calls an operation until it succeeds, at most `max_attempts` times. A hook is
notified after each attempt, outside of what catches the errors of the operation, so that its own
errors end the loop.

The operation and the hook are given by how their calls end, one after the other; the loop by what
it does, in order (`RetryEvent`), and by how it ends. The draws of the seeded generator are left
open.
-/

namespace Orcastork

namespace Aggregation

variable {R E : Type}

/-- `RetryPolicy`: `__post_init__` refuses every other one. -/
structure RetryPolicy (R : Type) [Field R] [LinearOrder R] where
  maxAttempts : ℕ
  baseDelay : R
  jitter : R
  maxAttempts_pos : 1 ≤ maxAttempts
  baseDelay_nonneg : 0 ≤ baseDelay
  jitter_nonneg : 0 ≤ jitter
  jitter_le_one : jitter ≤ 1

/-- `backoff_delays`, with the draws of the generator between two bounds. -/
def backoffDelays [Field R] [LinearOrder R] (policy : RetryPolicy R) (uniform : ℕ → R → R → R) :
    List R :=
  (List.range policy.maxAttempts).map (fun attempt =>
    policy.baseDelay * 2 ^ attempt * (1 + uniform attempt (-policy.jitter) policy.jitter))

/-- What the loop does. -/
inductive RetryEvent (R E : Type) where
  | operation
  | onAttempt (number : ℕ) (error : Option E)
  | sleep (delay : R)
  deriving DecidableEq, Repr

/-- What the loop raises: the error of the hook, or an `AggregatorDeadLetteredError` and its
cause. -/
inductive RetryError (E : Type) where
  | raised (error : E)
  | deadLettered (message : String) (cause : Option E)
  deriving DecidableEq, Repr

/-- The text of what the loop raises. -/
def RetryError.text : RetryError String → String
  | .raised error => error
  | .deadLettered message _ => message

/-- The error of an attempt. -/
def errorOf (ending : Except E Unit) : Option E :=
  match ending with
  | .ok _ => none
  | .error error => some error

section

variable (maxAttempts : ℕ) (delays : List R) (operation : ℕ → Except E Unit)
  (onAttempt : Option (ℕ → Except E Unit))

/-- The notification of the hook, if there is one. -/
def notification (attempt : ℕ) : List (RetryEvent R E) :=
  match onAttempt with
  | none => []
  | some _ => [.onAttempt (attempt + 1) (errorOf (operation attempt))]

/-- The error of the hook, if there is one and it raises. -/
def hookError (attempt : ℕ) : Option E :=
  match onAttempt with
  | none => none
  | some hook => errorOf (hook attempt)

/-- The sleep after an attempt, unless it is the last one. -/
def sleepAfter (attempt : ℕ) : List (RetryEvent R E) :=
  if attempt < maxAttempts - 1 then (delays[attempt]?.map RetryEvent.sleep).toList else []

/-- The loop of `run_with_retry` over the attempts that are left, with the last error. -/
def retryLoop : List ℕ → Option E → List (RetryEvent R E) × Except (RetryError E) Unit
  | [], lastError =>
    ([], .error (.deadLettered s!"dead-lettered after {maxAttempts} attempts" lastError))
  | attempt :: attempts, _ =>
    let called := .operation :: notification operation onAttempt attempt
    match hookError onAttempt attempt with
    | some error => (called, .error (.raised error))
    | none =>
      match errorOf (operation attempt) with
      | none => (called, .ok ())
      | some error =>
        let (events, ending) := retryLoop attempts (some error)
        (called ++ sleepAfter maxAttempts delays attempt ++ events, ending)

end

/-- `run_with_retry`. -/
def runWithRetry [Field R] [LinearOrder R] (policy : RetryPolicy R) (uniform : ℕ → R → R → R)
    (operation : ℕ → Except E Unit) (onAttempt : Option (ℕ → Except E Unit)) :
    List (RetryEvent R E) × Except (RetryError E) Unit :=
  retryLoop policy.maxAttempts (backoffDelays policy uniform) operation onAttempt
    (List.range policy.maxAttempts) none

/-! ### The contract -/

section

variable {maxAttempts : ℕ} {delays : List R} {operation : ℕ → Except E Unit}
  {onAttempt : Option (ℕ → Except E Unit)}

end

end Aggregation

end Orcastork
