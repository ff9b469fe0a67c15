import Orcastork.Lite.Gather

/-!
# What the lite orchestrator records

A run that was cut is reported, one that failed has a retry armed or is reported, and nothing of
other operators is touched (`Recorded`). What is kept along the way (`Kept`) relates the register of
the running tasks, the completions that are still to be recorded, the armed retries and the report.
-/

namespace Orcastork

namespace Lite

namespace Gather

variable {P V C O : Type}

/-- The operators of a session, by id. -/
def known (services : Services P C O) (operatorId : OperatorId) : Prop :=
  operatorId ∈ services.operators.map services.operatorId

/-- What is kept, with the completions that are still to be recorded. -/
structure Kept (services : Services P C O) (gather : Gather P V) (completions : List Completed) :
    Prop where
  queued : ∀ signal ∈ completions,
    (gather.running.get? signal.operatorId).map Running.task = some .reported
      ∧ gather.lastEnding.get? signal.operatorId = some signal.ending
  nodup : (completions.map Completed.operatorId).Nodup
  reported : ∀ operatorId, (gather.running.get? operatorId).map Running.task = some .reported →
    operatorId ∈ completions.map Completed.operatorId
  /-- The last run of an operator that is not running succeeded, is reported or is to be
  retried. -/
  settled : ∀ {operatorId ending}, gather.running.get? operatorId = none →
    gather.lastEnding.get? operatorId = some ending →
    ending = .returned ∨ (gather.failures.get? operatorId).isSome
      ∨ (gather.armedRetries.get? operatorId).isSome
  armed : ∀ {operatorId}, (gather.armedRetries.get? operatorId).isSome →
    gather.running.get? operatorId = none
      ∧ (∃ error, gather.lastEnding.get? operatorId = some (.raised error))
      ∧ gather.breaker.isTripped operatorId = false ∧ known services operatorId
  scheduled : ∀ operatorId, gather.retries.isScheduled operatorId
    = (gather.armedRetries.get? operatorId).isSome
  running : ∀ {operatorId}, (gather.running.get? operatorId).isSome → known services operatorId

/-- A completion whose failure arms a retry as it is recorded. -/
def armsRetry (services : Services P C O) (gather : Gather P V) (signal : Completed) : Bool :=
  !signal.cutByDeadline && signal.error.isSome
    && (gather.countRun signal.operatorId).retryLeft services signal.operatorId
      ((gather.failedAttempts.get? signal.operatorId).getD 0 + 1)

/-- What recording a completion does: the run is cut, has succeeded, is to be retried, or has
failed for good. -/
inductive Recorded (services : Services P C O) (gather gather' : Gather P V) (signal : Completed) :
    Prop where
  | cut (hcut : signal.cutByDeadline = true)
      (hfailures : gather'.failures = gather.failures.set signal.operatorId cancelledAtDeadline)
      (harmed : gather'.armedRetries = gather.armedRetries)
      (hretries : gather'.retries = gather.retries) (hbreaker : gather'.breaker = gather.breaker)
      (hattempts : gather'.failedAttempts = gather.failedAttempts)
  | returned (herror : signal.error = none) (hfailures : gather'.failures = gather.failures)
      (harmed : gather'.armedRetries = gather.armedRetries)
      (hretries : gather'.retries = gather.retries)
      (hbreaker : gather'.breaker = gather.breaker.recordRun signal.operatorId)
      (hattempts : gather'.failedAttempts = gather.failedAttempts.erase signal.operatorId)
  | retried {error : RunError} {armed : ArmedRetry} {now : Monotonic} {window : Option Monotonic}
      {attempts : ℕ} (herror : signal.ending = .raised error)
      (harms : armsRetry services gather signal = true)
      (hfailures : gather'.failures = gather.failures)
      (harmed : gather'.armedRetries = gather.armedRetries.set signal.operatorId armed)
      (hretries : gather'.retries = gather.retries.schedule signal.operatorId now window)
      (hbreaker : gather'.breaker = gather.breaker.recordRun signal.operatorId)
      (hattempts : gather'.failedAttempts = gather.failedAttempts.set signal.operatorId attempts)
  | failed {text : String} (harms : armsRetry services gather signal = false)
      (hfailures : gather'.failures = gather.failures.set signal.operatorId text)
      (harmed : gather'.armedRetries = gather.armedRetries)
      (hretries : gather'.retries = gather.retries)
      (hbreaker : gather'.breaker = gather.breaker.recordRun signal.operatorId)
      (hattempts : gather'.failedAttempts = gather.failedAttempts.erase signal.operatorId)

/-- Where a relaunch is armed, its window is. -/
theorem scheduleRetry_of_retryLeft {services : Services P C O} {gather : Gather P V}
    {operatorId : OperatorId} {attempts : ℕ}
    (h : gather.retryLeft services operatorId attempts = true) (now : Monotonic) :
  ∃ window, gather.scheduleRetry services operatorId attempts now
    = gather.retries.schedule operatorId now window
  := by
  rw [retryLeft] at h
  rw [scheduleRetry]
  split at h
  · cases h
  · rename_i policy hpolicy
    use some (policy.backoffDelays (attempts - 1))

theorem recordCompletion_cases {services : Services P C O} {gather : Gather P V}
    {signal : Completed} {record : Running} (clock : OperatorId → Monotonic)
    (hrecord : gather.running.get? signal.operatorId = some record) :
  ∃ gather', recordCompletion services clock gather signal = some gather'
    ∧ gather'.running = gather.running.erase signal.operatorId
    ∧ gather'.lastEnding = gather.lastEnding ∧ gather'.queue = gather.queue
    ∧ gather'.phase = gather.phase ∧ (gather.deadlineHit = true → gather'.deadlineHit = true)
    ∧ Recorded services gather gather' signal
  := by
  rw [recordCompletion, hrecord]
  dsimp only
  cases hcut : signal.cutByDeadline with
  | true =>
      rw [if_pos rfl]
      refine ⟨_, rfl, rfl, rfl, rfl, rfl, fun _ => rfl, ?_⟩
      apply Recorded.cut hcut
      all_goals rfl
  | false =>
      rw [if_neg nofun]
      cases herror : signal.error with
      | none =>
          refine ⟨_, rfl, rfl, rfl, rfl, rfl, fun h => h, ?_⟩
          apply Recorded.returned herror
          all_goals rfl
      | some error =>
          have harms : armsRetry services gather signal
              = (gather.countRun signal.operatorId).retryLeft services signal.operatorId
                ((gather.failedAttempts.get? signal.operatorId).getD 0 + 1) := by
            rw [armsRetry, hcut, herror]
            rfl
          have hending : signal.ending = .raised error := by
            rw [Completed.ending, herror, hcut]
            rfl
          dsimp only
          split
          · rename_i hleft
            obtain ⟨window, hwindow⟩ := scheduleRetry_of_retryLeft hleft (clock signal.operatorId)
            refine ⟨_, rfl, rfl, rfl, rfl, rfl, fun h => h, ?_⟩
            exact Recorded.retried hending (harms.trans hleft) (by rfl) (by rfl) hwindow (by rfl)
              (by rfl)
          · rename_i hleft
            rw [Bool.not_eq_true] at hleft
            refine ⟨_, rfl, rfl, rfl, rfl, rfl, fun h => h, ?_⟩
            apply Recorded.failed (harms.trans hleft)
            all_goals rfl

theorem isTripped_recordRun_of_ne {breaker : CircuitBreaker} {operatorId other : OperatorId}
    (hne : other ≠ operatorId) :
  (breaker.recordRun operatorId).isTripped other = breaker.isTripped other
  := by
  rw [CircuitBreaker.isTripped, CircuitBreaker.isTripped, CircuitBreaker.runs_recordRun,
    if_neg hne.symm, Nat.add_zero]
  rfl

/-- A run recorded of another operator does not change what one more run leaves. -/
theorem isTripped_recordRun_recordRun {breaker : CircuitBreaker} {operatorId other : OperatorId}
    (hne : other ≠ operatorId) :
  ((breaker.recordRun operatorId).recordRun other).isTripped other
    = (breaker.recordRun other).isTripped other
  := by
  rw [CircuitBreaker.isTripped, CircuitBreaker.isTripped, CircuitBreaker.runs_recordRun,
    CircuitBreaker.runs_recordRun, CircuitBreaker.runs_recordRun, if_neg hne.symm, Nat.add_zero]
  rfl

namespace Recorded

variable {services : Services P C O} {gather gather' : Gather P V} {signal : Completed}

/-- Other operators are left as they were. -/
theorem frame (h : Recorded services gather gather' signal) {other : OperatorId}
    (hne : other ≠ signal.operatorId) :
  gather'.failures.get? other = gather.failures.get? other
    ∧ gather'.armedRetries.get? other = gather.armedRetries.get? other
    ∧ gather'.failedAttempts.get? other = gather.failedAttempts.get? other
    ∧ gather'.breaker.isTripped other = gather.breaker.isTripped other
    ∧ (gather'.breaker.recordRun other).isTripped other
      = (gather.breaker.recordRun other).isTripped other
  := by
  cases h with
  | cut hcut hfailures harmed hretries hbreaker hattempts =>
      rw [hfailures, harmed, hbreaker, hattempts, Dict.get?_set_of_ne _ hne.symm]
      exact ⟨rfl, rfl, rfl, rfl, rfl⟩
  | returned herror hfailures harmed hretries hbreaker hattempts =>
      rw [hfailures, harmed, hbreaker, hattempts, Dict.get?_erase, if_neg hne.symm,
        isTripped_recordRun_of_ne hne, isTripped_recordRun_recordRun hne]
      exact ⟨rfl, rfl, rfl, rfl, rfl⟩
  | retried herror harms hfailures harmed hretries hbreaker hattempts =>
      rw [hfailures, harmed, hbreaker, hattempts, Dict.get?_set_of_ne _ hne.symm,
        Dict.get?_set_of_ne _ hne.symm, isTripped_recordRun_of_ne hne, isTripped_recordRun_recordRun hne]
      exact ⟨rfl, rfl, rfl, rfl, rfl⟩
  | failed harms hfailures harmed hretries hbreaker hattempts =>
      rw [hfailures, harmed, hbreaker, hattempts, Dict.get?_set_of_ne _ hne.symm,
        Dict.get?_erase, if_neg hne.symm, isTripped_recordRun_of_ne hne, isTripped_recordRun_recordRun hne]
      exact ⟨rfl, rfl, rfl, rfl, rfl⟩

/-- The windows stay those of the armed retries. -/
theorem scheduled (h : Recorded services gather gather' signal)
    (hscheduled : ∀ operatorId, gather.retries.isScheduled operatorId
      = (gather.armedRetries.get? operatorId).isSome) (operatorId : OperatorId) :
  gather'.retries.isScheduled operatorId = (gather'.armedRetries.get? operatorId).isSome
  := by
  cases h with
  | cut hcut hfailures harmed hretries =>
      rw [harmed, hretries, hscheduled]
  | returned herror hfailures harmed hretries =>
      rw [harmed, hretries, hscheduled]
  | retried herror harms hfailures harmed hretries =>
      rw [harmed, hretries, DebounceController.isScheduled_schedule, Dict.get?_set, hscheduled]
      by_cases hsame : signal.operatorId = operatorId
      · rw [if_pos hsame, decide_eq_true hsame]
        rfl
      · rw [if_neg hsame, decide_eq_false hsame, Bool.false_or]
  | failed harms hfailures harmed hretries =>
      rw [harmed, hretries, hscheduled]

/-- A recorded run succeeded, is reported or is to be retried. -/
theorem settled (h : Recorded services gather gather' signal) :
  signal.ending = .returned ∨ (gather'.failures.get? signal.operatorId).isSome
    ∨ (gather'.armedRetries.get? signal.operatorId).isSome
  := by
  cases h with
  | cut hcut hfailures =>
      right
      left
      rw [hfailures, Dict.get?_set_self]
      rfl
  | returned herror =>
      left
      rw [Completed.ending, herror]
  | retried herror harms hfailures harmed =>
      right
      right
      rw [harmed, Dict.get?_set_self]
      rfl
  | failed harms hfailures =>
      right
      left
      rw [hfailures, Dict.get?_set_self]
      rfl

/-- A retry is armed exactly by a failure that has one left. -/
theorem armed_iff (h : Recorded services gather gather' signal)
    (hunarmed : gather.armedRetries.get? signal.operatorId = none) :
  (gather'.armedRetries.get? signal.operatorId).isSome ↔ armsRetry services gather signal = true
  := by
  cases h with
  | cut hcut hfailures harmed =>
      rw [harmed, hunarmed, armsRetry, hcut]
      simp
  | returned herror hfailures harmed =>
      rw [harmed, hunarmed, armsRetry, herror]
      simp
  | retried herror harms hfailures harmed =>
      rw [harmed, Dict.get?_set_self, harms]
      simp
  | failed harms hfailures harmed =>
      rw [harmed, hunarmed, harms]
      simp

/-- A run whose retry is armed raised, and its breaker is not tripped. -/
theorem mine (h : Recorded services gather gather' signal)
    (hunarmed : gather.armedRetries.get? signal.operatorId = none)
    (harmed : (gather'.armedRetries.get? signal.operatorId).isSome) :
  (∃ error, signal.ending = .raised error)
    ∧ gather'.breaker.isTripped signal.operatorId = false
  := by
  have harms := (h.armed_iff hunarmed).mp harmed
  cases h with
  | cut hcut hfailures harmed' =>
      rw [harmed', hunarmed] at harmed
      cases harmed
  | returned herror hfailures harmed' =>
      rw [harmed', hunarmed] at harmed
      cases harmed
  | @retried error _ _ _ _ herror _ hfailures harmed' hretries hbreaker =>
      use ⟨error, herror⟩
      rw [hbreaker]
      rw [armsRetry, Bool.and_eq_true, retryLeft] at harms
      have hleft := harms.2
      split at hleft
      · cases hleft
      · rw [Bool.and_eq_true, Bool.not_eq_true'] at hleft
        apply hleft.2
  | failed harms' hfailures harmed' =>
      cases harms.symm.trans harms'

/-- A failure that arms a retry is not reported. -/
theorem failures_eq (h : Recorded services gather gather' signal)
    (harms : armsRetry services gather signal = true) :
  gather'.failures = gather.failures
  := by
  cases h with
  | cut hcut =>
      rw [armsRetry, hcut] at harms
      cases harms
  | returned herror hfailures => apply hfailures
  | retried herror _ hfailures => apply hfailures
  | failed harms' => cases harms.symm.trans harms'

/-- Whether the completion of another operator arms a retry is left as it was. -/
theorem armsRetry_eq (h : Recorded services gather gather' signal) {other : Completed}
    (hne : other.operatorId ≠ signal.operatorId) :
  armsRetry services gather' other = armsRetry services gather other
  := by
  obtain ⟨-, -, hattempts, -, hbreaker⟩ := h.frame hne
  rw [armsRetry, armsRetry, hattempts, retryLeft, retryLeft]
  rw [countRun, countRun]
  dsimp only
  rw [hbreaker]

end Recorded

/-- The retry of an operator is armed, or will be by a completion that is still to be recorded. -/
def LeavesRetry (services : Services P C O) (gather : Gather P V) (completions : List Completed)
    (operatorId : OperatorId) : Prop :=
  (gather.armedRetries.get? operatorId).isSome
    ∨ ∃ signal ∈ completions, signal.operatorId = operatorId
      ∧ armsRetry services gather signal = true

namespace Kept

variable {services : Services P C O} {gather gather' : Gather P V} {completions : List Completed}

/-- What is kept depends on the bookkeeping only. -/
theorem congr (h : Kept services gather completions) (hrunning : gather'.running = gather.running)
    (hending : gather'.lastEnding = gather.lastEnding) (hfailures : gather'.failures = gather.failures)
    (harmed : gather'.armedRetries = gather.armedRetries) (hbreaker : gather'.breaker = gather.breaker)
    (hretries : gather'.retries = gather.retries) :
  Kept services gather' completions
  := by
  constructor
  · rw [hrunning, hending]
    apply h.queued
  · apply h.nodup
  · rw [hrunning]
    apply h.reported
  · rw [hrunning, hending, hfailures, harmed]
    apply @h.settled
  · rw [hrunning, hending, harmed, hbreaker]
    apply @h.armed
  · rw [harmed, hretries]
    apply h.scheduled
  · rw [hrunning]
    apply @h.running

/-! ### Recording completions -/

/-- A completion that is to be recorded is of an operator that runs, and not the one of another. -/
theorem record_inv {signal : Completed} (h : Kept services gather (signal :: completions)) :
  ∃ record, gather.running.get? signal.operatorId = some record
    ∧ gather.armedRetries.get? signal.operatorId = none
    ∧ signal.operatorId ∉ completions.map Completed.operatorId
  := by
  obtain ⟨htask, -⟩ := h.queued signal List.mem_cons_self
  obtain ⟨record, hrecord, -⟩ := Option.map_eq_some_iff.mp htask
  use record, hrecord
  constructor
  · by_contra harmed
    have hrunning := (h.armed (Option.isSome_iff_ne_none.mpr harmed)).1
    cases hrecord.symm.trans hrunning
  · have hnodup := h.nodup
    rw [List.map_cons, List.nodup_cons] at hnodup
    apply hnodup.1

/-- What a recorded completion has to leave for all to be kept: nothing of other operators is
touched, and what it leaves of its own is settled. -/
theorem recorded {signal : Completed} (h : Kept services gather (signal :: completions))
    (hrunning : gather'.running = gather.running.erase signal.operatorId)
    (hending : gather'.lastEnding = gather.lastEnding)
    (hfailures : ∀ other, other ≠ signal.operatorId →
      gather'.failures.get? other = gather.failures.get? other)
    (harmed : ∀ other, other ≠ signal.operatorId →
      gather'.armedRetries.get? other = gather.armedRetries.get? other)
    (hbreaker : ∀ other, other ≠ signal.operatorId →
      gather'.breaker.isTripped other = gather.breaker.isTripped other)
    (hscheduled : ∀ operatorId, gather'.retries.isScheduled operatorId
      = (gather'.armedRetries.get? operatorId).isSome)
    (hsettled : signal.ending = .returned ∨ (gather'.failures.get? signal.operatorId).isSome
      ∨ (gather'.armedRetries.get? signal.operatorId).isSome)
    (hmine : (gather'.armedRetries.get? signal.operatorId).isSome →
      (∃ error, signal.ending = .raised error)
        ∧ gather'.breaker.isTripped signal.operatorId = false) :
  Kept services gather' completions
  := by
  obtain ⟨record, hrecord, -, hfresh⟩ := h.record_inv
  obtain ⟨-, hmyEnding⟩ := h.queued signal List.mem_cons_self
  have hother : ∀ {other}, other ≠ signal.operatorId →
      gather'.running.get? other = gather.running.get? other := by
    intro other hne
    rw [hrunning, Dict.get?_erase, if_neg hne.symm]
  have hself : gather'.running.get? signal.operatorId = none := by
    rw [hrunning, Dict.get?_erase, if_pos rfl]
  constructor
  · intro other hmem
    have hne : other.operatorId ≠ signal.operatorId := by
      intro hsame
      apply hfresh
      rw [← hsame]
      apply List.mem_map_of_mem hmem
    rw [hother hne, hending]
    apply h.queued other (List.mem_cons_of_mem _ hmem)
  · have hnodup := h.nodup
    rw [List.map_cons, List.nodup_cons] at hnodup
    apply hnodup.2
  · intro other htask
    have hne : other ≠ signal.operatorId := by
      rintro rfl
      rw [hself] at htask
      cases htask
    rw [hother hne] at htask
    have hmem := h.reported other htask
    rw [List.map_cons, List.mem_cons] at hmem
    apply hmem.resolve_left hne
  · intro other ending hnone hlast
    rw [hending] at hlast
    by_cases hsame : other = signal.operatorId
    · subst hsame
      obtain rfl := Option.some.inj (hmyEnding.symm.trans hlast)
      apply hsettled
    · rw [hother hsame] at hnone
      rw [hfailures other hsame, harmed other hsame]
      apply h.settled hnone hlast
  · intro other hsome
    by_cases hsame : other = signal.operatorId
    · subst hsame
      obtain ⟨⟨error, herror⟩, htripped⟩ := hmine hsome
      refine ⟨hself, ⟨error, ?_⟩, htripped, ?_⟩
      · rw [hending, hmyEnding, herror]
      · apply h.running
        rw [hrecord]
        rfl
    · rw [harmed other hsame] at hsome
      rw [hother hsame, hending, hbreaker other hsame]
      apply h.armed hsome
  · apply hscheduled
  · intro other hsome
    apply h.running
    by_cases hsame : other = signal.operatorId
    · rw [hsame, hself] at hsome
      cases hsome
    · rw [← hother hsame]
      apply hsome

/-- Recording a completion succeeds, and keeps what is kept. -/
theorem record {signal : Completed} (h : Kept services gather (signal :: completions))
    (clock : OperatorId → Monotonic) :
  ∃ gather', recordCompletion services clock gather signal = some gather'
    ∧ Kept services gather' completions ∧ gather'.queue = gather.queue
    ∧ gather'.phase = gather.phase ∧ (gather.deadlineHit = true → gather'.deadlineHit = true)
    ∧ gather'.running = gather.running.erase signal.operatorId
    ∧ gather'.lastEnding = gather.lastEnding ∧ Recorded services gather gather' signal
  := by
  obtain ⟨record, hrecord, hunarmed, -⟩ := h.record_inv
  obtain ⟨gather', hrec, hrunning, hending, hqueue, hphase, hhit, hrecorded⟩ :=
    @recordCompletion_cases P V C O services gather signal record clock hrecord
  use gather', hrec
  refine ⟨h.recorded hrunning hending ?_ ?_ ?_ ?_ ?_ ?_, hqueue, hphase, hhit, hrunning, hending,
    hrecorded⟩
  · intro other hne
    apply (hrecorded.frame hne).1
  · intro other hne
    apply (hrecorded.frame hne).2.1
  · intro other hne
    apply (hrecorded.frame hne).2.2.2.1
  · apply hrecorded.scheduled h.scheduled
  · apply hrecorded.settled
  · apply hrecorded.mine hunarmed

/-- Recording one of the completions leaves the same retries. -/
theorem leavesRetry_iff {signal : Completed} (h : Kept services gather (signal :: completions))
    (hrecorded : Recorded services gather gather' signal) (operatorId : OperatorId) :
  LeavesRetry services gather' completions operatorId
    ↔ LeavesRetry services gather (signal :: completions) operatorId
  := by
  obtain ⟨record, -, hunarmed, hfresh⟩ := h.record_inv
  rw [LeavesRetry, LeavesRetry]
  by_cases hsame : operatorId = signal.operatorId
  · subst hsame
    rw [hrecorded.armed_iff hunarmed, hunarmed]
    constructor
    · rintro (harms | ⟨other, hmem, hother, -⟩)
      · right
        use signal, List.mem_cons_self
      · cases hfresh (hother ▸ List.mem_map_of_mem hmem)
    · rintro (hnone | ⟨other, hmem, hother, harms⟩)
      · cases hnone
      · left
        rcases List.mem_cons.mp hmem with rfl | hmem
        · apply harms
        · cases hfresh (hother ▸ List.mem_map_of_mem hmem)
  · rw [(hrecorded.frame hsame).2.1]
    apply or_congr Iff.rfl
    constructor
    · rintro ⟨other, hmem, rfl, harms⟩
      rw [hrecorded.armsRetry_eq hsame] at harms
      use other, List.mem_cons_of_mem _ hmem
    · rintro ⟨other, hmem, rfl, harms⟩
      rcases List.mem_cons.mp hmem with rfl | hmem
      · cases hsame rfl
      · use other, hmem, rfl
        rw [hrecorded.armsRetry_eq hsame]
        apply harms

/-- Recording the completions succeeds, keeps what is kept, and leaves the retries of those that
failed with one left. -/
theorem records (h : Kept services gather completions) (clock : OperatorId → Monotonic) :
  ∃ gather', completions.foldlM (recordCompletion services clock) gather = some gather'
    ∧ Kept services gather' [] ∧ gather'.queue = gather.queue ∧ gather'.phase = gather.phase
    ∧ (gather.deadlineHit = true → gather'.deadlineHit = true)
    ∧ gather'.lastEnding = gather.lastEnding
    ∧ (∀ operatorId, (gather'.running.get? operatorId).isSome →
        gather'.running.get? operatorId = gather.running.get? operatorId)
    ∧ ∀ operatorId, ((gather'.armedRetries.get? operatorId).isSome
        ↔ LeavesRetry services gather completions operatorId)
      ∧ (LeavesRetry services gather completions operatorId →
        gather'.failures.get? operatorId = gather.failures.get? operatorId)
  := by
  induction completions generalizing gather with
  | nil =>
      refine ⟨gather, rfl, h, rfl, rfl, fun h => h, rfl, fun _ _ => rfl, ?_⟩
      intro operatorId
      constructor
      · rw [LeavesRetry]
        simp
      · intro _
        rfl
  | cons signal completions ih =>
      obtain ⟨between, hrec, hkept, hqueue, hphase, hhit, hrunning, hending, hrecorded⟩ :=
        h.record clock
      obtain ⟨gather', hrest, hkept', hqueue', hphase', hhit', hending', hrunning', harmed⟩ :=
        ih hkept
      refine ⟨gather', ?_, hkept', hqueue'.trans hqueue, hphase'.trans hphase, fun h => hhit' (hhit h),
        hending'.trans hending, ?_, ?_⟩
      · rw [List.foldlM_cons, hrec]
        apply hrest
      · intro operatorId hsome
        have hbetween := hrunning' operatorId hsome
        rw [hbetween] at hsome
        rw [hbetween, hrunning, Dict.get?_erase]
        rw [hrunning, Dict.get?_erase] at hsome
        split at hsome
        · cases hsome
        · rename_i hne
          rw [if_neg hne]
      · intro operatorId
        obtain ⟨hiff, hfailures⟩ := harmed operatorId
        rw [h.leavesRetry_iff hrecorded] at hiff hfailures
        use hiff
        intro hleaves
        rw [hfailures hleaves]
        by_cases hsame : operatorId = signal.operatorId
        · subst hsame
          rw [hrecorded.failures_eq]
          obtain ⟨-, -, hunarmed, hfresh⟩ := h.record_inv
          rcases hleaves with hnone | ⟨other, hmem, hother, harms⟩
          · rw [hunarmed] at hnone
            cases hnone
          · rcases List.mem_cons.mp hmem with rfl | hmem
            · apply harms
            · cases hfresh (hother ▸ List.mem_map_of_mem hmem)
        · apply (hrecorded.frame hsame).1

end Kept

end Gather

end Lite

end Orcastork
