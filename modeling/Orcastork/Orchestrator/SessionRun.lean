import Orcastork.Adapters.Memory.DurableStore
import Orcastork.Adapters.Memory.Inbox
import Orcastork.Adapters.Memory.Lock

/-!
# A run of the orchestrator

`Orchestrator._run`, from the grant of the lock to its release, as single moves on what the runs
and the manager calls of one session share. A run rehydrates, gathers (merges DataPoints, drains
the inbox, may park), aggregates (skips what has contributed, finalizes and marks the rest),
looks at the inbox once more, and marks the session complete or goes around again.

What an operator emits, when gathering ends, which aggregators are ready and how their attempts
end is left open: it is chosen by the move. Of a DataPoint only its identity is kept; `K` stands
for identities. Wherever an awaited call can raise a `StaleEpochError` the run can be `fenced`,
and wherever another error can escape it can `raise`.
-/

namespace Orcastork

/-- The parameters of a flow that a run and the manager read. -/
structure Flow where
  sessionId : SessionId
  /-- The aggregators, in the order of the flow's operators. -/
  aggregators : List OperatorId
  /-- The lock's lease duration. -/
  ttl : ℕ
  /-- How long a deferred recheck sleeps. -/
  redeliveryRecheck : ℕ
  /-- How long a wait for the inbox may last before the run parks, if it parks at all. -/
  parkAfter : Option ℕ
  decode : Decoder

/-- How a run ends; `failed` if an error escapes it. -/
inductive Status where
  | completed
  | parked
  | superseded
  | failed
  deriving DecidableEq, Repr

/-- What the runs and calls of a session share. -/
structure Shared (K : Type) where
  now : ℕ
  lock : LockState
  inbox : InboxState
  durable : DurableStore
  /-- The identities of the DataPoints in the store. -/
  store : Finset K
  /-- The highest epoch the store has accepted. -/
  storeEpoch : Epoch
  /-- For every aggregator the view its last successful finalize was given. -/
  lastView : OperatorId → Option (Finset K)
  /-- How the last run to release ended, and the aggregators it finalized and marked. -/
  lastRelease : Option (Status × Finset OperatorId)

/-- A session nothing has happened to. -/
def Shared.initial (K : Type) : Shared K where
  now := 0
  lock := .initial
  inbox := .initial
  durable := .initial
  store := ∅
  storeEpoch := 0
  lastView := fun _ => none
  lastRelease := none

/-- An aggregator of the session has its contribution marked. -/
def Shared.marked {K : Type} (shared : Shared K) (flow : Flow) (operatorId : OperatorId) : Bool :=
  shared.durable.isContributionMarked flow.sessionId operatorId

/-- Where a run stands. -/
inductive Stage where
  /-- Granted, not yet rehydrated. -/
  | starting
  | gather
  /-- Aggregating, with the aggregators not yet looked at; with none left, finalizing. -/
  | aggregate (unchecked : List OperatorId)
  /-- Clearing the markers for a re-drive. -/
  | redrive (remaining : List OperatorId)
  /-- Past the inbox check, about to mark the session complete. -/
  | complete
  | release (status : Status)
  deriving DecidableEq, Repr

/-- A run, with its local state. -/
structure Run (K : Type) where
  epoch : Epoch
  /-- The aggregators permitted to it. -/
  aggregators : List OperatorId
  stage : Stage
  /-- The identities in the mirror. -/
  mirror : Finset K
  /-- The view of the last aggregation phase. -/
  view : Finset K
  /-- The aggregators that phase found ready. -/
  ready : Finset OperatorId
  /-- Those it launched and that have not ended. -/
  launched : Finset OperatorId
  /-- Those that succeeded and are not yet marked. -/
  succeeded : Finset OperatorId
  /-- Those finalized and marked since the last re-drive. -/
  finalized : Finset OperatorId
  deadLetters : Finset OperatorId
  /-- How many entries had been appended to the inbox when it was last found empty. -/
  checkedAt : ℕ

/-- A run that was just granted an epoch. -/
def Run.granted (K : Type) (epoch : Epoch) (aggregators : List OperatorId) : Run K where
  epoch := epoch
  aggregators := aggregators
  stage := .starting
  mirror := ∅
  view := ∅
  ready := ∅
  launched := ∅
  succeeded := ∅
  finalized := ∅
  deadLetters := ∅
  checkedAt := 0

/-- The moves of a run. -/
inductive RunMove (K : Type) where
  | rehydrate
  | renew
  | merge (identities : Finset K)
  | reclaim
  | consume
  | ack (entryId : ℕ)
  | quarantine (entryId : ℕ) (reason : String)
  | park
  | aggregate
  | checkAggregator (ready : Bool)
  | finalize (operatorId : OperatorId)
  | deadLetter (operatorId : OperatorId)
  | markContribution (operatorId : OperatorId)
  | pendingCount
  | clearContribution
  | markComplete
  | fenced
  | raise

/-- The lease of an epoch is live. -/
def LockState.heldBy (lock : LockState) (epoch : Epoch) (now : ℕ) : Bool :=
  lock.isLive now && (lock.lease.map Lease.epoch == some epoch)

namespace Run

variable {K : Type} [DecidableEq K] (flow : Flow) (shared : Shared K) (run : Run K)

/-- The run at another stage. -/
def enter (stage : Stage) : Run K := { run with stage := stage }

/-- `_aggregate` begins: the lease is renewed and the view taken. -/
def beginAggregate : Option (Shared K × Run K) :=
  match shared.lock.renew flow.sessionId run.epoch shared.now flow.ttl with
  | .error _ => none
  | .ok lock =>
    some ({ shared with lock := lock },
      { run with
        stage := .aggregate run.aggregators
        view := run.mirror
        ready := ∅
        launched := ∅
        succeeded := ∅ })

/-- `_aggregate` looks at an aggregator: one that is not ready, or has contributed, is skipped. -/
def checkAggregator (operatorId : OperatorId) (rest : List OperatorId) (ready : Bool) : Run K :=
  if !ready then
    run.enter (.aggregate rest)
  else if shared.marked flow operatorId then
    { run with stage := .aggregate rest, ready := insert operatorId run.ready }
  else
    { run with
      stage := .aggregate rest
      ready := insert operatorId run.ready
      launched := insert operatorId run.launched }

/-- The inbox is looked at once more: empty, the session is complete; otherwise re-driven. -/
def checkInbox : Run K :=
  if shared.inbox.pendingCount = 0 then
    { run with stage := .complete, checkedAt := shared.inbox.nextId }
  else
    run.enter (.redrive run.aggregators)

/-- A move of a run, if it is open to it. -/
def move : RunMove K → Option (Shared K × Run K)
  | .rehydrate =>
    if run.stage = .starting then
      some (shared, { run with stage := .gather, mirror := shared.store })
    else
      none
  | .renew =>
    if run.stage = .gather ∨ run.stage = .aggregate [] then
      match shared.lock.renew flow.sessionId run.epoch shared.now flow.ttl with
      | .error _ => none
      | .ok lock => some ({ shared with lock := lock }, run)
    else
      none
  | .merge identities =>
    if run.stage = .gather ∧ shared.storeEpoch ≤ run.epoch then
      some ({ shared with
          store := shared.store ∪ identities
          storeEpoch := run.epoch },
        { run with mirror := run.mirror ∪ identities })
    else
      none
  | .reclaim =>
    if run.stage = .gather then
      match shared.inbox.reclaim flow.decode with
      | (.ok _, inbox) => some ({ shared with inbox := inbox }, run)
      | (.error _, inbox) => some ({ shared with inbox := inbox }, run.enter (.release .failed))
    else
      none
  | .consume =>
    if run.stage = .gather then
      match shared.inbox.consume flow.decode none with
      | (.ok _, inbox) => some ({ shared with inbox := inbox }, run)
      | (.error _, inbox) => some ({ shared with inbox := inbox }, run.enter (.release .failed))
    else
      none
  | .ack entryId =>
    if run.stage = .gather then
      match shared.inbox.ack entryId run.epoch with
      | .error _ => none
      | .ok inbox => some ({ shared with inbox := inbox }, run)
    else
      none
  | .quarantine entryId reason =>
    if run.stage = .gather then
      match shared.inbox.quarantine entryId reason run.epoch with
      | .error _ => none
      | .ok inbox => some ({ shared with inbox := inbox }, run)
    else
      none
  | .park =>
    -- The wait looks at its waiter task and the clock, not at the inbox: an entry that lands before
    -- the waiter has run stays behind.
    if run.stage = .gather ∧ flow.parkAfter.isSome then
      some (shared, run.enter (.release .parked))
    else
      none
  | .aggregate => if run.stage = .gather then run.beginAggregate flow shared else none
  | .checkAggregator ready =>
    match run.stage with
    | .aggregate (operatorId :: rest) =>
      some (shared, run.checkAggregator flow shared operatorId rest ready)
    | _ => none
  | .finalize operatorId =>
    if run.stage = .aggregate [] ∧ operatorId ∈ run.launched then
      some ({ shared with lastView := Function.update shared.lastView operatorId (some run.view) },
        { run with
          launched := run.launched.erase operatorId
          succeeded := insert operatorId run.succeeded })
    else
      none
  | .deadLetter operatorId =>
    if run.stage = .aggregate [] ∧ operatorId ∈ run.launched then
      some (shared,
        { run with
          launched := run.launched.erase operatorId
          deadLetters := insert operatorId run.deadLetters })
    else
      none
  | .markContribution operatorId =>
    if run.stage = .aggregate [] ∧ operatorId ∈ run.succeeded then
      match shared.durable.markContribution flow.sessionId operatorId run.epoch with
      | (.error _, _) => none
      | (.ok _, durable) =>
        some ({ shared with durable := durable },
          { run with
            succeeded := run.succeeded.erase operatorId
            finalized := insert operatorId run.finalized })
    else
      none
  | .pendingCount =>
    if run.stage = .aggregate [] ∧ run.launched = ∅ ∧ run.succeeded = ∅ then
      some (shared, run.checkInbox shared)
    else
      none
  | .clearContribution =>
    match run.stage with
    | .redrive [] => some (shared, run.enter .gather)
    | .redrive (operatorId :: rest) =>
      some ({ shared with
          durable := shared.durable.clearContribution flow.sessionId operatorId },
        { run with
          stage := .redrive rest
          finalized := run.finalized.erase operatorId })
    | _ => none
  | .markComplete =>
    if run.stage = .complete then
      match shared.lock.markComplete flow.sessionId run.epoch with
      | .error _ => none
      | .ok lock => some ({ shared with lock := lock }, run.enter (.release .completed))
    else
      none
  | .fenced =>
    match run.stage with
    | .release _ => none
    | _ =>
      if shared.lock.heldBy run.epoch shared.now then
        none
      else
        some (shared, run.enter (.release .superseded))
  | .raise =>
    match run.stage with
    | .release _ => none
    | _ => some (shared, run.enter (.release .failed))

variable {flow} {shared} {run}

/-- Everything a move of a run can do. -/
inductive Moved (flow : Flow) (shared : Shared K) (run : Run K) :
    RunMove K → Shared K → Run K → Prop where
  | rehydrate :
    run.stage = .starting →
    Moved flow shared run .rehydrate shared
      { run with stage := .gather, mirror := shared.store }
  | renew {lock : LockState} :
    run.stage = .gather ∨ run.stage = .aggregate [] →
    shared.lock.renew flow.sessionId run.epoch shared.now flow.ttl = .ok lock →
    Moved flow shared run .renew { shared with lock := lock } run
  | merge {identities : Finset K} :
    run.stage = .gather → shared.storeEpoch ≤ run.epoch →
    Moved flow shared run (.merge identities)
      { shared with store := shared.store ∪ identities, storeEpoch := run.epoch }
      { run with mirror := run.mirror ∪ identities }
  | reclaim {delivered : List DeliveredInboxEntry} {inbox : InboxState} :
    run.stage = .gather → shared.inbox.reclaim flow.decode = (.ok delivered, inbox) →
    Moved flow shared run .reclaim { shared with inbox := inbox } run
  | reclaimRaises {error : OrchestrationError} {inbox : InboxState} :
    run.stage = .gather → shared.inbox.reclaim flow.decode = (.error error, inbox) →
    Moved flow shared run .reclaim { shared with inbox := inbox } (run.enter (.release .failed))
  | consume {delivered : List DeliveredInboxEntry} {inbox : InboxState} :
    run.stage = .gather → shared.inbox.consume flow.decode none = (.ok delivered, inbox) →
    Moved flow shared run .consume { shared with inbox := inbox } run
  | consumeRaises {error : OrchestrationError} {inbox : InboxState} :
    run.stage = .gather → shared.inbox.consume flow.decode none = (.error error, inbox) →
    Moved flow shared run .consume { shared with inbox := inbox } (run.enter (.release .failed))
  | ack {entryId : ℕ} {inbox : InboxState} :
    run.stage = .gather → shared.inbox.ack entryId run.epoch = .ok inbox →
    Moved flow shared run (.ack entryId) { shared with inbox := inbox } run
  | quarantine {entryId : ℕ} {reason : String} {inbox : InboxState} :
    run.stage = .gather → shared.inbox.quarantine entryId reason run.epoch = .ok inbox →
    Moved flow shared run (.quarantine entryId reason) { shared with inbox := inbox } run
  | park :
    run.stage = .gather → flow.parkAfter.isSome = true →
    Moved flow shared run .park shared (run.enter (.release .parked))
  | aggregate {lock : LockState} :
    run.stage = .gather →
    shared.lock.renew flow.sessionId run.epoch shared.now flow.ttl = .ok lock →
    Moved flow shared run .aggregate { shared with lock := lock }
      { run with
        stage := .aggregate run.aggregators
        view := run.mirror
        ready := ∅
        launched := ∅
        succeeded := ∅ }
  | skipUnready {operatorId : OperatorId} {rest : List OperatorId} :
    run.stage = .aggregate (operatorId :: rest) →
    Moved flow shared run (.checkAggregator false) shared (run.enter (.aggregate rest))
  | skipMarked {operatorId : OperatorId} {rest : List OperatorId} :
    run.stage = .aggregate (operatorId :: rest) → shared.marked flow operatorId = true →
    Moved flow shared run (.checkAggregator true) shared
      { run with stage := .aggregate rest, ready := insert operatorId run.ready }
  | launch {operatorId : OperatorId} {rest : List OperatorId} :
    run.stage = .aggregate (operatorId :: rest) → shared.marked flow operatorId = false →
    Moved flow shared run (.checkAggregator true) shared
      { run with
        stage := .aggregate rest
        ready := insert operatorId run.ready
        launched := insert operatorId run.launched }
  | finalize {operatorId : OperatorId} :
    run.stage = .aggregate [] → operatorId ∈ run.launched →
    Moved flow shared run (.finalize operatorId)
      { shared with lastView := Function.update shared.lastView operatorId (some run.view) }
      { run with
        launched := run.launched.erase operatorId
        succeeded := insert operatorId run.succeeded }
  | deadLetter {operatorId : OperatorId} :
    run.stage = .aggregate [] → operatorId ∈ run.launched →
    Moved flow shared run (.deadLetter operatorId) shared
      { run with
        launched := run.launched.erase operatorId
        deadLetters := insert operatorId run.deadLetters }
  | markContribution {operatorId : OperatorId} {new : Bool} {durable : DurableStore} :
    run.stage = .aggregate [] → operatorId ∈ run.succeeded →
    shared.durable.markContribution flow.sessionId operatorId run.epoch = (.ok new, durable) →
    Moved flow shared run (.markContribution operatorId) { shared with durable := durable }
      { run with
        succeeded := run.succeeded.erase operatorId
        finalized := insert operatorId run.finalized }
  | inboxEmpty :
    run.stage = .aggregate [] → run.launched = ∅ → run.succeeded = ∅ →
    shared.inbox.messages = [] →
    Moved flow shared run .pendingCount shared
      { run with stage := .complete, checkedAt := shared.inbox.nextId }
  | inboxPending :
    run.stage = .aggregate [] → run.launched = ∅ → run.succeeded = ∅ →
    shared.inbox.messages ≠ [] →
    Moved flow shared run .pendingCount shared (run.enter (.redrive run.aggregators))
  | clearContribution {operatorId : OperatorId} {rest : List OperatorId} :
    run.stage = .redrive (operatorId :: rest) →
    Moved flow shared run .clearContribution
      { shared with durable := shared.durable.clearContribution flow.sessionId operatorId }
      { run with stage := .redrive rest, finalized := run.finalized.erase operatorId }
  | redriven :
    run.stage = .redrive [] →
    Moved flow shared run .clearContribution shared (run.enter .gather)
  | markComplete {lock : LockState} :
    run.stage = .complete →
    shared.lock.markComplete flow.sessionId run.epoch = .ok lock →
    Moved flow shared run .markComplete { shared with lock := lock }
      (run.enter (.release .completed))
  | fenced :
    (∀ status, run.stage ≠ .release status) →
    shared.lock.heldBy run.epoch shared.now = false →
    Moved flow shared run .fenced shared (run.enter (.release .superseded))
  | raise :
    (∀ status, run.stage ≠ .release status) →
    Moved flow shared run .raise shared (run.enter (.release .failed))

/-- A move does one of the things a move can do. -/
theorem moved_of_move {m : RunMove K} {shared' : Shared K} {run' : Run K}
    (h : run.move flow shared m = some (shared', run')) :
  Moved flow shared run m shared' run'
  := by
  cases m with
  | rehydrate =>
      rw [move] at h
      split at h
      · rename_i hstage
        cases h
        apply Moved.rehydrate hstage
      · cases h
  | renew =>
      rw [move] at h
      split at h
      · rename_i hstage
        split at h
        · cases h
        · rename_i lock hrenew
          cases h
          apply Moved.renew hstage hrenew
      · cases h
  | merge identities =>
      rw [move] at h
      split at h
      · rename_i hstage
        cases h
        apply Moved.merge hstage.1 hstage.2
      · cases h
  | reclaim =>
      rw [move] at h
      split at h
      · rename_i hstage
        split at h
        · rename_i heq
          cases h
          apply Moved.reclaim hstage heq
        · rename_i heq
          cases h
          apply Moved.reclaimRaises hstage heq
      · cases h
  | consume =>
      rw [move] at h
      split at h
      · rename_i hstage
        split at h
        · rename_i heq
          cases h
          apply Moved.consume hstage heq
        · rename_i heq
          cases h
          apply Moved.consumeRaises hstage heq
      · cases h
  | ack entryId =>
      rw [move] at h
      split at h
      · rename_i hstage
        split at h
        · cases h
        · rename_i inbox hack
          cases h
          apply Moved.ack hstage hack
      · cases h
  | quarantine entryId reason =>
      rw [move] at h
      split at h
      · rename_i hstage
        split at h
        · cases h
        · rename_i inbox hquarantine
          cases h
          apply Moved.quarantine hstage hquarantine
      · cases h
  | park =>
      rw [move] at h
      split at h
      · rename_i hstage
        cases h
        apply Moved.park hstage.1 hstage.2
      · cases h
  | aggregate =>
      rw [move] at h
      split at h
      · rename_i hstage
        rw [beginAggregate] at h
        split at h
        · cases h
        · rename_i lock hrenew
          cases h
          apply Moved.aggregate hstage hrenew
      · cases h
  | checkAggregator ready =>
      rw [move] at h
      split at h
      · rename_i operatorId rest hstage
        cases h
        rw [checkAggregator]
        cases ready with
        | false => apply Moved.skipUnready hstage
        | true =>
            cases hmarked : shared.marked flow operatorId with
            | true => apply Moved.skipMarked hstage hmarked
            | false => apply Moved.launch hstage hmarked
      · cases h
  | finalize operatorId =>
      rw [move] at h
      split at h
      · rename_i hstage
        cases h
        apply Moved.finalize hstage.1 hstage.2
      · cases h
  | deadLetter operatorId =>
      rw [move] at h
      split at h
      · rename_i hstage
        cases h
        apply Moved.deadLetter hstage.1 hstage.2
      · cases h
  | markContribution operatorId =>
      rw [move] at h
      split at h
      · rename_i hstage
        split at h
        · cases h
        · rename_i new durable hmark
          cases h
          apply Moved.markContribution hstage.1 hstage.2 hmark
      · cases h
  | pendingCount =>
      rw [move] at h
      split at h
      · rename_i hstage
        obtain ⟨haggregate, hlaunched, hsucceeded⟩ := hstage
        cases h
        rw [checkInbox]
        split
        · rename_i hempty
          apply Moved.inboxEmpty haggregate hlaunched hsucceeded
          apply List.length_eq_zero_iff.mp hempty
        · rename_i hpending
          apply Moved.inboxPending haggregate hlaunched hsucceeded
          intro hempty
          apply hpending
          rw [InboxState.pendingCount, hempty, List.length_nil]
      · cases h
  | clearContribution =>
      rw [move] at h
      split at h
      · rename_i hstage
        cases h
        apply Moved.redriven hstage
      · rename_i operatorId rest hstage
        cases h
        apply Moved.clearContribution hstage
      · cases h
  | markComplete =>
      rw [move] at h
      split at h
      · rename_i hstage
        split at h
        · cases h
        · rename_i lock hmark
          cases h
          apply Moved.markComplete hstage hmark
      · cases h
  | fenced =>
      rw [move] at h
      split at h
      · cases h
      · rename_i hrelease
        split at h
        · cases h
        · rename_i hheld
          cases h
          apply Moved.fenced hrelease
          rw [Bool.not_eq_true] at hheld
          apply hheld
  | raise =>
      rw [move] at h
      split at h
      · cases h
      · rename_i hrelease
        cases h
        apply Moved.raise hrelease

end Run

/-! ### What a move of a run does -/

namespace LockState

variable {lock : LockState} {epoch : Epoch} {now ttl : ℕ}

/-- The lock is held by an epoch if the epoch's lease is live. -/
theorem heldBy_iff :
  lock.heldBy epoch now = true
    ↔ ∃ lease, lock.lease = some lease ∧ lease.epoch = epoch ∧ now < lease.expiresAt
  := by
  cases hlease : lock.lease with
  | none => simp [heldBy, isLive, hlease]
  | some lease => simp [heldBy, isLive, hlease, and_comm]

/-- A lock that is held is live. -/
theorem isLive_of_heldBy (h : lock.heldBy epoch now = true) :
  lock.isLive now = true
  := by
  rw [heldBy, Bool.and_eq_true] at h
  apply h.1

end LockState

namespace Run

variable {K : Type} [DecidableEq K] {flow : Flow} {shared shared' : Shared K} {run run' : Run K}
  {m : RunMove K}

/-- A move keeps the run's epoch, and neither the clock nor the last release changes. -/
theorem Moved.frame (h : run.Moved flow shared m shared' run') :
  run'.epoch = run.epoch ∧ shared'.now = shared.now ∧ shared'.lastRelease = shared.lastRelease
  := by
  cases h <;> exact ⟨rfl, rfl, rfl⟩

/-- A move leaves the lock as it is, or renews the run's own lease, or marks the session
complete. -/
theorem Moved.lock (h : run.Moved flow shared m shared' run') :
  shared'.lock = shared.lock
    ∨ (shared.lock.heldBy run.epoch shared.now = true
        ∧ shared'.lock
          = { shared.lock with lease := some ⟨run.epoch, shared.now + flow.ttl⟩ })
    ∨ (shared.lock.epochCounter ≤ run.epoch
        ∧ shared'.lock = { shared.lock with complete := true })
  := by
  have hheld {lock : LockState}
      (hrenew : shared.lock.renew flow.sessionId run.epoch shared.now flow.ttl = .ok lock) :
      shared.lock.heldBy run.epoch shared.now = true
        ∧ lock = { shared.lock with lease := some ⟨run.epoch, shared.now + flow.ttl⟩ } := by
    obtain ⟨lease, hlease, hepoch, hlive, hlock⟩ := LockState.renew_eq_ok.mp hrenew
    constructor
    · simp [LockState.heldBy, LockState.isLive, hlease, hepoch, hlive]
    · apply hlock
  cases h with
  | renew _ hrenew =>
      right
      left
      apply hheld hrenew
  | aggregate _ hrenew =>
      right
      left
      apply hheld hrenew
  | markComplete _ hmark =>
      right
      right
      apply LockState.markComplete_eq_ok.mp hmark
  | _ =>
      left
      rfl

/-- A run that holds the lock still holds it after a move. -/
theorem Moved.heldBy (h : run.Moved flow shared m shared' run') (httl : 0 < flow.ttl) (hheld : shared.lock.heldBy run.epoch shared.now = true) :
  shared'.lock.heldBy run'.epoch shared'.now = true
  := by
  obtain ⟨hepoch, hnow, -⟩ := h.frame
  rw [hepoch, hnow]
  obtain hlock | ⟨-, hlock⟩ | ⟨-, hlock⟩ := h.lock
  · rw [hlock]
    apply hheld
  · rw [hlock]
    apply LockState.heldBy_iff.mpr
    use ⟨run.epoch, shared.now + flow.ttl⟩, rfl, rfl
    apply Nat.lt_add_of_pos_right httl
  · rw [hlock]
    apply hheld

/-- A run that releases makes no further move. -/
theorem Moved.not_release (h : run.Moved flow shared m shared' run') (status : Status) :
  run.stage ≠ .release status
  := by
  intro hrelease
  cases h <;> simp_all

/-- How a move leads to the release of a run. -/
inductive Ended (flow : Flow) (shared : Shared K) (run : Run K) (m : RunMove K)
    (shared' : Shared K) : Status → Prop where
  | completed :
    run.stage = .complete → shared'.lock.isComplete = true → Ended flow shared run m shared' .completed
  | parked :
    m = .park → shared' = shared → Ended flow shared run m shared' .parked
  | superseded :
    shared.lock.heldBy run.epoch shared.now = false → Ended flow shared run m shared' .superseded
  | failed :
    m = .raise
      ∨ (m = .reclaim ∧ ∃ error, (shared.inbox.reclaim flow.decode).1 = .error error)
      ∨ (m = .consume ∧ ∃ error, (shared.inbox.consume flow.decode none).1 = .error error) →
    Ended flow shared run m shared' .failed

/-- A move leads to the release of a run by one of these ways. -/
theorem Moved.ended (h : run.Moved flow shared m shared' run') {status : Status}
    (hstage : run'.stage = .release status) :
  Ended flow shared run m shared' status
  := by
  have hnot := h.not_release status
  cases h with
  | park =>
      cases hstage
      apply Ended.parked rfl rfl
  | markComplete hcomplete hmark =>
      cases hstage
      obtain ⟨-, rfl⟩ := LockState.markComplete_eq_ok.mp hmark
      apply Ended.completed hcomplete rfl
  | fenced _ hheld =>
      cases hstage
      apply Ended.superseded hheld
  | raise =>
      cases hstage
      apply Ended.failed
      left
      rfl
  | @reclaimRaises error inbox _ hreclaim =>
      cases hstage
      apply Ended.failed
      right
      left
      use rfl, error
      rw [hreclaim]
  | @consumeRaises error inbox _ hconsume =>
      cases hstage
      apply Ended.failed
      right
      right
      use rfl, error
      rw [hconsume]
  | renew => exact absurd hstage hnot
  | merge => exact absurd hstage hnot
  | reclaim => exact absurd hstage hnot
  | consume => exact absurd hstage hnot
  | ack => exact absurd hstage hnot
  | quarantine => exact absurd hstage hnot
  | finalize => exact absurd hstage hnot
  | deadLetter => exact absurd hstage hnot
  | markContribution => exact absurd hstage hnot
  | _ => cases hstage

end Run

end Orcastork
