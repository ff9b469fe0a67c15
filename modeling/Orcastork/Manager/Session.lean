import Orcastork.Library.Interleaving
import Orcastork.Library.TransitionSystem
import Orcastork.Orchestrator.SessionRun

/-!
# The calls on one session

`SessionOrchestrationManager` drives a session by any number of concurrent calls: `start_session`,
`resume`, `reopen` and `deliver`, on any pods. Every awaited operation of a call is a move of its
own, so everything may come between two of them: other calls, their runs, and the clock. A
`deliver` that leaves its entry to a live owner goes on as its deferred recheck.

A call that spawns a run stays with it: it goes through the moves of the run, and then probes the
inbox and spawns again. `resume` is serialised within a process (`_takeover_guard`); a call may be
in a process of its own, so this excludes nothing.
-/

namespace Orcastork

namespace Manager

/-- `MAX_BACKSTOP_RESPAWNS`. -/
def maxBackstopRespawns : ℕ := 8

/-- What a spawn counts: its re-spawns, and the entries that landed between the last inbox check
of a run and the probe after it. -/
structure Spawn where
  respawns : ℕ
  gapLandings : ℕ
  deriving DecidableEq, Repr

/-- A spawn at its first run. -/
def Spawn.first : Spawn := ⟨0, 0⟩

/-- A test of the lock that a call makes before it goes on or stands down. -/
inductive Test where
  | deliverIsComplete (reopenIfComplete : Bool)
  | deliverIsHeld (reopenIfComplete : Bool)
  | reopenOrResume
  | resumeIsComplete
  | resumeCurrentEpoch
  | resumeIsHeld
  | reopenIsComplete
  | reopenIsHeld
  deriving DecidableEq, Repr

/-- Where a call stands. -/
inductive Point (K : Type) where
  /-- `deliver` is about to append. -/
  | append (payload : String) (reopenIfComplete : Bool)
  | test (test : Test)
  /-- The deferred recheck of a delivery sleeps. -/
  | sleeping (dueAt : ℕ) (reopenIfComplete : Bool)
  | clearComplete (spawn : Spawn)
  /-- Clearing contribution markers; with none left, about to acquire the lock. -/
  | clearing (spawn : Spawn) (remaining : List OperatorId)
  | running (spawn : Spawn) (run : Run K)
  /-- The run has completed and released; the inbox is about to be probed. -/
  | probe (spawn : Spawn) (checkedAt : ℕ)
  | returned

/-- The calls of the manager. -/
inductive Call where
  | startSession
  | resume
  | reopen
  | deliver (payload : String) (reopenIfComplete : Bool)
  deriving DecidableEq, Repr

/-- Where a call begins. -/
def Call.entry (K : Type) : Call → Point K
  | .startSession => .clearing .first []
  | .resume => .test .resumeIsComplete
  | .reopen => .test .reopenIsComplete
  | .deliver payload reopenIfComplete => .append payload reopenIfComplete

/-- The moves of a call. -/
inductive Move (K : Type) where
  | append
  | test
  | wake
  | clearComplete
  | clearContribution
  | acquire (permitted : List OperatorId)
  | run (move : RunMove K)
  | release
  | probe
  | crash

variable {K : Type}

/-- Where a test leads. -/
def Test.next (flow : Flow) (shared : Shared K) : Test → Point K
  | .deliverIsComplete reopenIfComplete =>
    if shared.lock.isComplete then
      if reopenIfComplete then .test .reopenIsComplete else .returned
    else
      .test (.deliverIsHeld reopenIfComplete)
  | .deliverIsHeld reopenIfComplete =>
    if shared.lock.isHeld shared.now then
      .sleeping (shared.now + flow.redeliveryRecheck) reopenIfComplete
    else
      .test .resumeIsComplete
  | .reopenOrResume =>
    if shared.lock.isComplete then .test .reopenIsComplete else .test .resumeIsComplete
  | .resumeIsComplete =>
    if shared.lock.isComplete then .returned else .test .resumeCurrentEpoch
  | .resumeCurrentEpoch =>
    if shared.lock.currentEpoch = 0 then .returned else .test .resumeIsHeld
  | .resumeIsHeld => if shared.lock.isHeld shared.now then .returned else .clearing .first []
  | .reopenIsComplete =>
    if shared.lock.isComplete then .test .reopenIsHeld else .returned
  | .reopenIsHeld => if shared.lock.isHeld shared.now then .returned else .clearComplete .first

/-- Where a spawn goes on when its run has released. -/
def afterRun (spawn : Spawn) (run : Run K) (status : Status) : Point K :=
  if status = .completed ∧ spawn.respawns < maxBackstopRespawns then
    .probe spawn run.checkedAt
  else
    .returned

/-- A move of a call, if it is open to it. -/
def move [DecidableEq K] (flow : Flow) (shared : Shared K) :
    Point K → Move K → Option (Shared K × Point K)
  | .append payload reopenIfComplete, .append =>
    some ({ shared with inbox := (shared.inbox.append payload).2 },
      .test (.deliverIsComplete reopenIfComplete))
  | .test test, .test => some (shared, test.next flow shared)
  | .sleeping dueAt reopenIfComplete, .wake =>
    if dueAt ≤ shared.now then
      some (shared, .test (if reopenIfComplete then .reopenOrResume else .resumeIsComplete))
    else
      none
  | .clearComplete spawn, .clearComplete =>
    some ({ shared with lock := shared.lock.clearComplete }, .clearing spawn flow.aggregators)
  | .clearing spawn (operatorId :: rest), .clearContribution =>
    some ({ shared with durable := shared.durable.clearContribution flow.sessionId operatorId },
      .clearing spawn rest)
  | .clearing spawn [], .acquire permitted =>
    match shared.lock.acquire flow.sessionId shared.now flow.ttl with
    | .error _ => some (shared, .returned)
    | .ok (epoch, lock) =>
      some ({ shared with lock := lock },
        .running spawn (.granted K epoch (flow.aggregators.filter (· ∈ permitted))))
  | .running spawn run, .run m =>
    (run.move flow shared m).map (fun next => (next.1, .running spawn next.2))
  | .running spawn run, .release =>
    match run.stage with
    | .release status =>
      some ({ shared with
          lock := shared.lock.release run.epoch
          lastRelease := some (status, run.finalized) },
        afterRun spawn run status)
    | _ => none
  | .probe spawn checkedAt, .probe =>
    if shared.inbox.pendingCount = 0 then
      some (shared, .returned)
    else
      some (shared, .clearComplete
        ⟨spawn.respawns + 1, spawn.gapLandings + (shared.inbox.nextId - checkedAt)⟩)
  | _, .crash => some (shared, .returned)
  | _, _ => none

/-- The session with the calls on it. -/
abbrev State (K : Type) := Threads (Shared K) (Point K)

/-- What can happen: the clock advances, a call begins, or a call makes a move. -/
inductive Action (K : Type) where
  | elapse (ticks : ℕ)
  | invoke (call : Call)
  | move (call : ℕ) (move : Move K)

/-- One action. -/
def step [DecidableEq K] (flow : Flow) (s : State K) : Action K → Option (State K)
  | .elapse ticks => some { s with shared := { s.shared with now := s.shared.now + ticks } }
  | .invoke call => some (s.start (call.entry K))
  | .move i m => s.advance (move flow) i m

/-- No calls on a session nothing has happened to. -/
def initial (K : Type) : State K := ⟨.initial K, []⟩

/-! ### What a move can do -/

/-- Everything a move of a call can do. -/
inductive Moved [DecidableEq K] (flow : Flow) (shared : Shared K) :
    Point K → Move K → Shared K → Point K → Prop where
  | append {payload : String} {reopenIfComplete : Bool} :
    Moved flow shared (.append payload reopenIfComplete) .append
      { shared with inbox := (shared.inbox.append payload).2 }
      (.test (.deliverIsComplete reopenIfComplete))
  | test {test : Test} :
    Moved flow shared (.test test) .test shared (test.next flow shared)
  | wake {dueAt : ℕ} {reopenIfComplete : Bool} :
    dueAt ≤ shared.now →
    Moved flow shared (.sleeping dueAt reopenIfComplete) .wake shared
      (.test (if reopenIfComplete then .reopenOrResume else .resumeIsComplete))
  | clearComplete {spawn : Spawn} :
    Moved flow shared (.clearComplete spawn) .clearComplete
      { shared with lock := shared.lock.clearComplete } (.clearing spawn flow.aggregators)
  | clearContribution {spawn : Spawn} {operatorId : OperatorId} {rest : List OperatorId} :
    Moved flow shared (.clearing spawn (operatorId :: rest)) .clearContribution
      { shared with durable := shared.durable.clearContribution flow.sessionId operatorId }
      (.clearing spawn rest)
  | lockHeld {spawn : Spawn} {permitted : List OperatorId} :
    shared.lock.isLive shared.now = true →
    Moved flow shared (.clearing spawn []) (.acquire permitted) shared .returned
  | acquired {spawn : Spawn} {permitted : List OperatorId} {epoch : Epoch} {lock : LockState} :
    shared.lock.acquire flow.sessionId shared.now flow.ttl = .ok (epoch, lock) →
    Moved flow shared (.clearing spawn []) (.acquire permitted) { shared with lock := lock }
      (.running spawn (.granted K epoch (flow.aggregators.filter (· ∈ permitted))))
  | run {spawn : Spawn} {run run' : Run K} {m : RunMove K} {shared' : Shared K} :
    run.Moved flow shared m shared' run' →
    Moved flow shared (.running spawn run) (.run m) shared' (.running spawn run')
  | release {spawn : Spawn} {run : Run K} {status : Status} :
    run.stage = .release status →
    Moved flow shared (.running spawn run) .release
      { shared with
        lock := shared.lock.release run.epoch
        lastRelease := some (status, run.finalized) }
      (afterRun spawn run status)
  | probeEmpty {spawn : Spawn} {checkedAt : ℕ} :
    shared.inbox.messages = [] →
    Moved flow shared (.probe spawn checkedAt) .probe shared .returned
  | probePending {spawn : Spawn} {checkedAt : ℕ} :
    shared.inbox.messages ≠ [] →
    Moved flow shared (.probe spawn checkedAt) .probe shared
      (.clearComplete
        ⟨spawn.respawns + 1, spawn.gapLandings + (shared.inbox.nextId - checkedAt)⟩)
  | crash {point : Point K} :
    Moved flow shared point .crash shared .returned

variable [DecidableEq K] {flow : Flow} {shared shared' : Shared K}

/-- A move does one of the things a move can do. -/
theorem moved_of_move {point point' : Point K} {m : Move K}
    (h : move flow shared point m = some (shared', point')) :
  Moved flow shared point m shared' point'
  := by
  unfold move at h
  split at h
  · cases h
    apply Moved.append
  · cases h
    apply Moved.test
  · split at h
    · rename_i hdue
      cases h
      apply Moved.wake hdue
    · cases h
  · cases h
    apply Moved.clearComplete
  · cases h
    apply Moved.clearContribution
  · split at h
    · rename_i error herror
      cases h
      apply Moved.lockHeld
      rw [LockState.acquire] at herror
      split at herror
      · assumption
      · cases herror
    · rename_i epoch lock hacquire
      cases h
      apply Moved.acquired hacquire
  · obtain ⟨⟨shared₁, run₁⟩, hmove, hnext⟩ := Option.map_eq_some_iff.mp h
    cases hnext
    apply Moved.run
    apply Run.moved_of_move hmove
  · split at h
    · rename_i hstage
      cases h
      apply Moved.release hstage
    · cases h
  · split at h
    · rename_i hempty
      cases h
      apply Moved.probeEmpty
      apply List.length_eq_zero_iff.mp hempty
    · rename_i hpending
      cases h
      apply Moved.probePending
      intro hempty
      apply hpending
      rw [InboxState.pendingCount, hempty, List.length_nil]
  · cases h
    apply Moved.crash
  · cases h

/-- What an action does: the clock advances, a call is started, or one call has moved. -/
theorem step_eq_some {s s' : State K} {action : Action K} (h : step flow s action = some s') :
  (∃ ticks, action = .elapse ticks
      ∧ s' = ⟨{ s.shared with now := s.shared.now + ticks }, s.points⟩)
    ∨ (∃ call, action = .invoke call ∧ s' = ⟨s.shared, s.points ++ [call.entry K]⟩)
    ∨ ∃ i m point shared' point', action = .move i m ∧ s.points[i]? = some point
        ∧ Moved flow s.shared point m shared' point' ∧ s' = ⟨shared', s.points.set i point'⟩
  := by
  cases action with
  | elapse ticks =>
      left
      use ticks, rfl
      apply (Option.some.inj h).symm
  | invoke call =>
      right
      left
      use call, rfl
      apply (Option.some.inj h).symm
  | move i m =>
      right
      right
      obtain ⟨point, shared', point', hpoint, hmove, rfl⟩ := Threads.advance_eq_some.mp h
      use i, m, point, shared', point', rfl, hpoint, moved_of_move hmove

end Manager

end Orcastork
