import Mathlib.Tactic.Common
import Orcastork.Ids

/-!
# The in-memory session lock

`InMemorySessionLock` keeps one `LockState` for every session: the epoch counter, which
only ever increases, the lease, and the completion flag. The operations are given on the
state of the session they are called for. Time is the monotonic clock's reading, in ticks.
-/

namespace Orcastork

/-- A grant of the lock, live until it expires. -/
structure Lease where
  epoch : Epoch
  expiresAt : ℕ
  deriving DecidableEq, Repr

/-- What the lock keeps for one session. -/
structure LockState where
  epochCounter : Epoch
  lease : Option Lease
  complete : Bool
  deriving DecidableEq, Repr

namespace LockState

/-- The state of a session that was never locked. -/
def initial : LockState := ⟨0, none, false⟩

/-- `_is_live`: there is a lease and it has not expired. -/
def isLive (state : LockState) (now : ℕ) : Bool :=
  match state.lease with
  | none => false
  | some lease => now < lease.expiresAt

/-- `acquire`: a fresh epoch and a lease for it, unless the lock is held. -/
def acquire (state : LockState) (sessionId : SessionId) (now ttl : ℕ) :
    Except OrchestrationError (Epoch × LockState) :=
  if state.isLive now then
    .error (.lockHeld s!"session {sessionId} is already locked")
  else
    .ok (state.epochCounter + 1,
      { state with
        epochCounter := state.epochCounter + 1
        lease := some ⟨state.epochCounter + 1, now + ttl⟩ })

/-- `renew`: the lease extended, if it is live and this epoch's. -/
def renew (state : LockState) (sessionId : SessionId) (epoch : Epoch) (now ttl : ℕ) :
    Except OrchestrationError LockState :=
  match state.lease with
  | some lease =>
    if lease.epoch ≠ epoch ∨ ¬state.isLive now then
      .error (.staleEpoch s!"epoch {epoch} does not hold the lock for session {sessionId}")
    else
      .ok { state with lease := some { lease with expiresAt := now + ttl } }
  | none =>
    .error (.staleEpoch s!"epoch {epoch} does not hold the lock for session {sessionId}")

/-- `release`: the lease dropped, if it is this epoch's. -/
def release (state : LockState) (epoch : Epoch) : LockState :=
  match state.lease with
  | some lease => if lease.epoch = epoch then { state with lease := none } else state
  | none => state

/-- `current_epoch`: the highest epoch minted. -/
def currentEpoch (state : LockState) : Epoch := state.epochCounter

/-- `is_held`. -/
def isHeld (state : LockState) (now : ℕ) : Bool := state.isLive now

/-- `mark_complete`: the completion flag set, unless a higher epoch was minted. -/
def markComplete (state : LockState) (sessionId : SessionId) (epoch : Epoch) :
    Except OrchestrationError LockState :=
  if epoch < state.epochCounter then
    .error (.staleEpoch s!"epoch {epoch} is stale for session {sessionId}")
  else
    .ok { state with complete := true }

/-- `is_complete`. -/
def isComplete (state : LockState) : Bool := state.complete

/-- `clear_complete`. -/
def clearComplete (state : LockState) : LockState := { state with complete := false }

/-- A grant mints the next epoch. -/
theorem currentEpoch_acquire {state state' : LockState} {sessionId : SessionId} {now ttl : ℕ}
    {epoch : Epoch} (h : state.acquire sessionId now ttl = .ok (epoch, state')) :
  epoch = state.currentEpoch + 1 ∧ state'.currentEpoch = epoch
  := by
  unfold acquire at h
  split at h
  · cases h
  · cases h
    exact ⟨rfl, rfl⟩

@[simp]
theorem currentEpoch_release (state : LockState) (epoch : Epoch) :
  (state.release epoch).currentEpoch = state.currentEpoch
  := by
  unfold release
  split
  · split
    · rfl
    · rfl
  · rfl

/-! ### What a call to the lock does -/

variable {state state' : LockState} {sessionId : SessionId} {epoch : Epoch} {now ttl : ℕ}

/-- The lock is live exactly if it has a lease that has not expired. -/
theorem isLive_iff :
  state.isLive now = true ↔ ∃ lease, state.lease = some lease ∧ now < lease.expiresAt
  := by
  cases hlease : state.lease with
  | none => simp [isLive, hlease]
  | some lease => simp [isLive, hlease]

/-- The lock is granted exactly if it is free. -/
theorem acquire_eq_ok :
  state.acquire sessionId now ttl = .ok (epoch, state')
    ↔ state.isLive now = false ∧ epoch = state.epochCounter + 1
        ∧ state' = ⟨state.epochCounter + 1, some ⟨state.epochCounter + 1, now + ttl⟩, state.complete⟩
  := by
  rw [acquire]
  cases hlive : state.isLive now with
  | true => simp
  | false =>
      simp only [Bool.false_eq_true, if_false, Except.ok.injEq, Prod.mk.injEq, true_and]
      constructor
      · rintro ⟨rfl, rfl⟩
        use rfl
      · rintro ⟨rfl, rfl⟩
        use rfl

/-- A lease is renewed exactly if it is live and the epoch's. -/
theorem renew_eq_ok :
  state.renew sessionId epoch now ttl = .ok state'
    ↔ ∃ lease, state.lease = some lease ∧ lease.epoch = epoch ∧ now < lease.expiresAt
        ∧ state' = { state with lease := some ⟨epoch, now + ttl⟩ }
  := by
  rw [renew]
  cases hlease : state.lease with
  | none => simp
  | some lease =>
      simp only [isLive, hlease, decide_eq_true_eq, Option.some.injEq, exists_eq_left']
      split
      · rename_i hstale
        constructor
        · intro h
          cases h
        · rintro ⟨rfl, hlive, -⟩
          obtain hne | hdead := hstale
          · exact absurd rfl hne
          · exact absurd hlive hdead
      · rename_i hholds
        obtain ⟨hepoch, hlive⟩ := not_or.mp hholds
        rw [not_not] at hepoch hlive
        rw [Except.ok.injEq]
        constructor
        · rintro rfl
          use hepoch, hlive
          rw [hepoch]
        · rintro ⟨-, -, rfl⟩
          rw [hepoch]

/-- The session is marked complete exactly if no higher epoch was minted. -/
theorem markComplete_eq_ok :
  state.markComplete sessionId epoch = .ok state'
    ↔ state.epochCounter ≤ epoch ∧ state' = { state with complete := true }
  := by
  rw [markComplete]
  split
  · rename_i hlt
    constructor
    · intro h
      cases h
    · rintro ⟨hle, -⟩
      exact absurd hlt (Nat.not_lt.mpr hle)
  · rename_i hle
    rw [Except.ok.injEq]
    constructor
    · rintro rfl
      use Nat.not_lt.mp hle
    · rintro ⟨-, rfl⟩
      rfl

/-- A release drops the lease or leaves the lock as it is. -/
theorem release_eq (state : LockState) (epoch : Epoch) :
  (state.release epoch = { state with lease := none }
      ∧ ∃ lease, state.lease = some lease ∧ lease.epoch = epoch)
    ∨ (state.release epoch = state ∧ ∀ lease, state.lease = some lease → lease.epoch ≠ epoch)
  := by
  rw [release]
  cases hlease : state.lease with
  | none =>
      right
      simp
  | some lease =>
      simp only [Option.some.injEq, exists_eq_left', forall_eq']
      split
      · rename_i hepoch
        left
        use rfl
      · rename_i hepoch
        right
        use rfl

end LockState

end Orcastork
