import Orcastork.Adapters.Memory.Archive
import Orcastork.Adapters.Memory.AuditSink
import Orcastork.Adapters.Memory.DurableStore
import Orcastork.Adapters.Memory.Inbox
import Orcastork.Adapters.Memory.Lock
import Orcastork.Adapters.Memory.Store

/-!
# What a run does to the backends

A run of the orchestrator changes its session only through its adapters. `RunOp` lists every
mutating call it can make, from any of its program points, and `Backends.exec` makes the call
with the epoch of the run. What a call returns to the run is not kept: which call comes next
is left open.
-/

namespace Orcastork

/-- What the run is given from outside: its session, the lease duration, the parser of inbox
payloads and the sealing of archived values. -/
structure Services where
  sessionId : SessionId
  ttl : ℕ
  decode : Decoder
  sealer : Sealer

/-- The in-memory adapters of one session, and the clock. -/
structure Backends where
  now : ℕ
  lock : LockState
  store : SessionState
  inbox : InboxState
  durable : DurableStore
  audit : AuditState
  archive : ArchiveState

/-- Backends that were never used. -/
def Backends.initial : Backends where
  now := 0
  lock := .initial
  store := .initial
  inbox := .initial
  durable := .initial
  audit := .initial
  archive := .initial

/-- The guarded writes to the DataPoint store. -/
inductive StoreOp where
  | applyResolved (added updated : List BaseDataPoint)
  | setWatermark (operatorId : OperatorId) (revision : Revision)
  | claimEffect (effectKey : String) (reclaimStale : Bool)
  | commitEffect (effectKey : String)
  | revertEffect (effectKey : String)
  | setSessionDeadline (deadline : Timestamp)
  | setFlowFingerprint (fingerprint : String)

/-- The mutating calls of a run. -/
inductive RunOp where
  | renew
  | release
  | markComplete
  | store (op : StoreOp)
  | consume (maxEntries : Option ℕ)
  | reclaim
  | ack (entryId : ℕ)
  | quarantine (entryId : ℕ) (reason : String)
  | durable (call : DurableStore.Call)
  | markContribution (operatorId : OperatorId)
  | clearContribution (operatorId : OperatorId)
  | appendAudit (entries : List AuditLogEntry)
  | archive (entries : List ArchivedDataPoint)
  | flush

/-- The state an operation leaves: the one it returns, or the old one if it raises. -/
def settle {α : Type} (state : α) : Except OrchestrationError α → α
  | .ok state' => state'
  | .error _ => state

/-- The store after a guarded write. -/
def SessionState.exec (state : SessionState) (epoch : Epoch) : StoreOp → SessionState
  | .applyResolved added updated =>
    settle state ((state.applyResolved added updated epoch).map Prod.snd)
  | .setWatermark operatorId revision =>
    settle state (state.setWatermark operatorId revision epoch)
  | .claimEffect effectKey reclaimStale =>
    settle state ((state.claimEffect effectKey epoch reclaimStale).map Prod.snd)
  | .commitEffect effectKey => settle state (state.commitEffect effectKey epoch)
  | .revertEffect effectKey => settle state (state.revertEffect effectKey epoch)
  | .setSessionDeadline deadline => settle state (state.setSessionDeadline deadline epoch)
  | .setFlowFingerprint fingerprint => settle state (state.setFlowFingerprint fingerprint epoch)

/-- The backends after a call of a run that holds `epoch`. -/
def Backends.exec (services : Services) (backends : Backends) (epoch : Epoch) :
    RunOp → Backends
  | .renew =>
    { backends with
      lock := settle backends.lock
        (backends.lock.renew services.sessionId epoch backends.now services.ttl) }
  | .release => { backends with lock := backends.lock.release epoch }
  | .markComplete =>
    { backends with
      lock := settle backends.lock (backends.lock.markComplete services.sessionId epoch) }
  | .store op => { backends with store := backends.store.exec epoch op }
  | .consume maxEntries =>
    { backends with inbox := (backends.inbox.consume services.decode maxEntries).2 }
  | .reclaim => { backends with inbox := (backends.inbox.reclaim services.decode).2 }
  | .ack entryId =>
    { backends with inbox := settle backends.inbox (backends.inbox.ack entryId epoch) }
  | .quarantine entryId reason =>
    { backends with
      inbox := settle backends.inbox (backends.inbox.quarantine entryId reason epoch) }
  | .durable call => { backends with durable := (backends.durable.perform epoch call).2 }
  | .markContribution operatorId =>
    { backends with
      durable := (backends.durable.markContribution services.sessionId operatorId epoch).2 }
  | .clearContribution operatorId =>
    { backends with
      durable := backends.durable.clearContribution services.sessionId operatorId }
  | .appendAudit entries =>
    { backends with
      audit := (backends.audit.appendMany
        (entries.map (fun entry => { entry with epoch := epoch }))).2 }
  | .archive entries =>
    { backends with
      archive := (ArchiveState.archiveMany services.sealer backends.archive
        (entries.map (fun entry => { entry with epoch := epoch }))).2 }
  | .flush => { backends with archive := backends.archive.flush.2 }

/-! ### Guarded writes to the store -/

/-- A guarded write below the highest accepted epoch changes nothing. -/
theorem SessionState.exec_of_lt {state : SessionState} {epoch : Epoch}
    (h : epoch < state.maxEpoch) (op : StoreOp) :
  state.exec epoch op = state
  := by
  cases op with
  | applyResolved added updated =>
      rw [exec, applyResolved_of_lt h]
      rfl
  | setWatermark operatorId revision =>
      rw [exec, setWatermark, guardEpoch_of_lt h]
      rfl
  | claimEffect effectKey reclaimStale =>
      rw [exec, claimEffect, guardEpoch_of_lt h]
      rfl
  | commitEffect effectKey =>
      rw [exec, commitEffect, guardEpoch_of_lt h]
      rfl
  | revertEffect effectKey =>
      rw [exec, revertEffect, guardEpoch_of_lt h]
      rfl
  | setSessionDeadline deadline =>
      rw [exec, setSessionDeadline, guardEpoch_of_lt h]
      rfl
  | setFlowFingerprint fingerprint =>
      rw [exec, setFlowFingerprint, guardEpoch_of_lt h]
      rfl

/-- A guarded write at or above the highest accepted epoch makes its epoch the highest. -/
theorem SessionState.maxEpoch_exec_of_le {state : SessionState} {epoch : Epoch}
    (h : state.maxEpoch ≤ epoch) (op : StoreOp) :
  (state.exec epoch op).maxEpoch = epoch
  := by
  cases op with
  | applyResolved added updated =>
      cases hbatch : added.isEmpty && updated.isEmpty with
      | true =>
          simp only [Bool.and_eq_true, List.isEmpty_iff] at hbatch
          obtain ⟨rfl, rfl⟩ := hbatch
          rw [exec, applyResolved_nil h]
          rfl
      | false =>
          rw [exec, applyResolved_of_le h hbatch]
          rfl
  | setWatermark operatorId revision =>
      rw [exec, setWatermark, guardEpoch_of_le h]
      rfl
  | claimEffect effectKey reclaimStale =>
      rw [exec, claimEffect, guardEpoch_of_le h]
      simp only [bind, Except.bind, pure, Except.pure]
      split
      · rfl
      · split
        · rfl
        · split
          · rfl
          · split
            · rfl
            · rfl
  | commitEffect effectKey =>
      rw [exec, commitEffect, guardEpoch_of_le h]
      simp only [bind, Except.bind, pure, Except.pure]
      split
      · rfl
      · rfl
  | revertEffect effectKey =>
      rw [exec, revertEffect, guardEpoch_of_le h]
      simp only [bind, Except.bind, pure, Except.pure]
      split
      · rfl
      · rfl
  | setSessionDeadline deadline =>
      rw [exec, setSessionDeadline, guardEpoch_of_le h]
      rfl
  | setFlowFingerprint fingerprint =>
      rw [exec, setFlowFingerprint, guardEpoch_of_le h]
      rfl

/-- No write lowers the highest accepted epoch. -/
theorem SessionState.le_maxEpoch_exec (state : SessionState) (epoch : Epoch) (op : StoreOp) :
  state.maxEpoch ≤ (state.exec epoch op).maxEpoch
  := by
  rcases Nat.lt_or_ge epoch state.maxEpoch with hlt | hle
  · rw [exec_of_lt hlt]
  · rw [maxEpoch_exec_of_le hle]
    exact hle

/-! ### Calls to the lock and the inbox -/

namespace LockState

variable {state : LockState} {epoch : Epoch}

/-- A run whose lease is gone cannot renew it. -/
theorem settle_renew_of_ne (h : ∀ lease ∈ state.lease, lease.epoch ≠ epoch)
    (sessionId : SessionId) (now ttl : ℕ) :
  settle state (state.renew sessionId epoch now ttl) = state
  := by
  rw [renew]
  cases hlease : state.lease with
  | none => rfl
  | some lease =>
      have hne : lease.epoch ≠ epoch := by
        apply h
        rw [hlease]
        rfl
      simp only
      rw [if_pos (Or.inl hne)]
      rfl

/-- A run whose lease is gone releases nothing. -/
theorem release_of_ne (h : ∀ lease ∈ state.lease, lease.epoch ≠ epoch) :
  state.release epoch = state
  := by
  rw [release]
  cases hlease : state.lease with
  | none => rfl
  | some lease =>
      have hne : lease.epoch ≠ epoch := by
        apply h
        rw [hlease]
        rfl
      simp only
      rw [if_neg hne]

/-- A renewed lease keeps its epoch. -/
theorem lease_settle_renew (state : LockState) (sessionId : SessionId) (epoch : Epoch)
    (now ttl : ℕ) :
  (settle state (state.renew sessionId epoch now ttl)).lease.map Lease.epoch
    = state.lease.map Lease.epoch
  := by
  rw [renew]
  cases hlease : state.lease with
  | none =>
      rw [settle, hlease]
  | some lease =>
      simp only
      split
      · rw [settle, hlease]
      · rfl

/-- After a release a lease that is left was there before. -/
theorem lease_release {lease : Lease} (h : lease ∈ (state.release epoch).lease) :
  lease ∈ state.lease
  := by
  rw [release] at h
  split at h
  · split at h
    · cases h
    · exact h
  · exact h

@[simp]
theorem lease_settle_markComplete (state : LockState) (sessionId : SessionId) (epoch : Epoch) :
  (settle state (state.markComplete sessionId epoch)).lease = state.lease
  := by
  rw [markComplete]
  split
  · rfl
  · rfl

@[simp]
theorem epochCounter_settle_renew (state : LockState) (sessionId : SessionId) (epoch : Epoch)
    (now ttl : ℕ) :
  (settle state (state.renew sessionId epoch now ttl)).epochCounter = state.epochCounter
  := by
  rw [renew]
  split
  · split
    · rfl
    · rfl
  · rfl

@[simp]
theorem epochCounter_settle_markComplete (state : LockState) (sessionId : SessionId)
    (epoch : Epoch) :
  (settle state (state.markComplete sessionId epoch)).epochCounter = state.epochCounter
  := by
  rw [markComplete]
  split
  · rfl
  · rfl

/-- A run below the highest minted epoch marks nothing complete. -/
theorem settle_markComplete_of_lt (h : epoch < state.epochCounter) (sessionId : SessionId) :
  settle state (state.markComplete sessionId epoch) = state
  := by
  rw [markComplete, if_pos h]
  rfl

end LockState

namespace InboxState

variable {state : InboxState} {epoch : Epoch}

/-- An ack below the highest accepted epoch changes nothing. -/
theorem settle_ack_of_lt (h : epoch < state.maxEpoch) (entryId : ℕ) :
  settle state (state.ack entryId epoch) = state
  := by
  rw [ack, guardEpoch, if_pos h]
  rfl

/-- A quarantine below the highest accepted epoch changes nothing. -/
theorem settle_quarantine_of_lt (h : epoch < state.maxEpoch) (entryId : ℕ) (reason : String) :
  settle state (state.quarantine entryId reason epoch) = state
  := by
  rw [quarantine, guardEpoch, if_pos h]
  rfl

/-- No ack lowers the highest accepted epoch. -/
theorem le_maxEpoch_ack (state : InboxState) (entryId : ℕ) (epoch : Epoch) :
  state.maxEpoch ≤ (settle state (state.ack entryId epoch)).maxEpoch
  := by
  rcases Nat.lt_or_ge epoch state.maxEpoch with hlt | hle
  · rw [settle_ack_of_lt hlt]
  · rw [ack, guardEpoch, if_neg (Nat.not_lt.mpr hle)]
    simp only [bind, Except.bind, pure, Except.pure]
    split
    · exact hle
    · exact hle

/-- No quarantine lowers the highest accepted epoch. -/
theorem le_maxEpoch_quarantine (state : InboxState) (entryId : ℕ) (reason : String)
    (epoch : Epoch) :
  state.maxEpoch ≤ (settle state (state.quarantine entryId reason epoch)).maxEpoch
  := by
  rcases Nat.lt_or_ge epoch state.maxEpoch with hlt | hle
  · rw [settle_quarantine_of_lt hlt]
  · rw [quarantine, guardEpoch, if_neg (Nat.not_lt.mpr hle)]
    simp only [bind, Except.bind, pure, Except.pure]
    split
    · exact hle
    · exact hle

/-- A delivery from the inbox leaves the messages as they were, or not the inbox. -/
theorem consume_eq_iff {decode : Decoder} {maxEntries : Option ℕ} :
  (state.consume decode maxEntries).2 = state
    ↔ maxEntries = some 0 ∨ ∀ message ∈ state.messages, message.claimed = true
  := by
  rw [← @consumeLoop_eq_iff decode]
  constructor
  · intro h
    apply congrArg InboxState.messages h
  · intro h
    rw [consume]
    simp only
    rw [h]

theorem reclaim_eq_iff {decode : Decoder} :
  (state.reclaim decode).2 = state ↔ ∀ message ∈ state.messages, message.claimed = false
  := by
  rw [← @reclaimLoop_eq_iff decode]
  constructor
  · intro h
    apply congrArg InboxState.messages h
  · intro h
    rw [reclaim]
    simp only
    rw [h]

end InboxState

end Orcastork
