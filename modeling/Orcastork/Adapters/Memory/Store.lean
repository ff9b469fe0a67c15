import Orcastork.DataPoints.Base
import Orcastork.Library.Dict

/-!
# The in-memory DataPoint store

`InMemoryDataPointStore` keeps one `SessionState` for every session, and each operation
reads and writes the state of the session it is called for, so the operations are given on
that state. An operation that raises returns an error, and the state stays as it was.

Each identity carries the revisions at which it was first added and last freshened. Two
operations merge DataPoints in: `write` reads, merges and stamps one DataPoint after
another; `applyResolved` applies a batch whose merge the caller has already resolved.
-/

namespace Orcastork

/-- One identity of the store, with its two stamps. -/
structure Entry where
  dataPoint : BaseDataPoint
  addedRev : Revision
  updatedRev : Revision

/-- The entries of a session, in the order their identities were first stored. -/
abbrev Entries := Dict IdentityKey Entry

/-- A read-only view: the DataPoints, in order. -/
abbrev DataPointView := List BaseDataPoint

/-- The stored state of an external effect: claimed by an epoch, or done. -/
inductive EffectState where
  | pending (epoch : Epoch)
  | committed
  deriving DecidableEq, Repr

/-- The outcome of `claim_effect`. -/
inductive EffectClaim where
  | acquired
  | alreadyCommitted
  | pendingSameEpoch
  | pendingStaleEpoch
  deriving DecidableEq, Repr

/-- What the store keeps for one session. -/
structure SessionState where
  entries : Entries
  revision : Revision
  /-- The highest epoch a guarded write was accepted with. -/
  maxEpoch : Epoch
  watermarks : Dict OperatorId Revision
  effects : Dict String EffectState
  deadline : Option Timestamp
  flowFingerprint : Option String

namespace SessionState

/-- The state of a session nothing was written to. -/
def initial : SessionState where
  entries := .empty
  revision := 0
  maxEpoch := 0
  watermarks := .empty
  effects := .empty
  deadline := none
  flowFingerprint := none

/-! ### Fencing -/

/-- `_guard_epoch`: an epoch below the highest accepted one is rejected, any other becomes
the highest. -/
def guardEpoch (state : SessionState) (epoch : Epoch) :
    Except OrchestrationError SessionState :=
  if epoch < state.maxEpoch then
    .error (.staleEpoch s!"epoch {epoch} is stale (current {state.maxEpoch})")
  else
    .ok { state with maxEpoch := epoch }

/-! ### The keyed merge -/

/-- One DataPoint merged into the entries: a new identity is stored with both stamps at
`nextRevision`, a known one is freshened if the observation is newer. The flag records that
something changed. -/
def mergeOne (nextRevision : Revision) :
    Entries × Bool → BaseDataPoint → Entries × Bool
  | (entries, changed), dataPoint =>
    match entries.get? (identityKey dataPoint) with
    | none =>
      (entries.set (identityKey dataPoint) ⟨dataPoint, nextRevision, nextRevision⟩, true)
    | some existing =>
      if dataPoint.lastRetrieved > existing.dataPoint.lastRetrieved then
        (entries.set (identityKey dataPoint)
          { existing with
            dataPoint := existing.dataPoint.reobserved dataPoint.lastRetrieved
            updatedRev := nextRevision },
          true)
      else
        (entries, changed)

/-- `write`: the keyed merge of a batch. The revision advances once, if anything changed. -/
def write (state : SessionState) (dataPoints : List BaseDataPoint) (epoch : Epoch) :
    Except OrchestrationError (Revision × SessionState) := do
  let state ← state.guardEpoch epoch
  let nextRevision := state.revision + 1
  let (entries, changed) := dataPoints.foldl (mergeOne nextRevision) (state.entries, false)
  let revision := if changed then nextRevision else state.revision
  return (revision, { state with entries := entries, revision := revision })

/-- A new identity stored with both stamps at `nextRevision`. -/
def applyAdded (nextRevision : Revision) (entries : Entries) (dataPoint : BaseDataPoint) :
    Entries :=
  entries.set (identityKey dataPoint) ⟨dataPoint, nextRevision, nextRevision⟩

/-- A merged identity overwritten: only its updated stamp advances. An identity that was
not there carries no added stamp. -/
def applyUpdated (nextRevision : Revision) (entries : Entries) (dataPoint : BaseDataPoint) :
    Entries :=
  let addedRev :=
    match entries.get? (identityKey dataPoint) with
    | none => 0
    | some existing => existing.addedRev
  entries.set (identityKey dataPoint) ⟨dataPoint, addedRev, nextRevision⟩

/-- `apply_resolved`: a batch whose merge the caller resolved, applied blindly. -/
def applyResolved (state : SessionState) (added updated : List BaseDataPoint)
    (epoch : Epoch) : Except OrchestrationError (Revision × SessionState) := do
  let state ← state.guardEpoch epoch
  if added.isEmpty && updated.isEmpty then
    return (state.revision, state)
  let nextRevision := state.revision + 1
  let entries := added.foldl (applyAdded nextRevision) state.entries
  let entries := updated.foldl (applyUpdated nextRevision) entries
  return (nextRevision, { state with entries := entries, revision := nextRevision })

/-! ### Reads -/

/-- `snapshot`: every DataPoint of the session. -/
def snapshot (state : SessionState) : DataPointView :=
  state.entries.values.map Entry.dataPoint

/-- `change_set_since`: the identities added after a revision, and the older ones freshened
after it. -/
def changeSetSince (state : SessionState) (since : Revision) : ChangeSet where
  added := (state.entries.values.filter (fun e => e.addedRev > since)).map Entry.dataPoint
  updated :=
    (state.entries.values.filter
      (fun e => e.addedRev ≤ since ∧ since < e.updatedRev)).map Entry.dataPoint

/-- `get_watermark`. -/
def getWatermark (state : SessionState) (operatorId : OperatorId) : Option Revision :=
  state.watermarks.get? operatorId

/-- `get_effect_state`. -/
def getEffectState (state : SessionState) (effectKey : String) : Option EffectState :=
  state.effects.get? effectKey

/-! ### The other guarded writes -/

/-- `set_watermark`. -/
def setWatermark (state : SessionState) (operatorId : OperatorId) (revision : Revision)
    (epoch : Epoch) : Except OrchestrationError SessionState := do
  let state ← state.guardEpoch epoch
  return { state with watermarks := state.watermarks.set operatorId revision }

/-- `claim_effect`: an unclaimed effect becomes this epoch's; a claim another epoch left
pending is taken over only if `reclaimStale`. -/
def claimEffect (state : SessionState) (effectKey : String) (epoch : Epoch)
    (reclaimStale : Bool) : Except OrchestrationError (EffectClaim × SessionState) := do
  let state ← state.guardEpoch epoch
  let claimed := { state with effects := state.effects.set effectKey (.pending epoch) }
  match state.effects.get? effectKey with
  | none => return (.acquired, claimed)
  | some stored =>
    if stored = .committed then
      return (.alreadyCommitted, state)
    if stored = .pending epoch then
      return (.pendingSameEpoch, state)
    if reclaimStale then
      return (.acquired, claimed)
    return (.pendingStaleEpoch, state)

/-- `commit_effect`: only this epoch's own pending claim becomes committed. -/
def commitEffect (state : SessionState) (effectKey : String) (epoch : Epoch) :
    Except OrchestrationError SessionState := do
  let state ← state.guardEpoch epoch
  let stored := state.effects.get? effectKey
  if stored = some (.pending epoch) ∨ stored = some .committed then
    return { state with effects := state.effects.set effectKey .committed }
  return state

/-- `revert_effect`: only this epoch's own pending claim is removed. -/
def revertEffect (state : SessionState) (effectKey : String) (epoch : Epoch) :
    Except OrchestrationError SessionState := do
  let state ← state.guardEpoch epoch
  if state.effects.get? effectKey = some (.pending epoch) then
    return { state with effects := state.effects.erase effectKey }
  return state

/-- `set_session_deadline`. -/
def setSessionDeadline (state : SessionState) (deadline : Timestamp) (epoch : Epoch) :
    Except OrchestrationError SessionState := do
  let state ← state.guardEpoch epoch
  return { state with deadline := some deadline }

/-- `set_flow_fingerprint`. -/
def setFlowFingerprint (state : SessionState) (fingerprint : String) (epoch : Epoch) :
    Except OrchestrationError SessionState := do
  let state ← state.guardEpoch epoch
  return { state with flowFingerprint := some fingerprint }

/-! ### Fenced writes -/

/-- The guard accepts an epoch that is not below the highest accepted one. -/
theorem guardEpoch_of_le {state : SessionState} {epoch : Epoch} (h : state.maxEpoch ≤ epoch) :
  state.guardEpoch epoch = .ok { state with maxEpoch := epoch }
  := by
  rw [guardEpoch, if_neg (Nat.not_lt.mpr h)]

/-- The guard rejects an epoch below the highest accepted one, naming both. -/
theorem guardEpoch_of_lt {state : SessionState} {epoch : Epoch} (h : epoch < state.maxEpoch) :
  state.guardEpoch epoch
    = .error (.staleEpoch s!"epoch {epoch} is stale (current {state.maxEpoch})")
  := by
  rw [guardEpoch, if_pos h]

/-! ### Well-formed states -/

end SessionState

/-- Entries lie at the identity of their DataPoint, and their stamps are ordered and not
past `bound`. -/
structure Entries.WellFormed (entries : Entries) (bound : Revision) : Prop where
  keyed : ∀ {key entry}, entries.get? key = some entry → identityKey entry.dataPoint = key
  added_le : ∀ {key entry}, entries.get? key = some entry → entry.addedRev ≤ entry.updatedRev
  updated_le : ∀ {key entry}, entries.get? key = some entry → entry.updatedRev ≤ bound

namespace Entries.WellFormed

theorem empty (bound : Revision) :
  Entries.WellFormed .empty bound
  := by
  constructor
  · intro key entry h
    simp at h
  · intro key entry h
    simp at h
  · intro key entry h
    simp at h

theorem mono {entries : Entries} {bound bound' : Revision} (h : entries.WellFormed bound)
    (hle : bound ≤ bound') :
  entries.WellFormed bound'
  := ⟨h.keyed, h.added_le, fun he => le_trans (h.updated_le he) hle⟩

/-- Storing an entry at its own identity with stamps in order keeps entries well formed. -/
theorem set {entries : Entries} {bound : Revision} (h : entries.WellFormed bound)
    (entry : Entry) (hadded : entry.addedRev ≤ entry.updatedRev)
    (hupdated : entry.updatedRev ≤ bound) :
  Entries.WellFormed (Dict.set entries (identityKey entry.dataPoint) entry) bound
  := by
  constructor
  · intro key e he
    rw [Dict.get?_set] at he
    split at he
    · cases he
      assumption
    · exact h.keyed he
  · intro key e he
    rw [Dict.get?_set] at he
    split at he
    · cases he
      exact hadded
    · exact h.added_le he
  · intro key e he
    rw [Dict.get?_set] at he
    split at he
    · cases he
      exact hupdated
    · exact h.updated_le he

/-- A loop whose every step keeps entries well formed keeps them so. -/
theorem foldl {step : Entries → BaseDataPoint → Entries} {bound : Revision}
    (hstep : ∀ entries dataPoint, entries.WellFormed bound →
      (step entries dataPoint).WellFormed bound)
    (dataPoints : List BaseDataPoint) {entries : Entries} (h : entries.WellFormed bound) :
  (dataPoints.foldl step entries).WellFormed bound
  := by
  induction dataPoints generalizing entries with
  | nil => exact h
  | cons dataPoint dataPoints ih =>
      apply ih
      apply hstep
      exact h

end Entries.WellFormed

namespace SessionState

/-- A session's entries are well formed up to its revision. -/
def WellFormed (state : SessionState) : Prop :=
  state.entries.WellFormed state.revision

theorem initial_wellFormed :
  initial.WellFormed
  := Entries.WellFormed.empty 0

/-- Merging a new identity stores it. -/
theorem mergeOne_new {n : Revision} {entries : Entries} {changed : Bool}
    {dataPoint : BaseDataPoint} (h : entries.get? (identityKey dataPoint) = none) :
  mergeOne n (entries, changed) dataPoint
    = (entries.set (identityKey dataPoint) ⟨dataPoint, n, n⟩, true)
  := by
  simp only [mergeOne, h]

/-- Merging a newer observation of a known identity freshens it. -/
theorem mergeOne_newer {n : Revision} {entries : Entries} {changed : Bool}
    {dataPoint : BaseDataPoint} {existing : Entry}
    (h : entries.get? (identityKey dataPoint) = some existing)
    (hnew : existing.dataPoint.lastRetrieved < dataPoint.lastRetrieved) :
  mergeOne n (entries, changed) dataPoint
    = (entries.set (identityKey dataPoint)
        ⟨existing.dataPoint.reobserved dataPoint.lastRetrieved, existing.addedRev, n⟩, true)
  := by
  simp only [mergeOne, h, gt_iff_lt, hnew, if_true]

/-- Merging an observation of a known identity that is not newer changes nothing. -/
theorem mergeOne_not_newer {n : Revision} {entries : Entries} {changed : Bool}
    {dataPoint : BaseDataPoint} {existing : Entry}
    (h : entries.get? (identityKey dataPoint) = some existing)
    (hold : dataPoint.lastRetrieved ≤ existing.dataPoint.lastRetrieved) :
  mergeOne n (entries, changed) dataPoint = (entries, changed)
  := by
  simp only [mergeOne, h, gt_iff_lt, not_lt.mpr hold, if_false]

/-- A merge that leaves the flag down changed nothing. -/
theorem mergeOne_unchanged {n : Revision} {acc : Entries × Bool} {dataPoint : BaseDataPoint}
    (h : (mergeOne n acc dataPoint).2 = false) :
  mergeOne n acc dataPoint = acc
  := by
  obtain ⟨entries, changed⟩ := acc
  cases hget : entries.get? (identityKey dataPoint) with
  | none => simp [mergeOne_new hget] at h
  | some existing =>
      rcases lt_or_ge existing.dataPoint.lastRetrieved dataPoint.lastRetrieved with hlt | hle
      · simp [mergeOne_newer hget hlt] at h
      · exact mergeOne_not_newer hget hle

/-- A batch that leaves the flag down changed nothing. -/
theorem foldl_mergeOne_unchanged {n : Revision} {dataPoints : List BaseDataPoint}
    {acc : Entries × Bool} (h : (dataPoints.foldl (mergeOne n) acc).2 = false) :
  dataPoints.foldl (mergeOne n) acc = acc
  := by
  induction dataPoints generalizing acc with
  | nil => rfl
  | cons dataPoint dataPoints ih =>
      have hrest := ih h
      rw [List.foldl_cons, hrest]
      apply mergeOne_unchanged
      rw [← hrest]
      exact h

theorem mergeOne_wellFormed {n : Revision} {entries : Entries} {changed : Bool}
    (h : entries.WellFormed n) (dataPoint : BaseDataPoint) :
  (mergeOne n (entries, changed) dataPoint).1.WellFormed n
  := by
  cases hget : entries.get? (identityKey dataPoint) with
  | none =>
      rw [mergeOne_new hget]
      exact h.set ⟨dataPoint, n, n⟩ (le_refl n) (le_refl n)
  | some existing =>
      rcases lt_or_ge existing.dataPoint.lastRetrieved dataPoint.lastRetrieved with hlt | hle
      · rw [mergeOne_newer hget hlt, ← h.keyed hget]
        apply h.set ⟨existing.dataPoint.reobserved dataPoint.lastRetrieved, existing.addedRev, n⟩
        · exact (h.added_le hget).trans (h.updated_le hget)
        · exact le_refl n
      · rw [mergeOne_not_newer hget hle]
        exact h

theorem applyAdded_wellFormed {n : Revision} {entries : Entries} (h : entries.WellFormed n)
    (dataPoint : BaseDataPoint) :
  (applyAdded n entries dataPoint).WellFormed n
  := h.set ⟨dataPoint, n, n⟩ (le_refl n) (le_refl n)

theorem applyUpdated_wellFormed {n : Revision} {entries : Entries} (h : entries.WellFormed n)
    (dataPoint : BaseDataPoint) :
  (applyUpdated n entries dataPoint).WellFormed n
  := by
  unfold applyUpdated
  cases hget : entries.get? (identityKey dataPoint) with
  | none => exact h.set ⟨dataPoint, 0, n⟩ (Nat.zero_le n) (le_refl n)
  | some existing =>
      apply h.set ⟨dataPoint, existing.addedRev, n⟩
      · exact (h.added_le hget).trans (h.updated_le hget)
      · exact le_refl n

theorem foldl_mergeOne_wellFormed {n : Revision} (dataPoints : List BaseDataPoint)
    {entries : Entries} (changed : Bool) (h : entries.WellFormed n) :
  (dataPoints.foldl (mergeOne n) (entries, changed)).1.WellFormed n
  := by
  induction dataPoints generalizing entries changed with
  | nil => exact h
  | cons dataPoint dataPoints ih =>
      apply ih
      apply mergeOne_wellFormed h

/-- A write with an epoch below the highest accepted one is rejected. -/
theorem write_of_lt {state : SessionState} {epoch : Epoch} (h : epoch < state.maxEpoch)
    (dataPoints : List BaseDataPoint) :
  state.write dataPoints epoch
    = .error (.staleEpoch s!"epoch {epoch} is stale (current {state.maxEpoch})")
  := by
  rw [write, guardEpoch_of_lt h]
  rfl

/-- An accepted write merges the DataPoints one after another, stamping what changes with
the next revision, and takes that revision if anything changed. -/
theorem write_of_le {state : SessionState} {epoch : Epoch} (h : state.maxEpoch ≤ epoch)
    {dataPoints : List BaseDataPoint} {entries : Entries} {changed : Bool}
    (hmerge :
      dataPoints.foldl (mergeOne (state.revision + 1)) (state.entries, false)
        = (entries, changed)) :
  state.write dataPoints epoch
    = .ok (if changed then state.revision + 1 else state.revision,
        { state with
          entries := entries
          revision := if changed then state.revision + 1 else state.revision
          maxEpoch := epoch })
  := by
  rw [write, guardEpoch_of_le h]
  simp only [bind, Except.bind, pure, Except.pure, hmerge]

/-- A resolved batch with an epoch below the highest accepted one is rejected. -/
theorem applyResolved_of_lt {state : SessionState} {epoch : Epoch} (h : epoch < state.maxEpoch)
    (added updated : List BaseDataPoint) :
  state.applyResolved added updated epoch
    = .error (.staleEpoch s!"epoch {epoch} is stale (current {state.maxEpoch})")
  := by
  rw [applyResolved, guardEpoch_of_lt h]
  rfl

/-- An accepted batch with nothing in it only records the epoch. -/
theorem applyResolved_nil {state : SessionState} {epoch : Epoch} (h : state.maxEpoch ≤ epoch) :
  state.applyResolved [] [] epoch = .ok (state.revision, { state with maxEpoch := epoch })
  := by
  rw [applyResolved, guardEpoch_of_le h]
  rfl

/-- An accepted batch stores the added DataPoints, then the updated ones, at the next
revision. -/
theorem applyResolved_of_le {state : SessionState} {epoch : Epoch} (h : state.maxEpoch ≤ epoch)
    {added updated : List BaseDataPoint} (hbatch : (added.isEmpty && updated.isEmpty) = false) :
  state.applyResolved added updated epoch
    = .ok (state.revision + 1,
        { state with
          entries :=
            updated.foldl (applyUpdated (state.revision + 1))
              (added.foldl (applyAdded (state.revision + 1)) state.entries)
          revision := state.revision + 1
          maxEpoch := epoch })
  := by
  rw [applyResolved, guardEpoch_of_le h]
  simp only [bind, Except.bind, pure, Except.pure, hbatch, Bool.false_eq_true, if_false]

/-- A write keeps the state well formed. -/
theorem write_wellFormed {state state' : SessionState} (h : state.WellFormed)
    {dataPoints : List BaseDataPoint} {epoch : Epoch} {revision : Revision}
    (hwrite : state.write dataPoints epoch = .ok (revision, state')) :
  state'.WellFormed
  := by
  rcases Nat.lt_or_ge epoch state.maxEpoch with hlt | hle
  · rw [write_of_lt hlt] at hwrite
    cases hwrite
  · cases hmerge : dataPoints.foldl (mergeOne (state.revision + 1)) (state.entries, false) with
    | mk entries changed =>
        rw [write_of_le hle hmerge] at hwrite
        cases hwrite
        cases changed with
        | false =>
            have hsame := foldl_mergeOne_unchanged (congrArg Prod.snd hmerge)
            rw [hmerge, Prod.mk.injEq] at hsame
            rw [WellFormed, hsame.1]
            exact h
        | true =>
            have hentries := foldl_mergeOne_wellFormed dataPoints false
              (Entries.WellFormed.mono h (Nat.le_succ state.revision))
            rw [hmerge] at hentries
            exact hentries

/-- A batch applied blindly keeps the state well formed. -/
theorem applyResolved_wellFormed {state state' : SessionState} (h : state.WellFormed)
    {added updated : List BaseDataPoint} {epoch : Epoch} {revision : Revision}
    (happly : state.applyResolved added updated epoch = .ok (revision, state')) :
  state'.WellFormed
  := by
  rcases Nat.lt_or_ge epoch state.maxEpoch with hlt | hle
  · rw [applyResolved_of_lt hlt] at happly
    cases happly
  · cases hbatch : added.isEmpty && updated.isEmpty with
    | true =>
        simp only [Bool.and_eq_true, List.isEmpty_iff] at hbatch
        obtain ⟨rfl, rfl⟩ := hbatch
        rw [applyResolved_nil hle] at happly
        cases happly
        exact h
    | false =>
        rw [applyResolved_of_le hle hbatch] at happly
        cases happly
        apply Entries.WellFormed.foldl (fun _ dataPoint h => applyUpdated_wellFormed h dataPoint)
        apply Entries.WellFormed.foldl (fun _ dataPoint h => applyAdded_wellFormed h dataPoint)
        exact h.mono (Nat.le_succ state.revision)

end SessionState

/-- A well-formed state of one session of the store. -/
abbrev StoreState := { state : SessionState // state.WellFormed }

end Orcastork
