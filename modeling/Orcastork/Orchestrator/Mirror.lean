import Orcastork.Adapters.Memory.Store

/-!
# The session state mirror

`SessionStateMirror` is the orchestrator's local copy of one session. It is rehydrated from
the store once; from then on it answers every read itself, resolves every keyed merge
itself, and forwards the resolved batch to the store, which allocates the revision.

A mirror method that touches the store takes the session's store state and returns it with
its result. A method that raises returns the error next to the mirror and the state it
leaves behind.
-/

namespace Orcastork

/-- One identity of the mirror. A stamp of `0` lies at or before the rehydration. -/
structure MirrorEntry where
  dataPoint : BaseDataPoint
  addedRev : Revision
  updatedRev : Revision

/-- The entries of a mirror, in the order of their identities. -/
abbrev MirrorEntries := Dict IdentityKey MirrorEntry

/-- A batch merged against the local state, before the store has applied it. -/
structure Resolution where
  /-- One outcome for each presented DataPoint, in order. -/
  outcomes : List MergeResult
  /-- The identities new to the session, with their final values. -/
  added : Dict IdentityKey BaseDataPoint
  /-- The known identities that were freshened, with their merged values. -/
  updated : Dict IdentityKey BaseDataPoint

/-- What a write through the mirror returns. -/
structure MirrorWriteResult where
  revision : Revision
  outcomes : List MergeResult

/-- The orchestrator's local copy of one session. -/
structure SessionStateMirror where
  sessionId : SessionId
  entries : MirrorEntries
  /-- The primed change splits, by the revision they are relative to. -/
  baselines : Dict Revision (Dict IdentityKey MergeKind)
  revision : Revision
  rehydratedAt : Revision
  hydrated : Bool

namespace SessionStateMirror

/-- A mirror that holds nothing yet. -/
def initial (sessionId : SessionId) : SessionStateMirror where
  sessionId := sessionId
  entries := .empty
  baselines := .empty
  revision := 0
  rehydratedAt := 0
  hydrated := false

/-- `rehydrate`: the local copy loaded from the store. -/
def rehydrate (mirror : SessionStateMirror) (store : SessionState) : SessionStateMirror where
  sessionId := mirror.sessionId
  entries := Dict.empty.update (store.snapshot.map (fun dp => (identityKey dp, ⟨dp, 0, 0⟩)))
  baselines := .empty
  revision := store.revision
  rehydratedAt := store.revision
  hydrated := true

/-- `_require_hydrated`. -/
def requireHydrated (mirror : SessionStateMirror) : Except OrchestrationError Unit :=
  if mirror.hydrated then
    .ok ()
  else
    .error (.stateMirror "the session mirror was used before rehydrate()")

/-- `_guard_read`: the mirror answers for its own session only. -/
def guardRead (mirror : SessionStateMirror) (sessionId : SessionId) :
    Except OrchestrationError Unit := do
  mirror.requireHydrated
  if sessionId ≠ mirror.sessionId then
    throw (.stateMirror
      s!"mirror for session '{mirror.sessionId}' asked about session '{sessionId}'")

/-- The change split of a change set, by identity. -/
def baselineOf (change : ChangeSet) : Dict IdentityKey MergeKind :=
  (Dict.empty.update (change.added.map (fun dp => (identityKey dp, .added)))).update
    (change.updated.map (fun dp => (identityKey dp, .updated)))

/-- `prime_change_baseline`: the store's change split for one revision before the
rehydration, read once. -/
def primeChangeBaseline (mirror : SessionStateMirror) (store : SessionState)
    (since : Revision) : Except OrchestrationError SessionStateMirror := do
  mirror.requireHydrated
  if mirror.rehydratedAt ≤ since ∨ since ∈ mirror.baselines.keys then
    return mirror
  return { mirror with
    baselines := mirror.baselines.set since (baselineOf (store.changeSetSince since)) }

/-! ### Reads -/

/-- `snapshot`. -/
def snapshot (mirror : SessionStateMirror) (sessionId : SessionId) :
    Except OrchestrationError DataPointView := do
  mirror.guardRead sessionId
  return mirror.entries.values.map MirrorEntry.dataPoint

/-- `revision`. -/
def getRevision (mirror : SessionStateMirror) (sessionId : SessionId) :
    Except OrchestrationError Revision := do
  mirror.guardRead sessionId
  return mirror.revision

/-- `_local_change_set`: the change set by the local stamps alone. -/
def localChangeSet (mirror : SessionStateMirror) (since : Revision) : ChangeSet where
  added := (mirror.entries.values.filter (fun e => e.addedRev > since)).map
    MirrorEntry.dataPoint
  updated :=
    (mirror.entries.values.filter
      (fun e => e.addedRev ≤ since ∧ since < e.updatedRev)).map MirrorEntry.dataPoint

/-- Whether an item counts as added since `since`: by its local stamp, or by the baseline. -/
def isAdded (baseline : Dict IdentityKey MergeKind) (since : Revision)
    (item : IdentityKey × MirrorEntry) : Bool :=
  item.2.addedRev > since ∨ baseline.get? item.1 = some .added

/-- Whether an item that is not added counts as updated since `since`. -/
def isUpdated (baseline : Dict IdentityKey MergeKind) (since : Revision)
    (item : IdentityKey × MirrorEntry) : Bool :=
  baseline.get? item.1 = some .updated ∨ item.2.updatedRev > since

/-- `_baselined_change_set`: the local stamps laid over a primed baseline. -/
def baselinedChangeSet (mirror : SessionStateMirror) (since : Revision) :
    Except OrchestrationError ChangeSet :=
  match mirror.baselines.get? since with
  | none =>
    .error (.stateMirror
      (s!"no primed change baseline for pre-rehydration revision {since}" ++
        s!" (mirror rehydrated at revision {mirror.rehydratedAt})"))
  | some baseline =>
    .ok
      { added := (mirror.entries.items.filter (isAdded baseline since)).map
          (fun item => item.2.dataPoint)
        updated := (mirror.entries.items.filter
          (fun item => !isAdded baseline since item && isUpdated baseline since item)).map
          (fun item => item.2.dataPoint) }

/-- `change_set_since`. -/
def changeSetSince (mirror : SessionStateMirror) (sessionId : SessionId) (since : Revision) :
    Except OrchestrationError ChangeSet := do
  mirror.guardRead sessionId
  if mirror.rehydratedAt ≤ since then
    return mirror.localChangeSet since
  mirror.baselinedChangeSet since

/-! ### Writes -/

/-- One DataPoint resolved against the entries and what the batch has resolved so far. -/
def resolveOne (entries : MirrorEntries) (resolution : Resolution)
    (dataPoint : BaseDataPoint) : Resolution :=
  let key := identityKey dataPoint
  match resolution.added.get? key with
  | some known =>
    let merged := known.reobserved dataPoint.lastRetrieved
    { resolution with
      outcomes := resolution.outcomes ++ [⟨.updated, merged⟩]
      added := resolution.added.set key merged }
  | none =>
    match resolution.updated.get? key with
    | some known =>
      let merged := known.reobserved dataPoint.lastRetrieved
      { resolution with
        outcomes := resolution.outcomes ++ [⟨.updated, merged⟩]
        updated := resolution.updated.set key merged }
    | none =>
      match entries.get? key with
      | none =>
        { resolution with
          outcomes := resolution.outcomes ++ [⟨.added, dataPoint⟩]
          added := resolution.added.set key dataPoint }
      | some existing =>
        let merged := existing.dataPoint.reobserved dataPoint.lastRetrieved
        { resolution with
          outcomes := resolution.outcomes ++ [⟨.updated, merged⟩]
          updated :=
            if dataPoint.lastRetrieved > existing.dataPoint.lastRetrieved then
              resolution.updated.set key merged
            else
              resolution.updated }

/-- `_resolve`: the keyed merge of a batch over the local state. -/
def resolve (entries : MirrorEntries) (dataPoints : List BaseDataPoint) : Resolution :=
  dataPoints.foldl (resolveOne entries) ⟨[], .empty, .empty⟩

/-- A new identity stored with both stamps at `revision`. -/
def applyAdded (revision : Revision) (entries : MirrorEntries)
    (item : IdentityKey × BaseDataPoint) : MirrorEntries :=
  entries.set item.1 ⟨item.2, revision, revision⟩

/-- A known identity overwritten, its updated stamp advanced. The source looks the identity
up without a default; a resolution never lists an absent one (`Resolves.updated_known`). -/
def applyUpdated (revision : Revision) (entries : MirrorEntries)
    (item : IdentityKey × BaseDataPoint) : MirrorEntries :=
  match entries.get? item.1 with
  | none => entries
  | some entry =>
    entries.set item.1 { entry with dataPoint := item.2, updatedRev := revision }

/-- `_apply`: a resolution applied at the revision the store returned. -/
def apply (mirror : SessionStateMirror) (resolution : Resolution) (revision : Revision) :
    SessionStateMirror :=
  let entries := resolution.added.items.foldl (applyAdded revision) mirror.entries
  let entries := resolution.updated.items.foldl (applyUpdated revision) entries
  { mirror with entries := entries, revision := revision }

/-- `write`: the batch merged locally, forwarded, and applied at the revision the store
returned. Also a batch that changes nothing is forwarded. -/
def write (mirror : SessionStateMirror) (store : SessionState)
    (dataPoints : List BaseDataPoint) (epoch : Epoch) :
    Except OrchestrationError MirrorWriteResult × SessionStateMirror × SessionState :=
  match mirror.requireHydrated with
  | .error error => (.error error, mirror, store)
  | .ok () =>
    let resolution := resolve mirror.entries dataPoints
    match store.applyResolved resolution.added.values resolution.updated.values epoch with
    | .error error => (.error error, mirror, store)
    | .ok (revision, store) =>
      (.ok ⟨revision, resolution.outcomes⟩, mirror.apply resolution revision, store)

end SessionStateMirror

end Orcastork
