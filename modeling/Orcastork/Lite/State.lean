import Orcastork.Flow.Definition

/-!
# The session state of the lite orchestrator

`SessionState` of `orcastork_lite`: the DataPoints of a session by their identities, each with the
revisions it was added at and last freshened at, and what the last run of each operator observed. A
value is given by its normalized form, the part of the identity beside the class.
-/

namespace Orcastork

namespace Lite

/-- `DataPoint`. -/
structure DataPoint (P V : Type) where
  type : P
  value : V
  retrievedBy : OperatorId
  firstRetrieved : Timestamp
  lastRetrieved : Timestamp

namespace DataPoint

variable {P V : Type} (dataPoint : DataPoint P V)

/-- `identity_key`. -/
def identityKey : P × V := (dataPoint.type, dataPoint.value)

/-- `reobserved`. -/
def reobserved (at' : Timestamp) : DataPoint P V :=
  { dataPoint with lastRetrieved := max dataPoint.lastRetrieved at' }

end DataPoint

/-- `_Entry`. -/
structure Entry (P V : Type) where
  dataPoint : DataPoint P V
  addedRev : Revision
  updatedRev : Revision

/-- `InvocationDelta`. -/
structure InvocationDelta (P V : Type) where
  added : List (DataPoint P V)
  updated : List (DataPoint P V)
  newlyAvailableCaps : Finset CapabilityId
  isFirstInvocation : Bool

/-- `SessionState`. -/
structure SessionState (P V : Type) where
  entries : Dict (P × V) (Entry P V)
  revision : Revision
  watermarks : Dict OperatorId Revision

namespace SessionState

variable {P V : Type}

/-- The state of a new session. -/
def initial : SessionState P V := ⟨.empty, 0, .empty⟩

variable (state : SessionState P V)

/-- `view`. -/
def view : List (DataPoint P V) := state.entries.values.map Entry.dataPoint

/-- `has_run`. -/
def hasRun (operatorId : OperatorId) : Bool := (state.watermarks.get? operatorId).isSome

/-- `advance_watermark`. -/
def advanceWatermark (operatorId : OperatorId) (revision : Revision) : SessionState P V :=
  { state with watermarks := state.watermarks.set operatorId revision }

/-- `delta_for`. -/
def deltaFor (operatorId : OperatorId) (previousCaps availableCaps : Finset CapabilityId) :
    InvocationDelta P V :=
  let newlyAvailable := availableCaps \ previousCaps
  let entries := state.entries.values
  match state.watermarks.get? operatorId with
  | none => ⟨entries.map Entry.dataPoint, [], newlyAvailable, true⟩
  | some watermark =>
    ⟨(entries.filter (fun entry => watermark < entry.addedRev)).map Entry.dataPoint,
      (entries.filter (fun entry =>
        entry.addedRev ≤ watermark ∧ watermark < entry.updatedRev)).map Entry.dataPoint,
      newlyAvailable, false⟩

variable [DecidableEq P] [DecidableEq V]

/-- One turn of the loop of `merge`: the entries, and whether something was added or freshened. -/
def mergeOne (nextRevision : Revision) (merged : Dict (P × V) (Entry P V) × Bool)
    (dataPoint : DataPoint P V) : Dict (P × V) (Entry P V) × Bool :=
  let key := dataPoint.identityKey
  match merged.1.get? key with
  | none => (merged.1.set key ⟨dataPoint, nextRevision, nextRevision⟩, true)
  | some existing =>
    if existing.dataPoint.lastRetrieved < dataPoint.lastRetrieved then
      (merged.1.set key { existing with
        dataPoint := existing.dataPoint.reobserved dataPoint.lastRetrieved
        updatedRev := nextRevision }, true)
    else merged

/-- `merge`: the revision advances if something was added or freshened. -/
def merge (dataPoints : List (DataPoint P V)) : SessionState P V :=
  let nextRevision := state.revision + 1
  let (entries, changed) := dataPoints.foldl (mergeOne nextRevision) (state.entries, false)
  { state with
    entries := entries
    revision := if changed then nextRevision else state.revision }

end SessionState

end Lite

end Orcastork
