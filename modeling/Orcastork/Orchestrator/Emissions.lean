import Orcastork.Orchestrator.Bookkeeping

/-!
# Emissions

An operator emits a value of a leaf type, and nothing else. The orchestrator validates it and
stamps it inside the run of the operator (`finalize`), and a value its leaf rejects fails the run.
What is finalized is merged by the gather loop, and only there is its value normalized: a value
that a leaf accepts and that has no normal form raises when its batch is merged, before anything
is written.
-/

namespace Orcastork

/-- A finalized DataPoint, not yet normalized. -/
structure FinalizedDataPoint where
  type : DataPointType
  value : Value
  retrievedBy : OperatorId
  firstRetrieved : Timestamp
  lastRetrieved : Timestamp

/-- The DataPoint, if its value can be normalized. -/
def FinalizedDataPoint.normalize (finalized : FinalizedDataPoint) :
    Except OrchestrationError BaseDataPoint :=
  match h : makeHashable finalized.value with
  | .error error => .error error
  | .ok hashed =>
    .ok
      { type := finalized.type
        value := finalized.value
        retrievedBy := finalized.retrievedBy
        firstRetrieved := finalized.firstRetrieved
        lastRetrieved := finalized.lastRetrieved
        hashed := hashed
        hashable := h }

theorem FinalizedDataPoint.normalize_of_error {finalized : FinalizedDataPoint}
    {error : OrchestrationError} (h : makeHashable finalized.value = .error error) :
  finalized.normalize = .error error
  := by
  rw [FinalizedDataPoint.normalize]
  split
  · rename_i error' h'
    cases h.symm.trans h'
    rfl
  · rename_i hashed h'
    cases h.symm.trans h'

theorem FinalizedDataPoint.normalize_of_ok {finalized : FinalizedDataPoint} {hashed : Hashed}
    (h : makeHashable finalized.value = .ok hashed) :
  finalized.normalize
    = .ok ⟨finalized.type, finalized.value, finalized.retrievedBy, finalized.firstRetrieved,
        finalized.lastRetrieved, hashed, h⟩
  := by
  rw [FinalizedDataPoint.normalize]
  split
  · rename_i error h'
    cases h.symm.trans h'
  · rename_i hashed' h'
    cases h.symm.trans h'
    rfl

/-- `DataPointEmission`. -/
structure DataPointEmission where
  leafType : DataPointType
  value : Value

/-- `finalize`: what validating the value gives, stamped; or the text of the validation error. -/
def DataPointEmission.finalize (validate : DataPointType → Value → Except String Value)
    (emission : DataPointEmission) (retrievedBy : OperatorId) (at' : Timestamp) :
    Except String FinalizedDataPoint :=
  match validate emission.leafType emission.value with
  | .error error => .error error
  | .ok value => .ok ⟨emission.leafType, value, retrievedBy, at', at'⟩

/-- An emission of the gather loop: a finalized DataPoint with its operator. -/
structure QueuedEmission where
  operatorId : OperatorId
  finalized : FinalizedDataPoint

/-- The emission as it is merged. -/
def QueuedEmission.normalize (queued : QueuedEmission) : Except OrchestrationError Emitted :=
  match queued.finalized.normalize with
  | .error error => .error error
  | .ok dataPoint => .ok ⟨some queued.operatorId, dataPoint⟩

/-- The emissions of a batch, up to the first that cannot be normalized. -/
def normalizeAll : List QueuedEmission → Except OrchestrationError (List Emitted)
  | [] => .ok []
  | queued :: rest =>
    match queued.normalize with
    | .error error => .error error
    | .ok emitted =>
      match normalizeAll rest with
      | .error error => .error error
      | .ok emitteds => .ok (emitted :: emitteds)

/-- A value has a normal form. -/
def FinalizedDataPoint.Normalizes (finalized : FinalizedDataPoint) : Prop :=
  ∃ hashed, makeHashable finalized.value = .ok hashed

instance : DecidablePred FinalizedDataPoint.Normalizes := fun finalized =>
  match h : makeHashable finalized.value with
  | .ok hashed => .isTrue ⟨hashed, h⟩
  | .error error => .isFalse (by
      rintro ⟨hashed, hok⟩
      rw [h] at hok
      cases hok)

/-- The DataPoint of a value with a normal form. -/
theorem FinalizedDataPoint.Normalizes.normalize {finalized : FinalizedDataPoint}
    (h : finalized.Normalizes) :
  ∃ dataPoint, finalized.normalize = .ok dataPoint
  := by
  obtain ⟨hashed, hok⟩ := h
  rw [FinalizedDataPoint.normalize_of_ok hok]
  exact ⟨_, rfl⟩

/-- A batch of values with normal forms can be merged. -/
theorem normalizeAll_of_normalizes {batch : List QueuedEmission}
    (h : ∀ queued ∈ batch, queued.finalized.Normalizes) :
  ∃ emitted, normalizeAll batch = .ok emitted
  := by
  induction batch with
  | nil => exact ⟨[], rfl⟩
  | cons queued batch ih =>
      obtain ⟨hqueued, hbatch⟩ := List.forall_mem_cons.mp h
      obtain ⟨dataPoint, hdataPoint⟩ := hqueued.normalize
      obtain ⟨emitted, hemitted⟩ := ih hbatch
      use ⟨some queued.operatorId, dataPoint⟩ :: emitted
      rw [normalizeAll, QueuedEmission.normalize, hdataPoint, hemitted]

/-- What is merged of a batch is its emissions, each normalized. -/
theorem forall₂_of_normalizeAll {batch : List QueuedEmission} {emitted : List Emitted}
    (h : normalizeAll batch = .ok emitted) :
  List.Forall₂ (fun queued emitted => queued.normalize = .ok emitted) batch emitted
  := by
  induction batch generalizing emitted with
  | nil =>
      cases h
      exact .nil
  | cons queued batch ih =>
      rw [normalizeAll] at h
      split at h
      · cases h
      · rename_i first hfirst
        split at h
        · cases h
        · rename_i rest hrest
          cases h
          exact .cons hfirst (ih hrest)

end Orcastork
