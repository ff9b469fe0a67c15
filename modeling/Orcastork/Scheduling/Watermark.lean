import Mathlib.Data.Finset.SDiff
import Orcastork.Adapters.Memory.StoreHistory
import Orcastork.Orchestrator.MirrorSimulation

/-!
# Watermarks and deltas

What an operator is given to process: everything, where it has no watermark, and otherwise what
was added or updated since; and the capabilities that have become available. The orchestrator
keeps the watermarks and reads its mirror, so the delta is that of the store
(`operatorDelta_eq`).
-/

namespace Orcastork

/-- `InvocationDelta`. -/
structure InvocationDelta where
  added : List BaseDataPoint
  updated : List BaseDataPoint
  newlyAvailableCaps : Finset CapabilityId
  isFirstInvocation : Bool

/-- `compute_delta`. -/
def computeDelta (changeSet : ChangeSet) (currentSet : DataPointView)
    (previousCaps availableCaps : Finset CapabilityId) (isFirstInvocation : Bool) :
    InvocationDelta :=
  let newlyAvailable := availableCaps \ previousCaps
  if isFirstInvocation then
    ⟨currentSet, [], newlyAvailable, true⟩
  else
    ⟨changeSet.added, changeSet.updated, newlyAvailable, false⟩

/-- `operator_delta`: no watermark is a first invocation. -/
def operatorDelta (mirror : SessionStateMirror) (sessionId : SessionId)
    (watermark : Option Revision) (availableCaps previousCaps : Finset CapabilityId) :
    Except OrchestrationError InvocationDelta := do
  match watermark with
  | none =>
    let current ← mirror.snapshot sessionId
    return computeDelta ⟨[], []⟩ current previousCaps availableCaps true
  | some watermark =>
    let change ← mirror.changeSetSince sessionId watermark
    return computeDelta change [] previousCaps availableCaps false

/-- The delta of a store, as it would be read of the store itself. -/
def storeDelta (store : SessionState) (watermark : Option Revision)
    (availableCaps previousCaps : Finset CapabilityId) : InvocationDelta :=
  match watermark with
  | none => computeDelta ⟨[], []⟩ store.snapshot previousCaps availableCaps true
  | some watermark => computeDelta (store.changeSetSince watermark) [] previousCaps availableCaps false

/-- A mirror can be asked about a watermark. -/
def SessionStateMirror.Answers (mirror : SessionStateMirror) (watermark : Option Revision) : Prop :=
  ∀ since, watermark = some since → mirror.rehydratedAt ≤ since ∨ since ∈ mirror.baselines.keys

/-- An agreeing mirror gives an operator the delta of the store. -/
theorem operatorDelta_eq {mirror : SessionStateMirror} {store : SessionState}
    (h : Agrees mirror store) {watermark : Option Revision} (hanswers : mirror.Answers watermark)
    (availableCaps previousCaps : Finset CapabilityId) :
  operatorDelta mirror mirror.sessionId watermark availableCaps previousCaps
    = .ok (storeDelta store watermark availableCaps previousCaps)
  := by
  cases watermark with
  | none =>
      rw [operatorDelta, h.snapshot]
      rfl
  | some since =>
      rw [operatorDelta, h.changeSetSince (hanswers since rfl)]
      rfl

/-- What a mirror gives is the delta of the store it agrees with. -/
theorem storeDelta_of_ok {mirror : SessionStateMirror} {store : SessionState}
    (h : Agrees mirror store) {watermark : Option Revision}
    {availableCaps previousCaps : Finset CapabilityId} {delta : InvocationDelta}
    (hdelta : operatorDelta mirror mirror.sessionId watermark availableCaps previousCaps
      = .ok delta) :
  delta = storeDelta store watermark availableCaps previousCaps
  := by
  by_cases hanswers : mirror.Answers watermark
  · rw [operatorDelta_eq h hanswers] at hdelta
    cases hdelta
    rfl
  · cases watermark with
    | none => exact absurd nofun hanswers
    | some since =>
        have hmissing : ¬(mirror.rehydratedAt ≤ since) ∧ since ∉ mirror.baselines.keys := by
          rw [← not_or]
          intro hsince
          apply hanswers
          rintro _ ⟨⟩
          exact hsince
        rw [operatorDelta, SessionStateMirror.changeSetSince, h.guardRead] at hdelta
        simp only [bind, Except.bind, if_neg hmissing.1, SessionStateMirror.baselinedChangeSet,
          Dict.get?_eq_none_iff.mpr hmissing.2] at hdelta
        cases hdelta

/-! ### What later writes leave of a delta -/

/-- A view has a DataPoint, as it was or observed later. -/
def Shows (view : DataPointView) (dataPoint : BaseDataPoint) : Prop :=
  ∃ shown ∈ view, shown = { dataPoint with lastRetrieved := shown.lastRetrieved }
    ∧ dataPoint.lastRetrieved ≤ shown.lastRetrieved

/-- What a view shows is shown by a view that shows all of it. -/
theorem Shows.trans {view view' : DataPointView} {dataPoint : BaseDataPoint}
    (h : Shows view dataPoint) (hview : ∀ shown ∈ view, Shows view' shown) :
  Shows view' dataPoint
  := by
  obtain ⟨shown, hshown, hsame, hle⟩ := h
  obtain ⟨later, hlater, hsame', hle'⟩ := hview shown hshown
  use later, hlater
  constructor
  · apply hsame'.trans
    rw [hsame]
  · exact hle.trans hle'

/-- What a delta presents is presented by another one, as it was or observed later. -/
structure InvocationDelta.Within (delta delta' : InvocationDelta) : Prop where
  added : ∀ dataPoint ∈ delta.added, Shows delta'.added dataPoint
  updated : ∀ dataPoint ∈ delta.updated, Shows delta'.updated dataPoint
  isFirstInvocation : delta'.isFirstInvocation = delta.isFirstInvocation

namespace InvocationDelta.Within

theorem refl (delta : InvocationDelta) :
  delta.Within delta
  := ⟨fun dataPoint h => ⟨dataPoint, h, rfl, le_refl _⟩,
    fun dataPoint h => ⟨dataPoint, h, rfl, le_refl _⟩, rfl⟩

theorem trans {delta delta' delta'' : InvocationDelta} (h : delta.Within delta')
    (h' : delta'.Within delta'') :
  delta.Within delta''
  := ⟨fun dataPoint hmem => (h.added dataPoint hmem).trans h'.added,
    fun dataPoint hmem => (h.updated dataPoint hmem).trans h'.updated,
    h'.isFirstInvocation.trans h.isFirstInvocation⟩

end InvocationDelta.Within

section Store

variable {store store' : SessionState}

/-- Entries of a kind that later entries keep are shown later. -/
theorem shows_filter
    (hlater : ∀ {key old}, store.entries.get? key = some old →
      ∃ entry, store'.entries.get? key = some entry ∧ SessionState.Later old entry)
    {p : Entry → Bool} (hp : ∀ {old entry}, SessionState.Later old entry → p old = true →
      p entry = true)
    {dataPoint : BaseDataPoint}
    (h : dataPoint ∈ (store.entries.values.filter p).map Entry.dataPoint) :
  Shows ((store'.entries.values.filter p).map Entry.dataPoint) dataPoint
  := by
  obtain ⟨old, hold, rfl⟩ := List.mem_map.mp h
  obtain ⟨hvalue, hkind⟩ := List.mem_filter.mp hold
  obtain ⟨key, hget⟩ := Dict.mem_values_iff.mp hvalue
  obtain ⟨entry, hget', hentry⟩ := hlater hget
  refine ⟨entry.dataPoint, ?_, hentry.dataPoint, hentry.lastRetrieved⟩
  apply List.mem_map_of_mem
  apply List.mem_filter.mpr
  exact ⟨Dict.mem_values_iff.mpr ⟨key, hget'⟩, hp hentry hkind⟩

/-- The delta since a watermark only grows. -/
theorem within_storeDelta
    (hlater : ∀ {key old}, store.entries.get? key = some old →
      ∃ entry, store'.entries.get? key = some entry ∧ SessionState.Later old entry)
    (watermark : Option Revision)
    (availableCaps previousCaps availableCaps' previousCaps' : Finset CapabilityId) :
  (storeDelta store watermark availableCaps previousCaps).Within
    (storeDelta store' watermark availableCaps' previousCaps')
  := by
  cases watermark with
  | none =>
      have hall : ∀ state : SessionState, state.snapshot
          = (state.entries.values.filter (fun _ => true)).map Entry.dataPoint := by
        intro state
        rw [List.filter_true]
        rfl
      refine ⟨?_, nofun, rfl⟩
      intro dataPoint hmem
      change dataPoint ∈ store.snapshot at hmem
      change Shows store'.snapshot dataPoint
      rw [hall] at hmem ⊢
      exact shows_filter hlater (fun _ _ => rfl) hmem
  | some since =>
      refine ⟨?_, ?_, rfl⟩
      · intro dataPoint hmem
        refine shows_filter hlater ?_ hmem
        intro old entry hentry hadded
        rw [decide_eq_true_eq] at hadded ⊢
        rw [hentry.addedRev]
        exact hadded
      · intro dataPoint hmem
        refine shows_filter hlater ?_ hmem
        intro old entry hentry hupdated
        rw [decide_eq_true_eq] at hupdated ⊢
        rw [hentry.addedRev]
        exact ⟨hupdated.1, lt_of_lt_of_le hupdated.2 hentry.updatedRev⟩

/-- A write leaves the delta since a watermark within what it is then. -/
theorem within_write (h : store.WellFormed) {batch : List BaseDataPoint} {epoch : Epoch}
    {revision : Revision} (hwrite : store.write batch epoch = .ok (revision, store'))
    (watermark : Option Revision)
    (availableCaps previousCaps availableCaps' previousCaps' : Finset CapabilityId) :
  (storeDelta store watermark availableCaps previousCaps).Within
    (storeDelta store' watermark availableCaps' previousCaps')
  := within_storeDelta (fun hget => SessionState.write_later h hwrite hget) watermark availableCaps
    previousCaps availableCaps' previousCaps'

end Store

end Orcastork
