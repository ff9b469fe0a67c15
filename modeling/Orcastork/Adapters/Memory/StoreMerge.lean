import Orcastork.Adapters.Memory.Store
import Orcastork.Library.Upsert

/-!
# The keyed merge of the store

Seen by a reader, `write` is a keyed upsert: the first observation of an identity is kept
with its place, and later ones move its last retrieval. The stamps and the revision are what
the store adds to it.
-/

namespace Orcastork

/-- DataPoints by identity: an identity observed again keeps its first DataPoint, with the
later of the two retrievals. -/
def BaseDataPoint.upsert : Upsert IdentityKey BaseDataPoint where
  key := identityKey
  join existing dataPoint := existing.reobserved dataPoint.lastRetrieved
  key_join _ _ := rfl

namespace SessionState

open BaseDataPoint

/-- The DataPoints of entries, at their identities. -/
def dataPoints (entries : Entries) : Dict IdentityKey BaseDataPoint :=
  entries.map Entry.dataPoint

/-- Merging a DataPoint sets its identity to what the observation makes of it. -/
theorem dataPoints_mergeOne (n : Revision) (entries : Entries) (changed : Bool)
    (dataPoint : BaseDataPoint) :
  dataPoints (mergeOne n (entries, changed) dataPoint).1
    = (dataPoints entries).set (identityKey dataPoint)
        (upsert.absorb ((dataPoints entries).get? (identityKey dataPoint)) dataPoint)
  := by
  cases hget : entries.get? (identityKey dataPoint) with
  | none =>
      rw [mergeOne_new hget, dataPoints, Dict.map_set, dataPoints, Dict.get?_map, hget]
      rfl
  | some existing =>
      have hdp : (dataPoints entries).get? (identityKey dataPoint) = some existing.dataPoint := by
        rw [dataPoints, Dict.get?_map, hget]
        rfl
      rcases lt_or_ge existing.dataPoint.lastRetrieved dataPoint.lastRetrieved with hlt | hle
      · rw [mergeOne_newer hget hlt, dataPoints, Dict.map_set, hdp]
        rfl
      · rw [mergeOne_not_newer hget hle, hdp, Dict.set_eq_self]
        simp only [upsert, Upsert.absorb, reobserved_of_le hle]
        exact hdp

theorem dataPoints_keyed {entries : Entries} {bound : Revision}
    (h : entries.WellFormed bound) (key : IdentityKey) (dataPoint : BaseDataPoint)
    (hget : (dataPoints entries).get? key = some dataPoint) :
  identityKey dataPoint = key
  := by
  rw [dataPoints, Dict.get?_map, Option.map_eq_some_iff] at hget
  obtain ⟨entry, hentry, rfl⟩ := hget
  exact h.keyed hentry

/-- The identities in a snapshot are those of the entries. -/
theorem identityKey_snapshot {state : SessionState} (h : state.WellFormed) :
  state.snapshot.map identityKey = state.entries.keys
  := by
  simp only [snapshot, Dict.values, Dict.keys, List.map_map]
  apply List.map_congr_left
  intro item hitem
  exact h.keyed (Dict.get?_eq_some_iff.mpr hitem)

/-- The identities in a snapshot are distinct. -/
theorem nodup_identityKey_snapshot {state : SessionState} (h : state.WellFormed) :
  (state.snapshot.map identityKey).Nodup
  := by
  rw [identityKey_snapshot h]
  exact state.entries.nodup

/-- Merging a batch puts its DataPoints in, one after another. -/
theorem values_foldl_mergeOne {n : Revision} {entries : Entries} (h : entries.WellFormed n)
    (changed : Bool) (batch : List BaseDataPoint) :
  (dataPoints (batch.foldl (mergeOne n) (entries, changed)).1).values
    = upsert.putAll (dataPoints entries).values batch
  := by
  induction batch generalizing entries changed with
  | nil => rfl
  | cons dataPoint batch ih =>
      rw [List.foldl_cons, Upsert.putAll_cons, ih (mergeOne_wellFormed h dataPoint),
        dataPoints_mergeOne]
      congr 1
      exact upsert.values_set (dataPoints_keyed h) dataPoint

theorem snapshot_eq_values (state : SessionState) :
  state.snapshot = (dataPoints state.entries).values
  := by
  rw [snapshot, dataPoints, Dict.values_map]

/-- A reader sees an accepted batch put into what it saw before. -/
theorem snapshot_write {state state' : SessionState} (h : state.WellFormed)
    {batch : List BaseDataPoint} {epoch : Epoch} {revision : Revision}
    (hwrite : state.write batch epoch = .ok (revision, state')) :
  state'.snapshot = upsert.putAll state.snapshot batch
  := by
  rw [write] at hwrite
  cases hguard : state.guardEpoch epoch with
  | error error => simp [hguard, bind, Except.bind] at hwrite
  | ok guarded =>
      have hentries : guarded.entries = state.entries := by
        rw [guardEpoch] at hguard
        split at hguard
        · cases hguard
        · cases hguard
          rfl
      have hrevision : guarded.revision = state.revision := by
        rw [guardEpoch] at hguard
        split at hguard
        · cases hguard
        · cases hguard
          rfl
      simp only [hguard, bind, Except.bind, pure, Except.pure, Except.ok.injEq,
        Prod.mk.injEq] at hwrite
      obtain ⟨-, rfl⟩ := hwrite
      rw [snapshot_eq_values, snapshot_eq_values, ← hentries]
      apply values_foldl_mergeOne
      rw [hentries, hrevision]
      exact h.mono (Nat.le_succ state.revision)

/-- Writing DataPoints of distinct identities into an empty store gives a snapshot of them. -/
theorem snapshot_write_initial {batch : List BaseDataPoint}
    (h : (batch.map identityKey).Nodup) (epoch : Epoch) :
  ∃ revision state, SessionState.initial.write batch epoch = .ok (revision, state)
    ∧ state.snapshot = batch
  := by
  have hwrite : ∃ result, SessionState.initial.write batch epoch = .ok result := by
    rw [write, guardEpoch_of_le (Nat.zero_le epoch)]
    exact ⟨_, rfl⟩
  obtain ⟨⟨revision, state⟩, hwrite⟩ := hwrite
  refine ⟨revision, state, hwrite, ?_⟩
  rw [snapshot_write initial_wellFormed hwrite]
  apply upsert.putAll_of_nodup h
  intro dataPoint _ hmem
  cases hmem

/-! ### Observed DataPoints -/

/-- The identity of a DataPoint is there, last retrieved when the DataPoint was or later. -/
def Observes (entries : Entries) (dataPoint : BaseDataPoint) : Prop :=
  ∃ held, (dataPoints entries).get? (identityKey dataPoint) = some held
    ∧ dataPoint.lastRetrieved ≤ held.lastRetrieved

/-- What was observed stays so, and a merged DataPoint is observed. -/
theorem observes_mergeOne {n : Revision} {entries : Entries} {changed : Bool}
    {dataPoint observed : BaseDataPoint} (h : observed = dataPoint ∨ Observes entries observed) :
  Observes (mergeOne n (entries, changed) dataPoint).1 observed
  := by
  rw [Observes, dataPoints_mergeOne, Dict.get?_set]
  by_cases hkey : identityKey observed = identityKey dataPoint
  · rw [if_pos hkey.symm]
    refine ⟨_, rfl, ?_⟩
    rcases h with rfl | ⟨held, hheld, hle⟩
    · cases (dataPoints entries).get? (identityKey observed) with
      | none => apply le_refl
      | some held => apply le_max_right
    · rw [← hkey, hheld]
      apply le_trans hle
      apply le_max_left
  · rw [if_neg (Ne.symm hkey)]
    rcases h with rfl | h
    · exact absurd rfl hkey
    · apply h

theorem observes_foldl_mergeOne {n : Revision} {entries : Entries} {changed : Bool}
    {batch : List BaseDataPoint} {observed : BaseDataPoint}
    (h : observed ∈ batch ∨ Observes entries observed) :
  Observes (batch.foldl (mergeOne n) (entries, changed)).1 observed
  := by
  induction batch generalizing entries changed with
  | nil =>
      rcases h with h | h
      · cases h
      · apply h
  | cons dataPoint batch ih =>
      rw [List.foldl_cons]
      apply ih
      rcases h with h | h
      · rcases List.mem_cons.mp h with rfl | hmem
        · apply Or.inr (observes_mergeOne (Or.inl rfl))
        · apply Or.inl hmem
      · apply Or.inr (observes_mergeOne (Or.inr h))

/-- An accepted batch is observed, and so is what was observed before it. -/
theorem observes_write {state state' : SessionState} {batch : List BaseDataPoint}
    {epoch : Epoch} {revision : Revision}
    (hwrite : state.write batch epoch = .ok (revision, state')) {observed : BaseDataPoint}
    (h : observed ∈ batch ∨ Observes state.entries observed) :
  Observes state'.entries observed
  := by
  rcases Nat.lt_or_ge epoch state.maxEpoch with hlt | hle
  · rw [write_of_lt hlt] at hwrite
    cases hwrite
  · rw [write_of_le hle rfl] at hwrite
    cases hwrite
    apply observes_foldl_mergeOne h

end SessionState

end Orcastork
