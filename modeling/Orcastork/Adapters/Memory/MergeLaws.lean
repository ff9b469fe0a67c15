import Mathlib.Data.List.Perm.Basic
import Orcastork.Adapters.Memory.StoreMerge

/-!
# The laws of the keyed merge

What a list of observations leaves in the store does not depend on how it is cut into batches, and
what it leaves of the last retrievals does not depend on its order either; observations that are
repeated leave nothing.

The stamps do depend on the cuts. Seen from a revision that is not past the first batch (`Seen`) an
entry only tells whether it was added since and whether it was freshened since, and so much is
determined by the observations (`seen_writes`).
-/

namespace Orcastork

namespace SessionState

/-- Batches written one after another, each in its epoch. -/
def writes (state : SessionState) :
    List (List BaseDataPoint × Epoch) → Except OrchestrationError SessionState
  | [] => .ok state
  | (batch, epoch) :: cuts => do
    let (_, state) ← state.write batch epoch
    state.writes cuts

/-- The observations of all batches, in their order. -/
def observations (cuts : List (List BaseDataPoint × Epoch)) : List BaseDataPoint :=
  cuts.flatMap Prod.fst

/-- The last retrieval of an identity. -/
def lastRetrievedAt (state : SessionState) (key : IdentityKey) : Option Timestamp :=
  ((dataPoints state.entries).get? key).map BaseDataPoint.lastRetrieved

/-- The retrievals of an identity: the one in the store, and those of some observations. -/
def retrievals (state : SessionState) (key : IdentityKey) (observed : List BaseDataPoint) :
    List Timestamp :=
  (state.lastRetrievedAt key).toList
    ++ (observed.filter (fun dataPoint => identityKey dataPoint = key)).map
      BaseDataPoint.lastRetrieved

/-! ### Batches one after another -/

/-- An accepted batch is merged in, and the revision does not fall. -/
theorem write_eq_ok {state state' : SessionState} {batch : List BaseDataPoint} {epoch : Epoch}
    {revision : Revision} (hwrite : state.write batch epoch = .ok (revision, state')) :
  state'.entries = (batch.foldl (mergeOne (state.revision + 1)) (state.entries, false)).1
    ∧ state.revision ≤ state'.revision
  := by
  rcases Nat.lt_or_ge epoch state.maxEpoch with hlt | hle
  · rw [write_of_lt hlt] at hwrite
    cases hwrite
  · rw [write_of_le hle rfl] at hwrite
    cases hwrite
    constructor
    · rfl
    · dsimp only
      split
      · exact Nat.le_succ _
      · exact le_refl _

theorem writes_cons_eq_ok {state final : SessionState} {batch : List BaseDataPoint} {epoch : Epoch}
    {cuts : List (List BaseDataPoint × Epoch)}
    (h : state.writes ((batch, epoch) :: cuts) = .ok final) :
  ∃ revision state', state.write batch epoch = .ok (revision, state')
    ∧ state'.writes cuts = .ok final
  := by
  rw [writes] at h
  cases hwrite : state.write batch epoch with
  | error error =>
      rw [hwrite] at h
      cases h
  | ok result =>
      rw [hwrite] at h
      exact ⟨result.1, result.2, rfl, h⟩

/-- Batches in an epoch that is not stale are all accepted. -/
theorem writes_accepted {state : SessionState} {epoch : Epoch} (h : state.maxEpoch ≤ epoch)
    (batches : List (List BaseDataPoint)) :
  ∃ final, state.writes (batches.map (fun batch => (batch, epoch))) = .ok final
  := by
  induction batches generalizing state with
  | nil => exact ⟨state, rfl⟩
  | cons batch batches ih =>
      rw [List.map_cons, writes, write_of_le h rfl]
      apply ih
      exact le_refl _

/-- Writing batches keeps a state well formed. -/
theorem writes_wellFormed {state final : SessionState} {cuts : List (List BaseDataPoint × Epoch)}
    (h : state.WellFormed) (hwrites : state.writes cuts = .ok final) :
  final.WellFormed
  := by
  induction cuts generalizing state with
  | nil =>
      cases hwrites
      exact h
  | cons cut cuts ih =>
      obtain ⟨revision, state', hwrite, hrest⟩ := writes_cons_eq_ok hwrites
      exact ih (write_wellFormed h hwrite) hrest

/-! ### The last retrievals -/

/-- A merged observation leaves the later of its retrieval and the one that was there. -/
theorem lastRetrieved_mergeOne (n : Revision) (entries : Entries) (changed : Bool)
    (dataPoint : BaseDataPoint) (key : IdentityKey) :
  ((dataPoints (mergeOne n (entries, changed) dataPoint).1).get? key).map
      BaseDataPoint.lastRetrieved
    = ((((dataPoints entries).get? key).map BaseDataPoint.lastRetrieved).toList
      ++ ([dataPoint].filter (fun observed => identityKey observed = key)).map
        BaseDataPoint.lastRetrieved).max?
  := by
  rw [dataPoints_mergeOne, Dict.get?_set]
  by_cases hkey : identityKey dataPoint = key
  · rw [if_pos hkey, hkey, List.filter_singleton, decide_eq_true hkey]
    cases (dataPoints entries).get? key with
    | none => rfl
    | some held => rfl
  · rw [if_neg hkey, List.filter_singleton, decide_eq_false hkey]
    cases (dataPoints entries).get? key with
    | none => rfl
    | some held => rfl

/-- The greatest of some numbers is that of the greatest of the first of them and the others. -/
theorem max?_append_max? (first second : List Timestamp) :
  (first.max?.toList ++ second).max? = (first ++ second).max?
  := by
  cases first with
  | nil => rfl
  | cons t first =>
      rw [List.max?_cons', Option.toList_some, List.singleton_append, List.max?_cons',
        List.cons_append, List.max?_cons', List.foldl_append]

/-- The merged observations leave the last of all retrievals. -/
theorem lastRetrieved_foldl_mergeOne (n : Revision) (entries : Entries) (changed : Bool)
    (batch : List BaseDataPoint) (key : IdentityKey) :
  ((dataPoints (batch.foldl (mergeOne n) (entries, changed)).1).get? key).map
      BaseDataPoint.lastRetrieved
    = ((((dataPoints entries).get? key).map BaseDataPoint.lastRetrieved).toList
      ++ (batch.filter (fun observed => identityKey observed = key)).map
        BaseDataPoint.lastRetrieved).max?
  := by
  induction batch generalizing entries changed with
  | nil =>
      rw [List.foldl_nil]
      cases ((dataPoints entries).get? key).map BaseDataPoint.lastRetrieved with
      | none => rfl
      | some t => rfl
  | cons dataPoint batch ih =>
      rw [List.foldl_cons, ih, lastRetrieved_mergeOne, max?_append_max?, List.append_assoc,
        ← List.map_append, ← List.filter_append, List.singleton_append]

/-- The batches leave the last of all retrievals. -/
theorem lastRetrievedAt_writes {state final : SessionState}
    {cuts : List (List BaseDataPoint × Epoch)} (h : state.writes cuts = .ok final)
    (key : IdentityKey) :
  final.lastRetrievedAt key = (state.retrievals key (observations cuts)).max?
  := by
  induction cuts generalizing state with
  | nil =>
      cases h
      rw [retrievals]
      cases final.lastRetrievedAt key with
      | none => rfl
      | some t => rfl
  | cons cut cuts ih =>
      obtain ⟨revision, state', hwrite, hrest⟩ := writes_cons_eq_ok h
      have hlast := lastRetrieved_foldl_mergeOne (state.revision + 1) state.entries false cut.1 key
      rw [← (write_eq_ok hwrite).1] at hlast
      rw [ih hrest, retrievals, lastRetrievedAt, hlast, max?_append_max?, List.append_assoc,
        ← List.map_append, ← List.filter_append]
      rfl

/-- The order of numbers does not matter for their greatest. -/
theorem max?_eq_of_perm {first second : List Timestamp} (h : first.Perm second) :
  first.max? = second.max?
  := by
  ext t
  simp only [List.max?_eq_some_iff, h.mem_iff]

/-- The identities are those with a last retrieval. -/
theorem mem_keys_iff_lastRetrievedAt {state : SessionState} {key : IdentityKey} :
  key ∈ state.entries.keys ↔ (state.lastRetrievedAt key).isSome
  := by
  rw [lastRetrievedAt, Option.isSome_map, Dict.get?_isSome_iff, dataPoints, Dict.keys_map]

/-! ### Entries seen from a revision -/

/-- What an entry tells since a revision: what it holds, whether it was added, and whether it was
added or freshened. -/
structure Seen where
  dataPoint : BaseDataPoint
  added : Bool
  moved : Bool

/-- An entry seen from a revision. -/
def seenFrom (since : Revision) (entry : Entry) : Seen :=
  ⟨entry.dataPoint, decide (since < entry.addedRev), decide (since < entry.updatedRev)⟩

/-- A DataPoint merged into entries seen from an earlier revision. -/
def mergeSeen (seen : Dict IdentityKey Seen) (dataPoint : BaseDataPoint) : Dict IdentityKey Seen :=
  match seen.get? (identityKey dataPoint) with
  | none => seen.set (identityKey dataPoint) ⟨dataPoint, true, true⟩
  | some existing =>
    if dataPoint.lastRetrieved > existing.dataPoint.lastRetrieved then
      seen.set (identityKey dataPoint)
        ⟨existing.dataPoint.reobserved dataPoint.lastRetrieved, existing.added, true⟩
    else
      seen

/-- Seen from an earlier revision the stamp that is given does not matter. -/
theorem map_mergeOne {since n : Revision} (hsince : since < n) (entries : Entries) (changed : Bool)
    (dataPoint : BaseDataPoint) :
  (mergeOne n (entries, changed) dataPoint).1.map (seenFrom since)
    = mergeSeen (entries.map (seenFrom since)) dataPoint
  := by
  rw [mergeSeen, Dict.get?_map]
  cases hget : entries.get? (identityKey dataPoint) with
  | none => simp [mergeOne_new hget, Dict.map_set, seenFrom, hsince]
  | some existing =>
      rcases lt_or_ge existing.dataPoint.lastRetrieved dataPoint.lastRetrieved with hlt | hle
      · simp [mergeOne_newer hget hlt, Dict.map_set, seenFrom, hsince, hlt]
      · simp [mergeOne_not_newer hget hle, seenFrom, not_lt.mpr hle]

theorem map_foldl_mergeOne {since n : Revision} (hsince : since < n) (entries : Entries)
    (changed : Bool) (batch : List BaseDataPoint) :
  (batch.foldl (mergeOne n) (entries, changed)).1.map (seenFrom since)
    = batch.foldl mergeSeen (entries.map (seenFrom since))
  := by
  induction batch generalizing entries changed with
  | nil => rfl
  | cons dataPoint batch ih => rw [List.foldl_cons, ih, List.foldl_cons, map_mergeOne hsince]

/-- Seen from a revision that is not past the first batch, what the batches leave is determined by
their observations. -/
theorem seen_writes {state final : SessionState} {cuts : List (List BaseDataPoint × Epoch)}
    (h : state.writes cuts = .ok final) {since : Revision} (hsince : since ≤ state.revision) :
  final.entries.map (seenFrom since)
    = (observations cuts).foldl mergeSeen (state.entries.map (seenFrom since))
  := by
  induction cuts generalizing state with
  | nil =>
      cases h
      rfl
  | cons cut cuts ih =>
      obtain ⟨revision, state', hwrite, hrest⟩ := writes_cons_eq_ok h
      obtain ⟨hentries, hrevision⟩ := write_eq_ok hwrite
      rw [ih hrest (hsince.trans hrevision), hentries,
        map_foldl_mergeOne (Nat.lt_succ_of_le hsince), ← List.foldl_append]
      rfl

/-- The DataPoints of entries seen from a revision. -/
theorem dataPoints_eq_map_seen (entries : Entries) (since : Revision) :
  dataPoints entries = (entries.map (seenFrom since)).map Seen.dataPoint
  := by
  apply Dict.ext_keys
  · rw [dataPoints, Dict.keys_map, Dict.keys_map, Dict.keys_map]
  · intro key
    rw [dataPoints, Dict.get?_map, Dict.get?_map, Dict.get?_map, Option.map_map]
    rfl

/-- The change set since a revision is read off the entries as they are seen from it. -/
theorem changeSetSince_eq_of_seen {state state' : SessionState} {since since' : Revision}
    (h : state.entries.map (seenFrom since) = state'.entries.map (seenFrom since')) :
  state.changeSetSince since = state'.changeSetSince since'
  := by
  have hread : ∀ (state : SessionState) (since : Revision),
      state.changeSetSince since
        = ⟨((state.entries.map (seenFrom since)).values.filter (fun seen => seen.added)).map
            Seen.dataPoint,
          ((state.entries.map (seenFrom since)).values.filter
            (fun seen => !seen.added && seen.moved)).map Seen.dataPoint⟩ := by
    intro state since
    rw [changeSetSince, Dict.values_map, List.filter_map, List.filter_map, List.map_map,
      List.map_map]
    congr 2
    apply List.filter_congr
    intro entry _
    simp [seenFrom, ← decide_not]
  rw [hread, hread, h]

/-- Seen from the revision of a well-formed state nothing of it was added or freshened. -/
theorem seenFrom_revision {state : SessionState} (h : state.WellFormed) :
  state.entries.map (seenFrom state.revision)
    = (dataPoints state.entries).map (fun dataPoint => ⟨dataPoint, false, false⟩)
  := by
  apply Dict.ext_keys
  · rw [dataPoints, Dict.keys_map, Dict.keys_map, Dict.keys_map]
  · intro key
    rw [dataPoints, Dict.get?_map, Dict.get?_map, Dict.get?_map, Option.map_map]
    cases hget : state.entries.get? key with
    | none => rfl
    | some entry =>
        have hupdated := h.updated_le hget
        have hadded := (h.added_le hget).trans hupdated
        simp [seenFrom, hadded, hupdated]

/-! ### Repeated observations -/

/-- Observations that are there leave the entries and the flag as they are. -/
theorem foldl_mergeOne_of_observes {n : Revision} {entries : Entries} {changed : Bool}
    {batch : List BaseDataPoint} (h : ∀ dataPoint ∈ batch, Observes entries dataPoint) :
  batch.foldl (mergeOne n) (entries, changed) = (entries, changed)
  := by
  induction batch with
  | nil => rfl
  | cons dataPoint batch ih =>
      obtain ⟨held, hheld, hle⟩ := h dataPoint List.mem_cons_self
      rw [dataPoints, Dict.get?_map, Option.map_eq_some_iff] at hheld
      obtain ⟨existing, hget, rfl⟩ := hheld
      rw [List.foldl_cons, mergeOne_not_newer hget hle]
      exact ih (fun observed hobserved => h observed (List.mem_cons_of_mem _ hobserved))

/-- Batches of observations that are there leave the entries and the revision as they are. -/
theorem writes_of_observes {state final : SessionState} {cuts : List (List BaseDataPoint × Epoch)}
    (hwrites : state.writes cuts = .ok final)
    (h : ∀ dataPoint ∈ observations cuts, Observes state.entries dataPoint) :
  final.entries = state.entries ∧ final.revision = state.revision
  := by
  induction cuts generalizing state with
  | nil =>
      cases hwrites
      exact ⟨rfl, rfl⟩
  | cons cut cuts ih =>
      obtain ⟨revision, state', hwrite, hrest⟩ := writes_cons_eq_ok hwrites
      have hsame : state'.entries = state.entries ∧ state'.revision = state.revision := by
        have hmerge : cut.1.foldl (mergeOne (state.revision + 1)) (state.entries, false)
            = (state.entries, false) := by
          apply foldl_mergeOne_of_observes
          exact fun dataPoint hmem => h dataPoint (List.mem_append_left _ hmem)
        rcases Nat.lt_or_ge cut.2 state.maxEpoch with hlt | hle
        · rw [write_of_lt hlt] at hwrite
          cases hwrite
        · rw [write_of_le hle hmerge] at hwrite
          cases hwrite
          exact ⟨rfl, rfl⟩
      obtain ⟨hentries, hrevision⟩ := ih hrest (by
        intro dataPoint hmem
        rw [hsame.1]
        exact h dataPoint (List.mem_append_right _ hmem))
      exact ⟨hentries.trans hsame.1, hrevision.trans hsame.2⟩

/-- What batches have observed is there. -/
theorem observes_writes {state final : SessionState} {cuts : List (List BaseDataPoint × Epoch)}
    (hwrites : state.writes cuts = .ok final) {observed : BaseDataPoint}
    (h : observed ∈ observations cuts ∨ Observes state.entries observed) :
  Observes final.entries observed
  := by
  induction cuts generalizing state with
  | nil =>
      cases hwrites
      exact h.resolve_left List.not_mem_nil
  | cons cut cuts ih =>
      obtain ⟨revision, state', hwrite, hrest⟩ := writes_cons_eq_ok hwrites
      apply ih hrest
      rcases h with h | h
      · rcases List.mem_append.mp h with h | h
        · exact Or.inr (observes_write hwrite (Or.inl h))
        · exact Or.inl h
      · exact Or.inr (observes_write hwrite (Or.inr h))

/-! ### The laws -/

/-- What the keyed merge makes of the observations of a list, from a state of the store. -/
structure KeyedMergeLaws (state : SessionState) : Prop where
  /-- Batches are accepted in an epoch that is not stale. -/
  accepted : ∀ epoch, state.maxEpoch ≤ epoch → ∀ batches : List (List BaseDataPoint),
    ∃ final, state.writes (batches.map (fun batch => (batch, epoch))) = .ok final
  /-- Neither the order nor the cuts matter for the identities and their last retrievals. -/
  reordered : ∀ cuts cuts' final final', state.writes cuts = .ok final →
    state.writes cuts' = .ok final' → (observations cuts).Perm (observations cuts') →
    ∀ key, (key ∈ final.entries.keys ↔ key ∈ final'.entries.keys)
      ∧ final.lastRetrievedAt key = final'.lastRetrievedAt key
      ∧ final.lastRetrievedAt key = (state.retrievals key (observations cuts)).max?
  /-- The cuts do not matter for the entries, their order, and the change set since a revision from
  before, or since a place in the list where both cut it. -/
  cut : ∀ before after before' after' middle middle' final final',
    state.writes before = .ok middle → middle.writes after = .ok final →
    state.writes before' = .ok middle' → middle'.writes after' = .ok final' →
    observations before = observations before' → observations after = observations after' →
    dataPoints final.entries = dataPoints final'.entries ∧ final.snapshot = final'.snapshot
      ∧ final.changeSetSince middle.revision = final'.changeSetSince middle'.revision
      ∧ ∀ since ≤ state.revision, final.changeSetSince since = final'.changeSetSince since
  /-- Observations written before change neither the entries, with their stamps, nor the
  revision. -/
  repeated : ∀ cuts again final final', state.writes cuts = .ok final →
    final.writes again = .ok final' →
    (∀ dataPoint ∈ observations again, dataPoint ∈ observations cuts) →
    final'.entries = final.entries ∧ final'.revision = final.revision

/-- Batches written before others. -/
theorem writes_append_eq_ok {state middle final : SessionState}
    {cuts cuts' : List (List BaseDataPoint × Epoch)} (h : state.writes cuts = .ok middle)
    (h' : middle.writes cuts' = .ok final) :
  state.writes (cuts ++ cuts') = .ok final
  := by
  induction cuts generalizing state with
  | nil =>
      cases h
      exact h'
  | cons cut cuts ih =>
      obtain ⟨revision, state', hwrite, hrest⟩ := writes_cons_eq_ok h
      rw [List.cons_append, writes, hwrite]
      exact ih hrest

/-- The keyed merge obeys its laws from every state of the store. -/
theorem keyedMergeLaws {state : SessionState} (h : state.WellFormed) :
  KeyedMergeLaws state
  := by
  constructor
  case accepted => exact fun epoch hepoch => writes_accepted hepoch
  case reordered =>
    intro cuts cuts' final final' hwrites hwrites' hperm key
    have hsame : final.lastRetrievedAt key = final'.lastRetrievedAt key := by
      rw [lastRetrievedAt_writes hwrites, lastRetrievedAt_writes hwrites']
      apply max?_eq_of_perm
      exact List.Perm.append_left _ ((hperm.filter _).map _)
    refine ⟨?_, hsame, lastRetrievedAt_writes hwrites key⟩
    rw [mem_keys_iff_lastRetrievedAt, mem_keys_iff_lastRetrievedAt, hsame]
  case cut =>
    intro before after before' after' middle middle' final final' hbefore hafter hbefore' hafter'
      hfirst hsecond
    have hall := writes_append_eq_ok hbefore hafter
    have hall' := writes_append_eq_ok hbefore' hafter'
    have hobservations : observations (before ++ after) = observations (before' ++ after') := by
      rw [observations, observations, List.flatMap_append, List.flatMap_append]
      exact congrArg₂ _ hfirst hsecond
    have hseen : ∀ since ≤ state.revision,
        final.entries.map (seenFrom since) = final'.entries.map (seenFrom since) := by
      intro since hsince
      rw [seen_writes hall hsince, seen_writes hall' hsince, hobservations]
    have hmiddle : dataPoints middle.entries = dataPoints middle'.entries := by
      rw [dataPoints_eq_map_seen middle.entries state.revision,
        dataPoints_eq_map_seen middle'.entries state.revision, seen_writes hbefore (le_refl _),
        seen_writes hbefore' (le_refl _), hfirst]
    have hdataPoints : dataPoints final.entries = dataPoints final'.entries := by
      rw [dataPoints_eq_map_seen final.entries state.revision,
        dataPoints_eq_map_seen final'.entries state.revision, hseen state.revision (le_refl _)]
    refine ⟨hdataPoints, ?_, ?_, fun since hsince => changeSetSince_eq_of_seen (hseen since hsince)⟩
    · rw [snapshot_eq_values, snapshot_eq_values, hdataPoints]
    · apply changeSetSince_eq_of_seen
      rw [seen_writes hafter (le_refl _), seen_writes hafter' (le_refl _), hsecond,
        seenFrom_revision (writes_wellFormed h hbefore),
        seenFrom_revision (writes_wellFormed h hbefore'), hmiddle]
  case repeated =>
    intro cuts again final final' hwrites hagain hwritten
    apply writes_of_observes hagain
    intro dataPoint hmem
    exact observes_writes hwrites (Or.inl (hwritten dataPoint hmem))

/-- A note seen at a time. -/
def seenNote (at' : Timestamp) : BaseDataPoint where
  type := "note"
  value := .str "a"
  retrievedBy := "reader"
  firstRetrieved := at'
  lastRetrieved := at'
  hashed := .str "a"
  hashable := makeHashable_str "a"

/-- They hold of a session with a note in it: seen again at two times, in either order and cut
differently, the note has the same last retrieval. -/
theorem keyedMergeLaws_noted :
  ∃ noted final final', SessionState.initial.writes [([seenNote 1], 1)] = .ok noted
    ∧ noted.writes [([seenNote 2], 1), ([seenNote 3], 1)] = .ok final
    ∧ noted.writes [([seenNote 3, seenNote 2], 1)] = .ok final'
    ∧ final.lastRetrievedAt (identityKey (seenNote 1))
      = final'.lastRetrievedAt (identityKey (seenNote 1))
  := by
  obtain ⟨noted, hnoted⟩ : ∃ noted,
      SessionState.initial.writes [([seenNote 1], 1)] = .ok noted := ⟨_, rfl⟩
  have hlaws := keyedMergeLaws (writes_wellFormed initial_wellFormed hnoted)
  have hepoch : noted.maxEpoch ≤ 1 := by
    cases hnoted
    apply Nat.le_refl
  obtain ⟨final, hfinal⟩ := hlaws.accepted 1 hepoch [[seenNote 2], [seenNote 3]]
  obtain ⟨final', hfinal'⟩ := hlaws.accepted 1 hepoch [[seenNote 3, seenNote 2]]
  use noted, final, final', hnoted, hfinal, hfinal'
  apply (hlaws.reordered _ _ final final' hfinal hfinal' _ _).2.1
  apply List.Perm.swap

end SessionState

end Orcastork
