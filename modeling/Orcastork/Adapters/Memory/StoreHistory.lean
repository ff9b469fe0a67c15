import Orcastork.Adapters.Memory.StoreMerge

/-!
# Histories of the store

What happens to one identity between two states of a session is that nothing does, or that it
is added, or that it is observed again, later than before (`Advances`). Each of the two is
stamped past the revision of the earlier state. So the stamps, seen from that revision, tell
what happened (`Advances.added_iff`, `Advances.updated_iff`), and the change set since it is
the difference of the two snapshots.
-/

namespace Orcastork

namespace SessionState

/-! ### What happens to one identity -/

/-- What happens to an identity after a revision; the flag tells whether anything does. -/
inductive Advances (since : Revision) : Bool → Option Entry → Option Entry → Prop
  | same (entry : Option Entry) : Advances since false entry entry
  | added {entry : Entry} (hadded : since < entry.addedRev) :
      Advances since true none (some entry)
  | updated {entry : Entry} {lastRetrieved : Timestamp} {updatedRev : Revision}
      (hlater : entry.dataPoint.lastRetrieved < lastRetrieved) (hupdated : since < updatedRev) :
      Advances since true (some entry)
        (some ⟨entry.dataPoint.reobserved lastRetrieved, entry.addedRev, updatedRev⟩)

/-- A later observation is what is there from then on. -/
theorem lastRetrieved_later {dataPoint : BaseDataPoint} {lastRetrieved : Timestamp}
    (h : dataPoint.lastRetrieved < lastRetrieved) :
  (dataPoint.reobserved lastRetrieved).lastRetrieved = lastRetrieved
  := max_eq_right h.le

/-- What happens first and what happens then. -/
theorem Advances.trans {since since' : Revision} (hsince : since ≤ since') {moved moved' : Bool}
    {first second third : Option Entry} (h : Advances since moved first second)
    (h' : Advances since' moved' second third) :
  Advances since (moved || moved') first third
  := by
  cases h with
  | same =>
      cases h' with
      | same => exact Advances.same _
      | added hadded => exact Advances.added (hsince.trans_lt hadded)
      | updated hlater hupdated => exact Advances.updated hlater (hsince.trans_lt hupdated)
  | added hadded =>
      cases h' with
      | same => exact Advances.added hadded
      | updated hlater hupdated => exact Advances.added hadded
  | @updated entry lastRetrieved _ hlater hupdated =>
      cases h' with
      | same => exact Advances.updated hlater hupdated
      | @updated _ lastRetrieved' _ hlater' hupdated' =>
          rw [lastRetrieved_later hlater] at hlater'
          rw [reobserved_reobserved, max_eq_right hlater'.le]
          exact Advances.updated (hlater.trans hlater') (hsince.trans_lt hupdated')

variable {since : Revision} {moved : Bool} {before : Option Entry} {entry : Entry}

/-- An identity is stamped as added later exactly if it was not there. -/
theorem Advances.added_iff (h : Advances since moved before (some entry))
    (hbefore : ∀ old, before = some old → old.addedRev ≤ since) :
  since < entry.addedRev ↔ before = none
  := by
  cases h with
  | same =>
      apply iff_of_false
      · exact Nat.not_lt.mpr (hbefore entry rfl)
      · exact Option.some_ne_none entry
  | added hadded => exact iff_of_true hadded rfl
  | @updated old _ _ _ _ =>
      apply iff_of_false
      · exact Nat.not_lt.mpr (hbefore old rfl)
      · exact Option.some_ne_none old

/-- An identity that was there is stamped as updated later exactly if it has been observed
later than before. -/
theorem Advances.updated_iff (h : Advances since moved before (some entry))
    (hbefore : ∀ old, before = some old → old.addedRev ≤ since ∧ old.updatedRev ≤ since) :
  entry.addedRev ≤ since ∧ since < entry.updatedRev
    ↔ ∃ old, before = some old ∧ old.dataPoint.lastRetrieved < entry.dataPoint.lastRetrieved
  := by
  cases h with
  | same =>
      apply iff_of_false
      · rintro ⟨-, hupdated⟩
        exact absurd hupdated (Nat.not_lt.mpr (hbefore entry rfl).2)
      · rintro ⟨old, hold, hlater⟩
        cases hold
        exact lt_irrefl _ hlater
  | added hadded =>
      apply iff_of_false
      · rintro ⟨hle, -⟩
        exact absurd hadded (Nat.not_lt.mpr hle)
      · rintro ⟨old, hold, -⟩
        cases hold
  | @updated old lastRetrieved updatedRev hlater hupdated =>
      apply iff_of_true
      · exact ⟨(hbefore old rfl).1, hupdated⟩
      · use old, rfl
        rw [lastRetrieved_later hlater]
        exact hlater

/-- What was there is there, observed then or later, and otherwise as it was. -/
theorem Advances.kept {old : Entry} {after : Option Entry}
    (h : Advances since moved (some old) after) :
  ∃ entry, after = some entry
    ∧ entry.dataPoint = { old.dataPoint with lastRetrieved := entry.dataPoint.lastRetrieved }
    ∧ old.dataPoint.lastRetrieved ≤ entry.dataPoint.lastRetrieved
  := by
  cases h with
  | same => exact ⟨old, rfl, rfl, le_rfl⟩
  | updated hlater hupdated => exact ⟨_, rfl, rfl, le_max_left _ _⟩

/-! ### What happens to the entries -/

/-- Every identity advances. -/
def Follows (since : Revision) (before after : Entries) : Prop :=
  ∀ key, ∃ moved, Advances since moved (before.get? key) (after.get? key)

/-- Some identity has moved. -/
def Differs (since : Revision) (before after : Entries) : Prop :=
  ∃ key, Advances since true (before.get? key) (after.get? key)

theorem Follows.refl (since : Revision) (entries : Entries) :
  Follows since entries entries
  := fun _ => ⟨false, Advances.same _⟩

theorem Follows.trans {since' : Revision} (hsince : since ≤ since') {first second third : Entries}
    (h : Follows since first second) (h' : Follows since' second third) :
  Follows since first third
  := by
  intro key
  obtain ⟨moved, hfirst⟩ := h key
  obtain ⟨moved', hsecond⟩ := h' key
  exact ⟨_, hfirst.trans hsince hsecond⟩

theorem Differs.follows {first second third : Entries} (h : Differs since first second)
    (h' : Follows since second third) :
  Differs since first third
  := by
  obtain ⟨key, hfirst⟩ := h
  obtain ⟨moved, hsecond⟩ := h' key
  exact ⟨key, hfirst.trans le_rfl hsecond⟩

/-- A merged DataPoint moves its identity, or changes nothing. -/
theorem mergeOne_advances {n : Revision} (hn : since < n) (entries : Entries) (changed : Bool)
    (dataPoint : BaseDataPoint) :
  mergeOne n (entries, changed) dataPoint = (entries, changed)
    ∨ ((mergeOne n (entries, changed) dataPoint).2 = true
      ∧ Differs since entries (mergeOne n (entries, changed) dataPoint).1
      ∧ Follows since entries (mergeOne n (entries, changed) dataPoint).1)
  := by
  have hset : ∀ entry : Entry,
      Advances since true (entries.get? (identityKey dataPoint)) (some entry) →
        Differs since entries (entries.set (identityKey dataPoint) entry)
          ∧ Follows since entries (entries.set (identityKey dataPoint) entry) := by
    intro entry hadvances
    constructor
    · use identityKey dataPoint
      rw [Dict.get?_set, if_pos rfl]
      exact hadvances
    · intro key
      rw [Dict.get?_set]
      split
      · rename_i hkey
        subst hkey
        exact ⟨true, hadvances⟩
      · exact ⟨false, Advances.same _⟩
  cases hget : entries.get? (identityKey dataPoint) with
  | none =>
      right
      rw [mergeOne_new hget]
      refine ⟨rfl, hset _ ?_⟩
      rw [hget]
      exact Advances.added hn
  | some existing =>
      rcases lt_or_ge existing.dataPoint.lastRetrieved dataPoint.lastRetrieved with hlt | hle
      · right
        rw [mergeOne_newer hget hlt]
        refine ⟨rfl, hset _ ?_⟩
        rw [hget]
        exact Advances.updated hlt hn
      · left
        exact mergeOne_not_newer hget hle

/-- A merged batch follows the entries, and differs from them if its flag is up. -/
theorem foldl_mergeOne_follows {n : Revision} (hn : since < n) (batch : List BaseDataPoint)
    (entries : Entries) (changed : Bool) :
  let merged := batch.foldl (mergeOne n) (entries, changed)
  Follows since entries merged.1
    ∧ (merged.2 = true → changed = true ∨ Differs since entries merged.1)
  := by
  induction batch generalizing entries changed with
  | nil => exact ⟨Follows.refl since entries, Or.inl⟩
  | cons dataPoint batch ih =>
      simp only [List.foldl_cons]
      rcases mergeOne_advances hn entries changed dataPoint with hsame | ⟨-, hdiffers, hfollows⟩
      · rw [hsame]
        exact ih entries changed
      · obtain ⟨hrest, -⟩ := ih (mergeOne n (entries, changed) dataPoint).1
          (mergeOne n (entries, changed) dataPoint).2
        constructor
        · exact hfollows.trans le_rfl hrest
        · intro _
          right
          exact hdiffers.follows hrest

/-- An accepted write: the entries follow, and the revision advances by one where they differ. -/
theorem write_follows {state state' : SessionState} {batch : List BaseDataPoint} {epoch : Epoch}
    {revision : Revision} (hwrite : state.write batch epoch = .ok (revision, state')) :
  Follows state.revision state.entries state'.entries
    ∧ (state'.revision = state.revision + 1
          ∧ Differs state.revision state.entries state'.entries
        ∨ state'.revision = state.revision ∧ state'.entries = state.entries)
  := by
  rcases Nat.lt_or_ge epoch state.maxEpoch with hlt | hle
  · rw [write_of_lt hlt] at hwrite
    cases hwrite
  · rw [write_of_le hle rfl] at hwrite
    cases hwrite
    obtain ⟨hfollows, hdiffers⟩ := foldl_mergeOne_follows (Nat.lt_succ_self state.revision) batch
      state.entries false
    constructor
    · exact hfollows
    · cases hchanged : (batch.foldl (mergeOne (state.revision + 1)) (state.entries, false)).2 with
      | true =>
          left
          constructor
          · rfl
          · exact (hdiffers hchanged).resolve_left Bool.false_ne_true
      | false =>
          right
          constructor
          · rfl
          · rw [foldl_mergeOne_unchanged hchanged]

/-- An entry as it is later: observed then or later, and otherwise as it was; its updated stamp
is not older. -/
structure Later (old entry : Entry) : Prop where
  dataPoint : entry.dataPoint
    = { old.dataPoint with lastRetrieved := entry.dataPoint.lastRetrieved }
  lastRetrieved : old.dataPoint.lastRetrieved ≤ entry.dataPoint.lastRetrieved
  addedRev : entry.addedRev = old.addedRev
  updatedRev : old.updatedRev ≤ entry.updatedRev

/-- What advances is there later. -/
theorem Advances.later {old : Entry} {after : Option Entry}
    (h : Advances since moved (some old) after) (hold : old.updatedRev ≤ since) :
  ∃ entry, after = some entry ∧ Later old entry
  := by
  cases h with
  | same => exact ⟨old, rfl, rfl, le_rfl, rfl, le_rfl⟩
  | updated hlater hupdated =>
      exact ⟨_, rfl, rfl, le_max_left _ _, rfl, hold.trans hupdated.le⟩

/-- What is there when a batch is written is there later. -/
theorem write_later {state state' : SessionState} (h : state.WellFormed)
    {batch : List BaseDataPoint} {epoch : Epoch} {revision : Revision}
    (hwrite : state.write batch epoch = .ok (revision, state')) {key : IdentityKey} {old : Entry}
    (hget : state.entries.get? key = some old) :
  ∃ entry, state'.entries.get? key = some entry ∧ Later old entry
  := by
  obtain ⟨moved, hadvances⟩ := (write_follows hwrite).1 key
  rw [hget] at hadvances
  exact hadvances.later (h.updated_le hget)

/-! ### The difference of two snapshots -/

variable {state state' : SessionState}

/-- The identities of a snapshot are those of the entries. -/
theorem mem_snapshot_identities (h : state.WellFormed) {key : IdentityKey} :
  key ∈ state.snapshot.map identityKey ↔ ∃ entry, state.entries.get? key = some entry
  := by
  rw [snapshot, List.map_map, List.mem_map]
  constructor
  · rintro ⟨entry, hentry, rfl⟩
    obtain ⟨key, hget⟩ := Dict.mem_values_iff.mp hentry
    use entry
    rw [Function.comp_apply, h.keyed hget]
    exact hget
  · rintro ⟨entry, hget⟩
    exact ⟨entry, Dict.mem_values_iff.mpr ⟨key, hget⟩, h.keyed hget⟩

/-- A DataPoint of a snapshot is that of an entry at its identity. -/
theorem mem_snapshot_iff (h : state.WellFormed) {dataPoint : BaseDataPoint} :
  dataPoint ∈ state.snapshot ↔ ∃ entry,
    state.entries.get? (identityKey dataPoint) = some entry ∧ entry.dataPoint = dataPoint
  := by
  rw [snapshot, List.mem_map]
  constructor
  · rintro ⟨entry, hentry, rfl⟩
    obtain ⟨key, hget⟩ := Dict.mem_values_iff.mp hentry
    use entry
    rw [h.keyed hget]
    exact ⟨hget, rfl⟩
  · rintro ⟨entry, hget, hdp⟩
    exact ⟨entry, Dict.mem_values_iff.mpr ⟨_, hget⟩, hdp⟩

/-- The DataPoints whose identities an earlier snapshot does not have. -/
def addedTo (before after : DataPointView) : DataPointView :=
  after.filter (fun dataPoint => identityKey dataPoint ∉ before.map identityKey)

/-- The DataPoints whose identities an earlier snapshot has, with an earlier retrieval. -/
def updatedIn (before after : DataPointView) : DataPointView :=
  after.filter (fun dataPoint => ∃ old ∈ before,
    identityKey old = identityKey dataPoint ∧ old.lastRetrieved < dataPoint.lastRetrieved)

/-- A part of a snapshot is that of a part of the entries. -/
theorem filter_snapshot (state : SessionState) (p : BaseDataPoint → Bool) :
  state.snapshot.filter p
    = (state.entries.values.filter (fun entry => p entry.dataPoint)).map Entry.dataPoint
  := List.filter_map

/-- The change set since a revision is the difference of the snapshots. -/
theorem changeSetSince_eq (h : state.WellFormed) (h' : state'.WellFormed)
    (hfollows : Follows state.revision state.entries state'.entries) :
  (state'.changeSetSince state.revision).added = addedTo state.snapshot state'.snapshot
    ∧ (state'.changeSetSince state.revision).updated = updatedIn state.snapshot state'.snapshot
  := by
  have hbounds : ∀ {key old}, state.entries.get? key = some old →
      old.addedRev ≤ state.revision ∧ old.updatedRev ≤ state.revision := by
    intro key old hget
    exact ⟨(h.added_le hget).trans (h.updated_le hget), h.updated_le hget⟩
  constructor
  · rw [addedTo, filter_snapshot, changeSetSince]
    apply congrArg (List.map Entry.dataPoint)
    apply List.filter_congr
    intro entry hentry
    obtain ⟨key, hget⟩ := Dict.mem_values_iff.mp hentry
    obtain ⟨moved, hadvances⟩ := hfollows key
    rw [hget] at hadvances
    rw [decide_eq_decide, h'.keyed hget, mem_snapshot_identities h,
      gt_iff_lt, hadvances.added_iff (fun old hold => (hbounds hold).1),
      ← Option.not_isSome_iff_eq_none, Option.isSome_iff_exists]
  · rw [updatedIn, filter_snapshot, changeSetSince]
    apply congrArg (List.map Entry.dataPoint)
    apply List.filter_congr
    intro entry hentry
    obtain ⟨key, hget⟩ := Dict.mem_values_iff.mp hentry
    obtain ⟨moved, hadvances⟩ := hfollows key
    rw [hget] at hadvances
    rw [decide_eq_decide,
      hadvances.updated_iff (fun old hold => hbounds hold), h'.keyed hget]
    constructor
    · rintro ⟨old, hold, hlater⟩
      refine ⟨old.dataPoint, ?_, h.keyed hold, hlater⟩
      rw [mem_snapshot_iff h]
      exact ⟨old, by rw [h.keyed hold]; exact hold, rfl⟩
    · rintro ⟨dataPoint, hmem, hkey, hlater⟩
      obtain ⟨old, hold, rfl⟩ := (mem_snapshot_iff h).mp hmem
      rw [hkey] at hold
      exact ⟨old, hold, hlater⟩

/-- Nothing is added and updated. -/
theorem nodup_difference (before : DataPointView) (h' : state'.WellFormed) :
  ((addedTo before state'.snapshot ++ updatedIn before state'.snapshot).map identityKey).Nodup
  := by
  have hnodup := nodup_identityKey_snapshot h'
  rw [List.map_append, List.nodup_append]
  refine ⟨(List.filter_sublist.map _).nodup hnodup, (List.filter_sublist.map _).nodup hnodup, ?_⟩
  rintro key hadded key' hupdated rfl
  obtain ⟨dataPoint, hmem, rfl⟩ := List.mem_map.mp hadded
  obtain ⟨dataPoint', hmem', hkey⟩ := List.mem_map.mp hupdated
  obtain ⟨-, hnew⟩ := List.mem_filter.mp hmem
  obtain ⟨-, hold⟩ := List.mem_filter.mp hmem'
  obtain ⟨old, hold, holdKey, -⟩ := of_decide_eq_true hold
  apply of_decide_eq_true hnew
  rw [← hkey, ← holdKey]
  exact List.mem_map_of_mem hold

/-- What a snapshot has, a later one has as well, with the same value and provenance. -/
theorem snapshot_kept (h : state.WellFormed) (h' : state'.WellFormed)
    (hfollows : Follows state.revision state.entries state'.entries) {old : BaseDataPoint}
    (hold : old ∈ state.snapshot) :
  ∃ dataPoint ∈ state'.snapshot,
    dataPoint = { old with lastRetrieved := dataPoint.lastRetrieved }
      ∧ old.lastRetrieved ≤ dataPoint.lastRetrieved
  := by
  obtain ⟨entry, hget, rfl⟩ := (mem_snapshot_iff h).mp hold
  obtain ⟨moved, hadvances⟩ := hfollows (identityKey entry.dataPoint)
  rw [hget] at hadvances
  obtain ⟨entry', hget', hkept, hle⟩ := hadvances.kept
  refine ⟨entry'.dataPoint, ?_, hkept, hle⟩
  rw [mem_snapshot_iff h']
  exact ⟨entry', by rw [h'.keyed hget']; exact hget', rfl⟩

/-- Where the entries differ, the snapshots do. -/
theorem snapshot_ne_of_differs {since : Revision} (h : state.WellFormed) (h' : state'.WellFormed)
    (hdiffers : Differs since state.entries state'.entries) :
  state'.snapshot ≠ state.snapshot
  := by
  intro hsame
  obtain ⟨key, hadvances⟩ := hdiffers
  generalize hbefore : state.entries.get? key = before at hadvances
  generalize hafter : state'.entries.get? key = after at hadvances
  have hfound : ∀ {entry}, after = some entry →
      ∃ old, before = some old ∧ old.dataPoint = entry.dataPoint := by
    rintro entry rfl
    have hmem : entry.dataPoint ∈ state.snapshot := by
      rw [← hsame, mem_snapshot_iff h', h'.keyed hafter]
      exact ⟨entry, hafter, rfl⟩
    obtain ⟨old, hold, hdp⟩ := (mem_snapshot_iff h).mp hmem
    rw [h'.keyed hafter, hbefore] at hold
    exact ⟨old, hold, hdp⟩
  cases hadvances with
  | added hadded =>
      obtain ⟨old, hold, -⟩ := hfound rfl
      cases hold
  | updated hlater hupdated =>
      obtain ⟨old, hold, hdp⟩ := hfound rfl
      cases hold
      have hlast := congrArg BaseDataPoint.lastRetrieved hdp
      rw [lastRetrieved_later hlater] at hlast
      exact absurd hlast hlater.ne

end SessionState

end Orcastork
